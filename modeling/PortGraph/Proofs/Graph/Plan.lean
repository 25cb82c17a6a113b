import PortGraph.Graph.Schedule
import PortGraph.Proofs.Graph.Links
import PortGraph.Proofs.Order.Canonical

/-!
# What a plan says about a graph

The plan of a graph depends on its skeleton only (`plan_skeleton`): neither values nor flags nor a
former schedule have a part in it.

In a well-linked graph every link has an edge and a pull, so a plan fails for two reasons only, a
cycle or a required input that nothing supplies (`WellLinked.plan_eq_error_iff`).  The positions of
`Graph.sorted` are turned into names here: `rank` is the position at which a node was added, and
`Feeds` says between which nodes there are links.
-/

set_option autoImplicit false

namespace PortGraph

/-! ## Refusals -/

theorem bind_eq_ok {α β ε : Type} {x : Except ε α} {f : α → Except ε β} {b : β}
    (h : x >>= f = .ok b) : ∃ a, x = .ok a ∧ f a = .ok b := by
  cases x with
  | error e => exact absurd h (by simp [bind, Except.bind])
  | ok a => exact ⟨a, rfl, h⟩

theorem bind_eq_error {α β ε : Type} {x : Except ε α} {f : α → Except ε β} {e : ε}
    (h : x >>= f = .error e) : x = .error e ∨ ∃ a, x = .ok a ∧ f a = .error e := by
  cases x with
  | error cause => exact .inl (congrArg Except.error (Except.error.inj h))
  | ok a => exact .inr ⟨a, rfl, h⟩

theorem exists_ok_of_isOk {α ε : Type} {x : Except ε α} (h : x.isOk = true) : ∃ a, x = .ok a := by
  cases x with
  | error e => exact absurd h (by simp [Except.isOk, Except.toBool])
  | ok a => exact ⟨a, rfl⟩

theorem mapM_eq_ok_iff {α β ε : Type} {f : α → Except ε β} {as : List α} {bs : List β} :
    as.mapM f = .ok bs ↔ List.Forall₂ (fun a b ↦ f a = .ok b) as bs := by
  induction as generalizing bs with
  | nil => cases bs <;> simp [pure, Except.pure]
  | cons a as ih =>
    rw [List.mapM_cons]
    cases ha : f a with
    | error e =>
      simp only [bind, Except.bind, reduceCtorEq, false_iff]
      intro h
      cases h with
      | cons hab _ => exact absurd (ha.symm.trans hab) (by simp)
    | ok b =>
      cases has : as.mapM f with
      | error e =>
        simp only [bind, Except.bind, reduceCtorEq, false_iff]
        intro h
        cases h with
        | cons _ hrest => exact absurd (has.symm.trans (ih.mpr hrest)) (by simp)
      | ok bs' =>
        have hrest := ih.mp has
        simp only [bind, Except.bind, pure, Except.pure, Except.ok.injEq]
        constructor
        · rintro rfl
          exact .cons ha hrest
        · intro h
          cases h with
          | cons hab hrest' =>
            rw [← Except.ok.inj (ha.symm.trans hab),
              Except.ok.inj (has.symm.trans (ih.mpr hrest'))]

theorem mapM_ok_of_forall {α β ε : Type} {f : α → Except ε β} {k : α → β} {as : List α}
    (h : ∀ a ∈ as, f a = .ok (k a)) : as.mapM f = .ok (as.map k) := by
  rw [mapM_eq_ok_iff, List.forall₂_map_right_iff, List.forall₂_same]
  exact h

theorem exists_mapM_ok {α β ε : Type} {f : α → Except ε β} {as : List α}
    (h : ∀ a ∈ as, ∃ b, f a = .ok b) : ∃ bs, as.mapM f = .ok bs := by
  induction as with
  | nil => exact ⟨[], rfl⟩
  | cons a as ih =>
    obtain ⟨b, hb⟩ := h a List.mem_cons_self
    obtain ⟨bs, hbs⟩ := ih fun x hx ↦ h x (List.mem_cons_of_mem _ hx)
    exact ⟨b :: bs, mapM_eq_ok_iff.mpr (.cons hb (mapM_eq_ok_iff.mp hbs))⟩

namespace Graph

variable {β : Type} {g : Graph β}

/-! ## The skeleton decides -/

theorem position_skeleton (g : Graph β) (name : String) :
    g.skeleton.position name = g.position name := by
  rw [position, position, skeleton, List.findIdx?_map]
  rfl

theorem edge_skeleton (g : Graph β) : g.skeleton.edge = g.edge := by
  funext l
  rw [edge, edge, position_skeleton, position_skeleton]

theorem namesAt_eq (g : Graph β) (positions : List Nat) :
    g.namesAt positions = positions.filterMap (g.nodeNames[·]?) := by
  simp [namesAt, nodeNames]

theorem namesAt_skeleton (g : Graph β) : g.skeleton.namesAt = g.namesAt := by
  funext positions
  rw [namesAt_eq, namesAt_eq, nodeNames_skeleton]

theorem sorted_skeleton (g : Graph β) : g.skeleton.sorted = g.sorted := by
  rw [sorted, sorted, edge_skeleton, namesAt_skeleton, length_slots_skeleton, skeleton_links]

theorem unsatisfied?_skeleton (g : Graph β) : g.skeleton.unsatisfied? = g.unsatisfied? := by
  rw [unsatisfied?, skeleton, List.findSome?_map, unsatisfied?]
  congr 1
  funext s
  rw [Function.comp_apply, show s.node.panel.bare.inputs = s.node.panel.inputs.map (·.store none)
    from rfl, List.find?_map, Option.map_map]
  rfl

theorem portPosition_skeleton (g : Graph β) (node : Nat) (side : Direction) (e : Endpoint) :
    g.skeleton.portPosition node side e = g.portPosition node side e := by
  rw [portPosition, portPosition, getElem?_slots_skeleton, Option.bind_map]
  simp only [Function.comp_def, Panel.position?_bare]

theorem pull_skeleton (g : Graph β) : g.skeleton.pull = g.pull := by
  funext l
  simp only [pull, edge_skeleton, portPosition_skeleton]

/-- **The plan depends on the skeleton only.** -/
theorem plan_skeleton (g : Graph β) : g.skeleton.plan = g.plan := by
  rw [plan, plan, sorted_skeleton, unsatisfied?_skeleton, pull_skeleton, skeleton_links]

theorem plan_of_skeleton_eq {γ : Type} {k : Graph γ} (h : k.skeleton = g.skeleton) :
    k.plan = g.plan := by
  rw [← plan_skeleton k, h, plan_skeleton]

/-! ## Names and positions -/

/-- The position at which a node was added. -/
def rank (g : Graph β) (name : String) : Nat := g.nodeNames.idxOf name

/-- The edges of the links. -/
def edges (g : Graph β) : List Edge :=
  g.links.map fun l ↦ (g.rank l.source.node, g.rank l.target.node)

theorem rank_lt {name : String} (h : name ∈ g.nodeNames) : g.rank name < g.slots.length := by
  have hlt := List.idxOf_lt_length_of_mem h
  rwa [nodeNames, List.length_map] at hlt

theorem getElem?_rank {name : String} (h : name ∈ g.nodeNames) :
    g.nodeNames[g.rank name]? = some name := by
  rw [rank, List.getElem?_eq_getElem (List.idxOf_lt_length_of_mem h), List.getElem_idxOf]

theorem rank_eq_of_getElem? (hnd : g.nodeNames.Nodup) {name : String} {i : Nat}
    (h : g.nodeNames[i]? = some name) : g.rank name = i := by
  obtain ⟨hi, rfl⟩ := List.getElem?_eq_some_iff.mp h
  exact hnd.idxOf_getElem i hi

theorem rank_inj {a b : String} (ha : a ∈ g.nodeNames) (h : g.rank a = g.rank b) : a = b :=
  List.idxOf_inj ha |>.mp h

theorem position_eq {name : String} (h : name ∈ g.nodeNames) :
    g.position name = .ok (g.rank name) := by
  have hfind : g.slots.findIdx? (fun s ↦ s.key = name) = some (g.rank name) := by
    rw [List.findIdx?_eq_some_iff_findIdx_eq]
    refine ⟨rank_lt h, ?_⟩
    rw [rank, nodeNames, List.idxOf, List.findIdx_map]
    rfl
  rw [position, hfind]

theorem edge_eq (h : g.WellLinked) {l : Link} (hl : l ∈ g.links) :
    g.edge l = .ok (g.rank l.source.node, g.rank l.target.node) := by
  have hsource : g.position l.source.node = .ok (g.rank l.source.node) :=
    position_eq (h.node_mem hl .output)
  have htarget : g.position l.target.node = .ok (g.rank l.target.node) :=
    position_eq (h.node_mem hl .input)
  rw [edge, hsource, htarget]
  rfl

theorem mapM_edge (h : g.WellLinked) : g.links.mapM g.edge = .ok g.edges :=
  mapM_ok_of_forall fun _ hl ↦ edge_eq h hl

theorem bounded_edges (h : g.WellLinked) : Edge.Bounded g.slots.length g.edges := by
  intro e he
  obtain ⟨l, hl, rfl⟩ := List.mem_map.mp he
  exact ⟨rank_lt (h.node_mem hl .output), rank_lt (h.node_mem hl .input)⟩

/-! ## The order of a plan -/

/-- The traversal of a graph. -/
def traversal (g : Graph β) : Traversal := Traversal.complete g.slots.length g.edges

theorem sorted_eq (h : g.WellLinked) :
    g.sorted =
      if g.traversal.taken.length < g.slots.length then
        .error (.cyclicGraph (g.namesAt g.traversal.stuck))
      else .ok g.traversal.taken := by
  rw [sorted, mapM_edge h]
  rfl

theorem WellLinked.sorted_eq_ok (h : g.WellLinked) {order : List Nat} (ho : g.sorted = .ok order) :
    order = g.traversal.taken ∧ order.Perm (List.range g.slots.length) := by
  rw [sorted_eq h] at ho
  split at ho
  · exact absurd ho (by simp)
  · rename_i hge
    obtain rfl : g.traversal.taken = order := Except.ok.inj ho
    exact ⟨rfl, Traversal.perm_range_of_le_length (bounded_edges h) (Nat.le_of_not_lt hge)⟩

/-! ## Pulls -/

/-- The port at a position on a side of the node at a position. -/
def endpointAt (g : Graph β) (side : Direction) (node i : Nat) : Option Endpoint :=
  g.slots[node]?.bind fun s ↦ (s.node.panel.ports side)[i]?.map fun p ↦ ⟨s.key, p.name⟩

/-- The positions in a pull of a node are those of the ports at the ends of a link. -/
def Draws (g : Graph β) (node : Nat) (p : Pull) (l : Link) : Prop :=
  g.endpointAt .output p.source p.output = some l.source ∧
    g.endpointAt .input node p.input = some l.target

theorem endpointAt_skeleton (g : Graph β) : g.skeleton.endpointAt = g.endpointAt := by
  funext side node i
  rw [endpointAt, getElem?_slots_skeleton, Option.bind_map, endpointAt]
  congr 1
  funext s
  rw [Function.comp_apply, Panel.ports_bare, List.getElem?_map, Option.map_map]
  rfl

theorem position_eq_ok {name : String} {i : Nat} (h : g.position name = .ok i) :
    ∃ s, g.slots[i]? = some s ∧ s.key = name := by
  rw [position] at h
  split at h
  · rename_i j hj
    obtain rfl : j = i := Except.ok.inj h
    obtain ⟨hlt, hkey, -⟩ := List.findIdx?_eq_some_iff_getElem.mp hj
    exact ⟨g.slots[j], List.getElem?_eq_getElem hlt, of_decide_eq_true hkey⟩
  · exact absurd h (by simp)

theorem portPosition_eq_ok {node i : Nat} {side : Direction} {e : Endpoint}
    (h : g.portPosition node side e = .ok i) (hn : g.position e.node = .ok node) :
    g.endpointAt side node i = some e := by
  obtain ⟨s, hs, hkey⟩ := position_eq_ok hn
  rw [portPosition, hs, Option.bind_some] at h
  split at h
  · rename_i j hj
    obtain rfl : j = i := Except.ok.inj h
    obtain ⟨hlt, hname, -⟩ := List.findIdx?_eq_some_iff_getElem.mp hj
    rw [endpointAt, hs, Option.bind_some, List.getElem?_eq_getElem hlt, Option.map_some, hkey,
      of_decide_eq_true hname]
  · exact absurd h (by simp)

theorem exists_portPosition {side : Direction} {e : Endpoint} {p : Port} {node : Nat}
    (hnd : g.nodeNames.Nodup) (hn : g.position e.node = .ok node)
    (h : g.port? side e = some p) : ∃ i, g.portPosition node side e = .ok i := by
  obtain ⟨s, hs, hkey⟩ := position_eq_ok hn
  obtain ⟨n, hnode, hp⟩ := Option.bind_eq_some_iff.mp h
  have hmem : (⟨e.node, s.node⟩ : Slot β) ∈ g.slots := hkey ▸ List.mem_of_getElem? hs
  obtain rfl : s.node = n := by
    rw [(node?_eq_some_iff hnd).mpr hmem] at hnode
    exact Option.some.inj hnode
  have hfind : (s.node.panel.position? side e.port).isSome := by
    obtain ⟨hmem, hname⟩ := Port.mem_of_named? hp
    rw [Panel.position?, Port.position?, List.findIdx?_isSome, List.any_eq_true]
    exact ⟨p, hmem, decide_eq_true hname⟩
  obtain ⟨i, hi⟩ := Option.isSome_iff_exists.mp hfind
  refine ⟨i, ?_⟩
  rw [portPosition, hs, Option.bind_some, hi]

theorem pull_eq_ok {l : Link} {q : Nat × Pull} (h : g.pull l = .ok q) : g.Draws q.1 q.2 l := by
  rw [pull, edge] at h
  obtain ⟨e, he, h⟩ := bind_eq_ok h
  obtain ⟨source, hs, he⟩ := bind_eq_ok he
  obtain ⟨target, ht, he⟩ := bind_eq_ok he
  obtain rfl : (source, target) = e := Except.ok.inj he
  obtain ⟨output, ho, h⟩ := bind_eq_ok h
  obtain ⟨input, hi, h⟩ := bind_eq_ok h
  obtain rfl : (target, ⟨input, source, output⟩) = q := Except.ok.inj h
  exact ⟨portPosition_eq_ok ho hs, portPosition_eq_ok hi ht⟩

/-- **Every link has a pull**: neither a node nor a port is missed. -/
theorem WellLinked.exists_pull (h : g.WellLinked) {l : Link} (hl : l ∈ g.links) :
    ∃ p, g.pull l = .ok (g.rank l.target.node, p) := by
  have hsource : g.position l.source.node = .ok (g.rank l.source.node) :=
    position_eq (h.node_mem hl .output)
  have htarget : g.position l.target.node = .ok (g.rank l.target.node) :=
    position_eq (h.node_mem hl .input)
  obtain ⟨p, hp, -⟩ := h.ends l hl .output
  obtain ⟨q, hq, -⟩ := h.ends l hl .input
  obtain ⟨output, ho⟩ : ∃ i, g.portPosition (g.rank l.source.node) .output l.source = .ok i :=
    exists_portPosition h.keys_nodup hsource hp
  obtain ⟨input, hi⟩ : ∃ i, g.portPosition (g.rank l.target.node) .input l.target = .ok i :=
    exists_portPosition h.keys_nodup htarget hq
  refine ⟨⟨input, g.rank l.source.node, output⟩, ?_⟩
  rw [pull, edge_eq h hl]
  simp only [bind, Except.bind, ho, hi]
  rfl

theorem WellLinked.mapM_pull (h : g.WellLinked) : ∃ pulls, g.links.mapM g.pull = .ok pulls :=
  exists_mapM_ok fun l hl ↦ (h.exists_pull hl).imp' (g.rank l.target.node, ·) fun _ hp ↦ hp

/-! ## The plan -/

theorem plan_eq_ok_iff {schedule : List Step} :
    g.plan = .ok schedule ↔ ∃ order pulls, g.sorted = .ok order ∧ g.unsatisfied? = none ∧
      g.links.mapM g.pull = .ok pulls ∧ schedule = order.map (step pulls) := by
  rw [plan]
  cases g.sorted with
  | error e => simp [bind, Except.bind]
  | ok order =>
    cases g.unsatisfied? with
    | some place => simp [bind, Except.bind, throw, throwThe, MonadExceptOf.throw]
    | none =>
      cases g.links.mapM g.pull with
      | error e => simp [bind, Except.bind]
      | ok pulls => simp [bind, Except.bind, pure, Except.pure, eq_comm]

/-- Every node has one turn in a plan. -/
theorem WellLinked.map_node_of_plan (h : g.WellLinked) {schedule : List Step}
    (hp : g.plan = .ok schedule) :
    schedule.map Step.node = g.traversal.taken ∧
      (schedule.map Step.node).Perm (List.range g.slots.length) := by
  obtain ⟨order, pulls, ho, -, -, rfl⟩ := plan_eq_ok_iff.mp hp
  obtain ⟨rfl, hperm⟩ := h.sorted_eq_ok ho
  have hnodes : (g.traversal.taken.map (step pulls)).map Step.node = g.traversal.taken := by
    rw [List.map_map]
    exact List.map_id'' (fun _ ↦ rfl) _
  rw [hnodes]
  exact ⟨rfl, hperm⟩

/-- **A plan is refused for a cycle or for a required input that nothing supplies.** -/
theorem WellLinked.plan_eq_error_iff (h : g.WellLinked) {e : GraphError} :
    g.plan = .error e ↔ g.sorted = .error e ∨
      (∃ order, g.sorted = .ok order) ∧ ∃ place, g.unsatisfied? = some place ∧
        e = .unsatisfiedInput place := by
  obtain ⟨pulls, hpulls⟩ := h.mapM_pull
  rw [plan]
  cases g.sorted with
  | error e' => simp [bind, Except.bind]
  | ok order =>
    cases g.unsatisfied? with
    | some place =>
      simp [bind, Except.bind, throw, throwThe, MonadExceptOf.throw, eq_comm]
    | none => simp [bind, Except.bind, hpulls, pure, Except.pure]

end Graph
end PortGraph
