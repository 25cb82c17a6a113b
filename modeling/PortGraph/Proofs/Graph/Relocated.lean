import PortGraph.Proofs.Graph.Compiled

/-!
# Graphs under new names

`Graph.relocate` puts a new name in the place of every old one: where a node is kept, on its panel and
at the ends of the links.  As long as no two nodes come to share a name, compiling does not notice.

* The plan is the same, as it speaks of positions only, and whatever is refused is refused in the new
  names (`WellLinked.plan_relocate`).  So order and levels are those of before in the new names
  (`order_eq_map`, `levels_eq_map`).
* If moreover nodes do not go by the names they bear (`Lifecycle.IgnoresNames`), the whole compilation
  gives what it gave before (`WellLinked.compile_relocate`).
-/

set_option autoImplicit false

namespace PortGraph

variable {β γ : Type} {ρ : String → String}

/-! ## New names -/

/-- The place when the node takes a new name. -/
def Endpoint.relocate (ρ : String → String) (e : Endpoint) : Endpoint := { e with node := ρ e.node }

/-- The link between ports of nodes that are called anew. -/
def Link.relocate (ρ : String → String) (l : Link) : Link :=
  { l with source := l.source.relocate ρ, target := l.target.relocate ρ }

/-- The name of a node after one of them was renamed. -/
def renamed (old new name : String) : String := if name = old then new else name

theorem Endpoint.rename_eq_relocate (e : Endpoint) (old new : String) :
    e.rename old new = e.relocate (renamed old new) := by
  rw [Endpoint.rename, Endpoint.relocate, renamed]
  split <;> rfl

theorem Link.rename_eq_relocate (l : Link) (old new : String) :
    l.rename old new = l.relocate (renamed old new) := by
  rw [Link.rename, Link.relocate, l.source.rename_eq_relocate, l.target.rename_eq_relocate]

/-- The place of a node that is called anew. -/
def Slot.relocate (ρ : String → String) (s : Slot β) : Slot β := ⟨ρ s.key, s.node.rename (ρ s.key)⟩

/-- What keeps a graph from compiling, when its nodes are called anew. -/
def GraphError.relocate (ρ : String → String) : GraphError → GraphError
  | .cyclicGraph names => .cyclicGraph (names.map ρ)
  | .unsatisfiedInput place => .unsatisfiedInput (place.relocate ρ)
  | .initFailed node cause => .initFailed (ρ node) cause
  | e => e

namespace Graph

variable {g : Graph β}

/-- The graph whose nodes are called anew. -/
def relocate (ρ : String → String) (g : Graph β) : Graph β :=
  { g with slots := g.slots.map (·.relocate ρ), links := g.links.map (·.relocate ρ) }

/-! ## Positions -/

theorem nodeNames_relocate (ρ : String → String) (g : Graph β) :
    (g.relocate ρ).nodeNames = g.nodeNames.map ρ := by
  rw [nodeNames, relocate, nodeNames, List.map_map, List.map_map]
  rfl

theorem getElem?_slots_relocate (ρ : String → String) (g : Graph β) (i : Nat) :
    (g.relocate ρ).slots[i]? = g.slots[i]?.map (·.relocate ρ) :=
  List.getElem?_map ..

theorem length_slots_relocate (ρ : String → String) (g : Graph β) :
    (g.relocate ρ).slots.length = g.slots.length :=
  List.length_map _

/-- At the same positions there are the new names. -/
theorem namesAt_eq_map_namesAt {h : Graph γ} (hnames : h.nodeNames = g.nodeNames.map ρ)
    (positions : List Nat) : h.namesAt positions = (g.namesAt positions).map ρ := by
  rw [namesAt_eq, namesAt_eq, hnames, List.map_filterMap]
  simp only [List.getElem?_map]

/-- A node is where it was. -/
theorem position_relocate (hnd : (g.nodeNames.map ρ).Nodup) {name : String}
    (hname : name ∈ g.nodeNames) : (g.relocate ρ).position (ρ name) = g.position name := by
  have hat : (g.relocate ρ).nodeNames[g.rank name]? = some (ρ name) := by
    rw [nodeNames_relocate, List.getElem?_map, getElem?_rank hname]
    rfl
  rw [position_eq hname, position_eq (List.mem_of_getElem? hat),
    rank_eq_of_getElem? (nodeNames_relocate ρ g ▸ hnd) hat]

theorem portPosition_relocate {node i : Nat} {side : Direction} {e : Endpoint}
    (hi : g.portPosition node side e = .ok i) :
    (g.relocate ρ).portPosition node side (e.relocate ρ) = .ok i := by
  have hfind : (g.relocate ρ).slots[node]?.bind (·.node.panel.position? side (e.relocate ρ).port) =
      g.slots[node]?.bind (·.node.panel.position? side e.port) := by
    rw [getElem?_slots_relocate, Option.bind_map]
    cases side <;> rfl
  rw [portPosition] at hi ⊢
  rw [hfind]
  split at hi
  · exact hi
  · exact absurd hi (by simp)

/-! ## Plans -/

theorem mapM_map_congr {α α' ε : Type} {f : α → α'} {F : α' → Except ε γ} {F' : α → Except ε γ}
    {as : List α} (h : ∀ a ∈ as, F (f a) = F' a) : (as.map f).mapM F = as.mapM F' := by
  induction as with
  | nil => rfl
  | cons a as ih =>
    rw [List.forall_mem_cons] at h
    rw [List.map_cons, List.mapM_cons, List.mapM_cons, h.1, ih h.2]

theorem WellLinked.edge_relocate (h : g.WellLinked) (hnd : (g.nodeNames.map ρ).Nodup) {l : Link}
    (hl : l ∈ g.links) : (g.relocate ρ).edge (l.relocate ρ) = g.edge l := by
  have hsource : (g.relocate ρ).position (l.relocate ρ).source.node = g.position l.source.node :=
    position_relocate hnd (h.node_mem hl .output)
  have htarget : (g.relocate ρ).position (l.relocate ρ).target.node = g.position l.target.node :=
    position_relocate hnd (h.node_mem hl .input)
  rw [edge, edge, hsource, htarget]

theorem WellLinked.pull_relocate (h : g.WellLinked) (hnd : (g.nodeNames.map ρ).Nodup) {l : Link}
    (hl : l ∈ g.links) : (g.relocate ρ).pull (l.relocate ρ) = g.pull l := by
  obtain ⟨q, hq⟩ := h.exists_pull hl
  rw [hq]
  rw [pull] at hq
  obtain ⟨⟨source, target⟩, he, hq⟩ := bind_eq_ok hq
  obtain ⟨output, ho, hq⟩ := bind_eq_ok hq
  obtain ⟨input, hi, hq⟩ := bind_eq_ok hq
  have ho' : (g.relocate ρ).portPosition source .output (l.relocate ρ).source = .ok output :=
    portPosition_relocate ho
  have hi' : (g.relocate ρ).portPosition target .input (l.relocate ρ).target = .ok input :=
    portPosition_relocate hi
  rw [pull, h.edge_relocate hnd hl, he]
  simp only [bind, Except.bind, ho', hi']
  exact hq

theorem WellLinked.sorted_relocate (h : g.WellLinked) (hnd : (g.nodeNames.map ρ).Nodup) :
    (g.relocate ρ).sorted = g.sorted.mapError (·.relocate ρ) := by
  have hedges : (g.relocate ρ).links.mapM (g.relocate ρ).edge = .ok g.edges :=
    (mapM_map_congr fun l hl ↦ h.edge_relocate hnd hl).trans (mapM_edge h)
  rw [sorted, hedges, sorted, mapM_edge h, length_slots_relocate]
  simp only [bind, Except.bind, namesAt_eq_map_namesAt (nodeNames_relocate ρ g)]
  split <;> rfl

theorem unsatisfied?_relocate (ρ : String → String) (g : Graph β) :
    (g.relocate ρ).unsatisfied? = g.unsatisfied?.map (·.relocate ρ) := by
  rw [unsatisfied?, relocate, List.findSome?_map, unsatisfied?, List.map_findSome?]
  congr 1
  funext s
  rw [Function.comp_apply, Function.comp_apply, Option.map_map]
  rfl

/-- **The plan does not go by names**, and what is refused is refused in the new ones. -/
theorem WellLinked.plan_relocate (h : g.WellLinked) (hnd : (g.nodeNames.map ρ).Nodup) :
    (g.relocate ρ).plan = g.plan.mapError (·.relocate ρ) := by
  obtain ⟨pulls, hpulls⟩ := h.mapM_pull
  have hpulls' : (g.relocate ρ).links.mapM (g.relocate ρ).pull = .ok pulls :=
    (mapM_map_congr fun l hl ↦ h.pull_relocate hnd hl).trans hpulls
  rw [plan, plan, h.sorted_relocate hnd, unsatisfied?_relocate, hpulls, hpulls']
  cases g.sorted with
  | error e => rfl
  | ok order => cases g.unsatisfied? <;> rfl

/-! ## What a schedule shows -/

theorem order_eq_map {h : Graph γ} (hs : h.schedule = g.schedule)
    (hnames : h.nodeNames = g.nodeNames.map ρ) : h.order = g.order.map ρ := by
  rw [order, hs, namesAt_eq_map_namesAt hnames, order]

theorem levels_eq_map {h : Graph γ} (hs : h.schedule = g.schedule)
    (hnames : h.nodeNames = g.nodeNames.map ρ) : h.levels = g.levels.map (List.map ρ) := by
  rw [levels, hs, levels, List.map_map]
  exact List.map_congr_left fun _ _ ↦ namesAt_eq_map_namesAt hnames _

end Graph

/-! ## Calls -/

/-- What a node does when it is called does not depend on its name, nor how many stamps it takes. -/
structure Lifecycle.IgnoresNames (life : Lifecycle β) : Prop where
  /-- When it gets ready. -/
  init : ∀ n name stamp,
    (life.init (n.rename name) stamp).result = (life.init n stamp).result.map id (·.rename name) ∧
      (life.init (n.rename name) stamp).stamp = (life.init n stamp).stamp
  /-- When it is destroyed. -/
  destroy : ∀ n name stamp,
    (life.destroy (n.rename name) stamp).result = (life.destroy n stamp).result.rename name ∧
      (life.destroy (n.rename name) stamp).stamp = (life.destroy n stamp).stamp

namespace Lifecycle.IgnoresNames

variable {life : Lifecycle β}

theorem release (hi : life.IgnoresNames) (n : Node β) (name : String) (stamp : Nat) :
    (life.release (n.rename name) stamp).result = (life.release n stamp).result.rename name ∧
      (life.release (n.rename name) stamp).stamp = (life.release n stamp).stamp := by
  rw [Lifecycle.release, Lifecycle.release]
  have hflag : (n.rename name).panel.isInitialized = n.panel.isInitialized := rfl
  rw [hflag]
  split
  · obtain ⟨hresult, hstamp⟩ := hi.destroy n name stamp
    exact ⟨congrArg (·.setInitialized false) hresult, hstamp⟩
  · exact ⟨rfl, rfl⟩

theorem releaseAll (hi : life.IgnoresNames) (slots : List (Slot β)) (stamp : Nat) :
    (life.releaseAll (slots.map (·.relocate ρ)) stamp).result =
        (life.releaseAll slots stamp).result.map (·.relocate ρ) ∧
      (life.releaseAll (slots.map (·.relocate ρ)) stamp).stamp =
        (life.releaseAll slots stamp).stamp := by
  induction slots with
  | nil => exact ⟨rfl, rfl⟩
  | cons s slots ih =>
    obtain ⟨hresult, hstamp⟩ :=
      hi.release s.node (ρ s.key) (life.releaseAll slots stamp).stamp
    simp only [List.map_cons, Lifecycle.releaseAll, Act.bind_apply, Act.pure_apply, ih.1, ih.2]
    refine ⟨?_, hstamp⟩
    rw [Slot.relocate, Slot.relocate, ← hresult]

end Lifecycle.IgnoresNames

namespace Graph

variable {life : Lifecycle β} {g : Graph β}

theorem release_relocate (hi : life.IgnoresNames) (g : Graph β) (stamp : Nat) :
    ((g.relocate ρ).release life stamp).result = (g.release life stamp).result.relocate ρ ∧
      ((g.relocate ρ).release life stamp).stamp = (g.release life stamp).stamp := by
  obtain ⟨hresult, hstamp⟩ := hi.releaseAll (ρ := ρ) g.slots stamp
  refine ⟨?_, hstamp⟩
  exact congrArg (fun slots ↦ { (g.relocate ρ).unschedule with slots }) hresult

theorem resetOutputs_relocate (ρ : String → String) (g : Graph β) :
    (g.relocate ρ).resetOutputs = g.resetOutputs.relocate ρ := by
  rw [resetOutputs, relocate, relocate, resetOutputs]
  simp only [List.map_map]
  rfl

theorem setNodeAt_relocate {i : Nat} {s : Slot β} (hs : g.slots[i]? = some s) (n : Node β) :
    (g.relocate ρ).setNodeAt i (n.rename (ρ s.key)) = (g.setNodeAt i n).relocate ρ := by
  have hslots : (g.slots.map (·.relocate ρ)).modify i (·.mapNode fun _ ↦ n.rename (ρ s.key)) =
      (g.slots.modify i (·.mapNode fun _ ↦ n)).map (·.relocate ρ) := by
    refine List.ext_getElem? fun j ↦ ?_
    rw [List.getElem?_modify, List.getElem?_map, List.getElem?_map, List.getElem?_modify]
    split
    · rename_i hij
      rw [← hij, hs]
      rfl
    · cases g.slots[j]? <;> rfl
  exact congrArg (fun slots ↦ { g.relocate ρ with slots }) hslots

/-- Nodes get ready under new names as under the old ones. -/
theorem initAll_relocate (hi : life.IgnoresNames) (is : List Nat) (g : Graph β) (stamp : Nat) :
    (initAll life is (g.relocate ρ) stamp).result =
      (initAll life is g stamp).result.map (Except.mapError (·.relocate ρ)) (·.relocate ρ) := by
  induction is generalizing g stamp with
  | nil => rfl
  | cons i is ih =>
    rw [initAll, initAll, getElem?_slots_relocate]
    cases hs : g.slots[i]? with
    | none => exact ih g stamp
    | some s =>
      obtain ⟨hinit, hstamp⟩ := hi.init s.node (ρ s.key) stamp
      simp only [Option.map_some, Slot.relocate, Act.bind_apply, Lifecycle.callInit, Act.calling,
        hinit, hstamp, Prod.map_fst, Prod.map_snd, id_eq]
      cases (life.init s.node stamp).result.1 with
      | ok _ =>
        have hset := setNodeAt_relocate (ρ := ρ) hs
          ((life.init s.node stamp).result.2.setInitialized true)
        exact (congrArg (fun k ↦ (initAll life is k _).result) hset).trans (ih _ _)
      | error e =>
        have hset := setNodeAt_relocate (ρ := ρ) hs (life.init s.node stamp).result.2
        have hrelease := (release_relocate (ρ := ρ) hi
          (g.setNodeAt i (life.init s.node stamp).result.2) (life.init s.node stamp).stamp).1
        rw [← hset] at hrelease
        exact congrArg (Prod.mk _) hrelease

theorem stamp_warnUnlinked (g : Graph β) (stamp : Nat) : (g.warnUnlinked stamp).stamp = stamp := by
  rw [warnUnlinked]
  split
  · generalize g.slots.filter (fun s ↦ s.node.panel.isSource && s.node.panel.isSink) = slots
    induction slots with
    | nil => rfl
    | cons s slots ih => exact ih
  · rfl

/-- What a graph with a plan comes to when it is compiled. -/
theorem result_compile_of_plan (h : g.isReady = false) {schedule : List Step}
    (hp : g.plan = .ok schedule) (stamp : Nat) :
    (g.compile life stamp).result =
      match (initAll life (schedule.map Step.node) (g.release life stamp).result.resetOutputs
        (g.release life stamp).stamp).result with
      | (.ok (), k) => (.ok (), { k with schedule, isReady := true })
      | (.error e, k) => (.error e, k) := by
  rw [compile, if_neg (by simp [h]), hp]
  simp only [Act.bind_apply, stamp_warnUnlinked]
  split <;> (rename_i hr; simp only [hr]; rfl)

/-- **A compilation does not go by names** if the nodes do not: it gives what it gave before, in the new
names. -/
theorem WellLinked.compile_relocate (h : g.WellLinked) (hnd : (g.nodeNames.map ρ).Nodup)
    (hi : life.IgnoresNames) (stamp : Nat) :
    ((g.relocate ρ).compile life stamp).result =
      (g.compile life stamp).result.map (Except.mapError (·.relocate ρ)) (·.relocate ρ) := by
  cases hr : g.isReady with
  | true =>
    rw [compile_of_ready hr, compile_of_ready (show (g.relocate ρ).isReady = true from hr)]
    rfl
  | false =>
    have hr' : (g.relocate ρ).isReady = false := hr
    have hplan := h.plan_relocate hnd
    cases hp : g.plan with
    | error e =>
      rw [hp] at hplan
      rw [compile_of_error hr hp, compile_of_error hr' hplan]
      rfl
    | ok schedule =>
      rw [hp] at hplan
      obtain ⟨hresult, hstamp⟩ := release_relocate (ρ := ρ) hi g stamp
      rw [result_compile_of_plan hr hp, result_compile_of_plan hr' hplan, hresult, hstamp,
        resetOutputs_relocate, initAll_relocate hi]
      rcases (initAll life (schedule.map Step.node) (g.release life stamp).result.resetOutputs
        (g.release life stamp).stamp).result with ⟨e | _, k⟩ <;> rfl

end Graph
end PortGraph
