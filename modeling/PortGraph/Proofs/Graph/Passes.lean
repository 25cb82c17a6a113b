import PortGraph.Proofs.Graph.Cache
import PortGraph.Proofs.Graph.Order

/-!
# What a graph that is ready is ready for

A schedule goes by positions, and a pass that finds nothing at one of them carries on with nothing
in its place.  `executeStrictly` is a pass that gives up there instead.  On a graph whose links and
ports belong together and whose schedule is its plan, both come to the same
(`WellLinked.executeStrictly_eq`): a pass changes neither nodes nor ports, so each position in it
leads to where it led when the plan was made.

`Graph.IsPrepared` collects what is true of a graph that is ready, and `Graph.IsDormant` what is
true of any other.
-/

set_option autoImplicit false

namespace PortGraph
namespace Graph

variable {β : Type} {life : Lifecycle β} {g k : Graph β}

/-! ## Strict passes -/

/-- Carry the value of a link over if there is a port at both ends. -/
def pullStrictly (node : Nat) (g : Graph β) (p : Pull) : Option (Graph β) :=
  match g.endpointAt .output p.source p.output, g.endpointAt .input node p.input with
  | some _, some _ => some (applyPull node g p)
  | _, _ => none

/-- Take the turns of a schedule until a node or a port is missing. -/
def executeStrictly (life : Lifecycle β) :
    List Step → Graph β → Act (Option (Reply GraphError (Graph β) Unit))
  | [], g => return some (.ok (), g)
  | t :: turns, g =>
    match t.pulls.foldlM (pullStrictly t.node) g with
    | none => return none
    | some g =>
      match g.slots[t.node]? with
      | none => return none
      | some s => do
        Act.log .trace .graph s!"Graph {g.name}: execute {s.key}"
        let (result, after) ← life.callExecute s.node
        let g := g.setNodeAt t.node after
        match result with
        | .ok () => executeStrictly life turns g
        | .error e =>
          Act.log .error .graph
            s!"Graph {g.name}: node {s.key} ({after.typeName}) failed: {e.message}"
          return some (.error (.executionFailed s.key after.typeName e), g)

/-- The positions in some turns lead to nodes and to the ports at the ends of links. -/
def Fits (g : Graph β) (turns : List Step) : Prop :=
  ∀ t ∈ turns, t.node < g.slots.length ∧ ∀ p ∈ t.pulls, ∃ l ∈ g.links, g.Draws t.node p l

theorem draws_of_skeleton_eq (h : k.skeleton = g.skeleton) : k.Draws = g.Draws := by
  funext node p l
  rw [Draws, ← endpointAt_skeleton, h, endpointAt_skeleton, Draws]

theorem Fits.of_skeleton_eq {turns : List Step} (h : g.Fits turns)
    (hs : k.skeleton = g.skeleton) : k.Fits turns := by
  have hlinks : k.links = g.links := congrArg (·.links) hs
  rw [Fits, draws_of_skeleton_eq hs, length_slots_of_skeleton_eq hs, hlinks]
  exact h

theorem pullStrictly_eq {node : Nat} {p : Pull} {l : Link} (h : g.Draws node p l) :
    pullStrictly node g p = some (applyPull node g p) := by
  rw [pullStrictly, h.1, h.2]

theorem foldlM_pullStrictly {node : Nat} {pulls : List Pull}
    (h : ∀ p ∈ pulls, ∃ l ∈ g.links, g.Draws node p l) :
    pulls.foldlM (pullStrictly node) g = some (pulls.foldl (applyPull node) g) := by
  induction pulls generalizing g with
  | nil => rfl
  | cons p pulls ih =>
    rw [List.forall_mem_cons] at h
    obtain ⟨⟨l, -, hp⟩, hpulls⟩ := h
    rw [List.foldlM_cons, pullStrictly_eq hp, List.foldl_cons]
    refine ih ?_
    rw [draws_of_skeleton_eq (agrees_applyPull node g p).skeleton]
    exact hpulls

/-- **A pass over turns that fit misses nothing.** -/
theorem Fits.executeStrictly_eq (hk : life.KeepsOutline) {turns : List Step} (h : g.Fits turns)
    (stamp : Nat) :
    executeStrictly life turns g stamp = (some <$> executeSteps life turns g) stamp := by
  induction turns generalizing g stamp with
  | nil => rfl
  | cons t turns ih =>
    obtain ⟨⟨hnode, hpulls⟩, hturns⟩ := List.forall_mem_cons.mp h
    have hagrees := agrees_foldl_applyPull t.node t.pulls g
    rw [executeStrictly, foldlM_pullStrictly hpulls, executeSteps]
    dsimp only
    generalize t.pulls.foldl (applyPull t.node) g = k at hagrees
    obtain ⟨s, hs⟩ : ∃ s, k.slots[t.node]? = some s := by
      refine ⟨_, List.getElem?_eq_getElem ?_⟩
      rw [length_slots_of_skeleton_eq hagrees.skeleton]
      exact hnode
    have hrest : ∀ stamp', executeStrictly life turns
        (k.setNodeAt t.node (life.execute s.node stamp).result.2) stamp' =
        (some <$> executeSteps life turns
          (k.setNodeAt t.node (life.execute s.node stamp).result.2)) stamp' := fun stamp' ↦ by
      refine ih (Fits.of_skeleton_eq hturns ?_) stamp'
      exact (hagrees.trans (agrees_setNodeAt hs (hk.execute _ _))).skeleton
    have hcall : (life.callExecute s.node stamp).result = (life.execute s.node stamp).result := rfl
    simp only [hs, map_bind, Act.bind_apply, Act.log, Act.emit, hcall]
    cases (life.execute s.node stamp).result.1 with
    | ok _ =>
      dsimp only
      rw [hrest]
    | error e => rfl

/-! ## The turns of a plan -/

theorem Draws.nodeNames_eq {node : Nat} {p : Pull} {l : Link} (h : g.Draws node p l) :
    g.nodeNames[node]? = some l.target.node := by
  obtain ⟨s, hs, hp⟩ := Option.bind_eq_some_iff.mp h.2
  obtain ⟨q, -, hq⟩ := Option.map_eq_some_iff.mp hp
  rw [getElem?_nodeNames hs, ← hq]

theorem forall₂_draws_filter (hnd : g.nodeNames.Nodup) (node : Nat) {links : List Link}
    {pulls : List (Nat × Pull)} (h : List.Forall₂ (fun l q ↦ g.pull l = .ok q) links pulls) :
    List.Forall₂ (g.Draws node) ((pulls.filter (fun q ↦ q.1 = node)).map Prod.snd)
      (links.filter fun l ↦ g.nodeNames[node]? = some l.target.node) := by
  induction h with
  | nil => exact .nil
  | @cons l q links pulls hq _ ih =>
    have hdraws := pull_eq_ok hq
    by_cases hnode : q.1 = node
    · subst hnode
      rw [List.filter_cons_of_pos (by simp), List.map_cons,
        List.filter_cons_of_pos (by simpa using hdraws.nodeNames_eq)]
      exact .cons hdraws ih
    · have hother : g.nodeNames[node]? ≠ some l.target.node := fun hl ↦ hnode <|
        (rank_eq_of_getElem? hnd hdraws.nodeNames_eq).symm.trans (rank_eq_of_getElem? hnd hl)
      rw [List.filter_cons_of_neg (by simpa using hnode),
        List.filter_cons_of_neg (by simpa using hother)]
      exact ih

/-- **The pulls of a turn are the links that end at its node**, in their order. -/
theorem WellLinked.forall₂_draws (h : g.WellLinked) {schedule : List Step}
    (hp : g.plan = .ok schedule) {t : Step} (ht : t ∈ schedule) :
    List.Forall₂ (g.Draws t.node) t.pulls
      (g.links.filter fun l ↦ g.nodeNames[t.node]? = some l.target.node) := by
  obtain ⟨order, pulls, -, -, hpulls, rfl⟩ := plan_eq_ok_iff.mp hp
  obtain ⟨node, -, rfl⟩ := List.mem_map.mp ht
  exact forall₂_draws_filter h.keys_nodup node (mapM_eq_ok_iff.mp hpulls)

theorem WellLinked.fits (h : g.WellLinked) {schedule : List Step}
    (hp : g.plan = .ok schedule) : g.Fits schedule := by
  intro t ht
  refine ⟨?_, fun p hm ↦ ?_⟩
  · have hmem := (h.map_node_of_plan hp).2.mem_iff.mp (List.mem_map_of_mem ht)
    exact List.mem_range.mp hmem
  · have hall := h.forall₂_draws hp ht
    obtain ⟨i, hi, rfl⟩ := List.getElem_of_mem hm
    have hlt := hall.length_eq ▸ hi
    exact ⟨_, (List.mem_filter.mp (List.getElem_mem hlt)).1, hall.get hi hlt⟩

theorem unsatisfied?_eq_none_iff : g.unsatisfied? = none ↔
    ∀ s ∈ g.slots, ∀ p ∈ s.node.panel.inputs, p.isRequired = true → p.isSatisfied = true := by
  simp [unsatisfied?]

/-- **There is a plan** if no cycle and no required input that nothing supplies is in the way. -/
theorem WellLinked.exists_plan_iff (h : g.WellLinked) : (∃ schedule, g.plan = .ok schedule) ↔
    ¬ g.IsCyclic ∧
      ∀ s ∈ g.slots, ∀ p ∈ s.node.panel.inputs, p.isRequired = true → p.isSatisfied = true := by
  rw [← unsatisfied?_eq_none_iff]
  constructor
  · rintro ⟨schedule, hp⟩
    obtain ⟨order, -, ho, hnone, -⟩ := plan_eq_ok_iff.mp hp
    refine ⟨fun hcyclic ↦ ?_, hnone⟩
    obtain ⟨names, hn⟩ := h.exists_sorted_eq_error hcyclic
    exact absurd (hn.symm.trans ho) (by simp)
  · rintro ⟨hacyclic, hnone⟩
    obtain ⟨pulls, hpulls⟩ := h.mapM_pull
    cases ho : g.sorted with
    | error e => exact absurd (h.sorted_eq_error_iff.mp ho).1 hacyclic
    | ok order => exact ⟨_, plan_eq_ok_iff.mpr ⟨order, pulls, ho, hnone, hpulls, rfl⟩⟩

/-! ## Ready or not -/

/-- What is true of a graph that is ready. -/
structure IsPrepared (life : Lifecycle β) (g : Graph β) : Prop where
  /-- Planning anew would make no difference. -/
  plan : g.plan = .ok g.schedule
  /-- Every node has one turn. -/
  turns : (g.schedule.map Step.node).Perm (List.range g.slots.length)
  /-- In its turn, a node pulls along the links that end at it, from port to port. -/
  pulls : ∀ t ∈ g.schedule, List.Forall₂ (g.Draws t.node) t.pulls
    (g.links.filter fun l ↦ g.nodeNames[t.node]? = some l.target.node)
  /-- The links do not lead round in a cycle. -/
  acyclic : ¬ g.IsCyclic
  /-- What an input requires comes over a link or from outside. -/
  supplied : ∀ s ∈ g.slots, ∀ p ∈ s.node.panel.inputs, p.isRequired = true →
    (∃ l ∈ g.links, l.target = ⟨s.key, p.name⟩) ∨ p.isExposed = true
  /-- Every node is initialised. -/
  initialized : ∀ s ∈ g.slots, s.node.panel.isInitialized = true
  /-- A pass misses neither a node nor a port. -/
  strict : ∀ stamp, executeStrictly life g.schedule g stamp = (some <$> g.execute life) stamp

/-- What is true of a graph that is not ready. -/
structure IsDormant (life : Lifecycle β) (g : Graph β) : Prop where
  /-- It has no schedule. -/
  schedule : g.schedule = []
  /-- It shows no order. -/
  order : g.order = []
  /-- It shows no levels. -/
  levels : g.levels = []
  /-- It does not execute, and is left as it is. -/
  execute : ∀ stamp, g.execute life stamp = ⟨(.error (.notCompiled g.name), g), stamp, []⟩

theorem WellLinked.isPrepared (h : g.WellLinked) (hc : g.Cached) (hk : life.KeepsOutline)
    (hr : g.isReady = true) : g.IsPrepared life where
  plan := hc.plan hr
  turns := (h.map_node_of_plan (hc.plan hr)).2
  pulls t ht := h.forall₂_draws (hc.plan hr) ht
  acyclic := (h.exists_plan_iff.mp ⟨_, hc.plan hr⟩).1
  supplied s hs p hp hreq := by
    have hsat := (h.exists_plan_iff.mp ⟨_, hc.plan hr⟩).2 s hs p hp hreq
    have hports : ∀ s ∈ g.slots, ((s.node.panel.ports .input).map Port.name).Nodup := fun s hs ↦
      (h.regular s hs).ports_nodup .input
    have hport : g.port? .input ⟨s.key, p.name⟩ = some p :=
      (port?_eq_some_iff h.keys_nodup hports).mpr ⟨s, hs, rfl, hp, rfl⟩
    rw [Port.isSatisfied, Bool.or_eq_true] at hsat
    exact hsat.imp_left (h.isLinked_iff hport).mp
  initialized := forall_initialized_iff.mpr (hc.flags hr)
  strict stamp := by
    have hexecute : g.execute life = executeSteps life g.schedule g := by
      rw [execute, if_pos hr]
    rw [hexecute]
    exact (h.fits (hc.plan hr)).executeStrictly_eq hk stamp

theorem Cached.isDormant (hc : g.Cached) (life : Lifecycle β) (hr : g.isReady = false) :
    g.IsDormant life where
  schedule := hc.idle hr
  order := by
    rw [order, hc.idle hr]
    rfl
  levels := by
    rw [levels, hc.idle hr]
    rfl
  execute stamp := by
    rw [execute, if_neg (by simp [hr])]
    rfl

end Graph
end PortGraph
