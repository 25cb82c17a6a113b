import PortGraph.Proofs.Graph.Compiled
import PortGraph.Proofs.Graph.Refusals

/-!
# What happens in a compilation

The calls that a graph makes on its own nodes are seen in what happened (`Outcome.calls`).  This is
which they are while it is compiled (`Reachable.compile_told`): none, if the graph is ready or has no
plan.  Otherwise the nodes that are still initialised are destroyed, the last one first, all outputs are
emptied (`Graph.Cleared`), and the nodes are to get ready in the least order in which every link leads
forward (`Graph.IsCanonical`).  This goes to the first node that fails, whereupon those before it are
destroyed again, and to the end if there is none (`Graph.CompiledFrom`).

The loop over the nodes is `WellLinked.readied_initAll`: from whichever node it goes on, what comes of it
is told by the nodes as they are then (`Graph.Readied`).
-/

set_option autoImplicit false

namespace PortGraph

/-! ## Calls that are seen -/

/-- The call of a node that an event is: the name of the node, the call, and whether it succeeded. -/
def Event.call? : Event → Option (String × Call × Bool)
  | .call name c succeeded _ => some (name, c, succeeded)
  | _ => none

/-- The calls that a graph made on its own nodes, in their order. -/
def Outcome.calls {α : Type} (o : Outcome α) : List (String × Call × Bool) :=
  o.events.filterMap Event.call?

namespace Graph

variable {β : Type} {life : Lifecycle β} {c g j k : Graph β}

/-- The names of the initialised nodes. -/
def initialized (g : Graph β) : List String :=
  (g.slots.filter (·.node.panel.isInitialized)).map Slot.key

/-- A required input of a node that nothing supplies: no link ends there, and no enclosing graph
feeds it. -/
def Lacks (g : Graph β) (s : Slot β) (p : Port) : Prop :=
  p.isRequired = true ∧ (∀ l ∈ g.links, l.target ≠ ⟨s.key, p.name⟩) ∧ p.isExposed = false

/-- The first of these inputs, in the order of the nodes and then of their inputs. -/
def LacksFirst (g : Graph β) (place : Endpoint) : Prop :=
  ∃ before s after earlier p later, g.slots = before ++ s :: after ∧
    s.node.panel.inputs = earlier ++ p :: later ∧ place = ⟨s.key, p.name⟩ ∧ g.Lacks s p ∧
    (∀ q ∈ earlier, ¬ g.Lacks s q) ∧ ∀ r ∈ before, ∀ q ∈ r.node.panel.inputs, ¬ g.Lacks r q

/-- **The topological order**: the least order in which every link leads forward, when nodes are compared
by the position at which they were added. -/
def IsCanonical (g : Graph β) (order : List String) : Prop :=
  g.IsOrder order ∧ ∀ names, g.IsOrder names → names ≠ order →
    List.Lex (fun u v ↦ g.rank u < g.rank v) order names

/-- The nodes of `g` were released, and their outputs are empty. -/
structure Cleared (life : Lifecycle β) (g j : Graph β) : Prop where
  /-- The rest is what it was. -/
  skeleton : j.skeleton = g.skeleton
  /-- A node is the one it was, if it was not initialised, or what became of it when it was destroyed. -/
  nodes : ∀ s ∈ g.slots, ∃ stamp,
    j.node? s.key = some ((life.release s.node stamp).result.mapPanel Panel.resetOutputs)
  /-- No node is initialised. -/
  idle : j.initialized = []
  /-- All outputs are empty. -/
  outputs : ∀ s ∈ j.slots, ∀ p ∈ s.node.panel.outputs, p.stored = none

/-- **What comes of a compilation of `g`** that has some order, when the nodes were released to `j`. -/
inductive CompiledFrom (life : Lifecycle β) (g j : Graph β) (order : List String)
    (o : Outcome (Reply GraphError (Graph β) Unit)) : Prop
  /-- All nodes got ready. -/
  | ready (result : o.result.1 = .ok ())
      (calls : o.calls = g.initialized.reverse.map (fun v ↦ (v, .destroy, true)) ++
        order.map fun v ↦ (v, .init, true))
      (nodes : ∀ v ∈ order, ∃ n stamp, j.node? v = some n ∧ (life.init n stamp).result.1 = .ok () ∧
        o.result.2.node? v = some ((life.init n stamp).result.2.setInitialized true))
      (initialized : ∀ s ∈ o.result.2.slots, s.node.panel.isInitialized = true)
      (isReady : o.result.2.isReady = true) (shown : o.result.2.order = order)
  /-- One of them failed, and those before it were destroyed, the last one first. -/
  | failed {before after : List String} {name : String} {n : Node β} {stamp : Nat} {cause : NodeError}
      (split : order = before ++ name :: after)
      (nodes : ∀ v ∈ before, ∃ n stamp, j.node? v = some n ∧ (life.init n stamp).result.1 = .ok ())
      (found : j.node? name = some n) (fails : (life.init n stamp).result.1 = .error cause)
      (result : o.result.1 = .error (.initFailed name cause))
      (calls : o.calls = g.initialized.reverse.map (fun v ↦ (v, .destroy, true)) ++
        (before.map (fun v ↦ (v, .init, true)) ++ (name, .init, false) ::
          (g.nodeNames.filter (· ∈ before)).reverse.map fun v ↦ (v, .destroy, true)))
      (idle : ∀ s ∈ o.result.2.slots, s.node.panel.isInitialized = false)
      (isReady : o.result.2.isReady = false)

/-- **How far the nodes of `c` got ready** in some order, which came to `k`: with which result, and with
which calls. -/
inductive Readied (life : Lifecycle β) (c k : Graph β) :
    List String → Except GraphError Unit → List (String × Call × Bool) → Prop
  /-- All of them got ready. -/
  | all {order : List String}
      (ready : ∀ v ∈ order, ∃ n stamp, c.node? v = some n ∧ (life.init n stamp).result.1 = .ok () ∧
        k.node? v = some ((life.init n stamp).result.2.setInitialized true))
      (others : ∀ v, v ∉ order → k.node? v = c.node? v) :
      Readied life c k order (.ok ()) (order.map fun v ↦ (v, .init, true))
  /-- One of them failed, and those that were initialised were destroyed, the last one first. -/
  | failed {before after : List String} {name : String} {n : Node β} {stamp : Nat} {cause : NodeError}
      (ready : ∀ v ∈ before, ∃ n stamp, c.node? v = some n ∧ (life.init n stamp).result.1 = .ok ())
      (hn : c.node? name = some n) (fails : (life.init n stamp).result.1 = .error cause)
      (idle : k.initialized = []) :
      Readied life c k (before ++ name :: after) (.error (.initFailed name cause))
        (before.map (fun v ↦ (v, .init, true)) ++ (name, .init, false) ::
          (c.nodeNames.filter fun v ↦ v ∈ c.initialized ∨ v ∈ before).reverse.map
            fun v ↦ (v, .destroy, true))

/-! ## Initialised nodes -/

theorem mem_initialized_iff (hnd : g.nodeNames.Nodup) {v : String} :
    v ∈ g.initialized ↔ ∃ n, g.node? v = some n ∧ n.panel.isInitialized = true := by
  rw [initialized, List.mem_map]
  constructor
  · rintro ⟨s, hs, rfl⟩
    obtain ⟨hs, hflag⟩ := List.mem_filter.mp hs
    exact ⟨s.node, (node?_eq_some_iff hnd).mpr hs, hflag⟩
  · rintro ⟨n, hn, hflag⟩
    exact ⟨⟨v, n⟩, List.mem_filter.mpr ⟨mem_of_node? hn, hflag⟩, rfl⟩

theorem initialized_eq_nil_iff :
    g.initialized = [] ↔ ∀ s ∈ g.slots, s.node.panel.isInitialized = false := by
  rw [initialized, List.map_eq_nil_iff, List.filter_eq_nil_iff]
  simp

theorem initialized_eq_filter (hnd : g.nodeNames.Nodup) :
    g.initialized = g.nodeNames.filter fun v ↦ v ∈ g.initialized := by
  rw [nodeNames, List.filter_map]
  refine congrArg (List.map Slot.key) (List.filter_congr fun s hs ↦ ?_)
  have hnode : g.node? s.key = some s.node := (node?_eq_some_iff hnd).mpr hs
  rw [Function.comp_apply, Bool.eq_iff_iff, decide_eq_true_eq, mem_initialized_iff hnd, hnode]
  simp

theorem node?_setNodeAt (hnd : g.nodeNames.Nodup) {i : Nat} {s : Slot β} (hs : g.slots[i]? = some s)
    (n : Node β) (v : String) :
    (g.setNodeAt i n).node? v = if v = s.key then some n else g.node? v := by
  rw [setNodeAt_eq_modifyNode hnd hs, node?_modifyNode]
  split
  · rw [(node?_eq_some_iff hnd).mpr (List.mem_of_getElem? hs), Option.map_some]
  · rfl

/-- Which nodes are initialised when one is put back. -/
theorem mem_initialized_setNodeAt (hnd : g.nodeNames.Nodup) {i : Nat} {s : Slot β}
    (hs : g.slots[i]? = some s) {n : Node β} (hn : n.panel.bare = s.node.panel.bare) (v : String) :
    v ∈ (g.setNodeAt i n).initialized ↔
      if v = s.key then n.panel.isInitialized = true else v ∈ g.initialized := by
  have hnames : (g.setNodeAt i n).nodeNames.Nodup :=
    nodeNames_of_skeleton_eq (skeleton_setNodeAt hs hn) ▸ hnd
  rw [mem_initialized_iff hnames, node?_setNodeAt hnd hs]
  split
  · simp
  · exact (mem_initialized_iff hnd).symm

/-! ## Calls of a release -/

theorem calls_releaseNode (life : Lifecycle β) (n : Node β) (stamp : Nat) :
    (life.release n stamp).calls =
      if n.panel.isInitialized then [(n.name, .destroy, true)] else [] := by
  rw [Lifecycle.release]
  split <;> rfl

theorem calls_releaseAll {slots : List (Slot β)} (hnames : ∀ s ∈ slots, s.node.name = s.key)
    (stamp : Nat) : (life.releaseAll slots stamp).calls =
      ((slots.filter (·.node.panel.isInitialized)).map Slot.key).reverse.map
        fun v ↦ (v, .destroy, true) := by
  induction slots generalizing stamp with
  | nil => rfl
  | cons s slots ih =>
    obtain ⟨hs, hslots⟩ := List.forall_mem_cons.mp hnames
    have hsplit : (life.releaseAll (s :: slots) stamp).calls = (life.releaseAll slots stamp).calls ++
        (life.release s.node (life.releaseAll slots stamp).stamp).calls := by
      simp only [Lifecycle.releaseAll, Outcome.calls, Act.bind_apply, Act.pure_apply, List.append_nil,
        List.filterMap_append]
    rw [hsplit, ih hslots, calls_releaseNode, hs]
    by_cases hflag : s.node.panel.isInitialized = true
    · simp [hflag]
    · simp [hflag]

/-- **A release destroys the initialised nodes**, the last one first. -/
theorem WellLinked.calls_release (h : g.WellLinked) (stamp : Nat) :
    (g.release life stamp).calls = g.initialized.reverse.map fun v ↦ (v, .destroy, true) := by
  have hcalls : (g.release life stamp).calls = (life.releaseAll g.slots stamp).calls := by
    simp only [release, Outcome.calls, Act.bind_apply, Act.pure_apply, List.append_nil]
  rw [hcalls, calls_releaseAll fun s hs ↦ (h.regular s hs).name_eq, initialized]

/-- What becomes of a graph when it is released and its outputs are emptied. -/
theorem WellLinked.cleared (h : g.WellLinked) (hlife : life.KeepsOutline) (stamp : Nat) :
    g.Cleared life (g.release life stamp).result.resetOutputs := by
  have hskeleton : (g.release life stamp).result.resetOutputs.skeleton = g.skeleton :=
    (agrees_resetOutputs _).skeleton.trans (skeleton_release hlife g stamp)
  refine ⟨hskeleton, fun s hs ↦ ?_, ?_, ?_⟩
  · have hall := Lifecycle.forall₂_releaseAll
      (R := fun n m ↦ ∃ stamp, m = (life.release n stamp).result)
      (fun n stamp ↦ ⟨stamp, rfl⟩) g.slots stamp
    obtain ⟨r, hr, hkey, stamp', hnode⟩ := exists_of_forall₂ hall.flip s hs
    have hmem : (⟨s.key, (life.release s.node stamp').result.mapPanel Panel.resetOutputs⟩ : Slot β) ∈
        (g.release life stamp).result.resetOutputs.slots :=
      List.mem_map.mpr ⟨r, hr, by rw [← hkey, ← hnode]; rfl⟩
    exact ⟨stamp', (h.of_skeleton_eq hskeleton).node?_of_mem hmem⟩
  · rw [initialized_eq_nil_iff]
    refine List.forall_mem_map.mpr fun s hs ↦ ?_
    have hflags := List.forall_mem_map.mp (flags_release life g stamp)
    exact hflags s hs
  · refine List.forall_mem_map.mpr fun s _ ↦ ?_
    exact List.forall_mem_map.mpr fun p _ ↦ rfl

/-! ## Calls to get ready -/

/-- What comes of the first node that is to get ready, and what is seen of it. -/
theorem initAll_turn (life : Lifecycle β) {i : Nat} (is : List Nat) {s : Slot β}
    (hs : g.slots[i]? = some s) (stamp : Nat) :
    ((life.init s.node stamp).result.1 = .ok () ∧ ∃ stamp' k,
      k = g.setNodeAt i ((life.init s.node stamp).result.2.setInitialized true) ∧
      (initAll life (i :: is) g stamp).result = (initAll life is k stamp').result ∧
      (initAll life (i :: is) g stamp).calls =
        (s.node.name, .init, true) :: (initAll life is k stamp').calls) ∨
    ∃ cause stamp' k, (life.init s.node stamp).result.1 = .error cause ∧
      k = g.setNodeAt i (life.init s.node stamp).result.2 ∧
      (initAll life (i :: is) g stamp).result =
        (.error (.initFailed s.key cause), (k.release life stamp').result) ∧
      (initAll life (i :: is) g stamp).calls =
        (s.node.name, .init, false) :: (k.release life stamp').calls := by
  rw [initAll, hs]
  have hcall : life.callInit s.node stamp = { life.init s.node stamp with
      events := [.call s.node.name .init (life.init s.node stamp).result.succeeded
        (life.init s.node stamp).events] } := rfl
  cases hres : (life.init s.node stamp).result.1 with
  | ok _ =>
    refine .inl ⟨rfl, (life.init s.node stamp).stamp, _, rfl, ?_, ?_⟩
    · simp only [Act.bind_apply, hcall, hres]
    · simp only [Outcome.calls, Act.bind_apply, hcall, hres, Reply.succeeded]
      rfl
  | error cause =>
    refine .inr ⟨cause, (life.init s.node stamp).stamp, _, rfl, rfl, ?_, ?_⟩
    · simp only [Act.bind_apply, Act.log, Act.emit, hcall, hres]
      rfl
    · simp only [Outcome.calls, Act.bind_apply, Act.log, Act.emit, hcall, hres, Reply.succeeded,
        Act.pure_apply, List.append_nil]
      rfl

/-- A node got ready, and then others did. -/
theorem Readied.cons (hnd : c.nodeNames.Nodup) {i : Nat} {s : Slot β} (hs : c.slots[i]? = some s)
    {stamp : Nat} (hlife : life.KeepsOutline) (hok : (life.init s.node stamp).result.1 = .ok ())
    {order : List String} (hnew : s.key ∉ order) {result : Except GraphError Unit}
    {calls : List (String × Call × Bool)}
    (h : (c.setNodeAt i ((life.init s.node stamp).result.2.setInitialized true)).Readied life k order
      result calls) :
    c.Readied life k (s.key :: order) result ((s.key, .init, true) :: calls) := by
  have hnode : c.node? s.key = some s.node := (node?_eq_some_iff hnd).mpr (List.mem_of_getElem? hs)
  have hbare : ((life.init s.node stamp).result.2.setInitialized true).panel.bare =
      s.node.panel.bare := Lifecycle.bare_init hlife s.node stamp
  have hput := node?_setNodeAt hnd hs ((life.init s.node stamp).result.2.setInitialized true)
  have hother : ∀ v ∈ order, v ≠ s.key := fun v hv heq ↦ hnew (heq ▸ hv)
  -- the node that got ready is the one that is put back, all others are found as they were
  cases h with
  | all ready others =>
    have hready : ∀ v ∈ s.key :: order, ∃ n stamp, c.node? v = some n ∧
        (life.init n stamp).result.1 = .ok () ∧
        k.node? v = some ((life.init n stamp).result.2.setInitialized true) := by
      refine List.forall_mem_cons.mpr ⟨⟨s.node, stamp, hnode, hok, ?_⟩, fun v hv ↦ ?_⟩
      · rw [others s.key hnew, hput, if_pos rfl]
      · obtain ⟨n, stamp', hn, hn', hk⟩ := ready v hv
        rw [hput, if_neg (hother v hv)] at hn
        exact ⟨n, stamp', hn, hn', hk⟩
    have hothers : ∀ v, v ∉ s.key :: order → k.node? v = c.node? v := by
      intro v hv
      obtain ⟨hne, hv⟩ := not_or.mp (List.mem_cons.not.mp hv)
      rw [others v hv, hput, if_neg hne]
    have hall := Readied.all hready hothers
    exact hall
  | @failed before after name n stamp' cause ready hn fails idle =>
    rw [hput, if_neg (hother name (List.mem_append_right _ List.mem_cons_self))] at hn
    have hnames := nodeNames_of_skeleton_eq (skeleton_setNodeAt hs hbare)
    have hdestroyed : ∀ v, v ∈ (c.setNodeAt i
        ((life.init s.node stamp).result.2.setInitialized true)).initialized ∨ v ∈ before ↔
        v ∈ c.initialized ∨ v ∈ s.key :: before := by
      intro v
      rw [mem_initialized_setNodeAt hnd hs hbare, List.mem_cons]
      by_cases hv : v = s.key
      · simp [hv, Node.setInitialized, Node.mapPanel]
      · simp [hv]
    have hready : ∀ v ∈ s.key :: before, ∃ n stamp, c.node? v = some n ∧
        (life.init n stamp).result.1 = .ok () := by
      refine List.forall_mem_cons.mpr ⟨⟨s.node, stamp, hnode, hok⟩, fun v hv ↦ ?_⟩
      obtain ⟨m, stamp'', hm, hm'⟩ := ready v hv
      rw [hput, if_neg (hother v (List.mem_append_left _ hv))] at hm
      exact ⟨m, stamp'', hm, hm'⟩
    have hall := @Readied.failed _ life c k _ after _ _ _ _ hready hn fails idle
    simp only [hnames, hdestroyed]
    exact hall

/-- **The nodes at some positions got ready one after the other**, as far as none failed. -/
theorem WellLinked.readied_initAll (h : c.WellLinked) (hlife : life.KeepsOutline) {is : List Nat}
    (hnd : is.Nodup) (his : ∀ i ∈ is, i < c.slots.length) (stamp : Nat) :
    c.Readied life (initAll life is c stamp).result.2 (c.namesAt is) (initAll life is c stamp).result.1
      (initAll life is c stamp).calls := by
  induction is generalizing c stamp with
  | nil => exact .all (fun v hv ↦ absurd hv (by simp [namesAt])) fun _ _ ↦ rfl
  | cons i is ih =>
    obtain ⟨hi, hnd⟩ := List.nodup_cons.mp hnd
    obtain ⟨hlt, his⟩ := List.forall_mem_cons.mp his
    obtain ⟨s, hs⟩ : ∃ s, c.slots[i]? = some s := ⟨_, List.getElem?_eq_getElem hlt⟩
    have hname : c.nodeNames[i]? = some s.key := getElem?_nodeNames hs
    have hcons : c.namesAt (i :: is) = s.key :: c.namesAt is := by
      rw [namesAt_eq, namesAt_eq, List.filterMap_cons_some hname]
    rw [hcons]
    have hkey : s.node.name = s.key := (h.regular s (List.mem_of_getElem? hs)).name_eq
    rcases initAll_turn life is hs stamp with
      ⟨hok, stamp', k, hk, heq, hcalls⟩ | ⟨cause, stamp', k, herr, hk, heq, hcalls⟩
    · have hskeleton : k.skeleton = c.skeleton :=
        hk ▸ skeleton_setNodeAt hs (Lifecycle.bare_init hlife s.node stamp)
      have hrest := ih (h.of_skeleton_eq hskeleton) hnd
        (fun u hu ↦ length_slots_of_skeleton_eq hskeleton ▸ his u hu) stamp'
      rw [namesAt_eq, nodeNames_of_skeleton_eq hskeleton, ← namesAt_eq, hk] at hrest
      rw [heq, hcalls, hkey, hk]
      refine hrest.cons h.keys_nodup hs hlife hok fun hm ↦ ?_
      -- another position leads to another name
      rw [namesAt_eq, List.mem_filterMap] at hm
      obtain ⟨u, hu, hname'⟩ := hm
      have hu' : u < c.nodeNames.length := (List.getElem?_eq_some_iff.mp hname').1
      exact hi ((List.getElem?_inj hu' h.keys_nodup).mp (hname'.trans hname.symm) ▸ hu)
    · have hbare : (life.init s.node stamp).result.2.panel.bare = s.node.panel.bare :=
        Lifecycle.bare_init hlife s.node stamp
      have hskeleton : k.skeleton = c.skeleton := hk ▸ skeleton_setNodeAt hs hbare
      have hkwell := h.of_skeleton_eq hskeleton
      have hinitialized : k.initialized = c.nodeNames.filter fun v ↦ v ∈ c.initialized ∨ v ∈ [] := by
        rw [initialized_eq_filter hkwell.keys_nodup, nodeNames_of_skeleton_eq hskeleton]
        refine List.filter_congr fun v _ ↦ ?_
        rw [decide_eq_decide, hk, mem_initialized_setNodeAt h.keys_nodup hs hbare,
          Lifecycle.isInitialized_init hlife, List.mem_nil_iff, or_false]
        split
        · rename_i hv
          rw [hv, mem_initialized_iff h.keys_nodup, h.node?_of_mem (List.mem_of_getElem? hs)]
          simp
        · rfl
      rw [heq, hcalls, hkey, hkwell.calls_release, hinitialized]
      have hidle : (k.release life stamp').result.initialized = [] :=
        initialized_eq_nil_iff.mpr (List.forall_mem_map.mp (flags_release life k stamp'))
      exact @Readied.failed _ life c _ [] (c.namesAt is) _ _ _ _ (by simp)
        (h.node?_of_mem (List.mem_of_getElem? hs)) herr hidle

/-! ## Plans -/

/-- Whether something is lacked is a matter of the links. -/
theorem WellLinked.lacks_iff (h : g.WellLinked) {s : Slot β} (hs : s ∈ g.slots) {p : Port}
    (hp : p ∈ s.node.panel.inputs) :
    g.Lacks s p ↔ (p.isRequired && !p.isSatisfied) = true := by
  have hlinked := h.isLinked_iff (h.input?_of_mem hs hp)
  have hfree : (∀ l ∈ g.links, l.target ≠ ⟨s.key, p.name⟩) ↔ p.isLinked = false := by
    rw [← Bool.not_eq_true, hlinked]
    exact ⟨fun hno ⟨l, hl, ht⟩ ↦ hno l hl ht, fun hno l hl ht ↦ hno ⟨l, hl, ht⟩⟩
  rw [Lacks, hfree, Port.isSatisfied]
  simp

/-- What is found to be unsatisfied is the first input that lacks something. -/
theorem WellLinked.lacksFirst (h : g.WellLinked) {place : Endpoint}
    (hplace : g.unsatisfied? = some place) : g.LacksFirst place := by
  obtain ⟨before, s, after, hslots, hfound, hbefore⟩ := List.findSome?_eq_some_iff.mp hplace
  obtain ⟨p, hp, rfl⟩ := Option.map_eq_some_iff.mp hfound
  obtain ⟨htest, earlier, later, hinputs, hearlier⟩ := List.find?_eq_some_iff_append.mp hp
  have hs : s ∈ g.slots := hslots ▸ List.mem_append_right _ List.mem_cons_self
  refine ⟨before, s, after, earlier, p, later, hslots, hinputs, rfl, ?_, fun q hq hlacks ↦ ?_,
    fun r hr q hq hlacks ↦ ?_⟩
  · exact (h.lacks_iff hs (hinputs ▸ List.mem_append_right _ List.mem_cons_self)).mpr htest
  · have hsat := (h.lacks_iff hs (hinputs ▸ List.mem_append_left _ hq)).mp hlacks
    have hno := hearlier q hq
    rw [hsat] at hno
    exact absurd hno (by simp)
  · have hr' : r ∈ g.slots := hslots ▸ List.mem_append_left _ hr
    have hno := Option.map_eq_none_iff.mp (hbefore r hr)
    exact List.find?_eq_none.mp hno q hq ((h.lacks_iff hr' hq).mp hlacks)

/-- The order of a plan is the topological one. -/
theorem WellLinked.isCanonical (h : g.WellLinked) {schedule : List Step}
    (hp : g.plan = .ok schedule) : g.IsCanonical (g.namesAt (schedule.map Step.node)) := by
  -- what would be the order if the plan were the schedule
  have hskeleton : ({ g with schedule } : Graph β).skeleton = g.skeleton := rfl
  have hwell := h.of_skeleton_eq hskeleton
  have hplan := (plan_of_skeleton_eq hskeleton).trans hp
  exact ⟨hwell.isOrder_order hplan, fun names ho hne ↦ hwell.lex_order hplan ho hne⟩

/-! ## Compiling -/

theorem calls_warnUnlinked (g : Graph β) (stamp : Nat) : (g.warnUnlinked stamp).calls = [] := by
  rw [warnUnlinked]
  split
  · generalize g.slots.filter (fun s ↦ s.node.panel.isSource && s.node.panel.isSink) = slots
    induction slots generalizing stamp with
    | nil => rfl
    | cons s slots ih => exact ih stamp
  · rfl

/-- What is seen of the compilation of a graph that has a plan. -/
theorem compile_traced (life : Lifecycle β) (h : g.isReady = false) {schedule : List Step}
    (hp : g.plan = .ok schedule) (stamp : Nat) :
    ∃ stamp₁ stamp₂ j, j = (g.release life stamp₁).result.resetOutputs ∧
      (g.compile life stamp).calls = (g.release life stamp₁).calls ++
        (initAll life (schedule.map Step.node) j stamp₂).calls ∧
      (g.compile life stamp).result =
        match (initAll life (schedule.map Step.node) j stamp₂).result with
        | (.ok (), k) => (.ok (), { k with schedule, isReady := true })
        | (.error e, k) => (.error e, k) := by
  have hwarn := calls_warnUnlinked g stamp
  refine ⟨(g.warnUnlinked stamp).stamp, (g.release life (g.warnUnlinked stamp).stamp).stamp, _, rfl,
    ?_⟩
  rw [Outcome.calls] at hwarn
  rw [compile, if_neg (by simp [h]), hp]
  simp only [Act.bind_apply, Outcome.calls, List.filterMap_append, hwarn, List.nil_append]
  rcases hall : (initAll life (schedule.map Step.node)
    (g.release life (g.warnUnlinked stamp).stamp).result.resetOutputs
    (g.release life (g.warnUnlinked stamp).stamp).stamp).result with ⟨e | _, k⟩
  · exact ⟨by simp, rfl⟩
  · exact ⟨by simp [Act.log, Act.emit, Event.call?], rfl⟩

/-- **A graph that has a plan is compiled along it.** -/
theorem WellLinked.compiledFrom (hg : g.WellLinked) (hlife : life.KeepsOutline)
    (hr : g.isReady = false) {schedule : List Step} (hp : g.plan = .ok schedule) (stamp : Nat) :
    ∃ j, g.Cleared life j ∧
      g.CompiledFrom life j (g.namesAt (schedule.map Step.node)) (g.compile life stamp) := by
  obtain ⟨stamp₁, stamp₂, j, hj, hcalls, hresult⟩ := compile_traced life hr hp stamp
  have hcleared : g.Cleared life j := hj ▸ hg.cleared hlife stamp₁
  have hnames : ∀ {c : Graph β}, c.skeleton = g.skeleton → ∀ positions,
      c.namesAt positions = g.namesAt positions := fun hc positions ↦ by
    rw [namesAt_eq, namesAt_eq, nodeNames_of_skeleton_eq hc]
  have hreadied : j.Readied life (initAll life (schedule.map Step.node) j stamp₂).result.2
      (g.namesAt (schedule.map Step.node)) (initAll life (schedule.map Step.node) j stamp₂).result.1
      (initAll life (schedule.map Step.node) j stamp₂).calls := by
    rw [← hnames hcleared.skeleton]
    refine (hg.of_skeleton_eq hcleared.skeleton).readied_initAll hlife
      ((hg.map_node_of_plan hp).2.nodup_iff.mpr List.nodup_range) (fun i hi ↦ ?_) stamp₂
    rw [length_slots_of_skeleton_eq hcleared.skeleton]
    exact List.mem_range.mp ((hg.map_node_of_plan hp).2.subset hi)
  refine ⟨j, hcleared, ?_⟩
  rw [hg.calls_release] at hcalls
  have hskeleton := skeleton_compile hlife g stamp
  have hwhole := compile_cases hlife hg hr stamp
  generalize (initAll life (schedule.map Step.node) j stamp₂).calls = calls at hcalls hreadied
  generalize horder : g.namesAt (schedule.map Step.node) = order at hreadied ⊢
  rcases hall : (initAll life (schedule.map Step.node) j stamp₂).result with ⟨result, k⟩
  rw [hall] at hreadied hresult
  dsimp only at hreadied hresult
  -- whether all got ready or one failed is settled by how initialising them went
  cases hreadied with
  | all ready others =>
    rw [hresult] at hskeleton hwhole
    obtain ⟨hready, hflags⟩ : _ ∧ ∀ b ∈ k.flags, b = true := by
      rcases hwhole with ⟨e, -, heq⟩ | ⟨-, ⟨_, -, -, -, hready, hflags⟩ | ⟨_, _, herr, -⟩⟩
      · exact absurd (congrArg Prod.fst heq) (by simp)
      · exact ⟨hready, hflags⟩
      · exact absurd herr (by simp)
    refine .ready (by rw [hresult]) hcalls ?_ ?_ (by rw [hresult]) ?_
    · rw [hresult]
      exact ready
    · rw [hresult]
      exact forall_initialized_iff.mpr hflags
    · rw [hresult, ← horder, ← hnames hskeleton]
      rfl
  | failed ready hn fails idle =>
    have hidle : (g.compile life stamp).result.2.isReady = false := by
      rcases hwhole with ⟨e, hno, -⟩ | ⟨-, ⟨_, -, hok, -⟩ | ⟨_, _, -, -, hidle⟩⟩
      · exact absurd (hno.symm.trans hp) (by simp)
      · rw [hresult] at hok
        exact absurd hok (by simp)
      · exact hidle
    simp only [hcleared.idle, nodeNames_of_skeleton_eq hcleared.skeleton, List.not_mem_nil,
      false_or] at hcalls
    refine .failed rfl ready hn fails (by rw [hresult]) hcalls ?_ hidle
    rw [hresult]
    exact initialized_eq_nil_iff.mp idle

/-- **What happens in a compilation**, and in which order.  A graph that is ready is left as it is.  One
whose links lead round in a cycle is refused for that, and any other for the first required input that
nothing supplies; in both cases nothing is done but to write log lines.  If neither is in the way, the
nodes that are still initialised are destroyed, the last one first, and all outputs are emptied; then the
nodes are to get ready in the topological order, as far as none fails. -/
theorem Reachable.compile_told (h : g.Reachable) (hlife : life.KeepsOutline) (stamp : Nat) :
    (g.isReady = true → g.compile life stamp = ⟨(.ok (), g), stamp, []⟩) ∧
    (g.isReady = false → g.IsCyclic →
      (∃ names, (g.compile life stamp).result = (.error (.cyclicGraph names), g)) ∧
        (g.compile life stamp).events.filter Event.isDeed = []) ∧
    (g.isReady = false → ¬ g.IsCyclic →
      (∃ s ∈ g.slots, ∃ p ∈ s.node.panel.inputs, g.Lacks s p) →
      (∃ place, g.LacksFirst place ∧
        (g.compile life stamp).result = (.error (.unsatisfiedInput place), g)) ∧
        (g.compile life stamp).events.filter Event.isDeed = []) ∧
    (g.isReady = false → ¬ g.IsCyclic →
      (∀ s ∈ g.slots, ∀ p ∈ s.node.panel.inputs, ¬ g.Lacks s p) →
      ∃ order j, g.IsCanonical order ∧ g.Cleared life j ∧
        g.CompiledFrom life j order (g.compile life stamp)) := by
  have hg := h.wellLinked
  have hrefused : ∀ {e}, g.isReady = false → g.plan = .error e →
      (∀ name cause, e ≠ .initFailed name cause) →
      (g.compile life stamp).result = (.error e, g) ∧
        (g.compile life stamp).events.filter Event.isDeed = [] := by
    intro e hr hp he
    have hresult : (g.compile life stamp).result = (.error e, g) := compile_of_error hr hp stamp
    exact ⟨hresult, (spared_compile (congrArg Prod.fst hresult) he).2⟩
  refine ⟨fun hr ↦ ?_, fun hr hcyclic ↦ ?_, fun hr hacyclic hlacks ↦ ?_, fun hr hacyclic hfull ↦ ?_⟩
  · rw [compile, if_pos hr]
    rfl
  · obtain ⟨names, hn⟩ := hg.exists_sorted_eq_error hcyclic
    obtain ⟨hresult, hdeeds⟩ := hrefused hr (hg.plan_eq_error_iff.mpr (.inl hn)) (by simp)
    exact ⟨⟨names, hresult⟩, hdeeds⟩
  · obtain ⟨s, hs, p, hp, hlacks⟩ := hlacks
    obtain ⟨place, hplace⟩ : ∃ place, g.unsatisfied? = some place := by
      refine Option.ne_none_iff_exists'.mp fun hnone ↦ ?_
      have hsat := (hg.lacks_iff hs hp).mp hlacks
      rw [Bool.and_eq_true] at hsat
      rw [unsatisfied?_eq_none_iff.mp hnone s hs p hp hsat.1] at hsat
      exact absurd hsat.2 (by simp)
    have hplan : g.plan = .error (.unsatisfiedInput place) := by
      refine hg.plan_eq_error_iff.mpr (.inr ⟨?_, place, hplace, rfl⟩)
      cases hsorted : g.sorted with
      | error e => exact absurd (hg.sorted_eq_error_iff.mp hsorted).1 hacyclic
      | ok order => exact ⟨order, rfl⟩
    obtain ⟨hresult, hdeeds⟩ := hrefused hr hplan (by simp)
    exact ⟨⟨place, hg.lacksFirst hplace, hresult⟩, hdeeds⟩
  · obtain ⟨schedule, hp⟩ : ∃ schedule, g.plan = .ok schedule := by
      refine hg.exists_plan_iff.mpr ⟨hacyclic, fun s hs p hp hreq ↦ ?_⟩
      have hno := mt (hg.lacks_iff hs hp).mpr (hfull s hs p hp)
      rw [hreq, Bool.true_and, Bool.not_eq_true'] at hno
      simpa using hno
    obtain ⟨j, hcleared, hcompiled⟩ := hg.compiledFrom hlife hr hp stamp
    exact ⟨_, j, hg.isCanonical hp, hcleared, hcompiled⟩

/-! ## Compilations of two nodes -/

/-- Nothing is lacked if nothing is required. -/
theorem not_lacks_of_all (h : (g.slots.all fun s ↦ s.node.panel.inputs.all (!·.isRequired)) = true) :
    ∀ s ∈ g.slots, ∀ p ∈ s.node.panel.inputs, ¬ g.Lacks s p := by
  intro s hs p hp hlacks
  have hno := List.all_eq_true.mp (List.all_eq_true.mp h s hs) p hp
  rw [hlacks.1] at hno
  exact absurd hno (by simp)

theorem compile_told_sample :
    sampleReady.compile reluctant 0 = ⟨(.ok (), sampleReady), 0, []⟩ ∧
    (sampleRing.isReady = false ∧ sampleRing.IsCyclic ∧
      (sampleRing.compile reluctant 0).events.filter Event.isDeed = []) ∧
    sample.isReady = false ∧ ¬ sample.IsCyclic ∧
    ∃ order j, sample.IsCanonical order ∧ sample.Cleared reluctant j ∧
      sample.CompiledFrom reluctant j order (sample.compile reluctant 0) := by
  have hcyclic : sampleRing.IsCyclic := by
    refine ⟨"a", .single ?_⟩
    unfold Feeds
    decide
  have hacyclic : ¬ sample.IsCyclic := by
    intro hcyclic
    -- a graph that compiles is not refused for a cycle
    obtain ⟨-, hrefused, -⟩ := reachable_sample.compile_told keepsOutline_idle 0
    obtain ⟨⟨names, hresult⟩, -⟩ := hrefused (by decide) hcyclic
    have hok : (sample.compile .idle 0).result.1.isOk = true := by decide +kernel
    rw [hresult] at hok
    exact absurd hok (by simp [Except.isOk, Except.toBool])
  obtain ⟨hready, -⟩ := reachable_sampleReady.compile_told keepsOutline_reluctant 0
  obtain ⟨-, hring, -⟩ := reachable_sampleRing.compile_told keepsOutline_reluctant 0
  obtain ⟨-, -, -, hplanned⟩ := reachable_sample.compile_told keepsOutline_reluctant 0
  exact ⟨hready (by decide +kernel), ⟨by decide, hcyclic, (hring (by decide) hcyclic).2⟩, by decide,
    hacyclic, hplanned (by decide) hacyclic (not_lacks_of_all (by decide +kernel))⟩

/-- The first node is destroyed again, as the other one does not get ready. -/
example : (sample.compile reluctant 0).calls =
    [("a", .init, true), ("b", .init, false), ("a", .destroy, true)] := by
  decide +kernel

end Graph
end PortGraph
