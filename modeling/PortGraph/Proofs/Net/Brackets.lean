import PortGraph.Proofs.Graph.Chronicle
import PortGraph.Proofs.Graph.Turns
import PortGraph.Proofs.Net.Coherent

/-!
# The calls of a net on its nodes

A net that is compiled, executed, released or thrown away calls its nodes, and nodes that hold nets
hand the calls on.  Whatever comes of it, every node, however deep, receives calls in an order in which
they may be made, and is initialised afterwards as they leave it (`Tracks`).

One call on a node of a net is tracked if the calls that it hands on are (`tracks_setNodeAt`), and with
single calls compilations, passes and releases are (`tracks_compile`, `tracks_execute`,
`tracks_release`).  As these are what is handed on to the nets inside, the calls of one level of
nesting are tracked if those of the level below are (`Behaviour.brackets_life`).
-/

set_option autoImplicit false

namespace PortGraph

open PortGraph.Graph
open PortGraph.Event (callsAtAll)

/-! ## Which nodes are initialised -/

/-- Whether the node at a path is initialised, if there is one: the path leads from the node into the
nets inside. -/
def Node.flagAt : Node Behaviour → List String → Option Bool
  | n, [] => some n.panel.isInitialized
  | n, name :: path => (n.inner?.bind (·.node? name)).bind (Node.flagAt · path)

/-- Whether the node at a path is initialised, if there is one: the path leads into the nets inside the
nodes. -/
def Net.flagAt (g : Net) : List String → Option Bool
  | [] => none
  | name :: path => (g.node? name).bind (·.flagAt path)

/-- Whether the nodes inside a node are initialised. -/
def Node.inside (n : Node Behaviour) (path : List String) : Option Bool :=
  n.inner?.bind (Net.flagAt · path)

theorem Node.flagAt_cons (n : Node Behaviour) (name : String) (path : List String) :
    n.flagAt (name :: path) = n.inside (name :: path) := by
  rw [flagAt, inside]
  cases n.inner? <;> rfl

theorem Node.inside_nested {n : Node Behaviour} {g : Net} {inputs outputs : List Endpoint}
    (h : n.behaviour = .nested g inputs outputs) : n.inside = Net.flagAt g := by
  funext path
  rw [inside, inner?, h]
  rfl

theorem Node.inside_of_inner?_eq_none {n : Node Behaviour} (h : n.inner? = none) :
    n.inside = fun _ ↦ none := by
  funext path
  rw [inside, h]
  rfl

theorem Node.inside_congr {m n : Node Behaviour} (h : m.behaviour = n.behaviour) :
    m.inside = n.inside := by
  funext path
  rw [inside, inside, inner?, inner?, h]

theorem Node.flagAt_congr {m n : Node Behaviour}
    (hflag : m.panel.isInitialized = n.panel.isInitialized) (h : m.behaviour = n.behaviour)
    (path : List String) : m.flagAt path = n.flagAt path := by
  cases path with
  | nil => exact congrArg some hflag
  | cons name path => rw [flagAt_cons, flagAt_cons, inside_congr h]

theorem Node.setInitialized_self {n : Node Behaviour} {b : Bool} (h : n.panel.isInitialized = b) :
    n.setInitialized b = n := by
  subst h
  rfl

/-- The place without the ports of the node. -/
def Slot.core {β : Type} (s : Slot β) : String × Bool × β :=
  (s.key, s.node.panel.isInitialized, s.node.behaviour)

namespace Net

variable {g k : Net}

/-- Ports do not matter. -/
theorem flagAt_of_cores_eq (h : k.slots.map Slot.core = g.slots.map Slot.core) :
    flagAt k = flagAt g := by
  have hcores : ∀ (j : Net) (name : String), (j.slots.find? (·.key = name)).map Slot.core =
      (j.slots.map Slot.core).find? (·.1 = name) := fun j name ↦ by
    rw [List.find?_map]
    rfl
  funext path
  cases path with
  | nil => rfl
  | cons name path =>
    have hfind := (hcores k name).trans (h ▸ (hcores g name).symm)
    rw [flagAt, flagAt, node?, node?]
    cases hk : k.slots.find? (·.key = name) with
    | none =>
      rw [hk, Option.map_none, eq_comm, Option.map_eq_none_iff] at hfind
      rw [hfind]
    | some s =>
      rw [hk, Option.map_some, eq_comm, Option.map_eq_some_iff] at hfind
      obtain ⟨r, hr, hcore⟩ := hfind
      rw [hr]
      exact Node.flagAt_congr (m := s.node) (n := r.node) (congrArg (·.2.1) hcore).symm
        (congrArg (·.2.2) hcore).symm path

theorem cores_modifyPort (g : Net) (side : Direction) (place : Endpoint) (F : Port → Port) :
    (g.modifyPort side place F).slots.map Slot.core = g.slots.map Slot.core := by
  refine List.map_map.trans (List.map_congr_left fun s _ ↦ ?_)
  rw [Function.comp_apply]
  split
  · exact congrArg (fun b ↦ (s.key, b, s.node.behaviour)) (Panel.withPorts_isInitialized ..)
  · rfl

@[simp] theorem flagAt_modifyPort (g : Net) (side : Direction) (place : Endpoint) (F : Port → Port) :
    flagAt (g.modifyPort side place F) = flagAt g :=
  flagAt_of_cores_eq (cores_modifyPort g side place F)

@[simp] theorem flagAt_resetOutputs (g : Net) : flagAt g.resetOutputs = flagAt g :=
  flagAt_of_cores_eq (List.map_map.trans (List.map_congr_left fun _ _ ↦ rfl))

@[simp] theorem flagAt_foldl_applyPull (node : Nat) (pulls : List Pull) (g : Net) :
    flagAt (pulls.foldl (applyPull node) g) = flagAt g := by
  induction pulls generalizing g with
  | nil => rfl
  | cons p pulls ih =>
    rw [List.foldl_cons, ih]
    refine flagAt_of_cores_eq (map_modify_of_eq fun s _ ↦ ?_)
    exact congrArg (fun b ↦ (s.key, b, s.node.behaviour)) (Panel.withPorts_isInitialized ..)

@[simp] theorem flagAt_feedAll (ports : List (Port × Endpoint)) (g : Net) :
    flagAt (Behaviour.feedAll ports g).2 = flagAt g :=
  feedAll_induction (P := fun k ↦ flagAt k = flagAt g) ports rfl
    fun k _ _ h ↦ (flagAt_modifyPort k _ _ _).trans h

/-- Where there is a node. -/
theorem flagAt_of_mem (h : g.nodeNames.Nodup) {s : Slot Behaviour} (hs : s ∈ g.slots)
    (path : List String) : flagAt g (s.key :: path) = s.node.flagAt path := by
  rw [flagAt, (node?_eq_some_iff h).mpr hs]
  rfl

theorem flagAt_eq_none {name : String} (h : name ∉ g.nodeNames) (path : List String) :
    flagAt g (name :: path) = none := by
  rw [flagAt]
  cases hn : g.node? name with
  | none => rfl
  | some n => exact absurd (List.mem_map_of_mem (mem_of_node? hn)) h

end Net

/-! ## From one state to another -/

/-- **The calls lead from the one state of the nodes to the other**: there are the same nodes, the calls
on each may be made in their order, and they leave it as it is afterwards. -/
def Tracks (f : List String → Option Bool) (c : Chronicle) (f' : List String → Option Bool) : Prop :=
  ∀ path, (f path).map (Call.leavesAll · (c path)) = (f' path).map some

namespace Tracks

variable {f f' f'' : List String → Option Bool} {c c' : Chronicle}

theorem of_quiet (h : ∀ path, c path = []) : Tracks f c f := fun path ↦ by
  rw [h]
  rfl

theorem rfl {events : List Event} (h : events = []) : Tracks f (callsAtAll events) f :=
  of_quiet fun _ ↦ h ▸ .refl _

theorem trans (h : Tracks f c f') (h' : Tracks f' c' f'') :
    Tracks f (fun path ↦ c path ++ c' path) f'' := by
  intro path
  have hfirst := h path
  have hsecond := h' path
  cases hf : f path with
  | none =>
    rw [hf, Option.map_none, eq_comm, Option.map_eq_none_iff] at hfirst
    rw [hfirst] at hsecond
    exact hsecond
  | some flag =>
    rw [hf, Option.map_some, eq_comm, Option.map_eq_some_iff] at hfirst
    obtain ⟨flag', hf', hleaves⟩ := hfirst
    rw [hf'] at hsecond
    rw [Option.map_some, Call.leavesAll_append, ← hleaves]
    exact hsecond

theorem append {events more : List Event} (h : Tracks f (callsAtAll events) f')
    (h' : Tracks f' (callsAtAll more) f'') : Tracks f (callsAtAll (events ++ more)) f'' := by
  rw [show callsAtAll (events ++ more) = fun path ↦ callsAtAll events path ++ callsAtAll more path
    from funext (Event.callsAtAll_append events more)]
  exact h.trans h'

/-- Where there is a node afterwards. -/
theorem exists_flag_before (h : Tracks f c f') {path : List String} {flag' : Bool}
    (hf' : f' path = some flag') :
    ∃ flag, f path = some flag ∧ Call.leavesAll flag (c path) = some flag' := by
  have hpath := h path
  rw [hf', Option.map_some, Option.map_eq_some_iff] at hpath
  exact hpath

/-- There are the same nodes. -/
theorem map_const {α : Type} (h : Tracks f c f') (a : α) (path : List String) :
    (f' path).map (fun _ ↦ a) = (f path).map fun _ ↦ a := by
  have hpath := congrArg (Option.map fun _ ↦ a) (h path)
  rw [Option.map_map, Option.map_map] at hpath
  exact hpath.symm

end Tracks

/-- What a lifecycle makes nets inside nodes do is tracked. -/
structure Lifecycle.Brackets (life : Lifecycle Behaviour) (Q : Behaviour → Bool → Prop) : Prop where
  /-- When a node gets ready. -/
  init : ∀ n stamp, Q n.behaviour false → Tracks n.inside (callsAtAll (life.init n stamp).events)
    (life.init n stamp).result.2.inside
  /-- When an initialised node executes. -/
  execute : ∀ n stamp, Q n.behaviour true → Tracks n.inside
    (callsAtAll (life.execute n stamp).events) (life.execute n stamp).result.2.inside
  /-- When an initialised node is destroyed. -/
  destroy : ∀ n stamp, Q n.behaviour true → Tracks n.inside
    (callsAtAll (life.destroy n stamp).events) (life.destroy n stamp).result.inside
  /-- When a node that is not initialised is thrown away; then no node inside stays initialised. -/
  discard : ∀ n stamp, Q n.behaviour false → Tracks n.inside
    (callsAtAll (life.discard n stamp).events) fun path ↦ (n.inside path).map fun _ ↦ false

/-! ## One call -/

/-- A call on a node, and what it hands on. -/
theorem Node.tracks_call {m n : Node Behaviour} {name : String} {call : Call} {succeeded : Bool}
    {events : List Event}
    (hflag : Call.leaves n.panel.isInitialized (call, succeeded) = some m.panel.isInitialized)
    (h : Tracks n.inside (callsAtAll events) m.inside) :
    Tracks n.flagAt (fun path ↦ callsAtAll [.call name call succeeded events] (name :: path))
      m.flagAt := by
  intro path
  have hcalls : callsAtAll [.call name call succeeded events] (name :: path) =
      (if path = [] then [(call, succeeded)] else []) ++ callsAtAll events path := by
    rw [callsAtAll, Event.callsAt, if_pos rfl, callsAtAll, List.append_nil]
  cases path with
  | nil =>
    dsimp only
    rw [hcalls, Event.callsAtAll_nil, List.append_nil, if_pos rfl, flagAt, flagAt, Option.map_some,
      Call.leavesAll_singleton, hflag, Option.map_some]
  | cons next path =>
    dsimp only
    rw [hcalls, if_neg (by simp), List.nil_append, flagAt_cons, flagAt_cons]
    exact h (next :: path)

theorem Event.callsAtAll_call_of_ne {node name : String} (h : node ≠ name) (call : Call)
    (succeeded : Bool) (events : List Event) (path : List String) :
    callsAtAll [.call node call succeeded events] (name :: path) = [] := by
  rw [callsAtAll, callsAt, if_neg h, callsAtAll, List.append_nil]

namespace Net

variable {g k : Net} {life : Lifecycle Behaviour} {Q : Behaviour → Bool → Prop}
  {E : NodeError → Prop}

/-- A call on the node at a position. -/
theorem tracks_setNodeAt (hg : g.WellLinked) {i : Nat} {s : Slot Behaviour} (hs : g.slots[i]? = some s)
    {n : Node Behaviour} {call : Call} {succeeded : Bool} {events : List Event}
    (hflag : Call.leaves s.node.panel.isInitialized (call, succeeded) = some n.panel.isInitialized)
    (h : Tracks s.node.inside (callsAtAll events) n.inside) :
    Tracks (flagAt g) (callsAtAll [.call s.node.name call succeeded events])
      (flagAt (g.setNodeAt i n)) := by
  have hmem := List.mem_of_getElem? hs
  have hname := (hg.regular s hmem).name_eq
  intro path
  cases path with
  | nil => rfl
  | cons name path =>
    rw [setNodeAt_eq_modifyNode hg.keys_nodup hs, flagAt, flagAt, node?_modifyNode]
    by_cases hne : name = s.key
    · rw [if_pos hne, hne, hg.node?_of_mem hmem]
      have hcall := @Node.tracks_call _ _ s.node.name _ _ _ hflag h path
      rw [hname] at hcall ⊢
      exact hcall
    · rw [if_neg hne, Event.callsAtAll_call_of_ne fun heq ↦ hne (heq.symm.trans hname)]
      rfl

end Net

/-! ## Releasing -/

namespace Lifecycle

variable {life : Lifecycle Behaviour} {Q : Behaviour → Bool → Prop}

theorem callsAtAll_release_of_ne {n : Node Behaviour} {name : String} (h : n.name ≠ name)
    (stamp : Nat) (path : List String) :
    callsAtAll (life.release n stamp).events (name :: path) = [] := by
  rw [release]
  split
  · exact Event.callsAtAll_call_of_ne h ..
  · rfl

/-- Releasing a node. -/
theorem Brackets.release (hb : life.Brackets Q) {n : Node Behaviour}
    (h : Q n.behaviour n.panel.isInitialized) (stamp : Nat) :
    Tracks n.flagAt (fun path ↦ callsAtAll (life.release n stamp).events (n.name :: path))
      (life.release n stamp).result.flagAt := by
  rw [Lifecycle.release]
  split
  · rename_i hflag
    have hdestroy := hb.destroy n stamp (hflag ▸ h)
    exact Node.tracks_call (m := (life.destroy n stamp).result.setInitialized false)
      (by rw [hflag]; rfl) hdestroy
  · exact .of_quiet fun _ ↦ rfl

/-- Throwing a node away. -/
theorem Brackets.discarding (hb : life.Brackets Q) {n : Node Behaviour} (h : Q n.behaviour false)
    (hflag : n.panel.isInitialized = false) (stamp : Nat) :
    Tracks n.flagAt (callsAtAll (life.discard n stamp).events) fun path ↦
      (n.flagAt path).map fun _ ↦ false := by
  intro path
  cases path with
  | nil =>
    rw [Node.flagAt, hflag, Event.callsAtAll_nil]
    rfl
  | cons name path =>
    dsimp only
    rw [Node.flagAt_cons]
    exact hb.discard n stamp h (name :: path)

end Lifecycle

namespace Net

variable {g k : Net} {life : Lifecycle Behaviour} {Q : Behaviour → Bool → Prop}
  {E : NodeError → Prop}

theorem flagAt_slots_cons (s : Slot Behaviour) (slots : List (Slot Behaviour)) (name : String)
    (path : List String) : flagAt { name := "", slots := s :: slots } (name :: path) =
      if s.key = name then s.node.flagAt path
      else flagAt { name := "", slots } (name :: path) := by
  rw [flagAt, node?, List.find?_cons]
  by_cases h : s.key = name
  · rw [if_pos h, decide_eq_true h]
    rfl
  · rw [if_neg h, decide_eq_false h]
    rfl

theorem callsAtAll_releaseAll {slots : List (Slot Behaviour)} {name : String}
    (h : ∀ s ∈ slots, s.node.name ≠ name) (stamp : Nat) (path : List String) :
    callsAtAll (life.releaseAll slots stamp).events (name :: path) = [] := by
  induction slots generalizing stamp with
  | nil => rfl
  | cons s slots ih =>
    obtain ⟨hs, hslots⟩ := List.forall_mem_cons.mp h
    rw [Lifecycle.releaseAll]
    simp only [Act.bind_apply, Act.pure_apply, List.append_nil]
    rw [Event.callsAtAll_append, ih hslots, Lifecycle.callsAtAll_release_of_ne hs]
    rfl

theorem tracks_releaseAll (hb : life.Brackets Q) {slots : List (Slot Behaviour)}
    (hnd : (slots.map Slot.key).Nodup) (hnames : ∀ s ∈ slots, s.node.name = s.key)
    (h : ∀ s ∈ slots, Q s.node.behaviour s.node.panel.isInitialized) (stamp : Nat) :
    Tracks (flagAt { name := "", slots }) (callsAtAll (life.releaseAll slots stamp).events)
      (flagAt { name := "", slots := (life.releaseAll slots stamp).result }) := by
  induction slots generalizing stamp with
  | nil => exact .rfl rfl
  | cons s slots ih =>
    obtain ⟨hkey, hnd⟩ := List.nodup_cons.mp hnd
    obtain ⟨hname, hnames⟩ := List.forall_mem_cons.mp hnames
    obtain ⟨hs, hslots⟩ := List.forall_mem_cons.mp h
    rw [Lifecycle.releaseAll]
    simp only [Act.bind_apply, Act.pure_apply, List.append_nil]
    intro path
    cases path with
    | nil => rfl
    | cons name path =>
      rw [flagAt_slots_cons, flagAt_slots_cons, Event.callsAtAll_append]
      by_cases hne : s.key = name
      · have hother : ∀ r ∈ slots, r.node.name ≠ name := fun r hr heq ↦
          hkey (hne.trans (heq.symm.trans (hnames r hr)) ▸ List.mem_map_of_mem hr)
        rw [if_pos hne, if_pos hne, callsAtAll_releaseAll hother, List.nil_append, ← hne, ← hname]
        exact hb.release hs _ path
      · rw [if_neg hne, if_neg hne,
          Lifecycle.callsAtAll_release_of_ne (fun heq ↦ hne (hname.symm.trans heq)),
          List.append_nil]
        exact ih hnd hnames hslots stamp (name :: path)

/-- **Releasing a net.** -/
theorem tracks_release (hb : life.Brackets Q) (hg : g.WellLinked) (h : g.Every Q) (stamp : Nat) :
    Tracks (flagAt g) (callsAtAll (Graph.release life g stamp).events)
      (flagAt (Graph.release life g stamp).result) := by
  rw [Graph.release]
  simp only [Act.bind_apply, Act.pure_apply, List.append_nil]
  exact tracks_releaseAll hb hg.keys_nodup (fun s hs ↦ (hg.regular s hs).name_eq) h stamp

theorem callsAtAll_discardAll {slots : List (Slot Behaviour)} {name : String}
    (h : ∀ s ∈ slots, s.node.name ≠ name) (stamp : Nat) (path : List String) :
    callsAtAll (life.discardAll (slots.map Slot.node) stamp).events (name :: path) = [] := by
  induction slots generalizing stamp with
  | nil => rfl
  | cons s slots ih =>
    obtain ⟨hs, hslots⟩ := List.forall_mem_cons.mp h
    rw [List.map_cons, Lifecycle.discardAll]
    simp only [Act.bind_apply]
    rw [Event.callsAtAll_append, ih hslots, Act.discarding, callsAtAll, Event.callsAt, if_neg hs]
    rfl

theorem tracks_discardAll (hb : life.Brackets Q) {slots : List (Slot Behaviour)}
    (hnd : (slots.map Slot.key).Nodup) (hnames : ∀ s ∈ slots, s.node.name = s.key)
    (h : ∀ s ∈ slots, Q s.node.behaviour false)
    (hflags : ∀ s ∈ slots, s.node.panel.isInitialized = false) (stamp : Nat) :
    Tracks (flagAt { name := "", slots })
      (callsAtAll (life.discardAll (slots.map Slot.node) stamp).events)
      fun path ↦ (flagAt { name := "", slots } path).map fun _ ↦ false := by
  induction slots generalizing stamp with
  | nil => exact fun path ↦ by cases path <;> rfl
  | cons s slots ih =>
    obtain ⟨hkey, hnd⟩ := List.nodup_cons.mp hnd
    obtain ⟨hname, hnames⟩ := List.forall_mem_cons.mp hnames
    obtain ⟨hs, hslots⟩ := List.forall_mem_cons.mp h
    obtain ⟨hflag, hflags⟩ := List.forall_mem_cons.mp hflags
    rw [List.map_cons, Lifecycle.discardAll]
    simp only [Act.bind_apply]
    intro path
    cases path with
    | nil => rfl
    | cons name path =>
      dsimp only
      rw [flagAt_slots_cons, Event.callsAtAll_append, Act.discarding, callsAtAll, Event.callsAt,
        callsAtAll, List.append_nil]
      by_cases hne : s.key = name
      · have hother : ∀ r ∈ slots, r.node.name ≠ name := fun r hr heq ↦
          hkey (hne.trans (heq.symm.trans (hnames r hr)) ▸ List.mem_map_of_mem hr)
        rw [if_pos hne, if_pos (hname.trans hne), callsAtAll_discardAll hother, List.append_nil]
        exact hb.discarding hs hflag stamp path
      · rw [if_neg hne, if_neg fun heq ↦ hne (hname.symm.trans heq), List.nil_append]
        exact ih hnd hnames hslots hflags _ (name :: path)

/-- What is left of a net is thrown away. -/
theorem tracks_discardReleased (hb : life.Brackets Q) (hk : life.KeepsOutline) (hq : life.Keeps Q E)
    (hg : g.WellLinked) (h : g.Every Q) (stamp stamp' : Nat) :
    Tracks (flagAt (Graph.release life g stamp).result)
      (callsAtAll (life.discardAll (Graph.release life g stamp).result.nodes stamp').events)
      fun path ↦ (flagAt (Graph.release life g stamp).result path).map fun _ ↦ false := by
  have hwell := hg.of_skeleton_eq (skeleton_release hk g stamp)
  have hflags : ∀ s ∈ (Graph.release life g stamp).result.slots, s.node.panel.isInitialized = false :=
    List.forall_mem_map.mp (flags_release life g stamp)
  refine tracks_discardAll hb hwell.keys_nodup (fun s hs ↦ (hwell.regular s hs).name_eq)
    (fun s hs ↦ ?_) hflags stamp'
  exact hflags s hs ▸ h.release hq stamp s hs

/-- **Throwing a net away**: then none of its nodes stays initialised, however deep. -/
theorem tracks_discard (hb : life.Brackets Q) (hk : life.KeepsOutline) (hq : life.Keeps Q E)
    (hg : g.WellLinked) (h : g.Every Q) (stamp : Nat) :
    Tracks (flagAt g) (callsAtAll (Graph.discard life g stamp).events)
      fun path ↦ (flagAt g path).map fun _ ↦ false := by
  have hrelease := tracks_release hb hg h stamp
  have hdiscard := hrelease.append
    (tracks_discardReleased hb hk hq hg h stamp (Graph.release life g stamp).stamp)
  simp only [hrelease.map_const] at hdiscard
  exact hdiscard

/-! ## Compiling -/

/-- Getting a node ready, which may fail. -/
theorem tracks_callInit (hb : life.Brackets Q) (hg : g.WellLinked) {i : Nat} {s : Slot Behaviour}
    (hs : g.slots[i]? = some s) (h : Q s.node.behaviour false)
    (hflag : s.node.panel.isInitialized = false) (stamp : Nat) :
    Tracks (flagAt g) (callsAtAll (life.callInit s.node stamp).events)
      (flagAt (g.setNodeAt i ((life.init s.node stamp).result.2.setInitialized
        (life.init s.node stamp).result.1.isOk))) := by
  refine tracks_setNodeAt hg hs ?_ (hb.init s.node stamp h)
  rw [hflag]
  rfl

/-- If a node fails to get ready, it is left as it is, and the others are released. -/
theorem tracks_initAll (hb : life.Brackets Q) (hk : life.KeepsOutline) (hq : life.Keeps Q E)
    {is : List Nat} (hnd : is.Nodup) (hg : g.WellLinked) (h : g.Every Q)
    (hnew : ∀ i ∈ is, g.flags[i]? ≠ some true) (stamp : Nat) :
    Tracks (flagAt g) (callsAtAll (initAll life is g stamp).events)
      (flagAt (initAll life is g stamp).result.2) := by
  induction is generalizing g stamp with
  | nil => exact .rfl rfl
  | cons i is ih =>
    obtain ⟨hi, hnd⟩ := List.nodup_cons.mp hnd
    rw [initAll]
    cases hs : g.slots[i]? with
    | none => exact ih hnd hg h (fun j hj ↦ hnew j (List.mem_cons_of_mem _ hj)) stamp
    | some s =>
      have hflag := isInitialized_eq_false_of_flags hs (hnew i List.mem_cons_self)
      have hsound : Q s.node.behaviour false := hflag ▸ h s (List.mem_of_getElem? hs)
      have hcall := tracks_callInit hb hg hs hsound hflag stamp
      have hkept := hq.init s.node stamp hsound
      have hbare := Lifecycle.bare_init hk s.node stamp
      have hstays := (Lifecycle.isInitialized_init hk s.node stamp).trans hflag
      have hresult : (life.callInit s.node stamp).result = (life.init s.node stamp).result := rfl
      simp only [Act.bind_apply, hresult]
      -- a node that fails is not noted as initialised, so the release leaves it out
      rcases hr : (life.init s.node stamp).result with ⟨e | _, after⟩
      · rw [hr] at hcall hkept hbare hstays
        have hfailed : Tracks (flagAt g) (callsAtAll (life.callInit s.node stamp).events)
            (flagAt (g.setNodeAt i after)) := by
          rw [← Node.setInitialized_self (n := after) hstays]
          exact hcall
        have hwell := hg.of_skeleton_eq (skeleton_setNodeAt hs hbare)
        have hall : (g.setNodeAt i after).Every Q := h.setNodeAt (hstays ▸ hkept)
        refine hfailed.append (.append (.of_quiet (Act.isQuiet_log _ _ _ _)) ?_)
        exact (tracks_release hb hwell hall _).append (.rfl rfl)
      · rw [hr] at hcall hkept hbare
        have hwell := hg.of_skeleton_eq (skeleton_setNodeAt (n := after.setInitialized true) hs hbare)
        refine hcall.append (ih hnd hwell (h.setNodeAt hkept) (fun j hj ↦ ?_) _)
        have hij : i ≠ j := fun hij ↦ hi (hij ▸ hj)
        rw [flags_setNodeAt, List.getElem?_set, if_neg hij]
        exact hnew j (List.mem_cons_of_mem _ hj)

/-- **Compiling a net**, also if it fails. -/
theorem tracks_compile (hb : life.Brackets Q) (hk : life.KeepsOutline) (hq : life.Keeps Q E)
    (hg : g.WellLinked) (h : g.Every Q) (stamp : Nat) :
    Tracks (flagAt g) (callsAtAll (Graph.compile life g stamp).events)
      (flagAt (Graph.compile life g stamp).result.2) := by
  rw [Graph.compile]
  split
  · exact .rfl rfl
  · cases hp : g.plan with
    | error e =>
      -- there is no plan, and no node is called
      cases e <;> exact .of_quiet fun path ↦ by cases path <;> rfl
    | ok schedule =>
      have hnd : (schedule.map Step.node).Nodup :=
        (hg.map_node_of_plan hp).2.nodup_iff.mpr List.nodup_range
      have hinit : ∀ stamp₁ stamp₂, Tracks (flagAt (Graph.release life g stamp₁).result)
          (callsAtAll (initAll life (schedule.map Step.node)
            (Graph.release life g stamp₁).result.resetOutputs stamp₂).events)
          (flagAt (initAll life (schedule.map Step.node)
            (Graph.release life g stamp₁).result.resetOutputs stamp₂).result.2) := by
        intro stamp₁ stamp₂
        have hagrees := agrees_resetOutputs (Graph.release life g stamp₁).result
        have hwell := (hg.of_skeleton_eq (skeleton_release hk g stamp₁)).of_skeleton_eq
          hagrees.skeleton
        have hall := (h.release hq stamp₁).resetOutputs
        have htracks := tracks_initAll hb hk hq hnd hwell hall (fun i _ hi ↦ ?_) stamp₂
        · rw [flagAt_resetOutputs] at htracks
          exact htracks
        · rw [hagrees.flags] at hi
          exact absurd (flags_release life g stamp₁ true (List.mem_of_getElem? hi)) (by simp)
      simp only [Act.bind_apply]
      refine .append (.of_quiet (g.isQuiet_warnUnlinked stamp)) ?_
      refine (tracks_release hb hg h _).append ?_
      have htracks := hinit (g.warnUnlinked stamp).stamp
        (Graph.release life g (g.warnUnlinked stamp).stamp).stamp
      rcases hr : (initAll life (schedule.map Step.node)
        (Graph.release life g (g.warnUnlinked stamp).stamp).result.resetOutputs
        (Graph.release life g (g.warnUnlinked stamp).stamp).stamp).result with ⟨e | _, k⟩
      · rw [hr] at htracks
        exact htracks.append (.rfl rfl)
      · rw [hr] at htracks
        exact htracks.append (.of_quiet fun path ↦ by cases path <;> rfl)

/-! ## Executing -/

/-- While all nodes are initialised, each may be called in its turn. -/
theorem tracks_executeSteps (hb : life.Brackets Q) (hk : life.KeepsOutline) (hq : life.Keeps Q E)
    (turns : List Step) (hg : g.WellLinked) (h : g.Every Q) (hflags : ∀ b ∈ g.flags, b = true)
    (stamp : Nat) :
    Tracks (flagAt g) (callsAtAll (executeSteps life turns g stamp).events)
      (flagAt (executeSteps life turns g stamp).result.2) := by
  induction turns generalizing g stamp with
  | nil => exact .rfl rfl
  | cons t turns ih =>
    rw [executeSteps, ← flagAt_foldl_applyPull t.node t.pulls g]
    have hagrees := agrees_foldl_applyPull t.node t.pulls g
    have hwell := hg.of_skeleton_eq hagrees.skeleton
    have hall : (t.pulls.foldl (applyPull t.node) g).Every Q := h.foldl_applyPull
    rw [← hagrees.flags] at hflags
    -- the pulls of the turn call no node
    generalize t.pulls.foldl (applyPull t.node) g = j at hwell hall hflags
    dsimp only
    cases hs : j.slots[t.node]? with
    | none => exact ih hwell hall hflags stamp
    | some s =>
      have hmem := List.mem_of_getElem? hs
      have hflag : s.node.panel.isInitialized = true := forall_initialized_iff.mpr hflags s hmem
      have hstays := (Lifecycle.isInitialized_execute hk s.node stamp).trans hflag
      have hsound : Q s.node.behaviour true := hflag ▸ hall s hmem
      have hcall : Tracks (flagAt j) (callsAtAll (life.callExecute s.node stamp).events)
          (flagAt (j.setNodeAt t.node (life.execute s.node stamp).result.2)) :=
        tracks_setNodeAt hwell hs (by rw [hflag, hstays]; rfl) (hb.execute s.node stamp hsound)
      have hput := agrees_setNodeAt hs (hk.execute s.node stamp)
      have hkept : (j.setNodeAt t.node (life.execute s.node stamp).result.2).Every Q :=
        hall.setNodeAt (hstays ▸ hflag ▸ hq.execute s.node stamp (hall s hmem))
      have hresult : (life.callExecute s.node stamp).result = (life.execute s.node stamp).result :=
        rfl
      simp only [Act.bind_apply, Act.log, Act.emit, hresult]
      refine .append (.of_quiet fun path ↦ by cases path <;> rfl) (.append hcall ?_)
      rcases hr : (life.execute s.node stamp).result with ⟨e | _, after⟩
      · exact .of_quiet fun path ↦ by cases path <;> rfl
      · rw [hr] at hput hkept
        exact ih (hwell.of_skeleton_eq hput.skeleton) hkept (hput.flags ▸ hflags) _

/-- **A pass over a net**, also if it fails. -/
theorem tracks_execute (hb : life.Brackets Q) (hk : life.KeepsOutline) (hq : life.Keeps Q E)
    (hg : g.WellLinked) (hc : g.Cached) (h : g.Every Q) (stamp : Nat) :
    Tracks (flagAt g) (callsAtAll (Graph.execute life g stamp).events)
      (flagAt (Graph.execute life g stamp).result.2) := by
  rw [Graph.execute]
  split
  · rename_i hready
    exact tracks_executeSteps hb hk hq g.schedule hg h (hc.flags hready) stamp
  · exact .rfl rfl

end Net

/-! ## Levels of nesting -/

/-- A node without a net in it hands nothing on. -/
theorem Node.tracks_inside_of_leaf {m n : Node Behaviour} (hn : n.inner? = none)
    (hm : m.inner? = none) (c : Chronicle) : Tracks n.inside c m.inside := by
  rw [inside_of_inner?_eq_none hn, inside_of_inner?_eq_none hm]
  exact fun _ ↦ rfl

namespace Behaviour

/-- A node below all levels holds no net. -/
theorem brackets_life_zero : (life 0).Brackets (SoundAt 0) := by
  have hnone : ∀ (n : Node Behaviour) flag, n.behaviour.SoundAt 0 flag → n.inner? = none := by
    intro n flag h
    rw [Node.inner?]
    cases hb : n.behaviour with
    | nested g inputs outputs => exact absurd (hb ▸ h.1) (by simp [depth])
    | _ => rfl
  refine ⟨fun n _ _ ↦ .rfl rfl, fun n _ _ ↦ .rfl rfl, fun n _ _ ↦ .rfl rfl, fun n _ h ↦ ?_⟩
  rw [Node.inside_of_inner?_eq_none (hnone n false h)]
  exact .rfl rfl

/-- Executing a node with a net. -/
theorem tracks_executeNested {level : Nat} (hb : (life level).Brackets (SoundAt level))
    {n : Node Behaviour} {g : Net} {inputs outputs : List Endpoint}
    (hn : n.behaviour = .nested g inputs outputs)
    (h : Net.Coherent g ∧ slotsDepth g.slots ≤ level) (stamp : Nat) :
    Tracks n.inside (callsAtAll (executeNested (life level) n g inputs outputs stamp).events)
      (executeNested (life level) n g inputs outputs stamp).result.2.inside := by
  have hfed := h.1.feedAll h.2 (n.panel.inputs.zip inputs)
  rw [Node.inside_nested hn, ← Net.flagAt_feedAll (n.panel.inputs.zip inputs) g, executeNested]
  rcases hf : feedAll (n.panel.inputs.zip inputs) g with ⟨e | _, k⟩
  · exact .rfl rfl
  · rw [hf] at hfed
    obtain ⟨hwell, hcached, -⟩ := Net.coherent_iff.mp hfed.1
    have hpass := Net.tracks_execute hb (keepsOutline_life level) (keeps_life level) hwell hcached
      (hfed.1.everyAt hfed.2) stamp
    simp only [Act.bind_apply]
    rcases hr : (Graph.execute (life level) k stamp).result with ⟨e | _, j⟩
    · rw [hr] at hpass
      exact hpass.append (.rfl rfl)
    · rw [hr] at hpass
      exact hpass.append (.rfl rfl)

/-- What is handed on is tracked, as it is at the level below. -/
theorem brackets_life_succ {level : Nat} (hb : (life level).Brackets (SoundAt level)) :
    (life (level + 1)).Brackets (SoundAt (level + 1)) := by
  have hk := keepsOutline_life level
  have hq := keeps_life level
  constructor
  case init =>
    intro n stamp h
    rw [life, Lifecycle.around]
    dsimp only
    cases hn : n.behaviour with
    | operation op => exact .rfl rfl
    | probe p => exact Node.tracks_inside_of_leaf (by rw [Node.inner?, hn]) rfl _
    | nested g inputs outputs =>
      rw [hn] at h
      obtain ⟨hc, hl, -⟩ := h.of_nested
      rw [Node.inside_nested hn]
      exact (Net.tracks_compile hb hk hq (Net.coherent_iff.mp hc).1 (hc.everyAt hl) stamp).append
        (.rfl rfl)
  case execute =>
    intro n stamp h
    rw [life, Lifecycle.around]
    dsimp only
    cases hn : n.behaviour with
    | operation op =>
      exact Node.tracks_inside_of_leaf (by rw [Node.inner?, hn]) rfl _
    | probe p => exact Node.tracks_inside_of_leaf (by rw [Node.inner?, hn]) rfl _
    | nested g inputs outputs =>
      rw [hn] at h
      obtain ⟨hc, hl, -⟩ := h.of_nested
      exact tracks_executeNested hb hn ⟨hc, hl⟩ stamp
  case destroy =>
    intro n stamp h
    rw [life, Lifecycle.around]
    dsimp only
    cases hn : n.behaviour with
    | operation op => exact .rfl rfl
    | probe p => exact Node.tracks_inside_of_leaf (by rw [Node.inner?, hn]) rfl _
    | nested g inputs outputs =>
      rw [hn] at h
      obtain ⟨hc, hl, -⟩ := h.of_nested
      rw [Node.inside_nested hn]
      exact (Net.tracks_release hb (Net.coherent_iff.mp hc).1 (hc.everyAt hl) stamp).append
        (.rfl rfl)
  case discard =>
    intro n stamp h
    rw [life, Lifecycle.around]
    dsimp only
    have hleaf : n.inner? = none → ∀ c, Tracks n.inside c fun path ↦
        (n.inside path).map fun _ ↦ false := fun hnone c ↦ by
      rw [Node.inside_of_inner?_eq_none hnone]
      exact fun _ ↦ rfl
    cases hn : n.behaviour with
    | operation op => exact hleaf (by rw [Node.inner?, hn]) _
    | probe p => exact hleaf (by rw [Node.inner?, hn]) _
    | nested g inputs outputs =>
      rw [hn] at h
      obtain ⟨hc, hl, -⟩ := h.of_nested
      rw [Node.inside_nested hn]
      exact Net.tracks_discard hb hk hq (Net.coherent_iff.mp hc).1 (hc.everyAt hl) stamp

/-- **Whatever the nodes of a net are called for, the nodes inside receive calls in an order in which
they may be made**, down to any level. -/
theorem brackets_life (level : Nat) : (life level).Brackets (SoundAt level) := by
  induction level with
  | zero => exact brackets_life_zero
  | succ level ih => exact brackets_life_succ ih

end Behaviour

end PortGraph
