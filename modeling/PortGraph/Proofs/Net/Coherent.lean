import PortGraph.Proofs.Net.Calls

/-!
# Nets inside nets

A net hands every call on to the nets in its nodes, so what its schedule is worth depends on them.
`Net.Coherent` says of a net and of all nets in it, however deep, that links and ports belong
together and that the schedule is the plan, and ties the readiness of a nested net to the flag of
the node that holds it: a node is not initialised before the net in it is ready.

`Behaviour.keeps_life` is the one induction over the levels of nesting.  What is true of the nets
at one level when their nodes are called is true one level up, where they are called as nodes.
-/

set_option autoImplicit false

namespace PortGraph

open PortGraph.Graph

/-! ## Coherent nets -/

/-- **A net is coherent, and so is every net in it.** -/
inductive Net.Coherent : Net → Prop
  /-- Links and ports belong together, the schedule is the plan, the nets in the nodes are coherent
  as well, and those in initialised nodes are ready. -/
  | intro {g : Net} (wellLinked : g.WellLinked) (cached : g.Cached)
      (inner : ∀ s ∈ g.slots, ∀ k inputs outputs,
        s.node.behaviour = .nested k inputs outputs → Coherent k)
      (ready : ∀ s ∈ g.slots, ∀ k inputs outputs, s.node.behaviour = .nested k inputs outputs →
        s.node.panel.isInitialized = true → k.isReady = true) : Coherent g

namespace Behaviour

/-- The net of a node that holds one is coherent, and ready if the node is initialised. -/
def Sound (b : Behaviour) (flag : Bool) : Prop :=
  ∀ k inputs outputs, b = .nested k inputs outputs →
    Net.Coherent k ∧ (flag = true → k.isReady = true)

/-- What is known of the nodes that a lifecycle reaches. -/
def SoundAt (level : Nat) (b : Behaviour) (flag : Bool) : Prop := b.depth ≤ level ∧ b.Sound flag

/-- No net is nested in it. -/
def IsLeaf (b : Behaviour) : Prop := ∀ k inputs outputs, b ≠ .nested k inputs outputs

theorem isLeaf_operation (op : Operation) : (operation op).IsLeaf := fun _ _ _ h ↦ nomatch h

theorem isLeaf_probe (p : Probe) : (probe p).IsLeaf := fun _ _ _ h ↦ nomatch h

theorem isLeaf_or_nested (b : Behaviour) :
    b.IsLeaf ∨ ∃ g inputs outputs, b = .nested g inputs outputs := by
  cases b with
  | operation op => exact .inl (isLeaf_operation op)
  | probe p => exact .inl (isLeaf_probe p)
  | nested g inputs outputs => exact .inr ⟨g, inputs, outputs, rfl⟩

/-- Such a node holds no net. -/
theorem isLeaf_of_inner? {n : Node Behaviour} (h : n.inner? = none) : n.behaviour.IsLeaf := by
  intro g inputs outputs hb
  rw [Node.inner?, hb] at h
  exact absurd h (by simp)

theorem IsLeaf.depth_eq {b : Behaviour} (h : b.IsLeaf) : b.depth = 0 := by
  cases b with
  | nested k inputs outputs => exact absurd rfl (h k inputs outputs)
  | _ => rfl

/-- Of a node that holds no net nothing is asked. -/
theorem IsLeaf.soundAt {b : Behaviour} (h : b.IsLeaf) (level : Nat) (flag : Bool) :
    b.SoundAt level flag :=
  ⟨h.depth_eq ▸ Nat.zero_le level, fun k inputs outputs hb ↦ absurd hb (h k inputs outputs)⟩

theorem sound_nested {g : Net} {inputs outputs : List Endpoint} {flag : Bool}
    (h : Net.Coherent g) (hr : flag = true → g.isReady = true) :
    (nested g inputs outputs).Sound flag := by
  intro k _ _ heq
  obtain ⟨rfl, -, -⟩ := nested.inj heq
  exact ⟨h, hr⟩

theorem slotsDepth_le_iff {slots : List (Slot Behaviour)} {level : Nat} :
    slotsDepth slots ≤ level ↔ ∀ s ∈ slots, s.node.behaviour.depth ≤ level := by
  induction slots with
  | nil => simp [slotsDepth]
  | cons s slots ih => rw [slotsDepth, List.forall_mem_cons, ← ih, Nat.max_le]

end Behaviour

theorem Net.coherent_iff {g : Net} :
    g.Coherent ↔ g.WellLinked ∧ g.Cached ∧ g.Every Behaviour.Sound := by
  constructor
  · intro h
    cases h with
    | intro wellLinked cached inner ready =>
      exact ⟨wellLinked, cached, fun s hs k inputs outputs hb ↦
        ⟨inner s hs k inputs outputs hb, ready s hs k inputs outputs hb⟩⟩
  · rintro ⟨wellLinked, cached, hall⟩
    exact .intro wellLinked cached
      (fun s hs k inputs outputs hb ↦ (hall s hs k inputs outputs hb).1)
      fun s hs k inputs outputs hb ↦ (hall s hs k inputs outputs hb).2

namespace Net

variable {g k : Net}

/-- What agrees with a coherent net and has coherent nodes is coherent. -/
theorem Coherent.of_agrees (h : g.Coherent) (ha : g.Agrees k) (hall : k.Every Behaviour.Sound) :
    k.Coherent := by
  obtain ⟨hg, hc, -⟩ := coherent_iff.mp h
  exact coherent_iff.mpr ⟨hg.of_skeleton_eq ha.skeleton, hc.of_agrees ha, hall⟩

theorem Coherent.everyAt (h : g.Coherent) {level : Nat}
    (hl : Behaviour.slotsDepth g.slots ≤ level) : g.Every (Behaviour.SoundAt level) := fun s hs ↦
  ⟨Behaviour.slotsDepth_le_iff.mp hl s hs, (coherent_iff.mp h).2.2 s hs⟩

/-- The net in a node of a coherent net is coherent. -/
theorem Coherent.sound_of_mem (h : g.Coherent) {s : Slot Behaviour} (hs : s ∈ g.slots) :
    s.node.behaviour.Sound false := fun k inputs outputs hb ↦
  ⟨((coherent_iff.mp h).2.2 s hs k inputs outputs hb).1, fun hf ↦ absurd hf (by simp)⟩

/-- Of coherent nodes that a lifecycle reaches, a coherent net is made again. -/
theorem coherent_of_everyAt {level : Nat} (hg : g.WellLinked) (hc : g.Cached)
    (h : g.Every (Behaviour.SoundAt level)) :
    g.Coherent ∧ Behaviour.slotsDepth g.slots ≤ level :=
  ⟨coherent_iff.mpr ⟨hg, hc, fun s hs ↦ (h s hs).2⟩,
    Behaviour.slotsDepth_le_iff.mpr fun s hs ↦ (h s hs).1⟩

/-! ## Nets in nodes -/

/-- What holds of a net goes on holding while it is fed, if putting a value on an input keeps it. -/
theorem feedAll_induction {P : Net → Prop} (ports : List (Port × Endpoint)) {g : Net} (h : P g)
    (hstore : ∀ k place packet, P k → P (k.modifyPort .input place (·.store packet))) :
    P (Behaviour.feedAll ports g).2 := by
  induction ports generalizing g with
  | nil => exact h
  | cons p ports ih =>
    obtain ⟨outer, inner⟩ := p
    rw [Behaviour.feedAll]
    cases hf : g.feed inner outer.data with
    | error e => exact h
    | ok k =>
      obtain rfl := feed_eq_ok hf
      exact ih (hstore g inner outer.data h)

theorem feedAll_agrees (ports : List (Port × Endpoint)) (g : Net) :
    g.Agrees (Behaviour.feedAll ports g).2 :=
  feedAll_induction ports .rfl fun k _ _ h ↦ h.trans (agrees_modifyPort_store k _ _ _)

theorem feedAll_every {Q : Behaviour → Bool → Prop} (ports : List (Port × Endpoint)) {g : Net}
    (h : g.Every Q) : Graph.Every Q (Behaviour.feedAll ports g).2 :=
  feedAll_induction (P := Graph.Every Q) ports h fun _ _ _ h ↦ h.modifyPort _ _ _

/-- An input is not fed only if it is not there. -/
theorem feed_eq_error {place : Endpoint} {packet : Option Packet} {e : GraphError}
    (h : g.feed place packet = .error e) :
    (∃ name, e = .nodeNotFound name) ∨ (∃ place', e = .portNotFound place') ∨
      ∃ place' side, e = .wrongDirection place' side := by
  rw [feed, changeInput, node] at h
  cases hn : g.node? place.node with
  | none =>
    rw [hn] at h
    exact .inl ⟨_, (Except.error.inj h).symm⟩
  | some n =>
    simp only [hn] at h
    rw [Panel.port] at h
    cases hp : n.panel.port? .input place.port with
    | some p =>
      rw [hp] at h
      exact absurd h (by simp)
    | none =>
      simp only [hp] at h
      obtain rfl := Except.error.inj h
      rw [Panel.missing]
      split
      · exact .inr (.inr ⟨_, _, rfl⟩)
      · exact .inr (.inl ⟨_, rfl⟩)

theorem feedAll_eq_error {ports : List (Port × Endpoint)} {e : GraphError}
    (h : (Behaviour.feedAll ports g).1 = .error e) :
    (∃ name, e = .nodeNotFound name) ∨ (∃ place, e = .portNotFound place) ∨
      ∃ place side, e = .wrongDirection place side := by
  induction ports generalizing g with
  | nil => exact absurd h (by simp [Behaviour.feedAll])
  | cons p ports ih =>
    obtain ⟨outer, inner⟩ := p
    rw [Behaviour.feedAll] at h
    cases hf : g.feed inner outer.data with
    | error cause =>
      rw [hf] at h
      obtain rfl := Except.error.inj h
      exact feed_eq_error hf
    | ok k =>
      rw [hf] at h
      exact ih h

theorem isUncompiled_feedAll {ports : List (Port × Endpoint)} {e : GraphError}
    (he : (Behaviour.feedAll ports g).1 = .error e) : e.isUncompiled = false := by
  rcases feedAll_eq_error he with ⟨_, rfl⟩ | ⟨_, rfl⟩ | ⟨_, _, rfl⟩
  · rfl
  · rfl
  · rfl

/-! ## Calls -/

section Calls

variable {level : Nat} {E : NodeError → Prop}

theorem Coherent.compileWith (hq : (Behaviour.life level).Keeps (Behaviour.SoundAt level) E)
    (h : g.Coherent) (hl : Behaviour.slotsDepth g.slots ≤ level) (stamp : Nat) :
    Coherent (Graph.compile (Behaviour.life level) g stamp).result.2 ∧
      Behaviour.slotsDepth (Graph.compile (Behaviour.life level) g stamp).result.2.slots ≤
        level := by
  obtain ⟨hg, hc, -⟩ := coherent_iff.mp h
  have hk := keepsOutline_life level
  exact coherent_of_everyAt (hg.of_skeleton_eq (skeleton_compile hk g stamp))
    (hc.compile hk hg stamp) ((h.everyAt hl).compile hk hq hg stamp)

theorem Coherent.executeWith (hq : (Behaviour.life level).Keeps (Behaviour.SoundAt level) E)
    (h : g.Coherent) (hl : Behaviour.slotsDepth g.slots ≤ level) (stamp : Nat) :
    Coherent (Graph.execute (Behaviour.life level) g stamp).result.2 ∧
      Behaviour.slotsDepth (Graph.execute (Behaviour.life level) g stamp).result.2.slots ≤
        level := by
  obtain ⟨hg, hc, -⟩ := coherent_iff.mp h
  have hk := keepsOutline_life level
  have ha := agrees_execute hk g stamp
  exact coherent_of_everyAt (hg.of_skeleton_eq ha.skeleton) (hc.of_agrees ha)
    ((h.everyAt hl).execute hk hq stamp)

theorem Coherent.releaseWith (hq : (Behaviour.life level).Keeps (Behaviour.SoundAt level) E)
    (h : g.Coherent) (hl : Behaviour.slotsDepth g.slots ≤ level) (stamp : Nat) :
    Coherent (Graph.release (Behaviour.life level) g stamp).result ∧
      Behaviour.slotsDepth (Graph.release (Behaviour.life level) g stamp).result.slots ≤
        level := by
  obtain ⟨hg, -, -⟩ := coherent_iff.mp h
  have hk := keepsOutline_life level
  exact coherent_of_everyAt (hg.of_skeleton_eq (skeleton_release hk g stamp))
    (cached_of_not_ready rfl rfl) ((h.everyAt hl).release hq stamp)

theorem Coherent.feedAll (h : g.Coherent) (hl : Behaviour.slotsDepth g.slots ≤ level)
    (ports : List (Port × Endpoint)) :
    Coherent (Behaviour.feedAll ports g).2 ∧
      Behaviour.slotsDepth (Behaviour.feedAll ports g).2.slots ≤ level := by
  obtain ⟨hg, hc, -⟩ := coherent_iff.mp h
  have ha := feedAll_agrees ports g
  exact coherent_of_everyAt (hg.of_skeleton_eq ha.skeleton) (hc.of_agrees ha)
    (feedAll_every ports (h.everyAt hl))

end Calls

end Net

namespace Behaviour

/-- What is known of a node that holds a net. -/
theorem SoundAt.of_nested {level : Nat} {g : Net} {inputs outputs : List Endpoint} {flag : Bool}
    (h : (nested g inputs outputs).SoundAt (level + 1) flag) :
    Net.Coherent g ∧ slotsDepth g.slots ≤ level ∧ (flag = true → g.isReady = true) := by
  obtain ⟨hdepth, hsound⟩ := h
  obtain ⟨hcoherent, hready⟩ := hsound g inputs outputs rfl
  rw [depth] at hdepth
  exact ⟨hcoherent, Nat.le_of_succ_le_succ hdepth, hready⟩

theorem soundAt_nested {level : Nat} {g : Net} {inputs outputs : List Endpoint} {flag : Bool}
    (h : Net.Coherent g ∧ slotsDepth g.slots ≤ level) (hr : flag = true → g.isReady = true) :
    (nested g inputs outputs).SoundAt (level + 1) flag := by
  refine ⟨?_, sound_nested h.1 hr⟩
  rw [depth]
  exact Nat.succ_le_succ h.2

section Nested

variable {level : Nat} {g : Net} {flag : Bool}

/-- A node whose net compiled may count as initialised. -/
theorem soundAt_compileNested
    (hq : (life level).Keeps (SoundAt level) (fun e ↦ e.isUncompiled = false))
    (h : Net.Coherent g ∧ slotsDepth g.slots ≤ level) (inputs outputs : List Endpoint)
    (stamp : Nat) :
    (nested (Graph.compile (life level) g stamp).result.2 inputs outputs).SoundAt (level + 1)
      ((Graph.compile (life level) g stamp).result.1.mapError NodeError.graph).isOk := by
  refine soundAt_nested (h.1.compileWith hq h.2 stamp) fun hok ↦ ?_
  refine isReady_of_compile (keepsOutline_life level) (Net.coherent_iff.mp h.1).1 ?_
  cases hr : (Graph.compile (life level) g stamp).result.1 with
  | ok _ => rfl
  | error e =>
    rw [hr] at hok
    exact absurd hok (by simp [Except.mapError, Except.isOk, Except.toBool])

/-- Executing a node with a net: the inputs are fed first, then the net executes. -/
theorem executeNested_eq (inner : Lifecycle Behaviour) (n : Node Behaviour) (g : Net)
    (inputs outputs : List Endpoint) (stamp : Nat) :
    let fed := feedAll (n.panel.inputs.zip inputs) g
    (∃ e, fed.1 = .error e ∧
      (executeNested inner n g inputs outputs stamp).result.1 = .error (.graph e) ∧
      (executeNested inner n g inputs outputs stamp).result.2.behaviour =
        .nested fed.2 inputs outputs) ∨
    fed.1 = .ok () ∧
      (executeNested inner n g inputs outputs stamp).result.1 =
        (Graph.execute inner fed.2 stamp).result.1.mapError .graph ∧
      (executeNested inner n g inputs outputs stamp).result.2.behaviour =
        .nested (Graph.execute inner fed.2 stamp).result.2 inputs outputs := by
  dsimp only
  rw [executeNested]
  rcases hf : feedAll (n.panel.inputs.zip inputs) g with ⟨e | _, k⟩
  · exact .inl ⟨e, rfl, rfl, rfl⟩
  · refine .inr ⟨rfl, ?_⟩
    simp only [Act.bind_apply]
    rcases (Graph.execute inner k stamp).result with ⟨e | _, j⟩
    · exact ⟨rfl, rfl⟩
    · exact ⟨rfl, rfl⟩

theorem soundAt_executeNested
    (hq : (life level).Keeps (SoundAt level) (fun e ↦ e.isUncompiled = false))
    (h : Net.Coherent g ∧ slotsDepth g.slots ≤ level) (hr : flag = true → g.isReady = true)
    (n : Node Behaviour) (inputs outputs : List Endpoint) (stamp : Nat) :
    (executeNested (life level) n g inputs outputs stamp).result.2.behaviour.SoundAt
      (level + 1) flag := by
  have hfed := h.1.feedAll h.2 (n.panel.inputs.zip inputs)
  have hagrees := Net.feedAll_agrees (n.panel.inputs.zip inputs) g
  rcases executeNested_eq (life level) n g inputs outputs stamp with
    ⟨e, -, -, hb⟩ | ⟨-, -, hb⟩
  · rw [hb]
    exact soundAt_nested hfed fun hflag ↦ hagrees.isReady.trans (hr hflag)
  · rw [hb]
    refine soundAt_nested (hfed.1.executeWith hq hfed.2 stamp) fun hflag ↦ ?_
    rw [(agrees_execute (keepsOutline_life level) _ stamp).isReady, hagrees.isReady, hr hflag]

theorem isUncompiled_executeNested
    (hq : (life level).Keeps (SoundAt level) (fun e ↦ e.isUncompiled = false))
    (h : Net.Coherent g ∧ slotsDepth g.slots ≤ level) (hr : g.isReady = true)
    {n : Node Behaviour} {inputs outputs : List Endpoint} {stamp : Nat} {e : NodeError}
    (he : (executeNested (life level) n g inputs outputs stamp).result.1 = .error e) :
    e.isUncompiled = false := by
  have hfed := h.1.feedAll h.2 (n.panel.inputs.zip inputs)
  have hagrees := Net.feedAll_agrees (n.panel.inputs.zip inputs) g
  rcases executeNested_eq (life level) n g inputs outputs stamp with
    ⟨cause, hc, heq, -⟩ | ⟨-, heq, -⟩
  · rw [heq] at he
    obtain rfl := Except.error.inj he
    exact Net.isUncompiled_feedAll hc
  · rw [heq] at he
    generalize (feedAll (n.panel.inputs.zip inputs) g).2 = k at hfed hagrees he
    have hready : k.isReady = true := hagrees.isReady.trans hr
    cases hx : (Graph.execute (life level) k stamp).result.1 with
    | ok _ =>
      rw [hx] at he
      exact absurd he (by simp [Except.mapError])
    | error cause =>
      rw [hx] at he
      obtain rfl := Except.error.inj he
      rw [Graph.execute, if_pos hready] at hx
      obtain ⟨name, typeName, cause', rfl, hcause⟩ := executeSteps_error (keepsOutline_life level)
        hq (hfed.1.everyAt hfed.2) ((Net.coherent_iff.mp hfed.1).2.1.flags hready) hx
      exact hcause

end Nested

/-- A node that holds no net fails to get ready for a reason of its own. -/
theorem IsLeaf.isOwn_init {n : Node Behaviour} (h : n.behaviour.IsLeaf) {level stamp : Nat}
    {e : NodeError} (he : ((life (level + 1)).init n stamp).result.1 = .error e) : e.isOwn = true := by
  obtain ⟨panel, b⟩ := n
  rw [life, Lifecycle.around] at he
  cases b with
  | operation op => exact absurd he (by simp)
  | probe p => exact Probe.isOwn_init he
  | nested g inputs outputs => exact absurd rfl (h g inputs outputs)

/-- A node that holds no net fails to execute for a reason of its own. -/
theorem IsLeaf.isOwn_execute {n : Node Behaviour} (h : n.behaviour.IsLeaf) {level stamp : Nat}
    {e : NodeError} (he : ((life (level + 1)).execute n stamp).result.1 = .error e) :
    e.isOwn = true := by
  obtain ⟨panel, b⟩ := n
  rw [life, Lifecycle.around] at he
  cases b with
  | operation op => exact Operation.isOwn_execute he
  | probe p => exact Probe.isOwn_execute he
  | nested g inputs outputs => exact absurd rfl (h g inputs outputs)

/-- A node below all levels holds no net, and nothing is asked of it. -/
theorem keeps_life_zero : (life 0).Keeps (SoundAt 0) (fun e ↦ e.isUncompiled = false) := by
  have hany : ∀ (b : Behaviour) flag flag', b.SoundAt 0 flag → b.SoundAt 0 flag' := by
    intro b flag flag' h
    cases b with
    | operation op => exact (isLeaf_operation op).soundAt 0 flag'
    | probe p => exact (isLeaf_probe p).soundAt 0 flag'
    | nested g inputs outputs => exact absurd h.1 (by simp [depth])
  constructor
  case init => exact fun n _ h ↦ hany _ _ _ h
  case execute => exact fun n _ h ↦ h
  case fails => exact fun _ _ _ _ he ↦ absurd he (by simp [life, Lifecycle.idle])
  case destroy => exact fun n _ h ↦ hany _ _ _ h

/-- What is kept at one level of nesting is kept at the next. -/
theorem keeps_life_succ {level : Nat}
    (hq : (life level).Keeps (SoundAt level) (fun e ↦ e.isUncompiled = false)) :
    (life (level + 1)).Keeps (SoundAt (level + 1)) (fun e ↦ e.isUncompiled = false) := by
  constructor
  case init =>
    intro n stamp h
    rw [life, Lifecycle.around]
    dsimp only
    -- only a net has anything to lose; nodes that hold none are sound whatever they do
    cases hb : n.behaviour with
    | operation op =>
      have hop := (isLeaf_operation op).soundAt (level + 1) true
      rw [← hb] at hop
      exact hop
    | probe p => exact (isLeaf_probe _).soundAt _ _
    | nested g inputs outputs =>
      rw [hb] at h
      obtain ⟨hc, hl, -⟩ := h.of_nested
      exact soundAt_compileNested hq ⟨hc, hl⟩ inputs outputs stamp
  case execute =>
    intro n stamp h
    rw [life, Lifecycle.around]
    dsimp only
    cases hb : n.behaviour with
    | operation op => exact (isLeaf_operation op).soundAt _ _
    | probe p => exact (isLeaf_probe _).soundAt _ _
    | nested g inputs outputs =>
      rw [hb] at h
      obtain ⟨hc, hl, hr⟩ := h.of_nested
      exact soundAt_executeNested hq ⟨hc, hl⟩ hr n inputs outputs stamp
  case fails =>
    intro n stamp e h he
    obtain hb | ⟨g, inputs, outputs, hb⟩ := n.behaviour.isLeaf_or_nested
    · exact NodeError.isUncompiled_of_isOwn (hb.isOwn_execute he)
    · rw [life, Lifecycle.around] at he
      dsimp only at he
      rw [hb] at h he
      obtain ⟨hc, hl, hr⟩ := h.of_nested
      exact isUncompiled_executeNested hq ⟨hc, hl⟩ (hr rfl) he
  case destroy =>
    intro n stamp h
    rw [life, Lifecycle.around]
    dsimp only
    cases hb : n.behaviour with
    | operation op =>
      have hop := (isLeaf_operation op).soundAt (level + 1) false
      rw [← hb] at hop
      exact hop
    | probe p => exact (isLeaf_probe _).soundAt _ _
    | nested g inputs outputs =>
      rw [hb] at h
      obtain ⟨hc, hl, -⟩ := h.of_nested
      exact soundAt_nested (hc.releaseWith hq hl stamp) fun hf ↦ absurd hf (by simp)

/-- **Calling the nodes of a net keeps the nets in them coherent**, and no initialised node fails
because a graph was not compiled. -/
theorem keeps_life (level : Nat) :
    (life level).Keeps (SoundAt level) (fun e ↦ e.isUncompiled = false) := by
  induction level with
  | zero => exact keeps_life_zero
  | succ level ih => exact keeps_life_succ ih

end Behaviour
end PortGraph
