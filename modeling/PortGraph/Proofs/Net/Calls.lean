import PortGraph.Net.Life
import PortGraph.Proofs.Graph.Relocated

/-!
# What the nodes of a net do when they are called

Three things are known of the nodes of a net without a look at the nets inside them.

* They write on their panels what their outputs hold, and nothing else, so that the outlines of the
  panels stay as they are (`Behaviour.publishes_execute`, `keepsOutline_life`).
* What they do does not depend on their names (`ignoresNames_life`).
* A node that holds no net fails for a reason of its own: what an operation may meet is a port that is
  missing, empty or of another kind (`PortBound`), and a custom node reports no failure of others
  (`Fault`).
-/

set_option autoImplicit false

namespace PortGraph

/-! ## What is written on panels -/

namespace Panel

/-- **Values were put on the outputs** of a panel, and nothing else was written there. -/
def Publishes (panel panel' : Panel) : Prop :=
  ∃ outputs, outputs.map (·.store none) = panel.outputs.map (·.store none) ∧
    panel' = { panel with outputs }

namespace Publishes

variable {panel panel' panel'' : Panel}

theorem refl (panel : Panel) : panel.Publishes panel := ⟨panel.outputs, rfl, rfl⟩

theorem trans (h : panel.Publishes panel') (h' : panel'.Publishes panel'') :
    panel.Publishes panel'' := by
  obtain ⟨outputs, hports, rfl⟩ := h
  obtain ⟨outputs', hports', rfl⟩ := h'
  exact ⟨outputs', hports'.trans hports, rfl⟩

theorem outline (h : panel.Publishes panel') : panel'.outline = panel.outline := by
  obtain ⟨outputs, hports, rfl⟩ := h
  exact (outline_withPorts_of_map hports :
    (panel.withPorts .output outputs).outline = panel.outline)

theorem inputs (h : panel.Publishes panel') : panel'.inputs = panel.inputs := by
  obtain ⟨outputs, -, rfl⟩ := h
  rfl

end Publishes

theorem publishes_modifyPort (panel : Panel) (name : String) (packet : Packet) :
    panel.Publishes (panel.modifyPort .output name (·.store (some packet))) :=
  ⟨_, Port.map_modifyNamed_of_eq (f := (·.store (some packet))) fun _ ↦ rfl, rfl⟩

theorem publishes_resetOutputs (panel : Panel) : panel.Publishes panel.resetOutputs :=
  ⟨panel.outputs.map (·.store none), by simp [Port.store, Function.comp_def], rfl⟩

theorem publishes_of_publish {panel panel' : Panel} {name : String} {packet : Packet}
    (h : panel.publish name packet = .ok panel') : panel.Publishes panel' := by
  rw [publish] at h
  split at h
  · exact absurd h (by simp)
  · obtain rfl := Except.ok.inj h
    exact panel.publishes_modifyPort name packet

theorem outline_publish {panel panel' : Panel} {name : String} {packet : Packet}
    (h : panel.publish name packet = .ok panel') : panel'.outline = panel.outline :=
  (publishes_of_publish h).outline

end Panel

theorem Operation.publishes_execute (op : Operation) (panel : Panel) (stamp : Nat) :
    panel.Publishes (op.execute panel stamp).result.2 := by
  rw [execute]
  cases op.publication panel with
  | error e => exact .refl panel
  | ok publication =>
    simp only [Act.bind_apply]
    cases hp : panel.publish op.output.name (publication.packet stamp).result with
    | error e => exact .refl panel
    | ok panel' => exact Panel.publishes_of_publish hp

theorem Probe.publishes_passOn (passes : Int64) (inputs outputs : List String) (panel : Panel)
    (stamp : Nat) : panel.Publishes (passOn passes inputs outputs panel stamp).result.2 := by
  induction outputs generalizing inputs panel stamp with
  | nil => cases inputs <;> exact .refl panel
  | cons output outputs ih =>
    cases inputs with
    | nil =>
      rw [passOn]
      simp only [Act.bind_apply]
      cases hp : panel.publish output (Act.publish ⟨.scalar .int, passes⟩ stamp).result with
      | error e => exact .refl panel
      | ok panel' => exact (Panel.publishes_of_publish hp).trans (ih [] panel' _)
    | cons input inputs =>
      rw [passOn]
      cases panel.read .input input with
      | error e => exact .refl panel
      | ok packet =>
        dsimp only
        cases hp : panel.publish output packet with
        | error e => exact .refl panel
        | ok panel' => exact (Panel.publishes_of_publish hp).trans (ih inputs panel' stamp)

theorem Probe.publishes_relay (probe : Probe) (panel : Panel) (stamp : Nat) :
    panel.Publishes (probe.relay panel stamp).result.2.1 := by
  rw [relay]
  simp only [Act.bind_apply]
  split
  · exact .refl panel
  · split
    · exact .refl panel
    · simp only [Act.bind_apply]
      have h := publishes_passOn probe.passes (panel.inputs.map Port.name)
        (panel.outputs.map Port.name) panel (leaveMark panel "execute" stamp).stamp
      rcases hr : (passOn probe.passes (panel.inputs.map Port.name) (panel.outputs.map Port.name)
        panel (leaveMark panel "execute" stamp).stamp).result with ⟨e | _, panel'⟩
      · rw [hr] at h
        exact h
      · rw [hr] at h
        exact h

/-- A custom node publishes on its outputs, and empties them. -/
theorem Panel.publishes_write (writes : List Write) (panel : Panel) (stamp : Nat) :
    panel.Publishes (Panel.write writes panel stamp).result := by
  induction writes generalizing panel stamp with
  | nil => exact .refl panel
  | cons w writes ih =>
    cases w with
    | publish output publication => exact (panel.publishes_modifyPort output _).trans (ih _ _)
    | reset => exact panel.publishes_resetOutputs.trans (ih _ _)

theorem Probe.publishes_execute (probe : Probe) (panel : Panel) (stamp : Nat) :
    panel.Publishes (probe.execute panel stamp).result.2.1 := by
  rw [execute]
  cases probe.custom with
  | none => exact probe.publishes_relay panel stamp
  | some c => exact panel.publishes_write _ _

namespace Behaviour

theorem map_store_takeOver (g : Net) (ports : List Port) (places : List Endpoint) :
    (takeOver g ports places).map (·.store none) = ports.map (·.store none) := by
  induction ports generalizing places with
  | nil => cases places <;> rfl
  | cons p ports ih =>
    cases places with
    | nil => rfl
    | cons place places =>
      rw [takeOver, List.map_cons, List.map_cons, ih, Port.store_store]

theorem publishes_executeNested (inner : Lifecycle Behaviour) (n : Node Behaviour)
    (g : Net) (inputs outputs : List Endpoint) (stamp : Nat) :
    n.panel.Publishes (executeNested inner n g inputs outputs stamp).result.2.panel := by
  rw [executeNested]
  rcases hf : feedAll (n.panel.inputs.zip inputs) g with ⟨e | _, k⟩
  · exact .refl n.panel
  · simp only [Act.bind_apply]
    rcases (Graph.execute inner k stamp).result with ⟨e | _, j⟩
    · exact .refl n.panel
    · exact ⟨_, map_store_takeOver j n.panel.outputs outputs, rfl⟩

/-- Getting ready, a node of a net writes nothing on its panel. -/
theorem panel_init (level : Nat) (n : Node Behaviour) (stamp : Nat) :
    ((life level).init n stamp).result.2.panel = n.panel := by
  cases level with
  | zero => rfl
  | succ level =>
    rw [life, Lifecycle.around]
    dsimp only
    cases n.behaviour <;> rfl

/-- **When it executes, a node of a net writes on its panel what its outputs hold**, and nothing else. -/
theorem publishes_execute (level : Nat) (n : Node Behaviour) (stamp : Nat) :
    n.panel.Publishes ((life level).execute n stamp).result.2.panel := by
  cases level with
  | zero => exact .refl n.panel
  | succ level =>
    rw [life, Lifecycle.around]
    dsimp only
    cases n.behaviour with
    | operation op => exact op.publishes_execute n.panel stamp
    | probe p => exact p.publishes_execute n.panel stamp
    | nested g inputs outputs => exact publishes_executeNested _ n g inputs outputs stamp

/-- Giving back, a node of a net writes nothing on its panel. -/
theorem panel_destroy (level : Nat) (n : Node Behaviour) (stamp : Nat) :
    ((life level).destroy n stamp).result.panel = n.panel := by
  cases level with
  | zero => rfl
  | succ level =>
    rw [life, Lifecycle.around]
    dsimp only
    cases n.behaviour <;> rfl

end Behaviour

/-- **The nodes of a net leave the outlines of their panels alone**, down to any level. -/
theorem keepsOutline_life (level : Nat) : (Behaviour.life level).KeepsOutline where
  init n stamp := congrArg Panel.outline (Behaviour.panel_init level n stamp)
  execute n stamp := (Behaviour.publishes_execute level n stamp).outline
  destroy n stamp := congrArg Panel.outline (Behaviour.panel_destroy level n stamp)

/-- Only the mark that a probe leaves tells of its name. -/
theorem Probe.init_rename (probe : Probe) (panel : Panel) (name : String) (stamp : Nat) :
    (probe.init { panel with name } stamp).result = (probe.init panel stamp).result ∧
      (probe.init { panel with name } stamp).stamp = (probe.init panel stamp).stamp := by
  rw [init, init]
  cases probe.custom with
  | none =>
    rw [start, start]
    cases probe.failsInit <;> exact ⟨rfl, rfl⟩
  | some c => exact ⟨rfl, rfl⟩

theorem Probe.destroy_rename (probe : Probe) (panel : Panel) (name : String) (stamp : Nat) :
    (probe.destroy { panel with name } stamp).result = (probe.destroy panel stamp).result ∧
      (probe.destroy { panel with name } stamp).stamp = (probe.destroy panel stamp).stamp := by
  rw [destroy, destroy]
  cases probe.custom <;> exact ⟨rfl, rfl⟩

/-- **What the nodes of a net do does not depend on their names**, down to any level: only a mark tells
of a name. -/
theorem ignoresNames_life (level : Nat) : (Behaviour.life level).IgnoresNames := by
  cases level with
  | zero => exact ⟨fun _ _ _ ↦ ⟨rfl, rfl⟩, fun _ _ _ ↦ ⟨rfl, rfl⟩⟩
  | succ level =>
    refine ⟨fun n name stamp ↦ ?_, fun n name stamp ↦ ?_⟩
    · obtain ⟨panel, behaviour⟩ := n
      cases behaviour with
      | operation op => exact ⟨rfl, rfl⟩
      | probe p =>
        obtain ⟨hresult, hstamp⟩ := p.init_rename panel name stamp
        exact ⟨congrArg (fun r ↦ (r.1, (⟨{ panel with name }, .probe r.2⟩ : Node Behaviour))) hresult,
          hstamp⟩
      | nested g inputs outputs => exact ⟨rfl, rfl⟩
    · obtain ⟨panel, behaviour⟩ := n
      cases behaviour with
      | operation op => exact ⟨rfl, rfl⟩
      | probe p =>
        obtain ⟨hresult, hstamp⟩ := p.destroy_rename panel name stamp
        exact ⟨congrArg (fun q ↦ (⟨{ panel with name }, .probe q⟩ : Node Behaviour)) hresult, hstamp⟩
      | nested g inputs outputs => exact ⟨rfl, rfl⟩

/-! ## Refusals -/

mutual

/-- Whether a refusal goes back to a graph that was not compiled. -/
def GraphError.isUncompiled : GraphError → Bool
  | .notCompiled _ => true
  | .initFailed _ cause => cause.isUncompiled
  | .executionFailed _ _ cause => cause.isUncompiled
  | .persistence _ cause => cause.isUncompiled
  | _ => false

/-- Whether a failure goes back to a graph that was not compiled. -/
def NodeError.isUncompiled : NodeError → Bool
  | .graph e => e.isUncompiled
  | _ => false

end

/-- The port that a refusal is about: it is not there, or nothing, or nothing of the right kind. -/
def GraphError.place? : GraphError → Option Endpoint
  | .portNotFound place => some place
  | .wrongDirection place _ => some place
  | .noData place => some place
  | .valueMismatch place _ _ => some place
  | _ => none

/-- If an operation was refused, this is about a port. -/
def PortBound {α : Type} (x : Except GraphError α) : Prop :=
  ∀ e, x = .error e → e.place?.isSome = true

theorem portBound_ok {α : Type} (a : α) : PortBound (.ok a) := fun _ h ↦ absurd h (by simp)

theorem portBound_error {α : Type} {e : GraphError} (h : e.place?.isSome = true) :
    PortBound (.error e : Except GraphError α) := by
  intro e' he
  obtain rfl := Except.error.inj he
  exact h

theorem PortBound.bind {α γ : Type} {x : Except GraphError α} {f : α → Except GraphError γ}
    (h : PortBound x) (hf : ∀ a, PortBound (f a)) : PortBound (x >>= f) := by
  cases x with
  | error e => exact portBound_error (h e rfl)
  | ok a => exact hf a

theorem PortBound.map {α γ : Type} {x : Except GraphError α} (h : PortBound x) (f : α → γ) :
    PortBound (x.map f) := by
  cases x with
  | error e => exact portBound_error (h e rfl)
  | ok a => exact portBound_ok (f a)

namespace Panel

variable (panel : Panel) (side : Direction) (name : String)

theorem portBound_port : PortBound (panel.port side name) := by
  rw [port]
  split
  · exact portBound_ok _
  · rw [missing]
    split
    · exact portBound_error rfl
    · exact portBound_error rfl

theorem portBound_read : PortBound (panel.read side name) := by
  rw [read]
  cases hp : panel.port side name with
  | error e => exact portBound_error (panel.portBound_port side name e hp)
  | ok p =>
    dsimp only
    split
    · exact portBound_ok _
    · exact portBound_error rfl

theorem portBound_readAs (k : Kind) : PortBound (panel.readAs side name k) := by
  rw [readAs]
  cases hp : panel.read side name with
  | error e => exact portBound_error (panel.portBound_read side name e hp)
  | ok packet =>
    dsimp only
    split
    · exact portBound_ok _
    · exact portBound_error rfl

theorem portBound_readAs? (k : Kind) : PortBound (panel.readAs? name k) := by
  rw [readAs?]
  cases hp : panel.readAs .input name k with
  | error e =>
    dsimp only
    split
    · exact portBound_ok _
    · exact portBound_error (panel.portBound_readAs .input name k e hp)
  | ok x => exact portBound_ok _

theorem portBound_supplied? (k : Kind) : PortBound (panel.supplied? name k) := by
  rw [supplied?]
  split
  · exact (panel.portBound_readAs .input name k).map some
  · exact panel.portBound_readAs? name k

theorem portBound_publish (packet : Packet) : PortBound (panel.publish name packet) := by
  rw [publish]
  cases hp : panel.port .output name with
  | error e => exact portBound_error (panel.portBound_port .output name e hp)
  | ok p => exact portBound_ok _

end Panel

theorem Operation.portBound_publication (op : Operation) (panel : Panel) :
    PortBound (op.publication panel) := by
  have hread := panel.portBound_read .input
  have hreadAs := panel.portBound_readAs .input
  cases op with
  | source k value =>
    rw [publication]
    cases hr : panel.read .input "from" with
    | ok packet => exact portBound_ok _
    | error e =>
      dsimp only
      split
      · exact portBound_ok _
      · exact portBound_error (hread "from" e hr)
  | sink k => exact (hread "from").bind fun _ ↦ portBound_ok _
  | unary k l f => exact (hreadAs "in" k).bind fun _ ↦ portBound_ok _
  | binary k l m f =>
    exact (hreadAs "a" k).bind fun _ ↦ (hreadAs "b" l).bind fun _ ↦ portBound_ok _
  | mapping e operator =>
    exact (panel.portBound_supplied? "f" (.mapping e)).bind fun _ ↦
      (hreadAs "in" (.list e)).bind fun _ ↦ portBound_ok _
  | folding e operator init =>
    exact (panel.portBound_supplied? "f" (.folding e)).bind fun _ ↦
      (panel.portBound_supplied? "init" (.scalar e)).bind fun _ ↦
        (hreadAs "in" (.list e)).bind fun _ ↦ portBound_ok _
  | increment => exact (hreadAs "in" (.scalar .float)).bind fun _ ↦ portBound_ok _

theorem NodeError.isUncompiled_of_isOwn {e : NodeError} (h : e.isOwn = true) :
    e.isUncompiled = false := by
  cases e with
  | graph e =>
    cases e with
    | notCompiled | initFailed | executionFailed | persistence => exact absurd h (by simp [isOwn])
    | _ => rfl
  | _ => rfl

/-- What a port of a node refuses is a failure of the node's own. -/
theorem NodeError.isOwn_of_place? {e : GraphError} (h : e.place?.isSome = true) :
    (NodeError.graph e).isOwn = true := by
  cases e with
  | portNotFound | wrongDirection | noData | valueMismatch => rfl
  | _ => exact absurd h (by simp [GraphError.place?])

theorem Operation.isOwn_execute {op : Operation} {panel : Panel} {stamp : Nat}
    {e : NodeError} (h : (op.execute panel stamp).result.1 = .error e) : e.isOwn = true := by
  rw [execute] at h
  cases hp : op.publication panel with
  | error cause =>
    rw [hp] at h
    obtain rfl := Except.error.inj h
    exact NodeError.isOwn_of_place? (op.portBound_publication panel cause hp)
  | ok publication =>
    rw [hp] at h
    simp only [Act.bind_apply] at h
    cases hpub : panel.publish op.output.name (publication.packet stamp).result with
    | error cause =>
      rw [hpub] at h
      obtain rfl := Except.error.inj h
      exact NodeError.isOwn_of_place? (panel.portBound_publish _ _ cause hpub)
    | ok panel' =>
      rw [hpub] at h
      exact absurd h (by simp)

/-- The failure that stands for a fault is a node's own. -/
theorem Fault.isOwn_of_mapError {x : Except Fault Unit} {e : NodeError}
    (h : x.mapError Subtype.val = .error e) : e.isOwn = true := by
  cases x with
  | error fault =>
    obtain rfl := Except.error.inj h
    exact fault.2
  | ok _ => exact absurd h (by simp [Except.mapError])

theorem Probe.portBound_passOn (passes : Int64) (inputs outputs : List String) (panel : Panel)
    (stamp : Nat) : PortBound (passOn passes inputs outputs panel stamp).result.1 := by
  induction outputs generalizing inputs panel stamp with
  | nil => cases inputs <;> exact portBound_ok ()
  | cons output outputs ih =>
    cases inputs with
    | nil =>
      rw [passOn]
      simp only [Act.bind_apply]
      cases hp : panel.publish output (Act.publish ⟨.scalar .int, passes⟩ stamp).result with
      | error e => exact portBound_error (panel.portBound_publish _ _ e hp)
      | ok panel' => exact ih [] panel' _
    | cons input inputs =>
      rw [passOn]
      cases hr : panel.read .input input with
      | error e => exact portBound_error (panel.portBound_read _ _ e hr)
      | ok packet =>
        dsimp only
        cases hp : panel.publish output packet with
        | error e => exact portBound_error (panel.portBound_publish _ _ e hp)
        | ok panel' => exact ih inputs panel' stamp

theorem Probe.isOwn_relay {probe : Probe} {panel : Panel} {stamp : Nat} {e : NodeError}
    (h : (probe.relay panel stamp).result.1 = .error e) : e.isOwn = true := by
  rw [relay] at h
  simp only [Act.bind_apply] at h
  by_cases hfails : probe.failsExecute
  · rw [if_pos hfails] at h
    obtain rfl := Except.error.inj h
    rfl
  · rw [if_neg hfails] at h
    by_cases hsilent : probe.isSilent
    · rw [if_pos hsilent] at h
      exact absurd h (by simp)
    · rw [if_neg hsilent] at h
      simp only [Act.bind_apply] at h
      have hpass := portBound_passOn probe.passes (panel.inputs.map Port.name)
        (panel.outputs.map Port.name) panel (leaveMark panel "execute" stamp).stamp
      rcases hr : (passOn probe.passes (panel.inputs.map Port.name) (panel.outputs.map Port.name)
        panel (leaveMark panel "execute" stamp).stamp).result with ⟨cause | _, panel'⟩
      · rw [hr] at h hpass
        obtain rfl := Except.error.inj h
        exact NodeError.isOwn_of_place? (hpass cause rfl)
      · rw [hr] at h
        exact absurd h (by simp)

theorem Probe.isOwn_execute {probe : Probe} {panel : Panel} {stamp : Nat} {e : NodeError}
    (h : (probe.execute panel stamp).result.1 = .error e) : e.isOwn = true := by
  rw [execute] at h
  cases hc : probe.custom with
  | none =>
    rw [hc] at h
    exact isOwn_relay h
  | some c =>
    rw [hc] at h
    exact Fault.isOwn_of_mapError h

theorem Probe.isOwn_init {probe : Probe} {panel : Panel} {stamp : Nat} {e : NodeError}
    (h : (probe.init panel stamp).result.1 = .error e) : e.isOwn = true := by
  rw [init] at h
  cases hc : probe.custom with
  | none =>
    rw [hc] at h
    simp only [start] at h
    split at h
    · obtain rfl := Except.error.inj h
      rfl
    · exact absurd h (by simp)
  | some c =>
    rw [hc] at h
    exact Fault.isOwn_of_mapError h

end PortGraph
