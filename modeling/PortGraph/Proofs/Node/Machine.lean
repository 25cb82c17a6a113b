import PortGraph.Net.Life

/-!
# Nodes with a state

A host writes its nodes with whatever state they need, which every call may change (`Machine`).  A
custom node has no state of its own; it remembers what happened to it instead.  That is enough: the
custom node of a machine stands for it (`Machine.StandsFor`), and does so call after call, whatever
its graph writes on its panel meanwhile (`Machine.StandsFor.calls`).  So what holds of nets with
custom nodes holds whatever states the nodes of a host go through.
-/

set_option autoImplicit false

namespace PortGraph

/-! ## Calls in a row -/

/-- Call a node. -/
def Lifecycle.call {β : Type} (life : Lifecycle β) :
    Call → Node β → Act (Reply NodeError (Node β) Unit)
  | .init, n => life.init n
  | .execute, n => life.execute n
  | .destroy, n => do
    let n ← life.destroy n
    return (.ok (), n)

/-- Call a node again and again; before each call its graph writes on its panel. -/
def Lifecycle.calls {β : Type} (life : Lifecycle β) :
    List ((Panel → Panel) × Call) → Node β → Act (List (Except NodeError Unit) × Node β)
  | [], n => return ([], n)
  | (write, c) :: rest, n => do
    let (result, n) ← life.call c (n.mapPanel write)
    let (results, n) ← life.calls rest n
    return (result :: results, n)

/-! ## Machines -/

/-- A node as a host writes it.  It does not look at its name. -/
structure Machine (σ : Type) where
  /-- The state of a new node. -/
  start : σ
  /-- How it gets ready: what it logs, whether it fails, and its state then. -/
  init : σ → Panel → (List LogLine × Except Fault Unit) × σ
  /-- How it executes: what it logs, what it does to its outputs, whether it fails, and its state
  then. -/
  execute : σ → Panel → (List LogLine × List Write × Except Fault Unit) × σ
  /-- How it gives back what it took: what it logs, and its state then. -/
  destroy : σ → Panel → List LogLine × σ
  /-- Its state once it took a configuration over, unless it refuses to. -/
  restore : σ → Json → Except NodeError σ

namespace Machine

variable {σ : Type} (machine : Machine σ)

/-- What nodes with such states do. -/
def life : Lifecycle σ where
  init n := do
    let ((lines, result), state) := machine.init n.behaviour n.panel.nameless
    Custom.report lines
    return (result.mapError Subtype.val, ⟨n.panel, state⟩)
  execute n := do
    let ((lines, writes, result), state) := machine.execute n.behaviour n.panel.nameless
    Custom.report lines
    let panel ← Panel.write writes n.panel
    return (result.mapError Subtype.val, ⟨panel, state⟩)
  destroy n := do
    let (lines, state) := machine.destroy n.behaviour n.panel.nameless
    Custom.report lines
    return ⟨n.panel, state⟩
  discard _ := return ()

/-! ## Custom nodes in place of machines -/

/-- The state after something happened. -/
def next (state : σ) : Visit → σ
  | .called .init panel => (machine.init state panel).2
  | .called .execute panel => (machine.execute state panel).2
  | .called .destroy panel => (machine.destroy state panel).2
  | .configured config => (machine.restore state config).toOption.getD state

/-- The state after all that happened, the latest of which comes first. -/
def after (visits : List Visit) : σ :=
  visits.foldr (fun visit state ↦ machine.next state visit) machine.start

/-- The custom node that answers as the machine does in the state that it is in after all that
happened. -/
def custom (save : List Json → String → Except NodeError (Option Json)) (visits : List Visit) :
    Custom where
  visits
  onInit visits panel := (machine.init (machine.after visits) panel).1
  onExecute visits panel := (machine.execute (machine.after visits) panel).1
  onDestroy visits panel := (machine.destroy (machine.after visits) panel).1
  onRestore visits config := (machine.restore (machine.after visits) config).map fun _ ↦ ()
  onSave := save

/-- **A node of a net stands for one with a state**: it is the custom node of the machine, and
remembers what led to that state. -/
def StandsFor (k : Node Behaviour) (n : Node σ) : Prop :=
  k.panel = n.panel ∧ ∃ save visits, n.behaviour = machine.after visits ∧
    k.behaviour = .probe { custom := some (machine.custom save visits) }

/-- **Two outcomes match**: the same happened, with the same result, and the one node stands for the
other. -/
structure Matches {α : Type} (o : Outcome (α × Node Behaviour)) (o' : Outcome (α × Node σ)) :
    Prop where
  /-- The same happened. -/
  events : o.events = o'.events
  /-- As many stamps were drawn. -/
  stamp : o.stamp = o'.stamp
  /-- The results are the same. -/
  result : o.result.1 = o'.result.1
  /-- The one node stands for the other. -/
  standsFor : machine.StandsFor o.result.2 o'.result.2

variable {machine} {k : Node Behaviour} {n : Node σ}

/-- A new custom node stands for a new machine. -/
theorem standsFor_start (save : List Json → String → Except NodeError (Option Json)) (panel : Panel) :
    machine.StandsFor ⟨panel, .probe { custom := some (machine.custom save []) }⟩
      ⟨panel, machine.start⟩ :=
  ⟨rfl, save, [], rfl, rfl⟩

/-- What a graph writes on the panels leaves the one node in place of the other. -/
theorem StandsFor.mapPanel (h : machine.StandsFor k n) (f : Panel → Panel) :
    machine.StandsFor (k.mapPanel f) (n.mapPanel f) :=
  ⟨congrArg f h.1, h.2⟩

/-- **A call of the one node comes to what it comes to for the other.** -/
theorem StandsFor.call (h : machine.StandsFor k n) (level : Nat) (c : Call) (stamp : Nat) :
    machine.Matches ((Behaviour.life (level + 1)).call c k stamp) (machine.life.call c n stamp) := by
  obtain ⟨panel, b⟩ := k
  obtain ⟨panel', state⟩ := n
  obtain ⟨hpanel, save, visits, rfl, rfl⟩ := h
  obtain rfl : panel = panel' := hpanel
  have hnext : ∀ visit, machine.next (machine.after visits) visit = machine.after (visit :: visits) :=
    fun _ ↦ rfl
  -- all but the events are the same by definition; these are put together in another order
  cases c with
  | init =>
    refine ⟨?_, rfl, rfl, rfl, save, _, hnext (.called .init panel.nameless), rfl⟩
    simp only [Lifecycle.call, life, Behaviour.life, Lifecycle.around, Probe.init, Custom.init, custom,
      Act.bind_apply, Act.pure_apply, List.append_nil]
  | execute =>
    refine ⟨?_, rfl, rfl, rfl, save, _, hnext (.called .execute panel.nameless), rfl⟩
    simp only [Lifecycle.call, life, Behaviour.life, Lifecycle.around, Probe.execute, Custom.execute,
      custom, Act.bind_apply, Act.pure_apply, List.append_nil]
  | destroy =>
    refine ⟨?_, rfl, rfl, rfl, save, _, hnext (.called .destroy panel.nameless), rfl⟩
    simp only [Lifecycle.call, life, Behaviour.life, Lifecycle.around, Probe.destroy, Custom.destroy,
      custom, Act.bind_apply, Act.pure_apply, List.append_nil]

/-- **A configuration is taken over by both nodes or by neither.** -/
theorem StandsFor.restore (h : machine.StandsFor k n) (config : Json) :
    match machine.restore n.behaviour config with
    | .error e => k.restore config = (.error e, k)
    | .ok state => ∃ k', k.restore config = (.ok (), k') ∧ machine.StandsFor k' ⟨n.panel, state⟩ := by
  obtain ⟨panel, b⟩ := k
  obtain ⟨panel', state⟩ := n
  obtain ⟨hpanel, save, visits, rfl, rfl⟩ := h
  obtain rfl : panel = panel' := hpanel
  cases hr : machine.restore (machine.after visits) config with
  | error e => simp [Node.restore, Probe.restore, Custom.restore, custom, hr, Except.map]
  | ok state =>
    have hnext : state = machine.after (.configured config :: visits) := by
      rw [after, List.foldr_cons, next]
      exact (congrArg (fun r ↦ r.toOption.getD (machine.after visits)) hr).symm
    refine ⟨⟨panel, .probe { custom := some (machine.custom save (.configured config :: visits)) }⟩,
      ?_, rfl, save, _, hnext, rfl⟩
    simp [Node.restore, Probe.restore, Custom.restore, Custom.remember, custom, hr, Except.map]

/-- **Calls in a row come to the same**, whatever is written on the panels in between. -/
theorem StandsFor.calls (h : machine.StandsFor k n) (level : Nat)
    (cs : List ((Panel → Panel) × Call)) (stamp : Nat) :
    machine.Matches ((Behaviour.life (level + 1)).calls cs k stamp) (machine.life.calls cs n stamp) := by
  induction cs generalizing k n stamp with
  | nil => exact ⟨rfl, rfl, rfl, h⟩
  | cons c cs ih =>
    obtain ⟨hevents, hstamp, hresult, hcall⟩ := (h.mapPanel c.1).call level c.2 stamp
    have hcalls := ih hcall ((Behaviour.life (level + 1)).call c.2 (k.mapPanel c.1) stamp).stamp
    rw [hstamp] at hcalls
    simp only [Lifecycle.calls, Act.bind_apply, Act.pure_apply]
    rw [hstamp, hevents, hresult]
    exact ⟨by rw [hcalls.events], hcalls.stamp, by rw [hcalls.result], hcalls.standsFor⟩

end Machine

end PortGraph
