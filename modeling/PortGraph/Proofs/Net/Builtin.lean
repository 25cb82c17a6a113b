import PortGraph.Net.Nesting
import PortGraph.Proofs.Net.Form

/-!
# Built-in nodes

The nodes that come with the library have the ports they are made with: a node with an operation
those that the operation declares (`Operation.Declares`), and a node that holds a net one for each
port of the net that no link touches (`Panel.Mirrors`).  `Node.IsBuiltin` says so at every depth.
It is a matter of the form alone (`Node.IsBuiltin.congr`), so calls keep it.
-/

set_option autoImplicit false

namespace PortGraph

open PortGraph.Graph

/-! ## The ports that nodes are made with -/

/-- The port as it was made: without links, values and what feeds it. -/
def Port.declared (p : Port) : Port := { p.form with isExposed := false, linkCount := 0 }

namespace Port

@[simp] theorem declared_name (p : Port) : p.declared.name = p.name := rfl

@[simp] theorem declared_direction (p : Port) : p.declared.direction = p.direction := rfl

@[simp] theorem declared_dataType (p : Port) : p.declared.dataType = p.dataType := rfl

@[simp] theorem declared_isRequired (p : Port) : p.declared.isRequired = p.isRequired := rfl

@[simp] theorem declared_default (p : Port) :
    p.declared.default = p.default.map Packet.unstamped := rfl

@[simp] theorem declared_store (p : Port) (packet : Option Packet) :
    (p.store packet).declared = p.declared := rfl

@[simp] theorem declared_attach (p : Port) : p.attach.declared = p.declared := rfl

theorem declared_form (p : Port) : p.form.declared = p.declared := by
  rw [declared, form_form, declared]

end Port

/-- A panel has the ports that nodes with an operation are made with. -/
structure Operation.Declares (op : Operation) (panel : Panel) : Prop where
  /-- Its inputs. -/
  inputs : panel.inputs.map Port.declared = (op.inputs 0).result.map Port.declared
  /-- Its output. -/
  outputs : panel.outputs.map Port.declared = [op.output]

/-- The ports on a side of a net that no link touches, as they were made, with their places. -/
def Net.openPorts (g : Net) (side : Direction) : List (Endpoint × Port) :=
  g.slots.flatMap fun s ↦ ((s.node.panel.ports side).filter (!·.isLinked)).map fun p ↦
    (⟨s.key, p.name⟩, p.declared)

/-- The port of a name that stands for an inner one. -/
def Port.mirrored (side : Direction) (name : String) (p : Port) : Port :=
  match side with
  | .input =>
    { name, direction := .input, dataType := p.dataType, isRequired := p.isRequired,
      default := p.default }
  | .output => { name, direction := .output, dataType := p.dataType }

/-- The ports that stand for inner ones, under names that are not taken. -/
def Port.mirror (side : Direction) : List String → List Port → List Port
  | _, [] => []
  | taken, p :: ports =>
    p.mirrored side (freshName taken p.name) ::
      mirror side (taken ++ [freshName taken p.name]) ports

/-- A panel has a port for each port of a net that no link touches. -/
structure Panel.Mirrors (panel : Panel) (g : Net) (innerInputs innerOutputs : List Endpoint) :
    Prop where
  /-- An input for each open input. -/
  inputs : panel.inputs.map Port.declared =
    Port.mirror .input [] ((g.openPorts .input).map Prod.snd)
  /-- An output for each open output. -/
  outputs : panel.outputs.map Port.declared =
    Port.mirror .output [] ((g.openPorts .output).map Prod.snd)
  /-- Where the open inputs are. -/
  inputPlaces : innerInputs = (g.openPorts .input).map Prod.fst
  /-- Where the open outputs are. -/
  outputPlaces : innerOutputs = (g.openPorts .output).map Prod.fst
  /-- The open inputs are fed by the node that has the panel. -/
  exposed : ∀ s ∈ g.slots, ∀ p ∈ s.node.panel.inputs, p.isExposed = !p.isLinked

/-- **A node is built-in**: it is not a probe, and has the ports it is made with, as have all nodes
in it. -/
inductive Node.IsBuiltin : Node Behaviour → Prop
  /-- It has the ports that its operation declares. -/
  | operation {n : Node Behaviour} {op : Operation} (hb : n.behaviour = .operation op)
      (h : op.Declares n.panel) : Node.IsBuiltin n
  /-- It has the ports that mirror the net in it. -/
  | nested {n : Node Behaviour} {g : Net} {inputs outputs : List Endpoint}
      (hb : n.behaviour = .nested g inputs outputs) (h : n.panel.Mirrors g inputs outputs)
      (inner : ∀ s ∈ g.slots, Node.IsBuiltin s.node) : Node.IsBuiltin n

namespace Net

/-- All nodes are built-in. -/
def IsBuiltin (g : Net) : Prop := ∀ s ∈ g.slots, s.node.IsBuiltin

/-- No other net feeds an input. -/
def IsOutermost (g : Net) : Prop :=
  ∀ s ∈ g.slots, ∀ p ∈ s.node.panel.inputs, p.isExposed = false

/-! ## Forms decide -/

variable {g k : Net}

/-- Which ports are open is seen through every lens that leaves their values out. -/
theorem openPorts_through {lens : Lens} (hlens : lens.output = Port.form) (g : Net)
    (side : Direction) : (through lens g).openPorts side = g.openPorts side := by
  have hports : ∀ panel : Panel, (panel.through lens).ports side =
      (panel.ports side).map Port.form := fun panel ↦ by
    cases side with
    | input => rfl
    | output => exact congrArg (List.map · panel.outputs) hlens
  rw [openPorts, through, List.flatMap_map, openPorts]
  refine congrArg (List.flatMap · g.slots) (funext fun s ↦ ?_)
  rw [Node.through, hports, List.filter_map, List.map_map]
  refine List.map_congr_left fun p _ ↦ ?_
  rw [Function.comp_apply, Port.declared_form]
  rfl

theorem openPorts_eq (h : through .form k = through .form g) (side : Direction) :
    k.openPorts side = g.openPorts side := by
  have hform : ∀ j : Net, (through .form j).openPorts side = j.openPorts side :=
    fun j ↦ openPorts_through rfl j side
  rw [← hform k, h, hform]

/-- The nodes of nets of one form come in pairs. -/
theorem exists_slot_of_form_eq {lens : Lens} (h : through lens k = through lens g)
    {s : Slot Behaviour} (hs : s ∈ k.slots) :
    ∃ s' ∈ g.slots, s'.key = s.key ∧ s'.node.through lens = s.node.through lens := by
  have hslots : k.slots.map (fun s ↦ (⟨s.key, s.node.through lens⟩ : Slot Behaviour)) =
      g.slots.map fun s ↦ ⟨s.key, s.node.through lens⟩ := congrArg Graph.slots h
  have hmem : (⟨s.key, s.node.through lens⟩ : Slot Behaviour) ∈
      g.slots.map fun s ↦ (⟨s.key, s.node.through lens⟩ : Slot Behaviour) :=
    hslots ▸ List.mem_map_of_mem hs
  obtain ⟨s', hs', heq⟩ := List.mem_map.mp hmem
  exact ⟨s', hs', (Slot.mk.inj heq).1, (Slot.mk.inj heq).2⟩

end Net

theorem Panel.ports_form_eq {panel panel' : Panel}
    (h : panel'.through .form = panel.through .form) (side : Direction) :
    (panel'.ports side).map Port.form = (panel.ports side).map Port.form := by
  cases side with
  | input => exact congrArg Panel.inputs h
  | output => exact congrArg Panel.outputs h

/-- What is made of the form of each port is the same for panels of one form. -/
theorem Panel.map_eq_of_form_eq {γ : Type} {f : Port → γ} (hf : ∀ p, f p.form = f p)
    {panel panel' : Panel} (h : panel'.through .form = panel.through .form) (side : Direction) :
    (panel'.ports side).map f = (panel.ports side).map f := by
  have hmap := congrArg (List.map f) (ports_form_eq h side)
  simpa only [List.map_map, Function.comp_def, hf] using hmap

theorem Node.through_eq_iff {lens : Lens} {n m : Node Behaviour} :
    m.through lens = n.through lens ↔ m.panel.through lens = n.panel.through lens ∧
      m.behaviour.through lens = n.behaviour.through lens := by
  rw [Node.through, Node.through, Node.mk.injEq]

/-- A port of a net has the form of one at the same place of any net of its form. -/
theorem Net.exists_port_of_form_eq {g k : Net} (h : through .form k = through .form g)
    {s : Slot Behaviour} (hs : s ∈ k.slots) (side : Direction) {p : Port}
    (hp : p ∈ s.node.panel.ports side) :
    ∃ r ∈ g.slots, r.key = s.key ∧ ∃ q ∈ r.node.panel.ports side, q.form = p.form := by
  obtain ⟨r, hr, hkey, heq⟩ := exists_slot_of_form_eq h hs
  have hforms := Panel.ports_form_eq (Node.through_eq_iff.mp heq).1 side
  have hmem : p.form ∈ (r.node.panel.ports side).map Port.form := hforms ▸ List.mem_map_of_mem hp
  obtain ⟨q, hq, hform⟩ := List.mem_map.mp hmem
  exact ⟨r, hr, hkey, q, hq, hform⟩

theorem Behaviour.eq_operation_of_form_eq {b : Behaviour} {op : Operation}
    (h : b.through .form = (operation op).through .form) : b = .operation op := by
  cases b with
  | operation op' => exact h
  | probe p => exact absurd h (by simp [through])
  | nested g inputs outputs => exact absurd h (by simp [through])

theorem Behaviour.eq_nested_of_form_eq {b : Behaviour} {g : Net} {inputs outputs : List Endpoint}
    (h : b.through .form = (nested g inputs outputs).through .form) :
    ∃ k, b = .nested k inputs outputs ∧ Net.through .form k = Net.through .form g := by
  cases b with
  | operation op => exact absurd h (by simp [through])
  | probe p => exact absurd h (by simp [through])
  | nested k inputs' outputs' =>
    rw [through_nested, through_nested] at h
    obtain ⟨hk, rfl, rfl⟩ := nested.inj h
    exact ⟨k, rfl, hk⟩

theorem Operation.Declares.congr {op : Operation} {panel panel' : Panel} (h : op.Declares panel)
    (hp : ∀ side, (panel'.ports side).map Port.declared = (panel.ports side).map Port.declared) :
    op.Declares panel' :=
  ⟨(hp .input).trans h.inputs, (hp .output).trans h.outputs⟩

theorem Panel.Mirrors.congr {panel panel' : Panel} {g k : Net} {inputs outputs : List Endpoint}
    (h : panel.Mirrors g inputs outputs)
    (hp : ∀ side, (panel'.ports side).map Port.declared = (panel.ports side).map Port.declared)
    (hk : Net.through .form k = Net.through .form g) : panel'.Mirrors k inputs outputs where
  inputs := Net.openPorts_eq hk .input ▸ (hp .input).trans h.inputs
  outputs := Net.openPorts_eq hk .output ▸ (hp .output).trans h.outputs
  inputPlaces := Net.openPorts_eq hk .input ▸ h.inputPlaces
  outputPlaces := Net.openPorts_eq hk .output ▸ h.outputPlaces
  exposed s hs p hm := by
    obtain ⟨s', hs', -, heq⟩ := Net.exists_slot_of_form_eq hk hs
    have hforms := Panel.ports_form_eq (Node.through_eq_iff.mp heq).1 .input
    have hmem : p.form ∈ (s'.node.panel.ports .input).map Port.form :=
      hforms ▸ List.mem_map_of_mem hm
    obtain ⟨q, hq, hform⟩ := List.mem_map.mp hmem
    have hexposed := congrArg Port.isExposed hform
    have hlinked := congrArg Port.isLinked hform
    exact hexposed.symm.trans ((h.exposed s' hs' q hq).trans (congrArg (!·) hlinked))

/-- **The form decides what is built-in**, and of the ports on the outside how they were made. -/
theorem Node.IsBuiltin.congr {n m : Node Behaviour} (h : n.IsBuiltin)
    (hp : ∀ side, (m.panel.ports side).map Port.declared = (n.panel.ports side).map Port.declared)
    (hb : m.behaviour.through .form = n.behaviour.through .form) : m.IsBuiltin := by
  induction h generalizing m with
  | operation hn h =>
    rw [hn] at hb
    exact .operation (Behaviour.eq_operation_of_form_eq hb) (h.congr hp)
  | nested hn h _ ih =>
    rw [hn] at hb
    obtain ⟨k, hm, hk⟩ := Behaviour.eq_nested_of_form_eq hb
    refine .nested hm (h.congr hp hk) fun s hs ↦ ?_
    obtain ⟨s', hs', -, heq⟩ := Net.exists_slot_of_form_eq hk hs
    obtain ⟨hpanel, hbehaviour⟩ := Node.through_eq_iff.mp heq
    exact ih s' hs' (Panel.map_eq_of_form_eq Port.declared_form hpanel.symm) hbehaviour.symm

theorem Net.IsBuiltin.congr {g k : Net} (h : g.IsBuiltin)
    (hk : through .form k = through .form g) : k.IsBuiltin := by
  intro s hs
  obtain ⟨s', hs', -, heq⟩ := exists_slot_of_form_eq hk hs
  obtain ⟨hpanel, hbehaviour⟩ := Node.through_eq_iff.mp heq
  exact (h s' hs').congr (Panel.map_eq_of_form_eq Port.declared_form hpanel.symm) hbehaviour.symm

end PortGraph
