import PortGraph.Net.Life

/-!
# Nesting a net in a node

A net becomes a node whose ports stand for the net's own: an input for every setter and an output
for every getter, in their order.  A port keeps the name of the inner port it stands for, unless
an earlier one has it; then a number is put behind.  An input takes over the default of its inner
input, which from now on is fed by the node.
-/

set_option autoImplicit false

namespace PortGraph

/-- The name `base` with a number behind. -/
def numberedName (base : String) (k : Nat) : String := base ++ "_" ++ toString k

/-- The name `base`, or the first numbered one, that is not taken.  As many numbers as there are
names suffice. -/
def freshName (taken : List String) (base : String) : String :=
  if taken.contains base then
    let candidates := (List.range taken.length).map fun k ↦ numberedName base (k + 1)
    (candidates.find? (!taken.contains ·)).getD base
  else base

namespace Net

/-- The default of an inner input. -/
def defaultOf (g : Net) (place : Endpoint) : Option Packet :=
  (g.port? .input place).bind Port.default

/-- Add an input that stands for an inner one. -/
def addOuterInput (inner : Accessor) (panel : Panel) (g : Net) :
    Except GraphError (Panel × Net) := do
  let p : Port :=
    { name := freshName (panel.inputs.map Port.name) inner.place.port
      direction := .input
      dataType := inner.dataType
      default := defaultOf g inner.place }
  let (_, panel) ← panel.addPort .input (if inner.isRequired then p.require else p)
  let g ← g.expose inner.place
  return (panel, g)

/-- Add inputs that stand for inner ones. -/
def addOuterInputs : List Accessor → Panel → Net → Except GraphError (Panel × Net)
  | [], panel, g => return (panel, g)
  | inner :: rest, panel, g => do
    let (panel, g) ← addOuterInput inner panel g
    addOuterInputs rest panel g

/-- Add outputs that stand for inner ones. -/
def addOuterOutputs : List Accessor → Panel → Except GraphError Panel
  | [], panel => return panel
  | inner :: rest, panel => do
    let p : Port :=
      { name := freshName (panel.outputs.map Port.name) inner.place.port
        direction := .output
        dataType := inner.dataType }
    let (_, panel) ← panel.addPort .output p
    addOuterOutputs rest panel

/-- The node that holds a net. -/
def wrapped? (name : String) (g : Net) : Except GraphError (Node Behaviour) := do
  let setters := g.setters
  let (panel, g) ← addOuterInputs setters { name, typeName := nestedType } g
  let getters := g.getters
  let panel ← addOuterOutputs getters panel
  return ⟨panel, .nested g (setters.map Accessor.place) (getters.map Accessor.place)⟩

/-- Make a node of a net. -/
def wrap (name : String) (g : Net) : Attempt (Node Behaviour) := do
  let n ← wrapped? name g
  let inputs := g.setters.length
  let outputs := g.getters.length
  Act.log .debug .nesting
    s!"Graph node {name} wraps {g.name} ({inputs} inputs, {outputs} outputs)"
  return n

end Net

end PortGraph
