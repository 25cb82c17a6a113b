import PortGraph.Error

/-!
# Panels

The panel of a node is what its graph sees of it: its names, its ports, whether it is initialised
and what the application attached to it.  What the node computes with lies behind the panel.
-/

set_option autoImplicit false

namespace PortGraph

/-- The outside of a node. -/
structure Panel where
  /-- The name of the node, which no other node of its graph has. -/
  name : String
  /-- The name of its type, as factories know it. -/
  typeName : String
  /-- Its inputs, in the order in which they were added. -/
  inputs : List Port := []
  /-- Its outputs, in the order in which they were added. -/
  outputs : List Port := []
  /-- Whether its graph initialised it and has not destroyed it since. -/
  isInitialized : Bool := false
  /-- Data of the application. -/
  metadata : Option Json := none

namespace Panel

/-! ## Ports -/

/-- The ports of a side. -/
def ports (panel : Panel) : Direction → List Port
  | .input => panel.inputs
  | .output => panel.outputs

/-- Put other ports on a side. -/
def withPorts (panel : Panel) (side : Direction) (ports : List Port) : Panel :=
  match side with
  | .input => { panel with inputs := ports }
  | .output => { panel with outputs := ports }

/-- The port of a name on a side. -/
def port? (panel : Panel) (side : Direction) (name : String) : Option Port :=
  Port.named? name (panel.ports side)

/-- Where the port of a name stands on a side. -/
def position? (panel : Panel) (side : Direction) (name : String) : Option Nat :=
  Port.position? name (panel.ports side)

/-- A port of this node, as an endpoint. -/
def endpoint (panel : Panel) (port : String) : Endpoint := ⟨panel.name, port⟩

/-- Why a side has no port of a name: the port is on the other side, or nowhere. -/
def missing (panel : Panel) (side : Direction) (name : String) : GraphError :=
  if (panel.port? side.opposite name).isSome then .wrongDirection (panel.endpoint name) side
  else .portNotFound (panel.endpoint name)

/-- The port of a name on a side. -/
def port (panel : Panel) (side : Direction) (name : String) : Except GraphError Port :=
  match panel.port? side name with
  | some p => .ok p
  | none => .error (panel.missing side name)

/-- Add a port behind those of its side, and say at which position it stands.  The port must be
made for that side, and its name must be new there. -/
def addPort (panel : Panel) (side : Direction) (p : Port) : Except GraphError (Nat × Panel) :=
  if p.direction ≠ side then .error (.wrongDirection (panel.endpoint p.name) side)
  else if (panel.port? side p.name).isSome then .error (.duplicatePort (panel.endpoint p.name))
  else .ok ((panel.ports side).length, panel.withPorts side (panel.ports side ++ [p]))

/-- Change the port of a name. -/
def modifyPort (panel : Panel) (side : Direction) (name : String) (f : Port → Port) : Panel :=
  panel.withPorts side (Port.modifyNamed name f (panel.ports side))

/-- Change the port at a position; no port there, no change. -/
def modifyPortAt (panel : Panel) (side : Direction) (position : Nat) (f : Port → Port) : Panel :=
  panel.withPorts side ((panel.ports side).modify position f)

/-! ## Values -/

/-- What can be read off a port. -/
def read (panel : Panel) (side : Direction) (name : String) : Except GraphError Packet :=
  match panel.port side name with
  | .error e => .error e
  | .ok p =>
    match p.data with
    | some packet => .ok packet
    | none => .error (.noData (panel.endpoint name))

/-- What can be read off a port, as a value of a kind. -/
def readAs (panel : Panel) (side : Direction) (name : String) (k : Kind) :
    Except GraphError k.Carrier :=
  match panel.read side name with
  | .error e => .error e
  | .ok packet =>
    match packet.value.as? k with
    | some x => .ok x
    | none => .error (.valueMismatch (panel.endpoint name) k.dataType packet.dataType)

/-- What can be read off an input as a value of a kind, if there is anything. -/
def readAs? (panel : Panel) (name : String) (k : Kind) : Except GraphError (Option k.Carrier) :=
  match panel.readAs .input name k with
  | .ok x => .ok (some x)
  | .error e => if e.missingData?.isSome then .ok none else .error e

/-- What supplies an optional input, if anything does.  A link along which nothing arrived is an
error, not an absent value. -/
def supplied? (panel : Panel) (name : String) (k : Kind) : Except GraphError (Option k.Carrier) :=
  if (panel.port? .input name).any Port.isLinked then (panel.readAs .input name k).map some
  else panel.readAs? name k

/-- Put a packet on an output. -/
def publish (panel : Panel) (name : String) (packet : Packet) : Except GraphError Panel :=
  match panel.port .output name with
  | .error e => .error e
  | .ok _ => .ok (panel.modifyPort .output name (·.store (some packet)))

/-- Put a packet on an input that has no link. -/
def inject (panel : Panel) (name : String) (packet : Packet) : Except GraphError Panel :=
  match panel.port .input name with
  | .error e => .error e
  | .ok p =>
    if p.isLinked then .error (.alreadyLinked (panel.endpoint name))
    else .ok (panel.modifyPort .input name (·.store (some packet)))

/-- Empty all outputs. -/
def resetOutputs (panel : Panel) : Panel :=
  { panel with outputs := panel.outputs.map (·.store none) }

/-! ## Role -/

/-- Whether no link ends at the node. -/
def isSource (panel : Panel) : Bool := panel.inputs.all (!·.isLinked)

/-- Whether no link starts at the node. -/
def isSink (panel : Panel) : Bool := panel.outputs.all (!·.isLinked)

end Panel

end PortGraph
