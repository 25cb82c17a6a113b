import PortGraph.Graph.Basic

/-!
# Access to the ports of a graph

Which inputs the host of a graph may feed and which outputs it may read, and how it does so.  The
inputs that an enclosing graph feeds are exposed, and belong to it.
-/

set_option autoImplicit false

namespace PortGraph

/-- A port the host has access to. -/
structure Accessor where
  /-- Where the port is. -/
  place : Endpoint
  /-- What it carries. -/
  dataType : DataType
  /-- Whether it asks to be supplied. -/
  isRequired : Bool
  deriving DecidableEq, Repr

namespace Graph

variable {β : Type}

/-- The ports on a side of all nodes that pass a test. -/
def accessors (g : Graph β) (side : Direction) (test : Port → Bool) : List Accessor :=
  g.slots.flatMap fun s ↦ ((s.node.panel.ports side).filter test).map fun p ↦
    ⟨⟨s.key, p.name⟩, p.dataType, p.isRequired⟩

/-- The inputs the host may feed: neither linked nor fed by an enclosing graph. -/
def setters (g : Graph β) : List Accessor :=
  g.accessors .input fun p ↦ !p.isLinked && !p.isExposed

/-- The outputs the host may read: not linked to any input. -/
def getters (g : Graph β) : List Accessor := g.accessors .output fun p ↦ !p.isLinked

/-- Put a packet on an input that has no link. -/
def setInput (g : Graph β) (place : Endpoint) (packet : Packet) :
    Reply GraphError (Graph β) Unit :=
  match g.node place.node with
  | .error e => (.error e, g)
  | .ok n =>
    match n.panel.inject place.port packet with
    | .error e => (.error e, g)
    | .ok panel => (.ok (), g.modifyPanel place.node fun _ ↦ panel)

/-- What can be read off an output. -/
def output (g : Graph β) (place : Endpoint) : Except GraphError Packet :=
  match g.node place.node with
  | .error e => .error e
  | .ok n => n.panel.read .output place.port

/-- What can be read off an output, as a value of a kind. -/
def outputAs (g : Graph β) (place : Endpoint) (k : Kind) : Except GraphError k.Carrier :=
  match g.node place.node with
  | .error e => .error e
  | .ok n => n.panel.readAs .output place.port k

/-! ## For an enclosing graph -/

/-- Change an input of a node. -/
def changeInput (g : Graph β) (place : Endpoint) (f : Port → Port) :
    Except GraphError (Graph β) :=
  match g.node place.node with
  | .error e => .error e
  | .ok n =>
    match n.panel.port .input place.port with
    | .error e => .error e
    | .ok _ => .ok (g.modifyPort .input place f)

/-- Mark an input as fed by an enclosing graph. -/
def expose (g : Graph β) (place : Endpoint) : Except GraphError (Graph β) :=
  (g.changeInput place fun p ↦ { p with isExposed := true }).map unschedule

/-- Put on an exposed input what the enclosing graph has for it, or empty it. -/
def feed (g : Graph β) (place : Endpoint) (packet : Option Packet) :
    Except GraphError (Graph β) :=
  g.changeInput place (·.store packet)

end Graph

end PortGraph
