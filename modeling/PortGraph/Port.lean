import PortGraph.Value.Basic

/-!
# Ports

A port is an end that links attach to.  An output holds what its node published; an input holds
what was pulled along its link, or what the host put there while it had none.  An input that
nothing supplies falls back on its default; one that a link or an enclosing graph supplies never
does, so that a value which failed to arrive is noticed.
-/

set_option autoImplicit false

namespace PortGraph

/-- The two sides of a node. -/
inductive Direction where
  | input
  | output
  deriving DecidableEq, Repr

/-- The other side. -/
def Direction.opposite : Direction → Direction
  | .input => .output
  | .output => .input

/-- How a side is called in a report. -/
def Direction.title : Direction → String
  | .input => "Input"
  | .output => "Output"

/-- A port of a node. -/
structure Port where
  /-- Its name, which no other port on its side of the node has. -/
  name : String
  /-- The side it is made for. -/
  direction : Direction
  /-- What it carries. -/
  dataType : DataType
  /-- Whether its graph refuses to run while nothing supplies it. -/
  isRequired : Bool := false
  /-- Whether it is fed by an enclosing graph. -/
  isExposed : Bool := false
  /-- How many links touch it. -/
  linkCount : Nat := 0
  /-- What it falls back on. -/
  default : Option Packet := none
  /-- What it holds. -/
  stored : Option Packet := none

namespace Port

/-- Whether a link touches the port. -/
def isLinked (p : Port) : Bool := 0 < p.linkCount

/-- Whether a link or an enclosing graph supplies the port. -/
def isSatisfied (p : Port) : Bool := p.isLinked || p.isExposed

/-- What is read off the port: what it holds, and for an input that nothing supplies its default
otherwise. -/
def data (p : Port) : Option Packet :=
  match p.direction with
  | .output => p.stored
  | .input => if p.isSatisfied then p.stored else p.stored.or p.default

/-- Whether something can be read off the port. -/
def hasData (p : Port) : Bool := p.data.isSome

/-- Ask for the port to be supplied; an output is never asked that. -/
def require (p : Port) : Port :=
  match p.direction with
  | .input => { p with isRequired := true }
  | .output => p

/-- Store a packet, or empty the port. -/
def store (p : Port) (packet : Option Packet) : Port := { p with stored := packet }

/-- Whether a link from this port to the other one would be valid. -/
def canLinkTo (p q : Port) : Bool :=
  p.direction = .output && q.direction = .input && p.dataType = q.dataType && !q.isLinked

/-- Count one more link. -/
def attach (p : Port) : Port := { p with linkCount := p.linkCount + 1 }

/-- Count one link less. -/
def detach (p : Port) : Port := { p with linkCount := p.linkCount - 1 }

/-- The first port of a name. -/
def named? (name : String) (ports : List Port) : Option Port :=
  ports.find? (fun p ↦ p.name = name)

/-- Where the first port of a name stands. -/
def position? (name : String) (ports : List Port) : Option Nat :=
  ports.findIdx? (fun p ↦ p.name = name)

/-- Change the first port of a name. -/
def modifyNamed (name : String) (f : Port → Port) : List Port → List Port
  | [] => []
  | p :: ps => if p.name = name then f p :: ps else p :: modifyNamed name f ps

end Port

/-- A port of a node of a graph, by name. -/
structure Endpoint where
  /-- The name of the node. -/
  node : String
  /-- The name of the port. -/
  port : String
  deriving DecidableEq, Repr

/-- How an endpoint is written. -/
def Endpoint.text (e : Endpoint) : String := e.node ++ "." ++ e.port

/-- The endpoint when a node takes a new name. -/
def Endpoint.rename (e : Endpoint) (old new : String) : Endpoint :=
  if e.node = old then { e with node := new } else e

end PortGraph
