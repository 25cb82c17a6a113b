import PortGraph.Act
import PortGraph.Node.Panel

/-!
# Nodes

A node is a panel with a behaviour behind it.  Graphs do not look at behaviours: what they ask of
their nodes is a `Lifecycle`.

A graph initialises a node once for each compilation and executes it once in each pass; it
destroys it when what was taken by its initialisation must be given back.  A node may fail to
initialise or to execute, and then keeps the state it has reached.
-/

set_option autoImplicit false

namespace PortGraph

/-- A node whose behaviour is a `β`. -/
structure Node (β : Type) where
  /-- The outside of the node. -/
  panel : Panel
  /-- What it computes with. -/
  behaviour : β

namespace Node

variable {β : Type}

/-- The name of a node. -/
def name (n : Node β) : String := n.panel.name

/-- The name of a node's type. -/
def typeName (n : Node β) : String := n.panel.typeName

/-- Change the panel of a node. -/
def mapPanel (f : Panel → Panel) (n : Node β) : Node β := { n with panel := f n.panel }

/-- The node under another name. -/
def rename (n : Node β) (new : String) : Node β := n.mapPanel fun p ↦ { p with name := new }

/-- Remember whether the node is initialised. -/
def setInitialized (n : Node β) (b : Bool) : Node β :=
  n.mapPanel fun p ↦ { p with isInitialized := b }

/-- How a node is shown. -/
def shown (n : Node β) : String :=
  "Node \x7b instance_name: " ++ showText n.name ++ ", type_name: " ++ showText n.typeName
    ++ " \x7d"

end Node

/-- What an operation on a node or a graph gives: its result, and the state it has reached. -/
abbrev Reply (ε σ α : Type) : Type := Except ε α × σ

/-- What a graph asks of its nodes. -/
structure Lifecycle (β : Type) where
  /-- Get ready to execute. -/
  init : Node β → Act (Reply NodeError (Node β) Unit)
  /-- Take the inputs and publish outputs. -/
  execute : Node β → Act (Reply NodeError (Node β) Unit)
  /-- Give back what `init` took. -/
  destroy : Node β → Act (Node β)
  /-- Throw the node away. -/
  discard : Node β → Act Unit

/-- Nodes that do nothing. -/
def Lifecycle.idle {β : Type} : Lifecycle β where
  init n := return (.ok (), n)
  execute n := return (.ok (), n)
  destroy n := return n
  discard _ := return ()

end PortGraph
