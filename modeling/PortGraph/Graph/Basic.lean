import PortGraph.Factory.Basic

/-!
# Graphs

A graph keeps nodes under distinct names, in the order in which they were added, and links between
their ports.  While it is ready it holds a schedule, which says in which order the nodes run and
what is pulled into each of them before; any change of its nodes or links takes the schedule away.

Graphs do not look behind the panels of their nodes: `β` is whatever the nodes compute with.
-/

set_option autoImplicit false

namespace PortGraph

/-- A value to be carried along a link, from an output of another node to an input. -/
structure Pull where
  /-- The position of the input on its node. -/
  input : Nat
  /-- The position of the other node in the graph. -/
  source : Nat
  /-- The position of the output on the other node. -/
  output : Nat
  deriving DecidableEq, Repr

/-- The turn of a node. -/
structure Step where
  /-- The position of the node in the graph. -/
  node : Nat
  /-- What is pulled into it before it runs. -/
  pulls : List Pull
  deriving DecidableEq, Repr

/-- A place of a graph. -/
structure Slot (β : Type) where
  /-- The name under which the graph keeps the node. -/
  key : String
  /-- The node. -/
  node : Node β

/-- The place with another node. -/
def Slot.mapNode {β : Type} (f : Node β → Node β) (s : Slot β) : Slot β :=
  { s with node := f s.node }

/-- The place when a node takes a new name. -/
def Slot.rename {β : Type} (old new : String) (s : Slot β) : Slot β :=
  if s.key = old then ⟨new, s.node.rename new⟩ else s

/-- A graph of nodes whose behaviours are `β`s. -/
structure Graph (β : Type) where
  /-- Its name. -/
  name : String
  /-- Its places, in the order in which their nodes were added. -/
  slots : List (Slot β) := []
  /-- Its links, in the order in which they were made. -/
  links : List Link := []
  /-- What makes its nodes when they are read from a description. -/
  factories : FactorySet := {}
  /-- The turns of the nodes, as they were found when the graph was compiled. -/
  schedule : List Step := []
  /-- Whether the graph is compiled. -/
  isReady : Bool := false
  /-- Whether nodes or links changed since the graph was loaded or saved. -/
  isModified : Bool := false
  /-- Whether nodes and links may not be removed. -/
  isProtected : Bool := false

namespace Graph

variable {β : Type}

/-! ## Looking up -/

/-- The nodes. -/
def nodes (g : Graph β) : List (Node β) := g.slots.map Slot.node

/-- The node of a name. -/
def node? (g : Graph β) (name : String) : Option (Node β) :=
  (g.slots.find? (fun s ↦ s.key = name)).map Slot.node

/-- Whether the graph has a node of a name. -/
def contains (g : Graph β) (name : String) : Bool := (g.node? name).isSome

/-- The node of a name. -/
def node (g : Graph β) (name : String) : Except GraphError (Node β) :=
  match g.node? name with
  | some n => .ok n
  | none => .error (.nodeNotFound name)

/-- The port of an endpoint on a side. -/
def port? (g : Graph β) (side : Direction) (place : Endpoint) : Option Port :=
  (g.node? place.node).bind (·.panel.port? side place.port)

/-- The position of the node of a name. -/
def position (g : Graph β) (name : String) : Except GraphError Nat :=
  match g.slots.findIdx? (fun s ↦ s.key = name) with
  | some i => .ok i
  | none => .error (.nodeNotFound name)

/-- The names of the nodes. -/
def nodeNames (g : Graph β) : List String := g.slots.map Slot.key

/-- The names of the nodes at some positions. -/
def namesAt (g : Graph β) (positions : List Nat) : List String :=
  positions.filterMap fun i ↦ g.slots[i]?.map Slot.key

/-- The link of an id. -/
def link? (g : Graph β) (id : LinkId) : Option Link := g.links.find? (fun l ↦ l.id = id)

/-- The link that ends at an input. -/
def linkTo? (g : Graph β) (target : Endpoint) : Option Link :=
  g.links.find? (fun l ↦ l.target = target)

/-- The links that start at an output. -/
def linksFrom (g : Graph β) (source : Endpoint) : List Link :=
  g.links.filter (fun l ↦ l.source = source)

/-! ## Raw changes -/

/-- Change the node of a name. -/
def modifyNode (g : Graph β) (name : String) (f : Node β → Node β) : Graph β :=
  { g with slots := g.slots.map fun s ↦ if s.key = name then s.mapNode f else s }

/-- Change the panel of the node of a name. -/
def modifyPanel (g : Graph β) (name : String) (f : Panel → Panel) : Graph β :=
  g.modifyNode name (·.mapPanel f)

/-- Change the port of an endpoint on a side. -/
def modifyPort (g : Graph β) (side : Direction) (place : Endpoint) (f : Port → Port) : Graph β :=
  g.modifyPanel place.node (·.modifyPort side place.port f)

/-- Take the schedule away. -/
def unschedule (g : Graph β) : Graph β := { g with schedule := [], isReady := false }

/-- Record that nodes or links changed: the graph is to be compiled and saved again. -/
def invalidate (g : Graph β) : Graph β := { g.unschedule with isModified := true }

/-- Protect nodes and links from removal, or stop protecting them. -/
def setProtected (g : Graph β) (b : Bool) : Graph β := { g with isProtected := b }

/-- Add a factory with the lowest priority. -/
def addFactory (g : Graph β) (factory : Factory) : Except GraphError (Graph β) :=
  (g.factories.add factory).map fun set ↦ { g with factories := set }

end Graph

end PortGraph
