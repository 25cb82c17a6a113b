import PortGraph.Graph.Lifecycle

/-!
# Changing a graph

Adding, removing and renaming nodes, making and removing links.  Every operation replies with its
result and the graph it leaves, which is the graph it was given whenever it refuses.
-/

set_option autoImplicit false

namespace PortGraph.Graph

variable {β : Type}

/-! ## Nodes -/

/-- Put a node behind the others. -/
def pushNode (n : Node β) (g : Graph β) : Graph β :=
  { g.invalidate with slots := g.slots ++ [⟨n.name, n⟩] }

/-- Put another name in the place of an old one, at the node and at the ends of its links. -/
def relabel (old new : String) (g : Graph β) : Graph β :=
  { g.invalidate with
    slots := g.slots.map (·.rename old new)
    links := g.links.map (·.rename old new) }

/-- Take the place of a node out. -/
def eraseNode (name : String) (g : Graph β) : Graph β :=
  { g.invalidate with slots := g.slots.filter (fun s ↦ s.key ≠ name) }

/-- Add a node of a new name. -/
def addNode (n : Node β) (g : Graph β) : Act (Reply GraphError (Graph β) Unit) :=
  if g.contains n.name then return (.error (.duplicateNode n.name), g)
  else do
    Act.log .debug .graph s!"Graph {g.name}: add node {n.name} ({n.typeName})"
    return (.ok (), g.pushNode n)

/-- Give a node a new name, keeping its place and its links. -/
def renameNode (old new : String) (g : Graph β) : Reply GraphError (Graph β) Unit :=
  if old = new then (.ok (), g)
  else if !g.contains old then (.error (.nodeNotFound old), g)
  else if g.contains new then (.error (.duplicateNode new), g)
  else (.ok (), g.relabel old new)

/-! ## Links -/

/-- Change the ports at the ends of a link, as far as they exist.  The input is emptied: a value
that was pulled must not outlive its link, nor one that was put there before. -/
def changeEnds (f : Port → Port) (l : Link) (g : Graph β) : Graph β :=
  (g.modifyPort .output l.source f).modifyPort .input l.target fun p ↦ (f p).store none

/-- Take the link of an id out, if there is one. -/
def dropLink (id : LinkId) (g : Graph β) : Graph β :=
  match g.link? id with
  | none => g
  | some l =>
    changeEnds Port.detach l { g with links := g.links.filter (fun k ↦ k.id ≠ id) }

/-- What a link between two ports would carry, if it may be made: both ports exist on their sides
and carry the same, and the input has no link. -/
def linkType (source target : Endpoint) (g : Graph β) : Except GraphError DataType := do
  let sourceNode ← g.node source.node
  let targetNode ← g.node target.node
  let output ← sourceNode.panel.port .output source.port
  let input ← targetNode.panel.port .input target.port
  if output.dataType ≠ input.dataType then
    throw (.typeMismatch source output.dataType target input.dataType)
  else if input.isLinked then throw (.alreadyLinked target)
  else return output.dataType

/-- Put a link behind the others. -/
def insertLink (l : Link) (g : Graph β) : Graph β :=
  { (changeEnds Port.attach l g).invalidate with links := g.links ++ [l] }

/-- Link an output to an input.  Cycles are noticed when the graph is compiled. -/
def addLink (source target : Endpoint) (g : Graph β) :
    Act (Reply GraphError (Graph β) LinkId) :=
  match g.linkType source target with
  | .error e => return (.error e, g)
  | .ok dataType => do
    let id ← Act.newLinkId
    Act.log .debug .graph s!"Graph {g.name}: link {source.text} -> {target.text}"
    return (.ok id, g.insertLink ⟨id, source, target, dataType⟩)

/-- Remove the link of an id. -/
def removeLinkById (id : LinkId) (g : Graph β) : Act (Reply GraphError (Graph β) Link) :=
  if g.isProtected then return (.error (.protectedGraph g.name), g)
  else
    match g.link? id with
    | none => return (.error (.linkIdNotFound id), g)
    | some l => do
      Act.log .debug .graph s!"Graph {g.name}: unlink {l.source.text} -> {l.target.text}"
      return (.ok l, (g.dropLink id).invalidate)

/-- Remove the link that ends at an input. -/
def removeLink (target : Endpoint) (g : Graph β) : Act (Reply GraphError (Graph β) Link) :=
  match g.linkTo? target with
  | none => return (.error (.linkNotFound target), g)
  | some l => g.removeLinkById l.id

/-! ## Removing nodes -/

/-- Take out every link that touches a node. -/
def dropLinksOf (name : String) (g : Graph β) : Graph β :=
  ((g.links.filter (·.touches name)).map Link.id).foldl (fun g id ↦ g.dropLink id) g

/-- Remove a node and every link that touches it.  The node is destroyed if it is initialised, and
handed back. -/
def removeNode (life : Lifecycle β) (name : String) (g : Graph β) :
    Act (Reply GraphError (Graph β) (Node β)) :=
  if g.isProtected then return (.error (.protectedGraph g.name), g)
  else
    let unlinked := g.dropLinksOf name
    match unlinked.node? name with
    | none => return (.error (.nodeNotFound name), g)
    | some n => do
      let n ← life.release n
      Act.log .debug .graph s!"Graph {g.name}: removed node {name}"
      return (.ok n, unlinked.eraseNode name)

end PortGraph.Graph
