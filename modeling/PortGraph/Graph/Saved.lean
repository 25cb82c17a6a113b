import PortGraph.Description
import PortGraph.Graph.Edit

/-!
# Graphs from descriptions

A graph is rebuilt from its description by making its nodes and links again, one after the other,
with the same checks as by hand.  How a node is made of its description is up to the caller.
-/

set_option autoImplicit false

namespace PortGraph

/-- The description of a link. -/
def Link.description (l : Link) : LinkDescription :=
  ⟨l.source.node, l.source.port, l.target.node, l.target.port⟩

namespace Graph

variable {β : Type}

/-- Use an operation on a graph where a refusal ends the attempt. -/
def attempt {α : Type} (op : Graph β → Act (Reply GraphError (Graph β) α)) (g : Graph β) :
    Attempt (Graph β) := ExceptT.mk do
  let (result, g) ← op g
  match result with
  | .ok _ => return .ok g
  | .error e => return .error e

/-- Make the described nodes and add them. -/
def addDescribed (create : NodeDescription → Attempt (Node β)) :
    List NodeDescription → Graph β → Attempt (Graph β)
  | [], g => return g
  | d :: ds, g => do
    let n ← create d
    let g ← attempt (addNode n) g
    addDescribed create ds g

/-- Make the described links. -/
def linkDescribed : List LinkDescription → Graph β → Attempt (Graph β)
  | [], g => return g
  | d :: ds, g => do
    let g ← attempt (addLink ⟨d.outNode, d.outPort⟩ ⟨d.inNode, d.inPort⟩) g
    linkDescribed ds g

/-- Make a described node and add it. -/
def createNode (create : NodeDescription → Attempt (Node β)) (d : NodeDescription)
    (g : Graph β) : Act (Reply GraphError (Graph β) Unit) := do
  match ← (create d).run with
  | .error e => return (.error e, g)
  | .ok n => addNode n g

/-- Rebuild a graph. -/
def ofDescription (create : NodeDescription → Attempt (Node β)) (factories : FactorySet)
    (d : GraphDescription) : Attempt (Graph β) := do
  let g ← addDescribed create d.nodes { name := d.name, factories }
  let g ← linkDescribed d.links g
  return { g with isModified := false }

end Graph

end PortGraph
