import PortGraph.Graph.Basic
import PortGraph.Graph.Order

/-!
# Schedules

What compiling a graph finds out before it calls any node: an order in which every node comes
after those it is linked behind, the least position first wherever there is a choice; whether
every required input is supplied; and what is to be pulled into each node.

`Graph.levels` groups the nodes of a compiled graph by the length of the longest chain of links
that ends at them.
-/

set_option autoImplicit false

namespace PortGraph.Graph

variable {β : Type}

/-- The positions of the nodes at the ends of a link. -/
def edge (g : Graph β) (l : Link) : Except GraphError Edge := do
  let source ← g.position l.source.node
  let target ← g.position l.target.node
  return (source, target)

/-- The positions of the nodes in topological order. -/
def sorted (g : Graph β) : Except GraphError (List Nat) := do
  let edges ← g.links.mapM g.edge
  let t := Traversal.complete g.slots.length edges
  if t.taken.length < g.slots.length then throw (.cyclicGraph (g.namesAt t.stuck))
  else return t.taken

/-- The first required input that nothing supplies. -/
def unsatisfied? (g : Graph β) : Option Endpoint :=
  g.slots.findSome? fun s ↦
    (s.node.panel.inputs.find? (fun p ↦ p.isRequired && !p.isSatisfied)).map
      fun p ↦ ⟨s.key, p.name⟩

/-- The position of a port on the node at a position. -/
def portPosition (g : Graph β) (node : Nat) (side : Direction) (place : Endpoint) :
    Except GraphError Nat :=
  match g.slots[node]?.bind (·.node.panel.position? side place.port) with
  | some i => .ok i
  | none => .error (.portNotFound place)

/-- The pull a link stands for, behind the position of the node that pulls. -/
def pull (g : Graph β) (l : Link) : Except GraphError (Nat × Pull) := do
  let (source, target) ← g.edge l
  let output ← g.portPosition source .output l.source
  let input ← g.portPosition target .input l.target
  return (target, ⟨input, source, output⟩)

/-- The turn of a node, given all pulls of the graph. -/
def step (pulls : List (Nat × Pull)) (node : Nat) : Step :=
  ⟨node, (pulls.filter (fun p ↦ p.1 = node)).map Prod.snd⟩

/-- The turns of all nodes. -/
def plan (g : Graph β) : Except GraphError (List Step) := do
  let order ← g.sorted
  match g.unsatisfied? with
  | some place => throw (.unsatisfiedInput place)
  | none =>
    let pulls ← g.links.mapM g.pull
    return order.map (step pulls)

/-! ## What a compiled graph shows -/

/-- The names of the nodes in the order in which they run; none unless the graph is compiled. -/
def order (g : Graph β) : List String := g.namesAt (g.schedule.map Step.node)

/-- The depth noted for a node. -/
def depthOf (depths : List (Nat × Nat)) (node : Nat) : Nat := (depths.lookup node).getD 0

/-- The nodes of a schedule with their depths: one more than the deepest node pulled from. -/
def depths (schedule : List Step) : List (Nat × Nat) :=
  schedule.foldl (fun known s ↦
    known ++ [(s.node, (s.pulls.map fun p ↦ depthOf known p.source + 1).foldl max 0)]) []

/-- The names of the nodes by depth, each level in the order in which it runs; none unless the
graph is compiled. -/
def levels (g : Graph β) : List (List String) :=
  let found := depths g.schedule
  let height := (found.map fun d ↦ d.2 + 1).foldl max 0
  (List.range height).map fun level ↦
    g.namesAt ((found.filter (fun d ↦ d.2 = level)).map Prod.fst)

end PortGraph.Graph
