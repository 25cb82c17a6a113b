import PortGraph.Net.Basic

/-!
# The life of a net

What the nodes of a net do when they are called.  Operations and probes answer for themselves; a
node that holds a net hands every call on to it.  Before the nested net executes, each of its
exposed inputs is fed what the outer input holds, and afterwards each outer output takes over what
its inner output holds.

`Behaviour.life` gives the lifecycle of all nodes down to a level of nesting.  The operations of a
net use the lifecycle that reaches as deep as the net does.
-/

set_option autoImplicit false

namespace PortGraph

/-! ## Nodes that hold a net -/

namespace Behaviour

/-- Feed the exposed inputs of a nested net. -/
def feedAll : List (Port × Endpoint) → Net → Reply GraphError Net Unit
  | [], g => (.ok (), g)
  | (outer, inner) :: rest, g =>
    match g.feed inner outer.data with
    | .error e => (.error e, g)
    | .ok g => feedAll rest g

/-- Let outer outputs take over what inner outputs hold. -/
def takeOver (g : Net) : List Port → List Endpoint → List Port
  | outer :: ports, inner :: places =>
    outer.store (g.output inner).toOption :: takeOver g ports places
  | ports, _ => ports

/-- Put a nested net and the result of an operation on it back into its node. -/
def reply (n : Node Behaviour) (inputs outputs : List Endpoint) (r : Reply GraphError Net Unit) :
    Reply NodeError (Node Behaviour) Unit :=
  (r.1.mapError .graph, { n with behaviour := .nested r.2 inputs outputs })

/-- Execute a nested net. -/
def executeNested (inner : Lifecycle Behaviour) (n : Node Behaviour) (g : Net)
    (inputs outputs : List Endpoint) : Act (Reply NodeError (Node Behaviour) Unit) :=
  match feedAll (n.panel.inputs.zip inputs) g with
  | (.error e, g) => return reply n inputs outputs (.error e, g)
  | (.ok (), g) => do
    let (result, g) ← g.execute inner
    let n := match result with
      | .error _ => n
      | .ok () =>
        n.mapPanel fun p ↦ { p with outputs := takeOver g p.outputs outputs }
    return reply n inputs outputs (result, g)

end Behaviour

/-! ## Lifecycles -/

/-- What nodes do, given what the nodes of the nets inside them do. -/
def Lifecycle.around (inner : Lifecycle Behaviour) : Lifecycle Behaviour where
  init n :=
    match n.behaviour with
    | .operation _ => return (.ok (), n)
    | .probe p => do
      let (result, p) ← p.init n.panel
      return (result, { n with behaviour := .probe p })
    | .nested g inputs outputs => do
      let r ← g.compile inner
      return Behaviour.reply n inputs outputs r
  execute n :=
    match n.behaviour with
    | .operation op => do
      let (result, panel) ← op.execute n.panel
      return (result, { n with panel })
    | .probe p => do
      let (result, panel, p) ← p.execute n.panel
      return (result, ⟨panel, .probe p⟩)
    | .nested g inputs outputs => Behaviour.executeNested inner n g inputs outputs
  destroy n :=
    match n.behaviour with
    | .operation _ => return n
    | .probe p => do
      let p ← p.destroy n.panel
      return { n with behaviour := .probe p }
    | .nested g inputs outputs => do
      let g ← g.release inner
      return { n with behaviour := .nested g inputs outputs }
  discard n :=
    match n.behaviour with
    | .nested g _ _ => g.discard inner
    | _ => return ()

/-- What nodes do, down to a level of nesting; below it they do nothing. -/
def Behaviour.life : Nat → Lifecycle Behaviour
  | 0 => Lifecycle.idle
  | level + 1 => Lifecycle.around (Behaviour.life level)

/-! ## Operations of a node -/

namespace Node

/-- The lifecycle that reaches as deep as the node. -/
def life (n : Node Behaviour) : Lifecycle Behaviour := Behaviour.life (n.behaviour.depth + 1)

/-- Throw a node away. -/
def discard (n : Node Behaviour) : Act Unit := n.life.discard n

end Node

/-! ## Operations of a net -/

namespace Net

/-- The lifecycle that reaches as deep as the net. -/
def life (g : Net) : Lifecycle Behaviour := Behaviour.life (Behaviour.slotsDepth g.slots + 1)

/-- Make a net ready to execute. -/
def compile (g : Net) : Act (Reply GraphError Net Unit) := Graph.compile (life g) g

/-- Run every node once. -/
def execute (g : Net) : Act (Reply GraphError Net Unit) := Graph.execute (life g) g

/-- Destroy the initialised nodes. -/
def release (g : Net) : Act Net := Graph.release (life g) g

/-- Remove all nodes and links. -/
def clear (g : Net) : Act (Reply GraphError Net Unit) := Graph.clear (life g) g

/-- Throw a net away. -/
def discard (g : Net) : Act Unit := Graph.discard (life g) g

/-- Add a node of a new name.  A node that is refused is thrown away. -/
def addNode (n : Node Behaviour) (g : Net) : Act (Reply GraphError Net Unit) := do
  let (result, g) ← Graph.addNode n g
  if result matches .error _ then n.discard
  return (result, g)

/-- Remove a node and every link that touches it, and hand it back. -/
def removeNode (name : String) (g : Net) : Act (Reply GraphError Net (Node Behaviour)) :=
  Graph.removeNode (life g) name g

end Net

end PortGraph
