import PortGraph.Graph.Schedule

/-!
# The life of a graph

Compiling, executing and releasing a graph, given what its nodes do on each call.

* `compile` makes a schedule and initialises every node in its order; if one fails, those that
  were initialised are destroyed again.
* `execute` runs every node once, after pulling the values of its links.  The first failure ends
  the pass.
* `release` destroys the initialised nodes, the last one first.
-/

set_option autoImplicit false

namespace PortGraph

variable {β : Type}

/-! ## Calling nodes -/

/-- Whether a reply is a success. -/
def Reply.succeeded {ε σ α : Type} (reply : Reply ε σ α) : Bool := reply.1.isOk

namespace Lifecycle

/-- Call a node to get ready. -/
def callInit (life : Lifecycle β) (n : Node β) : Act (Reply NodeError (Node β) Unit) :=
  Act.calling n.name .init Reply.succeeded (life.init n)

/-- Call a node to execute. -/
def callExecute (life : Lifecycle β) (n : Node β) : Act (Reply NodeError (Node β) Unit) :=
  Act.calling n.name .execute Reply.succeeded (life.execute n)

/-- Destroy a node if it is initialised. -/
def release (life : Lifecycle β) (n : Node β) : Act (Node β) :=
  if n.panel.isInitialized then do
    let n ← Act.calling n.name .destroy (fun _ ↦ true) (life.destroy n)
    return n.setInitialized false
  else return n

/-- Destroy the initialised nodes of some places, the last one first. -/
def releaseAll (life : Lifecycle β) : List (Slot β) → Act (List (Slot β))
  | [] => return []
  | s :: rest => do
    let rest ← life.releaseAll rest
    let n ← life.release s.node
    return { s with node := n } :: rest

/-- Throw nodes away, the first one first. -/
def discardAll (life : Lifecycle β) : List (Node β) → Act Unit
  | [] => return ()
  | n :: ns => do
    Act.discarding n.name (life.discard n)
    life.discardAll ns

end Lifecycle

namespace Graph

/-! ## Releasing -/

/-- Destroy the initialised nodes; the graph must be compiled before it executes again. -/
def release (life : Lifecycle β) (g : Graph β) : Act (Graph β) := do
  let slots ← life.releaseAll g.slots
  return { g.unschedule with slots }

/-- Throw a graph away. -/
def discard (life : Lifecycle β) (g : Graph β) : Act Unit := do
  let g ← g.release life
  life.discardAll g.nodes

/-- Remove all nodes and links. -/
def clear (life : Lifecycle β) (g : Graph β) : Act (Reply GraphError (Graph β) Unit) :=
  if g.isProtected then return (.error (.protectedGraph g.name), g)
  else do
    let g ← g.release life
    life.discardAll g.nodes
    return (.ok (), { g with slots := [], links := [], isModified := true })

/-! ## Compiling -/

/-- Warn of the nodes that have no link, if there is more than one node. -/
def warnUnlinked (g : Graph β) : Act Unit :=
  if 1 < g.slots.length then
    (g.slots.filter fun s ↦ s.node.panel.isSource && s.node.panel.isSink).forM fun s ↦
      Act.log .warn .graph s!"Graph {g.name}: node {s.key} is not linked"
  else return ()

/-- Empty the outputs of all nodes. -/
def resetOutputs (g : Graph β) : Graph β :=
  { g with slots := g.slots.map (·.mapNode (·.mapPanel Panel.resetOutputs)) }

/-- Put a node at a position. -/
def setNodeAt (g : Graph β) (position : Nat) (n : Node β) : Graph β :=
  { g with slots := g.slots.modify position (·.mapNode fun _ ↦ n) }

/-- Initialise the nodes at the given positions, one after the other.  If one fails, all are
released. -/
def initAll (life : Lifecycle β) : List Nat → Graph β → Act (Reply GraphError (Graph β) Unit)
  | [], g => return (.ok (), g)
  | i :: is, g =>
    match g.slots[i]? with
    | none => initAll life is g
    | some s => do
      let (result, after) ← life.callInit s.node
      match result with
      | .ok () => initAll life is (g.setNodeAt i (after.setInitialized true))
      | .error e =>
        Act.log .error .graph s!"Graph {g.name}: node {s.key} failed to initialize: {e.message}"
        let g ← (g.setNodeAt i after).release life
        return (.error (.initFailed s.key e), g)

/-- Make the graph ready to execute: plan, and initialise every node.  A ready graph is left as it
is. -/
def compile (life : Lifecycle β) (g : Graph β) : Act (Reply GraphError (Graph β) Unit) :=
  if g.isReady then return (.ok (), g)
  else
    match g.plan with
    | .error e => do
      if let .cyclicGraph nodes := e then
        Act.log .error .graph s!"Graph {g.name} contains a cycle through {showTexts nodes}"
      return (.error e, g)
    | .ok schedule => do
      g.warnUnlinked
      let g ← g.release life
      let (result, g) ← initAll life (schedule.map Step.node) g.resetOutputs
      match result with
      | .error e => return (.error e, g)
      | .ok () =>
        let nodes := g.slots.length
        let links := g.links.length
        Act.log .info .graph s!"Graph {g.name} compiled: {nodes} nodes, {links} links"
        return (.ok (), { g with schedule, isReady := true })

/-! ## Executing -/

/-- What the output at a position of the node at a position holds. -/
def outputAt (g : Graph β) (node output : Nat) : Option Packet :=
  ((g.slots[node]?).bind (·.node.panel.outputs[output]?)).bind Port.data

/-- Carry the value of a link over to the input of a node. -/
def applyPull (node : Nat) (g : Graph β) (p : Pull) : Graph β :=
  let packet := g.outputAt p.source p.output
  { g with
    slots := g.slots.modify node fun s ↦
      s.mapNode (·.mapPanel (·.modifyPortAt .input p.input (·.store packet))) }

/-- Take the turns of a schedule. -/
def executeSteps (life : Lifecycle β) :
    List Step → Graph β → Act (Reply GraphError (Graph β) Unit)
  | [], g => return (.ok (), g)
  | t :: turns, g =>
    let g := t.pulls.foldl (applyPull t.node) g
    match g.slots[t.node]? with
    | none => executeSteps life turns g
    | some s => do
      Act.log .trace .graph s!"Graph {g.name}: execute {s.key}"
      let (result, after) ← life.callExecute s.node
      let g := g.setNodeAt t.node after
      match result with
      | .ok () => executeSteps life turns g
      | .error e =>
        Act.log .error .graph
          s!"Graph {g.name}: node {s.key} ({after.typeName}) failed: {e.message}"
        return (.error (.executionFailed s.key after.typeName e), g)

/-- Run every node once. -/
def execute (life : Lifecycle β) (g : Graph β) : Act (Reply GraphError (Graph β) Unit) :=
  if g.isReady then executeSteps life g.schedule g
  else return (.error (.notCompiled g.name), g)

end Graph

end PortGraph
