import PortGraph.Graph.Access
import PortGraph.Graph.Saved
import PortGraph.Node.Operation

/-!
# Nets

A net is a graph whose nodes compute: the behaviour of a node is an operation, whatever the host made
it for (`Probe`), or a whole net again, whose ports the ports of the node stand for.

This file looks inside nets: how deeply they nest, which names they hold, and what they are saved
as.
-/

set_option autoImplicit false

namespace PortGraph

/-- What a node computes with. -/
inductive Behaviour where
  /-- An operation. -/
  | operation (op : Operation)
  /-- A probe, or whatever else the host made the node for. -/
  | probe (p : Probe)
  /-- A graph, and the inner ports that the inputs and outputs of the node stand for. -/
  | nested (graph : Graph Behaviour) (inputs outputs : List Endpoint)

/-- A graph whose nodes compute. -/
abbrev Net : Type := Graph Behaviour

/-- The net inside a node, if there is one. -/
def Node.inner? (n : Node Behaviour) : Option Net :=
  match n.behaviour with
  | .nested g _ _ => some g
  | _ => none

/-- The inner port that a port of the node stands for. -/
def Node.binding? (n : Node Behaviour) (side : Direction) (port : String) : Option Endpoint :=
  match n.behaviour with
  | .nested _ inputs outputs =>
    (n.panel.position? side port).bind fun i ↦
      match side with
      | .input => inputs[i]?
      | .output => outputs[i]?
  | _ => none

/-! ## Depth -/

namespace Behaviour

mutual

/-- How many nets are nested in one another. -/
def depth : Behaviour → Nat
  | .nested g _ _ => slotsDepth g.slots + 1
  | _ => 0

/-- The depth of the deepest node. -/
def slotsDepth : List (Slot Behaviour) → Nat
  | [] => 0
  | s :: rest => max (depth s.node.behaviour) (slotsDepth rest)

end

/-! ## Names -/

mutual

/-- Whether a node of the given name is nested in it. -/
def holds (name : String) : Behaviour → Bool
  | .nested g _ _ => slotsHold name g.slots
  | _ => false

/-- Whether one of the nodes has the given name, or one nested in them. -/
def slotsHold (name : String) : List (Slot Behaviour) → Bool
  | [] => false
  | s :: rest => s.key = name || holds name s.node.behaviour || slotsHold name rest

end

/-! ## Saving -/

mutual

/-- What a node with this behaviour is saved as: a nested net as its description. -/
def persisted (panel : Panel) : Behaviour → Except NodeError (Option Json)
  | .operation op => op.persisted panel
  | .probe p => p.persisted panel
  | .nested g _ _ =>
    match nodeDescriptions g.slots with
    | .error e => .error (.graph e)
    | .ok nodes =>
      .ok (some ({ name := g.name, nodes, links := g.links.map Link.description :
        GraphDescription }).toConfig)

/-- The descriptions of nodes. -/
def nodeDescriptions : List (Slot Behaviour) → Except GraphError (List NodeDescription)
  | [] => .ok []
  | s :: rest =>
    match persisted s.node.panel s.node.behaviour with
    | .error e => .error (.persistence s.key e)
    | .ok config =>
      match nodeDescriptions rest with
      | .error e => .error e
      | .ok ds => .ok (⟨s.key, s.node.typeName, config, s.node.panel.metadata⟩ :: ds)

end

end Behaviour

/-- What a node is saved as. -/
def Node.persisted (n : Node Behaviour) : Except NodeError (Option Json) :=
  n.behaviour.persisted n.panel

/-- Take a configuration over.  A nested net is never restored in place: it is made anew. -/
def Node.restore (n : Node Behaviour) (config : Json) : Reply NodeError (Node Behaviour) Unit :=
  match n.behaviour with
  | .operation op =>
    match op.restore n.panel config with
    | .error e => (.error e, n)
    | .ok op => (.ok (), { n with behaviour := .operation op })
  | .probe p =>
    match p.restore config with
    | .error e => (.error e, n)
    | .ok p => (.ok (), { n with behaviour := .probe p })
  | .nested .. =>
    (.error (.failed "graph nodes are restored by their factory creator"), n)

namespace Net

/-- Whether the net or a net nested in it has a node of the given name. -/
def holds (g : Net) (name : String) : Bool := Behaviour.slotsHold name g.slots

/-- The description of a net. -/
def description (g : Net) : Except GraphError GraphDescription :=
  match Behaviour.nodeDescriptions g.slots with
  | .error e => .error e
  | .ok nodes => .ok { name := g.name, nodes, links := g.links.map Link.description }

end Net

end PortGraph
