import PortGraph.Net.Nesting

/-!
# Making nodes from descriptions

The first factory that knows the described type makes the node; the node then takes the described
name, type and metadata.  A net nested in a node is rebuilt with the same factories.
-/

set_option autoImplicit false

namespace PortGraph

/-- Hand a configuration to a new node. -/
def Node.configured (n : Node Behaviour) (d : NodeDescription) : Attempt (Node Behaviour) :=
  match d.config with
  | none => return n
  | some config =>
    match n.restore config with
    | (.ok (), n) => return n
    | (.error e, _) => throw (.persistence d.instanceName e)

/-- A new node with an operation. -/
def Operation.node (op : Operation) (name : String) : Act (Node Behaviour) := do
  return ⟨← op.panel name, .operation op⟩

/-- A new probe. -/
def ProbePlan.node (plan : ProbePlan) (name : String) : Attempt (Node Behaviour) := do
  return ⟨← plan.panel name, .probe plan.probe⟩

namespace Maker

/-- The operation of the new nodes of a maker, if they have one. -/
def operation? : Maker → Option Operation
  | .source k => some (.source k k.blank)
  | .sink k => some (.sink k)
  | .mapping e => some (.mapping e id)
  | .folding e => some (.folding e (fun acc _ ↦ acc) e.zero)
  | .increment => some .increment
  | .nested | .probe .. => none

/-- Make the described node; `rebuild` makes a net of its description. -/
def make (maker : Maker) (factories : FactorySet) (rebuild : GraphDescription → Attempt Net)
    (d : NodeDescription) : Attempt (Node Behaviour) :=
  match maker with
  | .nested =>
    match d.config with
    | none => Net.wrap d.instanceName { name := d.instanceName, factories }
    | some config =>
      match GraphDescription.ofJson config with
      | .error e => throw (.persistence d.instanceName (.config e))
      | .ok inner => do
        let g ← rebuild inner
        Net.wrap d.instanceName g
  | .probe name plan => do
    let n ← plan.node (name.getD d.instanceName)
    n.configured d
  | maker =>
    match maker.operation? with
    | none => throw (.unknownType d.model)
    | some op => do
      let n ← op.node d.instanceName
      n.configured d

end Maker

/-- Give a node the described name, type and metadata. -/
def Node.labelled {β : Type} (n : Node β) (d : NodeDescription) : Node β :=
  n.mapPanel fun p ↦
    { p with
      name := d.instanceName
      typeName := d.model
      metadata := d.metadata.or p.metadata }

namespace FactorySet

/-- Make the described node, and the nets inside it down to a level of nesting. -/
def createWithin (set : FactorySet) : Nat → NodeDescription → Attempt (Node Behaviour)
  | level, d =>
    match set.find? d.model with
    | none => throw (.unknownType d.model)
    | some entry => do
      let rebuild : GraphDescription → Attempt Net :=
        match level with
        | 0 => fun _ ↦ throw (.unknownType d.model)
        | level + 1 => Graph.ofDescription (set.createWithin level) set
      let n ← entry.maker.make set rebuild d
      return n.labelled d

/-- Make the described node.  Its nets nest less deeply than its configuration does. -/
def createNode (set : FactorySet) (d : NodeDescription) : Attempt (Node Behaviour) :=
  set.createWithin ((d.config.map Json.depth).getD 0) d

end FactorySet

namespace Net

/-- Rebuild a net. -/
def ofDescription (factories : FactorySet) (d : GraphDescription) : Attempt Net :=
  Graph.ofDescription factories.createNode factories d

/-- Make the described node with the factories of the net, and add it. -/
def createNode (d : NodeDescription) (g : Net) : Act (Reply GraphError Net Unit) :=
  Graph.createNode g.factories.createNode d g

end Net

end PortGraph
