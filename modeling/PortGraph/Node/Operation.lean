import PortGraph.Node.Basic
import PortGraph.Value.Config

/-!
# Operations

The nodes that compute one output from their inputs.  What such a node publishes depends on what
can be read off its panel and on its operation alone; executing it changes nothing but that
output.

Each operation comes with the panel it is made with, and says what of it is saved.
-/

set_option autoImplicit false

namespace PortGraph

/-- What a node with one output computes. -/
inductive Operation where
  /-- Publish what the input `from` holds, or else the configured value. -/
  | source (k : DataKind) (value : k.Carrier)
  /-- Publish what the input `from` holds. -/
  | sink (k : DataKind)
  /-- Apply a function. -/
  | unary (k l : Kind) (f : k.Carrier → l.Carrier)
  /-- Apply a function of two arguments. -/
  | binary (k l m : Kind) (f : k.Carrier → l.Carrier → m.Carrier)
  /-- Apply an operator to every element, the one on the input `f` if there is one. -/
  | mapping (e : Element) (operator : e.Carrier → e.Carrier)
  /-- Fold a collection, with the operator and the initial value on the inputs `f` and `init` if
  there are any. -/
  | folding (e : Element) (operator : e.Carrier → e.Carrier → e.Carrier) (init : e.Carrier)
  /-- Add one. -/
  | increment

/-- What a node publishes. -/
inductive Publication where
  /-- A packet that it read. -/
  | forwarded (packet : Packet)
  /-- A value that it computed. -/
  | computed (v : Value)

/-- The packet of a publication: a value that was computed is published anew. -/
def Publication.packet : Publication → Act Packet
  | .forwarded packet => return packet
  | .computed v => Act.publish v

namespace Operation

/-! ## Making nodes -/

/-- An input that carries values of a kind. -/
def inputOf (name : String) (k : Kind) : Port :=
  { name, direction := .input, dataType := k.dataType }

/-- An input that must be supplied. -/
def requiredInputOf (name : String) (k : Kind) : Port := (inputOf name k).require

/-- An output that carries values of a kind. -/
def outputOf (name : String) (k : Kind) : Port :=
  { name, direction := .output, dataType := k.dataType }

/-- The name of the type of the nodes with this operation. -/
def typeName : Operation → String
  | .source k _ => k.label ++ "Source"
  | .sink k => k.label ++ "Sink"
  | .unary .. => "Function"
  | .binary .. => "BinaryOp"
  | .mapping e _ => e.label ++ "Transform"
  | .folding e _ _ => e.label ++ "Reduce"
  | .increment => "Plain"

/-- The inputs of a node with this operation.  A node that adds one adds it to a half by default. -/
def inputs : Operation → Act (List Port)
  | .source k _ => return [inputOf "from" (.data k)]
  | .sink k => return [requiredInputOf "from" (.data k)]
  | .unary k _ _ => return [requiredInputOf "in" k]
  | .binary k l _ _ => return [requiredInputOf "a" k, requiredInputOf "b" l]
  | .mapping e _ => return [requiredInputOf "in" (.list e), inputOf "f" (.mapping e)]
  | .folding e _ _ =>
    return [requiredInputOf "in" (.list e), inputOf "f" (.folding e), inputOf "init" (.scalar e)]
  | .increment => do
    let half ← Act.publish ⟨.scalar .float, (0.5 : Float32)⟩
    return [{ inputOf "in" (.scalar .float) with default := some half }]

/-- The output of a node with this operation. -/
def output : Operation → Port
  | .source k _ => outputOf "to" (.data k)
  | .sink k => outputOf "data" (.data k)
  | .unary _ l _ => outputOf "out" l
  | .binary _ _ m _ => outputOf "r" m
  | .mapping e _ => outputOf "out" (.list e)
  | .folding e _ _ => outputOf "out" (.scalar e)
  | .increment => outputOf "out" (.scalar .float)

/-- The panel of a new node with this operation. -/
def panel (op : Operation) (name : String) : Act Panel := do
  return { name, typeName := op.typeName, inputs := ← op.inputs, outputs := [op.output] }

/-! ## Executing -/

/-- What the node publishes. -/
def publication (op : Operation) (panel : Panel) : Except GraphError Publication := do
  match op with
  | .source k value =>
    match panel.read .input "from" with
    | .ok packet => return .forwarded packet
    | .error e => if e.missingData?.isSome then return .computed ⟨.data k, value⟩ else throw e
  | .sink _ => return .forwarded (← panel.read .input "from")
  | .unary k l f => return .computed ⟨l, f (← panel.readAs .input "in" k)⟩
  | .binary k l m f =>
    let a ← panel.readAs .input "a" k
    let b ← panel.readAs .input "b" l
    return .computed ⟨m, f a b⟩
  | .mapping e operator =>
    let f := (← panel.supplied? "f" (.mapping e)).getD operator
    let xs ← panel.readAs .input "in" (.list e)
    return .computed ⟨.list e, List.map f xs⟩
  | .folding e operator init =>
    let f := (← panel.supplied? "f" (.folding e)).getD operator
    let start := (← panel.supplied? "init" (.scalar e)).getD init
    let xs ← panel.readAs .input "in" (.list e)
    return .computed ⟨.scalar e, List.foldl f start xs⟩
  | .increment =>
    let x ← panel.readAs .input "in" (.scalar .float)
    return .computed ⟨.scalar .float, x + (1 : Float32)⟩

/-- Publish on the output. -/
def execute (op : Operation) (panel : Panel) : Act (Reply NodeError Panel Unit) :=
  match op.publication panel with
  | .error e => return (.error (.graph e), panel)
  | .ok publication => do
    let packet ← publication.packet
    match panel.publish op.output.name packet with
    | .error e => return (.error (.graph e), panel)
    | .ok panel => return (.ok (), panel)

/-! ## Saving -/

/-- What the node is saved as. -/
def persisted (op : Operation) (panel : Panel) : Except NodeError (Option Json) :=
  match op with
  | .source k value => .ok (some (.object [("value", k.toJson value)]))
  | .folding e _ init => .ok (some (.object [("init", e.toJson init)]))
  | .unary .. | .binary .. => .error (.notPersistable panel.typeName)
  | .sink _ | .mapping .. | .increment => .ok none

/-- Take a configuration over. -/
def restore (op : Operation) (panel : Panel) (config : Json) : Except NodeError Operation :=
  match op with
  | .source k _ =>
    match Json.Decoder.record (k.asRecord "SourceConfig" "value") config with
    | .ok value => .ok (.source k value)
    | .error e => .error (.config e)
  | .folding e operator _ =>
    match Json.Decoder.record ((DataKind.scalar e).asRecord "ReduceConfig" "init") config with
    | .ok init => .ok (.folding e operator init)
    | .error e => .error (.config e)
  | .unary .. | .binary .. => .error (.notPersistable panel.typeName)
  | .sink k => .ok (.sink k)
  | .mapping e operator => .ok (.mapping e operator)
  | .increment => .ok .increment

end Operation

end PortGraph
