import PortGraph.Json.Decode
import PortGraph.Value.Kind

/-!
# Data in configurations

How data is kept in the configuration of a node.  A 32-bit float is kept as the 64-bit float equal
to it; infinities and NaN have no place in a configuration and are kept as null.
-/

set_option autoImplicit false

namespace PortGraph

/-- A number as it is kept. -/
def Element.toJson : (e : Element) → e.Carrier → Json
  | .float, x => .ofFloat (widen x)
  | .int, n => .int n.toInt

/-- Read a kept number. -/
def Element.decode : (e : Element) → Json.Decoder e.Carrier
  | .float => Json.Decoder.float32
  | .int => Json.Decoder.int64

/-- Data as it is kept. -/
def DataKind.toJson : (k : DataKind) → k.Carrier → Json
  | .scalar e, x => e.toJson x
  | .bool, b => .bool b
  | .text, s => .string s
  | .list e, xs => .array (xs.map e.toJson)

/-- Read kept data. -/
def DataKind.decode : (k : DataKind) → Json.Decoder k.Carrier
  | .scalar e => e.decode
  | .bool => Json.Decoder.bool
  | .text => Json.Decoder.text
  | .list e => Json.Decoder.list e.decode

/-- A configuration of one field that holds data. -/
def DataKind.asRecord (k : DataKind) (title field : String) : Record Json.Decoder k.Carrier where
  name := title
  fields := [⟨field, true, fun j ↦ (k.decode j).map fun x _ ↦ x⟩]
  blank := k.blank

end PortGraph
