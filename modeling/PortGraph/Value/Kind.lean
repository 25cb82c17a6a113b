import PortGraph.Text.Quote
import PortGraph.Number.Layout

/-!
# Kinds of values

The kinds of values that nodes compute with, the type that carries the values of each kind, and
the name by which a port declares it.

Ports compare data types by name only, so a `DataType` is a name: one of the names of the kinds
here, or any other an application makes up.
-/

set_option autoImplicit false

namespace PortGraph

/-! ## Data types -/

/-- The name a port gives to the values it carries. -/
structure DataType where
  /-- The name data types are compared and sorted by. -/
  name : String
  deriving DecidableEq, Repr

/-- The order of data types: that of their names. -/
instance : LE DataType := ⟨fun a b ↦ a.name ≤ b.name⟩

instance : DecidableRel (α := DataType) (· ≤ ·) :=
  fun a b ↦ inferInstanceAs (Decidable (a.name ≤ b.name))

/-! ## Kinds -/

/-- What numbers the elements of a collection are. -/
inductive Element where
  /-- 32-bit floats. -/
  | float
  /-- 64-bit signed integers, whose arithmetic wraps around. -/
  | int
  deriving DecidableEq, Repr

/-- The values of an element. -/
abbrev Element.Carrier : Element → Type
  | .float => Float32
  | .int => Int64

/-- The kinds of values that can be configured and saved. -/
inductive DataKind where
  /-- A number. -/
  | scalar (e : Element)
  /-- A truth value. -/
  | bool
  /-- A text. -/
  | text
  /-- A collection of numbers. -/
  | list (e : Element)
  deriving DecidableEq, Repr

/-- The values of a kind of data. -/
abbrev DataKind.Carrier : DataKind → Type
  | .scalar e => e.Carrier
  | .bool => Bool
  | .text => String
  | .list e => List e.Carrier

/-- The kinds of values that travel along links. -/
inductive Kind where
  /-- Data that can be configured and saved. -/
  | data (k : DataKind)
  /-- A 64-bit float. -/
  | double
  /-- A 32-bit signed integer. -/
  | int32
  /-- The one value that says nothing. -/
  | unit
  /-- An operator on elements. -/
  | mapping (e : Element)
  /-- An operator that takes an element into an accumulator. -/
  | folding (e : Element)
  deriving DecidableEq, Repr

/-- The values of a kind. -/
abbrev Kind.Carrier : Kind → Type
  | .data k => k.Carrier
  | .double => Float
  | .int32 => Int32
  | .unit => Unit
  | .mapping e => e.Carrier → e.Carrier
  | .folding e => e.Carrier → e.Carrier → e.Carrier

/-- Numbers, as values that travel. -/
abbrev Kind.scalar (e : Element) : Kind := .data (.scalar e)

/-- Truth values, as values that travel. -/
abbrev Kind.bool : Kind := .data .bool

/-- Texts, as values that travel. -/
abbrev Kind.text : Kind := .data .text

/-- Collections, as values that travel. -/
abbrev Kind.list (e : Element) : Kind := .data (.list e)

/-! ## Names -/

/-- The name of an element's data type. -/
def Element.typeName : Element → String
  | .float => "f32"
  | .int => "i64"

/-- The name of a kind's data type. -/
def Kind.typeName : Kind → String
  | .data (.scalar e) => e.typeName
  | .data .bool => "bool"
  | .data .text => "alloc::string::String"
  | .data (.list e) => "alloc::vec::Vec<" ++ e.typeName ++ ">"
  | .double => "f64"
  | .int32 => "i32"
  | .unit => "()"
  | .mapping e => "nodeflow_graph::nodes::functional::TransformOperator<" ++ e.typeName ++ ">"
  | .folding e => "nodeflow_graph::nodes::functional::ReduceOperator<" ++ e.typeName ++ ">"

/-- The data type of a kind. -/
def Kind.dataType (k : Kind) : DataType := ⟨k.typeName⟩

/-- Different kinds have different data types. -/
theorem Kind.dataType_inj {k l : Kind} (h : k.dataType = l.dataType) : k = l := by
  have h : k.typeName = l.typeName := congrArg DataType.name h
  revert h
  rcases k with (⟨⟨⟩⟩ | _ | _ | ⟨⟨⟩⟩) | _ | _ | _ | ⟨⟨⟩⟩ | ⟨⟨⟩⟩ <;>
    rcases l with (⟨⟨⟩⟩ | _ | _ | ⟨⟨⟩⟩) | _ | _ | _ | ⟨⟨⟩⟩ | ⟨⟨⟩⟩ <;>
    first | exact fun _ ↦ rfl | (intro h; exact absurd h (by decide))

/-- The word for an element in the names of node types. -/
def Element.label : Element → String
  | .float => "Float"
  | .int => "Int"

/-- The word for a kind of data in the names of node types. -/
def DataKind.label : DataKind → String
  | .scalar e => e.label
  | .bool => "Bool"
  | .text => "String"
  | .list e => e.label ++ "Vector"

/-- The kinds of data, in the order in which they are presented. -/
def DataKind.all : List DataKind :=
  [.scalar .float, .scalar .int, .bool, .text, .list .float, .list .int]

/-! ## Blank and shown values -/

/-- Zero. -/
def Element.zero : (e : Element) → e.Carrier
  | .float => 0
  | .int => 0

/-- The value a node of this kind is configured with before anything else is said. -/
def DataKind.blank : (k : DataKind) → k.Carrier
  | .scalar e => e.zero
  | .bool => false
  | .text => ""
  | .list _ => []

/-- How a number is shown. -/
def Element.showNumber : (e : Element) → e.Carrier → String
  | .float, x => FloatLayout.display.writeFloat32 x
  | .int, n => toString n.toInt

/-- How data is shown. -/
def DataKind.showData : (k : DataKind) → k.Carrier → String
  | .scalar e, x => e.showNumber x
  | .bool, b => if b then "true" else "false"
  | .text, s => showText s
  | .list e, xs => "[" ++ String.intercalate ", " (xs.map e.showNumber) ++ "]"

/-- How a value is shown; operators show nothing of what they do. -/
def Kind.showValue : (k : Kind) → k.Carrier → String
  | .data k, x => k.showData x
  | .double, x => FloatLayout.display.writeFloat x
  | .int32, n => toString n.toInt
  | .unit, _ => "()"
  | .mapping _, _ => "TransformOperator"
  | .folding _, _ => "ReduceOperator"

end PortGraph
