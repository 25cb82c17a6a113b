import PortGraph.Json.Basic
import PortGraph.Number.Layout
import PortGraph.Text.Quote

/-!
# When a value has the wrong shape

The reasons for which a well-formed value is refused by a reader that expects something else, and
how they are reported.
-/

set_option autoImplicit false

namespace PortGraph

/-- How a value is called in a report. -/
def Json.describe : Json → String
  | .null => "null"
  | .bool b => "boolean `" ++ (if b then "true" else "false") ++ "`"
  | .int n => "integer `" ++ toString n ++ "`"
  | .float x => "floating point `" ++ FloatLayout.json.writeFloat x ++ "`"
  | .string s => "string " ++ showText s
  | .array _ => "sequence"
  | .object _ => "map"

/-- Why a value is refused. -/
inductive ShapeError where
  /-- A field without default is absent. -/
  | missingField (name : String)
  /-- A field is given twice. -/
  | duplicateField (name : String)
  /-- The value is of another sort than expected. -/
  | invalidType (found : Json) (expected : String)
  /-- The integer does not fit the expected width. -/
  | invalidValue (found : Json) (expected : String)
  /-- The sequence has too few or too many elements. -/
  | invalidLength (found : Nat) (expected : String)
  deriving DecidableEq

/-- The report of a refusal. -/
def ShapeError.message : ShapeError → String
  | .missingField name => "missing field `" ++ name ++ "`"
  | .duplicateField name => "duplicate field `" ++ name ++ "`"
  | .invalidType found expected => "invalid type: " ++ found.describe ++ ", expected " ++ expected
  | .invalidValue found expected =>
    "invalid value: " ++ found.describe ++ ", expected " ++ expected
  | .invalidLength found expected =>
    "invalid length " ++ toString found ++ ", expected " ++ expected

end PortGraph
