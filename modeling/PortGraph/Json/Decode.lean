import PortGraph.Json.Shape
import PortGraph.Record

/-!
# Reading structures off JSON values

`Json.Decoder` reads a structure off a value already in memory.  A structure may be given as an
object, whose unknown members are skipped, or as an array of its fields in order, in which
trailing fields with a default may be left out.  The first problem is the one reported.
-/

set_option autoImplicit false

namespace PortGraph.Json

/-- A reader of JSON values. -/
def Decoder (α : Type) : Type := Json → Except ShapeError α

namespace Decoder

/-- Read a text. -/
def text : Decoder String
  | .string s => .ok s
  | j => .error (.invalidType j "a string")

/-- Read a truth value. -/
def bool : Decoder Bool
  | .bool b => .ok b
  | j => .error (.invalidType j "a boolean")

/-- Read an integer of the range `[low, high)`; an integer out of range is a wrong value, anything
else a wrong type. -/
def integer (low high : Int) (expected : String) : Decoder Int
  | .int n =>
    if low ≤ n ∧ n < high then .ok n else .error (.invalidValue (.int n) expected)
  | j => .error (.invalidType j expected)

/-- Read a 64-bit signed integer. -/
def int64 : Decoder Int64 := fun j ↦
  (integer Int64.minValue.toInt (Int64.maxValue.toInt + 1) "i64" j).map Int64.ofInt

/-- Read a natural below `2 ^ 32`. -/
def word : Decoder UInt32 := fun j ↦
  (integer 0 UInt32.size "u32" j).map (UInt32.ofNat ·.toNat)

/-- Read a number as the nearest 32-bit float. -/
def float32 : Decoder Float32
  | .int n => .ok (BinaryNumber.ofInt n).toFloat32
  | .float x => .ok (narrow x)
  | j => .error (.invalidType j "f32")

/-- Read each item. -/
def items {α : Type} (read : Decoder α) : List Json → Except ShapeError (List α)
  | [] => .ok []
  | j :: rest =>
    match read j with
    | .error e => .error e
    | .ok a => (items read rest).map (a :: ·)

/-- Read a sequence. -/
def list {α : Type} (read : Decoder α) : Decoder (List α)
  | .array js => items read js
  | j => .error (.invalidType j "a sequence")

/-- Read a value or null. -/
def option {α : Type} (read : Decoder α) : Decoder (Option α)
  | .null => .ok none
  | j => (read j).map some

variable {R : Type}

/-- Read the fields of a structure in order, the next one standing at `position`. -/
def positional (record : Record Decoder R) (size : Nat) :
    Nat → List (Field Decoder R) → List Json → R → Except ShapeError R
  | _, [], [], acc => .ok acc
  | _, [], _ :: _, _ => .error (.invalidLength size "fewer elements in array")
  | position, f :: fs, [], acc =>
    if f.required then .error (.invalidLength position record.titleWithSize)
    else positional record size (position + 1) fs [] acc
  | position, f :: fs, j :: js, acc =>
    match f.read j with
    | .error e => .error e
    | .ok update => positional record size (position + 1) fs js (update acc)

/-- Read the fields of a structure off its members. -/
def named (record : Record Decoder R) :
    List String → List (String × Json) → R → Except ShapeError R
  | seen, [], acc =>
    match record.missing? seen with
    | some name => .error (.missingField name)
    | none => .ok acc
  | seen, (name, j) :: rest, acc =>
    match record.field? name with
    | none => named record seen rest acc
    | some f =>
      if seen.contains name then .error (.duplicateField name)
      else match f.read j with
        | .error e => .error e
        | .ok update => named record (name :: seen) rest (update acc)

/-- Read a structure. -/
def record (record : Record Decoder R) : Decoder R
  | .array js => positional record js.length 0 record.fields js record.blank
  | .object members => named record [] members record.blank
  | j => .error (.invalidType j record.title)

instance : RecordReader Decoder where
  map f read := fun j ↦ (read j).map f
  text := text
  word := word
  payload := .ok
  option := option
  list := list
  record := record

end Decoder

end PortGraph.Json
