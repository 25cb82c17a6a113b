import PortGraph.Json.Basic

/-!
# Records and the notations they are read from

A `Record` lists the fields of a structure: their names, which of them may be absent, and how each
is read.  A notation that can read records is an instance of `RecordReader`; the structure is
described once and read from every such notation.

A field's reader gives an update of the structure under construction, which starts from a blank
one that holds the defaults of the fields that may be absent.
-/

set_option autoImplicit false

namespace PortGraph

/-- A field of a structure `R` read by readers `ρ`. -/
structure Field (ρ : Type → Type) (R : Type) where
  /-- The name under which it is written. -/
  name : String
  /-- Whether it must be present. -/
  required : Bool
  /-- Its reader, which says what the field changes. -/
  read : ρ (R → R)

/-- A structure with named fields. -/
structure Record (ρ : Type → Type) (R : Type) where
  /-- The name of the structure. -/
  name : String
  /-- The fields, in the order in which they stand when their names are left out. -/
  fields : List (Field ρ R)
  /-- The structure before any field is read. -/
  blank : R

namespace Record

variable {ρ : Type → Type} {R : Type}

/-- The field of a name. -/
def field? (record : Record ρ R) (name : String) : Option (Field ρ R) :=
  record.fields.find? (fun f ↦ f.name = name)

/-- The first required field that has not been seen. -/
def missing? (record : Record ρ R) (seen : List String) : Option String :=
  (record.fields.find? (fun f ↦ f.required && !seen.contains f.name)).map Field.name

/-- How the structure is called in a report. -/
def title (record : Record ρ R) : String := "struct " ++ record.name

/-- How the structure is called where its number of elements matters. -/
def titleWithSize (record : Record ρ R) : String :=
  let size := record.fields.length
  record.title ++ " with " ++ toString size ++ (if size = 1 then " element" else " elements")

end Record

/-- A notation from which structures can be read. -/
class RecordReader (ρ : Type → Type) extends Functor ρ where
  /-- Read a text. -/
  text : ρ String
  /-- Read a natural below `2 ^ 32`. -/
  word : ρ UInt32
  /-- Read any value. -/
  payload : ρ Json
  /-- Read a value that may be marked as absent. -/
  option {α : Type} : ρ α → ρ (Option α)
  /-- Read a sequence. -/
  list {α : Type} : ρ α → ρ (List α)
  /-- Read a structure. -/
  record {R : Type} : Record ρ R → ρ R

namespace Field

variable {ρ : Type → Type} [RecordReader ρ] {R : Type}

/-- A required field, whose reader sets it. -/
def mandatory {α : Type} (name : String) (read : ρ α) (set : α → R → R) : Field ρ R :=
  ⟨name, true, set <$> read⟩

/-- A field that keeps its default when it is absent. -/
def defaulted {α : Type} (name : String) (read : ρ α) (set : α → R → R) : Field ρ R :=
  ⟨name, false, set <$> read⟩

end Field

end PortGraph
