import PortGraph.Json.Basic
import PortGraph.Number.Layout
import PortGraph.Text.Quote

/-!
# Writing RON texts

`Ron` is the tree of a RON text that holds no names of structures.  The laid-out form puts every
field, element and entry on a line of its own with a comma behind it, four spaces of indentation
for each level; brackets without content take no lines.

A writer has an allowance for nesting, `Ron.allowance` at first.  A field, element, entry or `Some`
mark takes one from it while it is being written, and a list, map or structure adds one to it when
it is finished, so that what stands behind other brackets may nest more deeply than what stands in
front of them.  A tree for which the allowance runs out is refused.
-/

set_option autoImplicit false

namespace PortGraph

/-- The tree of a RON text. -/
inductive Ron where
  | unit
  | bool (b : Bool)
  | int (n : Int)
  | float (x : Float)
  | text (s : String)
  /-- A value marked as present. -/
  | some (value : Ron)
  | list (elements : List Ron)
  | map (entries : List (String × Ron))
  /-- A structure with named fields. -/
  | fields (fields : List (String × Ron))

namespace Ron

/-! ## Nesting -/

mutual

/-- How many lists, maps and structures there are. -/
def brackets : Ron → Nat
  | .some r => brackets r
  | .list rs => elementBrackets rs + 1
  | .map es => entryBrackets es + 1
  | .fields fs => entryBrackets fs + 1
  | _ => 0

/-- How many lists, maps and structures there are in elements. -/
def elementBrackets : List Ron → Nat
  | [] => 0
  | r :: rest => brackets r + elementBrackets rest

/-- How many lists, maps and structures there are in entries. -/
def entryBrackets : List (String × Ron) → Nat
  | [] => 0
  | (_, r) :: rest => brackets r + entryBrackets rest

end

mutual

/-- The least allowance with which a tree is written. -/
def need : Ron → Nat
  | .some r => need r + 1
  | .list rs => elementsNeed rs
  | .map es => entriesNeed es
  | .fields fs => entriesNeed fs
  | _ => 0

/-- The least allowance with which elements are written; the brackets of the first one are
finished before the others begin. -/
def elementsNeed : List Ron → Nat
  | [] => 0
  | r :: rest => max (need r + 1) (elementsNeed rest - brackets r)

/-- The least allowance with which entries are written. -/
def entriesNeed : List (String × Ron) → Nat
  | [] => 0
  | (_, r) :: rest => max (need r + 1) (entriesNeed rest - brackets r)

end

/-- The allowance of a writer. -/
def allowance : Nat := 128

/-! ## Text -/

/-- A line break and the indentation of a level. -/
def breakLine (level : Nat) : String :=
  "\n" ++ String.ofList (List.replicate (4 * level) ' ')

/-- How a text is written. -/
def writeText (s : String) : String := quoteText .escaped s

mutual

/-- Write a value whose brackets stand at the given level. -/
def write (level : Nat) : Ron → String
  | .unit => "()"
  | .bool b => if b then "true" else "false"
  | .int n => toString n
  | .float x => FloatLayout.plain.writeFloat x
  | .text s => writeText s
  | .some r => "Some(" ++ write level r ++ ")"
  | .list [] => "[]"
  | .list (r :: rs) => "[" ++ writeElements (level + 1) (r :: rs) ++ breakLine level ++ "]"
  | .map [] => "\x7b\x7d"
  | .map (e :: es) => "\x7b" ++ writeEntries (level + 1) (e :: es) ++ breakLine level ++ "\x7d"
  | .fields [] => "()"
  | .fields (f :: fs) => "(" ++ writeFields (level + 1) (f :: fs) ++ breakLine level ++ ")"

/-- Write elements, each on a line of its own. -/
def writeElements (level : Nat) : List Ron → String
  | [] => ""
  | r :: rs => breakLine level ++ write level r ++ "," ++ writeElements level rs

/-- Write the entries of a map, each on a line of its own. -/
def writeEntries (level : Nat) : List (String × Ron) → String
  | [] => ""
  | (k, r) :: es =>
    breakLine level ++ writeText k ++ ": " ++ write level r ++ "," ++ writeEntries level es

/-- Write the fields of a structure, each on a line of its own. -/
def writeFields (level : Nat) : List (String × Ron) → String
  | [] => ""
  | (k, r) :: fs =>
    breakLine level ++ k ++ ": " ++ write level r ++ "," ++ writeFields level fs

end

/-- The laid-out text of a tree, unless it nests too deeply. -/
def toText? (r : Ron) : Option String := if r.need ≤ allowance then .some (write 0 r) else .none

/-! ## Configurations -/

mutual

/-- The tree of a JSON value. -/
def ofJson : Json → Ron
  | .null => .unit
  | .bool b => .bool b
  | .int n => .int n
  | .float x => .float x
  | .string s => .text s
  | .array js => .list (ofItems js)
  | .object ms => .map (ofMembers ms)

/-- The trees of JSON values. -/
def ofItems : List Json → List Ron
  | [] => []
  | j :: rest => ofJson j :: ofItems rest

/-- The trees of the members of an object. -/
def ofMembers : List (String × Json) → List (String × Ron)
  | [] => []
  | (k, v) :: rest => (k, ofJson v) :: ofMembers rest

end

end Ron

end PortGraph
