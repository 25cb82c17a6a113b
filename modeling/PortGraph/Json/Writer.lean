import PortGraph.Json.Basic
import PortGraph.Number.Layout
import PortGraph.Text.Quote

/-!
# Writing JSON texts

The laid-out form: every item and member on a line of its own, two spaces of indentation for each
level, and a space behind each colon.  Empty arrays and objects take no lines.
-/

set_option autoImplicit false

namespace PortGraph.Json

/-- The spelling of one character between quotes. -/
def writeChar (c : Char) : String :=
  if c = '"' then "\\\""
  else if c = '\\' then "\\\\"
  else if c = '\x08' then "\\b"
  else if c = '\x0c' then "\\f"
  else if c = '\n' then "\\n"
  else if c = '\r' then "\\r"
  else if c = '\t' then "\\t"
  else if c.toNat < 0x10 then "\\u000" ++ hexDigits c.toNat
  else if c.toNat < 0x20 then "\\u00" ++ hexDigits c.toNat
  else String.singleton c

/-- A string between quotes. -/
def writeString (s : String) : String :=
  "\"" ++ String.join (s.toList.map writeChar) ++ "\""

/-- A line break and the indentation of a level. -/
def breakLine (level : Nat) : String :=
  "\n" ++ String.ofList (List.replicate (2 * level) ' ')

mutual

/-- Write a value whose brackets stand at the given level. -/
def write (level : Nat) : Json → String
  | .null => "null"
  | .bool b => if b then "true" else "false"
  | .int n => toString n
  | .float x => FloatLayout.json.writeFloat x
  | .string s => writeString s
  | .array [] => "[]"
  | .array (j :: js) => "[" ++ writeItems (level + 1) (j :: js) ++ breakLine level ++ "]"
  | .object [] => "\x7b\x7d"
  | .object (m :: ms) =>
    "\x7b" ++ writeMembers (level + 1) (m :: ms) ++ breakLine level ++ "\x7d"

/-- Write items, each on a line of its own. -/
def writeItems (level : Nat) : List Json → String
  | [] => ""
  | [j] => breakLine level ++ write level j
  | j :: js => breakLine level ++ write level j ++ "," ++ writeItems level js

/-- Write members, each on a line of its own. -/
def writeMembers (level : Nat) : List (String × Json) → String
  | [] => ""
  | [(k, j)] => breakLine level ++ writeString k ++ ": " ++ write level j
  | (k, j) :: ms =>
    breakLine level ++ writeString k ++ ": " ++ write level j ++ "," ++ writeMembers level ms

end

/-- The laid-out text of a value. -/
def toText (j : Json) : String := write 0 j

end PortGraph.Json
