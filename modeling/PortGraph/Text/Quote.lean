import PortGraph.Text.Unprintable

/-!
# Quoted text

Text between double quotes, in which quotes, backslashes and characters that are not shown as
themselves are written as escapes.  Two spellings are in use: in one an apostrophe stands for
itself, in the other it is escaped too.
-/

set_option autoImplicit false

namespace PortGraph

/-- What a quoted text does with an apostrophe. -/
inductive Apostrophe where
  /-- It stands for itself. -/
  | bare
  /-- It is written behind a backslash. -/
  | escaped
  deriving DecidableEq, Repr

/-- The lower-case hexadecimal digits of a natural. -/
def hexDigits (n : Nat) : String := String.ofList (Nat.toDigits 16 n)

/-- The spelling of one character between quotes. -/
def quoteChar (apostrophe : Apostrophe) (c : Char) : String :=
  if c = '\x00' then "\\0"
  else if c = '\t' then "\\t"
  else if c = '\r' then "\\r"
  else if c = '\n' then "\\n"
  else if c = '"' then "\\\""
  else if c = '\\' then "\\\\"
  else if c = '\'' then (match apostrophe with | .bare => "'" | .escaped => "\\'")
  else if isUnprintable c then "\\u\x7b" ++ hexDigits c.toNat ++ "\x7d"
  else String.singleton c

/-- Text between double quotes. -/
def quoteText (apostrophe : Apostrophe) (s : String) : String :=
  "\"" ++ String.join (s.toList.map (quoteChar apostrophe)) ++ "\""

/-- How text is shown as a value. -/
def showText (s : String) : String := quoteText .bare s

/-- How a file path is shown. -/
def showPath (s : String) : String := quoteText .escaped s

/-- How a list of texts is shown. -/
def showTexts (ss : List String) : String :=
  "[" ++ String.intercalate ", " (ss.map showText) ++ "]"

/-! ## Terminals -/

/-- The spelling of a character on a terminal: one that could command it is written by its number,
in two digits if it is an ASCII character. -/
def terminalChar (c : Char) : String :=
  if c.toNat = 0x07 ∨ c.toNat = 0x08 ∨ c.toNat = 0x0c then "\\x0" ++ hexDigits c.toNat
  else if c.toNat = 0x1b ∨ c.toNat = 0x7f then "\\x" ++ hexDigits c.toNat
  else if 0x80 ≤ c.toNat ∧ c.toNat ≤ 0x9f then "\\u\x7b" ++ hexDigits c.toNat ++ "\x7d"
  else String.singleton c

/-- A text as a terminal may show it. -/
def terminalText (s : String) : String := String.join (s.toList.map terminalChar)

end PortGraph
