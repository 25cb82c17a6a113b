import PortGraph.Json.Shape
import PortGraph.Number.Scaled
import PortGraph.Record

/-!
# Reading JSON texts

Readers take the characters from the left and report the first problem they meet: the text ends
too early, it is not JSON, or it is JSON of the wrong shape.  What stands behind the first problem
is not looked at.

Arrays and objects may nest a limited number of levels, which readers carry with them as the
number of levels left; only the values of unknown members, which are skipped without being built,
nest without limit.

Loops over the text carry a count of steps that is taken from the length of the text, and each
round takes at least one character, so the count never runs out.
-/

set_option autoImplicit false

namespace PortGraph.Json

/-- Why a text is refused. -/
inductive ReadError where
  /-- The text ends too early. -/
  | endOfText
  /-- The text is not JSON, or nests too deeply. -/
  | malformed
  /-- The text is JSON so far, but of the wrong shape. -/
  | shape (error : ShapeError)
  deriving DecidableEq

/-- What a reader gives: its result and the characters behind it. -/
abbrev Read (α : Type) : Type := Except ReadError (α × List Char)

namespace Reader

/-! ## Characters -/

/-- The characters that may stand between tokens. -/
def isBlank (c : Char) : Bool := c = ' ' ∨ c = '\n' ∨ c = '\t' ∨ c = '\r'

/-- Skip blanks. -/
def skipBlanks (cs : List Char) : List Char := cs.dropWhile isBlank

/-- The value of a hexadecimal digit. -/
def hexValue? (c : Char) : Option Nat :=
  if '0' ≤ c ∧ c ≤ '9' then some (c.toNat - '0'.toNat)
  else if 'a' ≤ c ∧ c ≤ 'f' then some (c.toNat - 'a'.toNat + 10)
  else if 'A' ≤ c ∧ c ≤ 'F' then some (c.toNat - 'A'.toNat + 10)
  else none

/-- The number written by hexadecimal digits. -/
def hexNumber? (cs : List Char) : Option Nat :=
  cs.foldl (fun n c ↦ do return 16 * (← n) + (← hexValue? c)) (some 0)

/-- The number of bytes of a text in UTF-8. -/
def byteCount (cs : List Char) : Nat := cs.foldl (fun n c ↦ n + c.utf8Size) 0

/-- Read the remaining characters of a keyword. -/
def keyword : List Char → List Char → Except ReadError (List Char)
  | [], cs => .ok cs
  | _ :: _, [] => .error .endOfText
  | k :: ks, c :: cs => if c = k then keyword ks cs else .error .malformed

/-! ## Strings -/

/-- Read a unit of four hexadecimal digits. -/
def hexUnit (cs : List Char) : Read Nat :=
  if byteCount cs < 4 then .error .endOfText
  else match hexNumber? (cs.take 4) with
    | some n => .ok (n, cs.drop 4)
    | none => .error .malformed

/-- Read the rest of a character escaped by its number, which may take a pair of units. -/
def unicodeEscape (cs : List Char) : Read Char :=
  match hexUnit cs with
  | .error e => .error e
  | .ok (n, cs) =>
    if 0xDC00 ≤ n ∧ n ≤ 0xDFFF then .error .malformed
    else if n < 0xD800 ∨ 0xDBFF < n then .ok (Char.ofNat n, cs)
    else match cs with
      | [] => .error .endOfText
      | ['\\'] => .error .endOfText
      | '\\' :: 'u' :: cs =>
        match hexUnit cs with
        | .error e => .error e
        | .ok (m, cs) =>
          if m < 0xDC00 ∨ 0xDFFF < m then .error .malformed
          else .ok (Char.ofNat ((n - 0xD800) * 0x400 + (m - 0xDC00) + 0x10000), cs)
      | _ => .error .malformed

/-- The character behind a backslash that stands for one character. -/
def simpleEscape? (c : Char) : Option Char :=
  if c = '"' ∨ c = '\\' ∨ c = '/' then some c
  else if c = 'b' then some '\x08'
  else if c = 'f' then some '\x0c'
  else if c = 'n' then some '\n'
  else if c = 'r' then some '\r'
  else if c = 't' then some '\t'
  else none

/-- Read the characters of a string up to its closing quote, in reverse onto `acc`. -/
def stringBody : Nat → List Char → List Char → Read String
  | 0, _, _ => .error .endOfText
  | _ + 1, _, [] => .error .endOfText
  | steps + 1, acc, c :: cs =>
    if c = '"' then .ok (String.ofList acc.reverse, cs)
    else if c = '\\' then
      match cs with
      | [] => .error .endOfText
      | d :: cs =>
        if d = 'u' then
          match unicodeEscape cs with
          | .error e => .error e
          | .ok (x, cs) => stringBody steps (x :: acc) cs
        else match simpleEscape? d with
          | some x => stringBody steps (x :: acc) cs
          | none => .error .malformed
    else if c.toNat < 0x20 then .error .malformed
    else stringBody steps (c :: acc) cs

/-- Read a string behind its opening quote. -/
def quoted (cs : List Char) : Read String := stringBody (cs.length + 1) [] cs

/-- Skip a string behind its opening quote; characters escaped by their number need not pair
up. -/
def skipString : Nat → List Char → Except ReadError (List Char)
  | 0, _ => .error .endOfText
  | _ + 1, [] => .error .endOfText
  | steps + 1, c :: cs =>
    if c = '"' then .ok cs
    else if c = '\\' then
      match cs with
      | [] => .error .endOfText
      | d :: cs =>
        if d = 'u' then
          match hexUnit cs with
          | .error e => .error e
          | .ok (_, cs) => skipString steps cs
        else if (simpleEscape? d).isSome then skipString steps cs
        else .error .malformed
    else if c.toNat < 0x20 then .error .malformed
    else skipString steps cs

/-! ## Numbers -/

/-- The float of a sign, digits around a point and an exponent, if it is finite. -/
def realNumber (negative : Bool) (whole fraction : List Char) (exponent : Int) :
    Except ReadError Json :=
  match (Decimal.ofLeadingParts negative whole fraction exponent).scaledFloat? with
  | some x => .ok (.float x)
  | none => .error .malformed

/-- The integer value of a sign and a magnitude, a float if it does not fit 64 bits or is a
negative zero. -/
def wholeNumber (negative : Bool) (digits : List Char) : Except ReadError Json :=
  let n : Int := naturalOfDigits digits
  let signed := if negative then -n else n
  if fitsInteger signed ∧ ¬(negative ∧ n = 0) then .ok (.int signed)
  else realNumber negative digits [] 0

/-- Read the exponent of a number behind its mark. -/
def exponent (cs : List Char) : Read Int :=
  let (negative, cs) := Decimal.splitSign cs
  let digits := cs.takeWhile Char.isDigit
  let n : Int := naturalOfDigits digits
  if digits.isEmpty then .error (if cs.isEmpty then .endOfText else .malformed)
  else .ok (if negative then -n else n, cs.dropWhile Char.isDigit)

/-- Read what stands behind the point, if there is one, and the exponent, if there is one. -/
def fractionAndExponent (negative : Bool) (whole cs : List Char) : Read Json :=
  match cs with
  | '.' :: cs =>
    let fraction := cs.takeWhile Char.isDigit
    let rest := cs.dropWhile Char.isDigit
    if fraction.isEmpty then .error (if rest.isEmpty then .endOfText else .malformed)
    else match rest with
      | c :: cs =>
        if c = 'e' ∨ c = 'E' then
          match exponent cs with
          | .error e => .error e
          | .ok (n, cs) => (realNumber negative whole fraction n).map (·, cs)
        else (realNumber negative whole fraction 0).map (·, rest)
      | [] => (realNumber negative whole fraction 0).map (·, rest)
  | c :: rest =>
    if c = 'e' ∨ c = 'E' then
      match exponent rest with
      | .error e => .error e
      | .ok (n, rest) => (realNumber negative whole [] n).map (·, rest)
    else (wholeNumber negative whole).map (·, cs)
  | [] => (wholeNumber negative whole).map (·, cs)

/-- Read a number behind its sign.  A leading zero stands alone. -/
def magnitude (negative : Bool) (cs : List Char) : Read Json :=
  match cs with
  | [] => .error .endOfText
  | '0' :: rest =>
    if (rest.head?.map Char.isDigit).getD false then .error .malformed
    else fractionAndExponent negative ['0'] rest
  | c :: _ =>
    if c.isDigit then
      fractionAndExponent negative (cs.takeWhile Char.isDigit) (cs.dropWhile Char.isDigit)
    else .error .malformed

/-- Whether a number starts with this character. -/
def startsNumber (c : Char) : Bool := c = '-' || c.isDigit

/-- Read a number. -/
def number : List Char → Read Json
  | '-' :: cs => magnitude true cs
  | cs => magnitude false cs

/-- Skip the exponent of a number, if there is one. -/
def skipExponent (cs : List Char) : Except ReadError (List Char) :=
  match cs with
  | c :: rest =>
    if c = 'e' ∨ c = 'E' then
      let (_, rest) := Decimal.splitSign rest
      if (rest.takeWhile Char.isDigit).isEmpty then .error .malformed
      else .ok (rest.dropWhile Char.isDigit)
    else .ok cs
  | [] => .ok cs

/-- Skip what follows the whole part of a number. -/
def skipFraction (cs : List Char) : Except ReadError (List Char) :=
  match cs with
  | '.' :: rest =>
    if (rest.takeWhile Char.isDigit).isEmpty then .error .malformed
    else skipExponent (rest.dropWhile Char.isDigit)
  | _ => skipExponent cs

/-- Skip a number.  A number cut short by the end of the text counts as malformed here. -/
def skipNumber (cs : List Char) : Except ReadError (List Char) :=
  let cs := match cs with
    | '-' :: rest => rest
    | _ => cs
  match cs with
  | '0' :: rest =>
    if (rest.head?.map Char.isDigit).getD false then .error .malformed else skipFraction rest
  | c :: _ =>
    if c.isDigit then skipFraction (cs.dropWhile Char.isDigit) else .error .malformed
  | [] => .error .malformed

/-! ## Skipping values -/

/-- What stands around a value that is being skipped. -/
inductive Bracket where
  | array
  | object
  deriving DecidableEq

/-- What may come next while a value is being skipped. -/
inductive Expecting where
  /-- A value. -/
  | value
  /-- The first item of a bracket, or its end. -/
  | first
  /-- A comma, or the end of a bracket. -/
  | next
  deriving DecidableEq

/-- Read the colon behind a member's name. -/
def colon (cs : List Char) : Except ReadError (List Char) :=
  match skipBlanks cs with
  | [] => .error .endOfText
  | c :: cs => if c = ':' then .ok cs else .error .malformed

/-- Skip a member's name and colon if the bracket around is an object. -/
def skipName (bracket : Bracket) (cs : List Char) : Except ReadError (List Char) :=
  match bracket with
  | .array => .ok cs
  | .object =>
    match skipBlanks cs with
    | [] => .error .endOfText
    | c :: cs =>
      if c = '"' then
        match skipString (cs.length + 1) cs with
        | .error e => .error e
        | .ok cs => colon cs
      else .error .malformed

/-- Skip until the outermost bracket is closed. -/
def skip : Nat → Expecting → List Bracket → List Char → Except ReadError (List Char)
  | 0, _, _, _ => .error .endOfText
  | steps + 1, .value, open_, cs =>
    match skipBlanks cs with
    | [] => .error .endOfText
    | c :: cs =>
      if c = '[' then skip steps .first (.array :: open_) cs
      else if c = '{' then skip steps .first (.object :: open_) cs
      else
        let rest := if c = '"' then skipString (cs.length + 1) cs
          else if c = 'n' then keyword ['u', 'l', 'l'] cs
          else if c = 't' then keyword ['r', 'u', 'e'] cs
          else if c = 'f' then keyword ['a', 'l', 's', 'e'] cs
          else if startsNumber c then skipNumber (c :: cs)
          else .error .malformed
        match rest with
        | .error e => .error e
        | .ok cs => skip steps .next open_ cs
  | _ + 1, _, [], cs => .ok cs
  | steps + 1, expecting, bracket :: outer, cs =>
    match skipBlanks cs with
    | [] => .error .endOfText
    | c :: cs =>
      if (c = ']' ∧ bracket = .array) ∨ (c = '}' ∧ bracket = .object) then
        skip steps .next outer cs
      else if expecting = .first then
        match skipName bracket (c :: cs) with
        | .error e => .error e
        | .ok cs => skip steps .value (bracket :: outer) cs
      else if c = ',' then
        match skipName bracket cs with
        | .error e => .error e
        | .ok cs => skip steps .value (bracket :: outer) cs
      else .error .malformed

/-- Skip a value. -/
def skipValue (cs : List Char) : Except ReadError (List Char) :=
  skip (2 * cs.length + 2) .value [] cs

/-! ## Brackets -/

/-- Step to the next item of a bracket: whether there is one, and the characters from it, or from
the closing character, on. -/
def nextItem (close : Char) (first : Bool) (cs : List Char) : Read Bool :=
  match skipBlanks cs with
  | [] => .error .endOfText
  | c :: rest =>
    if c = close then .ok (false, c :: rest)
    else if first then .ok (true, c :: rest)
    else if c = ',' then
      match skipBlanks rest with
      | [] => .error .endOfText
      | d :: rest => if d = close then .error .malformed else .ok (true, d :: rest)
    else .error .malformed

/-- Read the closing character of a bracket. -/
def close (c : Char) (cs : List Char) : Except ReadError (List Char) :=
  match skipBlanks cs with
  | [] => .error .endOfText
  | d :: cs => if d = c then .ok cs else .error .malformed

/-- Read a member's name and colon. -/
def memberName (cs : List Char) : Read String :=
  match cs with
  | [] => .error .endOfText
  | c :: cs =>
    if c = '"' then
      match quoted cs with
      | .error e => .error e
      | .ok (name, cs) => (colon cs).map (name, ·)
    else .error .malformed

/-- Read the items of an array up to its closing bracket. -/
def items {α : Type} (read : List Char → Read α) : Nat → Bool → List Char → Read (List α)
  | 0, _, _ => .error .endOfText
  | steps + 1, first, cs =>
    match nextItem ']' first cs with
    | .error e => .error e
    | .ok (false, cs) => (close ']' cs).map ([], ·)
    | .ok (true, cs) =>
      match read cs with
      | .error e => .error e
      | .ok (a, cs) => (items read steps false cs).map fun r ↦ (a :: r.1, r.2)

/-- Read the members of an object up to its closing bracket. -/
def members {α : Type} (read : List Char → Read α) :
    Nat → Bool → List Char → Read (List (String × α))
  | 0, _, _ => .error .endOfText
  | steps + 1, first, cs =>
    match nextItem '}' first cs with
    | .error e => .error e
    | .ok (false, cs) => (close '}' cs).map ([], ·)
    | .ok (true, cs) =>
      match memberName cs with
      | .error e => .error e
      | .ok (name, cs) =>
        match read cs with
        | .error e => .error e
        | .ok (a, cs) => (members read steps false cs).map fun r ↦ ((name, a) :: r.1, r.2)

/-! ## Values -/

/-- Read any value, at most `levels` of nesting below the limit left.  Objects come out in
canonical form. -/
def value : Nat → List Char → Read Json
  | levels, cs =>
    match skipBlanks cs with
    | [] => .error .endOfText
    | c :: cs =>
      if c = 'n' then (keyword ['u', 'l', 'l'] cs).map (.null, ·)
      else if c = 't' then (keyword ['r', 'u', 'e'] cs).map (.bool true, ·)
      else if c = 'f' then (keyword ['a', 'l', 's', 'e'] cs).map (.bool false, ·)
      else if c = '"' then (quoted cs).map fun r ↦ (.string r.1, r.2)
      else if startsNumber c then number (c :: cs)
      else if c = '[' then
        match levels with
        | 0 => .error .malformed
        | levels + 1 =>
          (items (value levels) (cs.length + 1) true cs).map fun r ↦ (.array r.1, r.2)
      else if c = '{' then
        match levels with
        | 0 => .error .malformed
        | levels + 1 =>
          (members (value levels) (cs.length + 1) true cs).map fun r ↦
            (.object (sortMembers r.1), r.2)
      else .error .malformed

/-- The levels of nesting a text may have. -/
def maxLevels : Nat := 127

/-- Report a value of another sort than expected; it is read as far as its report needs. -/
def unexpected {α : Type} (expected : String) (cs : List Char) : Read α :=
  match cs with
  | [] => .error .endOfText
  | c :: _ =>
    let found : Except ReadError Json :=
      if c = '[' then .ok (.array [])
      else if c = '{' then .ok (.object [])
      else (value 0 cs).map Prod.fst
    match found with
    | .error e => .error e
    | .ok j => .error (.shape (.invalidType j expected))

end Reader

/-! ## Structures -/

/-- A reader of JSON texts, which is told how many more levels may be nested. -/
def TextReader (α : Type) : Type := Nat → List Char → Read α

namespace TextReader

open Reader

/-- Read a text. -/
def text : TextReader String := fun _ cs ↦
  match skipBlanks cs with
  | '"' :: cs => quoted cs
  | cs => unexpected "a string" cs

/-- Read a natural below `2 ^ 32`. -/
def word : TextReader UInt32 := fun _ cs ↦
  match skipBlanks cs with
  | [] => .error .endOfText
  | c :: cs =>
    if startsNumber c then
      match number (c :: cs) with
      | .error e => .error e
      | .ok (.int n, cs) =>
        if 0 ≤ n ∧ n < UInt32.size then .ok (UInt32.ofNat n.toNat, cs)
        else .error (.shape (.invalidValue (.int n) "u32"))
      | .ok (j, _) => .error (.shape (.invalidType j "u32"))
    else unexpected "u32" (c :: cs)

/-- Read a value or null. -/
def option {α : Type} (read : TextReader α) : TextReader (Option α) := fun levels cs ↦
  match skipBlanks cs with
  | 'n' :: cs => (keyword ['u', 'l', 'l'] cs).map (none, ·)
  | cs => (read levels cs).map fun r ↦ (some r.1, r.2)

/-- Read a sequence. -/
def list {α : Type} (read : TextReader α) : TextReader (List α) := fun levels cs ↦
  match skipBlanks cs, levels with
  | '[' :: _, 0 => .error .malformed
  | '[' :: cs, levels + 1 => items (read levels) (cs.length + 1) true cs
  | cs, _ => unexpected "a sequence" cs

variable {R : Type}

/-- Read the fields of a structure in order, and the closing bracket behind them. -/
def positional (record : Record TextReader R) (levels : Nat) :
    Nat → List (Field TextReader R) → R → List Char → Read R
  | _, [], acc, cs => (close ']' cs).map (acc, ·)
  | position, f :: fs, acc, cs =>
    match nextItem ']' (position = 0) cs with
    | .error e => .error e
    | .ok (false, cs) =>
      if f.required then .error (.shape (.invalidLength position record.titleWithSize))
      else positional record levels (position + 1) fs acc cs
    | .ok (true, cs) =>
      match f.read levels cs with
      | .error e => .error e
      | .ok (update, cs) => positional record levels (position + 1) fs (update acc) cs

/-- Read the members of a structure and the closing bracket behind them. -/
def named (record : Record TextReader R) (levels : Nat) :
    Nat → Bool → List String → R → List Char → Read R
  | 0, _, _, _, _ => .error .endOfText
  | steps + 1, first, seen, acc, cs =>
    match nextItem '}' first cs with
    | .error e => .error e
    | .ok (false, cs) =>
      match record.missing? seen with
      | some name => .error (.shape (.missingField name))
      | none => (close '}' cs).map (acc, ·)
    | .ok (true, cs) =>
      match cs with
      | [] => .error .endOfText
      | c :: cs =>
        if c ≠ '"' then .error .malformed
        else match quoted cs with
          | .error e => .error e
          | .ok (name, cs) =>
            match record.field? name with
            | none =>
              match colon cs with
              | .error e => .error e
              | .ok cs =>
                match skipValue cs with
                | .error e => .error e
                | .ok cs => named record levels steps false seen acc cs
            | some f =>
              if seen.contains name then .error (.shape (.duplicateField name))
              else match colon cs with
                | .error e => .error e
                | .ok cs =>
                  match f.read levels cs with
                  | .error e => .error e
                  | .ok (update, cs) =>
                    named record levels steps false (name :: seen) (update acc) cs

/-- Read a structure. -/
def record (record : Record TextReader R) : TextReader R := fun levels cs ↦
  match skipBlanks cs, levels with
  | '[' :: _, 0 => .error .malformed
  | '{' :: _, 0 => .error .malformed
  | '[' :: cs, levels + 1 => positional record levels 0 record.fields record.blank cs
  | '{' :: cs, levels + 1 => named record levels (cs.length + 1) true [] record.blank cs
  | cs, _ => unexpected record.title cs

instance : RecordReader TextReader where
  map f read := fun levels cs ↦ (read levels cs).map fun r ↦ (f r.1, r.2)
  text := text
  word := word
  payload := value
  option := option
  list := list
  record := record

/-- Read a whole text. -/
def run {α : Type} (read : TextReader α) (levels : Nat) (s : String) : Except ReadError α :=
  match read levels s.toList with
  | .error e => .error e
  | .ok (a, cs) => if (skipBlanks cs).isEmpty then .ok a else .error .malformed

end TextReader

end PortGraph.Json
