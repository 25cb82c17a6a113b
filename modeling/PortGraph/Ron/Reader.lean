import PortGraph.Json.Shape
import PortGraph.Number.Decimal
import PortGraph.Record
import PortGraph.Text.Identifier

/-!
# Reading RON texts

The readers of RON carry a `Context`: which of the language's extensions a text has switched on,
and how many more brackets, elements and `Some` marks may be opened.

A structure is read by the names of its fields; a payload is read by its own shape alone, and is
brought into the form of a JSON value: structures with names become objects, tuples become arrays,
a bare name and a number that is not finite become null.

By one extension the brackets of a `Some` mark serve the marked value too, so that `Some(a: 1)` is a
structure and `Some(1, 2)` a tuple.  Whether they do is told by looking ahead to the closing one.

Loops over the text carry a count of steps that is taken from the length of the text, and each
round takes at least one character, so the count never runs out.
-/

set_option autoImplicit false

namespace PortGraph.Ron

/-- Why a text is refused. -/
inductive ReadError where
  /-- The text ends too early. -/
  | endOfText
  /-- The text is not RON. -/
  | malformed
  /-- Too many brackets and elements enclose one another. -/
  | tooDeep
  /-- The text has another shape than expected. -/
  | shape (error : ShapeError)
  deriving DecidableEq

/-- The report of a refusal. -/
def ReadError.message : ReadError → String
  | .endOfText => "unexpected end of the text"
  | .malformed => "unexpected character"
  | .tooDeep => "too many nested values"
  | .shape e => e.message

/-- What a reader carries with it. -/
structure Context where
  /-- Whether a present value may stand without its `Some` mark. -/
  implicitSome : Bool := false
  /-- Whether structures must carry their name. -/
  explicitNames : Bool := false
  /-- Whether `Some` marks also serve as the brackets of the value they mark. -/
  sharedBrackets : Bool := false
  /-- Whether the value to be read is the one behind such a mark. -/
  isMarked : Bool := false
  /-- How many more brackets, elements and `Some` marks may be opened. -/
  budget : Nat := 128
  deriving DecidableEq, Repr

/-- What a reader gives: its result and the characters behind it. -/
abbrev Read (α : Type) : Type := Except ReadError (α × List Char)

namespace Reader

/-! ## Blanks and comments -/

/-- The characters that may stand between tokens. -/
def isBlank (c : Char) : Bool :=
  c = ' ' || (0x09 ≤ c.toNat && c.toNat ≤ 0x0D) || c.toNat = 0x85 || c.toNat = 0x200E
    || c.toNat = 0x200F || c.toNat = 0x2028 || c.toNat = 0x2029

/-- Skip the rest of a comment in which `level` comments are open. -/
def blockComment : Nat → List Char → Except ReadError (List Char)
  | 0, cs => .ok cs
  | level + 1, '*' :: '/' :: cs => blockComment level cs
  | level + 1, '/' :: '*' :: cs => blockComment (level + 2) cs
  | level + 1, _ :: cs => blockComment (level + 1) cs
  | _ + 1, [] => .error .endOfText
  termination_by _ cs => cs.length

/-- Skip blanks and comments, in at most the given number of rounds. -/
def blanks : Nat → List Char → Except ReadError (List Char)
  | 0, cs => .ok cs
  | steps + 1, cs =>
    match cs.dropWhile isBlank with
    | '/' :: '/' :: cs => blanks steps (cs.dropWhile (· ≠ '\n'))
    | '/' :: '*' :: cs =>
      match blockComment 1 cs with
      | .error e => .error e
      | .ok cs => blanks steps cs
    | '/' :: [] => .error .endOfText
    | '/' :: _ => .error .malformed
    | cs => .ok cs

/-- Skip blanks and comments. -/
def skipBlanks (cs : List Char) : Except ReadError (List Char) := blanks (cs.length + 1) cs

/-! ## Characters -/

/-- Read one character. -/
def char (c : Char) : List Char → Except ReadError (List Char)
  | [] => .error .endOfText
  | d :: cs => if d = c then .ok cs else .error .malformed

/-- Read a given text, if it stands here. -/
def string? (s : List Char) (cs : List Char) : Option (List Char) :=
  if s.isPrefixOf cs then some (cs.drop s.length) else none

/-- Whether an identifier goes on here. -/
def continues (cs : List Char) : Bool := (cs.head?.map isIdentifierTail).getD false

/-- Read a given word, if it stands here as a whole. -/
def word? (s : String) (cs : List Char) : Option (List Char) :=
  match string? s.toList cs with
  | some rest => if continues rest then none else some rest
  | none => none

/-- Read the first of the given words that stands here as a whole. -/
def anyWord? (words : List String) (cs : List Char) : Option (List Char) :=
  words.findSome? (word? · cs)

/-- The characters of an identifier behind the mark `r#`. -/
def isRawTail (c : Char) : Bool := isIdentifierTail c || c = '.' || c = '+' || c = '-'

/-- Whether a quoted text with a mark in front stands here. -/
def startsMarkedText : List Char → Bool
  | 'r' :: '"' :: _ => true
  | 'b' :: '"' :: _ => true
  | 'b' :: '\'' :: _ => true
  | 'b' :: 'r' :: '"' :: _ => true
  | 'b' :: 'r' :: '#' :: _ => true
  | _ => false

/-- Read an identifier. -/
def identifier? (cs : List Char) : Option (String × List Char) :=
  if startsMarkedText cs then none
  else match cs with
    | 'r' :: '#' :: cs =>
      let name := cs.takeWhile isRawTail
      if name.isEmpty then none else some (String.ofList name, cs.dropWhile isRawTail)
    | c :: _ =>
      if !isIdentifierStart c then none
      else
        let rest := cs.dropWhile isIdentifierTail
        if (rest.head?.map isRawTail).getD false then none
        else some (String.ofList (cs.takeWhile isIdentifierTail), rest)
    | [] => none

/-- Read an identifier that has to stand here. -/
def identifier (cs : List Char) : Read String :=
  match cs with
  | [] => .error .endOfText
  | _ => match identifier? cs with
    | some r => .ok r
    | none => .error .malformed

/-- Read a comma, if there is one, and the blanks around it. -/
def comma (cs : List Char) : Read Bool :=
  match skipBlanks cs with
  | .error e => .error e
  | .ok (',' :: cs) => (skipBlanks cs).map (true, ·)
  | .ok cs => .ok (false, cs)

/-! ## Quoted text -/

/-- The value of a hexadecimal digit. -/
def hexValue? (c : Char) : Option Nat :=
  if '0' ≤ c ∧ c ≤ '9' then some (c.toNat - '0'.toNat)
  else if 'a' ≤ c ∧ c ≤ 'f' then some (c.toNat - 'a'.toNat + 10)
  else if 'A' ≤ c ∧ c ≤ 'F' then some (c.toNat - 'A'.toNat + 10)
  else none

/-- The number written by hexadecimal digits. -/
def hexNumber? (cs : List Char) : Option Nat :=
  cs.foldl (fun n c ↦ do return 16 * (← n) + (← hexValue? c)) (some 0)

/-- Read a byte of two hexadecimal digits. -/
def hexByte : List Char → Read UInt8
  | c :: d :: cs =>
    match hexNumber? [c, d] with
    | some n => .ok (UInt8.ofNat n, cs)
    | none => .error .malformed
  | _ => .error .endOfText

/-- The character encoded by bytes, if they encode exactly one. -/
def charOfBytes? (bytes : List UInt8) : Option Char :=
  match String.fromUTF8? (ByteArray.mk bytes.toArray) with
  | some s => match s.toList with
    | [c] => some c
    | _ => none
  | none => none

/-- Read bytes escaped one by one until they make up a character, at most `more` of them. -/
def byteEscapes : Nat → List UInt8 → List Char → Read Char
  | more, bytes, cs =>
    match charOfBytes? bytes with
    | some c => .ok (c, cs)
    | none =>
      match more, cs with
      | more + 1, '\\' :: 'x' :: cs =>
        match hexByte cs with
        | .error e => .error e
        | .ok (b, cs) => byteEscapes more (bytes ++ [b]) cs
      | _, _ => .error .malformed

/-- Read the number of a character between braces. -/
def bracedEscape (cs : List Char) : Read Char :=
  match cs with
  | [] => .error .endOfText
  | '\x7b' :: cs =>
    let digits := (cs.take 6).takeWhile (fun c ↦ (hexValue? c).isSome)
    match hexNumber? digits, cs.drop digits.length with
    | _, [] => .error .endOfText
    | some n, '\x7d' :: cs =>
      if digits.isEmpty ∨ !(Nat.isValidChar n) then .error .malformed else .ok (Char.ofNat n, cs)
    | _, _ => .error .malformed
  | _ => .error .malformed

/-- The character that a letter behind a backslash stands for. -/
def simpleEscape? (c : Char) : Option Char :=
  if c = '\'' ∨ c = '"' ∨ c = '\\' then some c
  else if c = 'n' then some '\n'
  else if c = 'r' then some '\r'
  else if c = 't' then some '\t'
  else if c = '0' then some '\x00'
  else none

/-- Read an escape behind its backslash.  A character may take up to `bytes` escaped bytes. -/
def escape (bytes : Nat) : List Char → Read Char
  | [] => .error .endOfText
  | 'u' :: cs => bracedEscape cs
  | 'x' :: cs =>
    match hexByte cs with
    | .error e => .error e
    | .ok (b, cs) => byteEscapes (bytes - 1) [b] cs
  | c :: cs =>
    match simpleEscape? c with
    | some x => .ok (x, cs)
    | none => .error .malformed

/-- Read the characters of a text up to its closing quote, in reverse onto `acc`. -/
def textBody : Nat → List Char → List Char → Read String
  | 0, _, _ => .error .endOfText
  | _ + 1, _, [] => .error .endOfText
  | steps + 1, acc, c :: cs =>
    if c = '"' then .ok (String.ofList acc.reverse, cs)
    else if c = '\\' then
      match escape 4 cs with
      | .error e => .error e
      | .ok (x, cs) => textBody steps (x :: acc) cs
    else textBody steps (c :: acc) cs

/-- Read the characters of a raw text up to its ending. -/
def rawBody (ending : List Char) : List Char → Read String
  | [] => .error .endOfText
  | c :: cs =>
    match string? ending (c :: cs) with
    | some rest => .ok ("", rest)
    | none => (rawBody ending cs).map fun r ↦ (String.singleton c ++ r.1, r.2)

/-- Read a raw text behind its mark. -/
def rawText (cs : List Char) : Read String :=
  let hashes := cs.takeWhile (· = '#')
  match char '"' (cs.dropWhile (· = '#')) with
  | .error e => .error e
  | .ok cs => rawBody ('"' :: hashes) cs

/-- Read a quoted text. -/
def quoted (cs : List Char) : Read String :=
  match cs with
  | [] => .error .endOfText
  | '"' :: cs => textBody (cs.length + 1) [] cs
  | 'r' :: cs => rawText cs
  | _ => .error .malformed

/-- Read a character between apostrophes, which an escaped byte makes up by itself. -/
def charLiteral (cs : List Char) : Read Char :=
  match cs with
  | '\'' :: '\\' :: cs =>
    match escape 1 cs with
    | .error e => .error e
    | .ok (c, cs) => (char '\'' cs).map (c, ·)
  | '\'' :: c :: cs => (char '\'' cs).map (c, ·)
  | _ => .error .malformed

/-! ## Byte literals -/

/-- Read a byte between apostrophes, which is an ASCII character or an escape other than that of a
character by its number. -/
def byte : List Char → Read UInt8
  | [] => .error .endOfText
  | '\\' :: [] => .error .endOfText
  | '\\' :: 'x' :: cs => hexByte cs
  | '\\' :: c :: cs =>
    match simpleEscape? c with
    | some x => .ok (x.val.toUInt8, cs)
    | none => .error .malformed
  | c :: cs => if c.toNat < 0x80 then .ok (c.val.toUInt8, cs) else .error .malformed

/-- Skip an escape of a byte text behind its backslash. -/
def skipEscape : List Char → Except ReadError (List Char)
  | 'x' :: cs => (hexByte cs).map Prod.snd
  | cs => (escape 1 cs).map Prod.snd

/-- Skip the bytes of a byte text up to its closing quote. -/
def skipBytes : Nat → List Char → Except ReadError (List Char)
  | 0, _ => .error .endOfText
  | steps + 1, cs =>
    match cs with
    | '"' :: cs => .ok cs
    | '\\' :: cs =>
      match skipEscape cs with
      | .error e => .error e
      | .ok cs => skipBytes steps cs
    | _ :: cs => skipBytes steps cs
    | [] => .error .endOfText

/-- Skip a byte text behind the mark `b`. -/
def skipByteText (cs : List Char) : Except ReadError (List Char) :=
  match cs with
  | '"' :: cs => skipBytes (cs.length + 1) cs
  | 'r' :: cs => (rawText cs).map Prod.snd
  | _ => .error .malformed

/-! ## Numbers -/

/-- A type of integers, by its mark behind a number. -/
structure IntegerType where
  /-- The mark. -/
  mark : String
  /-- The least integer. -/
  low : Int
  /-- One more than the greatest integer. -/
  high : Int

/-- The signed and unsigned types of a width. -/
def IntegerType.ofWidth (bits : Nat) : List IntegerType :=
  let half := Nat.pow 2 (bits - 1)
  [⟨"i" ++ toString bits, -half, half⟩, ⟨"u" ++ toString bits, 0, 2 * half⟩]

/-- The types a number may be marked with. -/
def integerTypes : List IntegerType := [8, 16, 32, 64].flatMap IntegerType.ofWidth

/-- The characters taken together as the digits of an integer. -/
def isIntegerChar (c : Char) : Bool := (hexValue? c).isSome || c = '_'

/-- The characters taken together as a number with a point or exponent. -/
def isFloatChar (c : Char) : Bool :=
  c.isDigit || c = 'e' || c = 'E' || c = '.' || c = '+' || c = '-' || c = '_'

/-- The natural written by digits of a base, underscores between them being left out. -/
def naturalInBase? (base : Nat) (cs : List Char) : Option Nat :=
  (cs.filter (· ≠ '_')).foldl (fun n c ↦ do
    let d ← hexValue? c
    if d < base then return base * (← n) + d else none) (some 0)

/-- Read the digits of an integer, whose base a mark may give. -/
def naturalNumber (cs : List Char) : Read Nat :=
  let (base, cs) := match cs with
    | '0' :: 'b' :: cs => (2, cs)
    | '0' :: 'o' :: cs => (8, cs)
    | '0' :: 'x' :: cs => (16, cs)
    | cs => (10, cs)
  let digits := cs.takeWhile isIntegerChar
  match digits, naturalInBase? base digits with
  | [], _ => .error .malformed
  | '_' :: _, _ => .error .malformed
  | _, some n => .ok (n, cs.dropWhile isIntegerChar)
  | _, none => .error .malformed

/-- Read an integer, and the type it is marked with. -/
def integer (cs : List Char) : Read (Int × Option IntegerType) :=
  match cs with
  | 'b' :: '\'' :: cs =>
    match byte cs with
    | .error e => .error e
    | .ok (b, cs) => (char '\'' cs).map ((b.toNat, some ⟨"u8", 0, 256⟩), ·)
  | _ =>
    let (negative, digits) := Decimal.splitSign cs
    match naturalNumber digits with
    | .error e => .error e
    | .ok (n, rest) =>
      let signed : Int := if negative then -(n : Int) else n
      let marked := digits.dropWhile isIntegerChar
      match integerTypes.findSome? (fun t ↦ (word? t.mark marked).map (t, ·)) with
      | some (t, rest) =>
        if t.low ≤ signed ∧ signed < t.high then .ok ((signed, some t), rest)
        else .error .malformed
      | none => .ok ((signed, none), rest)

/-- Leave out the underscores of a number, which may stand behind a digit or the exponent mark, but
not behind the point.  A sign leaves it as it was. -/
def dropUnderscores : Bool → List Char → Option (List Char)
  | _, [] => some []
  | allowed, c :: cs =>
    if c = '_' then if allowed then dropUnderscores allowed cs else none
    else
      let allowed := c.isDigit || c = 'e' || c = 'E' || (allowed && c ≠ '.')
      (dropUnderscores allowed cs).map (c :: ·)

/-- The words for numbers that are not finite. -/
def specialWords : List String :=
  ["inf", "+inf", "-inf", "NaN", "+NaN", "-NaN"].flatMap (fun w ↦ [w, w ++ "f32", w ++ "f64"])

/-- Read a number with a point or exponent.  A mark rounds it to 32 bits first. -/
def floatNumber (cs : List Char) : Read Json :=
  match anyWord? specialWords cs with
  | some rest => .ok (.null, rest)
  | none =>
    let run := cs.takeWhile isFloatChar
    let rest := cs.dropWhile isFloatChar
    match (dropUnderscores false run).bind Decimal.ofChars? with
    | none => .error .malformed
    | some d =>
      match word? "f32" rest, word? "f64" rest with
      | some rest, _ => .ok (Json.ofFloat (widen d.toFloat32), rest)
      | none, some rest => .ok (Json.ofFloat d.toFloat, rest)
      | none, none => .ok (Json.ofFloat d.toFloat, rest)

/-- Whether a number is written with a point or exponent, going by its first characters. -/
def looksFloat (cs : List Char) : Bool :=
  let cs := match cs with
    | '+' :: cs => cs
    | '-' :: cs => cs
    | cs => cs
  (cs.takeWhile isIntegerChar).length < (cs.takeWhile isFloatChar).length

/-- Read any number.  An integer that fits no word of 64 bits is read as a float. -/
def number (cs : List Char) : Read Json :=
  if looksFloat cs then floatNumber cs
  else match integer cs with
    | .ok ((n, _), rest) => if Json.fitsInteger n then .ok (.int n, rest) else floatNumber cs
    | .error _ => floatNumber cs

/-! ## Brackets -/

/-- Step to the next part of a bracket, having passed a comma or not: whether there is one. -/
def nextPart (close : Char) (passed : Bool) (cs : List Char) : Read Bool :=
  match skipBlanks cs with
  | .error e => .error e
  | .ok cs =>
    if cs.head? = some close then .ok (false, cs)
    else if passed then .ok (true, cs)
    else .error .malformed

/-- Read the closing character of a bracket. -/
def closing (c : Char) (cs : List Char) : Except ReadError (List Char) :=
  match skipBlanks cs with
  | .error e => .error e
  | .ok cs => char c cs

/-- Read the parts of a bracket and the comma behind each, as far as the closing character. -/
def parts {α : Type} (close : Char) (read : List Char → Read α) :
    Nat → Bool → List Char → Read (List α)
  | 0, _, _ => .error .endOfText
  | steps + 1, passed, cs =>
    match nextPart close passed cs with
    | .error e => .error e
    | .ok (false, cs) => .ok ([], cs)
    | .ok (true, cs) =>
      match read cs with
      | .error e => .error e
      | .ok (a, cs) =>
        match comma cs with
        | .error e => .error e
        | .ok (passed, cs) => (parts close read steps passed cs).map fun r ↦ (a :: r.1, r.2)

/-- Read a name, a colon and a value. -/
def entry {α : Type} (name : List Char → Read String) (read : List Char → Read α)
    (cs : List Char) : Read (String × α) :=
  match name cs with
  | .error e => .error e
  | .ok (name, cs) =>
    match closing ':' cs with
    | .error e => .error e
    | .ok cs =>
      match skipBlanks cs with
      | .error e => .error e
      | .ok cs => (read cs).map fun r ↦ ((name, r.1), r.2)

/-- The readers of the values in a value, the one of a value behind one more bracket, element or
`Some` mark first; there are as many as may still be opened. -/
abbrev Inner : Type := List (List Char → Read Json)

/-- Read what stands in a bracket as far as the closing character.  Each part takes two levels, one
for the bracket and one for itself. -/
def contents {α : Type} (close : Char) (part : (List Char → Read Json) → List Char → Read α)
    (inner : Inner) (cs : List Char) : Read (List α) :=
  match inner with
  | _ :: read :: _ => parts close (part read) (cs.length + 1) true cs
  | [_] =>
    match nextPart close true cs with
    | .error e => .error e
    | .ok (false, cs) => .ok ([], cs)
    | .ok (true, _) => .error .tooDeep
  | [] => .error .tooDeep

/-- Read what stands in a bracket, and the closing character. -/
def bracket {α : Type} (close : Char) (part : (List Char → Read Json) → List Char → Read α)
    (inner : Inner) (cs : List Char) : Read (List α) :=
  match contents close part inner cs with
  | .error e => .error e
  | .ok (as, cs) => (closing close cs).map (as, ·)

/-! ## Marks that serve as brackets -/

/-- What stands between round brackets. -/
inductive Parenthesised where
  /-- Fields with names. -/
  | named
  /-- Values without names. -/
  | tuple
  deriving DecidableEq

/-- Tell fields with names from values without: an identifier with a colon behind it. -/
def parenthesised (cs : List Char) : Except ReadError Parenthesised :=
  match skipBlanks cs with
  | .error e => .error e
  | .ok cs =>
    match identifier? cs with
    | none => .ok .tuple
    | some (_, cs) =>
      match skipBlanks cs with
      | .error e => .error e
      | .ok cs => .ok (if cs.head? = some ':' then .named else .tuple)

/-- Step over a quoted text or a character that stands here, if it is well-formed. -/
def passQuoted (cs : List Char) : List Char :=
  let cs := match charLiteral cs with
    | .ok (_, cs) => cs
    | .error _ => cs
  let cs := match quoted cs with
    | .ok (_, cs) => cs
    | .error _ => cs
  match cs with
  | 'b' :: rest => (skipByteText rest).toOption.getD cs
  | _ => cs

/-- Whether a comma with a further value behind it stands among the brackets that are open, `depth`
of them. -/
def hasFurther : Nat → Nat → List Char → Except ReadError Bool
  | 0, _, _ => .error .endOfText
  | steps + 1, depth, cs =>
    match skipBlanks cs with
    | .error e => .error e
    | .ok cs =>
      match passQuoted cs with
      | [] => .error .endOfText
      | c :: cs =>
        if c = '(' ∨ c = '[' ∨ c = '\x7b' then hasFurther steps (depth + 1) cs
        else if c = ')' ∨ c = ']' ∨ c = '\x7d' then
          if depth ≤ 1 then .ok false else hasFurther steps (depth - 1) cs
        else if c = ',' ∧ depth = 1 then
          (skipBlanks cs).map fun cs ↦ cs.head? ≠ some ')'
        else hasFurther steps depth cs

/-- What stands behind a mark that may serve as the brackets of its value: nothing in particular
for a single value, which keeps its own brackets. -/
def sharing (cs : List Char) : Except ReadError (Option Parenthesised) := do
  let (named, cs) ← match identifier? cs with
    | some (_, cs) => (skipBlanks cs).map (true, ·)
    | none => .ok (false, cs)
  match named, cs with
  | true, ':' :: _ => return some .named
  | true, ',' :: cs =>
    let cs ← skipBlanks cs
    return if cs.head? = some ')' then none else some .tuple
  | true, ')' :: _ => return none
  | _, cs => return if ← hasFurther (cs.length + 1) 1 cs then some .tuple else none

/-! ## Values -/

/-- The words that stand for null. -/
def nullWords : List String := ["None", "inf", "inff32", "inff64", "NaN", "NaNf32", "NaNf64"]

/-- Which values are refused. -/
inductive Purpose where
  /-- The value is kept: it must have a JSON form. -/
  | keep
  /-- The value is skipped: byte texts, and keys of any shape, are welcome too. -/
  | skip
  deriving DecidableEq

/-- Read what stands between round brackets as far as the closing one. -/
def roundContents (kind : Parenthesised) (inner : Inner) (cs : List Char) : Read Json :=
  match kind with
  | .named =>
    (contents ')' (entry identifier) inner cs).map fun r ↦ (.object (Json.sortMembers r.1), r.2)
  | .tuple => (contents ')' id inner cs).map fun r ↦ (.array r.1, r.2)

/-- Read the value behind a mark that may serve as its brackets, given the reader of a value with
brackets of its own and of those in it. -/
def markedValue (whole : List Char → Read Json) (inner : Inner) (cs : List Char) : Read Json :=
  if cs.head? = some ')' then .ok (.null, cs)
  else match sharing cs with
    | .error e => .error e
    | .ok (some kind) => roundContents kind inner cs
    | .ok none => whole cs

/-- Read what stands behind the word `Some`. -/
def afterSome (ctx : Context) (inner : Inner) (cs : List Char) : Read Json :=
  match cs, inner with
  | '(' :: cs, whole :: inner =>
    match skipBlanks cs with
    | .error e => .error e
    | .ok cs =>
      match if ctx.sharedBrackets then markedValue whole inner cs else whole cs with
      | .error e => .error e
      | .ok (j, cs) =>
        match comma cs with
        | .error e => .error e
        | .ok (_, cs) => (char ')' cs).map (j, ·)
  | '(' :: _, [] => .error .tooDeep
  | _, whole :: _ => if ctx.implicitSome then whole cs else .error .malformed
  | _, [] => .error (if ctx.implicitSome then .tooDeep else .malformed)

/-- Read a value that begins with none of the words with a meaning of their own, behind its name if
it has one. -/
def unnamedValue (purpose : Purpose) (inner : Inner) (named : Bool) (cs : List Char) :
    Read Json :=
  match cs with
  | [] => if named then .ok (.null, []) else .error .endOfText
  | c :: rest =>
    if c = '(' then
      match parenthesised rest with
      | .error e => .error e
      | .ok kind =>
        match roundContents kind inner rest with
        | .error e => .error e
        | .ok (j, cs) => (closing ')' cs).map (j, ·)
    else if named then .ok (.null, cs)
    else if c = '[' then (bracket ']' id inner rest).map fun r ↦ (.array r.1, r.2)
    else if c = '\x7b' then
      let key (read : List Char → Read Json) : List Char → Read String :=
        match purpose with
        | .keep => quoted
        | .skip => fun cs ↦ (read cs).map fun r ↦ ("", r.2)
      (bracket '\x7d' (fun read ↦ entry (key read) read) inner rest).map fun r ↦
        (.object (Json.sortMembers r.1), r.2)
    else if c.isDigit || c = '+' || c = '-' || c = '.' then number cs
    else if c = '"' || c = 'r' then (quoted cs).map fun r ↦ (.string r.1, r.2)
    else if c = 'b' && rest.head? = some '\'' then number cs
    else if c = 'b' && purpose = .skip then (skipByteText rest).map (.null, ·)
    else if c = '\'' then
      (charLiteral cs).map fun r ↦ (.string (String.singleton r.1), r.2)
    else .error .malformed

/-- Read any value, given the readers of the values in it. -/
def valueWith (ctx : Context) (purpose : Purpose) (inner : Inner) (cs : List Char) : Read Json :=
  match word? "true" cs, word? "false" cs, anyWord? nullWords cs, string? ['(', ')'] cs,
      word? "Some" cs with
  | some cs, _, _, _, _ => .ok (.bool true, cs)
  | _, some cs, _, _, _ => .ok (.bool false, cs)
  | _, _, some cs, _, _ => .ok (.null, cs)
  | _, _, _, some cs, _ => .ok (.null, cs)
  | _, _, _, _, some cs =>
    match skipBlanks cs with
    | .error e => .error e
    | .ok cs => afterSome ctx inner cs
  | none, none, none, none, none =>
    match identifier? cs with
    | none => unnamedValue purpose inner false cs
    | some (_, cs) =>
      match skipBlanks cs with
      | .error e => .error e
      | .ok cs => unnamedValue purpose inner true cs

/-- The readers of the values in a value in which at most `budget` more brackets, elements and
`Some` marks may be opened. -/
def inner (ctx : Context) (purpose : Purpose) : Nat → Inner
  | 0 => []
  | budget + 1 =>
    let inner := inner ctx purpose budget
    valueWith ctx purpose inner :: inner

/-- Read any value, opening at most `budget` brackets, elements and `Some` marks around its
innermost part. -/
def value (ctx : Context) (purpose : Purpose) (budget : Nat) : List Char → Read Json :=
  valueWith ctx purpose (inner ctx purpose budget)

end Reader

/-! ## Structures -/

/-- A reader of RON texts. -/
def TextReader (α : Type) : Type := Context → List Char → Read α

namespace TextReader

open Reader

/-- Read a text. -/
def text : TextReader String := fun _ cs ↦ quoted cs

/-- Read a natural below `2 ^ 32`, which may be marked with its type. -/
def word : TextReader UInt32 := fun _ cs ↦
  match cs with
  | [] => .error .endOfText
  | _ =>
    match integer cs with
    | .error e => .error e
    | .ok ((n, mark), cs) =>
      if 0 ≤ n ∧ n < UInt32.size ∧ (mark.map IntegerType.mark).getD "u32" = "u32" then
        .ok (UInt32.ofNat n.toNat, cs)
      else .error (.shape (.invalidValue (.int n) "u32"))

/-- The context inside one more bracket, element or mark. -/
def inside {α : Type} (read : TextReader α) : TextReader α := fun ctx cs ↦
  match ctx.budget with
  | 0 => .error .tooDeep
  | budget + 1 => read { ctx with budget } cs

/-- Read a value that is marked as present or absent. -/
def option {α : Type} (read : TextReader α) : TextReader (Option α) := fun ctx cs ↦
  match word? "None" cs, word? "Some" cs with
  | some cs, _ => .ok (none, cs)
  | none, marked =>
    let unmarked (cs : List Char) : Read (Option α) :=
      if ctx.implicitSome then (inside read ctx cs).map fun r ↦ (some r.1, r.2)
      else .error .malformed
    match marked with
    | none => unmarked cs
    | some cs =>
      match skipBlanks cs with
      | .error e => .error e
      | .ok ('(' :: cs) =>
        match skipBlanks cs with
        | .error e => .error e
        | .ok cs =>
          match inside read { ctx with isMarked := ctx.sharedBrackets } cs with
          | .error e => .error e
          | .ok (a, cs) =>
            match comma cs with
            | .error e => .error e
            | .ok (_, cs) => (char ')' cs).map (some a, ·)
      | .ok cs => unmarked cs

/-- Read any value. -/
def payload : TextReader Json := fun ctx cs ↦
  let whole := value ctx .keep ctx.budget
  if ctx.isMarked then markedValue whole (inner ctx .keep ctx.budget) cs else whole cs

/-- Read a sequence. -/
def list {α : Type} (read : TextReader α) : TextReader (List α) := fun ctx cs ↦
  match cs with
  | [] => .error .endOfText
  | '[' :: cs =>
    match inside (fun ctx cs ↦ parts ']' (inside read ctx) (cs.length + 1) true cs)
      { ctx with isMarked := false } cs with
    | .error e => .error e
    | .ok (as, cs) => (closing ']' cs).map (as, ·)
  | _ => .error .malformed

variable {R : Type}

/-- Read the fields of a structure as far as the closing bracket. -/
def named (record : Record TextReader R) (ctx : Context) :
    Nat → Bool → List String → R → List Char → Read R
  | 0, _, _, _, _ => .error .endOfText
  | steps + 1, passed, seen, acc, cs =>
    match nextPart ')' passed cs with
    | .error e => .error e
    | .ok (false, cs) =>
      match record.missing? seen with
      | some name => .error (.shape (.missingField name))
      | none => .ok (acc, cs)
    | .ok (true, cs) =>
      match inside (fun _ ↦ identifier) ctx cs with
      | .error e => .error e
      | .ok (name, cs) =>
        let field := record.field? name
        if field.isSome ∧ seen.contains name then .error (.shape (.duplicateField name))
        else
          let read : List Char → Read (R → R) := match field with
            | some f => inside f.read ctx
            | none => fun cs ↦
              (inside (fun ctx ↦ value ctx .skip ctx.budget) ctx cs).map fun r ↦ (id, r.2)
          match entry (fun cs ↦ .ok (name, cs)) read cs with
          | .error e => .error e
          | .ok ((_, update), cs) =>
            match comma cs with
            | .error e => .error e
            | .ok (passed, cs) => named record ctx steps passed (name :: seen) (update acc) cs

/-- Read the name of a structure, which may be left out unless names are explicit. -/
def structureName (record : Record TextReader R) (ctx : Context) (cs : List Char) :
    Except ReadError (List Char) :=
  if !continues cs then if ctx.explicitNames then .error .malformed else .ok cs
  else match identifier? cs with
    | some (name, cs) => if name = record.name then .ok cs else .error .malformed
    | none => .error .malformed

/-- Read the fields of a structure. -/
def fields (record : Record TextReader R) : TextReader R := fun ctx cs ↦
  inside (fun ctx cs ↦ named record ctx (cs.length + 1) true [] record.blank cs)
    { ctx with isMarked := false } cs

/-- Read a structure.  Behind a mark that serves as its brackets it has no name either. -/
def record (record : Record TextReader R) : TextReader R := fun ctx cs ↦
  if ctx.isMarked then fields record ctx cs
  else match structureName record ctx cs with
  | .error e => .error e
  | .ok cs =>
    match closing '(' cs with
    | .error e => .error e
    | .ok cs =>
      match fields record ctx cs with
      | .error e => .error e
      | .ok (r, cs) => (closing ')' cs).map (r, ·)

instance : RecordReader TextReader where
  map f read := fun ctx cs ↦ (read ctx cs).map fun r ↦ (f r.1, r.2)
  text := text
  word := word
  payload := payload
  option := option
  list := list
  record := record

/-! ## Whole texts -/

/-- Switch an extension on. -/
def enable (name : String) (ctx : Context) : Option Context :=
  if name = "implicit_some" then some { ctx with implicitSome := true }
  else if name = "explicit_struct_names" then some { ctx with explicitNames := true }
  else if name = "unwrap_variant_newtypes" then some { ctx with sharedBrackets := true }
  else if name = "unwrap_newtypes" then some ctx
  else none

/-- Read the given marks and the blanks behind each. -/
def marks : List String → List Char → Except ReadError (List Char)
  | [], cs => .ok cs
  | m :: ms, cs =>
    match string? m.toList cs with
    | none => .error .malformed
    | some cs =>
      match skipBlanks cs with
      | .error e => .error e
      | .ok cs => marks ms cs

/-- Read the names of extensions between brackets. -/
def extensionNames : Nat → Context → List Char → Read Context
  | 0, _, _ => .error .endOfText
  | steps + 1, ctx, cs =>
    match identifier cs with
    | .error e => .error e
    | .ok (name, cs) =>
      match enable name ctx, comma cs with
      | none, _ => .error .malformed
      | _, .error e => .error e
      | some ctx, .ok (passed, cs) =>
        if continues cs then
          if passed then extensionNames steps ctx cs else .error .malformed
        else .ok (ctx, cs)

/-- Read the attributes in front of a text. -/
def attributes : Nat → Context → List Char → Read Context
  | 0, _, _ => .error .endOfText
  | steps + 1, ctx, cs =>
    match skipBlanks cs with
    | .error e => .error e
    | .ok ('#' :: cs) =>
      match marks ["#", "!", "[", "enable", "("] ('#' :: cs) with
      | .error e => .error e
      | .ok cs =>
        match extensionNames (cs.length + 1) ctx cs with
        | .error e => .error e
        | .ok (ctx, cs) =>
          match marks [")", "]"] cs with
          | .error e => .error e
          | .ok cs => attributes steps ctx cs
    | .ok cs => .ok (ctx, cs)

/-- Read a whole text. -/
def run {α : Type} (read : TextReader α) (s : String) : Except ReadError α :=
  match attributes (s.length + 1) {} s.toList with
  | .error e => .error e
  | .ok (ctx, cs) =>
    match read ctx cs with
    | .error e => .error e
    | .ok (a, cs) =>
      match skipBlanks cs with
      | .error e => .error e
      | .ok [] => .ok a
      | .ok (_ :: _) => .error .malformed

end TextReader

end PortGraph.Ron
