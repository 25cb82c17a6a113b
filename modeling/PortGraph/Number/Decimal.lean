import PortGraph.Number.Binary

/-!
# Decimal numerals

The number written by a decimal numeral with an exponent, `± digits · 10 ^ exponent`, and its
nearest floating-point word.  `Decimal.ofChars?` reads the common shape of such numerals: digits
with an optional point, at least one digit in all, and an optional signed exponent.
-/

set_option autoImplicit false

namespace PortGraph

/-- The number `± digits · 10 ^ exponent`. -/
structure Decimal where
  /-- Whether a minus sign stands in front. -/
  negative : Bool
  /-- The significant digits, read as a natural. -/
  digits : Nat
  /-- The power of ten they are multiplied by. -/
  exponent : Int
  deriving DecidableEq, Repr

/-- The value of a decimal digit. -/
def digitValue (c : Char) : Nat := c.toNat - '0'.toNat

/-- The natural written by a run of decimal digits; anything else counts by its distance from
`0`, so callers pass digits only. -/
def naturalOfDigits (cs : List Char) : Nat :=
  cs.foldl (fun n c ↦ 10 * n + digitValue c) 0

/-- Read a natural: decimal digits, perhaps behind a plus sign. -/
def naturalOfText? (text : String) : Option Nat :=
  let digits := match text.toList with
    | '+' :: cs => cs
    | cs => cs
  if digits.isEmpty || !digits.all Char.isDigit then none else some (naturalOfDigits digits)

namespace Decimal

/-- Beyond this power of ten every magnitude of the formats in use has become infinite, and below
its negation zero. -/
def reach : Nat := 400

/-- The word nearest to a decimal. -/
def toWord (d : Decimal) (fmt : BinaryFormat) : Nat :=
  let sign := if d.negative then fmt.signWord else 0
  let size : Int := (Nat.toDigits 10 d.digits).length
  if d.digits = 0 then sign
  else if (reach : Int) < d.exponent + size then fmt.infinityWord + sign
  else if d.exponent + size < -(reach : Int) then sign
  else if 0 ≤ d.exponent then
    fmt.roundFraction d.negative (d.digits * Nat.pow 10 d.exponent.toNat) 1
  else fmt.roundFraction d.negative d.digits (Nat.pow 10 (-d.exponent).toNat)

/-- The nearest 64-bit float. -/
def toFloat (d : Decimal) : Float := .ofBits (.ofNat (d.toWord .double))

/-- The nearest 32-bit float. -/
def toFloat32 (d : Decimal) : Float32 := .ofBits (.ofNat (d.toWord .single))

/-- The decimal with the given runs of digits before and after the point and the given power of
ten. -/
def ofParts (negative : Bool) (whole fraction : List Char) (exponent : Int) : Decimal :=
  ⟨negative, naturalOfDigits (whole ++ fraction), exponent - fraction.length⟩

/-- Read an optional sign: whether it is a minus, and what follows. -/
def splitSign : List Char → Bool × List Char
  | '-' :: cs => (true, cs)
  | '+' :: cs => (false, cs)
  | cs => (false, cs)

/-- Read an exponent part, which may be empty. -/
def exponentOfChars? : List Char → Option Int
  | [] => some 0
  | c :: cs =>
    if c = 'e' ∨ c = 'E' then
      let (negative, digits) := splitSign cs
      if digits.isEmpty ∨ digits.any (fun d ↦ !d.isDigit) then none
      else
        let size : Int := naturalOfDigits digits
        some (if negative then -size else size)
    else none

/-- Read a whole numeral.  One of the two runs of digits around the point may be empty. -/
def ofChars? (cs : List Char) : Option Decimal :=
  let (negative, cs) := splitSign cs
  let whole := cs.takeWhile Char.isDigit
  let (fraction, rest) := match cs.dropWhile Char.isDigit with
    | '.' :: cs => (cs.takeWhile Char.isDigit, cs.dropWhile Char.isDigit)
    | cs => ([], cs)
  if whole.isEmpty ∧ fraction.isEmpty then none
  else (exponentOfChars? rest).map (ofParts negative whole fraction ·)

end Decimal

end PortGraph
