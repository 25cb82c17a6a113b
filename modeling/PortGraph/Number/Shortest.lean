import PortGraph.Number.Binary

/-!
# The shortest decimal of a floating-point magnitude

Among the decimals that round to a given magnitude `m · 2 ^ q`, the ones with the fewest digits,
and of those the nearest one.  All comparisons are between exact naturals: the magnitude and the
two ends of the interval that rounds to it are written over one power of two, and for each number
of digits the two neighbours of the magnitude on that decimal grid are tested.
-/

set_option autoImplicit false

namespace PortGraph

/-- Which of two equally near neighbours is taken. -/
inductive TieRule where
  /-- The larger magnitude. -/
  | away
  /-- The one whose last digit is even. -/
  | even
  deriving DecidableEq, Repr

/-- A magnitude `digits · 10 ^ exponent`. -/
structure DecimalDigits where
  /-- The digits as a natural, the last one not zero unless there is no other. -/
  digits : Nat
  /-- The power of ten. -/
  exponent : Int
  deriving DecidableEq, Repr

namespace DecimalDigits

/-- Number of decimal digits of a natural, one for zero. -/
def count (n : Nat) : Nat := (Nat.toDigits 10 n).length

/-- The position of the leading digit: `10 ^ e ≤ num / den < 10 ^ (e + 1)`, or one less than that
for a power of ten below one. -/
def leading (num den : Nat) : Int :=
  if den ≤ num then (count (num / den) : Int) - 1
  else -(count (den / num) : Int)

/-- Strip zeros off the end of the digits, at most `fuel` of them. -/
def strip : Nat → DecimalDigits → DecimalDigits
  | 0, d => d
  | fuel + 1, d =>
    if d.digits ≠ 0 ∧ d.digits % 10 = 0 then strip fuel ⟨d.digits / 10, d.exponent + 1⟩ else d

/-- The numbers that round to a magnitude, over a common denominator: the lower end, the magnitude
and the upper end.  The ends belong to the interval when the mantissa is even. -/
structure Interval where
  /-- The lower end. -/
  low : Nat
  /-- The magnitude itself. -/
  mid : Nat
  /-- The upper end. -/
  high : Nat
  /-- The common denominator. -/
  den : Nat
  /-- Whether the ends round to the magnitude too. -/
  closed : Bool
  deriving DecidableEq, Repr

/-- The interval around `mantissa · 2 ^ exponent`.  Below a power of two the gap to the next
smaller number is half as wide. -/
def Interval.around (fmt : BinaryFormat) (mantissa : Nat) (exponent : Int) : Interval :=
  let narrowBelow := mantissa = Nat.pow 2 fmt.fraction ∧ fmt.minExponent < exponent
  let scaled := scaleByTwo 1 1 (exponent - 2)
  { low := (4 * mantissa - if narrowBelow then 1 else 2) * scaled.1
    mid := 4 * mantissa * scaled.1
    high := (4 * mantissa + 2) * scaled.1
    den := scaled.2
    closed := mantissa % 2 = 0 }

/-- Whether `digits · 10 ^ exponent` lies in the interval. -/
def Interval.contains (i : Interval) (digits : Nat) (exponent : Int) : Bool :=
  let num := digits * Nat.pow 10 exponent.toNat * i.den
  let scale := Nat.pow 10 (-exponent).toNat
  if i.closed then i.low * scale ≤ num ∧ num ≤ i.high * scale
  else i.low * scale < num ∧ num < i.high * scale

/-- The neighbour of the magnitude on the grid `10 ^ exponent` that lies in the interval, the
nearer one if both do. -/
def Interval.nearest? (i : Interval) (tie : TieRule) (exponent : Int) : Option Nat :=
  let num := i.mid * Nat.pow 10 (-exponent).toNat
  let den := i.den * Nat.pow 10 exponent.toNat
  let floor := num / den
  let twice := 2 * (num % den)
  match i.contains floor exponent, i.contains (floor + 1) exponent with
  | true, true =>
    if twice < den then some floor
    else if den < twice then some (floor + 1)
    else match tie with
      | .away => some (floor + 1)
      | .even => some (floor + floor % 2)
  | true, false => some floor
  | false, true => some (floor + 1)
  | false, false => none

/-- Try grids of more and more digits, the first one having its unit at `10 ^ exponent`. -/
def search (i : Interval) (tie : TieRule) : Nat → Int → DecimalDigits
  | 0, exponent =>
    ⟨i.mid * Nat.pow 10 (-exponent).toNat / (i.den * Nat.pow 10 exponent.toNat), exponent⟩
  | fuel + 1, exponent =>
    match i.nearest? tie exponent with
    | some digits => strip (count digits) ⟨digits, exponent⟩
    | none => search i tie fuel (exponent - 1)

/-- The most digits a magnitude of the formats in use can need, and one to spare. -/
def maxCount : Nat := 18

/-- The shortest decimal that rounds to `mantissa · 2 ^ exponent`. -/
def shortest (fmt : BinaryFormat) (tie : TieRule) (mantissa : Nat) (exponent : Int) :
    DecimalDigits :=
  if mantissa = 0 then ⟨0, 0⟩
  else
    let i := Interval.around fmt mantissa exponent
    search i tie maxCount (leading i.mid i.den)

end DecimalDigits

end PortGraph
