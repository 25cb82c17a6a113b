import PortGraph.Number.Decimal

/-!
# Numerals scaled by powers of ten

A quick way from a decimal numeral to a 64-bit float, which rounds more than once.  Of the digits
only those in front count that fit a word of 64 bits; they are rounded to a float, and the float is
multiplied or divided by a power of ten that has been rounded too.  What comes out is near the
number written, but not always the float nearest to it, which `Decimal.toFloat` finds.
-/

set_option autoImplicit false

namespace PortGraph

namespace BinaryFormat

/-- The word of the product of two finite magnitudes, rounded. -/
def product (fmt : BinaryFormat) (x y : Nat) : Nat :=
  match BinaryNumber.ofWord fmt x, BinaryNumber.ofWord fmt y with
  | .finite _ m q, .finite _ n p =>
    let scaled := scaleByTwo (m * n) 1 (q + p)
    fmt.roundMagnitude scaled.1 scaled.2
  | _, _ => fmt.infinityWord

/-- The word of the quotient of two finite magnitudes, the second of which is not zero, rounded. -/
def quotient (fmt : BinaryFormat) (x y : Nat) : Nat :=
  match BinaryNumber.ofWord fmt x, BinaryNumber.ofWord fmt y with
  | .finite _ m q, .finite _ n p =>
    let scaled := scaleByTwo m n (q - p)
    fmt.roundMagnitude scaled.1 scaled.2
  | _, _ => fmt.infinityWord

/-- The word of a power of ten, rounded. -/
def powerOfTen (fmt : BinaryFormat) (k : Nat) : Nat := fmt.roundMagnitude (Nat.pow 10 k) 1

end BinaryFormat

namespace Decimal

/-! ## Digits -/

/-- Read digits behind the natural `n` while it stays below a limit: the natural, and how many
digits are left over. -/
def leading (limit : Nat) : Nat → List Char → Nat × Nat
  | n, [] => (n, 0)
  | n, c :: cs =>
    let next := 10 * n + digitValue c
    if next < limit then leading limit next cs else (n, cs.length + 1)

/-- The decimal with the given runs of digits before and after the point and the given power of
ten, cut to digits that fit a word of 64 bits. -/
def ofLeadingParts (negative : Bool) (whole fraction : List Char) (exponent : Int) : Decimal :=
  let (n, skipped) := leading UInt64.size 0 whole
  let (n, ignored) := leading UInt64.size n fraction
  ⟨negative, n, exponent + skipped - (fraction.length - ignored : Nat)⟩

/-! ## Scaling -/

/-- The greatest power of ten that a 64-bit float can be multiplied or divided by at once. -/
def maxScale : Nat := 308

/-- Multiply a magnitude by a power of ten. -/
def scaleUp (k word : Nat) : Nat :=
  if k ≤ maxScale then BinaryFormat.double.product word (BinaryFormat.double.powerOfTen k)
  else if word = 0 then 0
  else BinaryFormat.double.infinityWord

/-- Divide a magnitude below `2 ^ 64` by a power of ten, in two steps if one is not enough; where
two are not enough either it has become zero. -/
def scaleDown (k word : Nat) : Nat :=
  let step (k word : Nat) := BinaryFormat.double.quotient word (BinaryFormat.double.powerOfTen k)
  if k ≤ maxScale then step k word
  else if k ≤ 2 * maxScale then step (k - maxScale) (step maxScale word)
  else 0

/-- The float near a decimal with digits below `2 ^ 64`, if it is finite. -/
def scaledFloat? (d : Decimal) : Option Float :=
  let word := BinaryFormat.double.roundMagnitude d.digits 1
  let scaled :=
    if 0 ≤ d.exponent then scaleUp d.exponent.toNat word else scaleDown (-d.exponent).toNat word
  if scaled < BinaryFormat.double.infinityWord then
    some (.ofBits (.ofNat (scaled + if d.negative then BinaryFormat.double.signWord else 0)))
  else none

end Decimal

end PortGraph
