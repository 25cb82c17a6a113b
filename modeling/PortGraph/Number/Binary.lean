/-!
# Binary floating-point words

A finite floating-point number is a sign and a magnitude `m · 2 ^ q`.  This file reads such
numbers off the words of the two interchange formats in use, 32 and 64 bits wide, and rounds
exact quotients of naturals back to words: to the nearest representable number, a tie going to
the even word.

Everything is arithmetic on `Nat`, so that a conversion between the formats, and the reading of a
decimal, can be computed and reasoned about exactly.  `widen` and `narrow` are the conversions
between `Float32` and `Float`.
-/

set_option autoImplicit false

namespace PortGraph

/-! ## Formats -/

/-- A binary interchange format: the widths of its two stored fields. -/
structure BinaryFormat where
  /-- Width of the stored fraction. -/
  fraction : Nat
  /-- Width of the biased exponent. -/
  exponent : Nat
  deriving DecidableEq, Repr

namespace BinaryFormat

/-- The 32-bit format. -/
def single : BinaryFormat := ⟨23, 8⟩

/-- The 64-bit format. -/
def double : BinaryFormat := ⟨52, 11⟩

/-- The exponent `q` of the subnormal numbers, the least of any finite number. -/
def minExponent (fmt : BinaryFormat) : Int :=
  2 - (Nat.pow 2 (fmt.exponent - 1) : Int) - fmt.fraction

/-- The word of positive infinity, which follows the words of all finite magnitudes. -/
def infinityWord (fmt : BinaryFormat) : Nat :=
  (Nat.pow 2 fmt.exponent - 1) * Nat.pow 2 fmt.fraction

/-- The word with only the sign bit set. -/
def signWord (fmt : BinaryFormat) : Nat :=
  Nat.pow 2 (fmt.fraction + fmt.exponent)

/-- The word of the quiet NaN with an otherwise empty fraction. -/
def nanWord (fmt : BinaryFormat) : Nat :=
  fmt.infinityWord + Nat.pow 2 (fmt.fraction - 1)

end BinaryFormat

/-! ## Numbers -/

/-- What a floating-point word stands for. -/
inductive BinaryNumber where
  /-- The number `± mantissa · 2 ^ exponent`. -/
  | finite (negative : Bool) (mantissa : Nat) (exponent : Int)
  /-- An infinity. -/
  | infinite (negative : Bool)
  /-- Not a number. -/
  | nan
  deriving DecidableEq, Repr

namespace BinaryNumber

/-- Read a word. -/
def ofWord (fmt : BinaryFormat) (word : Nat) : BinaryNumber :=
  let negative := fmt.signWord ≤ word
  let magnitude := word % fmt.signWord
  if magnitude < fmt.infinityWord then
    let exponent := magnitude / Nat.pow 2 fmt.fraction
    let fraction := magnitude % Nat.pow 2 fmt.fraction
    if exponent = 0 then .finite negative fraction fmt.minExponent
    else .finite negative (Nat.pow 2 fmt.fraction + fraction) (fmt.minExponent + (exponent - 1))
  else if magnitude = fmt.infinityWord then .infinite negative
  else .nan

end BinaryNumber

/-! ## Rounding -/

/-- The natural nearest to `num / den`, a tie going to the even one. -/
def roundHalfEven (num den : Nat) : Nat :=
  let floor := num / den
  let twice := 2 * (num % den)
  if twice < den then floor
  else if den < twice then floor + 1
  else floor + floor % 2

/-- Multiply the fraction `num / den` by `2 ^ shift`. -/
def scaleByTwo (num den : Nat) (shift : Int) : Nat × Nat :=
  if 0 ≤ shift then (num * Nat.pow 2 shift.toNat, den)
  else (num, den * Nat.pow 2 (-shift).toNat)

namespace BinaryFormat

/-- The exponent `k` with `2 ^ k ≤ num / den < 2 ^ (k + 1)`, for a positive fraction. -/
def scaleOf (num den : Nat) : Int :=
  let guess : Int := (num.log2 : Int) - den.log2
  let scaled := scaleByTwo num den (-guess)
  if scaled.2 ≤ scaled.1 then guess else guess - 1

/-- The word of the magnitude nearest to `num / den`, a tie going to the even word; too large a
magnitude becomes infinity. -/
def roundMagnitude (fmt : BinaryFormat) (num den : Nat) : Nat :=
  if num = 0 then 0
  else
    let exponent := max fmt.minExponent (scaleOf num den - fmt.fraction)
    let scaled := scaleByTwo num den (-exponent)
    let mantissa := roundHalfEven scaled.1 scaled.2
    min fmt.infinityWord ((exponent - fmt.minExponent).toNat * Nat.pow 2 fmt.fraction + mantissa)

/-- The word of `± num / den`, rounded. -/
def roundFraction (fmt : BinaryFormat) (negative : Bool) (num den : Nat) : Nat :=
  fmt.roundMagnitude num den + if negative then fmt.signWord else 0

/-- The word of a number, rounded to the format. -/
def toWord (fmt : BinaryFormat) : BinaryNumber → Nat
  | .finite negative mantissa exponent =>
    let scaled := scaleByTwo mantissa 1 exponent
    fmt.roundFraction negative scaled.1 scaled.2
  | .infinite negative => fmt.infinityWord + if negative then fmt.signWord else 0
  | .nan => fmt.nanWord

end BinaryFormat

/-! ## The machine types -/

/-- The number a 32-bit float stands for. -/
def BinaryNumber.ofFloat32 (x : Float32) : BinaryNumber :=
  .ofWord .single x.toBits.toNat

/-- The number a 64-bit float stands for. -/
def BinaryNumber.ofFloat (x : Float) : BinaryNumber :=
  .ofWord .double x.toBits.toNat

/-- The nearest 32-bit float. -/
def BinaryNumber.toFloat32 (n : BinaryNumber) : Float32 :=
  .ofBits (.ofNat (BinaryFormat.single.toWord n))

/-- The nearest 64-bit float. -/
def BinaryNumber.toFloat (n : BinaryNumber) : Float :=
  .ofBits (.ofNat (BinaryFormat.double.toWord n))

/-- The 64-bit float equal to a 32-bit one. -/
def widen (x : Float32) : Float := (BinaryNumber.ofFloat32 x).toFloat

/-- The 32-bit float nearest to a 64-bit one. -/
def narrow (x : Float) : Float32 := (BinaryNumber.ofFloat x).toFloat32

/-- The integer `n` as a number. -/
def BinaryNumber.ofInt (n : Int) : BinaryNumber := .finite (decide (n < 0)) n.natAbs 0

end PortGraph
