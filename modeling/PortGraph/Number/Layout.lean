import PortGraph.Number.Shortest

/-!
# Written floating-point numbers

A `FloatLayout` holds the decisions a format takes once the shortest digits are known: up to which
magnitudes a number is written positionally, what marks an exponent, and how infinities and NaN
are spelled.  `FloatLayout.write` puts the digits into that shape.
-/

set_option autoImplicit false

namespace PortGraph

/-- How a format writes floating-point numbers. -/
structure FloatLayout where
  /-- Whether a number whose leading digit stands at `10 ^ e` is written without exponent. -/
  positional : Int → Bool
  /-- What stands between the exponent mark and a non-negative exponent. -/
  exponentPlus : String
  /-- Which of two equally near shortest decimals is written. -/
  tie : TieRule

namespace FloatLayout

/-- `n` zeros. -/
def zeros (n : Nat) : String := String.ofList (List.replicate n '0')

/-- Digits with a point after the one at `10 ^ 0`, and at least one digit on either side of it. -/
def writePositional (d : DecimalDigits) : String :=
  let cs := Nat.toDigits 10 d.digits
  let point := (cs.length : Int) + d.exponent
  if 0 ≤ d.exponent then String.ofList cs ++ zeros d.exponent.toNat ++ ".0"
  else if 0 < point then
    String.ofList (cs.take point.toNat) ++ "." ++ String.ofList (cs.drop point.toNat)
  else "0." ++ zeros (-point).toNat ++ String.ofList cs

/-- One digit, the others after a point if there are any, and the exponent. -/
def writeExponent (layout : FloatLayout) (d : DecimalDigits) : String :=
  let cs := Nat.toDigits 10 d.digits
  let exponent := (cs.length : Int) - 1 + d.exponent
  let tail := cs.drop 1
  String.ofList (cs.take 1) ++ (if tail.isEmpty then "" else "." ++ String.ofList tail) ++ "e"
    ++ (if 0 ≤ exponent then layout.exponentPlus else "") ++ toString exponent

/-- Write the digits of a magnitude. -/
def writeDigits (layout : FloatLayout) (d : DecimalDigits) : String :=
  if d.digits = 0 ∨ layout.positional (DecimalDigits.count d.digits - 1 + d.exponent) then
    writePositional d
  else layout.writeExponent d

/-- Write a number of the given format. -/
def write (layout : FloatLayout) (fmt : BinaryFormat) : BinaryNumber → String
  | .finite negative mantissa exponent =>
    (if negative then "-" else "")
      ++ layout.writeDigits (DecimalDigits.shortest fmt layout.tie mantissa exponent)
  | .infinite negative => if negative then "-inf" else "inf"
  | .nan => "NaN"

/-- Write a 32-bit float. -/
def writeFloat32 (layout : FloatLayout) (x : Float32) : String :=
  layout.write .single (.ofFloat32 x)

/-- Write a 64-bit float. -/
def writeFloat (layout : FloatLayout) (x : Float) : String :=
  layout.write .double (.ofFloat x)

/-- Numbers from `10 ^ least` to below `10 ^ 16` are written positionally. -/
def moderate (least e : Int) : Bool := least ≤ e ∧ e < 16

/-- How values are shown: positionally from `10 ^ -4` on, and exponents carry no plus sign. -/
def display : FloatLayout := ⟨moderate (-4), "", .away⟩

/-- How JSON texts are written: positionally from `10 ^ -5` on, and exponents carry a sign. -/
def json : FloatLayout := ⟨moderate (-5), "+", .even⟩

/-- How RON texts are written: never with an exponent. -/
def plain : FloatLayout := ⟨fun _ ↦ true, "", .away⟩

end FloatLayout

end PortGraph
