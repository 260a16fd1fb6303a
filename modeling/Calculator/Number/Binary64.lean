import Calculator.Number.Rounding

/-!
# Exact values and nearest floats

A float is seen through its parts: a signed infinity, no number, a signed zero, or a sign, a
positive mantissa `m` and an exponent `e` for the value `m * 2 ^ e`. A canonical mantissa has 53
bits, or fewer when the exponent is the least one, `-1074`.

* `parts`, `ofParts`: a float as its parts, and a float from canonical ones.
* `nearest`: the float nearest to a quotient of naturals.
* `nearestDecimal`: the float nearest to `m * 10 ^ e`.
-/
set_option autoImplicit false

namespace Calculator.Number

open Float.Model (UnpackedFloat)
open Float.Model.UnpackedFloat (Sign)

/-- The parts of a float. -/
def parts (x : Float) : UnpackedFloat := x.toModel.unpack

/-- The float with the given parts; an exponent that is too large gives an infinity. -/
def ofParts (p : UnpackedFloat) : Float := Float.ofModel (Float.Model.pack p)

/-- The positive infinity. -/
def infinity : Float := ofParts (.infinity .positive)

theorem isFinite_zero : (0 : Float).isFinite := by decide +kernel

/-- The float that is not a number. -/
def notANumber : Float := ofParts .notANumber

/-- The least exponent of a float. -/
def leastExponent : Int := -1074

/-- The float `m * 2 ^ e` for a mantissa of at most 53 bits or equal to `2 ^ 53`. -/
def ofMantissa (m : Nat) (e : Int) : Float :=
  if h : m = 0 then ofParts (.zero .positive)
  else if m = twoPow 53 then ofParts (.finite .positive (twoPow 52) (e + 1) (by decide))
  else ofParts (.finite .positive m e (Nat.pos_of_ne_zero h))

/-- The exponent at which a positive quotient has a canonical mantissa. -/
def canonicalExponent (num den : Nat) : Int :=
  max (binaryOrder num den - 52) leastExponent

/-- The float nearest to `num / den` for positive `den`, ties to the even mantissa; an infinity if
the rounded value is out of range. -/
def nearest (num den : Nat) : Float :=
  if num = 0 then ofParts (.zero .positive)
  else
    let e := canonicalExponent num den
    ofMantissa (roundQuotient (num * twoPow (-e).toNat) (den * twoPow e.toNat)) e

/-- The float nearest to `m * 10 ^ e`. Values above `10 ^ 310` are infinite and values below
`10 ^ (-330)` are zero, whatever their digits. -/
def nearestDecimal (m : Nat) (e : Int) : Float :=
  if m = 0 then ofParts (.zero .positive)
  else if 310 < digitCount m + e then infinity
  else if digitCount m + e < -330 then ofParts (.zero .positive)
  else nearest (m * tenPow e.toNat) (tenPow (-e).toNat)

end Calculator.Number
