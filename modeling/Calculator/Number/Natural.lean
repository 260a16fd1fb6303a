import Calculator.Number.Fixed

/-!
# Numbers in their natural form

Digits and the order of the leading one, laid out by a `Layout`: positionally for moderate orders,
and otherwise with an exponent of at least two digits.

* `Layout`: from which order on an exponent is written, and whether an integer shows its point.
* `sixDigits`, `generalText`: a float rounded to six significant digits.
* `shortestDigits`, `shortestText`: the fewest digits that read back as the float, and of these the
  nearest to it.
-/
set_option autoImplicit false

namespace Calculator.Number

open Float.Model (UnpackedFloat)
open Float.Model.UnpackedFloat (Sign)

/-! ## Layout -/

/-- How digits are laid out. -/
structure Layout where
  /-- The least order that is written with an exponent. Orders below `-4` are as well. -/
  exponentFrom : Int
  /-- Whether a number without decimal places is written with a point and a zero. -/
  pointZero : Bool

/-- Six digits at most: an exponent from a million on, and no point in an integer. -/
def briefLayout : Layout := ⟨6, false⟩

/-- All digits: an exponent from `10 ^ 16` on, and a point in every other number. -/
def fullLayout : Layout := ⟨16, true⟩

/-- The digits without zeros at their end. -/
def significantDigits (n : Nat) : List Char :=
  ((Nat.toDigits 10 n).reverse.dropWhile (· = '0')).reverse

/-- The decimal digits of `n`, filled up with zeros to the given width. -/
def padded (width n : Nat) : List Char :=
  let ds := Nat.toDigits 10 n
  List.replicate (width - ds.length) '0' ++ ds

/-- The exponent mark, the sign and at least two digits. -/
def exponentChars (order : Int) : List Char :=
  'e' :: (if order < 0 then '-' else '+') :: padded 2 order.natAbs

/-- Decimal places behind the whole part of a number, if there are any. -/
def Layout.places (l : Layout) (ds : List Char) : List Char :=
  if ds = [] then (if l.pointZero then ['.', '0'] else []) else '.' :: ds

/-- Lays out digits, of which the first stands at the power `order` of ten. -/
def Layout.chars (l : Layout) (ds : List Char) (order : Int) : List Char :=
  if order < -4 ∨ l.exponentFrom ≤ order then
    ds.take 1 ++ (if ds.length ≤ 1 then [] else '.' :: ds.drop 1) ++ exponentChars order
  else if order < 0 then
    '0' :: '.' :: List.replicate (-order - 1).toNat '0' ++ ds
  else
    let whole := order.toNat + 1
    ds.take whole ++ List.replicate (whole - ds.length) '0' ++ l.places (ds.drop whole)

/-- The text of a float whose magnitude is given by digits in units of a power of ten. -/
def Layout.text (l : Layout) (magnitude : Nat → Int → Nat × Int) (x : Float) : String :=
  String.ofList <| match parts x with
    | .notANumber => "nan".toList
    | .infinity s => signMark s ++ "inf".toList
    | .zero s => signMark s ++ '0' :: l.places []
    | .finite s m e _ =>
      let (n, unit) := magnitude m e
      signMark s ++ l.chars (significantDigits n) (unit + digitCount n - 1)

/-! ## Six significant digits -/

/-- The order of the leading decimal digit of `m * 2 ^ e`. -/
def leadingOrder (m : Nat) (e : Int) : Int :=
  decimalOrder (m * twoPow e.toNat) (twoPow (-e).toNat)

/-- The value `m * 2 ^ e` in units of `10 ^ unit`, rounded. -/
def unitsOf (m : Nat) (e unit : Int) : Nat :=
  roundQuotient (m * twoPow e.toNat * tenPow (-unit).toNat) (twoPow (-e).toNat * tenPow unit.toNat)

/-- The value `m * 2 ^ e` rounded to six digits, with the power of ten they count. -/
def sixDigits (m : Nat) (e : Int) : Nat × Int :=
  let unit := leadingOrder m e - 5
  (unitsOf m e unit, unit)

/-- A float with six significant digits at most. -/
def generalText (x : Float) : String := briefLayout.text sixDigits x

/-! ## Fewest digits -/

/-- Whether `n * 10 ^ unit` lies among the numbers that round to the float `m * 2 ^ e`. The numbers
reach half-way to the neighbouring floats; below a power of two the neighbour is half as far away.
The ends belong to the float if its mantissa is even. -/
def readsBack (m : Nat) (e : Int) (n : Nat) (unit : Int) : Bool :=
  let low := if m = twoPow 52 ∧ leastExponent < e then 4 * m - 1 else 4 * m - 2
  let high := 4 * m + 2
  let scale := twoPow (e - 2).toNat * tenPow (-unit).toNat
  let value := n * tenPow unit.toNat * twoPow (2 - e).toNat
  if m % 2 = 0 then low * scale ≤ value && value ≤ high * scale
  else low * scale < value && value < high * scale

/-- The multiple of `10 ^ unit` that reads back as `m * 2 ^ e` and is nearest to it, ties to even;
one of the two multiples around the value, if there is one at all. -/
def readableUnits? (m : Nat) (e unit : Int) : Option Nat :=
  let num := m * twoPow e.toNat * tenPow (-unit).toNat
  let den := twoPow (-e).toNat * tenPow unit.toNat
  let n := num / den
  match readsBack m e n unit, readsBack m e (n + 1) unit with
  | true, true => some (roundQuotient num den)
  | true, false => some n
  | false, true => some (n + 1)
  | false, false => none

/-- The fewest digits that read back as `m * 2 ^ e`, with the power of ten they count. -/
def shortestDigits (m : Nat) (e : Int) : Nat × Int :=
  let order := leadingOrder m e
  let tried := (List.range 17).findSome? fun (k : Nat) =>
    (readableUnits? m e (order - k)).map fun n => (n, order - k)
  tried.getD (unitsOf m e (order - 16), order - 16)

/-- A float with the fewest digits that read back as it. -/
def shortestText (x : Float) : String := fullLayout.text shortestDigits x

end Calculator.Number
