import Calculator.Number.Binary64

/-!
# A fixed number of decimal places

The exact value of a float, rounded to a number of places; a tie goes to the even last digit. A
value below zero keeps its sign when it rounds to zero, and a zero has none. A value that would be
written with more digits than are counted is written as a zero.

* `fixedUnits`: the magnitude of a value in units of the last place.
* `isLost`: the values with more digits than are counted.
* `fixedDigits`, `fixedMagnitude`: digits with a point before the last places.
* `fixedText`: the text of a float.
-/
set_option autoImplicit false

namespace Calculator.Number

open Float.Model (UnpackedFloat)
open Float.Model.UnpackedFloat (Sign)

/-- The value `m * 2 ^ e` in units of the last of `places` decimal places. -/
def fixedUnits (places m : Nat) (e : Int) : Nat :=
  roundQuotient (m * tenPow places * twoPow e.toNat) (twoPow (-e).toNat)

/-- The last `width` decimal digits of `n`, with zeros for those it does not have. -/
def lastDigits : Nat → Nat → List Char
  | 0, _ => []
  | width + 1, n => lastDigits width (n / 10) ++ [Nat.digitChar (n % 10)]

/-- The number `n` of units of the last of `places` decimal places, written with its point and with
more zeros behind it. -/
def fixedDigits (places zeros n : Nat) : List Char :=
  Nat.toDigits 10 (n / tenPow places) ++
    if places + zeros = 0 then []
    else '.' :: (lastDigits places n ++ List.replicate zeros '0')

/-- The number of decimal places behind which the value `m * 2 ^ e` has only zeros. -/
def exactPlaces (e : Int) : Nat := (-e).toNat

/-! ## Digits that are counted -/

/-- The most digits, before the point and behind it, that are counted. -/
def mostCounted : Nat := 2147483647

/-- The number of digits before the point of the value `m * 2 ^ e`; below one it has none. -/
def wholeDigits (m : Nat) (e : Int) : Nat :=
  let whole := m * twoPow e.toNat / twoPow (-e).toNat
  if whole = 0 then 0 else digitCount whole

/-- Whether the value `m * 2 ^ e` is an integer of so few digits that they are not counted. -/
def isShortInteger (m : Nat) (e : Int) : Bool :=
  m * twoPow e.toNat % twoPow (-e).toNat = 0 && wholeDigits m e ≤ 15

/-- Whether the value `m * 2 ^ e` has more digits up to the last of `places` decimal places than are
counted. -/
def isLost (places m : Nat) (e : Int) : Bool :=
  mostCounted < wholeDigits m e + places && !isShortInteger m e

/-! ## Texts -/

/-- The value `m * 2 ^ e` with a fixed number of places. -/
def fixedMagnitude (places m : Nat) (e : Int) : List Char :=
  if isLost places m e then fixedDigits 0 places 0
  else
    let exact := min places (exactPlaces e)
    fixedDigits exact (places - exact) (fixedUnits exact m e)

/-- The sign that is written before a magnitude. -/
def signMark : Sign → List Char
  | .positive => []
  | .negative => ['-']

/-- The characters of a float with a fixed number of places. -/
def fixedChars (places : Nat) (x : Float) : List Char :=
  match parts x with
  | .notANumber => "nan".toList
  | .infinity s => signMark s ++ "inf".toList
  | .zero _ => fixedDigits 0 places 0
  | .finite s m e _ => signMark s ++ fixedMagnitude places m e

/-- The text of a float with a fixed number of places. -/
def fixedText (places : Nat) (x : Float) : String := String.ofList (fixedChars places x)

end Calculator.Number
