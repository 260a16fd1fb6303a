import Calculator.Error
import Calculator.Number.Fixed

/-!
# Results

What an evaluation leaves behind.

* `Result`: the text of an expression with its value or error, and how many places are shown.
* `formatted`: a value with the given number of places, or why there is no such text
  (`PrecisionFault`).
-/
set_option autoImplicit false

namespace Calculator

/-- The number of places shown where none is asked for. -/
def defaultPrecision : Int := 4

/-- The outcome of an evaluation. -/
structure Result where
  expression : String
  outcome : Except Error Float
  precision : Int := defaultPrecision

/-! ## Precision -/

/-- Why a value cannot be shown with a number of places. -/
inductive PrecisionFault where
  /-- The number is negative. -/
  | missing
  /-- The number is above `2 ^ 31 - 1`. -/
  | tooBig
  /-- The number is above `2 ^ 63 - 1`. -/
  | tooManyDigits
deriving DecidableEq, Repr

/-- The message of a fault. -/
def PrecisionFault.message : PrecisionFault → String
  | missing => "Format specifier missing precision"
  | tooBig => "precision too big"
  | tooManyDigits => "Too many decimal digits in format string"

/-- The largest number of places, `2 ^ 31 - 1`. -/
def mostPlaces : Nat := 2147483647

/-- The largest number that is read as a number of places at all, `2 ^ 63 - 1`. -/
def largestPrecision : Nat := 9223372036854775807

/-- A precision that asks for no number of places. -/
def missingPrecision : Int := -1

/-- The number of places that a precision asks for. -/
def placesOf (precision : Int) : Except PrecisionFault Nat :=
  if precision < 0 then .error .missing
  else if largestPrecision < precision then .error .tooManyDigits
  else if mostPlaces < precision then .error .tooBig
  else .ok precision.toNat

/-- A value with the given number of places. -/
def fixed (precision : Int) (x : Float) : Except PrecisionFault String :=
  (placesOf precision).map (Number.fixedText · x)

namespace Result

/-- Whether there is a value. -/
def isOk (r : Result) : Bool := r.outcome.isOk

/-- The value as text, if there is one. -/
def formatted (r : Result) : Except PrecisionFault (Option String) :=
  match r.outcome with
  | .ok x => (fixed r.precision x).map some
  | .error _ => .ok none

/-- What is shown of a result: the value, or the message of the error. -/
def text (r : Result) : Except PrecisionFault String :=
  match r.outcome with
  | .ok x => fixed r.precision x
  | .error e => .ok e.message

end Result

end Calculator
