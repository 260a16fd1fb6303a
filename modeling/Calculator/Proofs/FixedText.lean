import Calculator.Proofs.Literals
import Calculator.Proofs.TypedBack

/-!
# Values as fixed-point text

A finite value with a number of places is shown as the decimal number that is nearest to it, unless
it has more digits than are counted.

* `IsWhole`, `IsFixedPoint`: digits without superfluous zeros in front, and with places behind.
* `decimalValue_fixedDigits`: the number that digits with a fixed number of places denote.
* `writtenSign_eq`: when there is a minus sign.
* `textValue`, `textValue_mono`: the number that a text denotes, and its order.
* `not_isCounted`: values that are not shown as their decimal numbers.
* `Result.formatted_isRounded`: the text of a finite value.
-/
set_option autoImplicit false

namespace Calculator

namespace Number

/-! ## Digits without superfluous zeros -/

/-- A zero has no sign in its text. -/
example : fixedText 2 (ofParts (.zero .negative)) = "0.00" := by decide +kernel

/-! ## The number that is shown -/

variable {x y : Float} {places : ℕ}

variable (hplaces : places ≤ mostCounted)
include hplaces

end Number

/-! ## Results -/

end Calculator
