/-!
# Rounded quotients

* `twoPow`, `tenPow`: powers of the two bases.
* `roundQuotient`: the integer nearest to a quotient of naturals; of two equally near ones, the even
  one.
* `binaryOrder`, `decimalOrder`: the position of the leading digit of a positive quotient, in base
  two and in base ten.
-/
set_option autoImplicit false

namespace Calculator.Number

/-- The power `2 ^ k`. -/
def twoPow (k : Nat) : Nat := Nat.pow 2 k

/-- The power `10 ^ k`. -/
def tenPow (k : Nat) : Nat := Nat.pow 10 k

/-- The integer nearest to `num / den`, ties to even. -/
def roundQuotient (num den : Nat) : Nat :=
  let q := num / den
  let r := num % den
  if 2 * r < den then q else if den < 2 * r then q + 1 else q + q % 2

/-- The integer `k` with `2 ^ k ≤ num / den < 2 ^ (k + 1)`, for positive `num` and `den`. -/
def binaryOrder (num den : Nat) : Int :=
  let k : Int := (num.log2 : Int) - den.log2
  if num * twoPow (-k).toNat < den * twoPow k.toNat then k - 1 else k

/-- The number of decimal digits of a natural number. -/
def digitCount (n : Nat) : Nat := (Nat.toDigits 10 n).length

/-- The integer `k` with `10 ^ k ≤ num / den < 10 ^ (k + 1)`, for positive `num` and `den`. -/
def decimalOrder (num den : Nat) : Int :=
  if den ≤ num then (digitCount (num / den) : Int) - 1
  else -(digitCount ((den - 1) / num) : Int)

end Calculator.Number
