import Calculator.Error

/-!
# Operators, functions and constants

The symbols that have a built-in meaning.

* `Operator`, `Operator.binding`, `Operator.apply`: the binary operators, how they bind and what
  they compute.
* `Function`, `Function.apply`: the functions of one argument.
* `Constant`, `Constant.value`: the named numbers.
* `RuleFault`: why an operator or a function has no value at its operands.
-/
set_option autoImplicit false

namespace Calculator

/-! ## How operators bind -/

/-- The side from which operators of equal precedence are grouped. -/
inductive Associativity where
  | left
  | right
deriving DecidableEq, Repr

/-- How tightly an operator binds: a higher precedence binds tighter. -/
structure Binding where
  precedence : Nat
  associativity : Associativity
deriving DecidableEq, Repr

/-- Whether an operator that waits on the left takes its operands before an incoming one. -/
def Binding.outranks (stacked incoming : Binding) : Bool :=
  incoming.precedence < stacked.precedence ||
    (stacked.precedence == incoming.precedence && incoming.associativity == .left)

/-- The binary operators. -/
inductive Operator where
  | add
  | sub
  | mul
  | div
  | pow
deriving DecidableEq, Repr

namespace Operator

/-- All operators. -/
def all : List Operator := [add, sub, mul, div, pow]

/-- The character that writes an operator. -/
def mark : Operator → Char
  | add => '+'
  | sub => '-'
  | mul => '*'
  | div => '/'
  | pow => '^'

/-- The text that writes an operator. -/
def symbol (op : Operator) : String := op.mark.toString

/-- The operator that a character writes. -/
def ofMark? (c : Char) : Option Operator := all.find? (·.mark = c)

/-- The operator that a text writes. -/
def ofSymbol? (s : String) : Option Operator := all.find? (·.symbol = s)

/-- How an operator binds between two operands. -/
def binding : Operator → Binding
  | add | sub => ⟨1, .left⟩
  | mul | div => ⟨2, .left⟩
  | pow => ⟨3, .right⟩

end Operator

/-- How a leading minus binds: tighter than a product, and looser than a power on its right. -/
def leadingMinus : Binding := ⟨3, .right⟩

/-! ## Rules -/

/-- Why an operator or a function has no value at its operands. -/
inductive RuleFault where
  /-- A cause that the rule itself reports. -/
  | report (e : Error)
  /-- The result is no real number. -/
  | outsideDomain
  /-- The result is too large. -/
  | outOfRange
deriving DecidableEq, Repr

/-- The message of a fault, as it is raised by a bare rule. -/
def RuleFault.message : RuleFault → String
  | report e => e.message
  | outsideDomain => "math domain error"
  | outOfRange => "math range error"

/-- A power. For finite operands the result has to be finite; zero to a negative power counts as
outside the domain. -/
def power (x y : Float) : Except RuleFault Float :=
  let r := Float.pow x y
  if x.isFinite && y.isFinite then
    if r.isNaN then .error .outsideDomain
    else if r.isInf then .error (if x == 0 then .outsideDomain else .outOfRange)
    else .ok r
  else .ok r

/-- The rule of an operator. -/
def Operator.apply (op : Operator) (x y : Float) : Except RuleFault Float :=
  match op with
  | add => .ok (x + y)
  | sub => .ok (x - y)
  | mul => .ok (x * y)
  | div => if y == 0 then .error (.report .divisionByZero) else .ok (x / y)
  | pow => power x y

/-- The functions of one argument. -/
inductive Function where
  | sqrt
  | sin
  | cos
  | tan
deriving DecidableEq, Repr

namespace Function

/-- All functions. -/
def all : List Function := [sqrt, sin, cos, tan]

/-- The name of a function, in small letters. -/
def name : Function → String
  | sqrt => "sqrt"
  | sin => "sin"
  | cos => "cos"
  | tan => "tan"

/-- The function with the given name. -/
def ofName? (s : String) : Option Function := all.find? (·.name = s)

/-- The value `r` of a trigonometric function at `x`; it is no number only where `x` is none. -/
def trigonometric (x r : Float) : Except RuleFault Float :=
  if r.isNaN && !x.isNaN then .error .outsideDomain else .ok r

/-- The rule of a function. -/
def apply (f : Function) (x : Float) : Except RuleFault Float :=
  match f with
  | sqrt => if x < 0 then .error (.report .negativeSquareRoot) else .ok x.sqrt
  | sin => trigonometric x x.sin
  | cos => trigonometric x x.cos
  | tan => do
    let r ← trigonometric x x.tan
    if r.isFinite then .ok r else .error (.report .undefinedTangent)

end Function

/-! ## Constants -/

/-- The named numbers. -/
inductive Constant where
  | pi
  | e
deriving DecidableEq, Repr

namespace Constant

/-- All constants. -/
def all : List Constant := [pi, e]

/-- The name of a constant, in small letters. -/
def name : Constant → String
  | pi => "pi"
  | e => "e"

/-- The value of a constant, to four decimal places. -/
def value : Constant → Float
  | pi => 3.1415
  | e => 2.7182

end Constant

end Calculator
