import Calculator.TokenStream

/-!
# Postfix order

Tokens are rearranged so that operators and functions follow their operands. Operands go straight to
the output. Operators, functions and opening brackets wait on a stack until what follows shows where
their operands end.

* `Yard`: the output and the stack.
* `Yard.feed`, `Yard.finish`: what a token does, and what the end of the tokens does.
* `toPostfix`: tokens in postfix order.
* `TokenStream.toPostfix`: the same for a stream. An error of the order that shows before the end of
  the stream comes before the failure of the stream.
-/
set_option autoImplicit false

namespace Calculator

/-! ## Kinds of tokens -/

namespace Token

/-- Whether the token is an operator. -/
def isOperator (t : Token) : Bool := match t.item with | .operator _ => true | _ => false

/-- Whether the token is a function. -/
def isFunction (t : Token) : Bool := match t.item with | .function _ => true | _ => false

/-- Whether the token is a bracket. -/
def isParen (t : Token) : Bool := match t.item with | .paren _ => true | _ => false

/-- Whether a token on the stack goes to the output before an operator is put there. -/
def outranks (top incoming : Token) : Except Stop Bool := do
  if top.isOperator then
    let stacked ← top.binding
    let new ← incoming.binding
    return stacked.outranks new
  else return false

end Token

/-! ## The two places -/

/-- The output so far, the newest token first, and the waiting tokens, the topmost first. -/
structure Yard where
  output : List Token := []
  stack : List Token := []
deriving DecidableEq

namespace Yard

/-- Moves the operators that outrank an incoming one from the top of the stack to the output. -/
def giveWay (incoming : Token) (output : List Token) : List Token → Except Stop Yard
  | [] => .ok ⟨output, []⟩
  | top :: stack => do
    if ← top.outranks incoming then giveWay incoming (top :: output) stack
    else return ⟨output, top :: stack⟩

/-- Moves a function on top of the stack to the output: the group behind it is its argument. -/
def applyFunction (output : List Token) : List Token → Yard
  | [] => ⟨output, []⟩
  | top :: stack => if top.isFunction then ⟨top :: output, stack⟩ else ⟨output, top :: stack⟩

/-- Moves the tokens above the topmost bracket to the output and drops the bracket. -/
def close (output : List Token) : List Token → Except Stop Yard
  | [] => .error (.report .mismatchedParentheses)
  | top :: stack =>
    if top.isParen then .ok (applyFunction output stack) else close (top :: output) stack

/-- Puts a token on the stack. -/
def hold (y : Yard) (t : Token) : Yard := { y with stack := t :: y.stack }

/-- Takes one token. -/
def feed (y : Yard) (t : Token) : Except Stop Yard :=
  match t.item with
  | .number _ | .identifier _ => .ok { y with output := t :: y.output }
  | .function _ => .ok (y.hold t)
  | .operator _ => (giveWay t y.output y.stack).map (·.hold t)
  | .paren mark => if mark = "(" then .ok (y.hold t) else close y.output y.stack

/-- The whole output: the waiting tokens follow, the topmost first. A bracket among them was never
closed. -/
def finish (y : Yard) : Except Stop (List Token) :=
  if y.stack.any Token.isParen then .error (.report .mismatchedParentheses)
  else .ok (y.output.reverse ++ y.stack)

/-- Takes tokens from left to right. -/
def feedAll (y : Yard) (ts : List Token) : Except Stop Yard := ts.foldlM feed y

end Yard

/-! ## Orders -/

/-- The tokens in postfix order. -/
def toPostfix (ts : List Token) : Except Stop (List Token) := do
  (← Yard.feedAll {} ts).finish

/-- The tokens of a stream in postfix order, taken as they come. -/
def TokenStream.toPostfix (s : TokenStream) : Except Stop (List Token) := do
  let y ← Yard.feedAll {} s.tokens
  match s.failure with
  | some stop => throw stop
  | none => y.finish

end Calculator
