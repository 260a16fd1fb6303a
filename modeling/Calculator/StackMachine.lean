import Calculator.Postfix
import Calculator.Bindings

/-!
# The stack machine

Tokens in postfix order are run on a stack of floats against a scope of names.

* `load`: the value of a name.
* `feed`: what a token does to the stack. A function takes one value and an operator two, before
  their rule is tried; `Halt` carries the stack that remains when a token fails.
* `run`: all tokens from an empty stack; exactly one value has to be left.
-/
set_option autoImplicit false

namespace Calculator.StackMachine

/-- Why the machine halts, and the stack it leaves. -/
structure Halt where
  cause : Stop
  stack : List Float
deriving DecidableEq

/-! ## Values -/

/-- The value of a name. -/
def load (scope : Bindings) (name : String) : Except Stop Float :=
  match scope.find? name with
  | some x => .ok x
  | none => .error (.report (.unknownName name))

/-- The result of a rule. It has to be finite; a fault that the rule does not report itself is
reported as `invalid`. -/
def settle (invalid : Error) : Except RuleFault Float → Except Stop Float
  | .ok x => if x.isFinite then .ok x else .error (.report invalid)
  | .error (.report e) => .error (.report e)
  | .error .outsideDomain | .error .outOfRange => .error (.report invalid)

/-- The value of the function with the given name. -/
def call (name : String) (x : Float) : Except Stop Float :=
  match Function.ofName? name with
  | some f => settle .invalidFunctionResult (f.apply x)
  | none => .error (.unknownSymbol (.function name))

/-- The value of the operator with the given symbol. -/
def operate (symbol : String) (x y : Float) : Except Stop Float :=
  match Operator.ofSymbol? symbol with
  | some op => settle .invalidResult (op.apply x y)
  | none => .error (.unknownSymbol (.operator symbol))

/-! ## Steps -/

/-- Puts a value on the stack, or halts with the stack. -/
def push (stack : List Float) : Except Stop Float → Except Halt (List Float)
  | .ok x => .ok (x :: stack)
  | .error cause => .error ⟨cause, stack⟩

/-- Runs one token on a stack whose topmost value comes first. -/
def feed (scope : Bindings) (stack : List Float) (t : Token) : Except Halt (List Float) :=
  match t.item with
  | .number x => .ok (x :: stack)
  | .identifier name => push stack (load scope name)
  | .function name =>
    match stack with
    | x :: below => push below (call name x)
    | [] => .error ⟨.report .missingArgument, stack⟩
  | .operator symbol =>
    match stack with
    | y :: x :: below => push below (operate symbol x y)
    | _ => .error ⟨.report .missingValues, stack⟩
  | .paren _ => .error ⟨.report .mismatchedParentheses, stack⟩

/-- Runs tokens from left to right. -/
def feedAll (scope : Bindings) (stack : List Float) (ts : List Token) :
    Except Halt (List Float) :=
  ts.foldlM (feed scope) stack

/-- The single value on a stack. -/
def single (stack : List Float) : Except Halt Float :=
  match stack with
  | [x] => .ok x
  | _ => .error ⟨.report .incomplete, stack⟩

/-- Runs tokens from an empty stack to a single value. -/
def run (scope : Bindings) (ts : List Token) : Except Halt Float := do
  single (← feedAll scope [] ts)

end Calculator.StackMachine
