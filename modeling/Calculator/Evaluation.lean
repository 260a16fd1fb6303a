import Calculator.Result
import Calculator.Scope
import Calculator.StackMachine

/-!
# Evaluation

From the text of an expression to its result.

* `Fault`: what ends an evaluation without a result.
* `valueOf`: the value of a trimmed text: it is read to its end, then put in postfix order, and only
  then the scope is built and the tokens are run.
* `evaluate`: the result of a text.
* `trace`: the notes taken on the way.
-/
set_option autoImplicit false

namespace Calculator

/-- What ends an evaluation without a result. -/
inductive Fault where
  /-- A numeral is too long to be converted. -/
  | tooLong (numeral : String)
  /-- The text of a token that should be an operator or a function is none. -/
  | unknownSymbol (item : Item)
  /-- A definition stands for no float. -/
  | scope (fault : DatumFault)
deriving DecidableEq

/-- The message of a fault. -/
def Fault.message : Fault → String
  | tooLong numeral => Number.notConverted numeral
  | unknownSymbol item => item.quoted
  | scope fault => fault.message

/-- Separates what is reported to the user from what is not. -/
def Stop.settle {α : Type} : Except Stop α → Except Fault (Except Error α)
  | .ok a => .ok (.ok a)
  | .error (.report e) => .ok (.error e)
  | .error (.tooLong numeral) => .error (.tooLong numeral)
  | .error (.unknownSymbol item) => .error (.unknownSymbol item)

/-! ## Values -/

/-- The tokens of a text in postfix order. The text is read to its end first. -/
def readPostfix (text : String) : Except Stop (List Token) :=
  match (TokenStream.ofLine text).all with
  | .ok tokens => toPostfix tokens
  | .error stop => .error stop

/-- The value of tokens in postfix order. -/
def runPostfix (scope : Bindings) (tokens : List Token) : Except Fault (Except Error Float) :=
  Stop.settle ((StackMachine.run scope tokens).mapError StackMachine.Halt.cause)

/-- The value of a trimmed text. -/
def valueOf (text : String) (definitions : Definitions) : Except Fault (Except Error Float) := do
  match ← Stop.settle (readPostfix text) with
  | .error e => return .error e
  | .ok tokens =>
    match scopeOf definitions with
    | .error fault => throw (.scope fault)
    | .ok scope => runPostfix scope tokens

/-- The result of a text, which is trimmed first. -/
def evaluate (expression : String) (definitions : Definitions) (precision : Int) :
    Except Fault Result :=
  let text := Text.trim expression
  if text = "" then .ok ⟨text, .error .emptyExpression, precision⟩
  else (valueOf text definitions).map fun outcome => ⟨text, outcome, precision⟩

/-! ## Notes -/

/-- Tokens in one line. -/
def tokensText (separator : String) (tokens : List Token) : String :=
  separator.intercalate (tokens.map Token.text)

/-- The note on an error. -/
def failureNote (text : String) (e : Error) : String :=
  Text.quoted text ++ " failed: " ++ e.message

/-- The notes on reading a trimmed text: its tokens and their postfix order, as far as they can be
had. -/
def readingNotes (text : String) : List String :=
  match (TokenStream.ofLine text).all with
  | .error _ => []
  | .ok tokens =>
    let note := "tokens: " ++ tokensText " " tokens
    match toPostfix tokens with
    | .error _ => [note]
    | .ok rpn => [note, "rpn: " ++ tokensText " " rpn]

/-- The notes taken while a text is evaluated; `outcome` is what comes of it. -/
def trace (expression : String) (outcome : Except Fault Result) : List String :=
  let text := Text.trim expression
  if text = "" then []
  else readingNotes text ++ match outcome with
    | .ok { outcome := .error e, .. } => [failureNote text e]
    | _ => []

end Calculator
