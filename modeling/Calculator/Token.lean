import Calculator.Operator
import Calculator.Number.Natural
import Calculator.Number.Numeral
import Calculator.Text.Quoted

/-!
# Tokens

The pieces of an expression. A caller may hand over tokens of its own, so the text of a name, an
operator or a bracket is kept as it is, and what it stands for is looked up where it is needed.

* `Item`, `Token`: a piece of an expression, and the piece with the mark of a leading minus.
* `Token.text`: a token as it is shown.
* `Token.binding`: how an operator token binds.
* `Stop`: why a stage that works on tokens stops.
-/
set_option autoImplicit false

namespace Calculator

/-- A piece of an expression. -/
inductive Item where
  | number (value : Float)
  | identifier (name : String)
  | function (name : String)
  | operator (symbol : String)
  /-- A bracket: the opening one is `(`, and any other text closes. -/
  | paren (mark : String)
deriving DecidableEq

/-- A piece of an expression; `unary` marks the minus that has no operand on its left. -/
structure Token where
  item : Item
  unary : Bool := false
deriving DecidableEq

namespace Item

/-- An item as it is shown. -/
def text : Item → String
  | number x => Number.generalText x
  | identifier s | function s | operator s | paren s => s

/-- An item as it is shown inside a message: a number in full, and a text between quotes. -/
def quoted : Item → String
  | number x => Number.shortestText x
  | identifier s | function s | operator s | paren s => Text.quoted s

/-- The operator whose symbol is the text of the item. -/
def operator? : Item → Option Operator
  | number _ => none
  | identifier s | function s | operator s | paren s => Operator.ofSymbol? s

end Item

/-- Why a stage stops. -/
inductive Stop where
  /-- An error that is reported to the user. -/
  | report (e : Error)
  /-- A numeral is too long to be converted. -/
  | tooLong (numeral : String)
  /-- The text of a token that should be an operator or a function is none. -/
  | unknownSymbol (item : Item)
deriving DecidableEq

/-- The message of a stop. -/
def Stop.message : Stop → String
  | report e => e.message
  | tooLong numeral => Number.notConverted numeral
  | unknownSymbol item => item.quoted

namespace Token

/-- The token of a number. -/
def number (x : Float) : Token := ⟨.number x, false⟩

/-- The token of a leading minus. -/
def minus : Token := ⟨.operator Operator.sub.symbol, true⟩

/-- A token as it is shown. -/
def text (t : Token) : String := t.item.text

/-- How a token binds as an operator. A leading minus is recognised by its mark alone. -/
def binding (t : Token) : Except Stop Binding :=
  if t.unary then .ok leadingMinus
  else match t.item.operator? with
    | some op => .ok op.binding
    | none => .error (.unknownSymbol t.item)

end Token

end Calculator
