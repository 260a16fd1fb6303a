/-!
# Reported errors

What the calculator tells its user when it has no result.

* `ErrorKind`: the kinds of error.
* `Error`: the causes, each of one kind and with one message.
-/
set_option autoImplicit false

namespace Calculator

/-- The kinds of error. -/
inductive ErrorKind where
  /-- An error that is of no closer kind. -/
  | general
  /-- The text is no expression. -/
  | malformed
  /-- A name has no value. -/
  | semantic
  /-- An operand lies outside the domain of an operation. -/
  | domain
  /-- A result is no finite number. -/
  | numeric
  /-- There is no text at all. -/
  | empty
  /-- A variable cannot be stored or removed. -/
  | variable
deriving DecidableEq, Repr

/-- The causes of an error. -/
inductive Error where
  | unsupportedCharacter (c : Char)
  | invalidNumber
  | mismatchedParentheses
  | missingArgument
  | missingValues
  | incomplete
  | unknownName (name : String)
  | divisionByZero
  | negativeSquareRoot
  | undefinedTangent
  | invalidFunctionResult
  | invalidResult
  | emptyExpression
  | emptyAssignment
  | invalidName
  | constantName (constants : List String)
  | invalidValue
  | unknownVariable (name : String)
  /-- An error that a caller reports in its own words. -/
  | other (kind : ErrorKind) (text : String)
deriving DecidableEq, Repr

/-- The kind of an error. -/
def Error.kind : Error → ErrorKind
  | unsupportedCharacter _ | invalidNumber | mismatchedParentheses | missingArgument | missingValues
  | incomplete => .malformed
  | unknownName _ => .semantic
  | divisionByZero | negativeSquareRoot | undefinedTangent => .domain
  | invalidFunctionResult | invalidResult => .numeric
  | emptyExpression => .empty
  | emptyAssignment | invalidName | constantName _ | invalidValue | unknownVariable _ => .variable
  | other kind _ => kind

/-- The message that the user reads. -/
def Error.message : Error → String
  | unsupportedCharacter c => "Unsupported character \"" ++ c.toString ++ "\"."
  | invalidNumber => "Invalid number format."
  | mismatchedParentheses => "Mismatched parentheses."
  | missingArgument => "Incomplete expression: missing argument."
  | missingValues => "Incomplete expression: missing values."
  | incomplete => "Incomplete expression."
  | unknownName name => "Unknown variable or constant \"" ++ name ++ "\"."
  | divisionByZero => "Division by zero is not allowed."
  | negativeSquareRoot => "Square root requires a non-negative number."
  | undefinedTangent => "Tangent is undefined for this angle."
  | invalidFunctionResult => "Invalid function result."
  | invalidResult => "Invalid mathematical result."
  | emptyExpression => "Please enter an expression first."
  | emptyAssignment => "Enter both variable name and value."
  | invalidName =>
    "Variable names must start with a letter and contain only letters, numbers, or underscores."
  | constantName constants =>
    "Cannot override built-in constants (" ++ ", ".intercalate constants ++ ")."
  | invalidValue => "Variable value must be a valid number."
  | unknownVariable name => "No such variable \"" ++ name ++ "\"."
  | other _ text => text

end Calculator
