import Calculator.Lexeme
import Calculator.Token

/-!
# Token streams

The tokens of a line, as far as they can be read.

* `TokenStream`: tokens, and what the reading stops at behind the last one, if the line cannot be
  read to its end.
* `Token.ofLexeme`: the tokens of a lexeme. A minus without an operand on its left is read as a
  zero and a minus with a mark.
* `TokenStream.ofLine`: the tokens of a line.
-/
set_option autoImplicit false

namespace Calculator

/-- Tokens, and what the stream stops at if it ends early. -/
structure TokenStream where
  tokens : List Token
  failure : Option Stop
deriving DecidableEq

/-! ## Lexemes as tokens -/

/-- Whether a minus behind the given token has no operand on its left. -/
def minusLeads (previous : Option Token) : Bool :=
  match previous.map Token.item with
  | none | some (.operator _) | some (.function _) => true
  | some (.paren mark) => mark == "("
  | some (.number _) | some (.identifier _) => false

namespace Token

/-- The token of a name. Letters of either case mean the same; the name of a function is set
apart. -/
def ofName (letters : List Char) : Token :=
  let name := String.ofList (letters.map Char.toLower)
  ⟨if (Function.ofName? name).isSome then .function name else .identifier name, false⟩

/-- The tokens of a lexeme behind the given token. -/
def ofLexeme (previous : Option Token) : Lexeme → Except Stop (List Token)
  | .numeral ds =>
    match Number.literal ds with
    | .ok x => .ok [number x]
    | .error .invalid => .error (.report .invalidNumber)
    | .error .tooLong => .error (.tooLong (String.ofList ds))
  | .name letters => .ok [ofName letters]
  | .operator op =>
    if op = .sub && minusLeads previous then .ok [number 0, minus]
    else .ok [⟨.operator op.symbol, false⟩]
  | .opening => .ok [⟨.paren "(", false⟩]
  | .closing => .ok [⟨.paren ")", false⟩]

end Token

/-! ## Lines as streams -/

namespace TokenStream

/-- The stream with tokens put before it. -/
def after (ts : List Token) (s : TokenStream) : TokenStream := { s with tokens := ts ++ s.tokens }

/-- The tokens of lexemes that stand behind a token and before the character `stuck`, at which no
lexeme starts. -/
def ofLexemes (stuck : Option Char) (previous : Option Token) : List Lexeme → TokenStream
  | [] => ⟨[], stuck.map fun c => .report (.unsupportedCharacter c)⟩
  | l :: ls =>
    match Token.ofLexeme previous l with
    | .error stop => ⟨[], some stop⟩
    | .ok ts => (ofLexemes stuck (ts.getLast?.or previous) ls).after ts

/-- The tokens of a line. -/
def ofLine (line : String) : TokenStream :=
  let (lexemes, stuck) := scan line.toList
  ofLexemes stuck none lexemes

/-- All tokens of a line that can be read to its end. -/
def all (s : TokenStream) : Except Stop (List Token) :=
  match s.failure with
  | some stop => .error stop
  | none => .ok s.tokens

end TokenStream

end Calculator
