import Calculator.Session

/-!
# Actions

What the program does with its lines.

* `Action`: answering them, showing how they are read, or showing the pattern of lexemes.
* `Session.dump`: how a line is read.
* `Action.turn`: what an action does with a line.
-/
set_option autoImplicit false

namespace Calculator

/-- What the program does. -/
inductive Action where
  /-- Answers every line. -/
  | execute
  /-- Shows the tokens of every line, and their postfix order. -/
  | dump
  /-- Shows the pattern of lexemes and reads no line. -/
  | grammar
deriving DecidableEq, Repr

/-- The name of an action in a note. -/
def Action.name : Action → String
  | execute => "executor"
  | dump => "dumper"
  | grammar => "raw_grammar"

/-- Tokens behind a label. -/
def labelled (label : String) (tokens : List Token) : Message :=
  .answer ("\t".intercalate (label :: tokens.map Token.text))

/-- What is shown of the way tokens are read. -/
def dumpTokens (tokens : List Token) : Except Fault (List Message) := do
  let first := labelled "tokens" tokens
  match ← Stop.settle (toPostfix tokens) with
  | .ok rpn => return [first, labelled "rpn" rpn]
  | .error e => return [first, .complaint e.message]

/-- What is shown of the way a line is read. -/
def dumpLine (line : String) : Except Fault (List Message) := do
  match ← Stop.settle (TokenStream.ofLine (Text.trim line)).all with
  | .ok tokens => dumpTokens tokens
  | .error e => return [.complaint e.message]

/-- Shows the tokens of a line and their postfix order. -/
def Session.dump (s : Session) (line : String) : Turn :=
  match dumpLine line with
  | .ok ms => { session := s, messages := ms }
  | .error fault => { session := s, failure := some (.evaluation fault) }

/-- What an action does with a line. -/
def Action.turn (a : Action) (precision : Int) (s : Session) (line : String) : Turn :=
  match a with
  | execute => s.answer precision line
  | dump => s.dump line
  | grammar => { session := s }

/-- What an action does before the first line. -/
def Action.opening : Action → List Message
  | grammar => [.answer Calculator.grammar]
  | execute | dump => []

/-- Whether an action reads lines. -/
def Action.reads (a : Action) : Bool := a != .grammar

end Calculator
