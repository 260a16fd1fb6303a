/-!
# Messages

What a session has to say.

* `Message`: an answer, a complaint, or a note on what is going on.
* `Message.out`, `Message.err`: the texts of messages for the two outputs.
-/
set_option autoImplicit false

namespace Calculator

/-- The parts of the program that take notes. -/
inductive NoteSource where
  | evaluation
  | registers
  | program
deriving DecidableEq, Repr

/-- The name under which a part takes its notes. -/
def NoteSource.name : NoteSource → String
  | evaluation => "infixcalc.calculator"
  | registers => "infixcalc.registers"
  | program => "infixcalc.cli"

/-- One or more lines for the user. -/
inductive Message where
  /-- For the standard output. -/
  | answer (text : String)
  /-- For the error output. -/
  | complaint (text : String)
  /-- For the error output, if the user wants to read the notes. -/
  | note (source : NoteSource) (text : String)
deriving DecidableEq, Repr

namespace Message

/-- Whether the message is a note. -/
def isNote : Message → Bool
  | note _ _ => true
  | _ => false

/-- What a message puts on the standard output. -/
def out : Message → String
  | answer text => text ++ "\n"
  | _ => ""

/-- What a message puts on the error output. -/
def err : Message → String
  | answer _ => ""
  | complaint text => text ++ "\n"
  | note source text => source.name ++ ": " ++ text ++ "\n"

end Message

end Calculator
