import Calculator.Command
import Calculator.History
import Calculator.Message
import Calculator.Registers
import Calculator.Text.Cut

/-!
# Sessions

The registers and the history that a user works with, line by line.

* `Session`: the state.
* `Turn`: what a line leaves behind: the state, the messages, and the failure that ends the session,
  if there is one.
* `Session.calculate`, `Session.obey`, `Session.answer`: an expression, a command, and any line.
* `Session.words`: the words that a user may want to have completed.
-/
set_option autoImplicit false

namespace Calculator

/-- The state of a session. -/
structure Session where
  registers : Registers := {}
  history : History := {}
deriving DecidableEq

/-- What ends a session without being asked for. -/
inductive Failure where
  | evaluation (fault : Fault)
  | precision (fault : PrecisionFault)
  | index (fault : IndexFault)
  /-- An assignment has no text. -/
  | missingAssignment
deriving DecidableEq

/-- The message of a failure. -/
def Failure.message : Failure → String
  | evaluation fault => fault.message
  | precision fault => fault.message
  | index fault => fault.message
  | missingAssignment => "'list' object has no attribute 'partition'"

/-- What a line leaves behind. -/
structure Turn where
  session : Session
  messages : List Message := []
  failure : Option Failure := none
deriving DecidableEq

namespace Turn

/-- The turn with messages put before its own. -/
def after (ms : List Message) (t : Turn) : Turn := { t with messages := ms ++ t.messages }

/-- Goes on with a session that has not failed. -/
def andThen (t : Turn) (next : Session → Turn) : Turn :=
  match t.failure with
  | some _ => t
  | none => (next t.session).after t.messages

end Turn

namespace Session

/-! ## Expressions -/

/-- The turn of an evaluation that came to an end. -/
def record (s : Session) (r : Result) : Turn :=
  match r.outcome with
  | .error e => { session := s, messages := [.complaint e.message] }
  | .ok x =>
    match fixed r.precision x with
    | .error fault => { session := s, failure := some (.precision fault) }
    | .ok text =>
      { session := { s with history := s.history.add ⟨r.expression, text⟩ }
        messages := [.answer ("Result: " ++ text)] }

/-- Evaluates an expression; a value is shown and remembered. -/
def calculate (precision : Int) (s : Session) (expression : String) : Turn :=
  let outcome := evaluate expression s.registers.definitions precision
  let turn : Turn := match outcome with
    | .error fault => { session := s, failure := some (.evaluation fault) }
    | .ok r => s.record r
  turn.after ((trace expression outcome).map (.note .evaluation))

/-! ## Variables -/

/-- The name and the value in the text of an assignment. They are separated by the first equals
sign, and by the first space in a text without one. -/
def assignmentParts (text : String) : String × String :=
  Text.cutAt (if text.toList.contains '=' then '=' else ' ') text

/-- Keeps a variable, or says why not. -/
def keep (s : Session) (name value : String) : Except Error (String × List Message) × Session :=
  let (kept, registers) := (Registers.keep name value).on s.registers
  (kept.map fun n => (n, [.note .registers (registers.storedNote n)]), { s with registers })

/-- Keeps the variable of an assignment. -/
def assign (s : Session) (text : String) : Turn :=
  let (name, value) := assignmentParts text
  match s.keep name value with
  | (.ok (n, notes), s) =>
    { session := s, messages := notes ++ [.answer ("Variable \"" ++ n ++ "\" saved.")] }
  | (.error e, s) => { session := s, messages := [.complaint e.message] }

/-- Forgets a variable. -/
def forget (s : Session) (name : String) : Turn :=
  match (Registers.forget name).on s.registers with
  | (.ok (), registers) =>
    { session := { s with registers }
      messages := [.note .registers (Registers.removedNote name),
        .answer ("Variable \"" ++ Text.toLower name ++ "\" removed.")] }
  | (.error e, registers) =>
    { session := { s with registers }, messages := [.complaint e.message] }

/-- A variable with its value, in six digits at most. -/
def variableLine (p : String × Float) : String := p.1 ++ " = " ++ Number.generalText p.2

/-- The lines that list the variables. -/
def variableLines (s : Session) : List String :=
  match s.registers.bindings.pairs with
  | [] => ["No variables added yet."]
  | ps => ps.map variableLine

/-! ## History -/

/-- An entry with its number. -/
def entryLine (number : Nat) (e : Entry) : String :=
  toString number ++ ". " ++ e.expression ++ " = " ++ e.result

/-- The lines that list entries, the first of which has the given number. -/
def entryLines (number : Nat) : List Entry → List String
  | [] => []
  | e :: es => entryLine number e :: entryLines (number + 1) es

/-- The lines that list the history; the newest entry has the number one. -/
def historyLines (s : Session) : List String :=
  match s.history.entries with
  | [] => ["No history yet."]
  | es => entryLines 1 es

/-- The index of the entry whose number a text gives. -/
def entryIndex? (s : Session) (text : String) : Option Int :=
  match Number.integer? text with
  | some n => if 0 ≤ n - 1 ∧ n - 1 < s.history.size then some (n - 1) else none
  | none => none

/-- The complaint about a text that is the number of no entry. -/
def noEntry (s : Session) (text : String) : Turn :=
  { session := s, messages := [.complaint ("No such history entry " ++ text ++ ".")] }

/-- The turn of an index that names no entry. -/
def lost (s : Session) (fault : IndexFault) : Turn :=
  { session := s, failure := some (.index fault) }

/-- Drops the entry whose number is given. -/
def deleteEntry (s : Session) (text : String) : Turn :=
  match s.entryIndex? text with
  | some index =>
    match s.history.delete index with
    | .ok history => { session := { s with history } }
    | .error fault => s.lost fault
  | none => s.noEntry text

/-- Evaluates the expression of the entry whose number is given. -/
def recallEntry (precision : Int) (s : Session) (text : String) : Turn :=
  match s.entryIndex? text with
  | some index =>
    match s.history.get index with
    | .ok e => s.calculate precision e.expression
    | .error fault => s.lost fault
  | none => s.noEntry text

/-! ## Lines -/

/-- The help on expressions and commands. -/
def helpText : String :=
  "\n".intercalate
    ["expressions: numbers, + - * / ^, ( ), " ++ " ".intercalate (Function.all.map Function.name) ++
      ", " ++ " ".intercalate constantNames,
     ":let NAME VALUE   define a variable (also :let NAME=VALUE)",
     ":unlet NAME       remove a variable",
     ":vars             list variables",
     ":history          list past results, newest first",
     ":delete N         delete history entry N",
     ":recall N         evaluate history entry N again",
     ":clear            clear history",
     ":help             this text"]

/-- Carries out a command. -/
def obey (precision : Int) (s : Session) (c : Command) (argument : String) : Turn :=
  match c with
  | .assign => s.assign argument
  | .forget => s.forget argument
  | .listVariables => { session := s, messages := s.variableLines.map .answer }
  | .listHistory => { session := s, messages := s.historyLines.map .answer }
  | .deleteEntry => s.deleteEntry argument
  | .recallEntry => s.recallEntry precision argument
  | .clearHistory => { session := { s with history := {} } }
  | .help => { session := s, messages := [.answer helpText] }

/-- Answers a line. -/
def answer (precision : Int) (s : Session) (line : String) : Turn :=
  match Request.ofLine line with
  | .expression text => s.calculate precision text
  | .command c argument => s.obey precision c argument
  | .unknown word =>
    { session := s, messages := [.complaint ("Unknown command " ++ word ++ "; try :help")] }

/-- Answers lines one after the other, up to a failure. -/
def eachLine (step : Session → String → Turn) (s : Session) : List String → Turn
  | [] => { session := s }
  | line :: lines => (step s line).andThen fun s => eachLine step s lines

/-- The words that a user may want to have completed. -/
def words (s : Session) : List String :=
  Function.all.map Function.name ++ constantNames ++ s.registers.names

end Session

end Calculator
