import Calculator.CommandLine.Settings
import Calculator.Input

/-!
# The program

A run of the program on a session.

* `Ending`: how a run ends.
* `Report`: what a run leaves behind.
* `Program.begin`: what happens before the first line.
* `Program.run`: a whole run, with all its input at hand.
-/
set_option autoImplicit false

namespace Calculator

open CommandLine (Settings Refusal UsageFault)

/-- How a run ends. -/
inductive Ending where
  | exit (status : Nat)
  | failure (f : Failure)
deriving DecidableEq

/-- What a run leaves behind: the session, the texts on its two outputs, and how it ended. -/
structure Report where
  session : Session
  out : String
  err : String
  ending : Ending
deriving DecidableEq

/-- The messages that a user gets to see. -/
def shown (verbose : Bool) (ms : List Message) : List Message :=
  ms.filter fun m => verbose || !m.isNote

/-- The report on messages. -/
def Report.ofMessages (session : Session) (ms : List Message) (ending : Ending) : Report :=
  { session, out := String.join (ms.map Message.out), err := String.join (ms.map Message.err),
    ending }

namespace Program

/-! ## Before the first line -/

/-- Keeps the variables that are given as arguments, up to one that ends the run: a refused one, or
one without a text. The part before the first equals sign is the name. -/
def assignAll (s : Session) : List (Option String) → Session × List Message × Option Ending
  | [] => (s, [], none)
  | none :: _ => (s, [], some (.failure .missingAssignment))
  | some text :: texts =>
    let (name, value) := Text.cutAt '=' text
    match s.keep name value with
    | (.error e, s) => (s, [.complaint (UsageFault.assignment text e).complaint], some (.exit 2))
    | (.ok (_, notes), s) =>
      let (s, ms, ending) := assignAll s texts
      (s, notes ++ ms, ending)

/-- The note that an action starts. -/
def startNote (a : Action) : Message := .note .program ("running " ++ a.name)

/-- What happens before the first line: the session with its variables and the messages so far, or a
report if the run ends here. -/
def begin (s : Session) (o : Settings) : Except Report (Session × List Message) :=
  let (s, ms, ending) := assignAll s o.assignments
  match ending with
  | some e => .error (.ofMessages s (shown o.verbose ms) e)
  | none => .ok (s, ms ++ startNote o.action :: o.action.opening)

/-- The report on a command line that starts nothing. -/
def refuse (s : Session) : Refusal → Report
  | .help => .ofMessages s [.answer CommandLine.help] (.exit 0)
  | .fault f => .ofMessages s [.complaint f.complaint] (.exit 2)

/-! ## Lines -/

/-- The message of the prompt at which the lines are to be typed, if they are. An empty message asks
for no prompt. -/
def message? (o : Settings) : Option String :=
  if o.lines.isNone then o.prompt.filter (· ≠ "") else none

/-- The lines of a run without a prompt: those among the arguments, or those of the standard
input. -/
def givenLines (o : Settings) (stream : String) : Lines :=
  match o.lines with
  | some ls => { lines := ls }
  | none => .ofStream stream

/-- The lines of a run. -/
def lines (p : PromptSession) (o : Settings) (stream keys : String) : Lines :=
  match message? o with
  | some message => .ofPrompt p message [] keys.toList
  | none => givenLines o stream

/-- How a run ends behind its lines. A user who breaks off leaves the status 1. -/
def ending (t : Turn) (interrupted : Bool) : Ending :=
  match t.failure with
  | some f => .failure f
  | none => .exit (if interrupted then 1 else 0)

/-- What the action does with its lines. -/
def work (o : Settings) (s : Session) (ls : Lines) : Turn × Bool :=
  if o.action.reads then
    (Session.eachLine (o.action.turn o.precision) s ls.lines, ls.interrupted)
  else ({ session := s }, false)

/-! ## Whole runs -/

/-- A run with the given settings. -/
def runSettings (s : Session) (o : Settings) (ls : Lines) : Report :=
  match begin s o with
  | .error report => report
  | .ok (s, ms) =>
    let (t, interrupted) := work o s ls
    .ofMessages t.session (shown o.verbose (ms ++ t.messages)) (ending t interrupted)

/-- A run with the given arguments, standard input, and keys at the prompt. -/
def run (p : PromptSession) (s : Session) (arguments : List String) (stream keys : String) :
    Report :=
  match Settings.ofArguments arguments with
  | .error r => refuse s r
  | .ok o => runSettings s o (lines p o stream keys)

end Program

end Calculator
