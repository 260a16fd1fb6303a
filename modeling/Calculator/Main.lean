import Calculator.Program

/-!
# Command line

The calculator as a program: arguments, standard input and output.
-/
set_option autoImplicit false

open Calculator
open Calculator.CommandLine (Settings)

namespace Calculator.Main

/-- Writes texts on the two outputs. -/
def write (out err : String) : IO Unit := do
  IO.print out
  IO.eprint err
  (← IO.getStdout).flush

/-- Writes the messages that the user gets to see. -/
def tell (o : Settings) (ms : List Message) : IO Unit :=
  let ms := shown o.verbose ms
  write (String.join (ms.map Message.out)) (String.join (ms.map Message.err))

/-- Writes a report, and gives the status of the program. -/
def conclude (r : Report) : IO UInt32 := do
  write r.out r.err
  match r.ending with
  | .exit status => return status.toUInt32
  | .failure f =>
    IO.eprintln f.message
    return 1

/-- Answers lines at the prompt until the input ends. -/
partial def converse (o : Settings) (s : Session) : IO UInt32 := do
  write (o.prompt.getD CommandLine.defaultPrompt) ""
  let line ← (← IO.getStdin).getLine
  if line.isEmpty then return 0
  let t := o.action.turn o.precision s line
  tell o t.messages
  match t.failure with
  | some f =>
    IO.eprintln f.message
    return 1
  | none => converse o t.session

/-- Runs the program with its settings. -/
def start (o : Settings) : IO UInt32 := do
  if o.action.reads && (Program.message? o).isSome then
    match Program.begin {} o with
    | .error r => conclude r
    | .ok (s, ms) =>
      tell o ms
      converse o s
  else
    let text ← if o.action.reads && o.lines.isNone then (← IO.getStdin).readToEnd else pure ""
    conclude (Program.runSettings {} o (Program.givenLines o text))

end Calculator.Main

/-- The calculator. -/
def main (args : List String) : IO UInt32 :=
  match Settings.ofArguments args with
  | .error r => Main.conclude (Program.refuse {} r)
  | .ok o => Main.start o
