import Calculator.Text.Blank

/-!
# Commands

A line that starts with a colon names a command and may give it an argument; any other line is an
expression.

* `Command`: the commands, and `Command.word`, their names.
* `Request`, `Request.ofLine`: what a line asks for.
-/
set_option autoImplicit false

namespace Calculator

open Calculator.Text

/-- The commands. -/
inductive Command where
  | assign
  | forget
  | listVariables
  | listHistory
  | deleteEntry
  | recallEntry
  | clearHistory
  | help
deriving DecidableEq, Repr

namespace Command

/-- All commands. -/
def all : List Command :=
  [assign, forget, listVariables, listHistory, deleteEntry, recallEntry, clearHistory, help]

/-- The name of a command. -/
def word : Command → String
  | assign => "let"
  | forget => "unlet"
  | listVariables => "vars"
  | listHistory => "history"
  | deleteEntry => "delete"
  | recallEntry => "recall"
  | clearHistory => "clear"
  | help => "help"

/-- The command with the given name. -/
def ofWord? (s : String) : Option Command := all.find? (·.word = s)

end Command

/-- What a line asks for. -/
inductive Request where
  | expression (text : String)
  | command (c : Command) (argument : String)
  /-- A line with a colon that names no command; `word` is its first word. -/
  | unknown (word : String)
deriving DecidableEq, Repr

/-- Reads a trimmed text with a colon, of which `cs` is the rest. The name of the command reaches up
to the first blank. -/
def Request.ofCommandText (text : String) (cs : List Char) : Request :=
  match Command.ofWord? (String.ofList (cs.takeWhile (!isBlank ·))) with
  | some c => .command c (trim (String.ofList (cs.dropWhile (!isBlank ·))))
  | none => .unknown (firstWord text)

/-- What a line asks for, once white space at its ends is dropped. -/
def Request.ofLine (line : String) : Request :=
  let text := trim line
  match text.toList with
  | ':' :: cs => .ofCommandText text cs
  | _ => .expression text

end Calculator
