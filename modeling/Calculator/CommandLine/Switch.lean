/-!
# Switches

The switches of the command line.

* `Switch`: the switches, with a short and a long name each.
* `Switch.arity`: how many of the arguments that follow a switch belong to it.
* `Switch.rival?`: the switch that may not stand beside it.
-/
set_option autoImplicit false

namespace Calculator.CommandLine

/-- The switches. -/
inductive Switch where
  | help
  | verbose
  | precision
  | assign
  | expression
  | prompt
  | grammar
  | dump
deriving DecidableEq, Repr

/-- How many arguments belong to a switch. -/
inductive Arity where
  | none
  | one
  | atMostOne
  /-- All that follow. -/
  | rest
deriving DecidableEq, Repr

namespace Switch

/-- All switches. -/
def all : List Switch := [help, verbose, precision, assign, expression, prompt, grammar, dump]

/-- The letter of the short name. -/
def letter : Switch → Char
  | help => 'h'
  | verbose => 'v'
  | precision => 'k'
  | assign => 's'
  | expression => 'e'
  | prompt => 'p'
  | grammar => 'G'
  | dump => 'D'

/-- The short name. -/
def short (s : Switch) : String := String.ofList ['-', s.letter]

/-- The long name. -/
def long : Switch → String
  | help => "--help"
  | verbose => "--verbose"
  | precision => "--precision"
  | assign => "--set"
  | expression => "--expression"
  | prompt => "--prompt"
  | grammar => "--raw-grammar"
  | dump => "--dump"

/-- Both names, as they stand in a message. -/
def names (s : Switch) : String := s.short ++ "/" ++ s.long

/-- The switch with the given letter. -/
def ofLetter? (c : Char) : Option Switch := all.find? (·.letter = c)

/-- The switch with the given long name. -/
def ofLong? (name : String) : Option Switch := all.find? (·.long = name)

/-- The switches whose long names start with the given text. -/
def completions (start : String) : List Switch := all.filter (start.toList.isPrefixOf ·.long.toList)

/-- How many arguments belong to a switch. -/
def arity : Switch → Arity
  | help | verbose | grammar | dump => .none
  | precision | assign => .one
  | prompt => .atMostOne
  | expression => .rest

/-- The switch that may not stand beside this one. -/
def rival? : Switch → Option Switch
  | expression => some prompt
  | prompt => some expression
  | grammar => some dump
  | dump => some grammar
  | help | verbose | precision | assign => none

end Switch

end Calculator.CommandLine
