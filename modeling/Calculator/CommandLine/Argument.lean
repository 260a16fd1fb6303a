import Calculator.CommandLine.UsageFault
import Calculator.Text.Cut
import Calculator.Text.DecimalDigit

/-!
# Arguments

How each argument of a command line reads, before any of them is carried out.

* `Form`: a switch, alone or with a value attached.
* `Argument`: an argument that is a plain value, a switch or an unknown switch, or stands beyond the
  argument `--`.
* `Argument.ofList`: the arguments of a command line. One ambiguous switch spoils all of them.
-/
set_option autoImplicit false

namespace Calculator.CommandLine

open Calculator.Text

/-- A switch as it is written. -/
inductive Form where
  | alone (s : Switch)
  /-- A long name, an equals sign and a value. -/
  | long (s : Switch) (value : List Char)
  /-- A letter with more characters behind it. An equals sign right behind the letter is left
  out. -/
  | short (s : Switch) (tail : List Char)
deriving DecidableEq, Repr

/-- An argument of a command line. -/
inductive Argument where
  | plain (text : String)
  | switch (text : String) (form : Form)
  /-- A switch that is none of the program's. -/
  | unknown (text : String)
  /-- The argument `--`, or one behind it. -/
  | beyond (text : String)
deriving DecidableEq, Repr

namespace Argument

/-- The argument as it is written. -/
def text : Argument → String
  | plain t | switch t _ | unknown t | beyond t => t

/-! ## Negative numbers -/

/-- Whether characters are decimal digits of any script. -/
def allDigits (cs : List Char) : Bool := cs.all fun c => (decimalDigit? c).isSome

/-- Characters without a line feed at their end. -/
def dropLineFeed (cs : List Char) : List Char :=
  if cs.getLast? = some '\n' then cs.dropLast else cs

/-- Whether characters behind a minus make a negative number: digits, with a point before the last
of them or without one. -/
def isMagnitude (cs : List Char) : Bool :=
  let (whole, places) := cutChars '.' (dropLineFeed cs)
  if (dropLineFeed cs).contains '.' then allDigits whole && allDigits places && !places.isEmpty
  else allDigits whole && !whole.isEmpty

/-! ## Single arguments -/

/-- Reads an argument that is no switch of the program: a negative number and a text with a space
are values all the same. -/
def ofOther (text : String) (behindMinus : List Char) : Argument :=
  if isMagnitude behindMinus || text.toList.contains ' ' then .plain text else .unknown text

/-- Reads an argument with two minus signs. The name may be shortened, and a value may follow an
equals sign. -/
def ofLong (text : String) (behindMinus : List Char) : Except UsageFault Argument :=
  let (name, value) := cutAt '=' text
  let form (s : Switch) : Form :=
    if text.toList.contains '=' then .long s value.toList else .alone s
  match Switch.ofLong? name, Switch.completions name with
  | some s, _ => .ok (.switch text (form s))
  | none, [] => .ok (ofOther text behindMinus)
  | none, [s] => .ok (.switch text (form s))
  | none, ss => .error (.ambiguous text ss)

/-- Reads an argument with one minus sign and a letter behind it. -/
def ofShort (text : String) (letter : Char) (tail : List Char) : Argument :=
  match Switch.ofLetter? letter, tail with
  | some s, [] => .switch text (.alone s)
  | some s, '=' :: tail => .switch text (.short s tail)
  | some s, tail => .switch text (.short s tail)
  | none, _ => ofOther text (letter :: tail)

/-- Reads one argument that does not stand beyond `--`. -/
def ofString (text : String) : Except UsageFault Argument :=
  match text.toList with
  | '-' :: '-' :: cs => ofLong text ('-' :: cs)
  | '-' :: c :: cs => .ok (ofShort text c cs)
  | _ => .ok (.plain text)

/-! ## All arguments -/

/-- Reads the arguments of a command line. -/
def ofList : List String → Except UsageFault (List Argument)
  | [] => .ok []
  | text :: texts =>
    if text = "--" then .ok ((text :: texts).map beyond)
    else do return (← ofString text) :: (← ofList texts)

end Argument

end Calculator.CommandLine
