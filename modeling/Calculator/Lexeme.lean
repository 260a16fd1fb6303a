import Calculator.Operator
import Calculator.Text.Blank

/-!
# Lexemes

The words of a line: runs of digits and points, names, operators and brackets, with blanks between
them where they are wanted.

* `Lexeme`: the words, and `Lexeme.chars`, their spelling.
* `scan`: the lexemes of a line from left to right, each as long as possible, and the character at
  which no lexeme starts, if there is one.
* `grammar`: the lexemes as a pattern, for display.
-/
set_option autoImplicit false

namespace Calculator

open Calculator.Text

/-- The words of a line. -/
inductive Lexeme where
  /-- A run of digits and points. -/
  | numeral (digits : List Char)
  /-- A letter, followed by letters, digits and underscores. -/
  | name (letters : List Char)
  | operator (op : Operator)
  | opening
  | closing
deriving DecidableEq, Repr

/-! ## Classes of characters -/

/-- The characters of a numeral: the ASCII digits and the point. -/
def isNumeralChar (c : Char) : Bool := c.isDigit || c == '.'

/-- The characters of a name behind its first letter, all of them ASCII. -/
def isNameChar (c : Char) : Bool := c.isAlphanum || c == '_'

namespace Lexeme

/-- The spelling of a lexeme. -/
def chars : Lexeme → List Char
  | numeral ds => ds
  | name cs => cs
  | operator op => [op.mark]
  | opening => ['(']
  | closing => [')']

/-- The lexeme that a single character spells. -/
def ofChar? (c : Char) : Option Lexeme :=
  if c = '(' then some opening
  else if c = ')' then some closing
  else (Operator.ofMark? c).map operator

end Lexeme

/-! ## Scanning -/

/-- The rest of a list behind a run is no longer than the list. -/
theorem length_dropWhile_lt_succ (p : Char → Bool) (cs : List Char) :
    (cs.dropWhile p).length < cs.length + 1 :=
  Nat.lt_succ_of_le (List.dropWhile_sublist p).length_le

/-- The lexemes of a line up to the end or to a character that starts none, and that character. -/
def scan : List Char → List Lexeme × Option Char
  | [] => ([], none)
  | c :: cs =>
    if isBlank c then scan cs
    else if isNumeralChar c then
      let (ls, stuck) := scan (cs.dropWhile isNumeralChar)
      (.numeral (c :: cs.takeWhile isNumeralChar) :: ls, stuck)
    else if c.isAlpha then
      let (ls, stuck) := scan (cs.dropWhile isNameChar)
      (.name (c :: cs.takeWhile isNameChar) :: ls, stuck)
    else match Lexeme.ofChar? c with
      | some l =>
        let (ls, stuck) := scan cs
        (l :: ls, stuck)
      | none => ([], some c)
termination_by cs => cs.length
decreasing_by
  · exact Nat.lt_succ_self _
  · exact length_dropWhile_lt_succ _ _
  · exact length_dropWhile_lt_succ _ _
  · exact Nat.lt_succ_self _

/-! ## Display -/

/-- One alternative of the displayed pattern. -/
def grammarGroup (name pattern : String) : String := "(?<" ++ name ++ ">" ++ pattern ++ ")"

/-- The lexemes as a pattern with one named group for each kind. -/
def grammar : String :=
  "|".intercalate
    [grammarGroup "number" "[0-9.]+", grammarGroup "identifier" "[A-Za-z][A-Za-z0-9_]*",
     grammarGroup "operator" "(?:\\+|\\-|\\*|/|\\^)", grammarGroup "paren" "[()]",
     grammarGroup "space" "\\s+"]

end Calculator
