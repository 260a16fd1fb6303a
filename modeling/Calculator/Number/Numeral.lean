import Calculator.Text.Blank
import Calculator.Text.Cut
import Calculator.Text.DecimalDigit
import Calculator.Text.Quoted
import Calculator.Number.Binary64

/-!
# Numerals

* `isTooLong`: the numerals with more digits than are converted.
* `literal`: the numerals of an expression, ASCII digits with at most one point.
* `float?`: the numerals that a caller may give for a value; blanks around, a sign, single
  underscores between digits, an exponent, the words for infinity and for no number.
* `integer?`: the numerals for a count; at most 4300 digits.
-/
set_option autoImplicit false

namespace Calculator.Number

open Calculator.Text

/-! ## Digits -/

/-- The value of ASCII digits, read as a natural number. -/
def natural (ds : List Char) : Nat := Nat.ofDigitChars 10 ds 0

/-- The most digits and the most decimal places of a numeral that is converted to a float. -/
def mostConverted : Nat := 1000000000

/-- Whether a numeral is too long to be converted, by its digits before and behind the point. Zeros
in front are no digits that count, but behind the point they are places. -/
def isTooLong (whole places : List Char) : Bool :=
  mostConverted < ((whole ++ places).dropWhile (· = '0')).length || mostConverted < places.length

/-- The message on a text that is not converted to a float. -/
def notConverted (text : String) : String :=
  "could not convert string to float: " ++ Text.quoted text

/-! ## Literals -/

/-- Why a run of digits and points is no number. -/
inductive LiteralFault where
  /-- It has no digit or more than one point, or its value is out of range. -/
  | invalid
  /-- It is too long to be converted. -/
  | tooLong
deriving DecidableEq, Repr

/-- The float nearest to a run of digits and points. The length of a run counts before its value
does. -/
def literal (cs : List Char) : Except LiteralFault Float :=
  let (whole, places) := cutChars '.' cs
  if places.contains '.' || whole ++ places = [] then .error .invalid
  else if isTooLong whole places then .error .tooLong
  else
    let x := nearest (natural (whole ++ places)) (tenPow places.length)
    if x.isFinite then .ok x else .error .invalid

/-! ## Numerals of a caller -/

/-- The characters without underscores, each of which has to stand between two digits. The flag says
whether the character before is a digit. -/
def dropUnderscores? (digitBefore : Bool) : List Char → Option (List Char)
  | [] => some []
  | '_' :: cs =>
    if digitBefore && (cs.head?.any Char.isDigit) then dropUnderscores? false cs else none
  | c :: cs => (dropUnderscores? (c.isDigit) cs).map (c :: ·)

/-- Blanks dropped from both ends, digits of any script written as ASCII digits, and underscores
between digits dropped. -/
def plainNumeral? (s : String) : Option (List Char) :=
  dropUnderscores? false ((trimBy isBlank s.toList).map plainDigit)

/-- The sign before a numeral, and the rest. -/
def splitSign : List Char → Bool × List Char
  | '-' :: cs => (true, cs)
  | '+' :: cs => (false, cs)
  | cs => (false, cs)

/-- The integer that is written by the characters: a sign at most, and at least one digit. -/
def signedInteger? (cs : List Char) : Option Int :=
  let (negative, ds) := splitSign cs
  if ds ≠ [] && ds.all Char.isDigit then
    some (if negative then -(natural ds : Int) else natural ds)
  else none

/-- The least magnitude of an exponent that is not told apart from greater ones. -/
def longExponent : Nat := 1000000000

/-- The magnitude that is taken for every long exponent. -/
def greatestDecimalExponent : Int := 1100000000

/-- An exponent as it is taken. -/
def takenExponent (e : Int) : Int :=
  if e.natAbs < longExponent then e
  else if e < 0 then -greatestDecimalExponent else greatestDecimalExponent

/-- The exponent behind the digits of a numeral; it is zero where nothing follows. -/
def exponent? : List Char → Option Int
  | [] => some 0
  | c :: cs => if c = 'e' ∨ c = 'E' then (signedInteger? cs).map takenExponent else none

/-- The float nearest to an unsigned decimal numeral that is not too long. -/
def decimal? (cs : List Char) : Option Float :=
  let whole := cs.takeWhile Char.isDigit
  let rest := cs.dropWhile Char.isDigit
  let (places, rest) := match rest with
    | '.' :: r => (r.takeWhile Char.isDigit, r.dropWhile Char.isDigit)
    | r => ([], r)
  if whole ++ places = [] || isTooLong whole places then none
  else
    (exponent? rest).map fun e => nearestDecimal (natural (whole ++ places)) (e - places.length)

/-- The float that an unsigned numeral or word denotes. -/
def magnitude? (cs : List Char) : Option Float :=
  let word := String.ofList (cs.map Char.toLower)
  if word = "inf" ∨ word = "infinity" then some infinity
  else if word = "nan" then some notANumber
  else decimal? cs

/-- The float that a text denotes. -/
def float? (s : String) : Option Float := do
  let (negative, cs) := splitSign (← plainNumeral? s)
  let x ← magnitude? cs
  return if negative then -x else x

/-- The most digits an integer may be written with. -/
def mostDigits : Nat := 4300

/-- The integer that a text denotes. -/
def integer? (s : String) : Option Int := do
  let cs ← plainNumeral? s
  if mostDigits < (splitSign cs).2.length then none else signedInteger? cs

end Calculator.Number
