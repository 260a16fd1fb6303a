import Calculator.Text.Unprintable

/-!
# Quoted texts

The form in which a text is shown inside a message.

* The quotes are single ones, unless the text holds a single quote and no double one.
* The quote and the backslash are written behind a backslash; tab, line feed and carriage return
  by their letters.
* Any other unprintable character is written by its code point, in two, four or eight hexadecimal
  digits.
-/
set_option autoImplicit false

namespace Calculator.Text

/-- The code point in hexadecimal, filled up with zeros to the given width. -/
def hexadecimal (width n : Nat) : List Char :=
  let ds := Nat.toDigits 16 n
  List.replicate (width - ds.length) '0' ++ ds

/-- A character as it is written between the quotes `q`. -/
def escaped (q c : Char) : List Char :=
  if c = q ∨ c = '\\' then ['\\', c]
  else if c = '\t' then ['\\', 't']
  else if c = '\n' then ['\\', 'n']
  else if c = '\r' then ['\\', 'r']
  else if isPrintable c then [c]
  else if c.toNat ≤ 0xFF then '\\' :: 'x' :: hexadecimal 2 c.toNat
  else if c.toNat ≤ 0xFFFF then '\\' :: 'u' :: hexadecimal 4 c.toNat
  else '\\' :: 'U' :: hexadecimal 8 c.toNat

/-- The quote that is put around a text. -/
def quoteMark (cs : List Char) : Char :=
  if cs.contains '\'' && !cs.contains '"' then '"' else '\''

/-- The text between quotes. -/
def quoted (s : String) : String :=
  let q := quoteMark s.toList
  String.ofList (q :: s.toList.flatMap (escaped q) ++ [q])

end Calculator.Text
