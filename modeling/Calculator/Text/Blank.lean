import Calculator.Text.CodePoints

/-!
# Blanks and trimming

Two notions of white space meet in a line of input.

* `isBlank`: the characters that separate lexemes and command words.
* `isMargin`: the characters that are trimmed from the ends of a text; these are the blanks and
  the four separators U+001C to U+001F.
* `trim`, `firstWord`: a text without its margins, and what it holds up to the next margin.
-/
set_option autoImplicit false

namespace Calculator.Text

/-- The code points with the Unicode property White_Space. -/
def blanks : CodePoints :=
  [(0x09, 0x0D), (0x20, 0x20), (0x85, 0x85), (0xA0, 0xA0), (0x1680, 0x1680), (0x2000, 0x200A),
   (0x2028, 0x2029), (0x202F, 0x202F), (0x205F, 0x205F), (0x3000, 0x3000)]

/-- White space between lexemes, around numerals and after the name of a command. -/
def isBlank (c : Char) : Bool := blanks.contains c.toNat

/-- White space at the ends of a text: the blanks and the separators U+001C to U+001F. -/
def isMargin (c : Char) : Bool := isBlank c || (0x1C ≤ c.toNat && c.toNat ≤ 0x1F)

/-- Drops the characters that satisfy `p` from both ends. -/
def trimBy (p : Char → Bool) (cs : List Char) : List Char :=
  ((cs.dropWhile p).reverse.dropWhile p).reverse

/-- The text without white space at its ends. -/
def trim (s : String) : String := String.ofList (trimBy isMargin s.toList)

/-- The first word of a text: what stands before the first white space after its left margin. -/
def firstWord (s : String) : String :=
  String.ofList ((s.toList.dropWhile isMargin).takeWhile (!isMargin ·))

end Calculator.Text
