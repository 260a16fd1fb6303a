/-!
# Cut texts

* `cutChars`, `cutAt`: what stands before the first occurrence of a character, and what stands
  behind it.
-/
set_option autoImplicit false

namespace Calculator.Text

/-- The characters before the first `c`, and those behind it; nothing stands behind a `c` that does
not occur. -/
def cutChars (c : Char) (cs : List Char) : List Char × List Char :=
  (cs.takeWhile (· ≠ c), (cs.dropWhile (· ≠ c)).drop 1)

/-- A text cut at the first `c`. -/
def cutAt (c : Char) (s : String) : String × String :=
  let (before, behind) := cutChars c s.toList
  (String.ofList before, String.ofList behind)

end Calculator.Text
