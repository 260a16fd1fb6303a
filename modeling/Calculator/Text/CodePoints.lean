/-!
# Sets of code points

A property of characters is carried as closed ranges of code points, ascending and apart.

* `CodePoints.contains`: membership of a code point in such a list of ranges.
-/
set_option autoImplicit false

namespace Calculator.Text

/-- Closed ranges of code points, ascending and apart. -/
abbrev CodePoints := List (Nat × Nat)

/-- Whether one of the ranges holds the code point. -/
def CodePoints.contains (ranges : CodePoints) (n : Nat) : Bool :=
  ranges.any fun r => r.1 ≤ n && n ≤ r.2

end Calculator.Text
