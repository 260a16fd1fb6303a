/-!
# Bindings

Names bound to floats, in the order in which the names first came up.

* `Bindings`: the bound names with their values.
* `find?`, `insert`, `erase`: looking a name up, binding it and forgetting it. A name that is bound
  again keeps its place.
-/
set_option autoImplicit false

namespace Calculator

/-- Bound names with their values, the oldest first. -/
structure Bindings where
  pairs : List (String × Float) := []
deriving DecidableEq

namespace Bindings

/-- The value that a name is bound to. -/
def find? (b : Bindings) (name : String) : Option Float := b.pairs.lookup name

/-- The bound names, the oldest first. -/
def names (b : Bindings) : List String := b.pairs.map Prod.fst

/-- Binds the name to the value in a list of pairs. -/
def insertPair (name : String) (x : Float) : List (String × Float) → List (String × Float)
  | [] => [(name, x)]
  | p :: ps => if p.1 = name then (name, x) :: ps else p :: insertPair name x ps

/-- Binds a name. A bound name keeps its place, and a new one comes last. -/
def insert (b : Bindings) (name : String) (x : Float) : Bindings := ⟨insertPair name x b.pairs⟩

/-- Forgets a name. -/
def erase (b : Bindings) (name : String) : Bindings := ⟨b.pairs.filter (·.1 ≠ name)⟩

end Bindings

end Calculator
