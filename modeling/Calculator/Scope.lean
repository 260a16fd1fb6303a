import Calculator.Bindings
import Calculator.Datum
import Calculator.Operator
import Calculator.Text.LowerCase

/-!
# Scopes

The names that an expression may use: the constants, overlaid with the names of a caller.

* `constants`: the bindings of the constants.
* `Definitions`: names with data, in the order in which a caller gives them.
* `scopeOf`: the constants overlaid with definitions, whose names are taken in lower case.
-/
set_option autoImplicit false

namespace Calculator

/-- The constants with their values. -/
def constants : Bindings := ⟨Constant.all.map fun c => (c.name, c.value)⟩

/-- The names of the constants. -/
def constantNames : List String := Constant.all.map Constant.name

/-- Names with data, in the order of the caller. -/
abbrev Definitions := List (String × Datum)

/-- Binds a defined name, in lower case, to its float. -/
def overlay (scope : Bindings) (d : String × Datum) : Except DatumFault Bindings :=
  (d.2.toFloat).map (scope.insert (Text.toLower d.1))

/-- The constants overlaid with definitions; of two with one name in lower case the later one
counts. -/
def scopeOf (definitions : Definitions) : Except DatumFault Bindings :=
  definitions.foldlM overlay constants

/-- The bindings as definitions. -/
def Bindings.definitions (b : Bindings) : Definitions := b.pairs.map fun p => (p.1, .real p.2)

end Calculator
