import Calculator.Evaluation

/-!
# Registers

The variables that a user keeps. The registers outlive a call that is refused.

* `Registers`: the names with their values.
* `Keeping`: a computation on registers, which may fail behind any change; `Keeping.on` is its
  outcome, with the registers that it leaves.
* `keep`, `forget`: the calls that change registers; names are trimmed and taken in lower case.
* `store`, `remove`: the same calls on loose names and values (`CallFault`).
* `scope`: the constants with the variables laid over them.
-/
set_option autoImplicit false

namespace Calculator

/-- The variables that a user keeps, the oldest first. -/
structure Registers where
  bindings : Bindings := {}
deriving DecidableEq

/-! ## Names -/

/-- The letters of a variable's name in lower case: the ASCII letters and the long s, whose capital
is one of them. -/
def isVariableLetter (c : Char) : Bool := c.isLower || c == 'ſ'

/-- Whether a text in lower case can name a variable. -/
def isVariableName (name : String) : Bool :=
  match name.toList with
  | [] => false
  | c :: cs => isVariableLetter c && cs.all fun c => isVariableLetter c || c.isDigit || c == '_'

/-- The name of a variable, from a text in any case and with white space around. -/
def variableName (text : String) : String := Text.toLower (Text.trim text)

namespace Registers

/-! ## Keeping and forgetting -/

/-- The finite float that a trimmed text denotes. -/
def finite? (text : String) : Option Float :=
  (Number.float? text).filter Float.isFinite

/-- The name and the value to keep. The first objection counts: no name or no value, a name that is
no variable's, the name of a constant, and a value that is no finite number. -/
@[irreducible] def check (name value : String) : Except Error (String × Float) :=
  let name := variableName name
  let text := Text.trim value
  if name = "" ∨ text = "" then .error .emptyAssignment
  else if !isVariableName name then .error .invalidName
  else if constantNames.contains name then .error (.constantName constantNames)
  else match finite? text with
    | some x => .ok (name, x)
    | none => .error .invalidValue

/-- A computation on registers. One that fails leaves them as they are when it fails. -/
abbrev Keeping (ε : Type) := ExceptT ε (StateM Registers)

/-- The outcome of a computation, with the registers that it leaves. -/
def Keeping.on {ε α : Type} (c : Keeping ε α) (r : Registers) : Except ε α × Registers :=
  Id.run (StateT.run (ExceptT.run c) r)

/-- Keeps a variable and gives the name under which it is kept. -/
def keep (name value : String) : Keeping Error String := do
  let (n, x) ← check name value
  modify fun r => ⟨r.bindings.insert n x⟩
  return n

/-- Forgets a variable. -/
def forget (name : String) : Keeping Error Unit := do
  let n := variableName name
  match (← get).bindings.find? n with
  | some _ => modify fun r => ⟨r.bindings.erase n⟩
  | none => throw (.unknownVariable n)

/-! ## Loose names and values -/

/-- Why a call with a loose name or value fails. -/
inductive CallFault where
  | report (e : Error)
  /-- The name or the value has no text. -/
  | datum (fault : DatumFault)
deriving DecidableEq

/-- The text of a loose name or value. -/
def textOf (d : Datum) : Keeping CallFault String := d.toText.mapError CallFault.datum

/-- Keeps a variable that is given by a loose name and value. -/
def store (name value : Datum) : Keeping CallFault String := do
  let name ← textOf name
  let value ← textOf value
  (keep name value).adapt .report

/-- Forgets a variable that is given by a loose name. -/
def remove (name : Datum) : Keeping CallFault Unit := do
  let name ← textOf name
  (forget name).adapt .report

/-! ## Looking up -/

/-- The value that is kept under exactly this name. -/
def get? (r : Registers) (name : String) : Option Float := r.bindings.find? name

/-- The names, the oldest first. -/
def names (r : Registers) : List String := r.bindings.names

/-- The variables as definitions. -/
def definitions (r : Registers) : Definitions := r.bindings.definitions

/-- The constants with the variables laid over them. -/
def scope (r : Registers) : Except DatumFault Bindings := scopeOf r.definitions

/-! ## Notes -/

/-- The note on a variable that was kept. -/
def storedNote (r : Registers) (name : String) : String :=
  "stored " ++ name ++ " = " ++ ((r.get? name).map Number.shortestText).getD ""

/-- The note on a variable that was forgotten. -/
def removedNote (name : String) : String := "removed " ++ variableName name

end Registers

end Calculator
