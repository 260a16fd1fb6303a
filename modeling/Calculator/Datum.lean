import Calculator.Number.Natural
import Calculator.Number.Numeral
import Calculator.Text.Quoted

/-!
# Data from outside

A caller may give names and values as texts, integers, truth values or floats, or give none.

* `Datum`: such a value.
* `Datum.toFloat`: the float it stands for, or why it stands for none (`DatumFault`).
* `Datum.toText`, `Datum.quoted`: the text it stands for, if it has one, and its form inside a
  message.
-/
set_option autoImplicit false

namespace Calculator

/-- A name or value as a caller gives it. -/
inductive Datum where
  | text (s : String)
  | integer (n : Int)
  | boolean (b : Bool)
  | real (x : Float)
  | absent
deriving DecidableEq

/-- Why a datum stands for no float, or for no text. -/
inductive DatumFault where
  /-- The text is no numeral. -/
  | notNumeric (s : String)
  /-- The integer lies beyond the largest float. -/
  | integerTooLarge
  /-- The integer has more digits than are written. -/
  | integerTooLong
  /-- There is no datum. -/
  | absent
deriving DecidableEq, Repr

/-- The message of a fault. -/
def DatumFault.message : DatumFault → String
  | notNumeric s => Number.notConverted s
  | integerTooLarge => "int too large to convert to float"
  | integerTooLong =>
    "Exceeds the limit (" ++ toString Number.mostDigits ++ " digits) for integer string " ++
      "conversion; use sys.set_int_max_str_digits() to increase the limit"
  | absent => "float() argument must be a string or a real number, not 'NoneType'"

namespace Datum

/-- The float nearest to an integer. -/
def nearestInteger? (n : Int) : Option Float :=
  let x := Number.nearest n.natAbs 1
  if x.isFinite then some (if n < 0 then -x else x) else none

/-- The float that a datum stands for. -/
def toFloat : Datum → Except DatumFault Float
  | text s =>
    match Number.float? s with
    | some x => .ok x
    | none => .error (.notNumeric s)
  | integer n =>
    match nearestInteger? n with
    | some x => .ok x
    | none => .error .integerTooLarge
  | boolean b => .ok (if b then 1 else 0)
  | real x => .ok x
  | absent => .error .absent

/-- The text that a datum stands for. An integer with too many digits has none. -/
def toText : Datum → Except DatumFault String
  | text s => .ok s
  | integer n =>
    if Number.mostDigits < Number.digitCount n.natAbs then .error .integerTooLong
    else .ok (toString n)
  | boolean b => .ok (if b then "True" else "False")
  | real x => .ok (Number.shortestText x)
  | absent => .ok "None"

/-- A datum as it is shown inside a message: a text stands between quotes. -/
def quoted : Datum → Except DatumFault String
  | text s => .ok (Text.quoted s)
  | d => d.toText

end Datum

end Calculator
