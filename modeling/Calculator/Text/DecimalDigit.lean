/-!
# Decimal digits

Each script with decimal digits has ten of them in a row, so the zeros of Unicode 14 are enough to
give every decimal digit its value.

* `decimalZeros`: the code points of the zeros.
* `decimalDigit?`: the value of a decimal digit of any script.
* `plainDigit`: the character, with a decimal digit of any script written as an ASCII digit.
-/
set_option autoImplicit false

namespace Calculator.Text

/-- The code points of the digits zero. -/
def decimalZeros : List Nat :=
  [0x30, 0x0660, 0x06F0, 0x07C0, 0x0966, 0x09E6, 0x0A66, 0x0AE6, 0x0B66, 0x0BE6, 0x0C66, 0x0CE6,
   0x0D66, 0x0DE6, 0x0E50, 0x0ED0, 0x0F20, 0x1040, 0x1090, 0x17E0, 0x1810, 0x1946, 0x19D0, 0x1A80,
   0x1A90, 0x1B50, 0x1BB0, 0x1C40, 0x1C50, 0xA620, 0xA8D0, 0xA900, 0xA9D0, 0xA9F0, 0xAA50, 0xABF0,
   0xFF10, 0x104A0, 0x10D30, 0x11066, 0x110F0, 0x11136, 0x111D0, 0x112F0, 0x11450, 0x114D0,
   0x11650, 0x116C0, 0x11730, 0x118E0, 0x11950, 0x11C50, 0x11D50, 0x11DA0, 0x16A60, 0x16AC0,
   0x16B50, 0x1D7CE, 0x1D7D8, 0x1D7E2, 0x1D7EC, 0x1D7F6, 0x1E140, 0x1E2F0, 0x1E950, 0x1FBF0]

/-- The value of a decimal digit. -/
def decimalDigit? (c : Char) : Option Nat :=
  (decimalZeros.find? fun z => z ≤ c.toNat && c.toNat ≤ z + 9).map (c.toNat - ·)

/-- Writes a decimal digit of any script as an ASCII digit and leaves every other character. -/
def plainDigit (c : Char) : Char :=
  match decimalDigit? c with
  | some d => d.digitChar
  | none => c

end Calculator.Text
