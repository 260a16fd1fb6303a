/-!
# History

The successful evaluations of a session, the newest first.

* `History`: the entries, each an expression with its result as text.
* `place`: the entry an index names. Indexes count from zero, and negative ones from the end.
* `add`, `delete`, `get`: a new entry comes first; an index that names no entry is a fault
  (`IndexFault`).
-/
set_option autoImplicit false

namespace Calculator

/-- An evaluation as it is remembered. -/
structure Entry where
  expression : String
  result : String
deriving DecidableEq, Repr

/-- The remembered evaluations, the newest first. -/
structure History where
  entries : List Entry := []
deriving DecidableEq, Repr

/-- Why an index names no entry. -/
inductive IndexFault where
  /-- There are not so many entries. -/
  | outOfRange
  /-- The index does not fit into a signed word of 64 bits. -/
  | notAWord
deriving DecidableEq, Repr

/-- The message of a fault. -/
def IndexFault.message : IndexFault → String
  | outOfRange => "deque index out of range"
  | notAWord => "cannot fit 'int' into an index-sized integer"

namespace History

/-- The number of entries. -/
def size (h : History) : Nat := h.entries.length

/-- Remembers an evaluation. -/
def add (h : History) (e : Entry) : History := ⟨e :: h.entries⟩

/-- The least integer above the signed words of 64 bits. -/
def wordBound : Int := 9223372036854775808

/-- The place of the entry that an index names in a list of `n` entries. No list is so long that one
of its indexes is no word. -/
def place (n : Nat) (index : Int) : Except IndexFault Nat :=
  let i := if index < 0 then index + n else index
  if 0 ≤ i ∧ i < n then .ok i.toNat
  else if index < -wordBound ∨ wordBound ≤ index then .error .notAWord
  else .error .outOfRange

/-- The entry that an index names. -/
def get (h : History) (index : Int) : Except IndexFault Entry := do
  match h.entries[← place h.size index]? with
  | some e => return e
  | none => throw .outOfRange

/-- Drops the entry that an index names. -/
def delete (h : History) (index : Int) : Except IndexFault History := do
  return ⟨h.entries.eraseIdx (← place h.size index)⟩

end History

end Calculator
