import Calculator.Number.Numeral
import Calculator.Proofs.Margins

/-!
# Numerals of natural numbers

The decimal numeral of a natural number has no margins and is read as the number.

* `plainDigit_of_isDigit`, `dropUnderscores?_of_digits`: ASCII digits are read as they are.
* `natural_append`: the number that digits denote, by its front and its last places.
* `integer?_toString`: the numeral of a natural number.
-/
set_option autoImplicit false

namespace Calculator

open Calculator.Text

theorem isBlank_of_isDigit {c : Char} (h : c.isDigit) : isBlank c = false :=
  isBlank_of_isNumeralChar (by simp [isNumeralChar, h])

theorem isMargin_of_isDigit {c : Char} (h : c.isDigit) : isMargin c = false :=
  isMargin_of_isNumeralChar (by simp [isNumeralChar, h])

theorem plainDigit_of_isDigit {c : Char} (h : c.isDigit) : plainDigit c = c := by
  have hd := toNat_of_isDigit h
  have hlt : c.toNat < 58 := by omega
  exact forall_char_of_lt (P := fun c => c.isDigit → plainDigit c = c) (by decide) hlt h

namespace Number

theorem natural_append (ds places : List Char) :
    natural (ds ++ places) = natural ds * tenPow places.length + natural places := by
  rw [natural, Nat.ofDigitChars_append, Nat.ofDigitChars_eq_ofDigitChars_zero, Nat.mul_comm]
  rfl

theorem natural_digitChar {d : Nat} (hd : d < 10) : natural [Nat.digitChar d] = d := by
  rw [natural, Nat.ofDigitChars_cons_digitChar_of_lt_ten hd, Nat.ofDigitChars_nil]
  omega

theorem dropUnderscores?_of_digits {ds : List Char} (h : ∀ c ∈ ds, c.isDigit) :
    ∀ before, dropUnderscores? before ds = some ds := by
  induction ds with
  | nil => exact fun before => rfl
  | cons c ds ih =>
    intro before
    have hc : c ≠ '_' := by
      rintro rfl
      exact absurd (h '_' List.mem_cons_self) (by decide)
    rw [dropUnderscores?, ih fun d hd => h d (List.mem_cons_of_mem c hd)]
    · rfl
    · exact hc

theorem splitSign_of_digits {ds : List Char} (h : ∀ c ∈ ds, c.isDigit) :
    splitSign ds = (false, ds) := by
  unfold splitSign
  split
  · exact absurd (h '-' List.mem_cons_self) (by decide)
  · exact absurd (h '+' List.mem_cons_self) (by decide)
  · rfl

/-- ASCII digits, of which there are not too many, are read as a natural number. -/
theorem integer?_of_digits {ds : List Char} (hne : ds ≠ []) (h : ∀ c ∈ ds, c.isDigit)
    (hlen : ds.length ≤ mostDigits) : integer? (String.ofList ds) = some (natural ds : Int) := by
  have htrim : trimBy isBlank ds = ds :=
    trimBy_eq_self_of_all fun c hc => isBlank_of_isDigit (h c hc)
  have hmap : ds.map plainDigit = ds.map id :=
    List.map_congr_left fun c hc => plainDigit_of_isDigit (h c hc)
  have hplain : plainNumeral? (String.ofList ds) = some ds := by
    rw [plainNumeral?, String.toList_ofList, htrim, hmap, List.map_id,
      dropUnderscores?_of_digits h]
  have hall : ds.all Char.isDigit = true := List.all_eq_true.mpr h
  have hsigned : signedInteger? ds = some (natural ds : Int) := by
    simp [signedInteger?, splitSign_of_digits h, hne, hall]
  have hlen' : ¬ mostDigits < (splitSign ds).2.length := by
    rw [splitSign_of_digits h]
    exact Nat.not_lt.mpr hlen
  simp only [integer?, hplain, Option.bind_eq_bind, Option.bind_some, if_neg hlen', hsigned]

theorem isDigit_of_mem_toString {n : Nat} : ∀ c ∈ (toString n).toList, c.isDigit := by
  intro c hc
  rw [Nat.toString_eq_ofList_toDigits, String.toList_ofList] at hc
  exact Nat.isDigit_of_mem_toDigits (by decide) (by decide) hc

theorem integer?_toString {n : Nat} (h : (toString n).length ≤ mostDigits) :
    integer? (toString n) = some (n : Int) := by
  rw [Nat.toString_eq_ofList_toDigits] at h ⊢
  rw [String.length_ofList] at h
  rw [integer?_of_digits Nat.toDigits_ne_nil
    (fun c hc => Nat.isDigit_of_mem_toDigits (by decide) (by decide) hc) h, natural,
    Nat.ofDigitChars_toDigits (by decide) (by decide)]

end Number

end Calculator
