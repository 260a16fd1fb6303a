import Calculator.Proofs.Nearest
import Calculator.Proofs.Numerals

/-!
# Runs of digits and points

What a run of digits and points in a line is read as. It has to be a decimal number, its length
counts next, and its value last.

* `IsDecimal`, `IsOverlong`, `pointValue`: the form of a run, its length and its value.
* `IsLiteral`, `IsTooLong`, `IsInvalid`: the runs that are numbers, those that are too long to be
  converted, and all others.
* `literal_of_isLiteral`, `literal_of_isTooLong`, `literal_of_isInvalid`: what is read is decided by
  these.
* `oneWithPlaces`, `overlongOne`: a decimal number of value one with any number of places, and with
  too many.
-/
set_option autoImplicit false

namespace Calculator.Number

open Calculator.Text

/-! ## Kinds of runs -/

/-- The characters behind the first point. -/
def behindPoint (ds : List Char) : List Char := (ds.dropWhile (· ≠ '.')).drop 1

/-- The float nearest to the number that digits with a point between them write. -/
def pointValue (ds : List Char) : Float :=
  nearest (natural (ds.filter Char.isDigit)) (tenPow (behindPoint ds).length)

/-- The form of a decimal number: at least one digit, and one point at most. -/
structure IsDecimal (ds : List Char) : Prop where
  digit : ∃ c ∈ ds, c.isDigit
  point : ds.count '.' ≤ 1

/-- The run has more digits or more decimal places than are converted. The zeros in front are no
digits that count. -/
def IsOverlong (ds : List Char) : Prop :=
  mostConverted < ((ds.filter Char.isDigit).dropWhile (· = '0')).length ∨
    mostConverted < (behindPoint ds).length

/-- A run of digits and points that is a number: a decimal number that is not too long and has a
finite value. -/
structure IsLiteral (ds : List Char) : Prop extends IsDecimal ds where
  fits : ¬ IsOverlong ds
  isFinite : (pointValue ds).isFinite

/-- A run that is a decimal number, but is too long to be converted. -/
structure IsTooLong (ds : List Char) : Prop extends IsDecimal ds where
  long : IsOverlong ds

/-- A run that is no decimal number, or whose value is too large. -/
def IsInvalid (ds : List Char) : Prop :=
  ¬ IsDecimal ds ∨ ¬ IsOverlong ds ∧ ¬ (pointValue ds).isFinite

/-- Every run is of one of the three kinds. -/
theorem run_cases (ds : List Char) : IsLiteral ds ∨ IsTooLong ds ∨ IsInvalid ds := by
  by_cases hd : IsDecimal ds
  · by_cases ho : IsOverlong ds
    · exact .inr (.inl ⟨hd, ho⟩)
    · by_cases hf : (pointValue ds).isFinite
      · exact .inl ⟨hd, ho, hf⟩
      · exact .inr (.inr (.inr ⟨ho, hf⟩))
  · exact .inr (.inr (.inl hd))

theorem IsTooLong.not_isInvalid {ds : List Char} (h : IsTooLong ds) : ¬ IsInvalid ds := by
  rintro (hd | ⟨ho, -⟩)
  · exact hd h.toIsDecimal
  · exact ho h.long

/-! ## Points and digits -/

theorem isDigit_of_ne_point {c : Char} (h : isNumeralChar c) (hp : c ≠ '.') : c.isDigit := by
  simpa [isNumeralChar, hp] using h

/-- A run cut at its first point: the digits before, and what stands behind. -/
theorem cut_cases {ds : List Char} (h : ∀ c ∈ ds, isNumeralChar c) :
    (∀ c ∈ ds, c.isDigit) ∧ cutChars '.' ds = (ds, []) ∨
      ∃ whole places, ds = whole ++ '.' :: places ∧ (∀ c ∈ whole, c.isDigit) ∧
        cutChars '.' ds = (whole, places) := by
  have hsplit : ds.takeWhile (· ≠ '.') ++ ds.dropWhile (· ≠ '.') = ds :=
    List.takeWhile_append_dropWhile
  have hwhole : ∀ c ∈ ds.takeWhile (· ≠ '.'), c.isDigit := by
    intro c hc
    have hmem : c ∈ ds := (List.takeWhile_sublist _).subset hc
    have hne : c ≠ '.' := by simpa using List.all_eq_true.mp List.all_takeWhile c hc
    exact isDigit_of_ne_point (h c hmem) hne
  cases hrest : ds.dropWhile (· ≠ '.') with
  | nil =>
    rw [hrest, List.append_nil] at hsplit
    refine .inl ⟨hsplit ▸ hwhole, ?_⟩
    rw [cutChars, hrest, hsplit]
    rfl
  | cons c places =>
    have hc : c = '.' := by
      have := head?_dropWhile_run (· ≠ '.') ds c (by rw [hrest]; rfl)
      simpa using this
    subst hc
    refine .inr ⟨ds.takeWhile (· ≠ '.'), places, ?_, hwhole, ?_⟩
    · rw [← hrest, hsplit]
    · rw [cutChars, hrest]
      rfl

theorem point_notMem {ds : List Char} (h : ∀ c ∈ ds, c.isDigit) : '.' ∉ ds :=
  fun hmem => absurd (h '.' hmem) (by decide)

theorem contains_behindPoint {ds : List Char} (h : ∀ c ∈ ds, isNumeralChar c) :
    (behindPoint ds).contains '.' = decide (1 < ds.count '.') := by
  have hcut : behindPoint ds = (cutChars '.' ds).2 := rfl
  rw [hcut]
  rcases cut_cases h with ⟨hd, hc⟩ | ⟨whole, places, rfl, hw, hc⟩
  · rw [hc, List.count_eq_zero.mpr (point_notMem hd)]
    rfl
  · rw [hc, List.count_append, List.count_eq_zero.mpr (point_notMem hw), List.count_cons_self]
    rw [Bool.eq_iff_iff, List.contains_iff_mem, decide_eq_true_eq, ← List.count_pos_iff]
    change 0 < places.count '.' ↔ _
    omega

/-- With one point at most, the digits are those before it and those behind it. -/
theorem filter_isDigit_eq {ds : List Char} (h : ∀ c ∈ ds, isNumeralChar c)
    (hp : ds.count '.' ≤ 1) :
    ds.filter Char.isDigit = (cutChars '.' ds).1 ++ (cutChars '.' ds).2 := by
  rcases cut_cases h with ⟨hd, hc⟩ | ⟨whole, places, rfl, hw, hc⟩
  · rw [hc, List.append_nil]
    exact List.filter_eq_self.mpr hd
  · have hplaces : ∀ c ∈ places, c.isDigit := by
      intro c hmem
      refine isDigit_of_ne_point (h c (by simp [hmem])) ?_
      rintro rfl
      have := List.count_pos_iff.mpr hmem
      rw [List.count_append, List.count_cons_self] at hp
      omega
    have hpoint : Char.isDigit '.' = false := by decide
    rw [hc, List.filter_append, List.filter_cons_of_neg (by simp [hpoint]),
      List.filter_eq_self.mpr hw, List.filter_eq_self.mpr hplaces]

/-! ## Reading -/

section Runs

variable {ds : List Char} (h : ∀ c ∈ ds, isNumeralChar c)
include h

theorem literal_of_not_isDecimal (hd : ¬ IsDecimal ds) : literal ds = .error .invalid := by
  have hread : ((behindPoint ds).contains '.' ||
      decide ((cutChars '.' ds).1 ++ (cutChars '.' ds).2 = [])) = true := by
    rw [contains_behindPoint h, Bool.or_eq_true, decide_eq_true_eq, decide_eq_true_eq]
    by_cases hp : ds.count '.' ≤ 1
    · right
      rw [← filter_isDigit_eq h hp, List.filter_eq_nil_iff]
      exact fun c hc hdigit => hd ⟨⟨c, hc, hdigit⟩, hp⟩
    · exact .inl (Nat.lt_of_not_le hp)
  exact if_pos hread

/-- A decimal number is read by its length, and then by its value. -/
theorem literal_of_isDecimal (hd : IsDecimal ds) :
    literal ds =
      if isTooLong (cutChars '.' ds).1 (cutChars '.' ds).2 then .error .tooLong
      else if (pointValue ds).isFinite then .ok (pointValue ds) else .error .invalid := by
  have hread : ((behindPoint ds).contains '.' ||
      decide ((cutChars '.' ds).1 ++ (cutChars '.' ds).2 = [])) = false := by
    rw [contains_behindPoint h, ← filter_isDigit_eq h hd.point, Bool.or_eq_false_iff,
      decide_eq_false_iff_not, decide_eq_false_iff_not, List.filter_eq_nil_iff]
    obtain ⟨c, hc, hdigit⟩ := hd.digit
    exact ⟨Nat.not_lt_of_le hd.point, fun hnone => hnone c hc hdigit⟩
  have hvalue : pointValue ds = nearest (natural ((cutChars '.' ds).1 ++ (cutChars '.' ds).2))
      (tenPow (cutChars '.' ds).2.length) := by
    rw [← filter_isDigit_eq h hd.point]
    rfl
  rw [hvalue]
  exact if_neg (ne_true_of_eq_false hread)

theorem isTooLong_iff (hd : IsDecimal ds) :
    isTooLong (cutChars '.' ds).1 (cutChars '.' ds).2 ↔ IsOverlong ds := by
  rw [isTooLong, ← filter_isDigit_eq h hd.point, Bool.or_eq_true, decide_eq_true_eq,
    decide_eq_true_eq]
  rfl

/-- A run that is a number is read as its value. -/
theorem literal_of_isLiteral (hl : IsLiteral ds) : literal ds = .ok (pointValue ds) := by
  rw [literal_of_isDecimal h hl.toIsDecimal,
    if_neg ((isTooLong_iff h hl.toIsDecimal).not.mpr hl.fits), if_pos hl.isFinite]

theorem literal_of_isTooLong (hl : IsTooLong ds) : literal ds = .error .tooLong := by
  rw [literal_of_isDecimal h hl.toIsDecimal, if_pos ((isTooLong_iff h hl.toIsDecimal).mpr hl.long)]

theorem literal_of_isInvalid (hl : IsInvalid ds) : literal ds = .error .invalid := by
  by_cases hd : IsDecimal ds
  · obtain ⟨ho, hf⟩ := hl.resolve_left (not_not_intro hd)
    rw [literal_of_isDecimal h hd, if_neg ((isTooLong_iff h hd).not.mpr ho), if_neg hf]
  · exact literal_of_not_isDecimal h hd

end Runs

/-! ## A long number -/

/-- A one with a point and zeros behind it. -/
def oneWithPlaces (places : ℕ) : List Char := '1' :: '.' :: List.replicate places '0'

theorem isNumeralChar_of_mem_oneWithPlaces {places : ℕ} :
    ∀ c ∈ oneWithPlaces places, isNumeralChar c := by
  intro c hc
  rcases List.mem_cons.mp hc with rfl | hc
  · decide
  · rcases List.mem_cons.mp hc with rfl | hc
    · decide
    · rw [List.eq_of_mem_replicate hc]
      decide

theorem isDecimal_oneWithPlaces (places : ℕ) : IsDecimal (oneWithPlaces places) where
  digit := ⟨'1', List.mem_cons_self, by decide⟩
  point := by
    have hzeros : (List.replicate places '0').count '.' = 0 := by
      simp [List.count_replicate]
    rw [oneWithPlaces, List.count_cons_of_ne (by decide), List.count_cons_self, hzeros]

theorem behindPoint_oneWithPlaces (places : ℕ) :
    behindPoint (oneWithPlaces places) = List.replicate places '0' := rfl

theorem filter_isDigit_oneWithPlaces (places : ℕ) :
    (oneWithPlaces places).filter Char.isDigit = '1' :: List.replicate places '0' := by
  rw [filter_isDigit_eq isNumeralChar_of_mem_oneWithPlaces (isDecimal_oneWithPlaces places).point]
  rfl

theorem isOverlong_oneWithPlaces {places : ℕ} (h : mostConverted ≤ places) :
    IsOverlong (oneWithPlaces places) := by
  have hone : ('1' :: List.replicate places '0').dropWhile (· = '0') =
      '1' :: List.replicate places '0' := rfl
  left
  rw [filter_isDigit_oneWithPlaces, hone, List.length_cons, List.length_replicate]
  exact Nat.lt_succ_of_le h

theorem natural_replicate_zero (n : ℕ) : natural (List.replicate n '0') = 0 := by
  induction n with
  | zero => rfl
  | succ n ih =>
    rw [List.replicate_succ', natural_append, ih, Nat.zero_mul]
    rfl

theorem natural_one_zeros (places : ℕ) :
    natural ('1' :: List.replicate places '0') = tenPow places := by
  rw [← List.singleton_append, natural_append, natural_replicate_zero, List.length_replicate]
  exact Nat.one_mul _

theorem isFinite_pointValue_oneWithPlaces (places : ℕ) :
    (pointValue (oneWithPlaces places)).isFinite := by
  have hpos : (tenPow places : ℚ) ≠ 0 := by exact_mod_cast (tenPow_pos places).ne'
  rw [pointValue, filter_isDigit_oneWithPlaces, behindPoint_oneWithPlaces, natural_one_zeros,
    List.length_replicate, isFinite_nearest_iff _ (tenPow_pos places), div_self hpos]
  exact one_lt_rangeEnd

/-- A one with so many places that it is too long. -/
def overlongOne : List Char := oneWithPlaces mostConverted

theorem isTooLong_overlongOne : IsTooLong overlongOne :=
  ⟨isDecimal_oneWithPlaces _, isOverlong_oneWithPlaces le_rfl⟩

theorem isFinite_pointValue_overlongOne : (pointValue overlongOne).isFinite :=
  isFinite_pointValue_oneWithPlaces mostConverted

theorem isNumeralChar_of_mem_overlongOne : ∀ c ∈ overlongOne, isNumeralChar c :=
  isNumeralChar_of_mem_oneWithPlaces

end Calculator.Number
