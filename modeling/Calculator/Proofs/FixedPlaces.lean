import Calculator.Number.Fixed
import Calculator.Number.Numeral
import Calculator.Proofs.Runs

/-!
# Values with a fixed number of places

The digits of a float with a fixed number of places are those of its exact value in units of the
last place, rounded, and they are read as the nearest float of this decimal number.

* `natural_lastDigits`, `natural_fixedDigits`: the number that digits are read as.
* `fixedDigits_zeros`: zeros behind the last place.
* `isRounded_fixedUnits`, `fixedUnits_add`: units of the last place.
* `IsCounted`, `isLost_eq_false_iff`: the values whose digits are counted.
* `fixedMagnitude_eq`, `IsShown`, `fixedChars_eq`: the digits of a float.
* `pointValue_fixedDigits`: the float that the digits are read as.
* `isOverlong_fixedDigits`, `not_isOverlong_fixedDigits`: when they are too long to be read.
* `forall_mem_fixedDigits_iff`: when all digits are zero.
-/
set_option autoImplicit false

namespace Calculator.Number

open Calculator.Text
open Float.Model (UnpackedFloat)
open Float.Model.UnpackedFloat (Sign)

/-! ## Digits -/

theorem isDigit_of_mem_lastDigits {width : ℕ} : ∀ {n : ℕ}, ∀ c ∈ lastDigits width n, c.isDigit := by
  induction width with
  | zero =>
    intro n c hc
    cases hc
  | succ width ih =>
    intro n c hc
    rw [lastDigits] at hc
    rcases List.mem_append.mp hc with hc | hc
    · exact ih c hc
    · rw [List.mem_singleton.mp hc, Nat.isDigit_digitChar]
      exact decide_eq_true (Nat.mod_lt n (by decide))

theorem length_lastDigits (width : ℕ) : ∀ n, (lastDigits width n).length = width := by
  induction width with
  | zero => exact fun n => rfl
  | succ width ih =>
    intro n
    rw [lastDigits, List.length_append, ih, List.length_singleton]

theorem natural_lastDigits (width : ℕ) : ∀ n, natural (lastDigits width n) = n % tenPow width := by
  induction width with
  | zero => exact fun n => (Nat.mod_one n).symm
  | succ width ih =>
    intro n
    have hmod : n % (tenPow width * 10) = n / 10 % tenPow width * 10 + n % 10 := by
      rw [mul_comm (tenPow width), Nat.mod_mul]
      ring
    rw [lastDigits, natural_append, ih, natural_digitChar (Nat.mod_lt n (by decide)), tenPow_succ,
      hmod]
    rfl

/-- The digits with all places are read as the number of units of the last place. -/
theorem natural_fixedDigits (places n : ℕ) :
    natural (Nat.toDigits 10 (n / tenPow places) ++ lastDigits places n) = n := by
  rw [natural_append, natural_lastDigits, length_lastDigits, natural,
    Nat.ofDigitChars_toDigits (by decide) (by decide)]
  exact Nat.div_add_mod' n (tenPow places)

theorem lastDigits_zeros (width zeros n : ℕ) :
    lastDigits (width + zeros) (n * tenPow zeros) =
      lastDigits width n ++ List.replicate zeros '0' := by
  induction zeros with
  | zero =>
    rw [List.replicate_zero, List.append_nil]
    exact congrArg (lastDigits width) (mul_one n)
  | succ zeros ih =>
    have hmul : n * tenPow (zeros + 1) = n * tenPow zeros * 10 := by
      rw [tenPow_succ, mul_assoc]
    rw [← Nat.add_assoc, hmul, lastDigits, Nat.mul_div_cancel _ (by decide), Nat.mul_mod_left, ih,
      List.replicate_succ', List.append_assoc]
    rfl

/-- Zeros behind the last place are places like others. -/
theorem fixedDigits_zeros (places zeros n : ℕ) :
    fixedDigits places zeros n = fixedDigits (places + zeros) 0 (n * tenPow zeros) := by
  have hwhole : n * tenPow zeros / tenPow (places + zeros) = n / tenPow places := by
    rw [tenPow_add, Nat.mul_div_mul_right _ _ (tenPow_pos zeros)]
  rw [fixedDigits, fixedDigits, hwhole, lastDigits_zeros, List.replicate_zero, List.append_nil,
    Nat.add_zero]

/-! ## Units of the last place -/

/-- The units are those of the exact value, rounded. -/
theorem isRounded_fixedUnits (places m : ℕ) (e : ℤ) :
    IsRounded (m * 2 ^ e * tenPow places) (fixedUnits places m e) := by
  have hround := isRounded_roundQuotient (m * tenPow places * twoPow e.toNat)
    (twoPow_pos (-e).toNat)
  have hquotient : ((m * tenPow places * twoPow e.toNat : ℕ) : ℚ) / twoPow (-e).toNat =
      m * 2 ^ e * tenPow places := by
    rw [Nat.cast_mul, Nat.cast_mul, mul_div_assoc, twoPow_toNat_div, mul_right_comm]
  rwa [hquotient] at hround

/-- Behind its exact places a value has only zeros. -/
theorem exists_exact (m : ℕ) (e : ℤ) {places : ℕ} (h : exactPlaces e ≤ places) :
    ∃ n : ℕ, (m * 2 ^ e * tenPow places : ℚ) = n := by
  obtain ⟨k, rfl⟩ := Nat.exists_eq_add_of_le h
  refine ⟨m * 5 ^ exactPlaces e * twoPow e.toNat * tenPow k, ?_⟩
  have hten : (tenPow (exactPlaces e) : ℚ) = 5 ^ exactPlaces e * twoPow (exactPlaces e) := by
    rw [cast_tenPow, cast_twoPow, ← mul_pow]
    norm_num
  push_cast
  rw [tenPow_add, Nat.cast_mul, hten, twoPow_toNat e, exactPlaces]
  ring

theorem fixedUnits_add {places : ℕ} (m : ℕ) {e : ℤ} (h : exactPlaces e ≤ places) (zeros : ℕ) :
    fixedUnits (places + zeros) m e = fixedUnits places m e * tenPow zeros := by
  obtain ⟨n, hn⟩ := exists_exact m e h
  have hplaces := isRounded_fixedUnits places m e
  have hzeros := isRounded_fixedUnits (places + zeros) m e
  rw [hn] at hplaces
  rw [tenPow_add, Nat.cast_mul, ← mul_assoc, hn, ← Nat.cast_mul] at hzeros
  rw [hplaces.unique (isRounded_natCast n), hzeros.unique (isRounded_natCast _)]

/-! ## Digits that are counted -/

/-- A value that has no more digits down to the last place than are counted, or is an integer of at
most fifteen digits. -/
def IsCounted (places : ℕ) (x : Float) : Prop :=
  absValue x * 10 ^ places < 10 ^ mostCounted ∨ ∃ n : ℕ, absValue x = n ∧ n < 10 ^ 15

theorem digitCount_le_iff {n : ℕ} (hn : n ≠ 0) (width : ℕ) :
    digitCount n ≤ width ↔ n < 10 ^ width := by
  rcases Nat.eq_zero_or_pos width with rfl | hpos
  · have hdigits : 0 < digitCount n := Nat.length_toDigits_pos
    simp only [Nat.le_zero, pow_zero, Nat.lt_one_iff, hn, iff_false]
    omega
  · exact Nat.length_toDigits_le_iff (by decide) hpos

section Magnitudes

variable (m : ℕ) (e : ℤ)

/-- A mantissa and an exponent as a quotient of naturals. -/
theorem mul_zpow_eq_div :
    (m * 2 ^ e : ℚ) = ((m * twoPow e.toNat : ℕ) : ℚ) / twoPow (-e).toNat := by
  rw [Nat.cast_mul, mul_div_assoc, twoPow_toNat_div]

theorem wholeDigits_le_iff (width : ℕ) :
    wholeDigits m e ≤ width ↔ (m * 2 ^ e : ℚ) < 10 ^ width := by
  have hden : (0 : ℚ) < twoPow (-e).toNat := by exact_mod_cast twoPow_pos _
  have hwhole : (m * 2 ^ e : ℚ) < 10 ^ width ↔
      m * twoPow e.toNat / twoPow (-e).toNat < 10 ^ width := by
    rw [mul_zpow_eq_div, div_lt_iff₀ hden, Nat.div_lt_iff_lt_mul (twoPow_pos _)]
    exact_mod_cast Iff.rfl
  rw [hwhole, wholeDigits]
  split
  · next hzero =>
    rw [hzero]
    exact iff_of_true (Nat.zero_le width) (by positivity)
  · next hne => exact digitCount_le_iff hne width

/-- The division leaves no rest exactly if the value is an integer. -/
theorem mod_eq_zero_iff :
    m * twoPow e.toNat % twoPow (-e).toNat = 0 ↔ ∃ n : ℕ, (m * 2 ^ e : ℚ) = n := by
  have hden : (twoPow (-e).toNat : ℚ) ≠ 0 := by exact_mod_cast (twoPow_pos _).ne'
  rw [mul_zpow_eq_div, ← Nat.dvd_iff_mod_eq_zero]
  constructor
  · rintro ⟨n, hn⟩
    refine ⟨n, ?_⟩
    rw [hn, Nat.cast_mul, mul_div_cancel_left₀ _ hden]
  · rintro ⟨n, hn⟩
    refine ⟨n, ?_⟩
    rw [div_eq_iff hden] at hn
    rw [mul_comm (twoPow (-e).toNat)]
    exact_mod_cast hn

/-- The digits of a value are counted as its units and its integers say. -/
theorem isLost_eq_false_iff {places : ℕ} (h : places ≤ mostCounted) :
    isLost places m e = false ↔ (m * 2 ^ e * 10 ^ places : ℚ) < 10 ^ mostCounted ∨
      ∃ n : ℕ, (m * 2 ^ e : ℚ) = n ∧ n < 10 ^ 15 := by
  have hwhole : wholeDigits m e + places ≤ mostCounted ↔
      (m * 2 ^ e * 10 ^ places : ℚ) < 10 ^ mostCounted := by
    obtain ⟨width, hwidth⟩ := Nat.exists_eq_add_of_le' h
    have hpos : (0 : ℚ) < 10 ^ places := by positivity
    rw [hwidth, Nat.add_le_add_iff_right, wholeDigits_le_iff, pow_add, mul_lt_mul_iff_left₀ hpos]
  have hshort : isShortInteger m e = true ↔ ∃ n : ℕ, (m * 2 ^ e : ℚ) = n ∧ n < 10 ^ 15 := by
    rw [isShortInteger, Bool.and_eq_true, decide_eq_true_eq, decide_eq_true_eq, mod_eq_zero_iff,
      wholeDigits_le_iff]
    constructor
    · rintro ⟨⟨n, hn⟩, hlt⟩
      rw [hn] at hlt
      exact ⟨n, hn, by exact_mod_cast hlt⟩
    · rintro ⟨n, hn, hlt⟩
      rw [hn]
      exact ⟨⟨n, rfl⟩, by exact_mod_cast hlt⟩
  rw [← hwhole, ← hshort, isLost, Bool.and_eq_false_iff, decide_eq_false_iff_not, Nat.not_lt,
    Bool.not_eq_false']

theorem fixedMagnitude_eq {places : ℕ} (h : isLost places m e = false) :
    fixedMagnitude places m e = fixedDigits places 0 (fixedUnits places m e) := by
  simp only [fixedMagnitude, h, Bool.false_eq_true, if_false]
  rcases le_total places (exactPlaces e) with h | h
  · rw [min_eq_left h, Nat.sub_self]
  · obtain ⟨zeros, rfl⟩ := Nat.exists_eq_add_of_le h
    rw [min_eq_right h, Nat.add_sub_cancel_left, fixedDigits_zeros, fixedUnits_add m le_rfl]

theorem fixedMagnitude_of_isLost {places : ℕ} (h : isLost places m e = true) :
    fixedMagnitude places m e = fixedDigits places 0 0 := by
  rw [fixedMagnitude, if_pos h, fixedDigits_zeros, Nat.zero_add, Nat.zero_mul]

end Magnitudes

/-! ## The text of a float -/

/-- The sign that is written before the digits of finite parts. A zero has none. -/
def writtenSign : UnpackedFloat → List Char
  | .finite s _ _ _ => signMark s
  | _ => []

theorem writtenSign_cases (p : UnpackedFloat) : writtenSign p = [] ∨ writtenSign p = ['-'] := by
  cases p with
  | finite s m e h =>
    cases s with
    | positive => exact .inl rfl
    | negative => exact .inr rfl
  | infinity s | zero s | notANumber => exact .inl rfl

/-- The units of the last place that are written for a value: its own, rounded, if its digits are
counted, and otherwise none. -/
structure IsShown (places : ℕ) (x : Float) (n : ℕ) : Prop where
  counted : IsCounted places x → IsRounded (absValue x * tenPow places) n
  lost : ¬ IsCounted places x → n = 0

/-- A finite float is written as its sign and the digits of its units. -/
theorem fixedChars_eq {x : Float} (hx : x.isFinite) {places : ℕ} (hplaces : places ≤ mostCounted) :
    ∃ n, IsShown places x n ∧
      fixedChars places x = writtenSign (parts x) ++ fixedDigits places 0 n := by
  rcases parts_of_isFinite hx with ⟨s, hp⟩ | ⟨s, m, e, hm, hp, -⟩
  · have hzero : absValue x = 0 := absValue_of_parts_zero hp
    refine ⟨0, ⟨fun _ => ?_, fun _ => rfl⟩, ?_⟩
    · rw [hzero, zero_mul]
      exact isRounded_zero
    · rw [fixedChars, hp]
      change fixedDigits 0 places 0 = fixedDigits places 0 0
      rw [fixedDigits_zeros, Nat.zero_add, Nat.zero_mul]
  · have habs : absValue x = m * 2 ^ e := by rw [absValue, hp]; rfl
    have hcounted : isLost places m e = false ↔ IsCounted places x := by
      rw [IsCounted, habs]
      exact isLost_eq_false_iff m e hplaces
    have hchars : fixedChars places x = signMark s ++ fixedMagnitude places m e := by
      rw [fixedChars, hp]
    have hsign : writtenSign (parts x) = signMark s := by rw [hp]; rfl
    rw [hchars, hsign]
    cases hlost : isLost places m e with
    | false =>
      have hc : IsCounted places x := hcounted.mp hlost
      refine ⟨fixedUnits places m e, ⟨fun _ => ?_, fun h => absurd hc h⟩, ?_⟩
      · rw [habs]
        exact isRounded_fixedUnits places m e
      · rw [fixedMagnitude_eq m e hlost]
    | true =>
      have hc : ¬ IsCounted places x := by
        rw [← hcounted, hlost]
        decide
      refine ⟨0, ⟨fun h => absurd h hc, fun _ => rfl⟩, ?_⟩
      rw [fixedMagnitude_of_isLost m e hlost]

theorem IsShown.unique {places m n : ℕ} {x : Float} (hm : IsShown places x m)
    (hn : IsShown places x n) : m = n := by
  by_cases h : IsCounted places x
  · exact (hm.counted h).unique (hn.counted h)
  · rw [hm.lost h, hn.lost h]

theorem fixedChars_of_isRounded {x : Float} {places n : ℕ} (hx : x.isFinite)
    (hplaces : places ≤ mostCounted) (hc : IsCounted places x)
    (h : IsRounded (absValue x * tenPow places) n) :
    fixedChars places x = writtenSign (parts x) ++ fixedDigits places 0 n := by
  obtain ⟨n', hn', htext⟩ := fixedChars_eq hx hplaces
  rw [htext, (hn'.counted hc).unique h]

/-! ## Reading digits -/

theorem isDigit_of_mem_toDigits {n : ℕ} : ∀ c ∈ Nat.toDigits 10 n, c.isDigit :=
  fun _ hc => Nat.isDigit_of_mem_toDigits (by decide) (by decide) hc

theorem ne_point_of_isDigit {c : Char} (h : c.isDigit) : c ≠ '.' := by
  rintro rfl
  exact absurd h (by decide)

theorem cutChars_fixedDigits (places n : ℕ) :
    cutChars '.' (fixedDigits places 0 n) =
      (Nat.toDigits 10 (n / tenPow places), lastDigits places n) := by
  have hwhole : ∀ c ∈ Nat.toDigits 10 (n / tenPow places), c ≠ '.' :=
    fun c hc => ne_point_of_isDigit (isDigit_of_mem_toDigits c hc)
  rw [fixedDigits, Nat.add_zero]
  split
  · next h0 =>
    subst h0
    exact cutChars_run hwhole (by simp)
  · rw [List.replicate_zero, List.append_nil]
    exact cutChars_run hwhole (by simp)

theorem isNumeralChar_of_mem_fixedDigits {places n : ℕ} :
    ∀ c ∈ fixedDigits places 0 n, isNumeralChar c := by
  intro c hc
  by_cases hpoint : c = '.'
  · rw [hpoint]
    rfl
  · have hdigit : c.isDigit := by
      rw [fixedDigits, Nat.add_zero, List.replicate_zero, List.append_nil] at hc
      rcases List.mem_append.mp hc with hc | hc
      · exact isDigit_of_mem_toDigits c hc
      · split at hc
        · cases hc
        · exact isDigit_of_mem_lastDigits c ((List.mem_cons.mp hc).resolve_left hpoint)
    simp [isNumeralChar, hdigit]

section Runs

variable (places n : ℕ)

theorem behindPoint_fixedDigits : behindPoint (fixedDigits places 0 n) = lastDigits places n :=
  congrArg Prod.snd (cutChars_fixedDigits places n)

theorem isDecimal_fixedDigits : IsDecimal (fixedDigits places 0 n) where
  digit := by
    obtain ⟨c, cs, hcs⟩ := List.exists_cons_of_ne_nil (Nat.toDigits_ne_nil (b := 10)
      (n := n / tenPow places))
    refine ⟨c, ?_, isDigit_of_mem_toDigits (n := n / tenPow places) c (by simp [hcs])⟩
    rw [fixedDigits, hcs]
    exact List.mem_cons_self
  point := by
    have hwhole : (Nat.toDigits 10 (n / tenPow places)).count '.' = 0 :=
      List.count_eq_zero.mpr (point_notMem isDigit_of_mem_toDigits)
    have hbehind : (lastDigits places n).count '.' = 0 :=
      List.count_eq_zero.mpr (point_notMem isDigit_of_mem_lastDigits)
    rw [fixedDigits, List.count_append, hwhole, List.replicate_zero, List.append_nil]
    split
    · simp
    · rw [List.count_cons_self, hbehind]

theorem filter_isDigit_fixedDigits : (fixedDigits places 0 n).filter Char.isDigit =
    Nat.toDigits 10 (n / tenPow places) ++ lastDigits places n := by
  rw [filter_isDigit_eq isNumeralChar_of_mem_fixedDigits (isDecimal_fixedDigits places n).point,
    cutChars_fixedDigits]

/-- Digits with a fixed number of places are read as the nearest float. -/
theorem pointValue_fixedDigits :
    pointValue (fixedDigits places 0 n) = nearest n (tenPow places) := by
  rw [pointValue, filter_isDigit_fixedDigits, natural_fixedDigits, behindPoint_fixedDigits,
    length_lastDigits]

theorem isOverlong_fixedDigits {places : ℕ} (h : mostConverted < places) (n : ℕ) :
    IsOverlong (fixedDigits places 0 n) := by
  right
  rwa [behindPoint_fixedDigits, length_lastDigits]

theorem not_isOverlong_fixedDigits {places n width : ℕ} (hwidth : 0 < width)
    (hn : n / tenPow places < 10 ^ width) (h : places + width ≤ mostConverted) :
    ¬ IsOverlong (fixedDigits places 0 n) := by
  have hwhole : (Nat.toDigits 10 (n / tenPow places)).length ≤ width :=
    (Nat.length_toDigits_le_iff (by decide) hwidth).mpr hn
  rintro (hlong | hlong)
  · have hle := (List.dropWhile_sublist (· = '0')
      (l := (fixedDigits places 0 n).filter Char.isDigit)).length_le
    rw [filter_isDigit_fixedDigits, List.length_append, length_lastDigits] at hle
    rw [filter_isDigit_fixedDigits] at hlong
    omega
  · rw [behindPoint_fixedDigits, length_lastDigits] at hlong
    omega

end Runs

/-! ## Zero digits -/

theorem natural_cons_eq_zero_iff {c : Char} (hc : c.isDigit) (ds : List Char) :
    natural (c :: ds) = 0 ↔ c = '0' ∧ natural ds = 0 := by
  have hdigit := toNat_of_isDigit hc
  have hvalue : natural (c :: ds) = tenPow ds.length * (c.toNat - 48) + natural ds := by
    rw [natural, Nat.ofDigitChars_cons, Nat.ofDigitChars_eq_ofDigitChars_zero, Nat.mul_zero,
      Nat.zero_add]
    rfl
  rw [hvalue, Nat.add_eq_zero_iff, Nat.mul_eq_zero, or_iff_right (tenPow_pos _).ne']
  refine and_congr_left' ⟨fun h => ?_, fun h => by rw [h]; rfl⟩
  exact Char.toNat_inj.mp (show c.toNat = 48 by omega)

/-- Only zeros are read as zero. -/
theorem natural_eq_zero_iff {ds : List Char} (h : ∀ c ∈ ds, c.isDigit) :
    natural ds = 0 ↔ ∀ c ∈ ds, c = '0' := by
  induction ds with
  | nil => exact iff_of_true rfl (by simp)
  | cons c ds ih =>
    obtain ⟨hc, hds⟩ := List.forall_mem_cons.mp h
    rw [natural_cons_eq_zero_iff hc, ih hds, List.forall_mem_cons]

theorem mem_fixedDigits_iff {places n : ℕ} {c : Char} (hc : c.isDigit) :
    c ∈ fixedDigits places 0 n ↔
      c ∈ Nat.toDigits 10 (n / tenPow places) ++ lastDigits places n := by
  rw [fixedDigits, Nat.add_zero]
  split
  · next h0 =>
    subst h0
    rfl
  · rw [List.replicate_zero, List.append_nil, List.mem_append, List.mem_append, List.mem_cons,
      or_iff_right (ne_point_of_isDigit hc)]

/-- All digits are zero exactly if there are no units. -/
theorem forall_mem_fixedDigits_iff (places n : ℕ) :
    (∀ c ∈ fixedDigits places 0 n, c.isDigit → c = '0') ↔ n = 0 := by
  obtain ⟨ds, hds⟩ : ∃ ds, ds = Nat.toDigits 10 (n / tenPow places) ++ lastDigits places n :=
    ⟨_, rfl⟩
  have hdigits : ∀ c ∈ ds, c.isDigit := by
    rw [hds]
    exact List.forall_mem_append.mpr ⟨isDigit_of_mem_toDigits, isDigit_of_mem_lastDigits⟩
  have hvalue : natural ds = n := hds ▸ natural_fixedDigits places n
  rw [← hvalue, natural_eq_zero_iff hdigits, hvalue]
  constructor
  · intro h c hc
    exact h c ((mem_fixedDigits_iff (hdigits c hc)).mpr (hds ▸ hc)) (hdigits c hc)
  · intro h c hc hdigit
    exact h c (hds ▸ (mem_fixedDigits_iff hdigit).mp hc)

end Calculator.Number
