import Calculator.Proofs.Floats
import Calculator.Proofs.Quotients

/-!
# Nearest floats

The float nearest to a quotient of naturals is no further away from it than any other float, of two
equally near ones it is the one with the even mantissa, and it is finite below the middle between the
greatest float and the power of two behind it.

* `magnitude`, `absValue`: the exact value of a float without its sign.
* `Rounds`: a rational number in units of a power of two, rounded to a mantissa.
* `Rounds.abs_sub_le`, `Rounds.even_of_tie`: a float is no nearer than the rounded number, and what
  holds if it is equally near.
* `Rounds.rangeEnd_le_iff`: the range of the rounded numbers.
* `Rounds.parts_ofMantissa`: the float with the rounded mantissa.
* `isFinite_nearest_iff`: the range of the nearest floats.
* `abs_sub_absValue_nearest_le`, `even_of_parts_nearest`: no float is nearer than the nearest one.
-/
set_option autoImplicit false

namespace Calculator.Number

open Float.Model (UnpackedFloat)
open Float.Model.UnpackedFloat (Sign)

/-! ## Exact values -/

/-- The value of parts without the sign. Infinities and what is no number count as zero. -/
def magnitude : UnpackedFloat → ℚ
  | .finite _ m e _ => m * 2 ^ e
  | _ => 0

/-- The value of a float without its sign. -/
def absValue (x : Float) : ℚ := magnitude (parts x)

/-- The value of a float is a short mantissa in units of a power of two. -/
theorem exists_absValue (x : Float) : ∃ (m : ℕ) (e : ℤ), m < twoPow 53 ∧ leastExponent ≤ e ∧
    e ≤ greatestExponent ∧ absValue x = m * 2 ^ e := by
  have hzero : ∃ (m : ℕ) (e : ℤ), m < twoPow 53 ∧ leastExponent ≤ e ∧
      e ≤ greatestExponent ∧ (0 : ℚ) = m * 2 ^ e :=
    ⟨0, leastExponent, by decide, le_rfl, by decide, by simp⟩
  rw [absValue]
  cases hp : parts x with
  | infinity s | notANumber | zero s => exact hzero
  | finite s m e h =>
    have hc := isCanonical_of_parts hp
    exact ⟨m, e, hc.lt, hc.least, hc.greatest, rfl⟩

theorem absValue_of_parts_zero {x : Float} {s : Sign} (hx : parts x = .zero s) :
    absValue x = 0 := by
  rw [absValue, hx]
  rfl

theorem absValue_zero_sub {x : Float} (hx : x.isFinite) : absValue (0 - x) = absValue x := by
  rcases parts_of_isFinite hx with ⟨s, hp⟩ | ⟨s, m, e, hm, hp, -⟩
  · rw [absValue_of_parts_zero hp, absValue_of_parts_zero (parts_zero_sub_zero hp)]
  · rw [absValue, absValue, parts_zero_sub_finite hp, hp]
    rfl

/-! ## Rounded mantissas -/

/-- The middle between the greatest float and the power of two behind it. -/
def rangeEnd : ℚ := (twoPow 53 - 1 / 2) * 2 ^ greatestExponent

theorem one_lt_rangeEnd : 1 < rangeEnd := by
  have hunit : (1 : ℚ) < 2 ^ greatestExponent := one_lt_zpow₀ one_lt_two (by decide)
  have hfactor : (1 : ℚ) ≤ twoPow 53 - 1 / 2 := by
    rw [twoPow_53]
    norm_num
  calc (1 : ℚ) < 2 ^ greatestExponent := hunit
    _ ≤ rangeEnd := le_mul_of_one_le_left (by positivity) hfactor

/-- A rational number in units of `2 ^ e`, rounded to at most 53 bits. The units are the least ones,
or they leave no fewer bits. -/
structure Rounds (q : ℚ) (m : ℕ) (e : ℤ) : Prop where
  rounded : IsRounded (q / 2 ^ e) m
  le : m ≤ twoPow 53
  least : leastExponent ≤ e
  full : e = leastExponent ∨ (twoPow 52 : ℚ) ≤ q / 2 ^ e

namespace Rounds

variable {q : ℚ} {m : ℕ} {e : ℤ}

theorem full_mantissa (h : Rounds q m e) : e = leastExponent ∨ twoPow 52 ≤ m :=
  h.full.imp_right ((isRounded_natCast _).mono h.rounded)

/-- A number with a short mantissa, in the units of the rounded one: it is an integer, or it lies at
or below the least full mantissa and the rational number at or above it. -/
theorem exists_units (h : Rounds q m e) {m' : ℕ} {e' : ℤ} (hm' : m' ≤ twoPow 53)
    (he' : leastExponent ≤ e') : ∃ x : ℚ, (m' : ℚ) * 2 ^ e' = x * 2 ^ e ∧
      ((∃ k : ℤ, x = k) ∨ x ≤ twoPow 52 ∧ (twoPow 52 : ℚ) ≤ q / 2 ^ e) := by
  have hx : (m' : ℚ) * 2 ^ e' = m' * 2 ^ (e' - e) * 2 ^ e := by
    rw [mul_assoc, ← zpow_add₀ two_ne_zero, sub_add_cancel]
  refine ⟨_, hx, ?_⟩
  rcases le_or_gt e e' with hle | hlt
  · -- The other number is a multiple of the unit.
    obtain ⟨k, hk⟩ := Int.eq_ofNat_of_zero_le (sub_nonneg.mpr hle)
    refine .inl ⟨(m' * 2 ^ k : ℕ), ?_⟩
    rw [hk]
    push_cast
    rw [zpow_natCast]
  · -- The other number has a smaller unit and is below the least full mantissa.
    refine .inr ⟨?_, h.full.resolve_left (by omega)⟩
    have hmantissa : (m' : ℚ) ≤ twoPow 53 := by exact_mod_cast hm'
    have hunit : (2 : ℚ) ^ (e' - e) ≤ 2 ^ (-1 : ℤ) := zpow_le_zpow_right₀ one_le_two (by omega)
    calc (m' : ℚ) * 2 ^ (e' - e) ≤ twoPow 53 * 2 ^ (-1 : ℤ) := by gcongr
      _ = twoPow 52 := by
        rw [cast_twoPow, cast_twoPow]
        norm_num

/-- No number with a short mantissa is nearer. -/
theorem abs_sub_le (h : Rounds q m e) {m' : ℕ} {e' : ℤ} (hm' : m' ≤ twoPow 53)
    (he' : leastExponent ≤ e') : |q - m * 2 ^ e| ≤ |q - m' * 2 ^ e'| := by
  have hu : (0 : ℚ) < 2 ^ e := by positivity
  obtain ⟨x, hx, ⟨k, rfl⟩ | ⟨hbelow, hfull⟩⟩ := h.exists_units hm' he'
  · rw [hx, abs_sub_mul_eq hu, abs_sub_mul_eq hu, mul_le_mul_iff_of_pos_right hu]
    exact h.rounded.le_abs_sub k
  · rw [hx, abs_sub_mul_eq hu, abs_sub_mul_eq hu, mul_le_mul_iff_of_pos_right hu]
    calc |q / 2 ^ e - m| ≤ |q / 2 ^ e - (twoPow 52 : ℕ)| := by
          exact_mod_cast h.rounded.le_abs_sub (twoPow 52)
      _ = q / 2 ^ e - twoPow 52 := abs_of_nonneg (sub_nonneg.mpr hfull)
      _ ≤ q / 2 ^ e - x := sub_le_sub_left hbelow _
      _ ≤ |q / 2 ^ e - x| := le_abs_self _

/-- If another number with a short mantissa is equally near, the rounded mantissa is even. -/
theorem even_of_tie (h : Rounds q m e) {m' : ℕ} {e' : ℤ} (hm' : m' ≤ twoPow 53)
    (he' : leastExponent ≤ e') (htie : |q - m' * 2 ^ e'| = |q - m * 2 ^ e|)
    (hne : (m' : ℚ) * 2 ^ e' ≠ m * 2 ^ e) : m % 2 = 0 := by
  have hu : (0 : ℚ) < 2 ^ e := by positivity
  obtain ⟨x, hx, hcases⟩ := h.exists_units hm' he'
  rw [hx, abs_sub_mul_eq hu, abs_sub_mul_eq hu] at htie
  rw [hx] at hne
  have hxm : x ≠ m := fun hxm => hne (by rw [hxm])
  have hmiddle : q / 2 ^ e - x = -(q / 2 ^ e - m) := by
    rcases abs_eq_abs.mp (mul_right_cancel₀ hu.ne' htie) with hsame | hopposite
    · exact absurd (sub_right_injective hsame) hxm
    · exact hopposite
  -- Both lie on either side of the rational number, and they are a unit apart at least.
  have hapart : 1 ≤ |x - m| := by
    rcases hcases with ⟨k, rfl⟩ | ⟨hbelow, hfull⟩
    · have hk : k - m ≠ 0 := fun hk => hxm (by exact_mod_cast sub_eq_zero.mp hk)
      exact_mod_cast Int.one_le_abs hk
    · have hm : twoPow 52 < m := by
        refine Nat.lt_of_not_le fun hle => hxm ?_
        have hle' : (m : ℚ) ≤ twoPow 52 := by exact_mod_cast hle
        linarith
      have hm' : (twoPow 52 : ℚ) + 1 ≤ m := by exact_mod_cast hm
      rw [abs_sub_comm]
      exact le_trans (by linarith) (le_abs_self _)
  have hdouble : |x - m| = 2 * |q / 2 ^ e - m| := by
    rw [← abs_two, ← abs_mul, abs_two]
    congr 1
    linarith
  exact h.rounded.even (le_antisymm h.rounded.near (by linarith))

/-- The rounded mantissa is out of range exactly from the end of the range on. -/
theorem rangeEnd_le_iff (h : Rounds q m e) :
    rangeEnd ≤ q ↔ greatestExponent < e ∨ m = twoPow 53 ∧ greatestExponent = e := by
  have hu (e : ℤ) : (0 : ℚ) < 2 ^ e := by positivity
  have hnear := abs_le.mp h.rounded.near
  constructor
  · intro hq
    have hm : (m : ℚ) ≤ twoPow 53 := by exact_mod_cast h.le
    rcases lt_trichotomy e greatestExponent with he | rfl | he
    · -- A smaller unit leaves a value below the end of the range.
      refine absurd hq (not_le.mpr ?_)
      calc q ≤ (twoPow 53 + 1 / 2) * 2 ^ e := by
            rw [← div_le_iff₀ (hu e)]
            linarith
        _ ≤ (twoPow 53 + 1 / 2) * 2 ^ (greatestExponent - 1) := by
            gcongr
            · exact one_le_two
            · omega
        _ < rangeEnd := by
            rw [rangeEnd, zpow_sub_one₀ two_ne_zero, cast_twoPow]
            have hlast := hu greatestExponent
            linarith
    · -- Half-way to the power of two behind it, the greatest mantissa is odd.
      refine .inr ⟨Nat.le_antisymm h.le ?_, rfl⟩
      have hhalf := isRounded_half (twoPow 53 - 1)
      refine hhalf.mono h.rounded ((le_div_iff₀ (hu _)).mpr (le_trans (le_of_eq ?_) hq))
      rw [rangeEnd, twoPow_53]
      norm_num
    · exact .inl he
  · rintro (he | ⟨rfl, rfl⟩)
    · have hleast : e ≠ leastExponent := by
        rintro rfl
        exact absurd he (by decide)
      calc rangeEnd ≤ twoPow 53 * 2 ^ greatestExponent := by
            rw [rangeEnd]
            gcongr
            norm_num
        _ = twoPow 52 * 2 ^ (greatestExponent + 1) := by
            rw [cast_twoPow, cast_twoPow, zpow_add_one₀ two_ne_zero]
            ring
        _ ≤ twoPow 52 * 2 ^ e := by
            gcongr
            · exact one_le_two
            · exact he
        _ ≤ q := (le_div_iff₀ (hu e)).mp (h.full.resolve_left hleast)
    · rw [rangeEnd, ← le_div_iff₀ (hu _)]
      linarith

theorem parts_ofMantissa_of_le (h : Rounds q m e) (hq : rangeEnd ≤ q) :
    parts (ofMantissa m e) = .infinity .positive := by
  have hleast : greatestExponent ≠ leastExponent := by decide
  have hm : m ≠ 0 := by
    rintro rfl
    rcases h.rangeEnd_le_iff.mp hq with he | ⟨h53, -⟩
    · have hfull : twoPow 52 ≤ 0 := h.full_mantissa.resolve_left fun he' => by
        rw [he'] at he
        exact absurd he (by decide)
      exact absurd hfull (by decide)
    · exact absurd h53 (by decide)
  rw [ofMantissa, dif_neg hm]
  rcases h.rangeEnd_le_iff.mp hq with he | ⟨hm53, he⟩
  · split
    · exact parts_ofParts_of_large .positive _ (by omega)
    · exact parts_ofParts_of_large .positive _ he
  · rw [if_pos hm53]
    exact parts_ofParts_of_large .positive _ (by omega)

/-- In range it is a zero, or it has the rounded value and an even mantissa with the rounded one. -/
theorem parts_ofMantissa (h : Rounds q m e) (hq : q < rangeEnd) :
    (m = 0 ∧ parts (ofMantissa m e) = .zero .positive) ∨
    ∃ m' e' hm', parts (ofMantissa m e) = .finite .positive m' e' hm' ∧
      (m' : ℚ) * 2 ^ e' = m * 2 ^ e ∧ (m % 2 = 0 → m' % 2 = 0) := by
  obtain ⟨hlarge, hlast⟩ := not_or.mp (h.rangeEnd_le_iff.not.mp (not_le.mpr hq))
  have hleast := h.least
  by_cases hm : m = 0
  · rw [ofMantissa, dif_pos hm]
    exact .inl ⟨hm, parts_ofParts_zero .positive⟩
  · right
    rw [ofMantissa, dif_neg hm]
    by_cases hm53 : m = twoPow 53
    · have he : e ≠ greatestExponent := fun he => hlast ⟨hm53, he.symm⟩
      have hc : IsCanonical (twoPow 52) (e + 1) :=
        ⟨by decide, by decide, by omega, by omega, .inr le_rfl⟩
      rw [if_pos hm53]
      refine ⟨twoPow 52, e + 1, hc.pos, parts_ofParts_finite .positive hc.pos hc, ?_,
        fun _ => by decide⟩
      rw [hm53, cast_twoPow, cast_twoPow, zpow_add_one₀ two_ne_zero]
      ring
    · have hc : IsCanonical m e :=
        ⟨Nat.pos_of_ne_zero hm, Nat.lt_of_le_of_ne h.le hm53, hleast, by omega, h.full_mantissa⟩
      rw [if_neg hm53]
      exact ⟨m, e, hc.pos, parts_ofParts_finite .positive hc.pos hc, rfl, id⟩

theorem isFinite_ofMantissa_iff (h : Rounds q m e) :
    (ofMantissa m e).isFinite ↔ q < rangeEnd := by
  rw [isFinite_eq]
  rcases lt_or_ge q rangeEnd with hq | hq
  · refine iff_of_true ?_ hq
    rcases h.parts_ofMantissa hq with ⟨-, hp⟩ | ⟨m', e', hm', hp, -⟩ <;> rw [hp] <;> rfl
  · rw [h.parts_ofMantissa_of_le hq]
    exact iff_of_false nofun (not_lt.mpr hq)

theorem absValue_ofMantissa (h : Rounds q m e) (hq : q < rangeEnd) :
    absValue (ofMantissa m e) = m * 2 ^ e := by
  rw [absValue]
  rcases h.parts_ofMantissa hq with ⟨rfl, hp⟩ | ⟨m', e', hm', hp, hvalue, -⟩
  · rw [hp, Nat.cast_zero, zero_mul]
    rfl
  · rw [hp]
    exact hvalue

end Rounds

/-! ## The nearest float -/

variable (num : ℕ) {den : ℕ} (hden : 0 < den)
include hden

theorem exists_rounds : ∃ m e, Rounds (num / den) m e ∧ nearest num den = ofMantissa m e := by
  rcases Nat.eq_zero_or_pos num with rfl | hnum
  · refine ⟨0, leastExponent, ⟨?_, by decide, le_rfl, .inl rfl⟩, rfl⟩
    rw [Nat.cast_zero, zero_div, zero_div]
    exact isRounded_zero
  · obtain ⟨e, he⟩ : ∃ e, e = canonicalExponent num den := ⟨_, rfl⟩
    have hmax : e = max (binaryOrder num den - 52) leastExponent := he
    have hu : (0 : ℚ) < 2 ^ e := by positivity
    obtain ⟨hlow, hhigh⟩ := binaryOrder_spec hnum hden
    have hpow (k : ℕ) : (twoPow k : ℚ) * 2 ^ e = 2 ^ (k + e) := by
      rw [cast_twoPow, zpow_add₀ two_ne_zero, zpow_natCast]
    have hquotient : ((num * twoPow (-e).toNat : ℕ) : ℚ) / (den * twoPow e.toNat : ℕ) =
        num / den / 2 ^ e := by
      rw [Nat.cast_mul, Nat.cast_mul, ← twoPow_toNat_div, div_div_eq_mul_div, div_mul_eq_mul_div,
        div_div]
    have hround := isRounded_roundQuotient (num * twoPow (-e).toNat)
      (Nat.mul_pos hden (twoPow_pos e.toNat))
    rw [hquotient] at hround
    refine ⟨_, e, ⟨hround, ?_, ?_, ?_⟩, ?_⟩
    · refine hround.mono (isRounded_natCast _) ((div_le_iff₀ hu).mpr ?_)
      rw [hpow]
      exact hhigh.le.trans (zpow_le_zpow_right₀ one_le_two (by push_cast; omega))
    · omega
    · by_cases hleast : e = leastExponent
      · exact .inl hleast
      · refine .inr ((le_div_iff₀ hu).mpr ?_)
        have horder : ((52 : ℕ) : ℤ) + e = binaryOrder num den := by push_cast; omega
        rw [hpow, horder]
        exact hlow
    · rw [nearest, if_neg hnum.ne', ← he]

theorem isFinite_nearest_iff : (nearest num den).isFinite ↔ (num : ℚ) / den < rangeEnd := by
  obtain ⟨m, e, h, hnearest⟩ := exists_rounds num hden
  rw [hnearest, h.isFinite_ofMantissa_iff]

theorem abs_sub_absValue_nearest_le (hfinite : (nearest num den).isFinite) (x : Float) :
    |(num : ℚ) / den - absValue (nearest num den)| ≤ |(num : ℚ) / den - absValue x| := by
  have hq := (isFinite_nearest_iff num hden).mp hfinite
  obtain ⟨m, e, h, hnearest⟩ := exists_rounds num hden
  obtain ⟨m', e', hm', he', -, hx⟩ := exists_absValue x
  rw [hnearest, h.absValue_ofMantissa hq, hx]
  exact h.abs_sub_le hm'.le he'

/-- A nearest float that is finite is a positive number or the positive zero. -/
theorem parts_nearest (hfinite : (nearest num den).isFinite) :
    parts (nearest num den) = .zero .positive ∨
      ∃ m e h, parts (nearest num den) = .finite .positive m e h := by
  have hq := (isFinite_nearest_iff num hden).mp hfinite
  obtain ⟨m, e, h, hnearest⟩ := exists_rounds num hden
  rw [hnearest]
  rcases h.parts_ofMantissa hq with ⟨-, hp⟩ | ⟨m', e', hm', hp, -⟩
  · exact .inl hp
  · exact .inr ⟨m', e', hm', hp⟩

/-- Of two equally near floats the nearest one has an even mantissa. -/
theorem even_of_parts_nearest {s : Sign} {m : ℕ} {e : ℤ} {hm : 0 < m}
    (hp : parts (nearest num den) = .finite s m e hm) {x : Float}
    (htie : |(num : ℚ) / den - absValue x| = |(num : ℚ) / den - absValue (nearest num den)|)
    (hne : absValue x ≠ absValue (nearest num den)) : m % 2 = 0 := by
  have hfinite : (nearest num den).isFinite := by
    rw [isFinite_eq, hp]
    rfl
  have hq := (isFinite_nearest_iff num hden).mp hfinite
  obtain ⟨m₁, e₁, h, hnearest⟩ := exists_rounds num hden
  obtain ⟨m₂, e₂, hm₂, he₂, -, hx⟩ := exists_absValue x
  rw [hnearest] at hp
  rw [hnearest, h.absValue_ofMantissa hq, hx] at htie hne
  rcases h.parts_ofMantissa hq with ⟨-, hp'⟩ | ⟨m', e', hm', hp', -, heven⟩
  · cases hp'.symm.trans hp
  · cases hp'.symm.trans hp
    exact heven (h.even_of_tie hm₂.le he₂ htie hne)

end Calculator.Number
