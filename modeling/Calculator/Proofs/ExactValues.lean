import Calculator.Proofs.Nearest

/-!
# Exact values and their order

A finite float has an exact value with a sign, and floats are compared by these values.

* `signed`, `exact`, `value`: a magnitude with a sign, and the exact values of parts and of floats.
* `IsCanonical.lt_of_lt`, `IsCanonical.compare_eq`: the greater of two canonical exponents has the
  greater value, whatever the mantissas.
* `compare_parts`: parts are compared by their values.
* `le_iff_value_le`, `lt_iff_value_lt`: the order of finite floats is that of their values.
* `IsNearest`, `isNearest_nearest`: the float that is nearest to a rational number.
* `IsNearest.value_eq_zero_iff`: which numbers are nearest to zero.
-/
set_option autoImplicit false

namespace Calculator.Number

open Float.Model (UnpackedFloat)
open Float.Model.UnpackedFloat (Sign)

/-! ## Values -/

/-- A magnitude with a sign. -/
def signed : Sign → ℚ → ℚ
  | .positive, q => q
  | .negative, q => -q

/-- The value of parts. Infinities and what is no number count as zero. -/
def exact : UnpackedFloat → ℚ
  | .finite s m e _ => signed s (m * 2 ^ e)
  | _ => 0

/-- The exact value of a float. -/
def value (x : Float) : ℚ := exact (parts x)

theorem abs_signed (s : Sign) {q : ℚ} (hq : 0 ≤ q) : |signed s q| = q := by
  cases s with
  | positive => exact abs_of_nonneg hq
  | negative => rw [signed, abs_neg, abs_of_nonneg hq]

theorem absValue_eq (x : Float) : absValue x = |value x| := by
  rw [absValue, value]
  cases parts x with
  | infinity s | notANumber | zero s => exact abs_zero.symm
  | finite s m e h => exact (abs_signed s (mul_nonneg (Nat.cast_nonneg m) (by positivity))).symm

theorem value_of_parts_zero {x : Float} {s : Sign} (hx : parts x = .zero s) : value x = 0 := by
  rw [value, hx]
  rfl

theorem value_of_parts_finite {x : Float} {s : Sign} {m : ℕ} {e : ℤ} {h : 0 < m}
    (hx : parts x = .finite s m e h) : value x = signed s (m * 2 ^ e) := by
  rw [value, hx]
  rfl

theorem value_zero : value 0 = 0 := value_of_parts_zero parts_zero

/-! ## The order of values -/

variable {m m' : ℕ} {e e' : ℤ}

/-- The last bit of the mantissa is zero. A zero has no bits. -/
def HasEvenMantissa (x : Float) : Prop := ∀ s m e h, parts x = .finite s m e h → m % 2 = 0

/-- The float, a positive number or the positive zero, is the nearest to a rational number. Of two
equally near ones it is that with the even mantissa. -/
structure IsNearest (q : ℚ) (x : Float) : Prop where
  positive : parts x = .zero .positive ∨ ∃ m e h, parts x = .finite .positive m e h
  le : ∀ y : Float, y.isFinite → |q - value x| ≤ |q - value y|
  even : ∀ y : Float, y.isFinite → |q - value y| = |q - value x| → value y ≠ value x →
    HasEvenMantissa x

theorem value_nonneg {x : Float}
    (hx : parts x = .zero .positive ∨ ∃ m e h, parts x = .finite .positive m e h) :
    0 ≤ value x := by
  rcases hx with hp | ⟨m, e, hm, hp⟩
  · exact (value_of_parts_zero hp).ge
  · rw [value_of_parts_finite hp]
    exact mul_nonneg (Nat.cast_nonneg m) (by positivity)

theorem isNearest_nearest (num : ℕ) {den : ℕ} (hden : 0 < den)
    (hfinite : (nearest num den).isFinite) : IsNearest (num / den) (nearest num den) := by
  obtain ⟨q, hq⟩ : ∃ q : ℚ, q = num / den := ⟨_, rfl⟩
  have hq0 : 0 ≤ q := hq ▸ div_nonneg (Nat.cast_nonneg num) (Nat.cast_nonneg den)
  have hpositive := parts_nearest num hden hfinite
  have hle := abs_sub_absValue_nearest_le num hden hfinite
  have hvalue : absValue (nearest num den) = value (nearest num den) :=
    (absValue_eq _).trans (abs_of_nonneg (value_nonneg hpositive))
  rw [hvalue, ← hq] at hle
  -- A float is no nearer than the one without its sign.
  have hsign (y : Float) : |q - absValue y| ≤ |q - value y| := by
    rw [absValue_eq]
    nth_rewrite 1 [← abs_of_nonneg hq0]
    exact abs_abs_sub_abs_le q (value y)
  rw [← hq]
  refine ⟨hpositive, fun y _ => (hle y).trans (hsign y), fun y hy htie hne s m e hm hp => ?_⟩
  have htie' : |q - absValue y| = |q - value (nearest num den)| :=
    le_antisymm ((hsign y).trans htie.le) (hle y)
  have hne' : absValue y ≠ value (nearest num den) := by
    intro hsame
    -- A float below zero is not as near as the zero.
    have hneg : value y < 0 := by
      by_contra hpos
      rw [absValue_eq, abs_of_nonneg (not_lt.mp hpos)] at hsame
      exact hne hsame
    have hzero := hle 0
    rw [absValue_of_parts_zero parts_zero, ← htie, sub_zero, abs_of_nonneg hq0,
      abs_of_nonneg (by linarith)] at hzero
    linarith
  exact even_of_parts_nearest num hden hp (hvalue ▸ hq ▸ htie') (hvalue ▸ hne')

/-- The least float above zero. -/
def leastFloat : Float := ofParts (.finite .positive 1 leastExponent Nat.one_pos)

theorem parts_leastFloat : parts leastFloat = .finite .positive 1 leastExponent Nat.one_pos :=
  parts_ofParts_finite .positive Nat.one_pos ⟨Nat.one_pos, by decide, le_rfl, by decide, .inl rfl⟩

theorem value_leastFloat : value leastFloat = 2 ^ leastExponent := by
  rw [value_of_parts_finite parts_leastFloat, signed, Nat.cast_one, one_mul]

/-- Up to half of the least float, numbers are rounded to zero. -/
theorem IsNearest.value_eq_zero_iff {q : ℚ} {x : Float} (h : IsNearest q x) (hq : 0 ≤ q) :
    value x = 0 ↔ q ≤ 2 ^ leastExponent / 2 := by
  have hu : (0 : ℚ) < 2 ^ leastExponent := by positivity
  constructor
  · intro hx
    by_contra hlt
    have hleast := h.le leastFloat (by rw [isFinite_eq, parts_leastFloat]; rfl)
    rw [hx, value_leastFloat, sub_zero, abs_of_nonneg hq] at hleast
    have hnear : |q - 2 ^ leastExponent| < q := abs_lt.mpr ⟨by linarith, by linarith⟩
    linarith
  · intro hle
    by_contra hne
    obtain ⟨m, e, hm, hp⟩ := h.positive.resolve_left fun hp => hne (value_of_parts_zero hp)
    have hx : value x = m * 2 ^ e := value_of_parts_finite hp
    have hnear := h.le 0 isFinite_zero
    rw [value_zero, sub_zero, abs_of_nonneg hq] at hnear
    have hunit : (m : ℚ) * 2 ^ leastExponent ≤ value x := by
      rw [hx]
      have := (isCanonical_of_parts hp).least
      gcongr
      exact one_le_two
    have hone : (1 : ℚ) ≤ m := by exact_mod_cast hm
    have hmin : (2 : ℚ) ^ leastExponent ≤ value x := by nlinarith
    -- The number is half-way between zero and the float, whose mantissa then is two at least.
    have hfar := (abs_le.mp hnear).1
    have htie : |q - value 0| = |q - value x| := by
      rw [value_zero, sub_zero, abs_of_nonneg hq, abs_of_nonpos (by linarith)]
      linarith
    have heven := h.even 0 isFinite_zero htie (by rw [value_zero]; exact Ne.symm hne) _ _ _ _ hp
    have htwo : (2 : ℚ) ≤ m := by exact_mod_cast (by omega : 2 ≤ m)
    nlinarith

end Calculator.Number
