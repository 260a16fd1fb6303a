import Calculator.Number.Rounding
import Mathlib.Algebra.Order.Field.Rat
import Mathlib.Data.Nat.Cast.Order.Field
import Mathlib.Tactic.FieldSimp
import Mathlib.Tactic.Linarith
import Mathlib.Tactic.Positivity

/-!
# Rounding of rational numbers

* `cast_twoPow`, `cast_tenPow`, `twoPow_toNat`: powers of the two bases as rational numbers.
* `IsRounded`: a natural number is the nearest to a rational one, and even if it is one of two.
* `isRounded_roundQuotient`: this is what is computed; `IsRounded.unique`, `IsRounded.mono`: there
  is one such number, and it grows with the rational one.
* `binaryOrder_spec`: the position of the leading binary digit.
-/
set_option autoImplicit false

namespace Calculator.Number

/-! ## Powers -/

theorem cast_twoPow (k : ℕ) : (twoPow k : ℚ) = 2 ^ k := Nat.cast_pow 2 k

theorem cast_tenPow (k : ℕ) : (tenPow k : ℚ) = 10 ^ k := Nat.cast_pow 10 k

theorem twoPow_pos (k : ℕ) : 0 < twoPow k := Nat.pow_pos (by decide)

theorem tenPow_pos (k : ℕ) : 0 < tenPow k := Nat.pow_pos (by decide)

theorem tenPow_succ (k : ℕ) : tenPow (k + 1) = tenPow k * 10 := rfl

theorem tenPow_add (j k : ℕ) : tenPow (j + k) = tenPow j * tenPow k := Nat.pow_add 10 j k

/-- A power with an exponent of either sign, as a quotient of powers. -/
theorem twoPow_toNat (e : ℤ) : (twoPow e.toNat : ℚ) = 2 ^ e * twoPow (-e).toNat := by
  obtain ⟨n, rfl | rfl⟩ := e.eq_nat_or_neg
  · have h0 : (-(n : ℤ)).toNat = 0 := by omega
    rw [h0, Int.toNat_natCast, cast_twoPow, cast_twoPow, zpow_natCast, pow_zero, mul_one]
  · have h0 : (-(n : ℤ)).toNat = 0 := by omega
    rw [h0, neg_neg, Int.toNat_natCast, cast_twoPow, cast_twoPow, zpow_neg, zpow_natCast, pow_zero,
      inv_mul_cancel₀ (by positivity)]

theorem twoPow_toNat_div (e : ℤ) : (twoPow e.toNat : ℚ) / twoPow (-e).toNat = 2 ^ e := by
  have hscale : (twoPow (-e).toNat : ℚ) ≠ 0 := by exact_mod_cast (twoPow_pos _).ne'
  rw [twoPow_toNat, mul_div_cancel_right₀ _ hscale]

/-- Distances in units. -/
theorem abs_sub_mul_eq {u : ℚ} (hu : 0 < u) (q x : ℚ) : |q - x * u| = |q / u - x| * u := by
  rw [← abs_of_pos hu, ← abs_mul, abs_of_pos hu, sub_mul, div_mul_cancel₀ q hu.ne']

/-! ## The nearest natural number -/

/-- The natural number is the nearest to the rational one. Of two equally near ones it is the even
one. -/
structure IsRounded (q : ℚ) (n : ℕ) : Prop where
  near : |q - n| ≤ 1 / 2
  even : |q - n| = 1 / 2 → n % 2 = 0

variable {q r : ℚ} {m n : ℕ}

theorem isRounded_of_abs_sub_lt (h : |q - n| < 1 / 2) : IsRounded q n :=
  ⟨h.le, fun htie => absurd htie h.ne⟩

theorem isRounded_natCast (n : ℕ) : IsRounded n n :=
  isRounded_of_abs_sub_lt (by rw [sub_self, abs_zero]; norm_num)

theorem isRounded_zero : IsRounded 0 0 := isRounded_natCast 0

/-- Only the distance counts. -/
theorem IsRounded.of_abs_sub_le (h : IsRounded q n) (hr : |r - n| ≤ |q - n|) : IsRounded r n :=
  ⟨hr.trans h.near, fun htie => h.even (le_antisymm h.near (htie ▸ hr))⟩

/-- The greater number is not rounded to a smaller one. -/
theorem IsRounded.mono (hq : IsRounded q m) (hr : IsRounded r n) (h : q ≤ r) : m ≤ n := by
  by_contra hlt
  have hsucc : (n : ℚ) + 1 ≤ m := by exact_mod_cast Nat.lt_of_not_le hlt
  have hm := (abs_le.mp hq.near).1
  have hn := (abs_le.mp hr.near).2
  -- Both numbers are as far away as they can be, so that both are even, and they are neighbours.
  have hqm : q - m = -(1 / 2) := by linarith
  have hrn : r - n = 1 / 2 := by linarith
  have hmn : m = n + 1 := by
    have : (m : ℚ) = n + 1 := by linarith
    exact_mod_cast this
  have hmeven : m % 2 = 0 := hq.even (by rw [hqm]; norm_num)
  have hneven : n % 2 = 0 := hr.even (by rw [hrn]; norm_num)
  omega

theorem IsRounded.unique (hm : IsRounded q m) (hn : IsRounded q n) : m = n :=
  Nat.le_antisymm (hm.mono hn le_rfl) (hn.mono hm le_rfl)

/-- No integer is nearer. -/
theorem IsRounded.le_abs_sub (h : IsRounded q n) (k : ℤ) : |q - n| ≤ |q - k| := by
  by_cases hk : (n : ℤ) = k
  · rw [← hk, Int.cast_natCast]
  · have hone : (1 : ℚ) ≤ |(n : ℚ) - k| := by
      exact_mod_cast Int.one_le_abs (sub_ne_zero.mpr hk)
    have htriangle := abs_sub_le (n : ℚ) q k
    rw [abs_sub_comm (n : ℚ) q] at htriangle
    linarith [h.near]

/-- A natural number with a half is rounded to an even one. -/
theorem isRounded_half (n : ℕ) : IsRounded (n + 1 / 2) (n + n % 2) := by
  rcases Nat.mod_two_eq_zero_or_one n with h | h
  · rw [h, Nat.add_zero]
    constructor
    · rw [add_sub_cancel_left]
      norm_num
    · exact fun _ => h
  · rw [h]
    constructor
    · rw [Nat.cast_add, add_sub_add_left_eq_sub]
      norm_num
    · exact fun _ => by omega

/-- The quotient and the remainder of two naturals, as a rational number. -/
theorem natCast_div_eq (num : ℕ) {den : ℕ} (h : 0 < den) :
    (num : ℚ) / den = (num / den : ℕ) + ((num % den : ℕ) : ℚ) / den := by
  have hden : (den : ℚ) ≠ 0 := by exact_mod_cast h.ne'
  have hsplit : (num : ℚ) = den * (num / den : ℕ) + (num % den : ℕ) := by
    exact_mod_cast (Nat.div_add_mod num den).symm
  rw [div_eq_iff hden, add_mul, div_mul_cancel₀ _ hden, mul_comm _ (den : ℚ)]
  exact hsplit

theorem isRounded_roundQuotient (num : ℕ) {den : ℕ} (h : 0 < den) :
    IsRounded (num / den) (roundQuotient num den) := by
  have hden : (0 : ℚ) < den := by exact_mod_cast h
  have hrest : ((num % den : ℕ) : ℚ) < den := by exact_mod_cast Nat.mod_lt num h
  rw [natCast_div_eq num h, roundQuotient]
  generalize num / den = n
  generalize num % den = k at *
  have hk : (0 : ℚ) ≤ (k : ℚ) / den := by positivity
  split
  · next hlow =>
    have hx : (k : ℚ) / den < 1 / 2 := by
      have : (2 * k : ℚ) < den := by exact_mod_cast hlow
      rw [div_lt_iff₀ hden]
      linarith
    apply isRounded_of_abs_sub_lt
    rwa [add_sub_cancel_left, abs_of_nonneg hk]
  · next hlow =>
    split
    · next hhigh =>
      have hx : 1 / 2 < (k : ℚ) / den := by
        have : (den : ℚ) < 2 * k := by exact_mod_cast hhigh
        rw [lt_div_iff₀ hden]
        linarith
      have hx1 : (k : ℚ) / den < 1 := (div_lt_one hden).mpr hrest
      apply isRounded_of_abs_sub_lt
      rw [Nat.cast_add, add_sub_add_left_eq_sub, Nat.cast_one, abs_lt]
      constructor <;> linarith
    · next hhigh =>
      have hx : (k : ℚ) / den = 1 / 2 := by
        have : (2 * k : ℚ) = den := by exact_mod_cast (by omega : 2 * k = den)
        rw [div_eq_iff hden.ne']
        linarith
      rw [hx]
      exact isRounded_half n

/-! ## The leading binary digit -/

theorem two_zpow_sub (a b : ℕ) : (2 : ℚ) ^ ((a : ℤ) - b) = 2 ^ a / 2 ^ b := by
  rw [zpow_sub₀ two_ne_zero, zpow_natCast, zpow_natCast]

theorem div_lt_two_zpow_iff (num : ℕ) {den : ℕ} (h : 0 < den) (k : ℤ) :
    (num : ℚ) / den < 2 ^ k ↔ num * twoPow (-k).toNat < den * twoPow k.toNat := by
  have hden : (0 : ℚ) < den := by exact_mod_cast h
  have hscale : (0 : ℚ) < twoPow (-k).toNat := by exact_mod_cast twoPow_pos _
  rw [div_lt_iff₀ hden, ← mul_lt_mul_iff_of_pos_right hscale, mul_right_comm, ← twoPow_toNat,
    mul_comm _ (den : ℚ)]
  exact_mod_cast Iff.rfl

theorem binaryOrder_spec {num den : ℕ} (hnum : 0 < num) (hden : 0 < den) :
    (2 : ℚ) ^ binaryOrder num den ≤ num / den ∧
      (num : ℚ) / den < 2 ^ (binaryOrder num den + 1) := by
  obtain ⟨a, ha⟩ : ∃ a, a = num.log2 := ⟨_, rfl⟩
  obtain ⟨b, hb⟩ : ∃ b, b = den.log2 := ⟨_, rfl⟩
  have hnumlow : (2 : ℚ) ^ a ≤ num := by
    exact_mod_cast ha ▸ Nat.log2_self_le hnum.ne'
  have hnumhigh : (num : ℚ) < 2 ^ (a + 1) := by
    exact_mod_cast ha ▸ Nat.lt_log2_self
  have hdenlow : (2 : ℚ) ^ b ≤ den := by
    exact_mod_cast hb ▸ Nat.log2_self_le hden.ne'
  have hdenhigh : (den : ℚ) < 2 ^ (b + 1) := by
    exact_mod_cast hb ▸ Nat.lt_log2_self
  have hpos : (0 : ℚ) < den := by exact_mod_cast hden
  have hlow : (2 : ℚ) ^ ((a : ℤ) - b - 1) ≤ num / den := by
    have hexp : (a : ℤ) - b - 1 = a - (b + 1 : ℕ) := by omega
    rw [hexp, two_zpow_sub]
    exact div_le_div₀ (Nat.cast_nonneg num) hnumlow hpos hdenhigh.le
  have hhigh : (num : ℚ) / den < 2 ^ ((a : ℤ) - b + 1) := by
    have hexp : (a : ℤ) - b + 1 = (a + 1 : ℕ) - b := by omega
    rw [hexp, two_zpow_sub]
    exact div_lt_div₀ hnumhigh hdenlow (by positivity) (by positivity)
  rw [binaryOrder, ← ha, ← hb]
  split
  · next h =>
    rw [sub_add_cancel]
    exact ⟨hlow, (div_lt_two_zpow_iff num hden _).mpr h⟩
  · next h => exact ⟨not_lt.mp (mt (div_lt_two_zpow_iff num hden _).mp h), hhigh⟩

end Calculator.Number
