import Mathlib
import Calculator.Number.Binary64

/-!
# Floats and their parts

A finite float is a signed zero or has a canonical mantissa and exponent, and every such zero or
pair is that of a float.

* `IsCanonical`: the mantissas and exponents of finite floats.
* `isCanonical_of_parts`: the parts of a float are canonical.
* `parts_ofParts_zero`, `parts_ofParts_finite`, `parts_ofParts_of_large`: floats made of parts.
* `parts_zero_sub`: a float that is subtracted from zero.
-/
set_option autoImplicit false

namespace Calculator.Number

open Float.Model (UnpackedFloat Format)
open Float.Model.UnpackedFloat

/-- The greatest exponent of a finite float. -/
def greatestExponent : Int := 971

/-- The mantissas and exponents of the finite floats other than zero. The mantissa has 53 bits, or
fewer at the least exponent. -/
structure IsCanonical (m : Nat) (e : Int) : Prop where
  pos : 0 < m
  lt : m < twoPow 53
  least : leastExponent ≤ e
  greatest : e ≤ greatestExponent
  full : e = leastExponent ∨ twoPow 52 ≤ m

theorem twoPow_52 : twoPow 52 = 4503599627370496 := rfl

theorem twoPow_53 : twoPow 53 = 9007199254740992 := rfl

/-! ## Bits -/

section Bits

variable (s : Sign) {e : BitVec 11} {m : BitVec 52}

theorem toNat_append_one (m : BitVec 52) : (1#1 ++ m).toNat = twoPow 52 + m.toNat := by
  rw [BitVec.toNat_append, ← Nat.shiftLeft_add_eq_or_of_lt m.isLt]
  rfl

theorem ne_of_toNat_ne {w : Nat} {a b : BitVec w} (h : a.toNat ≠ b.toNat) : a ≠ b :=
  fun hab => h (congrArg BitVec.toNat hab)

/-- Between the two ends of the biased exponents the mantissa has a leading bit of its own. -/
theorem unpack_of_biased {n : Nat} {x : Int} (h0 : 0 < e.toNat) (h1 : e.toNat < 2047)
    (hn : n = twoPow 52 + m.toNat) (hx : x = e.toNat - 1075) (h : 0 < n) :
    unpack .binary64 (packComponents .binary64 s e m) = .finite s n x h := by
  subst hn hx
  have hne : e ≠ -1#11 := ne_of_toNat_ne (Nat.ne_of_lt h1)
  have hne0 : e ≠ 0#11 := ne_of_toNat_ne (Nat.ne_of_gt h0)
  simp only [unpack, unpackMantissa_packComponents, unpackExponent_packComponents,
    unpackSign_packComponents, Sign.ofBitVec_toBitVec, if_neg hne, if_neg hne0, toNat_append_one]
  rfl

/-- At the lower end it has none. -/
theorem unpack_of_unbiased {n : Nat} (hn : n = m.toNat) (h : 0 < n) :
    unpack .binary64 (packComponents .binary64 s 0#11 m) = .finite s n leastExponent h := by
  subst hn
  have hne : (0#11 : BitVec 11) ≠ -1#11 := by decide
  have hm : m ≠ 0#52 := ne_of_toNat_ne (Nat.ne_of_gt h)
  simp only [unpack, unpackMantissa_packComponents, unpackExponent_packComponents,
    unpackSign_packComponents, Sign.ofBitVec_toBitVec, if_neg hne, dif_neg hm]
  rfl

theorem pack_finite {m : Nat} {e : Int} (h : 0 < m) :
    pack .binary64 (.finite s m e h) =
      if 2047 < (e + 1075).toNat + 1 then packedInfinity .binary64 s
      else if m.log2 = 52 then
        packComponents .binary64 s (BitVec.ofNat 11 (e + 1075).toNat) (BitVec.ofNat 52 m)
      else packComponents .binary64 s 0#11 (BitVec.ofNat 52 m) := by
  have hbias : (e + Format.binary64.exponentBias + (52 : Nat)).toNat = (e + 1075).toNat := by
    change (e + 1023 + 52).toNat = (e + 1075).toNat
    omega
  have hbits : m.log2 + 1 = Format.binary64.mantissaBits ↔ m.log2 = 52 := by
    change m.log2 + 1 = 53 ↔ m.log2 = 52
    omega
  simp only [pack, hbias, hbits]
  rfl

end Bits

/-! ## Parts -/

theorem parts_ofParts_zero (s : Sign) : parts (ofParts (.zero s)) = .zero s := by
  cases s <;> rfl

theorem parts_infinity (s : Sign) : parts (ofParts (.infinity s)) = .infinity s := by
  cases s <;> rfl

/-- Canonical parts are those of the float they make. -/
theorem parts_ofParts_finite (s : Sign) {m : Nat} {e : Int} (h : 0 < m) (hc : IsCanonical m e) :
    parts (ofParts (.finite s m e h)) = .finite s m e h := by
  change unpack .binary64 (pack .binary64 (.finite s m e h)) = _
  have hlt := hc.lt
  have hfull := hc.full
  have hleast := hc.least
  have hgreatest := hc.greatest
  rw [twoPow_52] at hfull
  rw [twoPow_53] at hlt
  rw [leastExponent] at hfull hleast
  rw [greatestExponent] at hgreatest
  by_cases hm : 2 ^ 52 ≤ m
  · have hlog : m.log2 = 52 := (Nat.log2_eq_iff (Nat.ne_of_gt h)).mpr ⟨hm, hlt⟩
    have he : (BitVec.ofNat 11 (e + 1075).toNat).toNat = (e + 1075).toNat := by
      rw [BitVec.toNat_ofNat]
      omega
    rw [pack_finite s h, if_neg (by omega), if_pos hlog]
    refine unpack_of_biased s ?_ ?_ ?_ ?_ h
    · omega
    · omega
    · rw [BitVec.toNat_ofNat, twoPow_52]
      omega
    · omega
  · have hlog : m.log2 < 52 := (Nat.log2_lt (Nat.ne_of_gt h)).mpr (Nat.lt_of_not_le hm)
    have he : e = leastExponent := hfull.resolve_right hm
    rw [pack_finite s h, if_neg (by omega), if_neg (Nat.ne_of_lt hlog), he]
    refine unpack_of_unbiased s ?_ h
    rw [BitVec.toNat_ofNat]
    omega

/-- An exponent that is too large makes an infinity. -/
theorem parts_ofParts_of_large (s : Sign) {m : Nat} {e : Int} (h : 0 < m)
    (he : greatestExponent < e) : parts (ofParts (.finite s m e h)) = .infinity s := by
  change unpack .binary64 (pack .binary64 (.finite s m e h)) = _
  rw [greatestExponent] at he
  rw [pack_finite s h, if_pos (by omega)]
  exact parts_infinity s

/-- Bits that stand for a finite number other than zero have canonical parts. -/
theorem isCanonical_of_unpack {b : BitVec Format.binary64.numBits} {s : Sign} {m : Nat} {e : Int}
    {h : 0 < m} (hb : unpack .binary64 b = .finite s m e h) : IsCanonical m e := by
  have hmantissa : (unpackMantissa b).toNat < twoPow 52 := (unpackMantissa b).isLt
  have hexponent : (unpackExponent b).toNat < 2048 := (unpackExponent b).isLt
  have hbias : ((Format.binary64.exponentBias : Nat) : Int) = 1023 := rfl
  have hbits : ((Format.binary64.mantissaBitsWithoutImplicit : Nat) : Int) = 52 := rfl
  rw [unpack] at hb
  split at hb
  · split at hb <;> cases hb
  · next hinfinite =>
    split at hb
    · split at hb
      · cases hb
      · next hunbiased hzero =>
        have hunbiased' : (unpackExponent b).toNat = 0 := congrArg BitVec.toNat hunbiased
        cases hb
        rw [hbias, hbits, hunbiased']
        exact ⟨h, Nat.lt_trans hmantissa (by decide), by decide, by decide, .inl rfl⟩
    · next hbiased =>
      have hpos : (unpackExponent b).toNat ≠ 0 := fun h0 => hbiased (BitVec.eq_of_toNat_eq h0)
      have hlt : (unpackExponent b).toNat ≠ 2047 := fun h1 => hinfinite (BitVec.eq_of_toNat_eq h1)
      have hleading := toNat_append_one (unpackMantissa b)
      rw [twoPow_52] at hmantissa hleading
      cases hb
      rw [hbias, hbits]
      constructor
      · exact h
      · rw [twoPow_53]
        omega
      · rw [leastExponent]
        omega
      · rw [greatestExponent]
        omega
      · rw [twoPow_52]
        omega

/-- A float has canonical parts. -/
theorem isCanonical_of_parts {x : Float} {s : Sign} {m : Nat} {e : Int} {h : 0 < m}
    (hx : parts x = .finite s m e h) : IsCanonical m e :=
  isCanonical_of_unpack hx

/-! ## Subtraction from zero -/

theorem parts_zero : parts 0 = .zero .positive := by with_unfolding_all rfl

theorem parts_zero_sub (x : Float) :
    parts (0 - x) = parts (ofParts (.sub .binary64 (.zero .positive) (parts x))) := by
  have h : parts (0 - x) = parts (ofParts (.sub .binary64 (parts 0) (parts x))) := rfl
  rw [h, parts_zero]

theorem parts_zero_sub_zero {x : Float} {s : Sign} (hx : parts x = .zero s) :
    parts (0 - x) = .zero .positive := by
  rw [parts_zero_sub, hx, ← parts_ofParts_zero]
  cases s <;> rfl

theorem parts_zero_sub_finite {x : Float} {s : Sign} {m : Nat} {e : Int} {h : 0 < m}
    (hx : parts x = .finite s m e h) : parts (0 - x) = .finite (-s) m e h := by
  rw [parts_zero_sub, hx]
  exact parts_ofParts_finite (-s) h (isCanonical_of_parts hx)

/-! ## Finite floats -/

theorem isFinite_eq (x : Float) : x.isFinite = (parts x).isFinite := rfl

/-- A finite float is a zero or has a mantissa. -/
theorem parts_of_isFinite {x : Float} (hx : x.isFinite) :
    (∃ s, parts x = .zero s) ∨
      ∃ s m e, ∃ h : 0 < m, parts x = .finite s m e h ∧ IsCanonical m e := by
  rw [isFinite_eq] at hx
  cases hp : parts x with
  | infinity s | notANumber =>
    rw [hp] at hx
    cases hx
  | zero s => exact .inl ⟨s, rfl⟩
  | finite s m e h => exact .inr ⟨s, m, e, h, rfl, isCanonical_of_parts hp⟩

theorem isFinite_zero_sub {x : Float} (hx : x.isFinite) : (0 - x).isFinite := by
  rw [isFinite_eq]
  rcases parts_of_isFinite hx with ⟨s, hp⟩ | ⟨s, m, e, hm, hp, -⟩
  · rw [parts_zero_sub_zero hp]
    rfl
  · rw [parts_zero_sub_finite hp]
    rfl

end Calculator.Number
