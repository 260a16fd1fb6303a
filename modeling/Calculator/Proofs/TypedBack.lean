import Calculator.Proofs.FixedPlaces
import Calculator.Proofs.Meaning
import Calculator.Proofs.Overlong
import Calculator.Proofs.Sessions

/-!
# Results that are typed back

The text of a result is an expression, and its value has the same text again, unless the text is
too long to be read.

* `isRounded_nearest`: rounding to decimal places and to the nearest float, one after the other,
  does not lead away from the decimal number.
* `isCounted_of_le`: so few places that the digits of every value are counted.
* `fixedChars_nearest`, `fixedChars_zero_sub_nearest`: the text of the number that is read.
* `evaluate_of_spells`: texts that are spelled without margins.
* `unsignedChars`, `withoutVoidSign`: a text without its minus sign, and without the minus sign of a
  zero.
* `evaluate_formatted`: every finite value with any number of places.
-/
set_option autoImplicit false

namespace Calculator

open Calculator.Text

namespace Number

open Float.Model.UnpackedFloat (Sign)

/-! ## Decimal numbers near a float -/

theorem absValue_le (x : Float) : absValue x ≤ (twoPow 53 - 1) * 2 ^ greatestExponent := by
  obtain ⟨m, e, hm, -, he, hx⟩ := exists_absValue x
  have hm' : (m : ℚ) ≤ twoPow 53 - 1 := by
    have : (m : ℚ) + 1 ≤ twoPow 53 := by exact_mod_cast hm
    linarith
  have hu : (2 : ℚ) ^ e ≤ 2 ^ greatestExponent := zpow_le_zpow_right₀ one_le_two he
  rw [hx]
  exact mul_le_mul hm' hu (zpow_nonneg zero_le_two e) ((Nat.cast_nonneg m).trans hm')

/-- The range goes on far behind the greatest float. -/
theorem absValue_add_half_lt (x : Float) : absValue x + 1 / 2 < rangeEnd := by
  have hone : (1 : ℚ) < 2 ^ greatestExponent := one_lt_zpow₀ one_lt_two (by decide)
  have hle := absValue_le x
  rw [rangeEnd]
  linarith

theorem rangeEnd_lt : rangeEnd < 10 ^ 309 := by
  have hunit : (2 : ℚ) ^ 93 < 10 ^ 28 := by norm_num
  rw [rangeEnd_eq]
  calc (2 : ℚ) ^ 1024 - 2 ^ 970
      < 2 ^ 1024 := sub_lt_self _ (by positivity)
    _ = (2 ^ 93) ^ 11 * 2 := by rw [← pow_mul, ← pow_succ]
    _ < (10 ^ 28) ^ 11 * 10 := by gcongr; norm_num
    _ = 10 ^ 309 := by rw [← pow_mul, ← pow_succ]

/-- The units of a float are within the range. -/
theorem IsRounded.div_lt_rangeEnd {v : Float} {places n : ℕ}
    (h : IsRounded (absValue v * tenPow places) n) : (n : ℚ) / tenPow places < rangeEnd := by
  have hpos : (0 : ℚ) < tenPow places := by exact_mod_cast tenPow_pos places
  have hone : (1 : ℚ) ≤ tenPow places := by exact_mod_cast tenPow_pos places
  have hnear := (abs_le.mp h.near).1
  refine lt_of_le_of_lt ?_ (absValue_add_half_lt v)
  rw [div_le_iff₀ hpos, add_mul]
  linarith

theorem IsRounded.div_lt {v : Float} {places n : ℕ}
    (h : IsRounded (absValue v * tenPow places) n) : n / tenPow places < 10 ^ 309 := by
  have hpos : (0 : ℚ) < tenPow places := by exact_mod_cast tenPow_pos places
  have hlt := h.div_lt_rangeEnd.trans rangeEnd_lt
  rw [div_lt_iff₀ hpos] at hlt
  rw [Nat.div_lt_iff_lt_mul (tenPow_pos places)]
  exact_mod_cast hlt

/-- A float in units of a decimal place, rounded and read as a number again, is not further away
than before, so that it is rounded to the same units. -/
theorem isRounded_nearest {v : Float} {places n : ℕ}
    (h : IsRounded (absValue v * tenPow places) n) :
    (nearest n (tenPow places)).isFinite ∧
      IsRounded (absValue (nearest n (tenPow places)) * tenPow places) n := by
  have hpos : (0 : ℚ) < tenPow places := by exact_mod_cast tenPow_pos places
  have hfinite : (nearest n (tenPow places)).isFinite :=
    (isFinite_nearest_iff n (tenPow_pos places)).mpr h.div_lt_rangeEnd
  refine ⟨hfinite, h.of_abs_sub_le ?_⟩
  rw [abs_sub_comm, abs_sub_mul_eq hpos, abs_sub_comm (absValue v * _), abs_sub_mul_eq hpos]
  exact mul_le_mul_of_nonneg_right
    (abs_sub_absValue_nearest_le n (tenPow_pos places) hfinite v) hpos.le

/-- So many places below the limit, no value has more digits than are counted. -/
theorem isCounted_of_le {places : ℕ} (h : places + 309 ≤ mostCounted) (x : Float) :
    IsCounted places x := by
  have hlt : absValue x < 10 ^ 309 :=
    (lt_add_of_pos_right _ one_half_pos).trans ((absValue_add_half_lt x).trans rangeEnd_lt)
  left
  calc absValue x * 10 ^ places
      < 10 ^ 309 * 10 ^ places := mul_lt_mul_of_pos_right hlt (by positivity)
    _ = 10 ^ (places + 309) := by rw [← pow_add, Nat.add_comm]
    _ ≤ 10 ^ mostCounted := pow_le_pow_right₀ (by norm_num) h

/-! ## The text of the number that is read -/

section Texts

variable {places n : ℕ} (hplaces : places + 309 ≤ mostCounted)
  (hfinite : (nearest n (tenPow places)).isFinite)
  (h : IsRounded (absValue (nearest n (tenPow places)) * tenPow places) n)
include hplaces hfinite h

theorem fixedChars_nearest :
    fixedChars places (nearest n (tenPow places)) = fixedDigits places 0 n := by
  rw [fixedChars_of_isRounded hfinite (by omega) (isCounted_of_le hplaces _) h]
  rcases parts_nearest n (tenPow_pos places) hfinite with hp | ⟨m, e, hm, hp⟩ <;> rw [hp] <;> rfl

/-- Below zero the number gets its sign back, unless it is a zero. -/
theorem fixedChars_zero_sub_nearest :
    fixedChars places (0 - nearest n (tenPow places)) =
      if n = 0 then fixedDigits places 0 n else '-' :: fixedDigits places 0 n := by
  rw [fixedChars_of_isRounded (isFinite_zero_sub hfinite) (by omega) (isCounted_of_le hplaces _)
    ((absValue_zero_sub hfinite).symm ▸ h)]
  rcases parts_nearest n (tenPow_pos places) hfinite with hp | ⟨m, e, hm, hp⟩
  · have hn : n = 0 := by
      rw [absValue_of_parts_zero hp, zero_mul] at h
      exact h.unique isRounded_zero
    rw [parts_zero_sub_zero hp, if_pos hn]
    rfl
  · have hn : n ≠ 0 := by
      rintro rfl
      have hzero : parts (nearest 0 (tenPow places)) = .zero .positive :=
        parts_ofParts_zero .positive
      rw [hp] at hzero
      cases hzero
    rw [parts_zero_sub_finite hp, if_neg hn]
    rfl

end Texts

end Number

/-! ## Typed texts -/

/-- The value of a text without margins that spells a tree. -/
theorem evaluate_of_spells {text : String} {bare : Bool} {e : Expr} {ls : List Lexeme} {x : Float}
    (hmargins : ∀ c ∈ text.toList, isMargin c = false) (hs : Spells ls text.toList)
    (h : Derives .sum bare e ls) (hx : ∀ scope, e.value scope = .ok x) (known : Bindings)
    (precision : Int) :
    evaluate text known.definitions precision = .ok ⟨text, .ok x, precision⟩ := by
  obtain ⟨scope, hscope⟩ := exists_scopeOf known
  have htrim : trim text = text := trim_eq_self hmargins
  have hread : readPostfix text = .ok e.postorder := readPostfix_of_derives h hs
  have hrun : runPostfix scope e.postorder = .ok (.ok x) := hx scope ▸ runPostfix_postorder scope e
  have hne : trim text ≠ "" := by
    rw [htrim]
    rintro rfl
    have hnil : scan [] = (ls, none) := scan_of_spells hs
    rw [scan] at hnil
    cases hnil
    exact h.ne_nil rfl
  have heval := evaluate_of_readPostfix hne (htrim.symm ▸ hread) hscope hrun precision
  rwa [htrim] at heval

section Digits

variable (places n : ℕ)

theorem isWord_fixedDigits : (Lexeme.numeral (Number.fixedDigits places 0 n)).IsWord :=
  ⟨fun h => Nat.toDigits_ne_nil (List.append_eq_nil_iff.mp h).1,
    Number.isNumeralChar_of_mem_fixedDigits⟩

theorem isMargin_of_mem_minus_fixedDigits :
    ∀ c ∈ '-' :: Number.fixedDigits places 0 n, isMargin c = false :=
  List.forall_mem_cons.mpr ⟨by decide,
    fun c hc => isMargin_of_isNumeralChar (Number.isNumeralChar_of_mem_fixedDigits c hc)⟩

variable {places n}

section Read

variable (hfits : ¬ Number.IsOverlong (Number.fixedDigits places 0 n))
  (hfinite : (Number.nearest n (Number.tenPow places)).isFinite)
include hfits hfinite

theorem literal_fixedDigits : Number.literal (Number.fixedDigits places 0 n) =
    .ok (Number.nearest n (Number.tenPow places)) := by
  have hvalue := Number.pointValue_fixedDigits places n
  have hliteral : Number.IsLiteral (Number.fixedDigits places 0 n) :=
    ⟨Number.isDecimal_fixedDigits places n, hfits, by rwa [hvalue]⟩
  rw [Number.literal_of_isLiteral Number.isNumeralChar_of_mem_fixedDigits hliteral, hvalue]

/-- Digits with a fixed number of places evaluate to the nearest float. -/
theorem evaluate_fixedDigits (known : Bindings) (precision : Int) :
    evaluate (String.ofList (Number.fixedDigits places 0 n)) known.definitions precision =
      .ok ⟨String.ofList (Number.fixedDigits places 0 n),
        .ok (Number.nearest n (Number.tenPow places)), precision⟩ := by
  have hderives : Derives .sum false (.number (Number.nearest n (Number.tenPow places)))
      [.numeral (Number.fixedDigits places 0 n)] :=
    .term (.factor (.power (.atom (.numeral (literal_fixedDigits hfits hfinite)))))
  refine evaluate_of_spells ?_ ?_ hderives (fun scope => rfl) known precision
  · rw [String.toList_ofList]
    exact fun c hc => isMargin_of_isNumeralChar (Number.isNumeralChar_of_mem_fixedDigits c hc)
  · rw [String.toList_ofList]
    exact spells_singleton (isWord_fixedDigits places n)

/-- Behind a minus sign they evaluate to its difference from zero. -/
theorem evaluate_minus_fixedDigits (known : Bindings) (precision : Int) :
    evaluate (String.ofList ('-' :: Number.fixedDigits places 0 n)) known.definitions precision =
      .ok ⟨String.ofList ('-' :: Number.fixedDigits places 0 n),
        .ok (0 - Number.nearest n (Number.tenPow places)), precision⟩ := by
  have hderives : Derives .sum false
      (.negation (.number (Number.nearest n (Number.tenPow places))))
      [.operator .sub, .numeral (Number.fixedDigits places 0 n)] :=
    .term (.factor (.negation (.power (.atom (.numeral (literal_fixedDigits hfits hfinite))))))
  have hvalue : ∀ scope, (Expr.negation (.number (Number.nearest n (Number.tenPow places)))).value
      scope = .ok (0 - Number.nearest n (Number.tenPow places)) :=
    fun scope => if_pos (Number.isFinite_zero_sub hfinite)
  refine evaluate_of_spells ?_ ?_ hderives hvalue known precision
  · rw [String.toList_ofList]
    exact isMargin_of_mem_minus_fixedDigits places n
  · rw [String.toList_ofList]
    exact .lexeme (l := .operator .sub) trivial trivial
      (spells_singleton (isWord_fixedDigits places n))

end Read

/-! ## Texts that are too long -/

theorem meets_minus {ds : List Char} (hw : (Lexeme.numeral ds).IsWord) :
    Meets (String.ofList ('-' :: ds)) [.operator .sub] ds where
  run := hw
  split := by
    have hminus : Renders (ds ++ []) [.operator .sub] ([] ++ (Lexeme.operator .sub).chars ++ []) :=
      .cons (by simp) trivial (.nil (by simp)) (by simp) (fun _ _ => trivial)
    refine ⟨['-'], [], ?_, hminus, fun c hc => (by cases hc)⟩
    rw [String.toList_ofList, List.append_nil, List.singleton_append]
  before := by simp

section Unread

variable (hlong : Number.IsOverlong (Number.fixedDigits places 0 n))
include hlong

theorem isTooLong_fixedDigits : Number.IsTooLong (Number.fixedDigits places 0 n) :=
  ⟨Number.isDecimal_fixedDigits places n, hlong⟩

/-- Digits that are too long are not read behind a minus sign either. -/
theorem evaluate_minus_overlong (ds : Definitions) (precision : Int) :
    evaluate (String.ofList ('-' :: Number.fixedDigits places 0 n)) ds precision =
      .error (.tooLong (String.ofList (Number.fixedDigits places 0 n))) := by
  have htrim : trim (String.ofList ('-' :: Number.fixedDigits places 0 n)) =
      String.ofList ('-' :: Number.fixedDigits places 0 n) := by
    refine trim_eq_self fun c hc => ?_
    rw [String.toList_ofList] at hc
    exact isMargin_of_mem_minus_fixedDigits places n c hc
  have hmeets := meets_minus (isWord_fixedDigits places n)
  refine evaluate_of_stopsAtNumeral ?_ ds precision
  rw [htrim]
  exact stopsAtNumeral_iff.mpr ⟨_, _, hmeets, isTooLong_fixedDigits hlong, rfl⟩

end Unread

end Digits

/-! ## Texts of results -/

/-- The characters of a text, without a minus sign in front. -/
def unsignedChars (text : String) : List Char :=
  match text.toList with
  | '-' :: cs => cs
  | cs => cs

theorem unsignedChars_fixedDigits (places n : ℕ) :
    unsignedChars (String.ofList (Number.fixedDigits places 0 n)) =
      Number.fixedDigits places 0 n := by
  rw [unsignedChars, String.toList_ofList]
  split
  · next cs hcs =>
    have hminus : '-' ∈ Number.fixedDigits places 0 n := hcs ▸ List.mem_cons_self
    exact absurd (Number.isNumeralChar_of_mem_fixedDigits _ hminus) (by decide)
  · rfl

theorem unsignedChars_minus (ds : List Char) :
    unsignedChars (String.ofList ('-' :: ds)) = ds := by
  rw [unsignedChars, String.toList_ofList]
  rfl

/-- The text of a number, without the minus sign if all its digits are zero. -/
def withoutVoidSign (text : String) : String :=
  match text.toList with
  | '-' :: cs => if cs.all fun c => !c.isDigit || c = '0' then String.ofList cs else text
  | _ => text

theorem withoutVoidSign_fixedDigits (places n : ℕ) :
    withoutVoidSign (String.ofList (Number.fixedDigits places 0 n)) =
      String.ofList (Number.fixedDigits places 0 n) := by
  unfold withoutVoidSign
  split
  · next cs hcs =>
    rw [String.toList_ofList] at hcs
    have hminus : '-' ∈ Number.fixedDigits places 0 n := hcs ▸ List.mem_cons_self
    exact absurd (Number.isNumeralChar_of_mem_fixedDigits _ hminus) (by decide)
  · rfl

theorem withoutVoidSign_minus (places n : ℕ) :
    withoutVoidSign (String.ofList ('-' :: Number.fixedDigits places 0 n)) =
      String.ofList (if n = 0 then Number.fixedDigits places 0 n
        else '-' :: Number.fixedDigits places 0 n) := by
  have hall : (Number.fixedDigits places 0 n).all (fun c => !c.isDigit || c = '0') = true ↔
      n = 0 := by
    rw [← Number.forall_mem_fixedDigits_iff places n, List.all_eq_true]
    refine forall₂_congr fun c _ => ?_
    rw [Bool.or_eq_true, Bool.not_eq_true', decide_eq_true_eq, ← Bool.not_eq_true]
    exact imp_iff_not_or.symm
  have hlist : (String.ofList ('-' :: Number.fixedDigits places 0 n)).toList =
      '-' :: Number.fixedDigits places 0 n := String.toList_ofList
  simp only [withoutVoidSign, hlist, hall]
  split <;> rfl

theorem formatted_eq_ok {k : Int} (h0 : 0 ≤ k) (h1 : k ≤ mostPlaces) (expression : String)
    (x : Float) : Result.formatted ⟨expression, .ok x, k⟩ =
      .ok (some (String.ofList (Number.fixedChars k.toNat x))) := by
  simp only [Result.formatted, fixed_eq_ok h0 h1]
  rfl

/-- How long the digits of a value are, by the number of places. -/
theorem isOverlong_of_isShown {v : Float} {places n : ℕ} (hn : Number.IsShown places v n) :
    (places + 309 ≤ 1000000000 → ¬ Number.IsOverlong (Number.fixedDigits places 0 n)) ∧
      (1000000000 < places → Number.IsOverlong (Number.fixedDigits places 0 n)) := by
  refine ⟨fun hfew => ?_, fun hmany => Number.isOverlong_fixedDigits hmany n⟩
  have hcounted : Number.IsCounted places v :=
    Number.isCounted_of_le (hfew.trans (by decide)) v
  exact Number.not_isOverlong_fixedDigits (by decide) (hn.counted hcounted).div_lt hfew

/-- A finite value with a number of places has a text. Unless it is too long to be read, it
evaluates to a value, and this value has the same text again, but for the minus sign of a text whose
digits are all zero. A text is never too long with 309 places less than a billion, and always with
more than a billion. -/
theorem evaluate_formatted {v : Float} (hv : v.isFinite) {k : Int} (h0 : 0 ≤ k)
    (h1 : k ≤ mostPlaces) (expression : String) (known : Bindings) :
    ∃ text, Result.formatted ⟨expression, .ok v, k⟩ = .ok (some text) ∧
      (¬ Number.IsOverlong (unsignedChars text) →
        ∃ w, evaluate text known.definitions k = .ok ⟨text, .ok w, k⟩ ∧
          Result.formatted ⟨text, .ok w, k⟩ = .ok (some (withoutVoidSign text))) ∧
      (Number.IsOverlong (unsignedChars text) →
        evaluate text known.definitions k =
          .error (.tooLong (String.ofList (unsignedChars text)))) ∧
      (k + 309 ≤ 1000000000 → ¬ Number.IsOverlong (unsignedChars text)) ∧
      (1000000000 < k → Number.IsOverlong (unsignedChars text)) := by
  have hplaces : k.toNat ≤ Number.mostCounted := Int.toNat_le.mpr h1
  obtain ⟨n, hn, htext⟩ := Number.fixedChars_eq hv hplaces
  obtain ⟨hfew, hmany⟩ := isOverlong_of_isShown hn
  -- A text that is not too long has so few places that all digits are counted.
  have hread (hfits : ¬ Number.IsOverlong (Number.fixedDigits k.toNat 0 n)) :
      k.toNat + 309 ≤ Number.mostCounted ∧
        (Number.nearest n (Number.tenPow k.toNat)).isFinite ∧
        Number.IsRounded (Number.absValue (Number.nearest n (Number.tenPow k.toNat)) *
          Number.tenPow k.toNat) n := by
    have hle : k.toNat ≤ 1000000000 := not_lt.mp (mt hmany hfits)
    have hroom : k.toNat + 309 ≤ Number.mostCounted :=
      (Nat.add_le_add_right hle 309).trans (by decide)
    exact ⟨hroom, Number.isRounded_nearest (hn.counted (Number.isCounted_of_le hroom v))⟩
  have hfew' : k + 309 ≤ 1000000000 → ¬ Number.IsOverlong (Number.fixedDigits k.toNat 0 n) :=
    fun h => hfew (by omega)
  have hmany' : 1000000000 < k → Number.IsOverlong (Number.fixedDigits k.toNat 0 n) :=
    fun h => hmany (by omega)
  rcases Number.writtenSign_cases (Number.parts v) with hs | hs
  · rw [hs, List.nil_append] at htext
    refine ⟨_, formatted_eq_ok h0 h1 expression v, ?_⟩
    rw [htext, unsignedChars_fixedDigits]
    refine ⟨fun hfits => ?_,
      fun hlong => evaluate_of_isTooLong (isWord_fixedDigits _ n) (isTooLong_fixedDigits hlong) _ _,
      hfew', hmany'⟩
    obtain ⟨hroom, hfinite, hround⟩ := hread hfits
    refine ⟨_, evaluate_fixedDigits hfits hfinite known k, ?_⟩
    rw [formatted_eq_ok h0 h1, withoutVoidSign_fixedDigits,
      Number.fixedChars_nearest hroom hfinite hround]
  · rw [hs, List.singleton_append] at htext
    refine ⟨_, formatted_eq_ok h0 h1 expression v, ?_⟩
    rw [htext, unsignedChars_minus]
    refine ⟨fun hfits => ?_, fun hlong => evaluate_minus_overlong hlong _ _, hfew', hmany'⟩
    obtain ⟨hroom, hfinite, hround⟩ := hread hfits
    refine ⟨_, evaluate_minus_fixedDigits hfits hfinite known k, ?_⟩
    rw [formatted_eq_ok h0 h1, withoutVoidSign_minus,
      Number.fixedChars_zero_sub_nearest hroom hfinite hround]

/-- A number below zero that is too small for one place, and the zero that is read instead. -/
theorem evaluate_formatted_void : ∃ w,
    Result.formatted ⟨"0-0.04", .ok (0 - 0.04), 1⟩ = .ok (some "-0.0") ∧
      evaluate "-0.0" [] 1 = .ok ⟨"-0.0", .ok w, 1⟩ ∧
      Result.formatted ⟨"-0.0", .ok w, 1⟩ = .ok (some "0.0") := by
  obtain ⟨text, htext, hread, -, hfew, -⟩ :=
    evaluate_formatted (v := 0 - 0.04) (by decide +kernel) (k := 1) (by decide) (by decide)
      "0-0.04" {}
  have hshown : Result.formatted ⟨"0-0.04", .ok (0 - 0.04), 1⟩ = .ok (some "-0.0") := by
    with_unfolding_all rfl
  have hsame : text = "-0.0" := Option.some.inj (Except.ok.inj (htext.symm.trans hshown))
  obtain ⟨w, heval, hagain⟩ := hread (hfew (by decide))
  subst hsame
  exact ⟨w, hshown, heval, hagain⟩

/-- With more than a billion places the text of a zero is not read. -/
theorem evaluate_formatted_overlong : ∃ text,
    Result.formatted ⟨"0", .ok (Number.ofParts (.zero .positive)), 1000000001⟩ = .ok (some text) ∧
      evaluate text [] 1000000001 = .error (.tooLong (String.ofList (unsignedChars text))) := by
  obtain ⟨text, htext, -, hlong, -, hmany⟩ :=
    evaluate_formatted (v := Number.ofParts (.zero .positive)) (by decide +kernel) (k := 1000000001)
      (by decide) (by decide) "0" {}
  exact ⟨text, htext, hlong (hmany (by decide))⟩

end Calculator
