import Calculator.Proofs.ExactValues
import Calculator.Proofs.LexedLines
import Calculator.Proofs.Numerals

/-!
# Numbers in a line

A run of digits and points that a line is read up to is taken as the nearest float, or it is refused,
or it is too long to be converted.

* `decimalValue`: the number that a run of digits and points denotes.
* `IsRefused`, `isLiteral_iff`, `isInvalid_iff`: the runs that are no numbers, by their points and by
  their value.
* `isNearest_pointValue`: a run is read as the nearest float.
* `Meets`, `meets_ofList`: a line is read up to a run.
* `ofLine_of_meets`, `ofLine_of_refused`, `ofLine_of_overlong`: what the line is read as from there
  on.
* `stopsAtNumeral_iff`: the texts whose reading stops at a run that is too long.
* `ofLine_numerals`: every run that is met.
-/
set_option autoImplicit false

namespace Calculator

namespace Number

/-! ## The number that is denoted -/

/-- The number that digits denote, with a point between them or without one: the whole number before
the point, and the decimal places behind it. -/
def decimalValue (ds : List Char) : ℚ :=
  natural (ds.takeWhile (· ≠ '.')) + natural (behindPoint ds) / 10 ^ (behindPoint ds).length

/-- A run of digits and points that denotes no number in the range: it has more than one point, it is
a point alone, or it denotes a number that is too large. -/
def IsRefused (ds : List Char) : Prop :=
  1 < ds.count '.' ∨ ds = ['.'] ∨ 2 ^ 1024 - 2 ^ 970 ≤ decimalValue ds

theorem decimalValue_nonneg (ds : List Char) : 0 ≤ decimalValue ds :=
  add_nonneg (Nat.cast_nonneg _) (div_nonneg (Nat.cast_nonneg _) (by positivity))

theorem decimalValue_eq (ds : List Char) :
    decimalValue ds = (natural (ds.takeWhile (· ≠ '.') ++ behindPoint ds) : ℚ) /
      tenPow (behindPoint ds).length := by
  have hten : (tenPow (behindPoint ds).length : ℚ) ≠ 0 := by exact_mod_cast (tenPow_pos _).ne'
  rw [decimalValue, natural_append, eq_div_iff hten, add_mul, ← cast_tenPow, div_mul_cancel₀ _ hten]
  push_cast
  rfl

theorem rangeEnd_eq : rangeEnd = 2 ^ 1024 - 2 ^ 970 := by
  have hunit : (2 : ℚ) ^ greatestExponent = 2 * 2 ^ 970 := by
    rw [← pow_succ', ← zpow_natCast]
    rfl
  have hhigh : (2 : ℚ) ^ 1024 = 2 ^ 54 * 2 ^ 970 := by rw [← pow_add]
  rw [rangeEnd, cast_twoPow, hunit, hhigh]
  generalize (2 : ℚ) ^ 970 = unit
  ring

variable {ds : List Char}

/-! ## Runs that are read -/

theorem decimalValue_eq_filter (h : ∀ c ∈ ds, isNumeralChar c) (hp : ds.count '.' ≤ 1) :
    decimalValue ds = (natural (ds.filter Char.isDigit) : ℚ) / tenPow (behindPoint ds).length := by
  rw [filter_isDigit_eq h hp]
  exact decimalValue_eq ds

theorem decimalValue_oneWithPlaces (places : ℕ) : decimalValue (oneWithPlaces places) = 1 := by
  have hpos : (tenPow places : ℚ) ≠ 0 := by exact_mod_cast (tenPow_pos places).ne'
  have hpoint := (isDecimal_oneWithPlaces places).point
  rw [decimalValue_eq_filter isNumeralChar_of_mem_oneWithPlaces hpoint,
    filter_isDigit_oneWithPlaces, behindPoint_oneWithPlaces, natural_one_zeros,
    List.length_replicate, div_self hpos]

theorem isFinite_pointValue_iff (h : ∀ c ∈ ds, isNumeralChar c) (hp : ds.count '.' ≤ 1) :
    (pointValue ds).isFinite ↔ decimalValue ds < 2 ^ 1024 - 2 ^ 970 := by
  rw [pointValue, isFinite_nearest_iff _ (tenPow_pos _), ← decimalValue_eq_filter h hp, rangeEnd_eq]

theorem eq_point_of_no_digit (hne : ds ≠ []) (h : ∀ c ∈ ds, isNumeralChar c)
    (hp : ds.count '.' ≤ 1) (hd : ¬ ∃ c ∈ ds, c.isDigit) : ds = ['.'] := by
  have hpoint : ∀ c ∈ ds, c = '.' := by
    intro c hc
    by_contra hne
    exact hd ⟨c, hc, isDigit_of_ne_point (h c hc) hne⟩
  have hrep : ds = List.replicate ds.length '.' := List.eq_replicate_iff.mpr ⟨rfl, hpoint⟩
  have hlen : ds.length = 1 := by
    have hpos := List.length_pos_iff.mpr hne
    rw [hrep, List.count_replicate_self] at hp
    omega
  rw [hrep, hlen]
  rfl

theorem isDecimal_iff (hw : (Lexeme.numeral ds).IsWord) :
    IsDecimal ds ↔ ¬ 1 < ds.count '.' ∧ ds ≠ ['.'] := by
  obtain ⟨hne, h⟩ := hw
  constructor
  · rintro ⟨⟨c, hc, hd⟩, hp⟩
    refine ⟨Nat.not_lt_of_le hp, ?_⟩
    rintro rfl
    rw [List.mem_singleton.mp hc] at hd
    exact absurd hd (by decide)
  · rintro ⟨hmany, halone⟩
    have hp : ds.count '.' ≤ 1 := Nat.le_of_not_lt hmany
    refine ⟨?_, hp⟩
    by_contra hd
    exact halone (eq_point_of_no_digit hne h hp hd)

/-- A decimal number is refused for its value, and any other run for its form. -/
theorem isRefused_iff (hw : (Lexeme.numeral ds).IsWord) :
    IsRefused ds ↔ ¬ IsDecimal ds ∨ ¬ (pointValue ds).isFinite := by
  by_cases hd : IsDecimal ds
  · obtain ⟨hmany, halone⟩ := (isDecimal_iff hw).mp hd
    rw [IsRefused, or_iff_right hmany, or_iff_right halone, or_iff_right (not_not_intro hd),
      isFinite_pointValue_iff hw.2 hd.point, not_lt]
  · have hform : 1 < ds.count '.' ∨ ds = ['.'] := by
      rwa [isDecimal_iff hw, not_and_or, not_not, ne_eq, not_not] at hd
    exact iff_of_true (hform.imp_right .inl) (.inl hd)

/-- A run is a number exactly if it is not refused and not too long. -/
theorem isLiteral_iff (hw : (Lexeme.numeral ds).IsWord) :
    IsLiteral ds ↔ ¬ IsRefused ds ∧ ¬ IsTooLong ds := by
  rw [isRefused_iff hw, not_or, not_not, not_not]
  constructor
  · rintro ⟨hd, hfits, hf⟩
    exact ⟨⟨hd, hf⟩, fun hlong => hfits hlong.long⟩
  · rintro ⟨⟨hd, hf⟩, hlong⟩
    exact ⟨hd, fun ho => hlong ⟨hd, ho⟩, hf⟩

/-- A run is invalid exactly if it is refused, but for the length that comes first. -/
theorem isInvalid_iff (hw : (Lexeme.numeral ds).IsWord) :
    IsInvalid ds ↔ IsRefused ds ∧ ¬ IsTooLong ds := by
  rw [isRefused_iff hw]
  constructor
  · intro h
    exact ⟨h.imp_right And.right, fun hlong => hlong.not_isInvalid h⟩
  · rintro ⟨hd | hf, hlong⟩
    · exact .inl hd
    · by_cases hd : IsDecimal ds
      · exact .inr ⟨fun ho => hlong ⟨hd, ho⟩, hf⟩
      · exact .inl hd

theorem isNearest_pointValue (h : ∀ c ∈ ds, isNumeralChar c) (hl : IsLiteral ds) :
    IsNearest (decimalValue ds) (pointValue ds) := by
  rw [decimalValue_eq_filter h hl.point]
  exact isNearest_nearest _ (tenPow_pos _) hl.isFinite

end Number

/-! ## Runs that are met -/

/-- The line is written from lexemes up to a run of digits and points that goes on as far as it can,
and every run before it is a number. -/
structure Meets (line : String) (ls : List Lexeme) (ds : List Char) : Prop where
  run : (Lexeme.numeral ds).IsWord
  split : ∃ a b, line.toList = a ++ (ds ++ b) ∧ Renders (ds ++ b) ls a ∧
    (Lexeme.numeral ds).EndsBefore b
  before : ∀ ds', .numeral ds' ∈ ls → ¬ Number.IsRefused ds' ∧ ¬ Number.IsTooLong ds'

theorem meets_ofList {ds : List Char} (hw : (Lexeme.numeral ds).IsWord) :
    Meets (String.ofList ds) [] ds where
  run := hw
  split := by
    refine ⟨[], [], ?_, .nil (by simp), fun c hc => (by cases hc)⟩
    rw [String.toList_ofList, List.nil_append, List.append_nil]
  before := by simp

theorem Renders.allLiterals_iff {rest cs : List Char} {ls : List Lexeme} (h : Renders rest ls cs) :
    AllLiterals ls ↔ ∀ ds, .numeral ds ∈ ls → ¬ Number.IsRefused ds ∧ ¬ Number.IsTooLong ds :=
  forall₂_congr fun _ hds => Number.isLiteral_iff (h.isWord _ hds)

section

variable {line : String} {ls : List Lexeme} {ds : List Char} (h : Meets line ls ds)
include h

theorem Meets.kind_cases : Number.IsLiteral ds ∨ Number.IsTooLong ds ∨
    (Number.IsRefused ds ∧ ¬ Number.IsTooLong ds) := by
  rw [← Number.isInvalid_iff h.run]
  exact Number.run_cases ds

/-- A run that is no number ends the reading. -/
theorem ofLine_of_refused (hr : Number.IsRefused ds) (hlong : ¬ Number.IsTooLong ds) :
    TokenStream.ofLine line = ⟨lexedTokens none ls, some (.report .invalidNumber)⟩ := by
  obtain ⟨a, b, hline, ha, hb⟩ := h.split
  exact ofLine_eq_iff.mpr ⟨ls, a, ds ++ b, hline, ha, ha.allLiterals_iff.mpr h.before,
    .numeral h.run hb ((Number.isInvalid_iff h.run).mpr ⟨hr, hlong⟩), rfl⟩

/-- A run that is too long ends the reading with a fault. -/
theorem ofLine_of_overlong (hlong : Number.IsTooLong ds) :
    TokenStream.ofLine line = ⟨lexedTokens none ls, some (.tooLong (String.ofList ds))⟩ := by
  obtain ⟨a, b, hline, ha, hb⟩ := h.split
  exact ofLine_eq_iff.mpr ⟨ls, a, ds ++ b, hline, ha, ha.allLiterals_iff.mpr h.before,
    .overlong h.run hb hlong, rfl⟩

/-- A run that is a number is read as the nearest float, and the reading goes on. -/
theorem ofLine_of_meets (hlit : Number.IsLiteral ds) :
    ∃ ts failure, TokenStream.ofLine line =
      ⟨lexedTokens none ls ++ Token.number (Number.pointValue ds) :: ts, failure⟩ := by
  obtain ⟨a, b, hline, ha, hb⟩ := h.split
  have hscan : scan (ds ++ b) = (.numeral ds :: (scan b).1, (scan b).2) := scan_lexeme h.run hb
  have hstart : minusLeads none = wantsOperand none := rfl
  obtain ⟨q, hq⟩ := TokenStream.ofLexemes_append_literals (scan b).2
    (.numeral ds :: (scan b).1) hstart ha.isWord (ha.allLiterals_iff.mpr h.before)
  have hline' : TokenStream.ofLine line =
      TokenStream.ofLexemes (scan b).2 none (ls ++ .numeral ds :: (scan b).1) := by
    rw [TokenStream.ofLine, hline, ha.scan_append, hscan]
  rw [hline', hq, TokenStream.ofLexemes_numeral (Number.literal_of_isLiteral h.run.2 hlit)]
  exact ⟨_, _, rfl⟩

/-- A number that is read stands behind the tokens before it, so that the reading does not end
there. -/
theorem not_isLiteral_of_ofLine {failure : Option Stop}
    (hread : TokenStream.ofLine line = ⟨lexedTokens none ls, failure⟩) :
    ¬ Number.IsLiteral ds := by
  intro hlit
  obtain ⟨ts, failure', hread'⟩ := ofLine_of_meets h hlit
  have htokens := congrArg TokenStream.tokens (hread.symm.trans hread')
  exact absurd (List.self_eq_append_right.mp htokens) (List.cons_ne_nil _ _)

theorem ofLine_eq_invalid_iff :
    TokenStream.ofLine line = ⟨lexedTokens none ls, some (.report .invalidNumber)⟩ ↔
      Number.IsRefused ds ∧ ¬ Number.IsTooLong ds := by
  refine ⟨fun hread => ?_, fun hr => ofLine_of_refused h hr.1 hr.2⟩
  rcases h.kind_cases with hlit | hlong | hr
  · exact absurd hlit (not_isLiteral_of_ofLine h hread)
  · cases hread.symm.trans (ofLine_of_overlong h hlong)
  · exact hr

theorem ofLine_eq_tooLong_iff :
    TokenStream.ofLine line = ⟨lexedTokens none ls, some (.tooLong (String.ofList ds))⟩ ↔
      Number.IsTooLong ds := by
  refine ⟨fun hread => ?_, ofLine_of_overlong h⟩
  rcases h.kind_cases with hlit | hlong | hr
  · exact absurd hlit (not_isLiteral_of_ofLine h hread)
  · exact hlong
  · cases hread.symm.trans (ofLine_of_refused h hr.1 hr.2)

end

/-! ## Lines that end at a run -/

/-- A line that stops early is written from lexemes up to the place at which it does. -/
theorem exists_renders_of_failure {line : String} {stop : Stop}
    (h : (TokenStream.ofLine line).failure = some stop) :
    ∃ ls a rest, line.toList = a ++ rest ∧ Renders rest ls a ∧
      (∀ ds, .numeral ds ∈ ls → ¬ Number.IsRefused ds ∧ ¬ Number.IsTooLong ds) ∧
      Stumbles rest stop := by
  obtain ⟨ls, a, rest, hline, ha, hl, hrest, -⟩ :=
    ofLine_eq_iff.mp (congrArg (TokenStream.mk (TokenStream.ofLine line).tokens) h)
  exact ⟨ls, a, rest, hline, ha, ha.allLiterals_iff.mp hl, hrest⟩

theorem failure_eq_invalid_iff {line : String} :
    (TokenStream.ofLine line).failure = some (.report .invalidNumber) ↔
      ∃ ls ds, Meets line ls ds ∧ Number.IsRefused ds ∧ ¬ Number.IsTooLong ds := by
  constructor
  · intro h
    obtain ⟨ls, a, rest, hline, ha, hl, hrest⟩ := exists_renders_of_failure h
    cases hrest with
    | @numeral ds b hw hb hn =>
      exact ⟨ls, ds, ⟨hw, ⟨a, b, hline, ha, hb⟩, hl⟩, (Number.isInvalid_iff hw).mp hn⟩
  · rintro ⟨ls, ds, h, hr, hlong⟩
    rw [ofLine_of_refused h hr hlong]

/-- The reading of a text stops at a run that is too long, behind numbers only. -/
theorem stopsAtNumeral_iff {text numeral : String} :
    StopsAtNumeral text numeral ↔
      ∃ ls ds, Meets text ls ds ∧ Number.IsTooLong ds ∧ numeral = String.ofList ds := by
  constructor
  · intro h
    obtain ⟨ls, a, rest, hline, ha, hl, hrest⟩ := exists_renders_of_failure h
    generalize hstop : Stop.tooLong numeral = stop at hrest
    cases hrest with
    | character hb hc => cases hstop
    | numeral hw hb hn => cases hstop
    | @overlong ds b hw hb hn =>
      exact ⟨ls, ds, ⟨hw, ⟨a, b, hline, ha, hb⟩, hl⟩, hn, Stop.tooLong.inj hstop⟩
  · rintro ⟨ls, ds, h, hlong, rfl⟩
    rw [StopsAtNumeral, ofLine_of_overlong h hlong]

/-- A run of digits and points up to which a line is read is taken as the float that is nearest to
the number it denotes, and as zero up to half of the least float, unless it is refused or too long.
The line fails with an invalid number exactly if such a run is refused, and stops without an error of
its own exactly if it is too long: with more than a billion digits behind the zeros in front, or with
more than a billion decimal places. -/
theorem ofLine_numerals (line : String) :
    (∀ ls ds, Meets line ls ds → ¬ Number.IsRefused ds → ¬ Number.IsTooLong ds →
      ∃ x ts failure, TokenStream.ofLine line =
          ⟨lexedTokens none ls ++ Token.number x :: ts, failure⟩ ∧
        Number.IsNearest (Number.decimalValue ds) x ∧
        (Number.value x = 0 ↔ Number.decimalValue ds ≤ 2 ^ (-1075 : ℤ))) ∧
    (∀ ls ds, Meets line ls ds →
      (TokenStream.ofLine line = ⟨lexedTokens none ls, some (.report .invalidNumber)⟩ ↔
        Number.IsRefused ds ∧ ¬ Number.IsTooLong ds) ∧
      (TokenStream.ofLine line = ⟨lexedTokens none ls, some (.tooLong (String.ofList ds))⟩ ↔
        Number.IsTooLong ds)) ∧
    ((TokenStream.ofLine line).failure = some (.report .invalidNumber) ↔
      ∃ ls ds, Meets line ls ds ∧ Number.IsRefused ds ∧ ¬ Number.IsTooLong ds) ∧
    Error.kind .invalidNumber = .malformed ∧
    Error.message .invalidNumber = "Invalid number format." := by
  refine ⟨fun ls ds h hr hlong => ?_,
    fun ls ds h => ⟨ofLine_eq_invalid_iff h, ofLine_eq_tooLong_iff h⟩, failure_eq_invalid_iff,
    rfl, rfl⟩
  have hlit : Number.IsLiteral ds := (Number.isLiteral_iff h.run).mpr ⟨hr, hlong⟩
  obtain ⟨ts, failure, hread⟩ := ofLine_of_meets h hlit
  have hnear := Number.isNearest_pointValue h.run.2 hlit
  have hhalf : (2 : ℚ) ^ Number.leastExponent / 2 = 2 ^ (-1075 : ℤ) := by
    rw [Number.leastExponent, div_eq_mul_inv, ← zpow_sub_one₀ two_ne_zero]
    rfl
  refine ⟨_, ts, failure, hread, hnear, ?_⟩
  rw [hnear.value_eq_zero_iff (Number.decimalValue_nonneg ds), hhalf]

/-- The nearest float to a tenth is read from one place. -/
theorem ofLine_numerals_tenth : ∃ x ts failure,
    TokenStream.ofLine "0.1" = ⟨Token.number x :: ts, failure⟩ ∧ Number.IsNearest (1 / 10) x := by
  have hword : (Lexeme.numeral ['0', '.', '1']).IsWord :=
    ⟨by decide, List.all_eq_true.mp (by decide)⟩
  have hshort : ¬ Number.IsOverlong ['0', '.', '1'] := by
    rintro (h | h) <;> exact absurd h (by decide)
  have hliteral : Number.IsLiteral ['0', '.', '1'] :=
    ⟨⟨⟨'0', by decide, by decide⟩, by decide⟩, hshort, by decide +kernel⟩
  have htenth : Number.decimalValue ['0', '.', '1'] = 1 / 10 := by decide +kernel
  obtain ⟨hr, hlong⟩ := (Number.isLiteral_iff hword).mp hliteral
  obtain ⟨x, ts, failure, hline, hnear, -⟩ :=
    (ofLine_numerals "0.1").1 [] _ (meets_ofList hword) hr hlong
  exact ⟨x, ts, failure, hline, htenth ▸ hnear⟩

/-- A run of value one that is met, and is neither taken as a number nor refused. -/
theorem ofLine_numerals_overlong :
    Meets (String.ofList Number.overlongOne) [] Number.overlongOne ∧
      Number.decimalValue Number.overlongOne = 1 ∧ ¬ Number.IsRefused Number.overlongOne ∧
      TokenStream.ofLine (String.ofList Number.overlongOne) =
        ⟨[], some (.tooLong (String.ofList Number.overlongOne))⟩ := by
  have hlong : Number.IsTooLong Number.overlongOne := Number.isTooLong_overlongOne
  have hmeets := meets_ofList isWord_overlongOne
  have hrefused : ¬ Number.IsRefused Number.overlongOne := by
    rw [Number.isRefused_iff isWord_overlongOne]
    exact not_or.mpr ⟨not_not_intro hlong.toIsDecimal,
      not_not_intro Number.isFinite_pointValue_overlongOne⟩
  exact ⟨hmeets, Number.decimalValue_oneWithPlaces _, hrefused, ofLine_of_overlong hmeets hlong⟩

end Calculator
