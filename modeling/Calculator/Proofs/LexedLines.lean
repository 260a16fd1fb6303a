import Calculator.Proofs.Acceptance
import Calculator.Proofs.Layout
import Calculator.Proofs.Runs

/-!
# Tokens of a line, by its lexemes

What a line is read as, said without the scanner and without the tokens read before.

* `Lexeme.tokens`, `lexedTokens`: the tokens of a lexeme behind another one, and of lexemes in a row.
* `Stumbles`: the places at which a line cannot be read on, and what stops the reading there.
* `laid`: every line is written from lexemes up to such a place or to its end.
* `ofLine_eq_iff_renders`: what a line is read as.
-/
set_option autoImplicit false

namespace Calculator

open Calculator.Text

/-! ## Tokens of lexemes -/

/-- The tokens of a lexeme behind another one. The name of a function is set apart, and a minus
where an operand has to start is read as a zero and a minus with a mark. -/
def Lexeme.tokens (previous : Option Lexeme) : Lexeme → List Token
  | numeral ds => [⟨.number (Number.pointValue ds), false⟩]
  | name cs =>
    if smallName cs ∈ Function.all.map Function.name then [⟨.function (smallName cs), false⟩]
    else [⟨.identifier (smallName cs), false⟩]
  | operator op =>
    if op = .sub ∧ wantsOperand previous then [⟨.number 0, false⟩, ⟨.operator "-", true⟩]
    else [⟨.operator op.symbol, false⟩]
  | opening => [⟨.paren "(", false⟩]
  | closing => [⟨.paren ")", false⟩]

/-- The tokens of lexemes in a row behind another one. -/
def lexedTokens (previous : Option Lexeme) : List Lexeme → List Token
  | [] => []
  | l :: ls => l.tokens previous ++ lexedTokens (some l) ls

/-- Every run of digits and points among the lexemes is a number. -/
def AllLiterals (ls : List Lexeme) : Prop := ∀ ds, .numeral ds ∈ ls → Number.IsLiteral ds

theorem Function.isSome_ofName?_iff {s : String} :
    (Function.ofName? s).isSome ↔ s ∈ Function.all.map Function.name := by
  simp [Function.ofName?, List.mem_map]

theorem reads_tokens {previous : Option Token} {p : Option Lexeme}
    (hp : minusLeads previous = wantsOperand p) {l : Lexeme} (hl : l.IsWord)
    (hn : ∀ ds, l = .numeral ds → Number.IsLiteral ds) : Token.Reads previous l (l.tokens p) := by
  cases l with
  | numeral ds => exact .numeral (Number.literal_of_isLiteral hl.2 (hn ds rfl))
  | name cs =>
    rw [Lexeme.tokens]
    split
    · next hf =>
      obtain ⟨f, hf⟩ := Option.isSome_iff_exists.mp (Function.isSome_ofName?_iff.mpr hf)
      rw [Function.eq_name_of_ofName? hf]
      exact .function hf
    · next hf =>
      rw [← Function.isSome_ofName?_iff, Bool.not_eq_true, Option.isSome_eq_false_iff,
        Option.isNone_iff_eq_none] at hf
      exact .identifier hf
  | operator op =>
    rw [Lexeme.tokens]
    split
    · next h =>
      obtain ⟨rfl, hw⟩ := h
      exact .minus (hp.trans hw)
    · next h =>
      refine .operator fun hsub => ?_
      rw [hp]
      simpa [hsub] using h
  | opening => exact .opening
  | closing => exact .closing

section

variable {previous : Option Token} {ds : List Char} (hw : (Lexeme.numeral ds).IsWord)
include hw

theorem ofLexeme_of_isInvalid (h : Number.IsInvalid ds) :
    Token.ofLexeme previous (.numeral ds) = .error (.report .invalidNumber) := by
  rw [Token.ofLexeme, Number.literal_of_isInvalid hw.2 h]

theorem ofLexeme_of_isTooLong (h : Number.IsTooLong ds) :
    Token.ofLexeme previous (.numeral ds) = .error (.tooLong (String.ofList ds)) := by
  rw [Token.ofLexeme, Number.literal_of_isTooLong hw.2 h]

end

/-! ## Places at which a line cannot be read on -/

/-- At the start of the characters a line cannot be read on: no lexeme starts there, or a run of
digits and points that is no number or is too long. -/
inductive Stumbles : List Char → Stop → Prop where
  | character {c : Char} {cs : List Char} (hb : isBlank c = false) (hc : ¬ StartsLexeme c) :
      Stumbles (c :: cs) (.report (.unsupportedCharacter c))
  | numeral {ds cs : List Char} (hw : (Lexeme.numeral ds).IsWord)
      (he : (Lexeme.numeral ds).EndsBefore cs) (hn : Number.IsInvalid ds) :
      Stumbles (ds ++ cs) (.report .invalidNumber)
  | overlong {ds cs : List Char} (hw : (Lexeme.numeral ds).IsWord)
      (he : (Lexeme.numeral ds).EndsBefore cs) (hn : Number.IsTooLong ds) :
      Stumbles (ds ++ cs) (.tooLong (String.ofList ds))

/-- The rest of a line at which its reading ends: nothing, or a place at which it stumbles. -/
def EndsReading (failure : Option Stop) (rest : List Char) : Prop :=
  match failure with
  | none => rest = []
  | some stop => Stumbles rest stop

theorem Renders.isWord {rest cs : List Char} {ls : List Lexeme} (h : Renders rest ls cs) :
    ∀ l ∈ ls, l.IsWord := by
  induction h with
  | nil hg => simp
  | cons hg hl h hn he ih => exact List.forall_mem_cons.mpr ⟨hl, ih⟩

namespace TokenStream

theorem ofLexemes_append_literals {ls : List Lexeme} (stuck : Option Char) (ls' : List Lexeme) :
    ∀ {previous : Option Token} {p : Option Lexeme}, minusLeads previous = wantsOperand p →
      (∀ l ∈ ls, l.IsWord) → AllLiterals ls →
        ∃ q, ofLexemes stuck previous (ls ++ ls') =
          (ofLexemes stuck q ls').after (lexedTokens p ls) := by
  induction ls with
  | nil => exact fun _ _ _ => ⟨_, rfl⟩
  | cons l ls ih =>
    intro previous p hp hw hn
    obtain ⟨hl, hws⟩ := List.forall_mem_cons.mp hw
    have hreads := reads_tokens hp hl fun ds hds => hn ds (by simp [hds])
    obtain ⟨q, hq⟩ := ih (minusLeads_of_reads hreads) hws fun ds hds =>
      hn ds (List.mem_cons_of_mem l hds)
    refine ⟨q, ?_⟩
    rw [List.cons_append, ofLexemes_cons hreads rfl, hq, after_after]
    rfl

theorem ofLexemes_scan_of_endsReading {failure : Option Stop} {rest : List Char}
    (h : EndsReading failure rest) (previous : Option Token) :
    ofLexemes (scan rest).2 previous (scan rest).1 = ⟨[], failure⟩ := by
  cases failure with
  | none =>
    cases h
    rw [scan]
    rfl
  | some stop =>
    cases h with
    | character hb hc =>
      obtain ⟨hn, ha, ho⟩ := not_startsLexeme_iff.mp hc
      rw [scan_stuck _ ho hb hn ha]
      rfl
    | numeral hw he hn =>
      have hscan := scan_lexeme hw he
      rw [Lexeme.chars] at hscan
      rw [hscan, ofLexemes, ofLexeme_of_isInvalid hw hn]
    | overlong hw he hn =>
      have hscan := scan_lexeme hw he
      rw [Lexeme.chars] at hscan
      rw [hscan, ofLexemes, ofLexeme_of_isTooLong hw hn]

/-- Lexemes and the place behind them at which the reading ends settle what is read. -/
theorem ofLexemes_scan_of_renders {failure : Option Stop} {ls : List Lexeme}
    {cs rest : List Char} (h : Renders rest ls cs) (hn : AllLiterals ls)
    (he : EndsReading failure rest) :
    ofLexemes (scan (cs ++ rest)).2 none (scan (cs ++ rest)).1 =
      ⟨lexedTokens none ls, failure⟩ := by
  have hstart : minusLeads none = wantsOperand none := rfl
  obtain ⟨q, hq⟩ := ofLexemes_append_literals (scan rest).2 (scan rest).1 hstart h.isWord hn
  rw [h.scan_append, hq, ofLexemes_scan_of_endsReading he, after, List.append_nil]

end TokenStream

/-! ## Lines -/

/-- The characters are written from lexemes up to their end or to a place at which they stumble. -/
def Laid (cs : List Char) : Prop :=
  ∃ failure ls a b, cs = a ++ b ∧ Renders b ls a ∧ AllLiterals ls ∧ EndsReading failure b

theorem Laid.blank {c : Char} {cs : List Char} (hc : isBlank c) (h : Laid cs) :
    Laid (c :: cs) := by
  obtain ⟨failure, ls, a, b, rfl, hr, hn, hb⟩ := h
  exact ⟨failure, ls, c :: a, b, rfl, hr.blank hc, hn, hb⟩

theorem Laid.lexeme {l : Lexeme} {cs : List Char} (hl : l.IsWord) (he : l.EndsBefore cs)
    (hlit : ∀ ds, l = .numeral ds → Number.IsLiteral ds) (h : Laid cs) :
    Laid (l.chars ++ cs) := by
  obtain ⟨failure, ls, a, b, rfl, hr, hn, hb⟩ := h
  refine ⟨failure, l :: ls, l.chars ++ a, b, (List.append_assoc ..).symm, hr.lexeme hl he, ?_, hb⟩
  intro ds hds
  rcases List.mem_cons.mp hds with h | h
  · exact hlit ds h.symm
  · exact hn ds h

theorem laid_of_stumbles {cs : List Char} {stop : Stop} (h : Stumbles cs stop) : Laid cs :=
  ⟨some stop, [], [], cs, rfl, .nil (by simp), fun _ hds => (by cases hds), h⟩

/-- Every line is written like this: the scanner cuts it. -/
theorem laid (cs : List Char) : Laid cs := by
  -- The cases are those of the scan: the end, a blank, a numeral, a name, a mark, a stray character.
  induction cs using scan.induct with
  | case1 => exact ⟨none, [], [], [], rfl, .nil (by simp), fun _ hds => (by cases hds), rfl⟩
  | case2 c cs hb ih => exact ih.blank hb
  | case3 c cs hb hn ls stuck hs ih =>
    have hw := isWord_numeral cs hn
    have he := head?_dropWhile_run isNumeralChar cs
    rw [cons_eq_run_append isNumeralChar c cs]
    rcases Number.run_cases (c :: cs.takeWhile isNumeralChar) with hlit | hlong | hinvalid
    · exact ih.lexeme hw he fun ds hds => Lexeme.numeral.inj hds ▸ hlit
    · exact laid_of_stumbles (.overlong hw he hlong)
    · exact laid_of_stumbles (.numeral hw he hinvalid)
  | case4 c cs hb hn ha ls stuck hs ih =>
    rw [cons_eq_run_append isNameChar c cs]
    exact ih.lexeme (isWord_name cs ha) (head?_dropWhile_run isNameChar cs)
      fun ds hds => (by cases hds)
  | case5 c cs hb hn ha l hl ls stuck hs ih =>
    obtain ⟨hw, hcs, he⟩ := isWord_of_ofChar? hl
    rw [← List.singleton_append, ← hcs]
    refine ih.lexeme hw (he cs) fun ds hds => ?_
    rw [hds] at hcs hw
    have hmem : c ∈ (Lexeme.numeral ds).chars := hcs ▸ List.mem_singleton_self c
    exact absurd (hw.2 c hmem) hn
  | case6 c cs hb hn ha hl =>
    have hstuck := not_startsLexeme_iff.mpr ⟨by simpa using hn, by simpa using ha, hl⟩
    exact laid_of_stumbles (.character (by simpa using hb) hstuck)

/-- The error names the character, or says that a number is none. The only other reason is a run that
is too long. -/
theorem message_of_stumbles {cs : List Char} {stop : Stop} (h : Stumbles cs stop) :
    (∃ e, stop = .report e ∧ e.kind = .malformed ∧ (e.message = "Invalid number format." ∨
      ∃ c ∈ cs.head?, e.message = "Unsupported character \"" ++ c.toString ++ "\".")) ∨
    ∃ ds, ds <+: cs ∧ Number.IsTooLong ds ∧ stop = .tooLong (String.ofList ds) := by
  cases h with
  | @character c cs hb hc => exact .inl ⟨_, rfl, rfl, .inr ⟨c, rfl, rfl⟩⟩
  | numeral hw he hn => exact .inl ⟨_, rfl, rfl, .inl rfl⟩
  | overlong hw he hn => exact .inr ⟨_, List.prefix_append _ _, hn, rfl⟩

/-- What is read of a line is what its lexemes say up to the place at which the reading ends. -/
theorem ofLine_eq_iff {line : String} {ts : List Token} {failure : Option Stop} :
    TokenStream.ofLine line = ⟨ts, failure⟩ ↔
      ∃ ls a b, line.toList = a ++ b ∧ Renders b ls a ∧ AllLiterals ls ∧ EndsReading failure b ∧
        ts = lexedTokens none ls := by
  constructor
  · intro h
    -- The line is written in some way, and what is read of it in this way is all that is read.
    obtain ⟨failure', ls, a, b, hline, hr, hn, hb⟩ := laid line.toList
    have hread := TokenStream.ofLexemes_scan_of_renders hr hn hb
    rw [← hline] at hread
    cases h.symm.trans hread
    exact ⟨ls, a, b, hline, hr, hn, hb, rfl⟩
  · rintro ⟨ls, a, b, hline, hr, hn, hb, rfl⟩
    rw [TokenStream.ofLine, hline]
    exact TokenStream.ofLexemes_scan_of_renders hr hn hb

/-- A line that ends early does so at a place at which it stumbles. -/
theorem exists_stumbles_of_failure {line : String} {stop : Stop}
    (h : (TokenStream.ofLine line).failure = some stop) : ∃ rest, Stumbles rest stop := by
  obtain ⟨-, -, rest, -, -, -, hrest, -⟩ :=
    ofLine_eq_iff.mp (congrArg (TokenStream.mk (TokenStream.ofLine line).tokens) h)
  exact ⟨rest, hrest⟩

/-- A line is read to its end exactly if it is written from lexemes whose runs of digits and points
are numbers, and then as their tokens. Any other line is read as the tokens of such lexemes up to the
first place at which it stumbles, with the error of this place, or with the fault of a run that is
too long. -/
theorem ofLine_eq_iff_renders (line : String) (ts : List Token) :
    (TokenStream.ofLine line = ⟨ts, none⟩ ↔
      ∃ ls, Renders [] ls line.toList ∧ AllLiterals ls ∧ ts = lexedTokens none ls) ∧
    (∀ stop, TokenStream.ofLine line = ⟨ts, some stop⟩ ↔
      ∃ ls a b, line.toList = a ++ b ∧ Renders b ls a ∧ AllLiterals ls ∧ Stumbles b stop ∧
        ts = lexedTokens none ls) ∧
    ∀ b stop, Stumbles b stop →
      (∃ e, stop = .report e ∧ e.kind = .malformed ∧ (e.message = "Invalid number format." ∨
        ∃ c ∈ b.head?, e.message = "Unsupported character \"" ++ c.toString ++ "\".")) ∨
      ∃ ds, ds <+: b ∧ Number.IsTooLong ds ∧ stop = .tooLong (String.ofList ds) := by
  refine ⟨?_, fun stop => ofLine_eq_iff, fun b stop h => message_of_stumbles h⟩
  rw [ofLine_eq_iff]
  constructor
  · rintro ⟨ls, a, b, hline, hr, hn, rfl, hts⟩
    rw [List.append_nil] at hline
    exact ⟨ls, hline ▸ hr, hn, hts⟩
  · rintro ⟨ls, hr, hn, hts⟩
    exact ⟨ls, line.toList, [], (List.append_nil _).symm, hr, hn, rfl, hts⟩

section

variable {ds : List Char} (hw : (Lexeme.numeral ds).IsWord)
include hw

theorem renders_numeral : Renders [] [.numeral ds] (String.ofList ds).toList := by
  have hnil : Renders [] [] [] := .nil (by simp)
  have hone : Renders [] [.numeral ds] (ds ++ []) := hnil.lexeme hw fun c hc => (by cases hc)
  rw [String.toList_ofList]
  rwa [List.append_nil] at hone

/-- A run that is too long stops the reading of a line of its own. -/
theorem ofLine_of_isTooLong (h : Number.IsTooLong ds) :
    TokenStream.ofLine (String.ofList ds) = ⟨[], some (.tooLong (String.ofList ds))⟩ := by
  have hstumbles : Stumbles (ds ++ []) (.tooLong (String.ofList ds)) :=
    .overlong hw (fun c hc => (by cases hc)) h
  refine ofLine_eq_iff.mpr ⟨[], [], ds ++ [], ?_, .nil (by simp), fun _ hds => (by cases hds),
    hstumbles, rfl⟩
  rw [String.toList_ofList, List.append_nil, List.nil_append]

end

theorem isWord_overlongOne : (Lexeme.numeral Number.overlongOne).IsWord :=
  ⟨List.cons_ne_nil _ _, Number.isNumeralChar_of_mem_overlongOne⟩

/-- A run with one point and a finite value that spells a line by itself, and is not read. -/
theorem ofLine_renders_overlong :
    Renders [] [.numeral Number.overlongOne] (String.ofList Number.overlongOne).toList ∧
      (∃ c ∈ Number.overlongOne, c.isDigit) ∧ Number.overlongOne.count '.' ≤ 1 ∧
      (Number.pointValue Number.overlongOne).isFinite ∧
      TokenStream.ofLine (String.ofList Number.overlongOne) =
        ⟨[], some (.tooLong (String.ofList Number.overlongOne))⟩ := by
  have hlong : Number.IsTooLong Number.overlongOne := Number.isTooLong_overlongOne
  have hread := ofLine_of_isTooLong isWord_overlongOne hlong
  have hrenders := renders_numeral isWord_overlongOne
  have hfinite := Number.isFinite_pointValue_overlongOne
  exact ⟨hrenders, hlong.digit, hlong.point, hfinite, hread⟩

end Calculator
