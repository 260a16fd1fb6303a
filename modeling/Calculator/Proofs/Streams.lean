import Calculator.Proofs.Faults
import Calculator.Proofs.LexedLines

/-!
# Streams and lists of tokens

The tokens of a line can be put in postfix order while they are read, or once all are read.

* `Overcloses`: brackets of which one closes a group that was not opened.
* `TokenStream.toPostfix_of_failure`: the order of a stream that ends early shows only such brackets.
* `Reports`: the order of the errors that the value of a text can be.
* `toPostfix_ofLine_agrees`: both ways give the same orders, and where their errors differ.
-/
set_option autoImplicit false

namespace Calculator

/-! ## Brackets closed too often -/

/-- One of the brackets closes a group that was not opened. -/
def Overcloses (bs : List Side) : Prop := ∃ p, p <+: bs ∧ p.count .opening < p.count .closing

theorem overcloses_iff {bs : List Side} : Overcloses bs ↔ groupsAfter 0 bs = none := by
  have hclosable : Overcloses bs ↔ ¬ Closable 0 bs := by
    simp [Overcloses, Closable]
  rw [hclosable]
  cases h : groupsAfter 0 bs with
  | none =>
    refine iff_of_true (fun hc => ?_) rfl
    have hle : bs.count .closing ≤ 0 + bs.count .opening := hc bs (List.prefix_refl bs)
    have hsome : groupsAfter 0 bs = some (0 + bs.count .opening - bs.count .closing) :=
      groupsAfter_eq_some_iff.mpr ⟨hc, Nat.sub_add_cancel hle⟩
    rw [h] at hsome
    cases hsome
  | some j => exact iff_of_false (not_not_intro (groupsAfter_eq_some_iff.mp h).1) (by simp)

instance (bs : List Side) : Decidable (Overcloses bs) := decidable_of_iff _ overcloses_iff.symm

/-! ## Orders of a stream -/

namespace TokenStream

/-- The brackets of the tokens. -/
def sides (s : TokenStream) : List Side := s.tokens.filterMap Token.side?

theorem toPostfix_of_failure_eq_none {s : TokenStream} (h : s.failure = none) :
    s.toPostfix = Calculator.toPostfix s.tokens := by
  simp only [toPostfix, h]
  rfl

/-- A stream that ends early has no order. Its own error shows, unless a bracket has closed a group
too many before. -/
theorem toPostfix_of_failure {s : TokenStream} (hs : ∀ t ∈ s.tokens, t.Binds) {stop : Stop}
    (h : s.failure = some stop) :
    s.toPostfix =
      .error (if Overcloses s.sides then .report .mismatchedParentheses else stop) := by
  simp only [overcloses_iff, sides]
  simp only [toPostfix, h, bind, Except.bind]
  -- The stream's own error comes after its tokens, so a bracket among them shows first.
  rcases Yard.feedAll_groupsAfter hs (y := {}) (by simp [Yard.Bound]) with ⟨y, hy, hg⟩ | ⟨he, hn⟩
  · have hsome : groupsAfter 0 (s.tokens.filterMap Token.side?) = some y.groups := hg
    rw [hy, hsome]
    rfl
  · have hnone : groupsAfter 0 (s.tokens.filterMap Token.side?) = none := hn
    rw [he, hnone]
    rfl

theorem binds_of_mem_ofLine {line : String} : ∀ t ∈ (ofLine line).tokens, t.Binds :=
  fun t ht => (isLexed_of_mem_ofLine t ht).binds

theorem ne_mismatched_of_failure {line : String} {stop : Stop}
    (h : (ofLine line).failure = some stop) : stop ≠ .report .mismatchedParentheses := by
  obtain ⟨rest, hrest⟩ := exists_stumbles_of_failure h
  cases hrest <;> exact nofun

end TokenStream

theorem readPostfix_of_failure_eq_none {text : String}
    (h : (TokenStream.ofLine text).failure = none) :
    readPostfix text = toPostfix (TokenStream.ofLine text).tokens := by
  have hall : (TokenStream.ofLine text).all = .ok (TokenStream.ofLine text).tokens := by
    simp [TokenStream.all, h]
  rw [readPostfix, hall]

/-! ## Errors of a run -/

/-- The errors of tokens that do not find their operands, or leave more or less than one value. -/
def structuralErrors : List Error := [.missingArgument, .missingValues, .incomplete]

theorem mem_structuralErrors_of_depthBehind {k : Nat} {t : Token} {e : Error}
    (ht : t.isParen = false) (h : t.depthBehind k = .error e) : e ∈ structuralErrors := by
  obtain ⟨item, unary⟩ := t
  cases item with
  | number x => cases h
  | identifier name => cases h
  | function name =>
    simp only [Token.depthBehind] at h
    split at h <;> cases h
    exact List.mem_cons_self
  | operator symbol =>
    simp only [Token.depthBehind] at h
    split at h <;> cases h
    exact List.mem_cons_of_mem _ List.mem_cons_self
  | paren mark => cases ht

theorem mem_structuralErrors_of_depthAfter {ts : List Token} {e : Error}
    (hts : ∀ t ∈ ts, t.isParen = false) :
    ∀ {k : Nat}, depthAfter k ts = .error e → e ∈ structuralErrors := by
  induction ts with
  | nil =>
    intro k h
    cases h
  | cons t ts ih =>
    intro k h
    rw [depthAfter_cons] at h
    rcases bind_eq_error_iff.mp h with ht | ⟨j, -, h⟩
    · exact mem_structuralErrors_of_depthBehind (hts t List.mem_cons_self) ht
    · exact ih (fun u hu => hts u (List.mem_cons_of_mem t hu)) h

/-- A run of lexed tokens without brackets fails on a value or on the number of values. -/
theorem runPostfix_of_not_isParen (scope : Bindings) {p : List Token} (hp : ∀ t ∈ p, t.IsLexed)
    (hb : ∀ t ∈ p, t.isParen = false) :
    ∃ outcome, runPostfix scope p = .ok outcome ∧
      ∀ e, outcome = .error e → e.kind ∈ StackMachine.valueKinds ∨ e ∈ structuralErrors := by
  cases h : StackMachine.run scope p with
  | ok x => exact ⟨.ok x, runPostfix_of_run_eq_ok h, fun e he => (by cases he)⟩
  | error halt =>
    have hcause : ∃ e, halt.cause = .report e ∧
        (e.kind ∈ StackMachine.valueKinds ∨ e ∈ structuralErrors) := by
      rw [StackMachine.run_eq] at h
      -- The run stops at a token, or at its end with more or less than one value.
      rcases bind_eq_error_iff.mp h with hf | ⟨s, -, hsingle⟩
      · obtain ⟨e, hc, hd | hk⟩ := StackMachine.feedAll_error_cases hp hf
        · exact ⟨e, hc, .inr (mem_structuralErrors_of_depthAfter hb hd)⟩
        · exact ⟨e, hc, .inl hk⟩
      · exact ⟨_, StackMachine.single_error hsingle, .inr (by decide)⟩
    obtain ⟨e, hc, he⟩ := hcause
    refine ⟨.error e, by rw [runPostfix_of_run_eq_error h, hc]; rfl, fun e' he' => ?_⟩
    cases he'
    exact he

/-! ## Both ways -/

/-- What is reported for a text with these tokens: the error at which they end early comes first, an
error of the brackets second, and an error of a name, of the operands or of a value last. A numeral
that is too long comes first as well, and there is no outcome then. -/
structure Reports (s : TokenStream) (outcome : Except Fault (Except Error Float)) : Prop where
  failure : ∀ e, s.failure = some (.report e) → outcome = .ok (.error e)
  tooLong : ∀ numeral, s.failure = some (.tooLong numeral) → outcome = .error (.tooLong numeral)
  brackets : s.failure = none → ¬ Balanced s.sides →
    outcome = .ok (.error .mismatchedParentheses)
  run : s.failure = none → Balanced s.sides → ∃ result, outcome = .ok result ∧
    ∀ e, result = .error e → e.kind ∈ [ErrorKind.semantic, .domain, .numeric] ∨
      e ∈ [Error.missingArgument, .missingValues, .incomplete]

theorem reports_of_failure {s : TokenStream} {stop : Stop} (hf : s.failure = some stop)
    {outcome : Except Fault (Except Error Float)}
    (hreport : ∀ e, stop = .report e → outcome = .ok (.error e))
    (hlong : ∀ numeral, stop = .tooLong numeral → outcome = .error (.tooLong numeral)) :
    Reports s outcome where
  failure e he := hreport e (Option.some.inj (hf.symm.trans he))
  tooLong numeral hn := hlong numeral (Option.some.inj (hf.symm.trans hn))
  brackets h := by cases hf.symm.trans h
  run h := by cases hf.symm.trans h

theorem exists_reports {text : String} (ht : Text.trim text ≠ "") (known : Bindings)
    (precision : Int) :
    ∃ outcome : Except Fault (Except Error Float),
      evaluate text known.definitions precision =
        outcome.map (fun o => ⟨Text.trim text, o, precision⟩) ∧
      Reports (TokenStream.ofLine (Text.trim text)) outcome := by
  cases hf : (TokenStream.ofLine (Text.trim text)).failure with
  | some stop =>
    have hline : stop.IsOfLine := isOfLine_of_ofLexemes hf
    cases stop with
    | report e =>
      refine ⟨.ok (.error e), evaluate_of_malformed ht (readPostfix_of_failure hf) _ precision,
        reports_of_failure hf (fun e' he => ?_) fun numeral hn => (by cases hn)⟩
      rw [Stop.report.inj he]
    | tooLong numeral =>
      refine ⟨.error (.tooLong numeral), evaluate_of_stopsAtNumeral hf _ precision,
        reports_of_failure hf (fun e he => by cases he) fun numeral' hn => ?_⟩
      rw [Stop.tooLong.inj hn]
    | unknownSymbol item => cases hline
  | none =>
    have hends : ∀ stop, (TokenStream.ofLine (Text.trim text)).failure ≠ some stop :=
      fun stop h => by cases hf.symm.trans h
    have hbinds : ∀ t ∈ (TokenStream.ofLine (Text.trim text)).tokens, t.Binds :=
      TokenStream.binds_of_mem_ofLine
    have hread := readPostfix_of_failure_eq_none hf
    by_cases hb : Balanced (TokenStream.ofLine (Text.trim text)).sides
    · obtain ⟨p, hp⟩ := toPostfix_of_balanced hbinds hb
      obtain ⟨scope, hscope⟩ := exists_scopeOf known
      have hmem := isParen_of_mem_toPostfix hp
      obtain ⟨outcome, ho, he⟩ := runPostfix_of_not_isParen scope
        (fun t ht => TokenStream.isLexed_of_mem_ofLine t (hmem t ht).2) fun t ht => (hmem t ht).1
      refine ⟨.ok outcome, evaluate_of_readPostfix ht (hread.trans hp) hscope ho precision, ?_⟩
      exact ⟨fun e h => absurd h (hends _), fun numeral h => absurd h (hends _),
        fun _ h => absurd hb h, fun _ _ => ⟨outcome, rfl, he⟩⟩
    · have herror := hread.trans (toPostfix_of_not_balanced hbinds hb)
      refine ⟨.ok (.error .mismatchedParentheses), evaluate_of_malformed ht herror _ precision, ?_⟩
      exact ⟨fun e h => absurd h (hends _), fun numeral h => absurd h (hends _), fun _ _ => rfl,
        fun _ h => absurd h hb⟩

theorem toPostfix_eq_ok_iff_readPostfix {line : String} {p : List Token} :
    (TokenStream.ofLine line).toPostfix = .ok p ↔ readPostfix line = .ok p := by
  cases hf : (TokenStream.ofLine line).failure with
  | none => rw [TokenStream.toPostfix_of_failure_eq_none hf, readPostfix_of_failure_eq_none hf]
  | some e =>
    rw [TokenStream.toPostfix_of_failure TokenStream.binds_of_mem_ofLine hf,
      readPostfix_of_failure hf]
    exact iff_of_false nofun nofun

theorem toPostfix_eq_mismatched_iff {line : String} :
    (TokenStream.ofLine line).toPostfix = .error (.report .mismatchedParentheses) ↔
      Overcloses (TokenStream.ofLine line).sides ∨
        (TokenStream.ofLine line).failure = none ∧ ¬ Balanced (TokenStream.ofLine line).sides := by
  have hbinds : ∀ t ∈ (TokenStream.ofLine line).tokens, t.Binds :=
    TokenStream.binds_of_mem_ofLine
  cases hf : (TokenStream.ofLine line).failure with
  | none =>
    have hover : Overcloses (TokenStream.ofLine line).sides →
        ¬ Balanced (TokenStream.ofLine line).sides := by
      rintro ⟨p, hp, hlt⟩ hb
      exact absurd (hb.1 p hp) (Nat.not_le_of_lt hlt)
    rw [TokenStream.toPostfix_of_failure_eq_none hf]
    by_cases hb : Balanced (TokenStream.ofLine line).sides
    · obtain ⟨p, hp⟩ := toPostfix_of_balanced hbinds hb
      rw [hp]
      refine iff_of_false nofun ?_
      rintro (ho | ⟨-, hn⟩)
      · exact hover ho hb
      · exact hn hb
    · exact iff_of_true (toPostfix_of_not_balanced hbinds hb) (.inr ⟨rfl, hb⟩)
  | some stop =>
    have hne : stop ≠ .report .mismatchedParentheses := TokenStream.ne_mismatched_of_failure hf
    rw [TokenStream.toPostfix_of_failure hbinds hf]
    by_cases ho : Overcloses (TokenStream.ofLine line).sides <;> simp [ho, hne]

theorem failure_of_toPostfix {line : String} {stop : Stop}
    (h : (TokenStream.ofLine line).toPostfix = .error stop)
    (hne : stop ≠ .report .mismatchedParentheses) :
    (TokenStream.ofLine line).failure = some stop := by
  have hbinds : ∀ t ∈ (TokenStream.ofLine line).tokens, t.Binds :=
    TokenStream.binds_of_mem_ofLine
  cases hf : (TokenStream.ofLine line).failure with
  | none =>
    rw [TokenStream.toPostfix_of_failure_eq_none hf] at h
    by_cases hb : Balanced (TokenStream.ofLine line).sides
    · obtain ⟨p, hp⟩ := toPostfix_of_balanced hbinds hb
      cases h.symm.trans hp
    · exact absurd (Except.error.inj (h.symm.trans (toPostfix_of_not_balanced hbinds hb))) hne
  | some stop' =>
    rw [TokenStream.toPostfix_of_failure hbinds hf] at h
    split at h
    · exact absurd (Except.error.inj h).symm hne
    · rw [Except.error.inj h]

theorem report_or_tooLong_of_failure {line : String} {stop : Stop}
    (h : (TokenStream.ofLine line).failure = some stop) :
    (∃ e, stop = .report e) ∨ ∃ numeral, stop = .tooLong numeral := by
  have hline : stop.IsOfLine := isOfLine_of_ofLexemes h
  cases stop with
  | report e => exact .inl ⟨e, rfl⟩
  | tooLong numeral => exact .inr ⟨numeral, rfl⟩
  | unknownSymbol item => cases hline

/-- A line has the same postfix order whether it is read to its end first or not, if it has one.
Taken while it is read, it is refused for its brackets where one closes a group too many before the
line fails, or where they are not balanced and the line does not fail; otherwise it stops where the
line does, at an error or at a numeral that is too long. Evaluation, which reads a text to its end
first, reports the error of the line before that of the brackets. -/
theorem toPostfix_ofLine_agrees (line : String) (known : Bindings) (precision : Int) :
    (∀ p, (TokenStream.ofLine line).toPostfix = .ok p ↔ readPostfix line = .ok p) ∧
    ((TokenStream.ofLine line).toPostfix = .error (.report .mismatchedParentheses) ↔
      Overcloses (TokenStream.ofLine line).sides ∨
        (TokenStream.ofLine line).failure = none ∧ ¬ Balanced (TokenStream.ofLine line).sides) ∧
    (∀ stop, (TokenStream.ofLine line).toPostfix = .error stop →
      stop ≠ .report .mismatchedParentheses →
        (TokenStream.ofLine line).failure = some stop ∧
          ((∃ e, stop = .report e) ∨ ∃ numeral, stop = .tooLong numeral)) ∧
    (Text.trim line ≠ "" → ∃ outcome : Except Fault (Except Error Float),
      evaluate line known.definitions precision =
        outcome.map (fun o => ⟨Text.trim line, o, precision⟩) ∧
      Reports (TokenStream.ofLine (Text.trim line)) outcome) := by
  refine ⟨fun _ => toPostfix_eq_ok_iff_readPostfix, toPostfix_eq_mismatched_iff,
    fun stop h hne => ?_, fun ht => exists_reports ht known precision⟩
  have hf := failure_of_toPostfix h hne
  exact ⟨hf, report_or_tooLong_of_failure hf⟩

end Calculator
