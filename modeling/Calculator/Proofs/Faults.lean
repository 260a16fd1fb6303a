import Calculator.Evaluation
import Calculator.Proofs.Depth
import Calculator.Proofs.Scopes
import Calculator.Proofs.Spelling

/-!
# When an evaluation has no result

An evaluation ends without a result where the reading of the text stops at a numeral that is too
long, or where a definition stands for no float. The second shows only once the scope is built:
behind a text that is read to its end and whose brackets are balanced.

* `StopsAtNumeral`: texts with a numeral that is too long.
* `readPostfix_cases`, `valueOf_cases`: what comes of reading a text, and what of its value.
* `evaluate_floats_cases`, `exists_evaluate_floats`: what comes of a text if the definitions are
  floats.
-/
set_option autoImplicit false

namespace Calculator

/-! ## Reading -/

/-- What can stop the reading of a line: an error in its characters, or a numeral that is too
long. -/
def Stop.IsOfLine : Stop → Prop
  | report e => e.kind = .malformed
  | tooLong _ => True
  | unknownSymbol _ => False

theorem isOfLine_of_ofLexeme {previous : Option Token} {l : Lexeme} {stop : Stop}
    (h : Token.ofLexeme previous l = .error stop) : stop.IsOfLine := by
  cases l with
  | numeral ds =>
    simp only [Token.ofLexeme] at h
    split at h
    · cases h
    · cases h
      rfl
    · cases h
      trivial
  | operator op =>
    simp only [Token.ofLexeme] at h
    split at h <;> cases h
  | name letters => cases h
  | opening => cases h
  | closing => cases h

theorem isOfLine_of_ofLexemes {stuck : Option Char} {ls : List Lexeme} {stop : Stop} :
    ∀ {previous : Option Token},
      (TokenStream.ofLexemes stuck previous ls).failure = some stop → stop.IsOfLine := by
  induction ls with
  | nil =>
    intro previous h
    obtain ⟨c, _, rfl⟩ := Option.map_eq_some_iff.mp h
    rfl
  | cons l ls ih =>
    intro previous h
    rw [TokenStream.ofLexemes] at h
    split at h
    · next stop' hl =>
      cases h
      exact isOfLine_of_ofLexeme hl
    · exact ih h

namespace TokenStream

theorem all_eq_ok_iff {s : TokenStream} {ts : List Token} :
    s.all = .ok ts ↔ s = ⟨ts, none⟩ := by
  obtain ⟨tokens, failure⟩ := s
  cases failure <;> simp [all]

theorem all_eq_error_iff {s : TokenStream} {stop : Stop} :
    s.all = .error stop ↔ s.failure = some stop := by
  obtain ⟨tokens, failure⟩ := s
  cases failure <;> simp [all]

theorem isLexed_of_all {line : String} {ts : List Token} (h : (ofLine line).all = .ok ts) :
    ∀ t ∈ ts, t.IsLexed := by
  have hl : ∀ t ∈ (ofLine line).tokens, t.IsLexed := isLexed_of_mem_ofLine
  rwa [all_eq_ok_iff.mp h] at hl

end TokenStream

/-- A text that is read to its end is spelled by its lexemes, and they have its tokens. -/
theorem exists_lexemes_of_all {text : String} {ts : List Token}
    (h : (TokenStream.ofLine text).all = .ok ts) :
    ∃ ls, Spells ls text.toList ∧ TokenStream.ofLexemes none none ls = ⟨ts, none⟩ := by
  have hline := TokenStream.all_eq_ok_iff.mp h
  rw [TokenStream.ofLine] at hline
  cases hs : scan text.toList with
  | mk ls stuck =>
    rw [hs] at hline
    have hstuck : stuck = none := TokenStream.stuck_eq_none hline
    subst hstuck
    exact ⟨ls, spells_of_scan hs, hline⟩

theorem readPostfix_eq_ok {text : String} {p : List Token} (h : readPostfix text = .ok p) :
    ∃ ts, (TokenStream.ofLine text).all = .ok ts ∧ toPostfix ts = .ok p := by
  unfold readPostfix at h
  cases ht : (TokenStream.ofLine text).all with
  | error e =>
    rw [ht] at h
    cases h
  | ok ts =>
    rw [ht] at h
    exact ⟨ts, rfl, h⟩

/-- The postfix order of a text holds no tokens but those of the text. -/
theorem mem_of_readPostfix {text : String} {p : List Token} (h : readPostfix text = .ok p) :
    ∀ t ∈ p, t ∈ (TokenStream.ofLine text).tokens := by
  obtain ⟨ts, hall, hp⟩ := readPostfix_eq_ok h
  rw [TokenStream.all_eq_ok_iff.mp hall]
  exact fun t ht => (isParen_of_mem_toPostfix hp t ht).2

theorem isLexed_of_readPostfix {text : String} {p : List Token} (h : readPostfix text = .ok p) :
    ∀ t ∈ p, t.IsLexed :=
  fun t ht => TokenStream.isLexed_of_mem_ofLine t (mem_of_readPostfix h t ht)

/-- The text is read to its end and its brackets are balanced. -/
def ReadsBalanced (text : String) : Prop :=
  ∃ ts, (TokenStream.ofLine text).all = .ok ts ∧ Balanced (ts.filterMap Token.side?)

/-- The reading of the text stops at a numeral that is too long. -/
def StopsAtNumeral (text numeral : String) : Prop :=
  (TokenStream.ofLine text).failure = some (.tooLong numeral)

theorem readPostfix_of_failure {text : String} {stop : Stop}
    (h : (TokenStream.ofLine text).failure = some stop) : readPostfix text = .error stop := by
  rw [readPostfix, TokenStream.all_eq_error_iff.mpr h]

theorem not_readsBalanced_of_failure {text : String} {stop : Stop}
    (h : (TokenStream.ofLine text).failure = some stop) : ¬ ReadsBalanced text := by
  rintro ⟨ts, hts, -⟩
  rw [TokenStream.all_eq_error_iff.mpr h] at hts
  cases hts

/-- A text has a postfix order, with tokens of known meaning, or it is malformed, or its reading
stops at a numeral that is too long. -/
theorem readPostfix_cases (text : String) :
    (∃ p, readPostfix text = .ok p ∧ (∀ t ∈ p, t.IsLexed) ∧ ReadsBalanced text) ∨
      (∃ e, readPostfix text = .error (.report e) ∧ e.kind = .malformed ∧ ¬ ReadsBalanced text) ∨
      ∃ numeral, StopsAtNumeral text numeral := by
  cases hf : (TokenStream.ofLine text).failure with
  | some stop =>
    have hline : stop.IsOfLine := isOfLine_of_ofLexemes hf
    cases stop with
    | report e =>
      exact .inr (.inl ⟨e, readPostfix_of_failure hf, hline, not_readsBalanced_of_failure hf⟩)
    | tooLong numeral => exact .inr (.inr ⟨numeral, hf⟩)
    | unknownSymbol item => cases hline
  | none =>
    have hall : (TokenStream.ofLine text).all = .ok (TokenStream.ofLine text).tokens := by
      rw [TokenStream.all, hf]
    have hlexed := TokenStream.isLexed_of_all hall
    have hbinds : ∀ t ∈ (TokenStream.ofLine text).tokens, t.Binds := fun t ht => (hlexed t ht).binds
    have hread : readPostfix text = toPostfix (TokenStream.ofLine text).tokens := by
      rw [readPostfix, hall]
    by_cases hb : Balanced ((TokenStream.ofLine text).tokens.filterMap Token.side?)
    · obtain ⟨p, hp⟩ := toPostfix_of_balanced hbinds hb
      exact .inl ⟨p, hread.trans hp, fun t ht => hlexed t (isParen_of_mem_toPostfix hp t ht).2,
        _, hall, hb⟩
    · refine .inr (.inl ⟨_, hread.trans (toPostfix_of_not_balanced hbinds hb), rfl, ?_⟩)
      rintro ⟨ts, hts, hb'⟩
      rw [hall] at hts
      cases hts
      exact hb hb'

/-! ## Values -/

theorem runPostfix_of_run_eq_ok {scope : Bindings} {ts : List Token} {x : Float}
    (h : StackMachine.run scope ts = .ok x) : runPostfix scope ts = .ok (.ok x) := by
  rw [runPostfix, h]
  rfl

theorem runPostfix_of_run_eq_error {scope : Bindings} {ts : List Token}
    {halt : StackMachine.Halt} (h : StackMachine.run scope ts = .error halt) :
    runPostfix scope ts = Stop.settle (.error halt.cause) := by
  rw [runPostfix, h]
  rfl

theorem runPostfix_eq_ok_iff {scope : Bindings} {ts : List Token} {x : Float} :
    runPostfix scope ts = .ok (.ok x) ↔ StackMachine.run scope ts = .ok x := by
  refine ⟨fun h => ?_, runPostfix_of_run_eq_ok⟩
  cases hr : StackMachine.run scope ts with
  | ok y =>
    rw [runPostfix_of_run_eq_ok hr] at h
    cases h
    rfl
  | error halt =>
    rw [runPostfix_of_run_eq_error hr] at h
    cases hc : halt.cause <;> rw [hc] at h <;> cases h

theorem runPostfix_cases (scope : Bindings) {p : List Token} (hp : ∀ t ∈ p, t.IsLexed) :
    ∃ outcome, runPostfix scope p = .ok outcome ∧
      ∀ e, outcome = .error e → e.kind ∈ StackMachine.runKinds := by
  cases h : StackMachine.run scope p with
  | ok x => exact ⟨.ok x, runPostfix_of_run_eq_ok h, fun e he => (by cases he)⟩
  | error halt =>
    obtain ⟨e, hc, hk⟩ := StackMachine.run_report hp h
    refine ⟨.error e, by rw [runPostfix_of_run_eq_error h, hc]; rfl, fun e' he => ?_⟩
    cases he
    exact hk

theorem valueOf_of_readPostfix {text : String} {p : List Token} (h : readPostfix text = .ok p)
    (ds : Definitions) :
    valueOf text ds = match scopeOf ds with
      | .error fault => .error (.scope fault)
      | .ok scope => runPostfix scope p := by
  simp only [valueOf, h, Stop.settle, bind, Except.bind]
  rfl

theorem valueOf_of_malformed {text : String} {e : Error}
    (h : readPostfix text = .error (.report e)) (ds : Definitions) :
    valueOf text ds = .ok (.error e) := by
  simp only [valueOf, h, Stop.settle, bind, Except.bind]
  rfl

theorem valueOf_of_tooLong {text numeral : String}
    (h : readPostfix text = .error (.tooLong numeral)) (ds : Definitions) :
    valueOf text ds = .error (.tooLong numeral) := by
  simp only [valueOf, h, Stop.settle, bind, Except.bind]

/-- The value of a text fails at a numeral that is too long, or with the fault of the scope where the
scope is reached. -/
theorem valueOf_cases (text : String) (ds : Definitions) :
    (∃ numeral, StopsAtNumeral text numeral ∧ valueOf text ds = .error (.tooLong numeral)) ∨
    (∃ f, valueOf text ds = .error (.scope f) ∧ ReadsBalanced text ∧ FirstRefused ds f) ∨
      ∃ outcome, valueOf text ds = .ok outcome ∧
        (∀ e, outcome = .error e → e.kind ∈ StackMachine.runKinds) ∧
        (ReadsBalanced text → ∀ f, ¬ FirstRefused ds f) := by
  rcases readPostfix_cases text with ⟨p, hp, hlexed, hread⟩ | ⟨e, he, hk, hread⟩ | ⟨numeral, hn⟩
  · rw [valueOf_of_readPostfix hp]
    cases hs : scopeOf ds with
    | error f => exact .inr (.inl ⟨f, rfl, hread, scopeOf_eq_error_iff.mp hs⟩)
    | ok scope =>
      obtain ⟨outcome, ho, hkind⟩ := runPostfix_cases scope hlexed
      refine .inr (.inr ⟨outcome, ho, hkind, fun _ f hf => ?_⟩)
      rw [← scopeOf_eq_error_iff, hs] at hf
      cases hf
  · refine .inr (.inr ⟨.error e, valueOf_of_malformed he ds, fun e' he' => ?_,
      fun h => absurd h hread⟩)
    cases he'
    rw [hk]
    decide
  · exact .inl ⟨numeral, hn, valueOf_of_tooLong (readPostfix_of_failure hn) ds⟩

/-! ## Results -/

theorem evaluate_of_trim_eq_empty {expression : String} (h : Text.trim expression = "")
    (ds : Definitions) (precision : Int) :
    evaluate expression ds precision =
      .ok ⟨Text.trim expression, .error .emptyExpression, precision⟩ := by
  simp [evaluate, h]

theorem evaluate_of_trim_ne_empty {expression : String} (h : Text.trim expression ≠ "")
    (ds : Definitions) (precision : Int) :
    evaluate expression ds precision =
      (valueOf (Text.trim expression) ds).map fun outcome =>
        ⟨Text.trim expression, outcome, precision⟩ := by
  simp [evaluate, h]

theorem evaluate_of_readPostfix {expression : String} {ds : Definitions} {p : List Token}
    {scope : Bindings} {outcome : Except Error Float} (ht : Text.trim expression ≠ "")
    (hp : readPostfix (Text.trim expression) = .ok p) (hs : scopeOf ds = .ok scope)
    (ho : runPostfix scope p = .ok outcome) (precision : Int) :
    evaluate expression ds precision = .ok ⟨Text.trim expression, outcome, precision⟩ := by
  rw [evaluate_of_trim_ne_empty ht, valueOf_of_readPostfix hp, hs]
  simp only [ho]
  rfl

theorem evaluate_of_malformed {expression : String} {e : Error} (ht : Text.trim expression ≠ "")
    (he : readPostfix (Text.trim expression) = .error (.report e)) (ds : Definitions)
    (precision : Int) :
    evaluate expression ds precision = .ok ⟨Text.trim expression, .error e, precision⟩ := by
  rw [evaluate_of_trim_ne_empty ht, valueOf_of_malformed he]
  rfl

theorem evaluate_of_tooLong {expression numeral : String} (ht : Text.trim expression ≠ "")
    (h : readPostfix (Text.trim expression) = .error (.tooLong numeral)) (ds : Definitions)
    (precision : Int) : evaluate expression ds precision = .error (.tooLong numeral) := by
  rw [evaluate_of_trim_ne_empty ht, valueOf_of_tooLong h]
  rfl

theorem trim_ne_empty_of_stopsAtNumeral {expression numeral : String}
    (h : StopsAtNumeral (Text.trim expression) numeral) : Text.trim expression ≠ "" := by
  intro ht
  rw [ht, StopsAtNumeral, TokenStream.ofLine, String.toList_empty, scan] at h
  cases h

theorem evaluate_of_stopsAtNumeral {expression numeral : String}
    (h : StopsAtNumeral (Text.trim expression) numeral) (ds : Definitions) (precision : Int) :
    evaluate expression ds precision = .error (.tooLong numeral) :=
  evaluate_of_tooLong (trim_ne_empty_of_stopsAtNumeral h) (readPostfix_of_failure h) ds precision

/-- Floats always make a scope, so an evaluation with nothing but floats has a result, unless the
reading stops at a numeral that is too long. -/
theorem evaluate_floats_cases (b : Bindings) (expression : String) (precision : Int) :
    (∃ numeral, StopsAtNumeral (Text.trim expression) numeral ∧
        evaluate expression b.definitions precision = .error (.tooLong numeral)) ∨
      ∃ outcome, evaluate expression b.definitions precision =
        .ok ⟨Text.trim expression, outcome, precision⟩ := by
  by_cases ht : Text.trim expression = ""
  · exact .inr ⟨_, evaluate_of_trim_eq_empty ht _ _⟩
  · obtain ⟨scope, hs⟩ := exists_scopeOf b
    rcases readPostfix_cases (Text.trim expression) with ⟨p, hp, hlexed, -⟩ | ⟨e, he, -, -⟩ |
      ⟨numeral, hn⟩
    · obtain ⟨outcome, ho, -⟩ := runPostfix_cases scope hlexed
      exact .inr ⟨outcome, evaluate_of_readPostfix ht hp hs ho precision⟩
    · exact .inr ⟨_, evaluate_of_malformed ht he _ _⟩
    · exact .inl ⟨numeral, hn, evaluate_of_stopsAtNumeral hn _ _⟩

/-- The outcome of a text with nothing but floats: a value or an error, or the fault of a numeral
that is too long, at which its reading stops. -/
theorem exists_evaluate_floats (b : Bindings) (expression : String) (precision : Int) :
    ∃ outcome : Except Fault (Except Error Float),
      evaluate expression b.definitions precision =
        outcome.map (fun o => ⟨Text.trim expression, o, precision⟩) ∧
      ∀ fault, outcome = .error fault →
        ∃ numeral, fault = .tooLong numeral ∧ StopsAtNumeral (Text.trim expression) numeral := by
  rcases evaluate_floats_cases b expression precision with ⟨numeral, hn, h⟩ | ⟨outcome, h⟩
  · refine ⟨.error (.tooLong numeral), h, fun fault hf => ?_⟩
    cases hf
    exact ⟨numeral, rfl, hn⟩
  · exact ⟨.ok outcome, h, fun fault hf => (by cases hf)⟩

end Calculator
