import Calculator.Proofs.Meaning
import Calculator.Proofs.Neighbours

/-!
# Which texts have a value

No stage looks at neighbours: a text has a value if its postfix order is that of a tree, and then as
many operands are missing in it as operators.

* `countP_ofLexemes`: the operands and the operators of a line, counted at its neighbours.
* `Arranges`: a text whose tokens, rearranged, are those of a tree.
* `evaluate_eq_ok_iff_arranges`: which texts have a value, and which of these are sentences.
-/
set_option autoImplicit false

namespace Calculator

/-! ## Counting -/

theorem minusLeads_of_reads {p : Option Token} {l : Lexeme} {ts : List Token}
    (h : Token.Reads p l ts) : minusLeads (ts.getLast?.or p) = wantsOperand (some l) := by
  cases h with
  | identifier hf => rw [wantsOperand, hf]; rfl
  | function hf => rw [wantsOperand, hf]; rfl
  | numeral hx => rfl
  | operator hop => rfl
  | minus hm => rfl
  | opening => rfl
  | closing => rfl

/-- The count of one lexeme: what is wanted before it and behind it, and what is missing. -/
theorem countP_of_reads {p : Option Token} {previous : Option Lexeme} {l : Lexeme}
    {ts : List Token} (hp : minusLeads p = wantsOperand previous) (h : Token.Reads p l ts) :
    ts.countP Token.isOperand + (wantsOperand previous && l.endsOperand).toNat +
        (wantsOperand (some l)).toNat =
      ts.countP Token.isOperator + (!wantsOperand previous && l.startsOperand).toNat +
        (wantsOperand previous).toNat := by
  rw [hp.symm]
  cases h with
  | @identifier cs hf =>
    have hw : wantsOperand (some (.name cs)) = false := by simp [wantsOperand, hf]
    rw [hw]
    cases minusLeads p <;> rfl
  | @function cs f hf =>
    have hw : wantsOperand (some (.name cs)) = true := by simp [wantsOperand, hf]
    rw [hw]
    cases minusLeads p <;> rfl
  | @operator op hop =>
    cases hm : minusLeads p with
    | false => rfl
    | true =>
      have hne : op ≠ .sub := by
        intro hsub
        rw [hop hsub] at hm
        cases hm
      have hends : (Lexeme.operator op).endsOperand = true := by
        simpa [Lexeme.endsOperand] using hne
      rw [hends]
      rfl
  | minus hm =>
    rw [hm]
    rfl
  | numeral hx => cases minusLeads p <;> rfl
  | opening => cases minusLeads p <;> rfl
  | closing => cases minusLeads p <;> rfl

/-- The same for a line: what is missing at its end counts, too. -/
theorem countP_ofLexemes {stuck : Option Char} {ls : List Lexeme} :
    ∀ {p : Option Token} {previous : Option Lexeme} {ts : List Token},
      minusLeads p = wantsOperand previous → TokenStream.ofLexemes stuck p ls = ⟨ts, none⟩ →
      ts.countP Token.isOperand + missingOperands previous ls =
        ts.countP Token.isOperator + missingOperators previous ls +
          (wantsOperand previous).toNat := by
  induction ls with
  | nil =>
    intro p previous ts hp h
    rw [TokenStream.ofLexemes] at h
    injection h with ht _
    rw [← ht, missingOperands, missingOperators]
    simp
  | cons l ls ih =>
    intro p previous ts hp h
    obtain ⟨us, vs, hl, hv, rfl⟩ := TokenStream.of_ofLexemes_cons h
    have hus := countP_of_reads hp hl
    have hvs := ih (minusLeads_of_reads hl) hv
    rw [List.countP_append, List.countP_append, missingOperands, missingOperators]
    omega

theorem countP_withoutParens {q : Token → Bool} (hq : ∀ t, q t → t.isParen = false)
    (ts : List Token) : (withoutParens ts).countP q = ts.countP q := by
  rw [withoutParens, List.countP_filter]
  refine List.countP_congr fun t _ => ?_
  cases h : q t with
  | false => simp
  | true => simp [hq t h]

/-- If tokens in postfix order run to one value, the line has as many operands missing as
operators. -/
theorem missingOperands_eq {stuck : Option Char} {ls : List Lexeme} {ts p : List Token}
    {scope : Bindings} {x : Float} (hts : TokenStream.ofLexemes stuck none ls = ⟨ts, none⟩)
    (hp : toPostfix ts = .ok p) (hx : StackMachine.run scope p = .ok x) :
    missingOperands none ls = missingOperators none ls := by
  have hstart : minusLeads none = wantsOperand none := rfl
  have hline := countP_ofLexemes hstart hts
  have hrun := StackMachine.feedAll_length (StackMachine.run_eq_ok_iff.mp hx)
  have hperm := toPostfix_perm hp
  rw [hperm.countP_eq, hperm.countP_eq,
    countP_withoutParens (q := Token.isOperator) fun t => Token.isParen_of_isOperator,
    countP_withoutParens (q := Token.isOperand) fun t => Token.isParen_of_isOperand] at hrun
  have hwants : (wantsOperand none).toNat = 1 := rfl
  have hone : [x].length = 1 := rfl
  have hnil : ([] : List Float).length = 0 := rfl
  omega

/-! ## Texts that have a value -/

theorem literal_of_ofLexemes {stuck : Option Char} {ls : List Lexeme} :
    ∀ {p : Option Token} {ts : List Token}, TokenStream.ofLexemes stuck p ls = ⟨ts, none⟩ →
      ∀ ds, .numeral ds ∈ ls → ∃ x, Number.literal ds = .ok x := by
  induction ls with
  | nil =>
    intro p ts h ds hds
    cases hds
  | cons l ls ih =>
    intro p ts h ds hds
    obtain ⟨us, vs, hl, hv, rfl⟩ := TokenStream.of_ofLexemes_cons h
    rcases List.mem_cons.mp hds with rfl | hds
    · cases hl with
      | numeral hx => exact ⟨_, hx⟩
    · exact ih hv ds hds

/-- The text is read as the lexemes, balanced and with as many operands missing as operators, and
its tokens in postfix order are those of the tree, up to their marks. -/
structure Arranges (text : String) (ls : List Lexeme) (e : Expr) : Prop where
  spells : Spells ls text.toList
  numerals : ∀ ds, .numeral ds ∈ ls → ∃ x, Number.literal ds = .ok x
  balanced : Balanced (ls.filterMap Lexeme.side?)
  missing : missingOperands none ls = missingOperators none ls
  order : ∃ p, readPostfix text = .ok p ∧ p.map Token.item = e.postorder.map Token.item

theorem Arranges.sentence_iff {text : String} {ls : List Lexeme} {e : Expr}
    (h : Arranges text ls e) : Sentence ls ↔ missingOperators none ls = 0 := by
  rw [Calculator.sentence_iff, h.missing]
  constructor
  · rintro ⟨-, -, -, hm⟩
    exact hm
  · exact fun hm => ⟨h.numerals, h.balanced, hm, hm⟩

theorem not_arranges_of_readPostfix {text : String} {stop : Stop}
    (h : readPostfix text = .error stop) {ls : List Lexeme} {e : Expr} :
    ¬ Arranges text ls e := by
  intro ha
  obtain ⟨p, hp, -⟩ := ha.order
  rw [h] at hp
  cases hp

theorem run_eq_ok_iff_arranges {text : String} {p : List Token} {scope : Bindings} {x : Float}
    (h : readPostfix text = .ok p) :
    StackMachine.run scope p = .ok x ↔ ∃ ls e, Arranges text ls e ∧ e.value scope = .ok x := by
  obtain ⟨ts, hall, hp⟩ := readPostfix_eq_ok h
  have hts := TokenStream.isLexed_of_all hall
  have hlexed : ∀ t ∈ p, t.IsLexed := fun t ht => hts t (isParen_of_mem_toPostfix hp t ht).2
  rw [StackMachine.run_eq_ok_iff_exists_tree hlexed]
  constructor
  · rintro ⟨e, hi, he⟩
    have hrun : StackMachine.run scope p = .ok x :=
      (StackMachine.run_eq_ok_iff_exists_tree hlexed).mpr ⟨e, hi, he⟩
    obtain ⟨ls, hs, hls⟩ := exists_lexemes_of_all hall
    refine ⟨ls, e, ⟨hs, literal_of_ofLexemes hls, ?_, missingOperands_eq hls hp hrun,
      p, h, hi⟩, he⟩
    rw [← TokenStream.filterMap_side?_ofLexemes hls]
    exact balanced_of_toPostfix (fun t ht => (hts t ht).binds) hp
  · rintro ⟨ls, e, ha, he⟩
    obtain ⟨p', hp', hi⟩ := ha.order
    rw [h] at hp'
    cases hp'
    exact ⟨e, hi, he⟩

theorem readPostfix_empty : readPostfix "" = .ok [] := by
  have hs : scan "".toList = ([], none) := by
    rw [String.toList_empty, scan]
  rw [readPostfix, TokenStream.ofLine, hs]
  rfl

/-- A text has a value exactly if it arranges a tree with this value, and it is then a sentence of
the grammar exactly if no operator is missing between operands. Every other text that is read to its
end has an error. -/
theorem evaluate_eq_ok_iff_arranges (expression : String) (known : Bindings)
    (precision : Int) :
    ∃ (scope : Bindings) (outcome : Except Fault (Except Error Float)),
      scopeOf known.definitions = .ok scope ∧
      evaluate expression known.definitions precision =
        outcome.map (fun o => ⟨Text.trim expression, o, precision⟩) ∧
      (∀ x, outcome = .ok (.ok x) ↔
        ∃ ls e, Arranges (Text.trim expression) ls e ∧ e.value scope = .ok x) ∧
      (∀ ls e, Arranges (Text.trim expression) ls e →
        (Sentence ls ↔ missingOperators none ls = 0)) ∧
      ((TokenStream.ofLine (Text.trim expression)).failure = none →
        (∃ x, outcome = .ok (.ok x)) ∨ ∃ e, outcome = .ok (.error e)) := by
  obtain ⟨scope, hscope⟩ := exists_scopeOf known
  have hsentence : ∀ ls e, Arranges (Text.trim expression) ls e →
      (Sentence ls ↔ missingOperators none ls = 0) := fun ls e h => h.sentence_iff
  by_cases ht : Text.trim expression = ""
  · refine ⟨scope, .ok (.error .emptyExpression), hscope, evaluate_of_trim_eq_empty ht _ _,
      fun x => ?_, hsentence, fun _ => .inr ⟨_, rfl⟩⟩
    rw [ht, ← run_eq_ok_iff_arranges readPostfix_empty]
    constructor <;> intro h <;> cases h
  · rcases readPostfix_cases (Text.trim expression) with ⟨p, hp, hlexed, -⟩ | ⟨e, he, -, -⟩ |
      ⟨numeral, hn⟩
    · obtain ⟨outcome, ho, -⟩ := runPostfix_cases scope hlexed
      refine ⟨scope, .ok outcome, hscope, evaluate_of_readPostfix ht hp hscope ho precision,
        fun x => ?_, hsentence, fun _ => ?_⟩
      · rw [← run_eq_ok_iff_arranges hp, ← runPostfix_eq_ok_iff, ho]
      · cases outcome with
        | ok x => exact .inl ⟨x, rfl⟩
        | error e => exact .inr ⟨e, rfl⟩
    · refine ⟨scope, .ok (.error e), hscope, evaluate_of_malformed ht he _ precision, fun x => ?_,
        hsentence, fun _ => .inr ⟨e, rfl⟩⟩
      refine iff_of_false (fun h => by cases h) ?_
      rintro ⟨ls, e', ha, -⟩
      exact not_arranges_of_readPostfix he ha
    · refine ⟨scope, .error (.tooLong numeral), hscope, evaluate_of_stopsAtNumeral hn _ precision,
        fun x => ?_, hsentence, fun hread => (by cases hread.symm.trans hn)⟩
      refine iff_of_false (fun h => by cases h) ?_
      rintro ⟨ls, e', ha, -⟩
      exact not_arranges_of_readPostfix (readPostfix_of_failure hn) ha

/-- Two numbers with their operator behind them have a value, and are no sentence. -/
theorem evaluate_operator_behind_operands :
    evaluate "2 3 +" ({} : Bindings).definitions 4 = .ok ⟨"2 3 +", .ok 5, 4⟩ ∧
      ∃ ls, scan "2 3 +".toList = (ls, none) ∧ ¬ Sentence ls := by
  have hvalue : evaluate "2 3 +" ({} : Bindings).definitions 4 = .ok ⟨"2 3 +", .ok 5, 4⟩ := by
    with_unfolding_all rfl
  refine ⟨hvalue, [.numeral ['2'], .numeral ['3'], .operator .add], by decide +kernel, ?_⟩
  intro h
  have hm : missingOperators none [.numeral ['2'], .numeral ['3'], .operator .add] = 0 :=
    (sentence_iff.mp h).2.2.2
  exact absurd hm (by decide)

end Calculator
