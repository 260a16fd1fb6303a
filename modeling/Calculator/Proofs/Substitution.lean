import Calculator.Proofs.Faults
import Calculator.Proofs.ReplacedOrder

/-!
# Substitution

A name of a text may be replaced by an expression with a value, or bound to this value.

* `readPostfix_replaceName`: the postfix order of a replaced text.
* `evaluate_replaceName`: the substitution law.
-/
set_option autoImplicit false

namespace Calculator

open Calculator.Text

theorem TokenStream.all_flatMap (f : Token → List Token) (s : TokenStream) :
    (s.flatMap f).all = s.all.map (·.flatMap f) := by
  obtain ⟨tokens, failure⟩ := s
  cases failure <;> rfl

theorem binds_replaceToken {name : String} {us ts : List Token} (hus : ∀ t ∈ us, t.IsLexed)
    (hts : ∀ t ∈ ts, t.IsLexed) :
    ∀ t ∈ ts.flatMap (replaceToken name (.opening :: (us ++ [.closing]))), t.Binds := by
  intro t ht
  obtain ⟨u, hu, ht⟩ := List.mem_flatMap.mp ht
  rw [replaceToken] at ht
  split at ht
  · rcases List.mem_cons.mp ht with rfl | ht
    · exact Token.IsLexed.opening.binds
    · rcases List.mem_append.mp ht with ht | ht
      · exact (hus t ht).binds
      · rw [List.mem_singleton.mp ht]
        exact Token.IsLexed.closing.binds
  · rw [List.mem_singleton.mp ht]
    exact (hts u hu).binds

theorem toPostfix_replaceToken {name : String} {us ts p : List Token} (hp : toPostfix us = .ok p)
    (hus : ∀ t ∈ us, t.IsLexed) (hts : ∀ t ∈ ts, t.IsLexed) (hf : FunctionsApplied ts) :
    toPostfix (ts.flatMap (replaceToken name (.opening :: (us ++ [.closing])))) =
      (toPostfix ts).map (·.flatMap (replaceToken name p)) := by
  have hbalance : Balanced (us.filterMap Token.side?) :=
    balanced_of_toPostfix (fun t ht => (hus t ht).binds) hp
  have hts' : ∀ t ∈ ts, t.Binds := fun t ht => (hts t ht).binds
  by_cases hb : Balanced (ts.filterMap Token.side?)
  · obtain ⟨q, hq⟩ := toPostfix_of_balanced hts' hb
    rw [toPostfix_replace hp hf hq, hq]
    rfl
  · have hb' : ¬ Balanced ((ts.flatMap
        (replaceToken name (.opening :: (us ++ [.closing])))).filterMap Token.side?) := by
      rw [balanced_iff, groupsAfter_replace hbalance, ← balanced_iff]
      exact hb
    rw [toPostfix_of_not_balanced hts' hb,
      toPostfix_of_not_balanced (binds_replaceToken hus hts) hb']
    rfl

/-- A replaced text has the replaced order of the text, or the same error. -/
theorem readPostfix_replaceName {x e : String} {p : List Token}
    (hx : Function.ofName? (smallName x.toList) = none) (hp : readPostfix e = .ok p) (s : String)
    (hf : FunctionsApplied (TokenStream.ofLine s).tokens) :
    readPostfix (replaceName x e s) =
      (readPostfix s).map (·.flatMap (replaceToken (smallName x.toList) p)) := by
  obtain ⟨us, hall, hus⟩ := readPostfix_eq_ok hp
  obtain ⟨as, hspells, has⟩ := exists_lexemes_of_all hall
  rw [readPostfix, TokenStream.ofLine_replaceName hx hspells has, TokenStream.all_flatMap,
    readPostfix]
  cases hs : (TokenStream.ofLine s).all with
  | error err => rfl
  | ok ts =>
    rw [TokenStream.all_eq_ok_iff.mp hs] at hf
    exact toPostfix_replaceToken hus (TokenStream.isLexed_of_all hall)
      (TokenStream.isLexed_of_all hs) hf

theorem exists_run_of_evaluate {expression : String} {ds : Definitions} {precision : Int}
    {r : Result} {v : Float} (hr : evaluate expression ds precision = .ok r)
    (hv : r.outcome = .ok v) :
    ∃ p scope, readPostfix (trim expression) = .ok p ∧ scopeOf ds = .ok scope ∧
      StackMachine.run scope p = .ok v := by
  have ht : trim expression ≠ "" := by
    intro ht
    rw [evaluate_of_trim_eq_empty ht] at hr
    cases hr
    cases hv
  rcases readPostfix_cases (trim expression) with ⟨p, hp, hlexed, -⟩ | ⟨e, he, -, -⟩ |
    ⟨numeral, hn⟩
  · rw [evaluate_of_trim_ne_empty ht, valueOf_of_readPostfix hp] at hr
    cases hs : scopeOf ds with
    | error fault =>
      rw [hs] at hr
      cases hr
    | ok scope =>
      obtain ⟨outcome, ho, -⟩ := runPostfix_cases scope hlexed
      simp only [hs, ho] at hr
      cases hr
      cases hv
      exact ⟨p, scope, hp, rfl, runPostfix_eq_ok_iff.mp ho⟩
  · rw [evaluate_of_malformed ht he] at hr
    cases hr
    cases hv
  · rw [evaluate_of_stopsAtNumeral hn] at hr
    cases hr

/-- The substitution law: where every function stands in front of a bracket, a name may be replaced
by an expression between brackets, or be bound to the value of the expression. The outcome, a value
or an error, is the same, whatever else the text holds. If the reading of the text stops at a numeral
that is too long, the fault is the same. -/
theorem evaluate_replaceName {x e : String} {known : Bindings} {q : Int} {r : Result}
    {v : Float} (hx : (Lexeme.name x.toList).IsWord)
    (hf : Function.ofName? (smallName x.toList) = none) (he : trim e = e)
    (hr : evaluate e known.definitions q = .ok r) (hv : r.outcome = .ok v) (s : String)
    (hs : FunctionsApplied (TokenStream.ofLine (trim s)).tokens) (precision : Int) :
    ∃ outcome : Except Fault (Except Error Float),
      evaluate (replaceName x e s) known.definitions precision =
        outcome.map (fun o => ⟨trim (replaceName x e s), o, precision⟩) ∧
      evaluate s (⟨known.pairs ++ [(x, v)]⟩ : Bindings).definitions precision =
        outcome.map (fun o => ⟨trim s, o, precision⟩) ∧
      ∀ fault, outcome = .error fault →
        ∃ numeral, fault = .tooLong numeral ∧ StopsAtNumeral (trim s) numeral := by
  obtain ⟨p, scope, hp, hscope, hrun⟩ := exists_run_of_evaluate hr hv
  obtain ⟨scope', hscope', hfind⟩ := find?_scopeOf_append x v hscope
  rw [he] at hp
  rw [toLower_of_isWord hx] at hfind
  by_cases ht : trim s = ""
  · have ht' : trim (replaceName x e s) = "" := by
      rw [trim_replaceName, ht]
      exact replaceName_eq_empty_iff.mpr rfl
    exact ⟨.ok (.error .emptyExpression), evaluate_of_trim_eq_empty ht' _ _,
      evaluate_of_trim_eq_empty ht _ _, fun fault h => (by cases h)⟩
  · have ht' : trim (replaceName x e s) ≠ "" := by
      rw [trim_replaceName]
      exact fun h => ht (replaceName_eq_empty_iff.mp h)
    have hread := readPostfix_replaceName hf hp (trim s) hs
    rw [← trim_replaceName] at hread
    rcases readPostfix_cases (trim s) with ⟨o, ho, hlexed, -⟩ | ⟨err, herr, -, -⟩ | ⟨numeral, hn⟩
    · rw [ho] at hread
      obtain ⟨outcome, hout, -⟩ := runPostfix_cases scope' hlexed
      have hout' : runPostfix scope (o.flatMap (replaceToken (smallName x.toList) p)) =
          .ok outcome := by
        rw [runPostfix, StackMachine.run_replace hrun hfind]
        exact hout
      exact ⟨.ok outcome, evaluate_of_readPostfix ht' hread hscope hout' precision,
        evaluate_of_readPostfix ht ho hscope' hout precision, fun fault h => (by cases h)⟩
    · rw [herr] at hread
      exact ⟨.ok (.error err), evaluate_of_malformed ht' hread _ precision,
        evaluate_of_malformed ht herr _ precision, fun fault h => (by cases h)⟩
    · rw [readPostfix_of_failure hn] at hread
      refine ⟨.error (.tooLong numeral), evaluate_of_tooLong ht' hread _ precision,
        evaluate_of_stopsAtNumeral hn _ precision, fun fault h => ?_⟩
      exact ⟨numeral, (Except.error.inj h).symm, hn⟩

/-- A sum for a name in either case, as the argument of a function and behind a minus. -/
theorem evaluate_replaceName_sum : ∃ outcome,
    evaluate (replaceName "x" "y+1" "sqrt(X)*-x ") [("y", .real 3)] 4 =
      .ok ⟨trim (replaceName "x" "y+1" "sqrt(X)*-x "), outcome, 4⟩ ∧
    evaluate "sqrt(X)*-x " [("y", .real 3), ("x", .real 4)] 4 =
      .ok ⟨trim "sqrt(X)*-x ", outcome, 4⟩ := by
  have hx : (Lexeme.name "x".toList).IsWord := ⟨'x', [], rfl, by decide, by simp⟩
  have hr : evaluate "y+1" (⟨[("y", 3)]⟩ : Bindings).definitions 4 = .ok ⟨"y+1", .ok 4, 4⟩ := by
    with_unfolding_all rfl
  obtain ⟨outcome, hreplaced, hbound, hfault⟩ := evaluate_replaceName hx (by decide)
    (by decide +kernel) hr rfl "sqrt(X)*-x " (by decide +kernel) 4
  cases outcome with
  | ok outcome => exact ⟨outcome, hreplaced, hbound⟩
  | error fault =>
    obtain ⟨numeral, -, hn⟩ := hfault fault rfl
    have hread : (TokenStream.ofLine (trim "sqrt(X)*-x ")).failure = none := by decide +kernel
    cases hread.symm.trans hn

end Calculator
