import Calculator.Proofs.Faults

/-!
# Names that an expression mentions

The machine looks up the names among its tokens and no other. Two scopes in which these have the
same values, or none, cannot be told apart by an evaluation.

* `Token.name?`, `mentionedNames`: the name of a token, and the names of a text.
* `StackMachine.run_of_find?_eq`: runs of tokens in two scopes.
* `evaluate_of_find?_eq`: evaluations of a text in two scopes.
-/
set_option autoImplicit false

namespace Calculator

/-- The name that a token looks up. -/
def Token.name? (t : Token) : Option String :=
  match t.item with
  | .identifier name => some name
  | _ => none

/-- The names that an expression looks up. -/
def mentionedNames (expression : String) : List String :=
  (TokenStream.ofLine (Text.trim expression)).tokens.filterMap Token.name?

namespace StackMachine

theorem feed_of_find?_eq {scope scope' : Bindings} {t : Token}
    (h : ∀ name ∈ t.name?, scope.find? name = scope'.find? name) (stack : List Float) :
    feed scope stack t = feed scope' stack t := by
  obtain ⟨item, unary⟩ := t
  cases item with
  | identifier name =>
    have hname : load scope name = load scope' name := by
      rw [load, load, h name rfl]
    exact congrArg (push stack) hname
  | number x => rfl
  | function name => rfl
  | operator symbol => rfl
  | paren mark => rfl

theorem feedAll_of_find?_eq {scope scope' : Bindings} {ts : List Token}
    (h : ∀ name ∈ ts.filterMap Token.name?, scope.find? name = scope'.find? name) :
    ∀ stack, feedAll scope stack ts = feedAll scope' stack ts := by
  induction ts with
  | nil => exact fun stack => rfl
  | cons t ts ih =>
    intro stack
    have ht : ∀ name ∈ t.name?, scope.find? name = scope'.find? name :=
      fun name hn => h name (List.mem_filterMap.mpr ⟨t, List.mem_cons_self, hn⟩)
    have hts : ∀ name ∈ ts.filterMap Token.name?, scope.find? name = scope'.find? name := by
      intro name hn
      obtain ⟨u, hu, hun⟩ := List.mem_filterMap.mp hn
      exact h name (List.mem_filterMap.mpr ⟨u, List.mem_cons_of_mem t hu, hun⟩)
    rw [feedAll_cons, feedAll_cons, feed_of_find?_eq ht]
    exact congrArg _ (funext (ih hts))

theorem run_of_find?_eq {scope scope' : Bindings} {ts : List Token}
    (h : ∀ name ∈ ts.filterMap Token.name?, scope.find? name = scope'.find? name) :
    run scope ts = run scope' ts := by
  rw [run_eq, run_eq, feedAll_of_find?_eq h]

end StackMachine

theorem mem_mentionedNames_of_readPostfix {expression : String} {p : List Token}
    (hp : readPostfix (Text.trim expression) = .ok p) :
    ∀ name ∈ p.filterMap Token.name?, name ∈ mentionedNames expression := by
  intro name hn
  obtain ⟨t, ht, htn⟩ := List.mem_filterMap.mp hn
  exact List.mem_filterMap.mpr ⟨t, mem_of_readPostfix hp t ht, htn⟩

/-- An evaluation is the same in two scopes that agree on the names of the expression. -/
theorem evaluate_of_find?_eq {expression : String} {ds ds' : Definitions} {scope scope' : Bindings}
    (hs : scopeOf ds = .ok scope) (hs' : scopeOf ds' = .ok scope')
    (h : ∀ name ∈ mentionedNames expression, scope.find? name = scope'.find? name)
    (precision : Int) : evaluate expression ds precision = evaluate expression ds' precision := by
  by_cases ht : Text.trim expression = ""
  · rw [evaluate_of_trim_eq_empty ht, evaluate_of_trim_eq_empty ht]
  · rcases readPostfix_cases (Text.trim expression) with ⟨p, hp, hlexed, -⟩ | ⟨e, he, -, -⟩ |
      ⟨numeral, hn⟩
    · obtain ⟨outcome, ho, -⟩ := runPostfix_cases scope hlexed
      have hrun : runPostfix scope p = runPostfix scope' p := by
        rw [runPostfix, runPostfix, StackMachine.run_of_find?_eq fun name hn =>
          h name (mem_mentionedNames_of_readPostfix hp name hn)]
      rw [evaluate_of_readPostfix ht hp hs ho,
        evaluate_of_readPostfix ht hp hs' (hrun.symm.trans ho)]
    · rw [evaluate_of_malformed ht he, evaluate_of_malformed ht he]
    · rw [evaluate_of_stopsAtNumeral hn, evaluate_of_stopsAtNumeral hn]

end Calculator
