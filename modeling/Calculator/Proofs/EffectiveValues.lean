import Calculator.Proofs.LetterCase
import Calculator.Proofs.Mentioned

/-!
# What an expression sees of a scope

Names may be bound more than once, in letters of either case. An expression sees one value of each
name that it mentions, and nothing else.

* `Bindings.effectiveValue`: what a name is worth: the last value that is bound to a spelling of it,
  or else the constant.
* `exists_scopeOf_effective`: the scope holds the effective values.
* `evaluate_of_effectiveValue_eq`: bindings that agree on what the names of an expression are worth
  give it the same outcome, and so do texts that differ in the case of letters.
-/
set_option autoImplicit false

namespace Calculator

open Calculator.Text

/-- What a name in small letters is worth: the value of the last pair whose name is a spelling of
it, or else the constant with this name. -/
def Bindings.effectiveValue (b : Bindings) (name : String) : Option Float :=
  match b.pairs.findRev? (fun p => toLower p.1 = name) with
  | some p => some p.2
  | none => constants.find? name

theorem effectiveValue_append_singleton (pairs : List (String × Float)) (p : String × Float)
    (n : String) : (⟨pairs ++ [p]⟩ : Bindings).effectiveValue n =
      if n = toLower p.1 then some p.2 else (⟨pairs⟩ : Bindings).effectiveValue n := by
  by_cases h : n = toLower p.1
  · simp [Bindings.effectiveValue, h]
  · have hne : ¬ toLower p.1 = n := fun he => h he.symm
    simp [Bindings.effectiveValue, h, hne]

/-- The scope of bindings holds their effective values. -/
theorem exists_scopeOf_effective (b : Bindings) :
    ∃ scope, scopeOf b.definitions = .ok scope ∧ ∀ n, scope.find? n = b.effectiveValue n := by
  obtain ⟨pairs⟩ := b
  induction pairs using List.reverseRecOn with
  | nil => exact ⟨constants, rfl, fun n => rfl⟩
  | append_singleton pairs p ih =>
    obtain ⟨scope, hs, hfind⟩ := ih
    obtain ⟨scope', hs', hfind'⟩ := find?_scopeOf_append p.1 p.2 hs
    refine ⟨scope', hs', fun n => ?_⟩
    rw [hfind', hfind, effectiveValue_append_singleton]

/-- An expression has the same outcome with any bindings that agree on what the names it mentions are
worth, and in letters of any case: a value, an error, or the fault of a numeral that is too long. -/
theorem evaluate_of_effectiveValue_eq {text text' : String} {b b' : Bindings}
    (htext : SameLetters text text')
    (h : ∀ name ∈ mentionedNames text, b.effectiveValue name = b'.effectiveValue name)
    (precision : Int) :
    ∃ outcome : Except Fault (Except Error Float),
      evaluate text b.definitions precision =
        outcome.map (fun o => ⟨trim text, o, precision⟩) ∧
      evaluate text' b'.definitions precision =
        outcome.map (fun o => ⟨trim text', o, precision⟩) ∧
      ∀ fault, outcome = .error fault →
        ∃ numeral, fault = .tooLong numeral ∧ StopsAtNumeral (trim text) numeral := by
  obtain ⟨scope, hs, hfind⟩ := exists_scopeOf_effective b
  obtain ⟨scope', hs', hfind'⟩ := exists_scopeOf_effective b'
  have hagree : ∀ name ∈ mentionedNames text, scope.find? name = scope'.find? name := by
    intro name hn
    rw [hfind, hfind', h name hn]
  obtain ⟨outcome, ho, hfault⟩ := exists_evaluate_floats b text precision
  obtain ⟨outcome', ho', -⟩ := exists_evaluate_floats b' text' precision
  have hscopes := evaluate_of_find?_eq hs hs' hagree precision
  have hcase := htext.outcome b'.definitions precision
  rw [← hscopes, ho, ho'] at hcase
  have hsame : outcome = outcome' := by
    cases outcome <;> cases outcome' <;> cases hcase <;> rfl
  exact ⟨outcome, ho, hsame ▸ ho', hfault⟩

/-- Names that are bound more than once, in other letters and beside other names. -/
theorem evaluate_of_effectiveValue_eq_rate : ∃ outcome,
    evaluate " Rate*pi+x " [("X", .real 1), ("rate", .real 2), ("x", .real 3), ("y", .real 9)] 4 =
      .ok ⟨"Rate*pi+x", outcome, 4⟩ ∧
    evaluate " rATE*PI+X " [("x", .real 3), ("Y", .real 5), ("RATE", .real 2)] 4 =
      .ok ⟨"rATE*PI+X", outcome, 4⟩ := by
  have hnames : mentionedNames " Rate*pi+x " = ["rate", "pi", "x"] := by decide +kernel
  have h : ∀ name ∈ mentionedNames " Rate*pi+x ",
      (⟨[("X", 1), ("rate", 2), ("x", 3), ("y", 9)]⟩ : Bindings).effectiveValue name =
        (⟨[("x", 3), ("Y", 5), ("RATE", 2)]⟩ : Bindings).effectiveValue name := by
    rw [hnames]
    decide +kernel
  have htrim : trim " Rate*pi+x " = "Rate*pi+x" := by decide +kernel
  have htrim' : trim " rATE*PI+X " = "rATE*PI+X" := by decide +kernel
  have hletters : SameLetters " Rate*pi+x " " rATE*PI+X " := by decide +kernel
  obtain ⟨outcome, ho, ho', hfault⟩ := evaluate_of_effectiveValue_eq hletters h 4
  rw [htrim] at ho hfault
  rw [htrim'] at ho'
  cases outcome with
  | ok outcome => exact ⟨outcome, ho, ho'⟩
  | error fault =>
    obtain ⟨numeral, -, hn⟩ := hfault fault rfl
    have hread : (TokenStream.ofLine "Rate*pi+x").failure = none := by decide +kernel
    cases hread.symm.trans hn

end Calculator
