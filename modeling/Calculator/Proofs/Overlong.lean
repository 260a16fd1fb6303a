import Calculator.Proofs.Literals

/-!
# When an evaluation has no result

An evaluation ends without a result at a numeral that is too long, and where a definition stands for
no float. The second shows only once the scope is built.

* `evaluate_of_isTooLong`: a numeral that is too long, by itself.
* `evaluate_eq_error_iff`: when there is no result, and which errors a result can have.
-/
set_option autoImplicit false

namespace Calculator

open Calculator.Text

theorem not_stopsAtNumeral_of_readsBalanced {text : String} (h : ReadsBalanced text)
    (numeral : String) : ¬ StopsAtNumeral text numeral :=
  fun hn => not_readsBalanced_of_failure hn h

/-- The value of a text has a fault exactly if its reading stops at a numeral that is too long, or if
it is read to its end with balanced brackets and a definition has no float. -/
theorem valueOf_eq_error_iff (text : String) (ds : Definitions) (fault : Fault) :
    valueOf text ds = .error fault ↔
      (ReadsBalanced text ∧ ∃ f, FirstRefused ds f ∧ fault = .scope f) ∨
        ∃ numeral, StopsAtNumeral text numeral ∧ fault = .tooLong numeral := by
  constructor
  · intro h
    rcases valueOf_cases text ds with ⟨numeral, hn, hv⟩ | ⟨f, hv, hread, hf⟩ | ⟨outcome, hv, -⟩
    · exact .inr ⟨numeral, hn, Except.error.inj (h.symm.trans hv)⟩
    · exact .inl ⟨hread, f, hf, Except.error.inj (h.symm.trans hv)⟩
    · cases h.symm.trans hv
  · rintro (⟨hread, f, hf, rfl⟩ | ⟨numeral, hn, rfl⟩)
    · rcases valueOf_cases text ds with ⟨numeral, hn, -⟩ | ⟨f', hv, -, hf'⟩ | ⟨outcome, -, -, hnone⟩
      · exact absurd hn (not_stopsAtNumeral_of_readsBalanced hread numeral)
      · rw [← scopeOf_eq_error_iff] at hf hf'
        rw [hv, Except.error.inj (hf.symm.trans hf')]
      · exact absurd hf (hnone hread f)
    · exact valueOf_of_tooLong (readPostfix_of_failure hn) ds

theorem evaluate_eq_error_iff_valueOf {expression : String} (ht : trim expression ≠ "")
    (ds : Definitions) (precision : Int) (fault : Fault) :
    evaluate expression ds precision = .error fault ↔
      valueOf (trim expression) ds = .error fault := by
  rw [evaluate_of_trim_ne_empty ht]
  cases valueOf (trim expression) ds with
  | error fault' => simp [Except.map]
  | ok outcome => exact iff_of_false (fun h => by cases h) fun h => by cases h

/-- A result belongs to the trimmed text, and carries a value or an error of one of five kinds. -/
theorem evaluate_eq_ok {expression : String} {ds : Definitions} {precision : Int} {r : Result}
    (h : evaluate expression ds precision = .ok r) :
    r.expression = trim expression ∧ r.precision = precision ∧
      ((∃ x, r.outcome = .ok x) ∨ ∃ e, r.outcome = .error e ∧
        e.kind ∈ [ErrorKind.malformed, .semantic, .domain, .numeric, .empty]) := by
  by_cases ht : trim expression = ""
  · rw [evaluate_of_trim_eq_empty ht] at h
    cases h
    exact ⟨rfl, rfl, .inr ⟨_, rfl, by decide⟩⟩
  · rw [evaluate_of_trim_ne_empty ht] at h
    rcases valueOf_cases (trim expression) ds with ⟨numeral, -, hv⟩ | ⟨f, hv, -⟩ |
      ⟨outcome, hv, hkind, -⟩
    · rw [hv] at h
      cases h
    · rw [hv] at h
      cases h
    · rw [hv] at h
      cases h
      refine ⟨rfl, rfl, ?_⟩
      cases outcome with
      | ok x => exact .inl ⟨x, rfl⟩
      | error e => exact .inr ⟨e, rfl, hkind e rfl⟩

theorem trim_numeral {digits : List Char} (hw : (Lexeme.numeral digits).IsWord) :
    trim (String.ofList digits) = String.ofList digits := by
  refine trim_eq_self fun c hc => ?_
  rw [String.toList_ofList] at hc
  exact isMargin_of_isNumeralChar (hw.2 c hc)

theorem stopsAtNumeral_numeral {digits : List Char} (hw : (Lexeme.numeral digits).IsWord)
    (h : Number.IsTooLong digits) :
    StopsAtNumeral (trim (String.ofList digits)) (String.ofList digits) := by
  rw [trim_numeral hw]
  exact stopsAtNumeral_iff.mpr ⟨[], digits, meets_ofList hw, h, rfl⟩

/-- A numeral that is too long has no result, whatever the definitions. -/
theorem evaluate_of_isTooLong {digits : List Char} (hw : (Lexeme.numeral digits).IsWord)
    (h : Number.IsTooLong digits) (ds : Definitions) (precision : Int) :
    evaluate (String.ofList digits) ds precision = .error (.tooLong (String.ofList digits)) :=
  evaluate_of_stopsAtNumeral (stopsAtNumeral_numeral hw h) ds precision

/-- An evaluation ends without a result in two cases. The trimmed text is not empty, is read to its
end with balanced brackets, and a definition has no float; the fault is that of the first such
definition. Or the reading of the text stops at a numeral that is too long. Otherwise there is a
value, or an error of one of five kinds. -/
theorem evaluate_eq_error_iff (expression : String) (ds : Definitions) (precision : Int) :
    (∀ fault, evaluate expression ds precision = .error fault ↔
      (trim expression ≠ "" ∧ ReadsBalanced (trim expression) ∧
        ∃ f, FirstRefused ds f ∧ fault = .scope f) ∨
      ∃ ls digits, Meets (trim expression) ls digits ∧ Number.IsTooLong digits ∧
        fault = .tooLong (String.ofList digits)) ∧
    ∀ r, evaluate expression ds precision = .ok r →
      r.expression = trim expression ∧ r.precision = precision ∧
        ((∃ x, r.outcome = .ok x) ∨
          ∃ e, r.outcome = .error e ∧
            e.kind ∈ [ErrorKind.malformed, .semantic, .domain, .numeric, .empty]) := by
  refine ⟨fun fault => ?_, fun r => evaluate_eq_ok⟩
  have hstops : (∃ numeral, StopsAtNumeral (trim expression) numeral ∧ fault = .tooLong numeral) ↔
      ∃ ls digits, Meets (trim expression) ls digits ∧ Number.IsTooLong digits ∧
        fault = .tooLong (String.ofList digits) := by
    constructor
    · rintro ⟨numeral, hn, rfl⟩
      obtain ⟨ls, digits, hm, hlong, rfl⟩ := stopsAtNumeral_iff.mp hn
      exact ⟨ls, digits, hm, hlong, rfl⟩
    · rintro ⟨ls, digits, hm, hlong, rfl⟩
      exact ⟨_, stopsAtNumeral_iff.mpr ⟨ls, digits, hm, hlong, rfl⟩, rfl⟩
  rw [← hstops]
  by_cases ht : trim expression = ""
  · rw [evaluate_of_trim_eq_empty ht]
    refine iff_of_false (fun h => by cases h) ?_
    rintro (⟨hne, -⟩ | ⟨numeral, hn, -⟩)
    · exact hne ht
    · exact trim_ne_empty_of_stopsAtNumeral hn ht
  · rw [evaluate_eq_error_iff_valueOf ht, valueOf_eq_error_iff]
    exact or_congr_left (and_iff_right ht).symm

/-- A number of value one, with no definitions at all. -/
theorem evaluate_overlong :
    evaluate (String.ofList Number.overlongOne) [] 4 =
        .error (.tooLong (String.ofList Number.overlongOne)) ∧
      (∀ f, ¬ FirstRefused [] f) ∧ Number.decimalValue Number.overlongOne = 1 := by
  refine ⟨evaluate_of_isTooLong isWord_overlongOne Number.isTooLong_overlongOne [] 4, fun f hf => ?_,
    Number.decimalValue_oneWithPlaces _⟩
  rw [← scopeOf_eq_error_iff] at hf
  cases hf

end Calculator
