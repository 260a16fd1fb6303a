import Calculator.Proofs.Mentioned
import Calculator.Proofs.Numerals
import Calculator.Proofs.Turns

/-!
# Entries that are evaluated again

A complete expression stays complete, whatever becomes of the variables: evaluated again, it has a
value, or it has an error that depends on values. It has the same value where its names have.

* `RequestsEntry`, `requestsEntry_toString`: the lines that ask for an entry to be evaluated again.
* `kind_of_isComplete`: the errors of a complete expression.
* `Registers.Kept.evaluate_of_get?_eq`: variables that agree on the names of an expression.
* `answer_again`: what comes of the entries of a reachable session.
-/
set_option autoImplicit false

namespace Calculator

open Calculator.Text

/-! ## Lines -/

/-- The line asks for the entry with the given number to be evaluated again. -/
def RequestsEntry (line : String) (n : Nat) : Prop :=
  ∃ text, Request.ofLine line = .command .recallEntry text ∧ Number.integer? text = some (n : Int)

theorem requestsEntry_toString {n : Nat} (h : (toString n).length ≤ Number.mostDigits) :
    RequestsEntry (":recall " ++ toString n) n := by
  have htrim : trim (toString n) = toString n :=
    trim_eq_self fun c hc => isMargin_of_isDigit (Number.isDigit_of_mem_toString c hc)
  have hline : Request.ofLine (":recall " ++ toString n) = .command .recallEntry (toString n) := by
    have hcommand := ofLine_command .recallEntry (toString n)
    rwa [htrim] at hcommand
  exact ⟨toString n, hline, Number.integer?_toString h⟩

/-! ## Complete expressions -/

theorem kind_of_isComplete {text : String} (h : IsComplete text) {ds : Definitions} {r : Result}
    {e : Error} {precision : Int} (hr : evaluate text ds precision = .ok r)
    (he : r.outcome = .error e) : e.kind ∈ StackMachine.valueKinds := by
  obtain ⟨htrim, hne, p, hp, hdepth⟩ := h
  have hlexed : ∀ t ∈ p, t.IsLexed := isLexed_of_readPostfix hp
  rw [← htrim] at hp hne
  cases hs : scopeOf ds with
  | error fault =>
    rw [evaluate_of_trim_ne_empty hne, valueOf_of_readPostfix hp, hs] at hr
    cases hr
  | ok scope =>
    cases hrun : StackMachine.run scope p with
    | ok x =>
      rw [evaluate_of_readPostfix hne hp hs (runPostfix_of_run_eq_ok hrun)] at hr
      rw [← Except.ok.inj hr] at he
      cases he
    | error halt =>
      obtain ⟨e', hc, hk⟩ := StackMachine.run_error_cases hlexed hrun
      have ho : runPostfix scope p = .ok (.error e') := by
        rw [runPostfix_of_run_eq_error hrun, hc]
        rfl
      rw [evaluate_of_readPostfix hne hp hs ho] at hr
      rw [← Except.ok.inj hr] at he
      rw [← Except.error.inj he]
      -- The number of values does not depend on the scope.
      exact hk.resolve_right fun hm => hm.2 hdepth

/-! ## Variables -/

/-- Variables that agree on the names of an expression give it the same result. -/
theorem Registers.Kept.evaluate_of_get?_eq {r r' : Registers} (hr : r.Kept) (hr' : r'.Kept)
    {expression : String} (h : ∀ name ∈ mentionedNames expression, r.get? name = r'.get? name)
    (precision : Int) :
    evaluate expression r.definitions precision = evaluate expression r'.definitions precision := by
  refine evaluate_of_find?_eq hr.scopeOf_definitions hr'.scopeOf_definitions (fun name hn => ?_)
    precision
  rw [Bindings.find?_append, Bindings.find?_append]
  exact congrArg (constants.find? name).or (h name hn)

namespace Session

theorem remembers_of_madeWith {s : Session} (hs : s.Reachable) {r : Registers} (hr : r.Kept)
    {e : Entry} {precision : Int} (he : e.MadeWith precision r)
    (h : ∀ name ∈ mentionedNames e.expression, r.get? name = s.registers.get? name) :
    s.Remembers precision e (s.calculate precision e.expression) := by
  have htrim : trim e.expression = e.expression := he.isComplete.1
  obtain ⟨x, hv, hx⟩ := he
  have hv' : evaluate e.expression s.registers.definitions precision =
      .ok ⟨trim e.expression, .ok x, precision⟩ := by
    rw [htrim, ← hr.evaluate_of_get?_eq hs.kept h, hv]
  have hrem := calculate_of_value hv' hx
  rwa [htrim] at hrem

/-- What comes of an entry that is evaluated again: a result, or an error that depends on values. If
the names of the entry have the values that they had when it was made, the entry comes again. -/
structure Repeats (precision : Int) (s : Session) (e : Entry) (t : Turn) : Prop where
  outcome : (∃ result, s.Remembers precision ⟨e.expression, result⟩ t) ∨
    ∃ err, s.Complains precision e.expression err t ∧ err.kind ∈ [.semantic, .domain, .numeric]
  same : ∀ s₀ : Session, s₀.Reachable → s₀.Makes precision e →
    (∀ name ∈ mentionedNames e.expression, s₀.registers.get? name = s.registers.get? name) →
      s.Remembers precision e t

theorem repeats_calculate {s : Session} (hs : s.Reachable) {precision : Int} (h0 : 0 ≤ precision)
    (h1 : precision ≤ mostPlaces) {e : Entry} (he : e ∈ s.history.entries) :
    s.Repeats precision e (s.calculate precision e.expression) := by
  have hcomplete := hs.isComplete e he
  constructor
  · rcases (evaluates_of_isComplete h0 h1 s hcomplete).2 with ⟨result, h⟩ | ⟨err, h⟩
    · rw [hcomplete.1] at h
      exact .inl ⟨result, h⟩
    · exact .inr ⟨err, h, kind_of_isComplete hcomplete h.outcome rfl⟩
  · intro s₀ hs₀ hmakes hnames
    exact remembers_of_madeWith hs hs₀.kept hmakes.madeWith hnames

/-- The expressions in a history are complete, and each was put there by a line. A line that asks
for an entry to be evaluated again does so. -/
theorem answer_again {s : Session} (hs : s.Reachable) :
    (∀ e ∈ s.history.entries, IsComplete e.expression ∧
      ∃ (s₀ : Session) (precision : Int), s₀.Reachable ∧ s₀.Makes precision e) ∧
    (∀ n : Nat, (toString n).length ≤ Number.mostDigits →
      RequestsEntry (":recall " ++ toString n) n) ∧
    ∀ precision : Int, 0 ≤ precision → precision ≤ mostPlaces →
      ∀ i < s.history.size, ∀ line, RequestsEntry line (i + 1) →
        ∃ e, s.history.entries[i]? = some e ∧ s.Repeats precision e (s.answer precision line) := by
  refine ⟨fun e he => ⟨hs.isComplete e he, hs.exists_makes e he⟩,
    fun n hn => requestsEntry_toString hn, ?_⟩
  intro precision h0 h1 i hi line hline
  obtain ⟨text, htext, hnumber⟩ := hline
  obtain ⟨e, he⟩ : ∃ e, s.history.entries[i]? = some e := ⟨_, List.getElem?_eq_getElem hi⟩
  have hanswer : s.answer precision line = s.calculate precision e.expression := by
    rw [answer, htext]
    exact recallEntry_of_numbers ⟨hnumber, hi⟩ he precision
  rw [hanswer]
  exact ⟨e, he, repeats_calculate hs h0 h1 (List.mem_of_getElem? he)⟩

/-- A quotient, evaluated again after its variable was forgotten and kept anew. -/
theorem answer_again_quotient : ∃ s : Session, s.Reachable ∧
    s.history.entries = [⟨"6/x", "3.0000"⟩] ∧
      s.Remembers 4 ⟨"6/x", "3.0000"⟩ (s.answer 4 ":recall 1") := by
  have hreachable : ∀ lines, (eachLine (answer 4) {} lines).session.Reachable :=
    fun lines => Reachable.eachLine (fun line h => h.line 4 line) lines .start
  have hs := hreachable [":let x 2", "6/x", ":unlet x", ":let X = 2"]
  have hs₀ := hreachable [":let x 2"]
  have hentries : (eachLine (answer 4) {} [":let x 2", "6/x", ":unlet x",
      ":let X = 2"]).session.history.entries = [⟨"6/x", "3.0000"⟩] := by decide +kernel
  obtain ⟨e, he, hrepeats⟩ := (answer_again hs).2.2 4 (by decide) (by decide) 0
    (by rw [History.size, hentries]; decide) ":recall 1" ⟨"1", by decide, by decide⟩
  rw [hentries] at he
  cases he
  refine ⟨_, hs, hentries, hrepeats.same _ hs₀ ⟨"6/x", by decide +kernel⟩ ?_⟩
  have hnames : mentionedNames "6/x" = ["x"] := by decide +kernel
  intro name hn
  rw [hnames, List.mem_singleton] at hn
  rw [hn]
  decide +kernel

end Session

end Calculator
