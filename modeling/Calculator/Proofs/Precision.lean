import Calculator.Proofs.Assignments

/-!
# Precisions that are accepted

A precision may pass the command line and still be none that a value can be shown with. A run with
such a precision breaks off at the first line that has a value.

* `Result.formatted_of_precision?`: which of the precisions that a text gives a value can be shown
  with.
* `CommandLine.IsAccepted`: the precisions of accepted command lines.
* `Program.BreaksOff`, `Program.run_failure_iff`: which runs fail.
-/
set_option autoImplicit false

namespace Calculator

open CommandLine (Settings precision?)
open Calculator.Text

/-! ## Accepted precisions -/

theorem nonneg_of_precision? {text : String} {k : Int} (h : precision? text = some k) : 0 ≤ k :=
  of_decide_eq_true (Option.filter_eq_some_iff.mp h).2

/-- A value is shown with an accepted precision if it is not above the limit, whatever the value. -/
theorem Result.formatted_of_precision? {text : String} {k : Int} (h : precision? text = some k)
    (expression : String) (x : Float) :
    Result.formatted ⟨expression, .ok x, k⟩ =
      if k ≤ mostPlaces then .ok (some (Number.fixedText k.toNat x))
      else .error (if k ≤ largestPrecision then .tooBig else .tooManyDigits) := by
  rw [Result.formatted]
  show (fixed k x).map some = _
  rw [fixed, placesOf_eq (nonneg_of_precision? h)]
  split <;> rfl

namespace CommandLine

/-- The precisions of accepted command lines: that of a text, or none. -/
def IsAccepted (k : Int) : Prop := k = missingPrecision ∨ ∃ text, precision? text = some k

theorem isAccepted_default : IsAccepted defaultPrecision :=
  .inr ⟨"4", by decide +kernel⟩

theorem Settings.use_isAccepted {o o' : Settings} {u : Use} (h : o.use u = .ok o')
    (ho : IsAccepted o.precision) : IsAccepted o'.precision := by
  obtain ⟨s, values⟩ := u
  cases s with
  | help => cases h
  | precision =>
    cases values with
    | nil =>
      cases h
      exact .inl rfl
    | cons text rest =>
      simp only [Settings.use] at h
      split at h
      · next k hk =>
        cases h
        exact .inr ⟨text, hk⟩
      · cases h
  | prompt => cases values <;> cases h <;> exact ho
  | verbose | assign | expression | grammar | dump =>
    cases h
    exact ho

theorem Settings.isAccepted_precision {arguments : List String} {o : Settings}
    (h : ofArguments arguments = .ok o) : IsAccepted o.precision := by
  obtain ⟨as, q, -, hq, -, rfl⟩ := ofArguments_eq_ok h
  have huse : ∀ {p q : Progress} {u : Use}, IsAccepted p.settings.precision → p.use u = .ok q →
      IsAccepted q.settings.precision := fun hp h => use_isAccepted (Progress.use_eq_ok h).1 hp
  exact hq.invariant (fun _ hp => hp) huse isAccepted_default

end CommandLine

/-! ## Runs -/

namespace Session

theorem exists_dumpTokens {tokens : List Token} (h : ∀ t ∈ tokens, t.Binds) :
    ∃ ms, dumpTokens tokens = .ok ms := by
  by_cases hb : Balanced (tokens.filterMap Token.side?)
  · obtain ⟨p, hp⟩ := toPostfix_of_balanced h hb
    exact ⟨_, by rw [dumpTokens, hp]; rfl⟩
  · exact ⟨_, by rw [dumpTokens, toPostfix_of_not_balanced h hb]; rfl⟩

/-- A line is shown, unless it has a run of digits and points that is too long. -/
theorem dump_failure {s : Session} {line : String} {f : Failure}
    (h : (s.dump line).failure = some f) :
    ∃ digits, Number.IsTooLong digits ∧ f = .evaluation (.tooLong (String.ofList digits)) := by
  cases hline : (TokenStream.ofLine (trim line)).all with
  | ok tokens =>
    obtain ⟨ms, hms⟩ := exists_dumpTokens fun t ht => (TokenStream.isLexed_of_all hline t ht).binds
    have hdump : dumpLine line = .ok ms := by
      rw [dumpLine, hline]
      exact hms
    rw [dump, hdump] at h
    cases h
  | error stop =>
    have hstop := TokenStream.all_eq_error_iff.mp hline
    have hof : stop.IsOfLine := isOfLine_of_ofLexemes hstop
    cases stop with
    | report e =>
      have hdump : dumpLine line = .ok [.complaint e.message] := by
        rw [dumpLine, hline]
        rfl
      rw [dump, hdump] at h
      cases h
    | tooLong numeral =>
      obtain ⟨ls, digits, -, hlong, rfl⟩ := stopsAtNumeral_iff.mp hstop
      have hdump : dumpLine line = .error (.tooLong (String.ofList digits)) := by
        rw [dumpLine, hline]
        rfl
      rw [dump, hdump] at h
      exact ⟨digits, hlong, (Option.some.inj h).symm⟩
    | unknownSymbol item => cases hof

end Session

namespace Program

open Session

theorem assignAll_failure {texts : List (Option String)} {f : Failure} :
    ∀ {s : Session}, (assignAll s texts).2.2 = some (.failure f) →
      f = .missingAssignment ∧ none ∈ texts := by
  induction texts with
  | nil => nofun
  | cons text texts ih =>
    intro s h
    cases text with
    | none =>
      cases h
      exact ⟨rfl, List.mem_cons_self⟩
    | some text =>
      cases hkeep : s.keep (cutAt '=' text).1 (cutAt '=' text).2 with
      | mk kept s' =>
        cases kept with
        | error e =>
          rw [assignAll_of_error hkeep] at h
          cases h
        | ok p =>
          rw [assignAll_of_ok hkeep] at h
          obtain ⟨hf, hmem⟩ := ih h
          exact ⟨hf, List.mem_cons_of_mem _ hmem⟩

theorem ending_eq_failure_iff {t : Turn} {interrupted : Bool} {f : Failure} :
    ending t interrupted = .failure f ↔ t.failure = some f := by
  unfold ending
  cases t.failure <;> simp

theorem work_failure_iff {o : Settings} {s : Session} {ls : Lines} {f : Failure} :
    (work o s ls).1.failure = some f ↔
      (o.action = .execute ∧ (eachLine (answer o.precision) s ls.lines).failure = some f) ∨
        o.action = .dump ∧ (eachLine dump s ls.lines).failure = some f := by
  unfold work
  cases o.action with
  | execute => exact ((or_iff_left fun h => by cases h.1).trans (and_iff_right rfl)).symm
  | dump => exact ((or_iff_right fun h => by cases h.1).trans (and_iff_right rfl)).symm
  | grammar =>
    refine iff_of_false (fun h => by cases h) ?_
    rintro (⟨h, -⟩ | ⟨h, -⟩) <;> cases h

theorem dumps_failure {s : Session} {lines : List String} {f : Failure}
    (h : (eachLine dump s lines).failure = some f) :
    ∃ digits, Number.IsTooLong digits ∧ f = .evaluation (.tooLong (String.ofList digits)) := by
  obtain ⟨before, line, after, -, -, hline⟩ := (eachLine_failure_iff lines).mp h
  exact dump_failure hline

/-- Only lines that are answered fail for a precision. -/
theorem work_precision_iff {o : Settings} {s : Session} {ls : Lines} {fault : PrecisionFault} :
    (work o s ls).1.failure = some (.precision fault) ↔
      o.action = .execute ∧
        (eachLine (answer o.precision) s ls.lines).failure = some (.precision fault) := by
  refine work_failure_iff.trans (or_iff_left fun h => ?_)
  obtain ⟨digits, -, hf⟩ := dumps_failure h.2
  cases hf

/-- The run comes to a line whose value cannot be shown: its assignments are kept, it answers lines,
and this is the first of them with a value. -/
def BreaksOff (s : Session) (o : Settings) (ls : Lines) (fault : PrecisionFault) : Prop :=
  (assignAll s o.assignments).2.2 = none ∧ o.action = .execute ∧
    placesOf o.precision = .error fault ∧
    ∃ before line after, ls.lines = before ++ line :: after ∧
      (eachLine (answer o.precision) (assignAll s o.assignments).1 before).failure = none ∧
      (eachLine (answer o.precision) (assignAll s o.assignments).1 before).session.HasValue
        o.precision line

theorem runSettings_failure_iff {s : Session} {o : Settings} {ls : Lines} {f : Failure} :
    (runSettings s o ls).ending = .failure f ↔
      (assignAll s o.assignments).2.2 = some (.failure f) ∨
        (assignAll s o.assignments).2.2 = none ∧
          (work o (assignAll s o.assignments).1 ls).1.failure = some f := by
  rcases hall : assignAll s o.assignments with ⟨s', ms, _ | e⟩
  · have hending : (runSettings s o ls).ending = ending (work o s' ls).1 (work o s' ls).2 := by
      rw [runSettings, begin_of_kept hall]
      rfl
    rw [hending, ending_eq_failure_iff]
    simp
  · rw [runSettings_of_refused hall]
    simp [Report.ofMessages]

theorem runSettings_precision_iff {s : Session} {o : Settings} {ls : Lines}
    {fault : PrecisionFault} :
    (runSettings s o ls).ending = .failure (.precision fault) ↔ BreaksOff s o ls fault := by
  have hassign : (assignAll s o.assignments).2.2 ≠ some (.failure (.precision fault)) := by
    intro h
    cases (assignAll_failure h).1
  rw [runSettings_failure_iff, or_iff_right hassign, work_precision_iff, eachLine_failure_iff]
  constructor
  · rintro ⟨hnone, haction, before, line, after, hlines, hbefore, hline⟩
    rcases answer_failure_iff.mp hline with ⟨fault', hfault, hplaces, hvalue⟩ | ⟨digits, -, hf⟩
    · cases hfault
      exact ⟨hnone, haction, hplaces, before, line, after, hlines, hbefore, hvalue⟩
    · cases hf
  · rintro ⟨hnone, haction, hplaces, before, line, after, hlines, hbefore, hvalue⟩
    have hline := answer_failure_iff.mpr (.inl ⟨fault, rfl, hplaces, hvalue⟩)
    exact ⟨hnone, haction, before, line, after, hlines, hbefore, hline⟩

theorem runSettings_failure_cases {s : Session} {o : Settings} {ls : Lines} {f : Failure}
    (h : (runSettings s o ls).ending = .failure f) :
    f = .missingAssignment ∧ none ∈ o.assignments ∨ (∃ fault, f = .precision fault) ∨
      ∃ digits, Number.IsTooLong digits ∧ f = .evaluation (.tooLong (String.ofList digits)) := by
  rcases runSettings_failure_iff.mp h with hassign | ⟨-, hwork⟩
  · exact .inl (assignAll_failure hassign)
  · rcases work_failure_iff.mp hwork with ⟨-, hlines⟩ | ⟨-, hlines⟩
    · obtain ⟨before, line, after, -, -, hline⟩ := (eachLine_failure_iff _).mp hlines
      rcases answer_failure_iff.mp hline with
        ⟨fault, hfault, -⟩ | ⟨digits, ⟨-, -, -, -, hlong⟩, hf⟩
      · exact .inr (.inl ⟨fault, hfault⟩)
      · exact .inr (.inr ⟨digits, hlong, hf⟩)
    · exact .inr (.inr (dumps_failure hlines))

/-- A value is shown with every precision that a text gives, up to a limit that does not depend on
the value; the command line accepts the precisions above it as well. An accepted command line has
such a precision or none. A run fails for its precision exactly if it comes to a line with a value
and has a precision above the limit or none, and for no other reason but an assignment without a
text or a run of digits and points that is too long. -/
theorem run_failure_iff (p : PromptSession) (s : Session) {arguments : List String} {o : Settings}
    (ho : Settings.ofArguments arguments = .ok o) (stream keys : String) :
    (∀ (text : String) (k : Int), precision? text = some k → 0 ≤ k ∧
      ∀ (expression : String) (x : Float), Result.formatted ⟨expression, .ok x, k⟩ =
        if k ≤ mostPlaces then .ok (some (Number.fixedText k.toNat x))
        else .error (if k ≤ largestPrecision then .tooBig else .tooManyDigits)) ∧
    CommandLine.IsAccepted o.precision ∧
    (∀ fault, (run p s arguments stream keys).ending = .failure (.precision fault) ↔
      BreaksOff s o (lines p o stream keys) fault) ∧
    ∀ f, (run p s arguments stream keys).ending = .failure f →
      f = .missingAssignment ∧ none ∈ o.assignments ∨ (∃ fault, f = .precision fault) ∨
        ∃ digits, Number.IsTooLong digits ∧
          f = .evaluation (.tooLong (String.ofList digits)) := by
  rw [run_of_ofArguments ho]
  refine ⟨fun text k hk => ⟨nonneg_of_precision? hk, Result.formatted_of_precision? hk⟩,
    Settings.isAccepted_precision ho, fun fault => runSettings_precision_iff,
    fun f => runSettings_failure_cases⟩

/-- A precision in digits of another script, above the limit: the name without a value is reported,
and the numeral behind it ends the run. -/
theorem run_failure_iff_numeral :
    Settings.ofArguments ["-k", "٣٠٠٠٠٠٠٠٠٠", "-e", "x", "1"] =
        .ok { precision := 3000000000, lines := some ["x", "1"] } ∧
      BreaksOff {} { precision := 3000000000, lines := some ["x", "1"] }
        { lines := ["x", "1"] } .tooBig := by
  have ho : Settings.ofArguments ["-k", "٣٠٠٠٠٠٠٠٠٠", "-e", "x", "1"] =
      .ok { precision := 3000000000, lines := some ["x", "1"] } := by
    with_unfolding_all rfl
  obtain ⟨-, -, hbreaks, -⟩ := run_failure_iff .plain {} ho "" ""
  exact ⟨ho, (hbreaks .tooBig).mp (by decide +kernel)⟩

/-- Not every value is shown with every accepted precision, and a numeral can end an accepted
run. -/
theorem precision_too_big :
    (¬ ∀ (text : String) (k : Int) (x : Float), precision? text = some k → x.isFinite →
      ∃ shown, Result.formatted ⟨"1", .ok x, k⟩ = .ok shown) ∧
    (run .plain {} ["-k", "2147483648", "-e", "1"] "" "").ending =
      .failure (.precision .tooBig) := by
  refine ⟨fun h => ?_, by decide +kernel⟩
  have haccepted : precision? "2147483648" = some 2147483648 := by decide +kernel
  obtain ⟨shown, hshown⟩ := h _ _ 1 haccepted (by decide +kernel)
  rw [Result.formatted_of_precision? haccepted, if_neg (by decide)] at hshown
  cases hshown

end Program

end Calculator
