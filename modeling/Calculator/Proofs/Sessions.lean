import Calculator.Program
import Calculator.Proofs.Depth
import Calculator.Proofs.Overlong
import Calculator.Proofs.Substitution
import Calculator.Proofs.Variables

/-!
# Sessions over time

What holds of a session behind any runs of the program and any lines.

* `Turn.Writes`: the texts that a turn puts on the two outputs.
* `Session.Remembers`, `Session.Complains`, `Session.Stops`: the three ends that an expression can
  come to.
* `Session.Change`, `answer_change`: what a line can do to a session.
* `Session.Reachable`: the sessions that variables among the arguments and lines lead to;
  `Reachable.run` says that whole runs lead to no others.
* `Reachable.kept`, `Reachable.exists_makes`: the registers are kept in order, and every entry was
  made by a line.
* `IsComplete`, `Reachable.isComplete`: the expressions of the history are complete.
-/
set_option autoImplicit false

namespace Calculator

open Calculator.Text

/-! ## Expressions -/

theorem evaluate_trim (expression : String) (ds : Definitions) (precision : Int) :
    evaluate (trim expression) ds precision = evaluate expression ds precision := by
  simp only [evaluate, trim_trim]

theorem evaluate_registers_cases (r : Registers) (expression : String) (precision : Int) :
    (∃ numeral, StopsAtNumeral (trim expression) numeral ∧
        evaluate expression r.definitions precision = .error (.tooLong numeral)) ∨
      ∃ outcome, evaluate expression r.definitions precision =
        .ok ⟨trim expression, outcome, precision⟩ :=
  evaluate_floats_cases r.bindings expression precision

theorem placesOf_eq {k : Int} (h : 0 ≤ k) :
    placesOf k = if k ≤ mostPlaces then .ok k.toNat
      else .error (if k ≤ largestPrecision then .tooBig else .tooManyDigits) := by
  have hle : (mostPlaces : Int) ≤ largestPrecision := by decide
  rw [placesOf, if_neg (by omega)]
  by_cases hmost : k ≤ mostPlaces
  · rw [if_neg (by omega), if_neg (by omega), if_pos hmost]
  · by_cases hlargest : k ≤ largestPrecision
    · rw [if_neg (by omega), if_pos (by omega), if_neg hmost, if_pos hlargest]
    · rw [if_pos (by omega), if_neg hmost, if_neg hlargest]

theorem fixed_eq_ok {precision : Int} (h0 : 0 ≤ precision) (h1 : precision ≤ mostPlaces)
    (x : Float) : fixed precision x = .ok (Number.fixedText precision.toNat x) := by
  rw [fixed, placesOf_eq h0, if_pos h1]
  rfl

theorem exists_fixed {precision : Int} (h0 : 0 ≤ precision) (h1 : precision ≤ mostPlaces)
    (x : Float) : ∃ text, fixed precision x = .ok text :=
  ⟨_, fixed_eq_ok h0 h1 x⟩

theorem shown_append (verbose : Bool) (ms ns : List Message) :
    shown verbose (ms ++ ns) = shown verbose ms ++ shown verbose ns :=
  List.filter_append ms ns

theorem shown_notes (source : NoteSource) (texts : List String) :
    shown false (texts.map (.note source)) = [] := by
  simp [shown, Message.isNote]

theorem shown_answers (lines : List String) :
    shown false (lines.map Message.answer) = lines.map Message.answer :=
  List.filter_eq_self.mpr fun m hm => by
    obtain ⟨line, -, rfl⟩ := List.mem_map.mp hm
    rfl

/-- Messages that put nothing on an output leave it empty. -/
theorem join_map_eq_empty {f : Message → String} {ms : List Message} (h : ∀ m ∈ ms, f m = "") :
    String.join (ms.map f) = "" := by
  induction ms with
  | nil => rfl
  | cons m ms ih =>
    obtain ⟨hm, hms⟩ := List.forall_mem_cons.mp h
    rw [List.map_cons, String.join_cons, hm, ih hms]
    rfl

/-- The texts that a turn puts on the two outputs if the user reads no notes. -/
structure Turn.Writes (t : Turn) (out err : String) : Prop where
  out : String.join ((shown false t.messages).map Message.out) = out
  err : String.join ((shown false t.messages).map Message.err) = err

theorem Turn.writes_of_shown_nil {t : Turn} (h : shown false t.messages = []) :
    t.Writes "" "" := by
  constructor <;> rw [h] <;> rfl

theorem Turn.writes_of_shown_singleton {t : Turn} {m : Message}
    (h : shown false t.messages = [m]) : t.Writes m.out m.err := by
  constructor <;> rw [h] <;> exact String.empty_append

/-- The entry is what its expression makes with these variables and this precision. -/
def Entry.MadeWith (e : Entry) (precision : Int) (r : Registers) : Prop :=
  ∃ x, evaluate e.expression r.definitions precision = .ok ⟨e.expression, .ok x, precision⟩ ∧
    fixed precision x = .ok e.result

theorem History.sublist_of_delete {h h' : History} {index : Int} (hd : h.delete index = .ok h') :
    h'.entries.Sublist h.entries := by
  simp only [History.delete, bind, Except.bind] at hd
  split at hd
  · cases hd
  · cases hd
    exact List.eraseIdx_sublist _ _

namespace Session

/-- The turn shows the result of an entry and puts the entry at the front of the history. -/
structure Remembers (precision : Int) (s : Session) (e : Entry) (t : Turn) : Prop where
  made : e.MadeWith precision s.registers
  session : t.session = { s with history := s.history.add e }
  shown : shown false t.messages = [.answer ("Result: " ++ e.result)]
  writes : t.Writes ("Result: " ++ e.result ++ "\n") ""
  failure : t.failure = none

/-- The turn tells the user of the error of an expression and leaves the session as it is. -/
structure Complains (precision : Int) (s : Session) (expression : String) (e : Error)
    (t : Turn) : Prop where
  outcome : evaluate expression s.registers.definitions precision =
    .ok ⟨trim expression, .error e, precision⟩
  session : t.session = s
  shown : shown false t.messages = [.complaint e.message]
  writes : t.Writes "" (e.message ++ "\n")
  failure : t.failure = none

/-- The expression has a run of digits and points that is too long, at which the turn fails. Nothing
is written, and the session is left as it is. -/
structure Stops (s : Session) (expression : String) (digits : List Char) (t : Turn) : Prop where
  run : ∃ ls, Meets (trim expression) ls digits
  long : Number.IsTooLong digits
  session : t.session = s
  writes : t.Writes "" ""
  failure : t.failure = some (.evaluation (.tooLong (String.ofList digits)))

theorem Stops.stopsAtNumeral {s : Session} {expression : String} {digits : List Char} {t : Turn}
    (h : s.Stops expression digits t) :
    StopsAtNumeral (trim expression) (String.ofList digits) := by
  obtain ⟨ls, hm⟩ := h.run
  exact stopsAtNumeral_iff.mpr ⟨ls, digits, hm, h.long, rfl⟩

theorem calculate_of_result {precision : Int} {s : Session} {expression : String} {r : Result}
    (h : evaluate expression s.registers.definitions precision = .ok r) :
    ∃ notes : List String, s.calculate precision expression =
      (s.record r).after (notes.map (.note .evaluation)) := by
  refine ⟨trace expression (.ok r), ?_⟩
  rw [calculate, h]

theorem calculate_of_value {precision : Int} {s : Session} {expression result : String} {x : Float}
    (h : evaluate expression s.registers.definitions precision =
      .ok ⟨trim expression, .ok x, precision⟩) (hx : fixed precision x = .ok result) :
    s.Remembers precision ⟨trim expression, result⟩ (s.calculate precision expression) := by
  obtain ⟨notes, hc⟩ := calculate_of_result h
  have hshown : shown false (s.calculate precision expression).messages =
      [.answer ("Result: " ++ result)] := by
    rw [hc]
    simp only [record, hx, Turn.after, shown_append, shown_notes]
    rfl
  refine ⟨⟨x, (evaluate_trim expression _ precision).trans h, hx⟩, ?_, hshown,
    Turn.writes_of_shown_singleton hshown, ?_⟩ <;>
    simp only [hc, record, hx, Turn.after]

theorem calculate_of_error {precision : Int} {s : Session} {expression : String} {e : Error}
    (h : evaluate expression s.registers.definitions precision =
      .ok ⟨trim expression, .error e, precision⟩) :
    s.Complains precision expression e (s.calculate precision expression) := by
  obtain ⟨notes, hc⟩ := calculate_of_result h
  have hshown : shown false (s.calculate precision expression).messages =
      [.complaint e.message] := by
    rw [hc]
    simp only [record, Turn.after, shown_append, shown_notes]
    rfl
  refine ⟨h, ?_, hshown, Turn.writes_of_shown_singleton hshown, ?_⟩ <;>
    simp only [hc, record, Turn.after]

theorem calculate_of_fault {precision : Int} {s : Session} {expression : String} {x : Float}
    {fault : PrecisionFault}
    (h : evaluate expression s.registers.definitions precision =
      .ok ⟨trim expression, .ok x, precision⟩) (hx : fixed precision x = .error fault) :
    (s.calculate precision expression).session = s ∧
      (s.calculate precision expression).failure = some (.precision fault) := by
  obtain ⟨notes, hc⟩ := calculate_of_result h
  rw [hc]
  simp only [record, hx, Turn.after, and_self]

theorem calculate_of_stopsAtNumeral {expression numeral : String}
    (h : StopsAtNumeral (trim expression) numeral) (precision : Int) (s : Session) :
    ∃ digits, numeral = String.ofList digits ∧
      s.Stops expression digits (s.calculate precision expression) := by
  have hv : evaluate expression s.registers.definitions precision = .error (.tooLong numeral) :=
    evaluate_of_stopsAtNumeral h _ precision
  have hshown : shown false (s.calculate precision expression).messages = [] := by
    rw [calculate, Turn.after, hv, shown_append, shown_notes]
    rfl
  obtain ⟨ls, digits, hm, hlong, rfl⟩ := stopsAtNumeral_iff.mp h
  refine ⟨digits, rfl, ⟨ls, hm⟩, hlong, ?_, Turn.writes_of_shown_nil hshown, ?_⟩ <;>
    rw [calculate, Turn.after, hv]

/-- Where values can be shown, an expression comes to one of the three ends. -/
theorem calculate_cases {precision : Int} (h0 : 0 ≤ precision) (h1 : precision ≤ mostPlaces)
    (s : Session) (expression : String) :
    (∃ result, s.Remembers precision ⟨trim expression, result⟩
      (s.calculate precision expression)) ∨
      (∃ e, s.Complains precision expression e (s.calculate precision expression)) ∨
      ∃ digits, s.Stops expression digits (s.calculate precision expression) := by
  rcases evaluate_registers_cases s.registers expression precision with
    ⟨numeral, hn, -⟩ | ⟨outcome, h⟩
  · obtain ⟨digits, -, h⟩ := calculate_of_stopsAtNumeral hn precision s
    exact .inr (.inr ⟨digits, h⟩)
  · cases outcome with
    | ok x =>
      obtain ⟨result, hx⟩ := exists_fixed h0 h1 x
      exact .inl ⟨result, calculate_of_value h hx⟩
    | error e => exact .inr (.inl ⟨e, calculate_of_error h⟩)

/-! ## Steps -/

/-- What a line can do to a session. -/
inductive Change (precision : Int) (s : Session) : Session → Prop where
  | stay : Change precision s s
  | record {e : Entry} (h : e.MadeWith precision s.registers) :
      Change precision s { s with history := s.history.add e }
  | keep (name value : String) :
      Change precision s { s with registers := ((Registers.keep name value).on s.registers).2 }
  | forget (name : String) :
      Change precision s { s with registers := ((Registers.forget name).on s.registers).2 }
  | delete {index : Int} {h : History} (hd : s.history.delete index = .ok h) :
      Change precision s { s with history := h }
  | clear : Change precision s { s with history := {} }

theorem calculate_change (precision : Int) (s : Session) (expression : String) :
    s.Change precision (s.calculate precision expression).session := by
  rcases evaluate_registers_cases s.registers expression precision with
    ⟨numeral, hn, -⟩ | ⟨outcome, h⟩
  · obtain ⟨digits, -, h⟩ := calculate_of_stopsAtNumeral hn precision s
    rw [h.session]
    exact .stay
  · cases outcome with
    | ok x =>
      cases hx : fixed precision x with
      | ok result =>
        have hr := calculate_of_value h hx
        rw [hr.session]
        exact .record hr.made
      | error fault =>
        rw [(calculate_of_fault h hx).1]
        exact .stay
    | error e =>
      rw [(calculate_of_error h).session]
      exact .stay

theorem keep_of_ok {s : Session} {name value n : String} {r : Registers}
    (h : (Registers.keep name value).on s.registers = (.ok n, r)) :
    s.keep name value =
      (.ok (n, [.note .registers (r.storedNote n)]), { s with registers := r }) := by
  rw [keep, h]
  rfl

theorem keep_of_error {s : Session} {name value : String} {e : Error}
    (h : (Registers.keep name value).on s.registers = (.error e, s.registers)) :
    s.keep name value = (.error e, s) := by
  rw [keep, h]
  rfl

theorem assign_session (s : Session) (text : String) :
    (s.assign text).session =
      (s.keep (assignmentParts text).1 (assignmentParts text).2).2 := by
  unfold assign
  split
  next name value hp =>
    rw [hp]
    split
    · next h => rw [h]
    · next h => rw [h]

theorem forget_session (s : Session) (name : String) :
    (s.forget name).session =
      { s with registers := ((Registers.forget name).on s.registers).2 } := by
  unfold forget
  split
  · next h => rw [h]
  · next h => rw [h]

theorem deleteEntry_change (precision : Int) (s : Session) (text : String) :
    s.Change precision (s.deleteEntry text).session := by
  unfold deleteEntry
  split
  · split
    · next h => exact .delete h
    · exact .stay
  · exact .stay

theorem recallEntry_change (precision : Int) (s : Session) (text : String) :
    s.Change precision (s.recallEntry precision text).session := by
  unfold recallEntry
  split
  · split
    · exact calculate_change precision s _
    · exact .stay
  · exact .stay

theorem obey_change (precision : Int) (s : Session) (c : Command) (argument : String) :
    s.Change precision (s.obey precision c argument).session := by
  cases c with
  | assign =>
    rw [obey, assign_session]
    exact .keep _ _
  | forget =>
    rw [obey, forget_session]
    exact .forget argument
  | deleteEntry => exact deleteEntry_change precision s argument
  | recallEntry => exact recallEntry_change precision s argument
  | clearHistory => exact .clear
  | listVariables | listHistory | help => exact .stay

theorem answer_change (precision : Int) (s : Session) (line : String) :
    s.Change precision (s.answer precision line).session := by
  rw [answer]
  split
  · exact calculate_change precision s _
  · exact obey_change precision s _ _
  · exact .stay

/-! ## Reachable sessions -/

/-- The sessions that variables among the arguments of a run, and lines, lead to, one after the
other and over any number of runs. -/
inductive Reachable : Session → Prop where
  | start : Reachable {}
  | keep {s : Session} (hs : Reachable s) (name value : String) : Reachable (s.keep name value).2
  | line {s : Session} (hs : Reachable s) (precision : Int) (line : String) :
      Reachable (s.answer precision line).session

/-- What holds at the start and is kept by every change holds always. -/
theorem Reachable.invariant {P : Session → Prop} (hstart : P {})
    (hchange : ∀ {precision s s'}, P s → s.Change precision s' → P s') {s : Session}
    (hs : s.Reachable) : P s := by
  induction hs with
  | start => exact hstart
  | @keep s _ name value ih =>
    have hc : s.Change defaultPrecision (s.keep name value).2 := .keep name value
    exact hchange ih hc
  | line _ precision line ih => exact hchange ih (answer_change precision _ line)

theorem Reachable.kept {s : Session} (hs : s.Reachable) : s.registers.Kept := by
  have hchange : ∀ {precision : Int} {s s' : Session}, s.registers.Kept →
      s.Change precision s' → s'.registers.Kept := by
    intro precision s s' hr hc
    cases hc with
    | keep name value => exact hr.keep name value
    | forget name => exact hr.forget name
    | stay | record h | delete hd | clear => exact hr
  exact hs.invariant Registers.kept_empty hchange

/-! ## Whole runs -/

theorem dump_session (s : Session) (line : String) : (s.dump line).session = s := by
  unfold dump
  split <;> rfl

theorem Reachable.turn {s : Session} (hs : s.Reachable) (a : Action) (precision : Int)
    (line : String) : (a.turn precision s line).session.Reachable := by
  cases a with
  | execute => exact hs.line precision line
  | dump =>
    rw [Action.turn, dump_session]
    exact hs
  | grammar => exact hs

theorem Reachable.eachLine {step : Session → String → Turn}
    (hstep : ∀ {s : Session} line, s.Reachable → (step s line).session.Reachable)
    (lines : List String) :
    ∀ {s : Session}, s.Reachable → (Session.eachLine step s lines).session.Reachable := by
  induction lines with
  | nil => exact fun hs => hs
  | cons line lines ih =>
    intro s hs
    rw [Session.eachLine, Turn.andThen]
    split
    · exact hstep line hs
    · exact ih (hstep line hs)

theorem assignAll_of_ok {s s' : Session} {text n : String} {notes : List Message}
    (h : s.keep (cutAt '=' text).1 (cutAt '=' text).2 = (.ok (n, notes), s'))
    (texts : List (Option String)) :
    Program.assignAll s (some text :: texts) =
      ((Program.assignAll s' texts).1, notes ++ (Program.assignAll s' texts).2.1,
        (Program.assignAll s' texts).2.2) := by
  rw [Program.assignAll]
  simp only [h]

theorem assignAll_of_error {s s' : Session} {text : String} {e : Error}
    (h : s.keep (cutAt '=' text).1 (cutAt '=' text).2 = (.error e, s'))
    (texts : List (Option String)) :
    Program.assignAll s (some text :: texts) =
      (s', [.complaint (CommandLine.UsageFault.assignment text e).complaint],
        some (.exit 2)) := by
  rw [Program.assignAll]
  simp only [h]

theorem Reachable.assignAll (texts : List (Option String)) :
    ∀ {s : Session}, s.Reachable → (Program.assignAll s texts).1.Reachable := by
  induction texts with
  | nil => exact fun hs => hs
  | cons text texts ih =>
    intro s hs
    cases text with
    | none => exact hs
    | some text =>
      have hkept := hs.keep (cutAt '=' text).1 (cutAt '=' text).2
      cases h : s.keep (cutAt '=' text).1 (cutAt '=' text).2 with
      | mk kept s' =>
        rw [h] at hkept
        cases kept with
        | error e =>
          rw [assignAll_of_error h]
          exact hkept
        | ok p =>
          rw [assignAll_of_ok h]
          exact ih hkept

/-- A run of the program leads from a reachable session to a reachable one. -/
theorem Reachable.run {s : Session} (hs : s.Reachable) (p : PromptSession)
    (arguments : List String) (stream keys : String) :
    (Program.run p s arguments stream keys).session.Reachable := by
  rw [Program.run]
  split
  · next r _ => cases r <;> exact hs
  · next o _ =>
    have ha := hs.assignAll o.assignments
    simp only [Program.runSettings, Program.begin]
    cases hb : (Program.assignAll s o.assignments).2.2 with
    | some e => exact ha
    | none =>
      simp only [Program.work]
      split
      · exact Reachable.eachLine (fun line h => h.turn o.action o.precision line) _ ha
      · exact ha

/-! ## Histories -/

/-- A line adds one entry, made with the variables of the session, or it adds none. -/
theorem Change.history {precision : Int} {s s' : Session} (h : s.Change precision s') :
    (∃ e : Entry, e.MadeWith precision s.registers ∧ s'.history = s.history.add e) ∨
      s'.history.entries.Sublist s.history.entries := by
  cases h with
  | stay => exact .inr (List.Sublist.refl _)
  | record h => exact .inl ⟨_, h, rfl⟩
  | keep name value => exact .inr (List.Sublist.refl _)
  | forget name => exact .inr (List.Sublist.refl _)
  | delete hd => exact .inr (History.sublist_of_delete hd)
  | clear => exact .inr (List.nil_sublist _)

/-- A line of the session makes the entry, with the given precision. -/
def Makes (precision : Int) (s : Session) (e : Entry) : Prop :=
  ∃ line, (s.answer precision line).session.history = s.history.add e

theorem Makes.madeWith {precision : Int} {s : Session} {e : Entry} (h : s.Makes precision e) :
    e.MadeWith precision s.registers := by
  obtain ⟨line, h⟩ := h
  rcases (answer_change precision s line).history with ⟨e', he', hadd⟩ | hsub
  · have hentries : e' :: s.history.entries = e :: s.history.entries :=
      congrArg History.entries (hadd.symm.trans h)
    rwa [← (List.cons.inj hentries).1]
  · -- A line that adds no entry leaves no longer history.
    rw [h] at hsub
    have hlen : s.history.entries.length + 1 ≤ s.history.entries.length := hsub.length_le
    omega

/-- Every entry was made by a line of a reachable session. -/
theorem Reachable.exists_makes {s : Session} (hs : s.Reachable) :
    ∀ e ∈ s.history.entries, ∃ (s₀ : Session) (precision : Int),
      s₀.Reachable ∧ s₀.Makes precision e := by
  induction hs with
  | start =>
    intro e he
    cases he
  | keep _ name value ih => exact ih
  | @line s hs precision line ih =>
    intro e he
    rcases (answer_change precision s line).history with ⟨e', -, hadd⟩ | hsub
    · rw [hadd] at he
      rcases List.mem_cons.mp he with rfl | he
      · exact ⟨s, precision, hs, line, hadd⟩
      · exact ih e he
    · exact ih e (hsub.subset he)

end Session

/-! ## Complete expressions -/

/-- The text has no margins and is not empty, it can be read and put in postfix order, and in this
order every token finds its operands and one value is left. -/
def IsComplete (text : String) : Prop :=
  trim text = text ∧ text ≠ "" ∧ ∃ p, readPostfix text = .ok p ∧ depthAfter 0 p = .ok 1

theorem Entry.MadeWith.isComplete {e : Entry} {precision : Int} {r : Registers}
    (h : e.MadeWith precision r) : IsComplete e.expression := by
  obtain ⟨x, hv, -⟩ := h
  have htrim : trim e.expression = e.expression := by
    rcases evaluate_registers_cases r e.expression precision with ⟨numeral, -, hstop⟩ | ⟨o, ho⟩
    · cases hstop.symm.trans hv
    · exact congrArg Result.expression (Except.ok.inj (ho.symm.trans hv))
  obtain ⟨p, scope, hp, -, hrun⟩ := exists_run_of_evaluate hv rfl
  rw [htrim] at hp
  refine ⟨htrim, fun he => ?_, p, hp, StackMachine.depthAfter_of_run hrun⟩
  rw [he, evaluate_of_trim_eq_empty (by decide)] at hv
  cases hv

theorem IsComplete.not_stopsAtNumeral {text : String} (h : IsComplete text) (numeral : String) :
    ¬ StopsAtNumeral (trim text) numeral := by
  obtain ⟨htrim, -, p, hp, -⟩ := h
  intro hn
  rw [htrim] at hn
  cases (readPostfix_of_failure hn).symm.trans hp

theorem Session.Reachable.isComplete {s : Session} (hs : s.Reachable) :
    ∀ e ∈ s.history.entries, IsComplete e.expression := by
  intro e he
  obtain ⟨s₀, precision, -, hmakes⟩ := hs.exists_makes e he
  exact hmakes.madeWith.isComplete

end Calculator
