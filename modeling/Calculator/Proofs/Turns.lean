import Calculator.Proofs.Sessions

/-!
# What a line does

Every line of a reachable session is answered without a failure, unless it is an expression with a
numeral that is too long. A line that is about the variables leaves the history as it is, and the
other way round.

* `ofLine_command`, `ofLine_of_isComplete`: lines that ask for a command, and for an expression.
* `Session.Numbers`: the numbers of entries; `History.get_of_lt`, `History.delete_of_lt` say that
  their indexes are in range.
* `Session.Effect`: what a line does, by what it asks for.
* `answer_effect`: every line has its effect, or stops at a numeral.
* `Session.expressionOf?`, `Session.HasValue`: the expression that a line evaluates, and its value.
* `Session.answer_failure_iff`: a line fails exactly if it has a value that cannot be shown, or stops
  at a numeral.
-/
set_option autoImplicit false

namespace Calculator

open Calculator.Text

/-! ## Lines -/

theorem ofLine_of_colon {line : String} {cs : List Char} (h : (trim line).toList = ':' :: cs) :
    Request.ofLine line = .ofCommandText (trim line) cs := by
  unfold Request.ofLine
  dsimp only
  rw [h]
  rfl

theorem ofLine_of_ne_colon {line : String} (h : ∀ cs, (trim line).toList ≠ ':' :: cs) :
    Request.ofLine line = .expression (trim line) := by
  unfold Request.ofLine
  dsimp only
  split
  · next cs hcs => exact absurd hcs (h cs)
  · rfl

/-- The name of a command and a text ask for this command with what is left of the text. -/
theorem ofLine_command (c : Command) (text : String) :
    Request.ofLine (":" ++ c.word ++ " " ++ text) = .command c (trim text) := by
  have hword : ∀ d ∈ c.word.toList, !isMargin d :=
    List.all_eq_true.mp (by cases c <;> decide)
  have hblank : ∀ d ∈ c.word.toList, !isBlank d := List.all_eq_true.mp (by cases c <;> decide)
  have hof : Command.ofWord? c.word = some c := by cases c <;> decide
  have hlast : ∀ d ∈ (':' :: c.word.toList).getLast?, isMargin d = false := by
    intro d hd
    rcases List.mem_cons.mp (List.mem_of_mem_getLast? hd) with rfl | hd
    · decide
    · simpa using hword d hd
  -- The line is trimmed at its right end only, so a blank or nothing follows the name.
  have hline : (trim (":" ++ c.word ++ " " ++ text)).toList =
      ':' :: (c.word.toList ++ trimEndBy isMargin (' ' :: text.toList)) := by
    have hchars : (":" ++ c.word ++ " " ++ text).toList =
        (':' :: c.word.toList) ++ (' ' :: text.toList) := by simp
    have hhead : ∀ d ∈ (':' :: c.word.toList).head?, isMargin d = false := by
      rintro d ⟨⟩
      decide
    rw [trim, String.toList_ofList, hchars, trimBy_append_eq (by simp) hhead hlast]
    rfl
  have hrest : ∀ d ∈ (trimEndBy isMargin (' ' :: text.toList)).head?, (!isBlank d) = false := by
    intro d hd
    cases mem_head?_of_trimEndBy hd
    decide
  have htrim : trim (String.ofList (trimEndBy isMargin (' ' :: text.toList))) = trim text := by
    rw [trim_ofList, trimBy_trimEndBy, trimBy_cons (by decide), trim]
  rw [ofLine_of_colon hline, Request.ofCommandText, takeWhile_run hblank hrest,
    dropWhile_run hblank hrest, String.ofList_toList, hof]
  exact congrArg (Request.command c) htrim

theorem ofLine_of_isComplete {text : String} (h : IsComplete text) :
    Request.ofLine text = .expression text := by
  obtain ⟨htrim, -, p, hp, -⟩ := h
  have hcolon : ∀ cs, text.toList ≠ ':' :: cs := by
    -- No lexeme starts with a colon, so such a text is not read to its end.
    intro cs hcs
    have hscan : scan (':' :: cs) = ([], some ':') :=
      scan_stuck cs (by decide) (by decide) (by decide) (by decide)
    have hall : (TokenStream.ofLine text).all = .error (.report (.unsupportedCharacter ':')) := by
      rw [TokenStream.all_eq_error_iff, TokenStream.ofLine, hcs, hscan]
      rfl
    rw [readPostfix, hall] at hp
    cases hp
  have hline : Request.ofLine text = .expression (trim text) :=
    ofLine_of_ne_colon (by rwa [htrim])
  rwa [htrim] at hline

theorem Session.answer_command (precision : Int) (s : Session) (c : Command) (text : String) :
    s.answer precision (":" ++ c.word ++ " " ++ text) = s.obey precision c (trim text) := by
  rw [answer, ofLine_command]

/-! ## Numbers of entries -/

namespace History

theorem place_of_lt {n i : Nat} (hi : i < n) : place n i = .ok i := by
  have hnat : ¬ (i : Int) < 0 := by omega
  have hin : (0 : Int) ≤ i ∧ (i : Int) < n := by omega
  simp only [place, if_neg hnat, if_pos hin, Int.toNat_natCast]

theorem get_of_lt {h : History} {i : Nat} {e : Entry} (he : h.entries[i]? = some e) :
    h.get i = .ok e := by
  have hi : i < h.size := (List.getElem?_eq_some_iff.mp he).1
  simp only [get, place_of_lt hi, bind, Except.bind, he]
  rfl

theorem delete_of_lt {h : History} {i : Nat} (hi : i < h.size) :
    h.delete i = .ok ⟨h.entries.eraseIdx i⟩ := by
  simp only [delete, place_of_lt hi, bind, Except.bind]
  rfl

end History

namespace Session

/-- The text is the number of the entry at the given place. -/
def Numbers (s : Session) (text : String) (i : Nat) : Prop :=
  Number.integer? text = some (i + 1 : Int) ∧ i < s.history.size

theorem entryIndex?_eq_some_iff {s : Session} {text : String} {index : Int} :
    s.entryIndex? text = some index ↔ ∃ i : Nat, index = i ∧ s.Numbers text i := by
  unfold entryIndex? Numbers
  cases Number.integer? text with
  | none => simp
  | some n =>
    by_cases hn : 0 ≤ n - 1 ∧ n - 1 < s.history.size
    · simp only [if_pos hn, Option.some.injEq]
      constructor
      · rintro rfl
        exact ⟨(n - 1).toNat, by omega, by omega, by omega⟩
      · rintro ⟨i, rfl, hi, -⟩
        omega
    · simp only [if_neg hn, Option.some.injEq, reduceCtorEq, false_iff]
      rintro ⟨i, -, hi, hsize⟩
      omega

theorem entryIndex?_of_numbers {s : Session} {text : String} {i : Nat} (h : s.Numbers text i) :
    s.entryIndex? text = some (i : Int) :=
  entryIndex?_eq_some_iff.mpr ⟨i, rfl, h⟩

theorem not_numbers_of_entryIndex? {s : Session} {text : String} (h : s.entryIndex? text = none) :
    ∀ i, ¬ s.Numbers text i := by
  intro i hi
  rw [entryIndex?_of_numbers hi] at h
  cases h

/-! ## Effects -/

/-- The session is left as it is, and the user reads why on the error output. -/
structure Refuses (s : Session) (complaint : String) (t : Turn) : Prop where
  session : t.session = s
  shown : shown false t.messages = [.complaint complaint]
  writes : t.Writes "" (complaint ++ "\n")

theorem refuses_complaint (s : Session) (complaint : String) :
    s.Refuses complaint { session := s, messages := [.complaint complaint] } :=
  have hshown : shown false (Turn.mk s [.complaint complaint] none).messages =
    [.complaint complaint] := rfl
  ⟨rfl, hshown, Turn.writes_of_shown_singleton hshown⟩

/-- The result of an expression is remembered, or the user is told of its error. -/
def Evaluates (precision : Int) (s : Session) (text : String) (t : Turn) : Prop :=
  (∃ result, s.Remembers precision ⟨trim text, result⟩ t) ∨
    ∃ e, s.Complains precision text e t

/-- The assignment is refused, or it binds its variable and leaves the other ones. -/
def Assigns (s : Session) (name value : String) (t : Turn) : Prop :=
  (∃ e, (Registers.keep name value).on s.registers = (.error e, s.registers) ∧
    s.Refuses e.message t) ∨
    ∃ n r x, (Registers.keep name value).on s.registers = (.ok n, r) ∧
      t.session = { s with registers := r } ∧ n = variableName name ∧ r.get? n = some x ∧
      r.bindings.erase n = s.registers.bindings.erase n

/-- There is no such variable, or it is forgotten. -/
def Forgets (s : Session) (name : String) (t : Turn) : Prop :=
  (∃ e, s.registers.get? (variableName name) = none ∧
    (Registers.forget name).on s.registers = (.error e, s.registers) ∧
    s.Refuses e.message t) ∨
    ∃ x, s.registers.get? (variableName name) = some x ∧
      t.session = { s with registers := ⟨s.registers.bindings.erase (variableName name)⟩ }

/-- The text is the number of no entry, and the user is told so. -/
def Misses (s : Session) (text : String) (t : Turn) : Prop :=
  (∀ i, ¬ s.Numbers text i) ∧ s.Refuses ("No such history entry " ++ text ++ ".") t

/-- The entry with the number is dropped, if there is one. -/
def Deletes (s : Session) (text : String) (t : Turn) : Prop :=
  (∃ i : Nat, s.Numbers text i ∧ s.history.delete i = .ok t.session.history ∧
    t.session = { s with history := ⟨s.history.entries.eraseIdx i⟩ }) ∨ s.Misses text t

/-- The line does what the expression of the entry with the number does, if there is one. -/
def Recalls (precision : Int) (s : Session) (text : String) (t : Turn) : Prop :=
  (∃ (i : Nat) (e : Entry), s.Numbers text i ∧ s.history.entries[i]? = some e ∧
    s.history.get i = .ok e ∧ t = s.answer precision e.expression ∧
    s.Evaluates precision e.expression t) ∨ s.Misses text t

/-- What a line does, by what it asks for. -/
def Effect (precision : Int) (s : Session) (t : Turn) : Request → Prop
  | .expression text => s.Evaluates precision text t
  | .command .assign text => s.Assigns (assignmentParts text).1 (assignmentParts text).2 t
  | .command .forget name => s.Forgets name t
  | .command .deleteEntry text => s.Deletes text t
  | .command .recallEntry text => s.Recalls precision text t
  | .command .clearHistory _ => t.session = { s with history := {} }
  | .command .listVariables _ | .command .listHistory _ | .command .help _ => t.session = s
  | .unknown word => s.Refuses ("Unknown command " ++ word ++ "; try :help") t

/-- An expression stops at a numeral that is too long, or it is evaluated without a failure. -/
theorem evaluates_calculate {precision : Int} (h0 : 0 ≤ precision) (h1 : precision ≤ mostPlaces)
    (s : Session) (text : String) :
    (∃ digits, s.Stops text digits (s.calculate precision text)) ∨
      (s.calculate precision text).failure = none ∧
        s.Evaluates precision text (s.calculate precision text) := by
  rcases calculate_cases h0 h1 s text with ⟨result, h⟩ | ⟨e, h⟩ | hstops
  · exact .inr ⟨h.failure, .inl ⟨result, h⟩⟩
  · exact .inr ⟨h.failure, .inr ⟨e, h⟩⟩
  · exact .inl hstops

theorem evaluates_of_isComplete {precision : Int} (h0 : 0 ≤ precision) (h1 : precision ≤ mostPlaces)
    (s : Session) {text : String} (h : IsComplete text) :
    (s.calculate precision text).failure = none ∧
      s.Evaluates precision text (s.calculate precision text) := by
  rcases evaluates_calculate h0 h1 s text with ⟨digits, hstops⟩ | heval
  · exact absurd hstops.stopsAtNumeral (h.not_stopsAtNumeral _)
  · exact heval

theorem assigns_assign (s : Session) (text : String) :
    (s.assign text).failure = none ∧
      s.Assigns (assignmentParts text).1 (assignmentParts text).2 (s.assign text) := by
  cases hp : assignmentParts text with
  | mk name value =>
    rcases Registers.keep_cases name value s.registers with ⟨o, -, h⟩ | ⟨x, -, -, -, -, h⟩
    · have ht : s.assign text = { session := s, messages := [.complaint o.error.message] } := by
        simp only [assign, hp, keep_of_error h]
      rw [ht]
      exact ⟨rfl, .inl ⟨o.error, h, s.refuses_complaint _⟩⟩
    · simp only [assign, hp, keep_of_ok h]
      refine ⟨trivial, .inr ⟨_, _, x, h, rfl, rfl, ?_, ?_⟩⟩
      · rw [Registers.get?, find?_insert, if_pos rfl]
      · rw [Bindings.erase_insert]

theorem forgets_forget (s : Session) (name : String) :
    (s.forget name).failure = none ∧ s.Forgets name (s.forget name) := by
  by_cases hn : variableName name ∈ s.registers.names
  · have h := Registers.forget_on name s.registers
    rw [if_pos hn] at h
    obtain ⟨x, hx⟩ : ∃ x, s.registers.get? (variableName name) = some x :=
      Option.ne_none_iff_exists'.mp fun hnone => Bindings.find?_eq_none_iff.mp hnone hn
    simp only [forget, h]
    exact ⟨trivial, .inr ⟨x, hx, rfl⟩⟩
  · have h := Registers.forget_on name s.registers
    rw [if_neg hn] at h
    have hx : s.registers.get? (variableName name) = none := Bindings.find?_eq_none_iff.mpr hn
    simp only [forget, h]
    exact ⟨trivial, .inl ⟨_, hx, h, s.refuses_complaint _⟩⟩

theorem misses_noEntry {s : Session} {text : String} (h : ∀ i, ¬ s.Numbers text i) :
    s.Misses text (s.noEntry text) := ⟨h, s.refuses_complaint _⟩

theorem deleteEntry_of_numbers {s : Session} {text : String} {i : Nat} (h : s.Numbers text i) :
    s.deleteEntry text =
      { session := { s with history := ⟨s.history.entries.eraseIdx i⟩ } } := by
  simp only [deleteEntry, entryIndex?_of_numbers h, History.delete_of_lt h.2]

theorem recallEntry_of_numbers {s : Session} {text : String} {i : Nat} {e : Entry}
    (hi : s.Numbers text i) (he : s.history.entries[i]? = some e) (precision : Int) :
    s.recallEntry precision text = s.calculate precision e.expression := by
  simp only [recallEntry, entryIndex?_of_numbers hi, History.get_of_lt he]

theorem deleteEntry_of_none {s : Session} {text : String} (h : s.entryIndex? text = none) :
    s.deleteEntry text = s.noEntry text := by
  simp only [deleteEntry, h]

theorem recallEntry_of_none {s : Session} {text : String} (h : s.entryIndex? text = none)
    (precision : Int) : s.recallEntry precision text = s.noEntry text := by
  simp only [recallEntry, h]

theorem deletes_deleteEntry (s : Session) (text : String) :
    (s.deleteEntry text).failure = none ∧ s.Deletes text (s.deleteEntry text) := by
  cases h : s.entryIndex? text with
  | some index =>
    obtain ⟨i, -, hi⟩ := entryIndex?_eq_some_iff.mp h
    rw [deleteEntry_of_numbers hi]
    exact ⟨rfl, .inl ⟨i, hi, History.delete_of_lt hi.2, rfl⟩⟩
  | none =>
    rw [deleteEntry_of_none h]
    exact ⟨rfl, .inr (misses_noEntry (not_numbers_of_entryIndex? h))⟩

theorem answer_of_isComplete {text : String} (h : IsComplete text) (precision : Int) (s : Session) :
    s.answer precision text = s.calculate precision text := by
  rw [answer, ofLine_of_isComplete h]

theorem recalls_recallEntry {s : Session} (hs : s.Reachable) {precision : Int}
    (h0 : 0 ≤ precision) (h1 : precision ≤ mostPlaces) (text : String) :
    (s.recallEntry precision text).failure = none ∧
      s.Recalls precision text (s.recallEntry precision text) := by
  cases h : s.entryIndex? text with
  | some index =>
    obtain ⟨i, -, hi⟩ := entryIndex?_eq_some_iff.mp h
    obtain ⟨e, he⟩ : ∃ e, s.history.entries[i]? = some e := ⟨_, List.getElem?_eq_getElem hi.2⟩
    have hcomplete := hs.isComplete e (List.mem_of_getElem? he)
    have hline := answer_of_isComplete hcomplete precision s
    obtain ⟨hf, heval⟩ := evaluates_of_isComplete h0 h1 s hcomplete
    rw [recallEntry_of_numbers hi he]
    exact ⟨hf, .inl ⟨i, e, hi, he, History.get_of_lt he, hline.symm, heval⟩⟩
  | none =>
    rw [recallEntry_of_none h]
    exact ⟨rfl, .inr (misses_noEntry (not_numbers_of_entryIndex? h))⟩

theorem obey_effect {s : Session} (hs : s.Reachable) {precision : Int} (h0 : 0 ≤ precision)
    (h1 : precision ≤ mostPlaces) (c : Command) (argument : String) :
    (s.obey precision c argument).failure = none ∧
      s.Effect precision (s.obey precision c argument) (.command c argument) := by
  cases c with
  | assign => exact s.assigns_assign argument
  | forget => exact s.forgets_forget argument
  | deleteEntry => exact s.deletes_deleteEntry argument
  | recallEntry => exact recalls_recallEntry hs h0 h1 argument
  | clearHistory | listVariables | listHistory | help => exact ⟨rfl, rfl⟩

/-- A line of a reachable session does not fail and has the effect of what it asks for, unless it is
an expression with a numeral that is too long, and stops there. -/
theorem answer_effect {s : Session} (hs : s.Reachable) {precision : Int} (h0 : 0 ≤ precision)
    (h1 : precision ≤ mostPlaces) (line : String) :
    (∃ text digits, Request.ofLine line = .expression text ∧
      s.Stops text digits (s.answer precision line)) ∨
    (s.answer precision line).failure = none ∧
      s.Effect precision (s.answer precision line) (Request.ofLine line) := by
  unfold answer
  cases Request.ofLine line with
  | expression text =>
    rcases evaluates_calculate h0 h1 s text with ⟨digits, hstops⟩ | heval
    · exact .inl ⟨text, digits, rfl, hstops⟩
    · exact .inr heval
  | command c argument => exact .inr (obey_effect hs h0 h1 c argument)
  | unknown word => exact .inr ⟨rfl, s.refuses_complaint _⟩

/-- A quotient with a variable. -/
theorem answer_effect_quotient :
    (((({} : Session).answer 4 ":let x 2").session.answer 2 " 1/X ").failure = none ∧
      (({} : Session).answer 4 ":let x 2").session.Effect 2
        ((({} : Session).answer 4 ":let x 2").session.answer 2 " 1/X ") (.expression "1/X")) ∧
    ((({} : Session).answer 4 ":let x 2").session.answer 2 " 1/X ").session.history.entries =
      [⟨"1/X", "0.50"⟩] := by
  have hf : ((({} : Session).answer 4 ":let x 2").session.answer 2 " 1/X ").failure = none := by
    with_unfolding_all rfl
  rcases answer_effect (.line .start 4 ":let x 2") (by decide : (0 : Int) ≤ 2) (by decide) " 1/X "
    with ⟨text, digits, -, hstops⟩ | heffect
  · cases hf.symm.trans hstops.failure
  · exact ⟨heffect, by with_unfolding_all rfl⟩

theorem ofLine_numeral {digits : List Char} (hw : (Lexeme.numeral digits).IsWord) :
    Request.ofLine (String.ofList digits) = .expression (String.ofList digits) := by
  have hline : Request.ofLine (String.ofList digits) = .expression (trim (String.ofList digits)) :=
    ofLine_of_ne_colon fun cs hcs => by
      rw [trim_numeral hw, String.toList_ofList] at hcs
      exact absurd (hw.2 ':' (by rw [hcs]; exact List.mem_cons_self)) (by decide)
  rwa [trim_numeral hw] at hline

/-- A line with nothing but a numeral that is too long stops there, in every session. -/
theorem stops_answer {digits : List Char} (hw : (Lexeme.numeral digits).IsWord)
    (h : Number.IsTooLong digits) (precision : Int) (s : Session) :
    s.Stops (String.ofList digits) digits (s.answer precision (String.ofList digits)) := by
  obtain ⟨ds, hds, hstops⟩ :=
    calculate_of_stopsAtNumeral (stopsAtNumeral_numeral hw h) precision s
  rw [← String.ofList_injective hds] at hstops
  rw [answer, ofLine_numeral hw]
  exact hstops

/-- A number of value one, in a session with no variables and no history. -/
theorem answer_overlong :
    Reachable {} ∧ Number.decimalValue Number.overlongOne = 1 ∧
      (({} : Session).answer 4 (String.ofList Number.overlongOne)).failure =
        some (.evaluation (.tooLong (String.ofList Number.overlongOne))) := by
  have hstops := stops_answer isWord_overlongOne Number.isTooLong_overlongOne 4 {}
  exact ⟨.start, Number.decimalValue_oneWithPlaces _, hstops.failure⟩

/-! ## Lines that fail -/

/-- The expression that a line evaluates: its own, or that of the entry whose number it gives. -/
def expressionOf? (s : Session) (line : String) : Option String :=
  match Request.ofLine line with
  | .expression text => some text
  | .command .recallEntry text =>
    ((s.entryIndex? text).bind fun index => (s.history.get index).toOption).map Entry.expression
  | _ => none

/-- The line evaluates an expression, and this has a value. -/
def HasValue (precision : Int) (s : Session) (line : String) : Prop :=
  ∃ expression x, s.expressionOf? line = some expression ∧
    evaluate expression s.registers.definitions precision =
      .ok ⟨trim expression, .ok x, precision⟩

/-- The line evaluates an expression, which has a run of digits and points that is too long. -/
def HasOverlong (s : Session) (line : String) (digits : List Char) : Prop :=
  ∃ expression ls, s.expressionOf? line = some expression ∧ Meets (trim expression) ls digits ∧
    Number.IsTooLong digits

theorem calculate_failure_iff {precision : Int} {s : Session} {expression : String} {f : Failure} :
    (s.calculate precision expression).failure = some f ↔
      (∃ fault x, f = .precision fault ∧ placesOf precision = .error fault ∧
        evaluate expression s.registers.definitions precision =
          .ok ⟨trim expression, .ok x, precision⟩) ∨
      ∃ numeral, StopsAtNumeral (trim expression) numeral ∧
        f = .evaluation (.tooLong numeral) := by
  rcases evaluate_registers_cases s.registers expression precision with
    ⟨numeral, hn, hv⟩ | ⟨outcome, h⟩
  · obtain ⟨digits, rfl, hstops⟩ := calculate_of_stopsAtNumeral hn precision s
    rw [hstops.failure, hv]
    simp only [Option.some.injEq, reduceCtorEq, and_false, exists_false, false_or]
    constructor
    · rintro rfl
      exact ⟨_, hn, rfl⟩
    · rintro ⟨numeral, hn', rfl⟩
      rw [Stop.tooLong.inj (Option.some.inj (hn.symm.trans hn'))]
  · have hnone : ∀ numeral, ¬ StopsAtNumeral (trim expression) numeral := by
      intro numeral hn
      cases (evaluate_of_stopsAtNumeral hn _ precision).symm.trans h
    cases outcome with
    | error e =>
      rw [(calculate_of_error h).failure, h]
      simp [hnone]
    | ok x =>
      cases hplaces : placesOf precision with
      | ok places =>
        have hx : fixed precision x = .ok (Number.fixedText places x) := by
          rw [fixed, hplaces]
          rfl
        rw [(calculate_of_value h hx).failure]
        simp [hnone]
      | error fault =>
        have hx : fixed precision x = .error fault := by
          rw [fixed, hplaces]
          rfl
        rw [(calculate_of_fault h hx).2, h]
        simp [hnone, eq_comm]

theorem answer_of_expressionOf? {s : Session} {line expression : String}
    (h : s.expressionOf? line = some expression) (precision : Int) :
    s.answer precision line = s.calculate precision expression := by
  unfold expressionOf? at h
  rw [answer]
  split at h
  · next text hline =>
    cases h
    rw [hline]
  · next text hline =>
    obtain ⟨e, he, rfl⟩ := Option.map_eq_some_iff.mp h
    obtain ⟨index, hindex, hget⟩ := Option.bind_eq_some_iff.mp he
    rw [hline]
    show s.recallEntry precision text = _
    cases hg : s.history.get index with
    | ok e' =>
      rw [hg] at hget
      cases hget
      simp only [recallEntry, hindex, hg]
    | error fault =>
      rw [hg] at hget
      cases hget
  · cases h

theorem failure_of_expressionOf?_eq_none {s : Session} {line : String}
    (h : s.expressionOf? line = none) (precision : Int) :
    (s.answer precision line).failure = none := by
  unfold expressionOf? at h
  rw [answer]
  cases hline : Request.ofLine line with
  | expression text =>
    rw [hline] at h
    cases h
  | unknown word => rfl
  | command c argument =>
    rw [hline] at h
    cases c with
    | recallEntry =>
      show (s.recallEntry precision argument).failure = none
      cases hindex : s.entryIndex? argument with
      | none =>
        rw [recallEntry_of_none hindex]
        rfl
      | some index =>
        -- An index that a number gives always names an entry.
        obtain ⟨i, rfl, hi⟩ := entryIndex?_eq_some_iff.mp hindex
        have hget := History.get_of_lt (List.getElem?_eq_getElem hi.2)
        simp only [hindex, hget, Option.bind_some, Except.toOption, Option.map_some] at h
        cases h
    | assign => exact (s.assigns_assign argument).1
    | forget => exact (s.forgets_forget argument).1
    | deleteEntry => exact (s.deletes_deleteEntry argument).1
    | clearHistory | listVariables | listHistory | help => rfl

/-- A line fails exactly if it has a value that cannot be shown, or a run of digits and points that
is too long. -/
theorem answer_failure_iff {precision : Int} {s : Session} {line : String} {f : Failure} :
    (s.answer precision line).failure = some f ↔
      (∃ fault, f = .precision fault ∧ placesOf precision = .error fault ∧
        s.HasValue precision line) ∨
      ∃ digits, s.HasOverlong line digits ∧
        f = .evaluation (.tooLong (String.ofList digits)) := by
  cases h : s.expressionOf? line with
  | none =>
    rw [failure_of_expressionOf?_eq_none h]
    simp [HasValue, HasOverlong, h]
  | some expression =>
    have hover : (∃ numeral, StopsAtNumeral (trim expression) numeral ∧
        f = .evaluation (.tooLong numeral)) ↔
        ∃ digits, s.HasOverlong line digits ∧
          f = .evaluation (.tooLong (String.ofList digits)) := by
      simp only [stopsAtNumeral_iff, HasOverlong, h]
      constructor
      · rintro ⟨_, ⟨ls, digits, hm, hlong, rfl⟩, hf⟩
        exact ⟨digits, ⟨expression, ls, rfl, hm, hlong⟩, hf⟩
      · rintro ⟨digits, ⟨_, ls, he, hm, hlong⟩, hf⟩
        cases he
        exact ⟨_, ⟨ls, digits, hm, hlong, rfl⟩, hf⟩
    rw [answer_of_expressionOf? h, calculate_failure_iff, hover]
    simp [HasValue, h]

end Session

end Calculator
