import Calculator.Proofs.Feeding

/-!
# Ways to assign

A variable is assigned by a line with an equals sign, by a line with spaces in its place, or among
the arguments of a run.

* `Session.keep_assignmentParts`, `Session.answer_let_spaced`: what the lines keep.
* `Session.Saves`: assignments that are all kept, one after the other.
* `Program.exists_saves`: a run keeps its assignments like lines, up to the first refused one.
* `Program.AssignsAlike`, `Program.assignments_agree`: how lines and arguments compare.
-/
set_option autoImplicit false

namespace Calculator

open CommandLine (Settings UsageFault)
open Calculator.Text

namespace Session

/-! ## Parts of an assignment -/

theorem keep_congr {name name' value value' : String} (hn : trim name = trim name')
    (hv : trim value = trim value') (s : Session) : s.keep name value = s.keep name' value' := by
  rw [keep, Registers.keep_congr hn hv, keep]

theorem assignmentParts_of_mem {text : String} (h : '=' ∈ text.toList) :
    assignmentParts text = cutAt '=' text := by
  have hc : text.toList.contains '=' = true := by simpa using h
  rw [assignmentParts, if_pos hc]

theorem assignmentParts_of_not_mem {text : String} (h : '=' ∉ text.toList) :
    assignmentParts text = cutAt ' ' text := by
  have hc : ¬ text.toList.contains '=' = true := by simpa using h
  rw [assignmentParts, if_neg hc]

/-- The parts of an assignment with an equals sign, as an argument has them. -/
theorem keep_assignmentParts {text : String} (h : '=' ∈ text.toList) (s : Session) :
    s.keep (assignmentParts (trim text)).1 (assignmentParts (trim text)).2 =
      s.keep (cutAt '=' text).1 (cutAt '=' text).2 := by
  have hsign : isMargin '=' = false := by decide
  have htext : (trim text).toList = trimBy isMargin text.toList := String.toList_ofList
  have hmem : '=' ∈ (trim text).toList := by
    rw [htext]
    exact mem_trimBy hsign h
  have hparts : cutAt '=' (trim text) =
      (String.ofList (cutChars '=' (trimBy isMargin text.toList)).1,
        String.ofList (cutChars '=' (trimBy isMargin text.toList)).2) := by
    rw [cutAt, htext]
  obtain ⟨hname, hvalue⟩ := trimBy_cutChars hsign h
  rw [assignmentParts_of_mem hmem, hparts]
  apply keep_congr
  · show trim (String.ofList _) = trim (String.ofList (cutChars '=' text.toList).1)
    rw [trim_ofList, trim_ofList, hname]
  · show trim (String.ofList _) = trim (String.ofList (cutChars '=' text.toList).2)
    rw [trim_ofList, trim_ofList, hvalue]

/-- A name, a space and whatever follows it: the value is what is left of the latter. -/
theorem keep_assignmentParts_spaced {name : String} (hne : name ≠ "")
    (hname : ∀ c ∈ name.toList, isMargin c = false ∧ c ≠ '=') {value : String}
    (hvalue : '=' ∉ value.toList) (s : Session) :
    s.keep (assignmentParts (trim (name ++ " " ++ value))).1
        (assignmentParts (trim (name ++ " " ++ value))).2 =
      s.keep name value := by
  have hchars : name.toList ≠ [] := fun h => hne (String.toList_eq_nil_iff.mp h)
  have htext : (trim (name ++ " " ++ value)).toList =
      name.toList ++ trimEndBy isMargin (' ' :: value.toList) := by
    have hwhole : (name ++ " " ++ value).toList = name.toList ++ ' ' :: value.toList := by simp
    rw [trim, String.toList_ofList, hwhole]
    exact trimBy_append_eq hchars (fun c hc => (hname c (List.mem_of_mem_head? hc)).1)
      (fun c hc => (hname c (List.mem_of_mem_getLast? hc)).1) _
  have hfree : '=' ∉ (trim (name ++ " " ++ value)).toList := by
    rw [htext]
    intro hmem
    rcases List.mem_append.mp hmem with hmem | hmem
    · exact (hname _ hmem).2 rfl
    · have hbehind := mem_of_mem_trimEndBy hmem
      simp [hvalue] at hbehind
  have hspace : ' ' ∉ name.toList := by
    intro hmem
    exact absurd (hname _ hmem).1 (by decide)
  obtain ⟨hfirst, hsecond⟩ :=
    cutChars_append_trimEndBy (p := isMargin) (by decide) hspace value.toList
  rw [assignmentParts_of_not_mem hfree, cutAt, htext]
  apply keep_congr
  · show trim (String.ofList _) = _
    rw [hfirst, String.ofList_toList]
  · show trim (String.ofList _) = _
    rw [trim_ofList, hsecond, trim]

/-! ## Lines that assign -/

/-- What a user reads when a variable is kept. -/
def savedText (name : String) : String := "Variable \"" ++ name ++ "\" saved."

theorem out_savedText (name : String) :
    (Message.answer (savedText name)).out = "Variable \"" ++ name ++ "\" saved.\n" := by
  apply String.toList_inj.mp
  simp [Message.out, savedText]

theorem answer_let (precision : Int) (s : Session) (text : String) :
    s.answer precision (":let " ++ text) = s.assign (trim text) :=
  answer_command precision s .assign text

theorem assign_congr {s : Session} {text text' : String}
    (h : s.keep (assignmentParts text).1 (assignmentParts text).2 =
      s.keep (assignmentParts text').1 (assignmentParts text').2) :
    s.assign text = s.assign text' := by
  simp only [assign, h]

/-- A name, spaces and a value do what they do with an equals sign in place of the spaces. -/
theorem answer_let_spaced {name : String} (hne : name ≠ "")
    (hname : ∀ c ∈ name.toList, isMargin c = false ∧ c ≠ '=') {value : String}
    (hvalue : '=' ∉ value.toList) (n : Nat) (precision : Int) (s : Session) :
    s.answer precision (":let " ++ (name ++ String.ofList (List.replicate (n + 1) ' ') ++ value)) =
      s.answer precision (":let " ++ (name ++ "=" ++ value)) := by
  let spaces := String.ofList (List.replicate n ' ')
  have hspaces : name ++ String.ofList (List.replicate (n + 1) ' ') ++ value =
      name ++ " " ++ (spaces ++ value) := by
    apply String.toList_inj.mp
    simp [spaces, List.replicate_succ]
  have hfree : '=' ∉ (spaces ++ value).toList := by
    simp [spaces, hvalue]
  have hmem : '=' ∈ (name ++ "=" ++ value).toList := by simp
  have hcut : cutAt '=' (name ++ "=" ++ value) = (name, value) := by
    have hsign : '=' ∉ name.toList := fun h => (hname _ h).2 rfl
    have hchars : (name ++ "=" ++ value).toList = name.toList ++ '=' :: value.toList := by simp
    rw [cutAt, hchars, cutChars_of_not_mem hsign]
    show (String.ofList name.toList, String.ofList value.toList) = _
    rw [String.ofList_toList, String.ofList_toList]
  have htrim : trim (spaces ++ value) = trim value := by
    have hmargin : ∀ c ∈ List.replicate n ' ', isMargin c := by
      intro c hc
      rw [(List.mem_replicate.mp hc).2]
      decide
    have hchars : (spaces ++ value).toList = List.replicate n ' ' ++ value.toList := by
      simp [spaces]
    rw [trim, hchars, trimBy_left_append hmargin, trim]
  rw [answer_let, answer_let, hspaces]
  apply assign_congr
  rw [keep_assignmentParts_spaced hne hname hfree, keep_assignmentParts hmem, hcut]
  exact keep_congr rfl htrim s

/-! ## Assignments in a row -/

/-- The assignments are all kept when they are given as lines, one after the other; this is what
the lines leave behind. -/
structure Saves (precision : Int) (s : Session) (texts : List String) (t : Turn) : Prop where
  turn : eachLine (answer precision) s (texts.map (":let " ++ ·)) = t
  failure : t.failure = none
  shown : shown false t.messages =
    texts.map fun text => .answer (savedText (variableName (cutAt '=' text).1))
  history : t.session.history = s.history

theorem saves_nil (precision : Int) (s : Session) : s.Saves precision [] { session := s } :=
  ⟨rfl, rfl, rfl, rfl⟩

/-- A line with an equals sign keeps what an argument keeps, or both are refused. -/
theorem answer_let_cases {text : String} (h : '=' ∈ text.toList) (precision : Int) (s : Session) :
    (∃ s' note, s.keep (cutAt '=' text).1 (cutAt '=' text).2 =
        (.ok (variableName (cutAt '=' text).1, [.note .registers note]), s') ∧
      s.answer precision (":let " ++ text) =
        { session := s'
          messages := [.note .registers note,
            .answer (savedText (variableName (cutAt '=' text).1))] } ∧
      s'.history = s.history) ∨
    ∃ e, s.keep (cutAt '=' text).1 (cutAt '=' text).2 = (.error e, s) ∧ e.kind = .variable ∧
      s.answer precision (":let " ++ text) =
        { session := s, messages := [.complaint e.message] } := by
  have hparts := keep_assignmentParts h s
  rcases Registers.keep_cases (cutAt '=' text).1 (cutAt '=' text).2 s.registers with
    ⟨o, -, hr⟩ | ⟨x, -, -, -, -, hr⟩
  · have hkeep := keep_of_error hr
    refine .inr ⟨o.error, hkeep, o.kind_error, ?_⟩
    rw [answer_let, assign]
    simp only [hparts, hkeep]
  · have hkeep := keep_of_ok hr
    refine .inl ⟨_, _, hkeep, ?_, rfl⟩
    rw [answer_let, assign]
    simp only [hparts, hkeep]
    rfl

theorem Saves.cons {precision : Int} {s s' : Session} {text note : String} {texts : List String}
    {t : Turn} (hline : s.answer precision (":let " ++ text) =
      { session := s'
        messages := [.note .registers note,
          .answer (savedText (variableName (cutAt '=' text).1))] })
    (hs : s'.history = s.history) (ht : s'.Saves precision texts t) :
    s.Saves precision (text :: texts) (t.after [.note .registers note,
      .answer (savedText (variableName (cutAt '=' text).1))]) where
  turn := by
    rw [List.map_cons, eachLine, hline]
    exact congrArg (Turn.after _) ht.turn
  failure := ht.failure
  shown := by
    rw [List.map_cons, ← ht.shown]
    rfl
  history := ht.history.trans hs

end Session

namespace Program

open Session

/-- The assignments of a run are kept like lines, up to the first refused one. -/
theorem exists_saves (precision : Int) {texts : List String}
    (h : ∀ text ∈ texts, '=' ∈ text.toList) :
    ∀ s : Session, ∃ kept rest t, texts = kept ++ rest ∧ s.Saves precision kept t ∧
      (rest = [] ∧
          assignAll s (texts.map some) = (t.session, t.messages.filter Message.isNote, none) ∨
        ∃ (text : String) (more : List String) (e : Error),
          rest = text :: more ∧ e.kind = .variable ∧
          t.session.Refuses e.message (t.session.answer precision (":let " ++ text)) ∧
          assignAll s (texts.map some) = (t.session, t.messages.filter Message.isNote ++
            [.complaint (UsageFault.assignment text e).complaint], some (.exit 2))) := by
  induction texts with
  | nil => exact fun s => ⟨[], [], _, rfl, saves_nil precision s, .inl ⟨rfl, rfl⟩⟩
  | cons text texts ih =>
    intro s
    obtain ⟨htext, htexts⟩ := List.forall_mem_cons.mp h
    rcases answer_let_cases htext precision s with
      ⟨s', note, hkeep, hline, hs⟩ | ⟨e, hkeep, hkind, hline⟩
    · obtain ⟨kept, rest, t, rfl, ht, hend⟩ := ih htexts s'
      refine ⟨text :: kept, rest, _, rfl, ht.cons hline hs, ?_⟩
      rw [List.map_cons, assignAll_of_ok hkeep]
      rcases hend with ⟨hrest, hall⟩ | ⟨refused, more, e, hrest, hkind, hrefuses, hall⟩
      · rw [hall]
        exact .inl ⟨hrest, rfl⟩
      · rw [hall]
        exact .inr ⟨refused, more, e, hrest, hkind, hrefuses, rfl⟩
    · refine ⟨[], text :: texts, _, rfl, saves_nil precision s,
        .inr ⟨text, texts, e, rfl, hkind, ?_, assignAll_of_error hkeep _⟩⟩
      rw [hline]
      exact s.refuses_complaint _

/-! ## Runs -/

theorem join_out_notes {ms : List Message} (h : ∀ m ∈ ms, m.isNote) :
    String.join (ms.map Message.out) = "" :=
  join_map_eq_empty fun m hm => by
    have hnote := h m hm
    cases m with
    | note => rfl
    | answer | complaint => cases hnote

theorem isNote_of_mem_filter {ms : List Message} : ∀ m ∈ ms.filter Message.isNote, m.isNote :=
  fun _ hm => (List.mem_filter.mp hm).2

theorem err_assignment (text : String) (e : Error) :
    (Message.complaint (UsageFault.assignment text e).complaint).err =
      CommandLine.usage ++ "\ninfixcalc: error: " ++ text ++ ": " ++ e.message ++ "\n" := by
  show CommandLine.usage ++ "\n" ++ "infixcalc" ++ ": error: " ++ (text ++ ": " ++ e.message) ++
    "\n" = _
  generalize CommandLine.usage = u
  apply String.toList_inj.mp
  simp

/-- What is reported of a refused assignment, behind the notes on those before it. -/
theorem ofMessages_refused (s : Session) (verbose : Bool) (notes : List Message)
    (h : ∀ m ∈ notes, m.isNote) (text : String) (e : Error) (ending : Ending) :
    Report.ofMessages s
        (shown verbose (notes ++ [.complaint (UsageFault.assignment text e).complaint])) ending =
      { session := s
        out := ""
        err := String.join ((shown verbose notes).map Message.err) ++
          (CommandLine.usage ++ "\ninfixcalc: error: " ++ text ++ ": " ++ e.message ++ "\n")
        ending } := by
  have hshown : shown verbose [.complaint (UsageFault.assignment text e).complaint] =
      [.complaint (UsageFault.assignment text e).complaint] := by
    cases verbose <;> rfl
  have hnotes : ∀ m ∈ shown verbose notes, m.isNote := fun m hm => h m (List.mem_filter.mp hm).1
  rw [Report.ofMessages, shown_append, hshown, List.map_append, List.map_append,
    String.join_append, String.join_append, join_out_notes hnotes, ← err_assignment]
  simp [Message.out, String.join_cons]

theorem runSettings_of_refused {s s' : Session} {o : Settings} {ms : List Message} {e : Ending}
    (h : assignAll s o.assignments = (s', ms, some e)) (ls : Lines) :
    runSettings s o ls = .ofMessages s' (shown o.verbose ms) e := by
  rw [runSettings, begin, h]

theorem begin_of_kept {s s' : Session} {o : Settings} {notes : List Message}
    (h : assignAll s o.assignments = (s', notes, none)) :
    begin s o = .ok (s', notes ++ startNote o.action :: o.action.opening) := by
  rw [begin, h]

/-- A run whose assignments are all kept goes on like one without any. -/
theorem runSettings_of_kept {s s' : Session} {o : Settings} {notes : List Message}
    (h : assignAll s o.assignments = (s', notes, none)) (ls : Lines) :
    runSettings s o ls = (Report.ofMessages s' (shown o.verbose notes) (.exit 0)).andThen
      fun s => runSettings s { o with assignments := [] } ls := by
  have hrest : begin s' { o with assignments := [] } =
      .ok (s', startNote o.action :: o.action.opening) := rfl
  have hwork : work { o with assignments := [] } s' ls = work o s' ls := rfl
  simp only [runSettings, begin_of_kept h, Report.andThen, Report.ofMessages, hrest, hwork,
    shown_append, List.append_assoc, List.map_append, String.join_append]

theorem run_of_ofArguments {arguments : List String} {o : Settings}
    (h : Settings.ofArguments arguments = .ok o) (p : PromptSession) (s : Session)
    (stream keys : String) :
    run p s arguments stream keys = runSettings s o (lines p o stream keys) := by
  rw [run, h]

/-! ## Agreement -/

/-- How lines that assign and assignments among the arguments compare. -/
structure AssignsAlike (p : PromptSession) (precision : Int) (s : Session) : Prop where
  /-- A line with an equals sign and an argument lead to the same session, or both are refused with
  the same message. -/
  argument : ∀ text : String, '=' ∈ text.toList → text.toList.head? ≠ some '-' →
    ((s.answer precision (":let " ++ text)).Writes
        ("Variable \"" ++ variableName (cutAt '=' text).1 ++ "\" saved.\n") "" ∧
      run p s ["-s", text] "" "" = { session := (s.answer precision (":let " ++ text)).session
                                     out := "", err := "", ending := .exit 0 }) ∨
    ∃ e : Error, e.kind = .variable ∧ s.Refuses e.message (s.answer precision (":let " ++ text)) ∧
      run p s ["-s", text] "" "" =
        { session := s
          out := ""
          err := CommandLine.usage ++ "\ninfixcalc: error: " ++ text ++ ": " ++ e.message ++ "\n"
          ending := .exit 2 }
  /-- In a line, spaces may stand for the equals sign. -/
  spaced : ∀ (name value : String) (n : Nat), name ≠ "" →
    (∀ c ∈ name.toList, isMargin c = false ∧ c ≠ '=') → '=' ∉ value.toList →
    s.answer precision (":let " ++ (name ++ String.ofList (List.replicate (n + 1) ' ') ++ value)) =
      s.answer precision (":let " ++ (name ++ "=" ++ value))
  /-- A run keeps its assignments as the lines do, up to the first refused one. If there is none, it
  goes on like a run without assignments. A refused one ends the run before it answers any line. -/
  run : ∀ (arguments texts : List String) (o : Settings) (stream keys : String),
    Settings.ofArguments arguments = .ok o → o.assignments = texts.map some →
    (∀ text ∈ texts, '=' ∈ text.toList) →
    ∃ kept rest t, texts = kept ++ rest ∧ s.Saves precision kept t ∧
      ((rest = [] ∧ run p s arguments stream keys =
          (Report.ofMessages t.session (shown o.verbose (t.messages.filter Message.isNote))
            (.exit 0)).andThen fun s =>
              runSettings s { o with assignments := [] } (lines p o stream keys)) ∨
        ∃ (text : String) (more : List String) (e : Error),
          rest = text :: more ∧ e.kind = .variable ∧
          t.session.Refuses e.message (t.session.answer precision (":let " ++ text)) ∧
          run p s arguments stream keys =
            { session := t.session
              out := ""
              err := String.join
                  ((shown o.verbose (t.messages.filter Message.isNote)).map Message.err) ++
                (CommandLine.usage ++ "\ninfixcalc: error: " ++ text ++ ": " ++ e.message ++ "\n")
              ending := .exit 2 })
  /-- Switches behind any options that give no lines add their assignments. -/
  switches : ∀ (options texts : List String) (o : Settings), Settings.ofArguments options = .ok o →
    o.lines = none → (∀ text ∈ texts, text.toList.head? ≠ some '-') →
    Settings.ofArguments (options ++ texts.flatMap fun text => ["-s", text]) =
      .ok { o with assignments := o.assignments ++ texts.map some }

theorem run_assignment {text : String} (h : '=' ∈ text.toList)
    (hminus : text.toList.head? ≠ some '-') (p : PromptSession) (precision : Int) (s : Session) :
    ((s.answer precision (":let " ++ text)).Writes
        ("Variable \"" ++ variableName (cutAt '=' text).1 ++ "\" saved.\n") "" ∧
      run p s ["-s", text] "" "" = { session := (s.answer precision (":let " ++ text)).session
                                     out := "", err := "", ending := .exit 0 }) ∨
    ∃ e : Error, e.kind = .variable ∧ s.Refuses e.message (s.answer precision (":let " ++ text)) ∧
      run p s ["-s", text] "" "" =
        { session := s
          out := ""
          err := CommandLine.usage ++ "\ninfixcalc: error: " ++ text ++ ": " ++ e.message ++ "\n"
          ending := .exit 2 } := by
  have ho : Settings.ofArguments ([] ++ ["-s", text]) = .ok { assignments := [some text] } :=
    Settings.ofArguments_assign Settings.ofArguments_nil rfl hminus
  have hrun := run_of_ofArguments ho p s "" ""
  rcases answer_let_cases h precision s with
    ⟨s', note, hkeep, hline, -⟩ | ⟨e, hkeep, hkind, hline⟩
  · have hend := runSettings_of_kept (o := { assignments := [some text] })
      (assignAll_of_ok hkeep []) (lines p { assignments := [some text] } "" "")
    have hshown : shown false (s.answer precision (":let " ++ text)).messages =
        [.answer (savedText (variableName (cutAt '=' text).1))] := by
      rw [hline]
      rfl
    have hwrites := Turn.writes_of_shown_singleton hshown
    rw [out_savedText] at hwrites
    refine .inl ⟨hwrites, ?_⟩
    rw [hline]
    exact hrun.trans hend
  · have hend := runSettings_of_refused (o := { assignments := [some text] })
      (assignAll_of_error hkeep []) (lines p { assignments := [some text] } "" "")
    have hreport := ofMessages_refused s false [] (by simp) text e (.exit 2)
    have hnotes : String.join ((shown false []).map Message.err) = "" := rfl
    rw [hnotes, String.empty_append] at hreport
    rw [hline]
    exact .inr ⟨e, hkind, s.refuses_complaint _, hrun.trans (hend.trans hreport)⟩

/-- In every session, assignments do the same in lines and among the arguments. -/
theorem assignments_agree (p : PromptSession) (precision : Int) (s : Session) :
    AssignsAlike p precision s where
  argument _ h hminus := run_assignment h hminus p precision s
  spaced _ _ n hne hname hvalue := answer_let_spaced hne hname hvalue n precision s
  run arguments texts o stream keys ho hassignments htexts := by
    have hrun := run_of_ofArguments ho p s stream keys
    obtain ⟨kept, rest, t, hsplit, ht, hend⟩ := exists_saves precision htexts s
    rw [← hassignments] at hend
    refine ⟨kept, rest, t, hsplit, ht, ?_⟩
    rcases hend with ⟨hrest, hall⟩ | ⟨text, more, e, hrest, hkind, hrefuses, hall⟩
    · exact .inl ⟨hrest, hrun.trans (runSettings_of_kept hall _)⟩
    · have hreport := ofMessages_refused t.session o.verbose (t.messages.filter Message.isNote)
        isNote_of_mem_filter text e (.exit 2)
      exact .inr ⟨text, more, e, hrest, hkind, hrefuses,
        hrun.trans ((runSettings_of_refused hall _).trans hreport)⟩
  switches _ texts _ ho hlines h := Settings.ofArguments_assignments texts ho hlines h

/-- Spaces in place of the sign, and three assignments of which the second is refused. -/
theorem assignments_agree_constant :
    ({} : Session).answer 4 ":let x  2" = ({} : Session).answer 4 ":let x=2" ∧
      ∃ kept rest t, [" X = 2", "pi=3", "y=1"] = kept ++ rest ∧ ({} : Session).Saves 4 kept t ∧
        (run .plain {} ["-s", " X = 2", "-s", "pi=3", "-s", "y=1"] "y" "").session = t.session ∧
        (run .plain {} ["-s", " X = 2", "-s", "pi=3", "-s", "y=1"] "y" "").ending = .exit 2 ∧
        (run .plain {} ["-s", " X = 2", "-s", "pi=3", "-s", "y=1"] "y" "").session.registers.names =
          ["x"] := by
  have hagree := assignments_agree .plain 4 {}
  have ho := hagree.switches [] [" X = 2", "pi=3", "y=1"] {} Settings.ofArguments_nil rfl
    (by decide)
  have hname : ∀ c ∈ "x".toList, isMargin c = false ∧ c ≠ '=' := by
    intro c hc
    have hx : c = 'x' := by simpa using hc
    rw [hx]
    decide
  refine ⟨hagree.spaced "x" "2" 1 (by decide) hname (by decide), ?_⟩
  obtain ⟨kept, rest, t, hsplit, ht, hend⟩ :=
    hagree.run _ [" X = 2", "pi=3", "y=1"] _ "y" "" ho rfl (by decide)
  have hstatus :
      (run .plain {} ["-s", " X = 2", "-s", "pi=3", "-s", "y=1"] "y" "").ending = .exit 2 := by
    decide +kernel
  refine ⟨kept, rest, t, hsplit, ht, ?_, hstatus, by decide +kernel⟩
  rcases hend with ⟨hrest, -⟩ | ⟨text, more, e, -, -, -, hrun⟩
  · rw [hrest, List.append_nil] at hsplit
    have hshown := ht.shown
    rw [← ht.turn, ← hsplit] at hshown
    exact absurd hshown (by decide +kernel)
  · exact congrArg Report.session hrun

end Program

end Calculator
