import Calculator.Proofs.Arguments
import Calculator.Proofs.Turns

/-!
# Ways to hand over lines

Lines among the arguments, lines of the standard input and lines that are typed at a prompt do the
same, and lines handed over in two runs do what they do in one.

* `Lines.ofStream_join`, `Lines.ofPrompt_join`: ended lines are read back.
* `PromptSession.TakesLines`: what is asked of a prompt for this.
* `Turn.andThen_assoc`, `Session.eachLine_append`: lines in two parts.
* `Session.eachLine_failure_iff`: lines in a row fail at the first one that does.
* `Session.answers_failure`: lines fail at nothing but a numeral that is too long.
* `Session.report`: what a run with lines leaves behind, whatever brings them.
* `Feed`: the ways to hand over lines; `Feed.run_eq_report` is about each of them.
* `Feed.run_agree_append`: any two ways agree, and runs compose.
-/
set_option autoImplicit false

namespace Calculator

open CommandLine (Settings)
open Calculator.Text

/-! ## Lines from outside -/

namespace Lines

/-- Whether the character ends a line of the standard input. -/
def isBreak (c : Char) : Bool := c = '\n' ∨ c = '\r'

theorem ofChars_line {cs : List Char} (h : ∀ c ∈ cs, isBreak c = false) (rest : List Char) :
    ∀ line, ofChars line (cs ++ '\n' :: rest) =
      String.ofList (line.reverse ++ cs) :: ofChars [] rest := by
  induction cs with
  | nil =>
    intro line
    rw [List.nil_append, List.append_nil, ofChars]
  | cons c cs ih =>
    intro line
    obtain ⟨hc, hcs⟩ := List.forall_mem_cons.mp h
    simp only [isBreak, decide_eq_false_iff_not, not_or] at hc
    rw [List.cons_append, ofChars, ih hcs, List.reverse_cons, List.append_assoc]
    · rfl
    · exact fun _ he _ => hc.2 he
    · exact hc.2
    · exact hc.1

/-- Lines with a line feed behind each are read back. -/
theorem ofStream_join {lines : List String} (h : ∀ l ∈ lines, ∀ c ∈ l.toList, isBreak c = false) :
    ofStream (String.join (lines.map (· ++ "\n"))) = { lines } := by
  suffices hchars : ofChars [] (String.join (lines.map (· ++ "\n"))).toList = lines by
    rw [ofStream, hchars]
  induction lines with
  | nil => rfl
  | cons l lines ih =>
    obtain ⟨hl, hlines⟩ := List.forall_mem_cons.mp h
    have hsplit : (String.join ((l :: lines).map (· ++ "\n"))).toList =
        l.toList ++ '\n' :: (String.join (lines.map (· ++ "\n"))).toList := by
      simp
    rw [hsplit, ofChars_line hl, ih hlines, List.reverse_nil, List.nil_append, String.ofList_toList]

end Lines

/-! ## Prompts -/

namespace PromptSession

/-- What is asked of a prompt, whatever its message and the lines that it has accepted: printable
characters and the return key give the line of these characters, and the end key in an empty line
ends the input. -/
structure TakesLines (p : PromptSession) : Prop where
  line (message : String) (accepted : List String) {text : String} (rest : List Char) :
    (∀ c ∈ text.toList, isPrintable c) →
      p.prompt message accepted (text.toList ++ returnKey :: rest) = .line text rest
  endOfInput (message : String) (accepted : List String) (rest : List Char) :
    p.prompt message accepted (endKey :: rest) = .ended

theorem typed_line {cs : List Char} (h : ∀ c ∈ cs, isPrintable c) (rest : List Char) :
    ∀ line, typed line (cs ++ returnKey :: rest) =
      .line (String.ofList (line.reverse ++ cs)) rest := by
  induction cs with
  | nil =>
    intro line
    rw [List.nil_append, List.append_nil, typed, if_pos rfl]
  | cons c cs ih =>
    intro line
    obtain ⟨hc, hcs⟩ := List.forall_mem_cons.mp h
    have hcontrol : c ≠ returnKey ∧ c ≠ breakKey ∧ c ≠ endKey := by
      refine ⟨?_, ?_, ?_⟩ <;>
        rintro rfl <;>
        exact absurd hc (by decide)
    rw [List.cons_append, typed, if_neg hcontrol.1, if_neg hcontrol.2.1, if_neg hcontrol.2.2,
      ih hcs, List.reverse_cons, List.append_assoc]
    rfl

theorem takesLines_plain : plain.TakesLines where
  line _ _ {text} rest h := by
    have htyped := typed_line h rest []
    rwa [List.reverse_nil, List.nil_append, String.ofList_toList] at htyped
  endOfInput _ _ _ := rfl

end PromptSession

namespace Lines

variable {p : PromptSession} {message : String} {accepted : List String} {keys rest : List Char}

theorem ofPrompt_of_line {text : String} (h : p.prompt message accepted keys = .line text rest) :
    ofPrompt p message accepted keys =
      (ofPrompt p message (accepted ++ [text]) rest).cons text := by
  rw [ofPrompt]
  split
  · next h' =>
    rw [h] at h'
    cases h'
    rfl
  · next h' => cases h.symm.trans h'
  · next h' => cases h.symm.trans h'

theorem ofPrompt_of_ended (h : p.prompt message accepted keys = .ended) :
    ofPrompt p message accepted keys = { lines := [] } := by
  rw [ofPrompt]
  split
  · next h' => cases h.symm.trans h'
  · rfl
  · next h' => cases h.symm.trans h'

variable (message) in
/-- Lines that are typed and ended one by one, up to the end of the input, are read back. -/
theorem ofPrompt_join (hp : p.TakesLines) {lines : List String}
    (h : ∀ l ∈ lines, ∀ c ∈ l.toList, isPrintable c) :
    ∀ accepted, ofPrompt p message accepted
      (String.join (lines.map (· ++ "\r")) ++ "\x04").toList = { lines } := by
  induction lines with
  | nil => exact fun accepted => ofPrompt_of_ended (hp.endOfInput message accepted [])
  | cons l lines ih =>
    intro accepted
    obtain ⟨hl, hlines⟩ := List.forall_mem_cons.mp h
    have hsplit : (String.join ((l :: lines).map (· ++ "\r")) ++ "\x04").toList =
        l.toList ++ PromptSession.returnKey ::
          (String.join (lines.map (· ++ "\r")) ++ "\x04").toList := by
      simp [PromptSession.returnKey]
    rw [hsplit, ofPrompt_of_line (hp.line message accepted _ hl), ih hlines]
    rfl

end Lines

/-! ## Lines in two parts -/

namespace Turn

theorem after_andThen (ms : List Message) (t : Turn) (next : Session → Turn) :
    (t.after ms).andThen next = (t.andThen next).after ms := by
  rcases t with ⟨s, ns, _ | f⟩
  · simp only [andThen, after, List.append_assoc]
  · rfl

theorem andThen_assoc (t : Turn) (next last : Session → Turn) :
    (t.andThen next).andThen last = t.andThen fun s => (next s).andThen last := by
  rcases t with ⟨s, ms, _ | f⟩
  · exact after_andThen ms (next s) last
  · rfl

end Turn

namespace Session

theorem eachLine_append (step : Session → String → Turn) (first second : List String) :
    ∀ s, eachLine step s (first ++ second) =
      (eachLine step s first).andThen fun s => eachLine step s second := by
  induction first with
  | nil => exact fun s => rfl
  | cons line first ih =>
    intro s
    rw [List.cons_append, eachLine, eachLine, Turn.andThen_assoc]
    exact congrArg _ (funext ih)

section Lines

variable {step : Session → String → Turn} {s : Session} {line : String}

theorem eachLine_cons_of_failure {f : Failure} (h : (step s line).failure = some f)
    (lines : List String) : eachLine step s (line :: lines) = step s line := by
  rw [eachLine, Turn.andThen, h]

theorem eachLine_cons_of_failure_eq_none (h : (step s line).failure = none)
    (lines : List String) : eachLine step s (line :: lines) =
      (eachLine step (step s line).session lines).after (step s line).messages := by
  rw [eachLine, Turn.andThen, h]

end Lines

/-- Lines in a row fail at the first one that does. -/
theorem eachLine_failure_iff {step : Session → String → Turn} {f : Failure} (lines : List String)
    {s : Session} : (eachLine step s lines).failure = some f ↔
      ∃ before line after, lines = before ++ line :: after ∧
        (eachLine step s before).failure = none ∧
        (step (eachLine step s before).session line).failure = some f := by
  constructor
  · intro h
    induction lines generalizing s with
    | nil => cases h
    | cons line lines ih =>
      cases hline : (step s line).failure with
      | some g =>
        rw [eachLine_cons_of_failure hline] at h
        exact ⟨[], line, lines, rfl, rfl, h⟩
      | none =>
        rw [eachLine_cons_of_failure_eq_none hline] at h
        obtain ⟨before, last, after, rfl, hbefore, hlast⟩ := ih h
        refine ⟨line :: before, last, after, rfl, ?_⟩
        rw [eachLine_cons_of_failure_eq_none hline]
        exact ⟨hbefore, hlast⟩
  · rintro ⟨before, line, after, rfl, hbefore, hline⟩
    rw [eachLine_append, Turn.andThen, hbefore]
    show (eachLine step (eachLine step s before).session (line :: after)).failure = some f
    rw [eachLine_cons_of_failure hline, hline]

/-! ## Lines that do not fail -/

section Answers

variable {precision : Int} (h0 : 0 ≤ precision) (h1 : precision ≤ mostPlaces)
include h0 h1

/-- Where values can be shown, a line fails at nothing but a run of digits and points that is too
long. -/
theorem answer_failure {s : Session} {line : String} {f : Failure}
    (h : (s.answer precision line).failure = some f) :
    ∃ digits, Number.IsTooLong digits ∧ f = .evaluation (.tooLong (String.ofList digits)) := by
  rcases answer_failure_iff.mp h with ⟨fault, -, hplaces, -⟩ | ⟨digits, ⟨-, -, -, -, hlong⟩, hf⟩
  · rw [placesOf_eq h0, if_pos h1] at hplaces
    cases hplaces
  · exact ⟨digits, hlong, hf⟩

theorem answers_failure {s : Session} {lines : List String} {f : Failure}
    (h : (eachLine (answer precision) s lines).failure = some f) :
    ∃ digits, Number.IsTooLong digits ∧ f = .evaluation (.tooLong (String.ofList digits)) := by
  obtain ⟨before, line, after, -, -, hline⟩ := (eachLine_failure_iff lines).mp h
  exact answer_failure h0 h1 hline

end Answers

/-! ## Reports -/

/-- What lines leave behind: the session, what the user gets to see, and how the run ends. -/
def report (precision : Int) (s : Session) (lines : List String) : Report :=
  let t := eachLine (answer precision) s lines
  .ofMessages t.session (shown false t.messages) (Program.ending t false)

end Session

/-- The report on a run and on the one that follows it with the session it leaves behind. No run
follows one that fails. -/
def Report.andThen (r : Report) (next : Session → Report) : Report :=
  match r.ending with
  | .failure _ => r
  | .exit _ =>
    let r' := next r.session
    { r' with out := r.out ++ r'.out, err := r.err ++ r'.err }

theorem Session.report_ending (precision : Int) (s : Session) (lines : List String) :
    (s.report precision lines).ending =
      match (eachLine (answer precision) s lines).failure with
      | some f => .failure f
      | none => .exit 0 := rfl

theorem Session.report_append (precision : Int) (s : Session) (first second : List String) :
    s.report precision (first ++ second) =
      (s.report precision first).andThen (report precision · second) := by
  have happend := eachLine_append (answer precision) first second s
  have hending := s.report_ending precision first
  rw [Report.andThen]
  cases hf : (eachLine (answer precision) s first).failure with
  | some f =>
    rw [hf] at hending
    rw [Turn.andThen, hf] at happend
    rw [hending]
    simp only [report, happend]
  | none =>
    rw [hf] at hending
    rw [Turn.andThen, hf] at happend
    rw [hending]
    simp only [report, happend, Turn.after, Report.ofMessages, shown_append, List.map_append,
      String.join_append, Program.ending]

theorem Program.runSettings_eq_report (s : Session) {o : Settings} (hverbose : o.verbose = false)
    (hassignments : o.assignments = []) (haction : o.action = .execute) (lines : List String) :
    runSettings s o { lines } = s.report o.precision lines := by
  have hbegin : begin s o = .ok (s, [startNote .execute]) := by
    rw [begin, hassignments, haction]
    rfl
  have hwork : work o s { lines } =
      (Session.eachLine (Session.answer o.precision) s lines, false) := by
    rw [work, haction]
    rfl
  have hnote : shown false [startNote .execute] = [] := rfl
  simp only [runSettings, hbegin, hwork, hverbose, shown_append, hnote, List.nil_append,
    Session.report]

/-! ## Feeds -/

/-- The ways to hand over lines: among the arguments, in the standard input, or key by key. -/
inductive Feed where
  | arguments
  | stream
  | keys
deriving DecidableEq, Repr

namespace Feed

/-- Whether a line can be handed over in this way as one line. -/
def admits (f : Feed) (line : String) : Bool :=
  match f with
  | arguments => !(List.isPrefixOf ['-', '-'] line.toList)
  | stream => line.toList.all (!Lines.isBreak ·)
  | keys => line.toList.all isPrintable

/-- The run that gets its lines in this way behind the given options. In the standard input a line
feed ends each line; at the prompt it is the return key, and the end key comes last. -/
def run (f : Feed) (p : PromptSession) (s : Session) (options lines : List String) : Report :=
  match f with
  | arguments => Program.run p s (options ++ "-e" :: lines) "" ""
  | stream => Program.run p s options (String.join (lines.map (· ++ "\n"))) ""
  | keys => Program.run p s (options ++ ["-p"]) "" (String.join (lines.map (· ++ "\r")) ++ "\x04")

section Options

variable {options : List String} {k : Int}
  (ho : Settings.ofArguments options = .ok { precision := k })
  {p : PromptSession} (hp : p.TakesLines)
include ho hp

theorem run_eq_report {f : Feed} {lines : List String} (h : ∀ l ∈ lines, f.admits l)
    (s : Session) : f.run p s options lines = s.report k lines := by
  cases f with
  | arguments =>
    have hmarks : ∀ l ∈ lines, ¬ ['-', '-'] <+: l.toList := fun l hl hmark => by
      have hl' := h l hl
      rw [admits, List.isPrefixOf_iff_prefix.mpr hmark] at hl'
      cases hl'
    simp only [run, Program.run, CommandLine.Settings.ofArguments_lines ho rfl rfl hmarks]
    exact Program.runSettings_eq_report s rfl rfl rfl lines
  | stream =>
    have hlines := Lines.ofStream_join fun l hl c hc =>
      Bool.not_eq_true' _ ▸ List.all_eq_true.mp (h l hl) c hc
    simp only [run, Program.run, ho]
    change Program.runSettings s _ (Lines.ofStream _) = _
    rw [hlines]
    exact Program.runSettings_eq_report s rfl rfl rfl lines
  | keys =>
    have hlines := Lines.ofPrompt_join CommandLine.defaultPrompt hp
      (fun l hl c hc => List.all_eq_true.mp (h l hl) c hc) []
    simp only [run, Program.run, CommandLine.Settings.ofArguments_prompt ho rfl]
    change Program.runSettings s _ (Lines.ofPrompt p CommandLine.defaultPrompt [] _) = _
    rw [hlines]
    exact Program.runSettings_eq_report s rfl rfl rfl lines

/-- Options that choose no more than the precision leave every way of handing over lines with the
same report. One run with two lists of lines reports what a run with the first and then, on the
session it leaves behind, a run with the second report. The first comes to its end, or fails at a
numeral that is too long. `Settings.ofArguments_precision` is about options that are one numeral of
a precision. -/
theorem run_agree_append (h0 : 0 ≤ k) (h1 : k ≤ mostPlaces) (s : Session) :
    (∀ (f g : Feed) (lines : List String), (∀ l ∈ lines, f.admits l) → (∀ l ∈ lines, g.admits l) →
      f.run p s options lines = g.run p s options lines) ∧
    ∀ (f : Feed) (first second : List String), (∀ l ∈ first ++ second, f.admits l) →
      ((f.run p s options first).ending = .exit 0 ∨
        ∃ digits, Number.IsTooLong digits ∧ (f.run p s options first).ending =
          .failure (.evaluation (.tooLong (String.ofList digits)))) ∧
      f.run p s options (first ++ second) =
        (f.run p s options first).andThen (f.run p · options second) := by
  have hreport {f : Feed} {lines : List String} (h : ∀ l ∈ lines, f.admits l) (s : Session) :=
    run_eq_report ho hp h s
  constructor
  · intro f g lines hf hg
    rw [hreport hf, hreport hg]
  · intro f first second h
    obtain ⟨hfirst, hsecond⟩ := List.forall_mem_append.mp h
    constructor
    · rw [hreport hfirst, Session.report_ending]
      cases hfailure : (Session.eachLine (Session.answer k) s first).failure with
      | none => exact .inl rfl
      | some failure =>
        obtain ⟨digits, hlong, rfl⟩ := Session.answers_failure h0 h1 hfailure
        exact .inr ⟨digits, hlong, rfl⟩
    · rw [hreport h, hreport hfirst, Session.report_append]
      exact congrArg _ (funext fun s => (hreport hsecond s).symm)

end Options

/-- A variable that is kept in one run and read in the next, over all three ways. -/
theorem run_agree_append_variable :
    (arguments.run .plain {} ["-k", "2"] [":let x 2", "1/x"] =
        keys.run .plain {} ["-k", "2"] [":let x 2", "1/x"] ∧
      stream.run .plain {} ["-k", "2"] [":let x 2", "1/x"] =
        (stream.run .plain {} ["-k", "2"] [":let x 2"]).andThen
          (stream.run .plain · ["-k", "2"] ["1/x"])) ∧
    (keys.run .plain {} ["-k", "2"] [":let x 2", "1/x"]).out =
      "Variable \"x\" saved.\nResult: 0.50\n" := by
  have ho : Settings.ofArguments ["-k", "2"] = .ok { precision := (2 : Nat) } :=
    CommandLine.Settings.ofArguments_precision (k := 2) (by decide)
  have hp := PromptSession.takesLines_plain
  have hadmits : ∀ f : Feed, ∀ l ∈ [":let x 2", "1/x"], f.admits l :=
    fun f => List.all_eq_true.mp (by cases f <;> decide +kernel)
  obtain ⟨hagree, happend⟩ := run_agree_append ho hp (by decide) (by decide) {}
  refine ⟨⟨hagree arguments keys _ (hadmits _) (hadmits _),
    (happend stream [":let x 2"] ["1/x"] (hadmits stream)).2⟩, ?_⟩
  rw [run_eq_report ho hp (hadmits keys)]
  with_unfolding_all rfl

end Feed

end Calculator
