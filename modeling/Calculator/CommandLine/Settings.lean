import Calculator.Action
import Calculator.CommandLine.Argument
import Calculator.Result

/-!
# Settings

What the arguments of a command line ask for.

* `Use`: a switch with its values, as a single argument and those behind it give them. The mark `--`
  in the place of an attached value gives none.
* `Settings`: what is asked for.
* `Settings.ofArguments`: the settings of a command line, or what ends the program before it starts
  (`Refusal`).
-/
set_option autoImplicit false

namespace Calculator.CommandLine

/-! ## Uses of switches -/

/-- A switch with its values. -/
structure Use where
  switch : Switch
  values : List String := []
deriving DecidableEq, Repr

/-- What an argument with a switch amounts to: the uses, and how many of the arguments that follow
belong to them. -/
structure Uses where
  uses : List Use
  taken : Nat := 0
deriving DecidableEq, Repr

namespace Uses

/-- The uses with one put before them. -/
def cons (s : Switch) (u : Uses) : Uses := { u with uses := ⟨s, []⟩ :: u.uses }

/-- A switch that takes its values from the arguments that follow. -/
def alone (s : Switch) (following : List Argument) : Except UsageFault Uses :=
  match s.arity, following with
  | .none, _ => .ok { uses := [⟨s, []⟩] }
  | .one, .plain v :: _ | .atMostOne, .plain v :: _ => .ok { uses := [⟨s, [v]⟩], taken := 1 }
  | .one, _ => .error (.missingValue s)
  | .atMostOne, _ => .ok { uses := [⟨s, []⟩] }
  | .rest, _ =>
    let values := following.takeWhile fun
      | .beyond _ => false
      | _ => true
    .ok { uses := [⟨s, values.map Argument.text⟩], taken := values.length }

/-- The values of a switch with a text attached. The mark `--` gives no value to a switch that takes
one at most. -/
def attachedValues (s : Switch) (value : String) : List String :=
  if s.arity ≠ .rest ∧ value = "--" then [] else [value]

/-- A switch with a value attached. -/
def attached (s : Switch) (value : List Char) : Except UsageFault Uses :=
  if s.arity = .none then .error (.ignoredValue s (String.ofList value))
  else .ok { uses := [⟨s, attachedValues s (String.ofList value)⟩] }

/-- A letter with more characters behind it. They are the value of a switch that takes one. Behind a
switch that takes none they have to start with the letter of another switch, to which the rest then
belongs. -/
def short (following : List Argument) (s : Switch) : List Char → Except UsageFault Uses
  | [] => attached s []
  | c :: cs =>
    if s.arity ≠ .none then attached s (c :: cs)
    else match Switch.ofLetter? c with
      | none => attached s (c :: cs)
      | some next =>
        (if cs = [] then alone next following else short following next cs).map (cons s)

/-- The uses of an argument with a switch. -/
def ofForm (following : List Argument) : Form → Except UsageFault Uses
  | .alone s => alone s following
  | .long s value => attached s value
  | .short s tail => short following s tail

end Uses

/-! ## Settings -/

/-- What a command line asks for. -/
structure Settings where
  verbose : Bool := false
  precision : Int := defaultPrecision
  /-- The assignments, in their order; a switch without a value leaves one without a text. -/
  assignments : List (Option String) := []
  /-- The lines, if they are given as arguments. -/
  lines : Option (List String) := none
  /-- The text of the prompt, if one is asked for. -/
  prompt : Option String := none
  action : Action := .execute
deriving DecidableEq, Repr

/-- What ends the program before it starts. -/
inductive Refusal where
  /-- The user asks for help. -/
  | help
  | fault (f : UsageFault)
deriving DecidableEq, Repr

/-- The prompt that is shown where its text is not given. -/
def defaultPrompt : String := "> "

/-- The number of places that a text asks for. -/
def precision? (text : String) : Option Int :=
  (Number.integer? text).filter (0 ≤ ·)

/-- The settings behind the use of a switch. -/
def Settings.use (o : Settings) (u : Use) : Except Refusal Settings :=
  match u.switch, u.values with
  | .help, _ => .error .help
  | .verbose, _ => .ok { o with verbose := true }
  | .precision, text :: _ =>
    match precision? text with
    | some k => .ok { o with precision := k }
    | none => .error (.fault (.badPrecision text))
  | .precision, [] => .ok { o with precision := missingPrecision }
  | .assign, texts => .ok { o with assignments := o.assignments ++ [texts.head?] }
  | .expression, texts => .ok { o with lines := some texts }
  | .prompt, text :: _ => .ok { o with prompt := some text }
  | .prompt, [] => .ok { o with prompt := some defaultPrompt }
  | .grammar, _ => .ok { o with action := .grammar }
  | .dump, _ => .ok { o with action := .dump }

/-! ## Command lines -/

/-- The settings so far, the switches used, and the arguments that mean nothing. -/
structure Progress where
  settings : Settings := {}
  used : List Switch := []
  strays : List String := []
deriving DecidableEq, Repr

namespace Progress

/-- Notes an argument that means nothing. -/
def stray (p : Progress) (text : String) : Progress := { p with strays := p.strays ++ [text] }

/-- Notes a switch, unless its rival is in use. -/
def mark (p : Progress) (s : Switch) : Except Refusal Progress :=
  match s.rival? with
  | some other =>
    if p.used.contains other then .error (.fault (.rivals s other))
    else .ok { p with used := s :: p.used }
  | none => .ok { p with used := s :: p.used }

/-- Carries out the use of a switch. A value that is refused comes before a rival. -/
def use (p : Progress) (u : Use) : Except Refusal Progress :=
  (p.settings.use u).bind fun o => (mark p u.switch).map fun p => { p with settings := o }

/-- Carries out the uses of one argument. -/
def useAll (p : Progress) (u : Uses) : Except Refusal Progress := u.uses.foldlM use p

/-- Carries out arguments from left to right. -/
def run (p : Progress) : List Argument → Except Refusal Progress
  | [] => .ok p
  | .switch _ form :: rest => do
    let uses ← (Uses.ofForm rest form).mapError .fault
    run (← p.useAll uses) (rest.drop uses.taken)
  | .plain text :: rest | .unknown text :: rest | .beyond text :: rest => run (p.stray text) rest
termination_by args => args.length
decreasing_by
  · simp only [List.length_drop, List.length_cons]; omega
  all_goals exact Nat.lt_succ_self _

end Progress

/-- The settings of a command line. Every argument has to mean something. -/
def Settings.ofArguments (texts : List String) : Except Refusal Settings := do
  let arguments ← (Argument.ofList texts).mapError .fault
  let p ← Progress.run {} arguments
  if p.strays = [] then return p.settings
  else throw (.fault (.unrecognized p.strays))

end Calculator.CommandLine
