import Calculator.StackMachine
import Calculator.Proofs.Rearrangement

/-!
# Steps of the machine

What a token can do to the stack of the machine, said once for all later proofs.

* `Step`: what a token that is run does to the stack.
* `Step.append`, `feedAll_append_of_ok`: what lies below the operands stays as it is.
* `feedAll_length`: an operand adds a value, an operator takes one away.
* `call_error`, `operate_error`, `load_error`: names and rules fail with an error of the user only,
  and with one of the kinds `valueKinds`.
-/
set_option autoImplicit false

namespace Calculator.StackMachine

variable {scope : Bindings}

/-! ## Runs -/

theorem push_eq_ok_iff {stack s : List Float} {r : Except Stop Float} :
    push stack r = .ok s ↔ ∃ x, r = .ok x ∧ s = x :: stack := by
  cases r with
  | ok x => simp [push, eq_comm]
  | error c => simp [push]

theorem push_eq_error_iff {stack : List Float} {r : Except Stop Float} {halt : Halt} :
    push stack r = .error halt ↔ r = .error halt.cause ∧ halt.stack = stack := by
  obtain ⟨cause, s⟩ := halt
  cases r with
  | ok x => simp [push]
  | error c => simp [push, eq_comm]

theorem feedAll_cons (stack : List Float) (t : Token) (ts : List Token) :
    feedAll scope stack (t :: ts) = (feed scope stack t).bind (feedAll scope · ts) := by
  simp only [feedAll, List.foldlM_cons]
  rfl

theorem feedAll_append (stack : List Float) (a b : List Token) :
    feedAll scope stack (a ++ b) = (feedAll scope stack a).bind (feedAll scope · b) := by
  simp only [feedAll, List.foldlM_append]
  rfl

theorem run_eq (ts : List Token) : run scope ts = (feedAll scope [] ts).bind single := rfl

/-! ## Steps -/

/-- What a token that is run does to the stack. -/
inductive Step (scope : Bindings) : List Float → Token → List Float → Prop where
  | number {stack : List Float} {x : Float} {unary : Bool} :
      Step scope stack ⟨.number x, unary⟩ (x :: stack)
  | identifier {stack : List Float} {name : String} {unary : Bool} {x : Float}
      (h : load scope name = .ok x) : Step scope stack ⟨.identifier name, unary⟩ (x :: stack)
  | function {below : List Float} {name : String} {unary : Bool} {x z : Float}
      (h : call name x = .ok z) : Step scope (x :: below) ⟨.function name, unary⟩ (z :: below)
  | operator {below : List Float} {symbol : String} {unary : Bool} {x y z : Float}
      (h : operate symbol x y = .ok z) :
      Step scope (y :: x :: below) ⟨.operator symbol, unary⟩ (z :: below)

theorem step_of_feed {stack s : List Float} {t : Token} (h : feed scope stack t = .ok s) :
    Step scope stack t s := by
  obtain ⟨item, unary⟩ := t
  cases item with
  | number x =>
    cases h
    exact .number
  | identifier name =>
    obtain ⟨x, hx, rfl⟩ := push_eq_ok_iff.mp h
    exact .identifier hx
  | function name =>
    cases stack with
    | nil => cases h
    | cons x below =>
      obtain ⟨z, hz, rfl⟩ := push_eq_ok_iff.mp h
      exact .function hz
  | operator symbol =>
    cases stack with
    | nil => cases h
    | cons y stack =>
      cases stack with
      | nil => cases h
      | cons x below =>
        obtain ⟨z, hz, rfl⟩ := push_eq_ok_iff.mp h
        exact .operator hz
  | paren mark => cases h

theorem feed_of_step {stack s : List Float} {t : Token} (h : Step scope stack t s) :
    feed scope stack t = .ok s := by
  cases h with
  | number => rfl
  | identifier h => exact push_eq_ok_iff.mpr ⟨_, h, rfl⟩
  | function h => exact push_eq_ok_iff.mpr ⟨_, h, rfl⟩
  | operator h => exact push_eq_ok_iff.mpr ⟨_, h, rfl⟩

/-! ## What lies below -/

/-- A token that is run leaves everything below its operands as it is. -/
theorem Step.append {stack s : List Float} {t : Token} (h : Step scope stack t s)
    (below : List Float) : Step scope (stack ++ below) t (s ++ below) := by
  cases h with
  | number => exact .number
  | identifier h => exact .identifier h
  | function h => exact .function h
  | operator h => exact .operator h

theorem feedAll_append_of_ok {ts : List Token} :
    ∀ {stack s : List Float}, feedAll scope stack ts = .ok s →
      ∀ below, feedAll scope (stack ++ below) ts = .ok (s ++ below) := by
  induction ts with
  | nil =>
    intro stack s h below
    cases h
    rfl
  | cons t ts ih =>
    intro stack s h below
    rw [feedAll_cons] at h
    obtain ⟨u, hf, h⟩ := bind_eq_ok_iff.mp h
    rw [feedAll_cons, feed_of_step ((step_of_feed hf).append below)]
    exact ih h below

/-! ## How many values there are -/

theorem countP_cons_eq (p : Token → Bool) (t : Token) (ts : List Token) :
    (t :: ts).countP p = [t].countP p + ts.countP p := by
  rw [← List.countP_append, List.singleton_append]

/-- An operand adds a value, an operator takes one away, and a function keeps their number. -/
theorem Step.length {stack s : List Float} {t : Token} (h : Step scope stack t s) :
    s.length + [t].countP Token.isOperator = stack.length + [t].countP Token.isOperand := by
  cases h <;> rfl

theorem feedAll_length {ts : List Token} :
    ∀ {stack s : List Float}, feedAll scope stack ts = .ok s →
      s.length + ts.countP Token.isOperator = stack.length + ts.countP Token.isOperand := by
  induction ts with
  | nil =>
    intro stack s h
    cases h
    rfl
  | cons t ts ih =>
    intro stack s h
    rw [feedAll_cons] at h
    obtain ⟨u, hf, h⟩ := bind_eq_ok_iff.mp h
    have h1 := (step_of_feed hf).length
    have h2 := ih h
    rw [countP_cons_eq Token.isOperator, countP_cons_eq Token.isOperand]
    omega

theorem single_eq_ok_iff {stack : List Float} {x : Float} :
    single stack = .ok x ↔ stack = [x] := by
  match stack with
  | [] => simp [single]
  | [y] => simp [single]
  | y :: z :: stack => simp [single]

theorem single_error {stack : List Float} {halt : Halt} (h : single stack = .error halt) :
    halt.cause = .report .incomplete := by
  match stack, h with
  | [], h => cases h; rfl
  | _ :: _ :: _, h => cases h; rfl

theorem run_eq_ok_iff {ts : List Token} {x : Float} :
    run scope ts = .ok x ↔ feedAll scope [] ts = .ok [x] := by
  rw [run_eq, bind_eq_ok_iff]
  constructor
  · rintro ⟨s, hs, hx⟩
    rw [hs, single_eq_ok_iff.mp hx]
  · exact fun h => ⟨[x], h, rfl⟩

/-! ## Rules that fail -/

/-- The kinds of error that depend on values. -/
def valueKinds : List ErrorKind := [.semantic, .domain, .numeric]

theorem kind_of_function_apply {f : Function} {x : Float} {e : Error}
    (h : f.apply x = .error (.report e)) : e.kind = .domain := by
  cases f with
  | sqrt =>
    simp only [Function.apply] at h
    split at h
    · cases h
      rfl
    · cases h
  | sin =>
    simp only [Function.apply, Function.trigonometric] at h
    split at h <;> cases h
  | cos =>
    simp only [Function.apply, Function.trigonometric] at h
    split at h <;> cases h
  | tan =>
    simp only [Function.apply, Function.trigonometric, bind, Except.bind] at h
    split at h
    · split at *
      · cases h
        simp_all
      · simp_all
    · split at h
      · cases h
      · cases h
        rfl

theorem kind_of_operator_apply {op : Operator} {x y : Float} {e : Error}
    (h : op.apply x y = .error (.report e)) : e.kind = .domain := by
  cases op with
  | add => cases h
  | sub => cases h
  | mul => cases h
  | div =>
    simp only [Operator.apply] at h
    split at h
    · cases h
      rfl
    · cases h
  | pow =>
    simp only [Operator.apply, power] at h
    repeat' split at h
    all_goals cases h

/-- A rule that has no finite result fails with its own error or with the one for its kind of
rule. -/
theorem settle_error {invalid : Error} {r : Except RuleFault Float} {c : Stop}
    (h : settle invalid r = .error c) :
    ∃ e, c = .report e ∧ (e = invalid ∨ r = .error (.report e)) := by
  cases r with
  | ok x =>
    simp only [settle] at h
    split at h
    · cases h
    · cases h
      exact ⟨invalid, rfl, .inl rfl⟩
  | error f =>
    cases f with
    | report e =>
      cases h
      exact ⟨e, rfl, .inr rfl⟩
    | outsideDomain =>
      cases h
      exact ⟨invalid, rfl, .inl rfl⟩
    | outOfRange =>
      cases h
      exact ⟨invalid, rfl, .inl rfl⟩

theorem call_name (f : Function) (x : Float) :
    call f.name x = settle .invalidFunctionResult (f.apply x) := by
  simp [call]

theorem operate_symbol (op : Operator) (x y : Float) :
    operate op.symbol x y = settle .invalidResult (op.apply x y) := by
  simp [operate]

theorem call_error {f : Function} {x : Float} {c : Stop} (h : call f.name x = .error c) :
    ∃ e, c = .report e ∧ e.kind ∈ valueKinds := by
  rw [call_name] at h
  obtain ⟨e, rfl, rfl | hr⟩ := settle_error h
  · exact ⟨_, rfl, by decide⟩
  · exact ⟨e, rfl, by rw [kind_of_function_apply hr]; decide⟩

theorem operate_error {op : Operator} {x y : Float} {c : Stop}
    (h : operate op.symbol x y = .error c) : ∃ e, c = .report e ∧ e.kind ∈ valueKinds := by
  rw [operate_symbol] at h
  obtain ⟨e, rfl, rfl | hr⟩ := settle_error h
  · exact ⟨_, rfl, by decide⟩
  · exact ⟨e, rfl, by rw [kind_of_operator_apply hr]; decide⟩

theorem load_error {name : String} {c : Stop} (h : load scope name = .error c) :
    c = .report (.unknownName name) := by
  unfold load at h
  split at h <;> cases h
  rfl

end Calculator.StackMachine
