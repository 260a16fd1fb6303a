import Calculator.Machine
import Calculator.Proofs.Verdict

/-!
# Machines that are used again

A machine takes nothing with it from one run to the next, and a token that fails takes no more from
the stack than its own operands.

* `Stop.IsBeforeRule`, `Stop.IsOfRule`: the causes that show before a rule is tried, and those that
  come from the rule.
* `StackMachine.feed_error_stack`: the stack behind a token that fails.
* `Machine.feedEach_eq`, `Machine.run_eq`: tokens that are fed one by one, as the stack machine runs
  them.
* `Machine.run_eq_of_scope_eq`: a run depends on the scope alone.
* `Machine.run_performAll`: runs behind any calls, and what a token leaves of the stack.
-/
set_option autoImplicit false

namespace Calculator

/-! ## What a token takes from the stack -/

/-- A cause that shows before a rule is tried: an operand is missing, a name is unknown, or the
token is a bracket. -/
inductive Stop.IsBeforeRule : Stop → Prop where
  | missingArgument : IsBeforeRule (.report .missingArgument)
  | missingValues : IsBeforeRule (.report .missingValues)
  | unknownName (name : String) : IsBeforeRule (.report (.unknownName name))
  | bracket : IsBeforeRule (.report .mismatchedParentheses)

/-- A cause that comes from a function or an operator itself. -/
inductive Stop.IsOfRule : Stop → Prop where
  | unknownSymbol (item : Item) : IsOfRule (.unknownSymbol item)
  | domain {e : Error} (h : e.kind = .domain) : IsOfRule (.report e)
  | numeric {e : Error} (h : e.kind = .numeric) : IsOfRule (.report e)

theorem Stop.IsBeforeRule.not_isOfRule {c : Stop} (h : c.IsBeforeRule) : ¬ c.IsOfRule := by
  cases h <;> rintro (_ | hkind | hkind) <;> cases hkind

namespace StackMachine

variable {scope : Bindings}

theorem isOfRule_of_settle {invalid : Error} (hinvalid : invalid.kind = .numeric)
    {r : Except RuleFault Float} (hr : ∀ e, r = .error (.report e) → e.kind = .domain) {c : Stop}
    (h : settle invalid r = .error c) : c.IsOfRule := by
  obtain ⟨e, rfl, rfl | he⟩ := settle_error h
  · exact .numeric hinvalid
  · exact .domain (hr e he)

theorem isOfRule_of_call {name : String} {x : Float} {c : Stop} (h : call name x = .error c) :
    c.IsOfRule := by
  unfold call at h
  split at h
  · exact isOfRule_of_settle rfl (fun _ => kind_of_function_apply) h
  · cases h
    exact .unknownSymbol _

theorem isOfRule_of_operate {symbol : String} {x y : Float} {c : Stop}
    (h : operate symbol x y = .error c) : c.IsOfRule := by
  unfold operate at h
  split at h
  · exact isOfRule_of_settle rfl (fun _ => kind_of_operator_apply) h
  · cases h
    exact .unknownSymbol _

theorem Step.exists_value {stack s : List Float} {t : Token} (h : Step scope stack t s) :
    t.kind.operands ≤ stack.length ∧ ∃ x, s = x :: stack.drop t.kind.operands := by
  cases h with
  | number => exact ⟨Nat.zero_le _, _, rfl⟩
  | identifier h => exact ⟨Nat.zero_le _, _, rfl⟩
  | function h => exact ⟨Nat.le_add_left 1 _, _, rfl⟩
  | operator h => exact ⟨Nat.le_add_left 2 _, _, rfl⟩

theorem Fails.cause {stack : List Float} {t : Token} {c : Stop} (h : Fails scope stack t c) :
    c.IsBeforeRule ∧ t.kind.operands = 0 ∨
      c.IsOfRule ∧ 0 < t.kind.operands ∧ t.kind.operands ≤ stack.length := by
  cases h with
  | identifier h => exact .inl ⟨load_error h ▸ .unknownName _, rfl⟩
  | function h => exact .inr ⟨isOfRule_of_call h, Nat.one_pos, Nat.le_add_left 1 _⟩
  | operator h => exact .inr ⟨isOfRule_of_operate h, Nat.two_pos, Nat.le_add_left 2 _⟩

theorem isBeforeRule_of_depthBehind {t : Token} {k : Nat} {e : Error}
    (h : t.depthBehind k = .error e) : (Stop.report e).IsBeforeRule := by
  unfold Token.depthBehind at h
  split at h
  · cases h
  · cases h
  · split at h <;> cases h
    exact .missingArgument
  · split at h <;> cases h
    exact .missingValues
  · cases h
    exact .bracket

/-- A token that fails leaves the stack as it was, or its rule has failed and its operands are
gone. -/
theorem feed_error_stack {stack : List Float} {t : Token} {halt : Halt}
    (h : feed scope stack t = .error halt) :
    halt.cause.IsBeforeRule ∧ halt.stack = stack ∨
      halt.cause.IsOfRule ∧ 0 < t.kind.operands ∧ t.kind.operands ≤ stack.length ∧
        halt.stack = stack.drop t.kind.operands := by
  rcases feed_error_cases h with ⟨e, hd, rfl⟩ | hfails
  · exact .inl ⟨isBeforeRule_of_depthBehind hd, rfl⟩
  · have hstack : halt.stack = stack.drop t.kind.operands :=
      congrArg Halt.stack (Except.error.inj (h.symm.trans hfails.feed_eq))
    rcases hfails.cause with ⟨hc, h0⟩ | ⟨hc, hpos, hle⟩
    · rw [h0] at hstack
      exact .inl ⟨hc, hstack⟩
    · exact .inr ⟨hc, hpos, hle, hstack⟩

end StackMachine

namespace Machine

/-! ## Tokens in a row -/

theorem feedEach_eq (ts : List Token) :
    ∀ m : Machine, m.feedEach ts = m.leave (StackMachine.feedAll m.scope m.stack ts) := by
  induction ts with
  | nil => exact fun m => rfl
  | cons t ts ih =>
    intro m
    rw [StackMachine.feedAll_cons, feedEach, feed]
    cases StackMachine.feed m.scope m.stack t with
    | ok stack => exact ih { m with stack }
    | error halt => rfl

theorem feedEach_clear (m : Machine) (ts : List Token) :
    m.clear.feedEach ts = m.clear.leave (StackMachine.feedAll m.scope [] ts) :=
  feedEach_eq ts m.clear

/-- A run answers as the stack machine does on the scope, whatever is on the stack before. -/
theorem run_eq (m : Machine) (ts : List Token) :
    (m.run ts).1 = (StackMachine.run m.scope ts).mapError StackMachine.Halt.cause := by
  rw [run, feedEach_clear, StackMachine.run_eq]
  cases StackMachine.feedAll m.scope [] ts with
  | ok stack => rfl
  | error halt => rfl

/-! ## Calls in a row -/

theorem scope_leave (m : Machine) (r : Except StackMachine.Halt (List Float)) :
    (m.leave r).2.scope = m.scope := by
  cases r <;> rfl

theorem scope_run (m : Machine) (ts : List Token) : (m.run ts).2.scope = m.scope := by
  rw [run, feedEach_clear]
  exact scope_leave m.clear _

theorem scope_perform (m : Machine) (c : Call) : (m.perform c).2.scope = m.scope := by
  cases c with
  | load name => rfl
  | feed t => exact scope_leave m _
  | run ts => exact scope_run m ts

theorem scope_performAll (calls : List Call) : ∀ m : Machine, (m.performAll calls).scope = m.scope := by
  induction calls with
  | nil => exact fun m => rfl
  | cons c calls ih => exact fun m => (ih (m.perform c).2).trans (scope_perform m c)

theorem run_eq_of_scope_eq {m m' : Machine} (h : m.scope = m'.scope) (ts : List Token) :
    m.run ts = m'.run ts := by
  have hclear : m.clear = m'.clear := by rw [clear, clear, h]
  rw [run, run, hclear]

/-- What a token leaves of a machine: its scope, and all that lies below the operands. -/
structure LeavesBelow (m : Machine) (t : Token) : Prop where
  scope : (m.feed t).2.scope = m.scope
  /-- A token that works puts one value in the place of its operands. -/
  value : (m.feed t).1 = .ok () → t.kind.operands ≤ m.stack.length ∧
    ∃ x, (m.feed t).2.stack = x :: m.stack.drop t.kind.operands
  /-- A token that fails before its rule is tried leaves the stack as it was. One whose rule fails
  leaves it without the operands. -/
  failure : ∀ c, (m.feed t).1 = .error c → (c.IsBeforeRule ∨ c.IsOfRule) ∧
    (c.IsBeforeRule → (m.feed t).2.stack = m.stack) ∧
    (c.IsOfRule → 0 < t.kind.operands ∧ t.kind.operands ≤ m.stack.length ∧
      (m.feed t).2.stack = m.stack.drop t.kind.operands)

theorem leavesBelow (m : Machine) (t : Token) : m.LeavesBelow t := by
  constructor
  · exact scope_leave m _
  · rw [feed]
    cases hf : StackMachine.feed m.scope m.stack t with
    | ok stack => exact fun _ => (StackMachine.step_of_feed hf).exists_value
    | error halt => exact nofun
  · rw [feed]
    cases hf : StackMachine.feed m.scope m.stack t with
    | ok stack => exact nofun
    | error halt =>
      intro c hc
      cases hc
      rcases StackMachine.feed_error_stack hf with ⟨hbefore, hstack⟩ | ⟨hrule, hstack⟩
      · exact ⟨.inl hbefore, fun _ => hstack, fun hrule => absurd hrule hbefore.not_isOfRule⟩
      · exact ⟨.inr hrule, fun hbefore => absurd hrule hbefore.not_isOfRule, fun _ => hstack⟩

/-- Whatever calls a machine has answered, it runs tokens like a new machine with the same scope. A
token that is fed leaves everything below its operands as it was, and the operands as well unless
its rule is tried. -/
theorem run_performAll (m : Machine) :
    (∀ calls ts, (m.performAll calls).run ts = ({ scope := m.scope } : Machine).run ts ∧
      ((m.performAll calls).run ts).1 =
        (StackMachine.run m.scope ts).mapError StackMachine.Halt.cause) ∧
    ∀ t, m.LeavesBelow t := by
  refine ⟨fun calls ts => ⟨run_eq_of_scope_eq (scope_performAll calls m) ts, ?_⟩, m.leavesBelow⟩
  rw [run_eq, scope_performAll]

/-- A quotient by zero takes its two operands from the stack. -/
example : (({ scope := {}, stack := [0, 1, 5] } : Machine).feed ⟨.operator "/", false⟩).2.stack =
    [5] := by decide +kernel

end Machine

end Calculator
