import Calculator.Proofs.Reuse

/-!
# What lies below on the stack

A machine that has more values below those that it works on answers as it does without them, and
leaves them as they are. Only the check for missing operands looks that far down.

* `Stop.IsMissingOperands`, `FindsOperands`: the two causes that more values can take away, and the
  answers without them.
* `StackMachine.feed_append_of_error`: a token that fails for another cause.
* `Machine.onTopOf`, `Machine.feed_onTopOf`, `Machine.feedEach_onTopOf`: a token, and tokens in a
  row, on a machine with more values below.
* `Machine.HaltsAt`: the place of the token that fails.
* `Machine.feedEach_framed`: what a machine does with more values below.
-/
set_option autoImplicit false

namespace Calculator

/-- The causes of a token that does not find its operands. -/
inductive Stop.IsMissingOperands : Stop → Prop where
  | argument : IsMissingOperands (.report .missingArgument)
  | values : IsMissingOperands (.report .missingValues)

/-- An answer that is not for want of operands. -/
def FindsOperands (r : Except Stop Unit) : Prop := ∀ c, r = .error c → ¬ c.IsMissingOperands

theorem findsOperands_ok : FindsOperands (.ok ()) := by
  intro c h
  cases h

theorem findsOperands_error {c : Stop} (hc : ¬ c.IsMissingOperands) : FindsOperands (.error c) := by
  intro c' h
  cases h
  exact hc

namespace StackMachine

variable {scope : Bindings} {stack : List Float} {t : Token}

/-! ## Tokens that fail -/

/-- What is wrong with a token before it is run: it lacks operands, or it is a bracket. -/
theorem fault_cases {k : Kind} {d : Int} {e : Error} (h : k.fault d = some e) :
    (Stop.report e).IsMissingOperands ∨ k = .paren ∧ e = .mismatchedParentheses := by
  cases k with
  | number => cases h
  | identifier => cases h
  | function =>
    simp only [Kind.fault] at h
    split at h <;> cases h
    exact .inl .argument
  | operator =>
    simp only [Kind.fault] at h
    split at h <;> cases h
    exact .inl .values
  | paren =>
    cases h
    exact .inr ⟨rfl, rfl⟩

theorem Fails.append {c : Stop} (h : Fails scope stack t c) (below : List Float) :
    Fails scope (stack ++ below) t c := by
  cases h with
  | identifier h => exact .identifier h
  | function h => exact .function h
  | operator h => exact .operator h

theorem Fails.operands_le {c : Stop} (h : Fails scope stack t c) :
    t.kind.operands ≤ stack.length := by
  rcases h.cause with ⟨-, h0⟩ | ⟨-, -, hle⟩
  · exact h0 ▸ Nat.zero_le _
  · exact hle

theorem feed_append_of_error {halt : Halt} (h : feed scope stack t = .error halt)
    (hc : ¬ halt.cause.IsMissingOperands) (below : List Float) :
    feed scope (stack ++ below) t = .error ⟨halt.cause, halt.stack ++ below⟩ := by
  rcases feed_error_cases h with ⟨e, hd, rfl⟩ | hfails
  · -- A bracket fails on every stack alike.
    rcases fault_cases (depthBehind_eq_error_iff.mp hd) with hmissing | ⟨hk, rfl⟩
    · exact absurd hmissing hc
    · exact feed_of_fault (by rw [hk]; rfl)
  · have hstack : halt.stack = stack.drop t.kind.operands :=
      congrArg Halt.stack (Except.error.inj (h.symm.trans hfails.feed_eq))
    rw [(hfails.append below).feed_eq, List.drop_append_of_le_length hfails.operands_le, hstack]

end StackMachine

namespace Machine

/-! ## More values below -/

/-- The machine with more values below its own. -/
def onTopOf (m : Machine) (below : List Float) : Machine := { m with stack := m.stack ++ below }

theorem feed_onTopOf {m : Machine} {t : Token} (h : FindsOperands (m.feed t).1)
    (below : List Float) :
    (m.onTopOf below).feed t = ((m.feed t).1, (m.feed t).2.onTopOf below) := by
  rw [feed] at h
  rw [feed, feed]
  cases hf : StackMachine.feed m.scope m.stack t with
  | ok stack =>
    have hover : StackMachine.feed m.scope (m.stack ++ below) t = .ok (stack ++ below) :=
      StackMachine.feed_of_step ((StackMachine.step_of_feed hf).append below)
    rw [onTopOf, hover]
    rfl
  | error halt =>
    rw [hf] at h
    have hover := StackMachine.feed_append_of_error hf (h _ rfl) below
    rw [onTopOf, hover]
    rfl

theorem feedEach_onTopOf {ts : List Token} :
    ∀ {m : Machine}, FindsOperands (m.feedEach ts).1 → ∀ below,
      (m.onTopOf below).feedEach ts = ((m.feedEach ts).1, (m.feedEach ts).2.onTopOf below) := by
  induction ts with
  | nil => exact fun _ below => rfl
  | cons t ts ih =>
    intro m h below
    rw [feedEach] at h
    rw [feedEach, feedEach]
    cases hf : m.feed t with
    | mk r m' =>
      rw [hf] at h
      cases r with
      | ok u =>
        rw [feed_onTopOf (by rw [hf]; exact findsOperands_ok) below, hf]
        exact ih h below
      | error cause => rw [feed_onTopOf (by rw [hf]; exact h) below, hf]

theorem feedEach_append {a : List Token} :
    ∀ {m m' : Machine}, m.feedEach a = (.ok (), m') → ∀ b, m.feedEach (a ++ b) = m'.feedEach b := by
  induction a with
  | nil =>
    intro m m' h b
    cases h
    rfl
  | cons t a ih =>
    intro m m' h b
    rw [feedEach] at h
    rw [List.cons_append, feedEach]
    cases hf : m.feed t with
    | mk r m₁ =>
      rw [hf] at h
      cases r with
      | ok u => exact ih h b
      | error cause => cases h

/-! ## Where a machine halts -/

/-- The token at the place `n` is the first that fails. It does so with the cause `c` and leaves the
machine `m'`. -/
def HaltsAt (m : Machine) (ts : List Token) (n : Nat) (c : Stop) (m' : Machine) : Prop :=
  ∃ t m₁, ts[n]? = some t ∧ m.feedEach (ts.take n) = (.ok (), m₁) ∧ m₁.feed t = (.error c, m')

theorem HaltsAt.feedEach_eq {m m' : Machine} {ts : List Token} {n : Nat} {c : Stop}
    (h : m.HaltsAt ts n c m') : m.feedEach ts = (.error c, m') := by
  obtain ⟨t, m₁, ht, hbefore, hf⟩ := h
  obtain ⟨hn, rfl⟩ := List.getElem?_eq_some_iff.mp ht
  rw [← List.take_append_drop n ts, feedEach_append hbefore, List.drop_eq_getElem_cons hn, feedEach,
    hf]

theorem HaltsAt.onTopOf {m m' : Machine} {ts : List Token} {n : Nat} {c : Stop}
    (h : m.HaltsAt ts n c m') (hc : ¬ c.IsMissingOperands) (below : List Float) :
    (m.onTopOf below).HaltsAt ts n c (m'.onTopOf below) := by
  obtain ⟨t, m₁, ht, hbefore, hf⟩ := h
  refine ⟨t, m₁.onTopOf below, ht, ?_, ?_⟩
  · rw [feedEach_onTopOf (by rw [hbefore]; exact findsOperands_ok) below, hbefore]
  · rw [feed_onTopOf (by rw [hf]; exact findsOperands_error hc) below, hf]

/-- Tokens that work, and tokens of which one fails for any cause but missing operands, do the same
at the same place when more values lie below, and leave these as they are. So tokens that leave one
value on the empty stack put this value on any other. -/
theorem feedEach_framed (scope : Bindings) (ts : List Token) (below : List Float) :
    (∀ stack s, feedEach ⟨scope, stack⟩ ts = (.ok (), ⟨scope, s⟩) →
      feedEach ⟨scope, stack ++ below⟩ ts = (.ok (), ⟨scope, s ++ below⟩)) ∧
    (∀ stack n c s, HaltsAt ⟨scope, stack⟩ ts n c ⟨scope, s⟩ → ¬ c.IsMissingOperands →
      HaltsAt ⟨scope, stack ++ below⟩ ts n c ⟨scope, s ++ below⟩ ∧
        feedEach ⟨scope, stack ++ below⟩ ts = (.error c, ⟨scope, s ++ below⟩)) ∧
    ∀ x, feedEach ⟨scope, []⟩ ts = (.ok (), ⟨scope, [x]⟩) →
      ∀ us, feedEach ⟨scope, below⟩ (ts ++ us) = feedEach ⟨scope, x :: below⟩ us := by
  have hok : ∀ stack s, feedEach ⟨scope, stack⟩ ts = (.ok (), ⟨scope, s⟩) →
      feedEach ⟨scope, stack ++ below⟩ ts = (.ok (), ⟨scope, s ++ below⟩) := by
    intro stack s h
    have hover := feedEach_onTopOf (by rw [h]; exact findsOperands_ok) below
    rwa [h] at hover
  refine ⟨hok, fun stack n c s h hc => ?_, fun x h => feedEach_append (hok [] [x] h)⟩
  have hover : HaltsAt ⟨scope, stack ++ below⟩ ts n c ⟨scope, s ++ below⟩ := h.onTopOf hc below
  exact ⟨hover, hover.feedEach_eq⟩

/-- A quotient by zero takes its operands from the top, and a product puts its value there. -/
theorem feedEach_framed_quotient :
    HaltsAt ⟨{}, []⟩ [.number 1, .number 0, .ofOperator .div] 2 (.report .divisionByZero) ⟨{}, []⟩ ∧
    HaltsAt ⟨{}, [5, 7]⟩ [.number 1, .number 0, .ofOperator .div] 2 (.report .divisionByZero)
      ⟨{}, [5, 7]⟩ ∧
    feedEach ⟨{}, []⟩ [.number 2, .number 3, .ofOperator .mul] = (.ok (), ⟨{}, [6]⟩) ∧
    ∀ us, feedEach ⟨{}, [5, 7]⟩ ([.number 2, .number 3, .ofOperator .mul] ++ us) =
      feedEach ⟨{}, [6, 5, 7]⟩ us := by
  have hquotient : HaltsAt ⟨{}, []⟩ [.number 1, .number 0, .ofOperator .div] 2
      (.report .divisionByZero) ⟨{}, []⟩ := ⟨.ofOperator .div, ⟨{}, [0, 1]⟩, rfl, rfl, rfl⟩
  have hsix : (2 : Float) * 3 = 6 ∧ (6 : Float).isFinite := by decide +kernel
  have hoperate : StackMachine.operate Operator.mul.symbol 2 3 = .ok 6 := by
    simp [StackMachine.operate_symbol, Operator.apply, StackMachine.settle, hsix]
  have hfeed : StackMachine.feed {} [3, 2] (.ofOperator .mul) = .ok [6] :=
    StackMachine.feed_of_step (.operator hoperate)
  have hproduct : feedEach ⟨{}, []⟩ [.number 2, .number 3, .ofOperator .mul] =
      (.ok (), ⟨{}, [6]⟩) := by
    rw [feedEach_eq]
    exact congrArg (leave ⟨{}, []⟩) hfeed
  obtain ⟨-, hhalts, -⟩ :=
    feedEach_framed {} [.number 1, .number 0, .ofOperator .div] [5, 7]
  obtain ⟨-, -, hvalue⟩ := feedEach_framed {} [.number 2, .number 3, .ofOperator .mul] [5, 7]
  have hcause : ¬ (Stop.report .divisionByZero).IsMissingOperands := by
    intro h
    cases h
  exact ⟨hquotient, (hhalts [] 2 _ [] hquotient hcause).1, hproduct, hvalue 6 hproduct⟩

end Machine

end Calculator
