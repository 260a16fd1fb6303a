import Calculator.Proofs.Machine

/-!
# How many values there are

The number of values on the stack of the machine follows from the kinds of the tokens alone. So it
does not depend on the scope whether every token finds its operands and one value is left.

* `Token.depthBehind`, `depthAfter`: the number of values behind a token and behind tokens, or the
  error of the first token without its operands.
* `Fails`: how a token that finds its operands fails.
* `depthAfter_of_feedAll`: while no token fails, this is how many values there are.
* `feed_error_cases`, `run_error_cases`: a token fails for want of operands or on their values, and
  a run fails on a value, or the number of values is wrong.
-/
set_option autoImplicit false

namespace Calculator

/-! ## Numbers of values -/

/-- The number of values behind a token that is met with `k` of them. -/
def Token.depthBehind (k : Nat) (t : Token) : Except Error Nat :=
  match t.item with
  | .number _ | .identifier _ => .ok (k + 1)
  | .function _ => if k < 1 then .error .missingArgument else .ok k
  | .operator _ => if k < 2 then .error .missingValues else .ok (k - 1)
  | .paren _ => .error .mismatchedParentheses

/-- The number of values behind tokens. -/
def depthAfter (k : Nat) (ts : List Token) : Except Error Nat := ts.foldlM Token.depthBehind k

theorem depthAfter_cons (k : Nat) (t : Token) (ts : List Token) :
    depthAfter k (t :: ts) = (t.depthBehind k).bind (depthAfter · ts) := by
  simp only [depthAfter, List.foldlM_cons]
  rfl

theorem kind_of_depthBehind {k : Nat} {t : Token} {e : Error} (h : t.depthBehind k = .error e) :
    e.kind = .malformed := by
  unfold Token.depthBehind at h
  split at h
  · cases h
  · cases h
  · split at h <;> cases h
    rfl
  · split at h <;> cases h
    rfl
  · cases h
    rfl

theorem kind_of_depthAfter {ts : List Token} {e : Error} :
    ∀ {k : Nat}, depthAfter k ts = .error e → e.kind = .malformed := by
  induction ts with
  | nil =>
    intro k h
    cases h
  | cons t ts ih =>
    intro k h
    rw [depthAfter_cons] at h
    rcases bind_eq_error_iff.mp h with ht | ⟨j, _, h⟩
    · exact kind_of_depthBehind ht
    · exact ih h

namespace StackMachine

variable {scope : Bindings}

/-! ## Steps -/

/-- How a token that finds its operands fails. -/
inductive Fails (scope : Bindings) : List Float → Token → Stop → Prop where
  | identifier {stack : List Float} {name : String} {unary : Bool} {c : Stop}
      (h : load scope name = .error c) : Fails scope stack ⟨.identifier name, unary⟩ c
  | function {below : List Float} {name : String} {unary : Bool} {x : Float} {c : Stop}
      (h : call name x = .error c) : Fails scope (x :: below) ⟨.function name, unary⟩ c
  | operator {below : List Float} {symbol : String} {unary : Bool} {x y : Float} {c : Stop}
      (h : operate symbol x y = .error c) :
      Fails scope (y :: x :: below) ⟨.operator symbol, unary⟩ c

theorem Step.depth {stack s : List Float} {t : Token} (h : Step scope stack t s) :
    t.depthBehind stack.length = .ok s.length := by
  cases h <;> rfl

theorem Fails.kind {stack : List Float} {t : Token} {c : Stop} (ht : t.IsLexed)
    (h : Fails scope stack t c) : ∃ e, c = .report e ∧ e.kind ∈ valueKinds := by
  cases h with
  | identifier h => exact ⟨_, load_error h, List.mem_cons_self⟩
  | function h =>
    cases ht with
    | function f => exact call_error h
  | operator h =>
    cases ht with
    | operator op => exact operate_error h
    | minus => exact operate_error h

/-- A token halts the machine because it does not find its operands, or it fails on them. -/
theorem feed_error_cases {stack : List Float} {t : Token} {halt : Halt}
    (h : feed scope stack t = .error halt) :
    (∃ e, t.depthBehind stack.length = .error e ∧ halt = ⟨.report e, stack⟩) ∨
      Fails scope stack t halt.cause := by
  obtain ⟨item, unary⟩ := t
  cases item with
  | number x => cases h
  | identifier name => exact .inr (.identifier (push_eq_error_iff.mp h).1)
  | function name =>
    match stack, h with
    | [], h =>
      cases h
      exact .inl ⟨_, rfl, rfl⟩
    | x :: below, h => exact .inr (.function (push_eq_error_iff.mp h).1)
  | operator symbol =>
    match stack, h with
    | [], h =>
      cases h
      exact .inl ⟨_, rfl, rfl⟩
    | [_], h =>
      cases h
      exact .inl ⟨_, rfl, rfl⟩
    | y :: x :: below, h => exact .inr (.operator (push_eq_error_iff.mp h).1)
  | paren mark =>
    cases h
    exact .inl ⟨_, rfl, rfl⟩

/-! ## Runs -/

theorem depthAfter_of_feedAll {ts : List Token} :
    ∀ {stack s : List Float}, feedAll scope stack ts = .ok s →
      depthAfter stack.length ts = .ok s.length := by
  induction ts with
  | nil =>
    intro stack s h
    cases h
    rfl
  | cons t ts ih =>
    intro stack s h
    rw [feedAll_cons] at h
    obtain ⟨u, hf, h⟩ := bind_eq_ok_iff.mp h
    rw [depthAfter_cons, (step_of_feed hf).depth]
    exact ih h

theorem feedAll_error_cases {ts : List Token} (hts : ∀ t ∈ ts, t.IsLexed) :
    ∀ {stack : List Float} {halt : Halt}, feedAll scope stack ts = .error halt →
      ∃ e, halt.cause = .report e ∧
        (depthAfter stack.length ts = .error e ∨ e.kind ∈ valueKinds) := by
  induction ts with
  | nil =>
    intro stack halt h
    cases h
  | cons t ts ih =>
    intro stack halt h
    rw [feedAll_cons] at h
    rw [depthAfter_cons]
    rcases bind_eq_error_iff.mp h with hf | ⟨u, hf, h⟩
    · rcases feed_error_cases hf with ⟨e, hd, rfl⟩ | hfails
      · exact ⟨e, rfl, .inl (by rw [hd]; rfl)⟩
      · obtain ⟨e, hc, hk⟩ := hfails.kind (hts t List.mem_cons_self)
        exact ⟨e, hc, .inr hk⟩
    · rw [(step_of_feed hf).depth]
      exact ih (fun u hu => hts u (List.mem_cons_of_mem t hu)) h

theorem depthAfter_of_run {ts : List Token} {x : Float} (h : run scope ts = .ok x) :
    depthAfter 0 ts = .ok 1 := depthAfter_of_feedAll (run_eq_ok_iff.mp h)

/-- A run of lexed tokens fails on a value, or the number of values is wrong. -/
theorem run_error_cases {ts : List Token} {halt : Halt} (hts : ∀ t ∈ ts, t.IsLexed)
    (h : run scope ts = .error halt) :
    ∃ e, halt.cause = .report e ∧
      (e.kind ∈ valueKinds ∨ e.kind = .malformed ∧ depthAfter 0 ts ≠ .ok 1) := by
  rw [run_eq] at h
  rcases bind_eq_error_iff.mp h with hf | ⟨s, hf, h⟩
  · obtain ⟨e, hc, hd | hk⟩ := feedAll_error_cases hts hf
    · refine ⟨e, hc, .inr ⟨kind_of_depthAfter hd, ?_⟩⟩
      rw [List.length_nil] at hd
      rw [hd]
      exact fun he => (by cases he)
    · exact ⟨e, hc, .inl hk⟩
  · -- No token failed, so as many values are left as the tokens say.
    refine ⟨_, single_error h, .inr ⟨rfl, fun hd => ?_⟩⟩
    have hs : depthAfter 0 ts = .ok s.length := depthAfter_of_feedAll hf
    rw [hs] at hd
    match s, h, hd with
    | [_], h, _ => cases h

/-- The kinds of error with which the evaluation of a text can end. -/
def runKinds : List ErrorKind := [.malformed, .semantic, .domain, .numeric, .empty]

theorem run_report {ts : List Token} {halt : Halt} (hts : ∀ t ∈ ts, t.IsLexed)
    (h : run scope ts = .error halt) : ∃ e, halt.cause = .report e ∧ e.kind ∈ runKinds := by
  obtain ⟨e, hc, hk | ⟨hk, -⟩⟩ := run_error_cases hts h
  · refine ⟨e, hc, ?_⟩
    generalize e.kind = k at hk
    simp only [valueKinds, List.mem_cons, List.not_mem_nil, or_false] at hk
    rcases hk with rfl | rfl | rfl <;> decide
  · exact ⟨e, hc, by rw [hk]; decide⟩

end StackMachine

end Calculator
