import Calculator.Evaluation
import Calculator.Proofs.Grammar
import Calculator.Proofs.Machine

/-!
# Trees in postfix order

The machine computes the value of a tree from the tokens of the tree in postfix order.

* `Expr.postorder`: operands before their operator; a negation subtracts from a zero.
* `StackMachine.causes_postorder`: the tokens of a tree leave its value on any stack, or halt with
  its error.
* `runPostfix_postorder`: a run of the tokens gives the value of the tree.
* `StackMachine.run_eq_ok_iff_exists_tree`: tokens run to a value only if they are those of a tree.
-/
set_option autoImplicit false

namespace Calculator

/-- The tokens of a tree in postfix order. -/
def Expr.postorder : Expr → List Token
  | number x => [.number x]
  | identifier name => [⟨.identifier name, false⟩]
  | call f argument => argument.postorder ++ [.ofFunction f]
  | binary op left right => left.postorder ++ (right.postorder ++ [.ofOperator op])
  | negation e => .number 0 :: (e.postorder ++ [.minus])

namespace StackMachine

variable {scope : Bindings}

/-- The stack behind a value, or the cause of a halt behind an error. -/
def leave (stack : List Float) : Except Error Float → Except Stop (List Float)
  | .ok x => .ok (x :: stack)
  | .error e => .error (.report e)

/-- A run of tokens, of which only the cause of a halt is kept. -/
def causes (scope : Bindings) (stack : List Float) (ts : List Token) :
    Except Stop (List Float) :=
  (feedAll scope stack ts).mapError Halt.cause

theorem causes_append (stack : List Float) (a b : List Token) :
    causes scope stack (a ++ b) = (causes scope stack a).bind (causes scope · b) := by
  unfold causes
  rw [feedAll_append]
  cases feedAll scope stack a <;> rfl

theorem causes_singleton (stack : List Float) (t : Token) :
    causes scope stack [t] = (feed scope stack t).mapError Halt.cause := by
  unfold causes
  rw [feedAll_cons]
  cases feed scope stack t <;> rfl

theorem mapError_push (stack : List Float) (r : Except Error Float) :
    (push stack (r.mapError Stop.report)).mapError Halt.cause = leave stack r := by
  cases r <;> rfl

theorem settle_eq_finite (invalid : Error) (r : Except RuleFault Float) :
    settle invalid r = (finite invalid r).mapError Stop.report := by
  cases r with
  | ok x =>
    simp only [settle, finite]
    split <;> rfl
  | error fault => cases fault <;> rfl

theorem causes_identifier (stack : List Float) (name : String) :
    causes scope stack [⟨.identifier name, false⟩] =
      leave stack ((Expr.identifier name).value scope) := by
  rw [causes_singleton]
  simp only [feed, load, Expr.value]
  cases scope.find? name <;> rfl

theorem causes_function (stack : List Float) (x : Float) (f : Function) :
    causes scope (x :: stack) [.ofFunction f] =
      leave stack (finite .invalidFunctionResult (f.apply x)) := by
  rw [causes_singleton]
  simp only [feed, Token.ofFunction]
  rw [call_name, settle_eq_finite, mapError_push]

theorem causes_operator (stack : List Float) (x y : Float) (op : Operator) :
    causes scope (y :: x :: stack) [.ofOperator op] =
      leave stack (finite .invalidResult (op.apply x y)) := by
  rw [causes_singleton]
  simp only [feed, Token.ofOperator]
  rw [operate_symbol, settle_eq_finite, mapError_push]

theorem causes_minus (stack : List Float) (x : Float) :
    causes scope (x :: 0 :: stack) [.minus] = leave stack (finite .invalidResult (.ok (0 - x))) :=
  causes_operator stack 0 x .sub

/-- The tokens of a tree leave its value on any stack, or halt with its error. -/
theorem causes_postorder (e : Expr) :
    ∀ stack, causes scope stack e.postorder = leave stack (e.value scope) := by
  induction e with
  | number x => exact fun stack => rfl
  | identifier name => exact fun stack => causes_identifier stack name
  | call f argument ih =>
    intro stack
    rw [Expr.postorder, causes_append, ih, Expr.value]
    cases argument.value scope with
    | error e => rfl
    | ok x => exact causes_function stack x f
  | binary op left right ihl ihr =>
    intro stack
    rw [Expr.postorder, causes_append, ihl, Expr.value]
    cases left.value scope with
    | error e => rfl
    | ok x =>
      have h : causes scope (x :: stack) (right.postorder ++ [.ofOperator op]) = _ :=
        causes_append _ _ _
      rw [ihr] at h
      refine h.trans ?_
      cases right.value scope with
      | error e => rfl
      | ok y => exact causes_operator stack x y op
  | negation e ih =>
    intro stack
    have h : causes scope stack (.number 0 :: (e.postorder ++ [.minus])) =
        causes scope (0 :: stack) (e.postorder ++ [.minus]) :=
      causes_append stack [.number 0] (e.postorder ++ [.minus])
    rw [Expr.postorder, h, causes_append, ih, Expr.value]
    cases e.value scope with
    | error err => rfl
    | ok x => exact causes_minus stack x

theorem run_postorder (e : Expr) :
    (run scope e.postorder).mapError Halt.cause = (e.value scope).mapError Stop.report := by
  have h : causes scope [] e.postorder = leave [] (e.value scope) := causes_postorder e []
  rw [causes] at h
  rw [run_eq]
  cases hf : feedAll scope [] e.postorder with
  | ok s =>
    rw [hf] at h
    cases hv : e.value scope with
    | ok x =>
      rw [hv] at h
      cases h
      rfl
    | error err =>
      rw [hv] at h
      cases h
  | error halt =>
    rw [hf] at h
    cases hv : e.value scope with
    | ok x =>
      rw [hv] at h
      cases h
    | error err =>
      rw [hv] at h
      exact congrArg Except.error (Except.error.inj h)

end StackMachine

theorem runPostfix_postorder (scope : Bindings) (e : Expr) :
    runPostfix scope e.postorder = .ok (e.value scope) := by
  rw [runPostfix, StackMachine.run_postorder]
  cases e.value scope <;> rfl

/-! ## Tokens that make trees -/

/-- The items of trees in postfix order, the tree of the topmost value first in the list. -/
def itemsOf : List Expr → List Item
  | [] => []
  | e :: es => itemsOf es ++ e.postorder.map Token.item

namespace StackMachine

variable {scope : Bindings}

theorem feed_congr {t u : Token} (h : t.item = u.item) (stack : List Float) :
    feed scope stack t = feed scope stack u := by
  unfold feed
  rw [h]

theorem feedAll_congr {a : List Token} :
    ∀ {b : List Token}, a.map Token.item = b.map Token.item →
      ∀ stack, feedAll scope stack a = feedAll scope stack b := by
  induction a with
  | nil =>
    intro b h stack
    rw [List.map_eq_nil_iff.mp h.symm]
  | cons t a ih =>
    intro b h stack
    cases b with
    | nil => cases h
    | cons u b =>
      injection h with hu hb
      rw [feedAll_cons, feedAll_cons, feed_congr hu]
      exact congrArg _ (funext (ih hb))

theorem run_congr {a b : List Token} (h : a.map Token.item = b.map Token.item) :
    run scope a = run scope b := by
  rw [run_eq, run_eq, feedAll_congr h]

theorem settle_eq_ok_iff {invalid : Error} {r : Except RuleFault Float} {x : Float} :
    settle invalid r = .ok x ↔ finite invalid r = .ok x := by
  rw [settle_eq_finite]
  cases finite invalid r with
  | ok y => constructor <;> intro h <;> cases h <;> rfl
  | error e => constructor <;> intro h <;> cases h

/-- A token that is run turns the trees of the stack into the trees of the next one. -/
theorem Step.exists_trees {stack s : List Float} {t : Token} (ht : t.IsLexed) {es : List Expr}
    (hes : es.map (Expr.value scope) = stack.map .ok) (h : Step scope stack t s) :
    ∃ es', es'.map (Expr.value scope) = s.map .ok ∧ itemsOf es' = itemsOf es ++ [t.item] := by
  have hbinary : ∀ op : Operator, Step scope stack (.ofOperator op) s →
      ∃ es', es'.map (Expr.value scope) = s.map .ok ∧
        itemsOf es' = itemsOf es ++ [.operator op.symbol] := by
    intro op h
    cases h with
    | @operator below symbol unary x y z hz =>
      rw [operate_symbol, settle_eq_ok_iff] at hz
      obtain ⟨b, es, rfl, hb, hes⟩ := List.map_eq_cons_iff.mp hes
      obtain ⟨a, es, rfl, ha, hes⟩ := List.map_eq_cons_iff.mp hes
      have hv : (Expr.binary op a b).value scope = .ok z := by
        rw [Expr.value, ha, hb]
        exact hz
      refine ⟨.binary op a b :: es, by simp [hv, hes], ?_⟩
      simp [itemsOf, Expr.postorder, Token.ofOperator]
  cases ht with
  | number x =>
    cases h
    exact ⟨.number x :: es, by simp [hes, Expr.value], rfl⟩
  | identifier name =>
    cases h with
    | @identifier _ _ _ x hx =>
      have hv : (Expr.identifier name).value scope = .ok x := by
        unfold load at hx
        rw [Expr.value]
        cases hs : scope.find? name with
        | some y =>
          rw [hs] at hx
          cases hx
          rfl
        | none =>
          rw [hs] at hx
          cases hx
      exact ⟨.identifier name :: es, by simp [hv, hes], rfl⟩
  | function f =>
    cases h with
    | @function below _ _ x z hz =>
      rw [call_name, settle_eq_ok_iff] at hz
      obtain ⟨a, es, rfl, ha, hes⟩ := List.map_eq_cons_iff.mp hes
      have hv : (Expr.call f a).value scope = .ok z := by
        rw [Expr.value, ha]
        exact hz
      exact ⟨.call f a :: es, by simp [hv, hes], by simp [itemsOf, Expr.postorder]⟩
  | operator op => exact hbinary op h
  | minus =>
    cases h with
    | operator hz => exact hbinary .sub (.operator hz)
  | opening => cases h
  | closing => cases h

theorem exists_trees_of_feedAll {ts : List Token} (hts : ∀ t ∈ ts, t.IsLexed) :
    ∀ {stack s : List Float} {es : List Expr}, es.map (Expr.value scope) = stack.map .ok →
      feedAll scope stack ts = .ok s →
      ∃ es', es'.map (Expr.value scope) = s.map .ok ∧
        itemsOf es' = itemsOf es ++ ts.map Token.item := by
  induction ts with
  | nil =>
    intro stack s es hes h
    cases h
    exact ⟨es, hes, by simp⟩
  | cons t ts ih =>
    intro stack s es hes h
    rw [feedAll_cons] at h
    obtain ⟨u, hf, h⟩ := bind_eq_ok_iff.mp h
    obtain ⟨es', hes', hi'⟩ := (step_of_feed hf).exists_trees (hts t List.mem_cons_self) hes
    obtain ⟨es'', hes'', hi''⟩ := ih (fun u hu => hts u (List.mem_cons_of_mem t hu)) hes' h
    exact ⟨es'', hes'', by simp [hi'', hi']⟩

/-- A run has a value exactly if its tokens are those of a tree with this value, up to their
marks. -/
theorem run_eq_ok_iff_exists_tree {ts : List Token} (hts : ∀ t ∈ ts, t.IsLexed) {x : Float} :
    run scope ts = .ok x ↔
      ∃ e : Expr, ts.map Token.item = e.postorder.map Token.item ∧ e.value scope = .ok x := by
  constructor
  · intro h
    have hnil : ([] : List Expr).map (Expr.value scope) = ([] : List Float).map .ok := rfl
    obtain ⟨es, hes, hi⟩ := exists_trees_of_feedAll hts hnil (run_eq_ok_iff.mp h)
    obtain ⟨e, es, rfl, he, hes⟩ := List.map_eq_cons_iff.mp hes
    rw [List.map_eq_nil_iff.mp hes] at hi
    exact ⟨e, by simpa [itemsOf] using hi.symm, he⟩
  · rintro ⟨e, hi, he⟩
    have h : (run scope e.postorder).mapError Halt.cause = .ok x := by
      rw [run_postorder, he]
      rfl
    rw [run_congr hi]
    cases hr : run scope e.postorder with
    | ok y =>
      rw [hr] at h
      cases h
      rfl
    | error halt =>
      rw [hr] at h
      cases h

end StackMachine

end Calculator
