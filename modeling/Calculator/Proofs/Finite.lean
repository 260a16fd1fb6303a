import Calculator.Proofs.Substitution
import Calculator.Proofs.Variables

/-!
# Finite values

Where all definitions are finite, no other number is ever met while a text is evaluated.

* `OnlyFinite`: the stack behind every token, the stack on which a token fails, and the result.
* `Step.allFinite`, `feedAll_allFinite`: a token that is run leaves finite values, and so do tokens
  in a row.
* `evaluate_onlyFinite`: finite definitions are enough, and variables always are such.
-/
set_option autoImplicit false

namespace Calculator

/-- Every value is finite. -/
def AllFinite (xs : List Float) : Prop := ∀ x ∈ xs, x.isFinite

/-- Every bound value is finite. -/
def Bindings.AllFinite (b : Bindings) : Prop := ∀ p ∈ b.pairs, p.2.isFinite

/-- Every definition that stands for a float stands for a finite one. -/
def FiniteDefinitions (ds : Definitions) : Prop :=
  ∀ d ∈ ds, ∀ x, d.2.toFloat = .ok x → x.isFinite

/-! ## Numbers of a line -/

theorem isFinite_of_literal {ds : List Char} {x : Float} (h : Number.literal ds = .ok x) :
    x.isFinite := by
  unfold Number.literal at h
  simp only at h
  split at h
  · cases h
  · split at h
    · cases h
    · split at h
      · next hf =>
        cases h
        exact hf
      · cases h

/-- The number of a token, if it has one, is finite. -/
def Token.IsFinite (t : Token) : Prop := ∀ x, t.item = .number x → x.isFinite

theorem Token.isFinite_number {x : Float} (h : x.isFinite) : (number x).IsFinite := by
  intro y hy
  cases hy
  exact h

theorem Token.Reads.isFinite {previous : Option Token} {l : Lexeme} {ts : List Token}
    (h : Reads previous l ts) : ∀ t ∈ ts, t.IsFinite := by
  intro t ht
  cases h with
  | numeral hl =>
    rw [List.mem_singleton.mp ht]
    exact isFinite_number (isFinite_of_literal hl)
  | minus hm =>
    rcases List.mem_cons.mp ht with rfl | ht
    · exact isFinite_number Number.isFinite_zero
    · rw [List.mem_singleton.mp ht]
      exact fun x hx => (by cases hx)
  | identifier h => rw [List.mem_singleton.mp ht]; exact fun x hx => (by cases hx)
  | function h => rw [List.mem_singleton.mp ht]; exact fun x hx => (by cases hx)
  | operator h => rw [List.mem_singleton.mp ht]; exact fun x hx => (by cases hx)
  | opening => rw [List.mem_singleton.mp ht]; exact fun x hx => (by cases hx)
  | closing => rw [List.mem_singleton.mp ht]; exact fun x hx => (by cases hx)

theorem isFinite_of_mem_readPostfix {text : String} {p : List Token}
    (h : readPostfix text = .ok p) : ∀ t ∈ p, t.IsFinite := by
  have hline : ∀ t ∈ (TokenStream.ofLine text).tokens, t.IsFinite :=
    fun t ht => TokenStream.forall_mem_ofLexemes (fun hr => hr.isFinite) t ht
  exact fun t ht => hline t (mem_of_readPostfix h t ht)

/-! ## Scopes -/

theorem allFinite_constants : constants.AllFinite := by
  have h : constants.pairs.all (·.2.isFinite) = true := by decide +kernel
  exact List.all_eq_true.mp h

theorem Bindings.AllFinite.insert {b : Bindings} (hb : b.AllFinite) {x : Float}
    (hx : x.isFinite) (name : String) : (b.insert name x).AllFinite := by
  intro p hp
  rcases mem_insertPair hp with rfl | hp
  · exact hx
  · exact hb p hp

theorem allFinite_of_foldlM_overlay {ds : Definitions} (hds : FiniteDefinitions ds) :
    ∀ {b scope : Bindings}, b.AllFinite → ds.foldlM overlay b = .ok scope → scope.AllFinite := by
  induction ds with
  | nil =>
    intro b scope hb h
    cases h
    exact hb
  | cons d ds ih =>
    intro b scope hb h
    rw [List.foldlM_cons] at h
    obtain ⟨c, hc, h⟩ := bind_eq_ok_iff.mp h
    have hrest : FiniteDefinitions ds := fun q hq => hds q (List.mem_cons_of_mem d hq)
    refine ih hrest ?_ h
    cases hx : d.2.toFloat with
    | error fault =>
      rw [overlay, hx] at hc
      cases hc
    | ok x =>
      rw [overlay, hx] at hc
      cases hc
      exact hb.insert (hds d List.mem_cons_self x hx) _

theorem allFinite_of_scopeOf {ds : Definitions} (hds : FiniteDefinitions ds) {scope : Bindings}
    (h : scopeOf ds = .ok scope) : scope.AllFinite :=
  allFinite_of_foldlM_overlay hds allFinite_constants h

/-! ## Steps of the machine -/

namespace StackMachine

variable {scope : Bindings}

theorem isFinite_of_load (hscope : scope.AllFinite) {name : String} {x : Float}
    (h : load scope name = .ok x) : x.isFinite := by
  unfold load at h
  split at h
  · next y hy =>
    have hmem : (name, y) ∈ scope.pairs := Bindings.mem_of_find? hy
    injection h with h
    subst h
    exact hscope (name, y) hmem
  · cases h

theorem isFinite_of_settle {invalid : Error} {r : Except RuleFault Float} {x : Float}
    (h : settle invalid r = .ok x) : x.isFinite := by
  cases r with
  | ok y =>
    rw [settle] at h
    split at h
    · next hy =>
      cases h
      exact hy
    · cases h
  | error f => cases f <;> cases h

theorem isFinite_of_call {name : String} {x z : Float} (h : call name x = .ok z) :
    z.isFinite := by
  unfold call at h
  split at h
  · exact isFinite_of_settle h
  · cases h

theorem isFinite_of_operate {symbol : String} {x y z : Float}
    (h : operate symbol x y = .ok z) : z.isFinite := by
  unfold operate at h
  split at h
  · exact isFinite_of_settle h
  · cases h

/-- A token that is run leaves finite values: an operand is one, and a rule gives no other. -/
theorem Step.allFinite (hscope : scope.AllFinite) {stack s : List Float} {t : Token}
    (ht : t.IsFinite) (hstack : AllFinite stack) (h : Step scope stack t s) : AllFinite s := by
  cases h with
  | number => exact List.forall_mem_cons.mpr ⟨ht _ rfl, hstack⟩
  | identifier hx => exact List.forall_mem_cons.mpr ⟨isFinite_of_load hscope hx, hstack⟩
  | function hz =>
    have hbelow := (List.forall_mem_cons.mp hstack).2
    exact List.forall_mem_cons.mpr ⟨isFinite_of_call hz, hbelow⟩
  | operator hz =>
    have hbelow := (List.forall_mem_cons.mp (List.forall_mem_cons.mp hstack).2).2
    exact List.forall_mem_cons.mpr ⟨isFinite_of_operate hz, hbelow⟩

/-- A token that fails leaves a part of the stack. -/
theorem subset_of_feed_error {stack : List Float} {t : Token} {halt : Halt}
    (h : feed scope stack t = .error halt) : halt.stack ⊆ stack := by
  obtain ⟨item, unary⟩ := t
  cases item with
  | number x => cases h
  | identifier name =>
    rw [(push_eq_error_iff.mp h).2]
    exact List.Subset.refl stack
  | function name =>
    cases stack with
    | nil =>
      cases h
      exact List.Subset.refl []
    | cons x below =>
      rw [(push_eq_error_iff.mp h).2]
      exact List.subset_cons_self x below
  | operator symbol =>
    match stack, h with
    | [], h => cases h; exact List.Subset.refl []
    | [x], h => cases h; exact List.Subset.refl [x]
    | y :: x :: below, h =>
      rw [(push_eq_error_iff.mp h).2]
      exact fun z hz => List.mem_cons_of_mem y (List.mem_cons_of_mem x hz)
  | paren mark =>
    cases h
    exact List.Subset.refl stack

theorem feedAll_allFinite (hscope : scope.AllFinite) {ts : List Token}
    (hts : ∀ t ∈ ts, t.IsFinite) : ∀ {stack : List Float}, AllFinite stack →
      (∀ s, feedAll scope stack ts = .ok s → AllFinite s) ∧
        ∀ halt, feedAll scope stack ts = .error halt → AllFinite halt.stack := by
  induction ts with
  | nil =>
    intro stack hstack
    refine ⟨fun s h => ?_, fun halt h => (by cases h)⟩
    cases h
    exact hstack
  | cons t ts ih =>
    intro stack hstack
    have ht : t.IsFinite := hts t List.mem_cons_self
    have hts' : ∀ u ∈ ts, u.IsFinite := fun u hu => hts u (List.mem_cons_of_mem t hu)
    rw [feedAll_cons]
    cases hf : feed scope stack t with
    | ok u => exact ih hts' ((step_of_feed hf).allFinite hscope ht hstack)
    | error halt =>
      refine ⟨fun s h => (by cases h), fun halt' h => ?_⟩
      cases h
      exact fun x hx => hstack x (subset_of_feed_error hf hx)

end StackMachine

/-! ## Evaluations -/

/-- The machine holds finite values only while a text is evaluated, behind every token and where one
fails, and the value of the text is finite. -/
structure OnlyFinite (expression : String) (ds : Definitions) : Prop where
  stack : ∀ {p before : List Token} {scope : Bindings} {stack : List Float},
    readPostfix (Text.trim expression) = .ok p → scopeOf ds = .ok scope → before <+: p →
      StackMachine.feedAll scope [] before = .ok stack → AllFinite stack
  halt : ∀ {p before : List Token} {scope : Bindings} {halt : StackMachine.Halt},
    readPostfix (Text.trim expression) = .ok p → scopeOf ds = .ok scope → before <+: p →
      StackMachine.feedAll scope [] before = .error halt → AllFinite halt.stack
  value : ∀ {precision : Int} {r : Result} {x : Float},
    evaluate expression ds precision = .ok r → r.outcome = .ok x → x.isFinite

theorem onlyFinite_of_finiteDefinitions {ds : Definitions} (hds : FiniteDefinitions ds)
    (expression : String) : OnlyFinite expression ds := by
  have hrun : ∀ {p before : List Token} {scope : Bindings},
      readPostfix (Text.trim expression) = .ok p → scopeOf ds = .ok scope → before <+: p →
        (∀ s, StackMachine.feedAll scope [] before = .ok s → AllFinite s) ∧
          ∀ halt, StackMachine.feedAll scope [] before = .error halt → AllFinite halt.stack := by
    intro p before scope hp hscope hb
    have hts : ∀ t ∈ before, t.IsFinite :=
      fun t ht => isFinite_of_mem_readPostfix hp t (hb.subset ht)
    exact StackMachine.feedAll_allFinite (allFinite_of_scopeOf hds hscope) hts (by simp [AllFinite])
  refine ⟨fun hp hs hb h => (hrun hp hs hb).1 _ h, fun hp hs hb h => (hrun hp hs hb).2 _ h, ?_⟩
  intro precision r x hr hx
  obtain ⟨p, scope, hp, hs, hv⟩ := exists_run_of_evaluate hr hx
  have hall := (hrun hp hs (List.prefix_refl p)).1 _ (StackMachine.run_eq_ok_iff.mp hv)
  exact hall x List.mem_cons_self

theorem Registers.Kept.finiteDefinitions {r : Registers} (hr : r.Kept) :
    FiniteDefinitions r.definitions := by
  intro d hd x hx
  obtain ⟨p, hp, rfl⟩ := List.mem_map.mp hd
  cases hx
  exact hr.isFinite p hp

/-- Only finite numbers are met while a text is evaluated, where all definitions are finite, and so
with the variables behind any calls. -/
theorem evaluate_onlyFinite (expression : String) :
    (∀ ds, FiniteDefinitions ds → OnlyFinite expression ds) ∧
      ∀ calls, OnlyFinite expression (Registers.performAll {} calls).definitions :=
  ⟨fun _ hds => onlyFinite_of_finiteDefinitions hds expression,
    fun calls => onlyFinite_of_finiteDefinitions
      (Registers.kept_performAll calls).finiteDefinitions expression⟩

/-- A quotient on which the machine halts, behind a product that it still has. -/
theorem evaluate_onlyFinite_quotient : FiniteDefinitions [("x", .real 0.5)] ∧
    OnlyFinite "3*X + 1/(1 - 2*x)" [("x", .real 0.5)] := by
  have hds : FiniteDefinitions [("x", .real 0.5)] := by
    intro d hd x hx
    rw [List.mem_singleton.mp hd] at hx
    cases hx
    decide +kernel
  exact ⟨hds, (evaluate_onlyFinite "3*X + 1/(1 - 2*x)").1 _ hds⟩

end Calculator
