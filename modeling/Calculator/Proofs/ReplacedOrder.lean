import Calculator.Proofs.Machine
import Calculator.Proofs.ReplacedTokens

/-!
# The order of replaced tokens

The yard treats a balanced group as a single operand, and the machine runs the tokens of the group
from any stack as it does from the empty one.

* `Yard.feedAll_above`, `Yard.feedAll_balancedGroup`: tokens on top of a bracket.
* `FunctionsApplied`: every function stands in front of a group. `Yard.Ready` is what this means for
  the stack, kept by every step.
* `toPostfix_replace`: an identifier may be replaced before or after the tokens are rearranged.
* `StackMachine.feedAll_replace`: replaced tokens run as the tokens do in a scope that binds the
  identifier.
-/
set_option autoImplicit false

namespace Calculator

namespace Yard

/-! ## On top of a bracket -/

theorem applyFunction_above {p : Token} (hp : p.isParen) (o out stack base : List Token) :
    applyFunction (o ++ out) (stack ++ p :: base) =
      ⟨(applyFunction o stack).output ++ out, (applyFunction o stack).stack ++ p :: base⟩ := by
  cases stack with
  | nil => simp [applyFunction, Token.isFunction_of_isParen hp]
  | cons t stack =>
    cases hf : t.isFunction <;> simp [applyFunction, hf]

theorem Step.above {y z : Yard} {t p : Token} (h : y.Step t z) (hp : p.isParen)
    (out base : List Token) :
    Step ⟨y.output ++ out, y.stack ++ p :: base⟩ t ⟨z.output ++ out, z.stack ++ p :: base⟩ := by
  cases h with
  | operand h => exact .operand h
  | hold h => exact .hold h
  | @operator popped rest h hs hpop hr =>
    have hstack : y.stack ++ p :: base = popped ++ (rest ++ p :: base) := by
      rw [hs, List.append_assoc]
    have hhead : ∀ q ∈ (rest ++ p :: base).head?, q.outranks t = .ok false := by
      cases rest with
      | nil =>
        intro q hq
        cases hq
        exact Token.outranks_of_not_isOperator (Token.isOperator_of_isParen hp)
      | cons q rest => exact hr
    have hstep : Step ⟨y.output ++ out, y.stack ++ p :: base⟩ t
        ⟨popped.reverse ++ (y.output ++ out), t :: (rest ++ p :: base)⟩ :=
      .operator h hstack hpop hhead
    rwa [← List.append_assoc] at hstep
  | @close above rest q h hs ha hq =>
    have hstack : y.stack ++ p :: base = above ++ q :: (rest ++ p :: base) := by
      rw [hs, List.append_assoc, List.cons_append]
    have hstep : Step ⟨y.output ++ out, y.stack ++ p :: base⟩ t
        (applyFunction (above.reverse ++ (y.output ++ out)) (rest ++ p :: base)) :=
      .close h hstack ha hq
    rwa [← List.append_assoc, applyFunction_above hp] at hstep

theorem feedAll_above {p : Token} (hp : p.isParen) (out base : List Token) {ts : List Token} :
    ∀ {y z : Yard}, y.feedAll ts = .ok z →
      feedAll ⟨y.output ++ out, y.stack ++ p :: base⟩ ts =
        .ok ⟨z.output ++ out, z.stack ++ p :: base⟩ := by
  induction ts with
  | nil =>
    intro y z h
    cases h
    rfl
  | cons t ts ih =>
    intro y z h
    rw [feedAll_cons] at h
    obtain ⟨u, hu, h⟩ := bind_eq_ok_iff.mp h
    rw [feedAll_cons_of_step ((step_of_feed hu).above hp out base)]
    exact ih h

/-- A group whose tokens have a postfix order goes to the output as a whole, unless it is the
argument of a function. -/
theorem feedAll_balancedGroup {us p out stack : List Token} (hp : toPostfix us = .ok p)
    (htop : ∀ t ∈ stack.head?, t.isFunction = false) :
    feedAll ⟨out, stack⟩ (.opening :: (us ++ [.closing])) = .ok ⟨p.reverse ++ out, stack⟩ := by
  obtain ⟨y, hy, hs, rfl⟩ := toPostfix_eq_ok_iff.mp hp
  have hin : feedAll ⟨out, .opening :: stack⟩ us =
      .ok ⟨y.output.reverse.reverse ++ out, y.stack ++ .opening :: stack⟩ := by
    rw [List.reverse_reverse]
    exact feedAll_above (p := .opening) rfl out stack hy
  rw [feedAll_group hin hs, applyFunction_of_head? htop]

/-! ## Functions on the stack -/

/-- Every function of a stack, but for one on top, lies right below a bracket. -/
def Sheltered : List Token → Prop
  | t :: f :: stack => (f.isFunction → t.isParen) ∧ Sheltered (f :: stack)
  | [_] | [] => True

theorem Sheltered.cons {t : Token} {stack : List Token}
    (ht : ∀ f ∈ stack.head?, f.isFunction → t.isParen) (h : Sheltered stack) :
    Sheltered (t :: stack) := by
  cases stack with
  | nil => trivial
  | cons f stack => exact ⟨ht f rfl, h⟩

theorem Sheltered.uncons {t : Token} {stack : List Token} (h : Sheltered (t :: stack)) :
    (∀ f ∈ stack.head?, f.isFunction → t.isParen) ∧ Sheltered stack := by
  cases stack with
  | nil => exact ⟨by simp, trivial⟩
  | cons f stack =>
    refine ⟨fun g hg => ?_, h.2⟩
    cases hg
    exact h.1

/-- When tokens that are no brackets leave a stack without a function on top, none comes to lie
there. -/
theorem Sheltered.of_append {a stack : List Token} (h : Sheltered (a ++ stack))
    (ha : ∀ t ∈ a, t.isParen = false) (htop : ∀ f ∈ (a ++ stack).head?, f.isFunction = false) :
    Sheltered stack ∧ ∀ f ∈ stack.head?, f.isFunction = false := by
  induction a with
  | nil => exact ⟨h, htop⟩
  | cons t a ih =>
    obtain ⟨ht, h⟩ := Sheltered.uncons h
    refine ih h (fun u hu => ha u (List.mem_cons_of_mem t hu)) fun f hf => ?_
    refine Bool.eq_false_iff.mpr fun hfun => ?_
    have hparen := ht f hf hfun
    rw [ha t List.mem_cons_self] at hparen
    cases hparen

end Yard

/-- Every function stands in front of an opening bracket. -/
def FunctionsApplied (ts : List Token) : Prop :=
  ∀ a f b, ts = a ++ f :: b → f.isFunction → b.head? = some .opening

theorem functionsApplied_nil : FunctionsApplied [] := by
  intro a f b h
  simp at h

theorem functionsApplied_cons {t : Token} {ts : List Token} :
    FunctionsApplied (t :: ts) ↔
      (t.isFunction → ts.head? = some .opening) ∧ FunctionsApplied ts := by
  constructor
  · refine fun h => ⟨h [] t ts rfl, fun a f b hts => h (t :: a) f b ?_⟩
    rw [hts, List.cons_append]
  · rintro ⟨ht, hts⟩ a f b h
    cases a with
    | nil =>
      cases h
      exact ht
    | cons u a =>
      cases h
      exact hts a f b rfl

instance decidableFunctionsApplied : (ts : List Token) → Decidable (FunctionsApplied ts)
  | [] => isTrue functionsApplied_nil
  | _ :: ts =>
    have := decidableFunctionsApplied ts
    decidable_of_iff _ functionsApplied_cons.symm

namespace Yard

/-- The stack in front of tokens: it holds no operands, and its functions wait for a group, the one
on top for the group with which the tokens start. -/
structure Ready (y : Yard) (ts : List Token) : Prop where
  waits : ∀ t ∈ y.stack, t.isOperand = false
  sheltered : Sheltered y.stack
  top : ∀ f ∈ y.stack.head?, f.isFunction → ts.head? = some .opening

theorem ready_empty (ts : List Token) : Ready {} ts where
  waits := by simp
  sheltered := trivial
  top := by simp

theorem Ready.top_eq_false {y : Yard} {t : Token} {ts : List Token} (h : y.Ready (t :: ts))
    (ht : t ≠ .opening) : ∀ f ∈ y.stack.head?, f.isFunction = false := by
  intro f hf
  refine Bool.eq_false_iff.mpr fun hfun => ?_
  exact ht (Option.some.inj (h.top f hf hfun))

theorem Step.ready {y z : Yard} {t : Token} {ts : List Token} (h : y.Step t z)
    (hy : y.Ready (t :: ts)) (ht : t.isFunction → ts.head? = some .opening) : z.Ready ts := by
  cases h with
  | operand h =>
    have hne : t ≠ .opening := by
      rintro rfl
      cases h
    refine ⟨hy.waits, hy.sheltered, fun f hf hfun => ?_⟩
    rw [hy.top_eq_false hne f hf] at hfun
    cases hfun
  | hold h =>
    have hwaits : t.isOperand = false := by
      rcases h with h | h
      · exact Token.isOperand_eq_false (.inl h)
      · exact Token.isOperand_eq_false (.inr (.inr (by simp [Token.isParen_eq_isSome_side?, h])))
    refine ⟨fun u hu => ?_, hy.sheltered.cons fun f hf hfun => ?_, fun f hf hfun => ?_⟩
    · rcases List.mem_cons.mp hu with rfl | hu
      · exact hwaits
      · exact hy.waits u hu
    · have hopen : t = .opening := Option.some.inj (hy.top f hf hfun)
      rw [hopen]
      rfl
    · cases hf
      exact ht hfun
  | @operator popped rest h hs hp hr =>
    have hne : t ≠ .opening := by
      rintro rfl
      cases h
    have hpop : ∀ p ∈ popped, p.isParen = false := fun p hm =>
      Token.isParen_of_isOperator (Token.isOperator_of_outranks (hp p hm))
    have hsh := hy.sheltered
    have htop := hy.top_eq_false hne
    rw [hs] at hsh htop
    obtain ⟨hrest, hhead⟩ := hsh.of_append hpop htop
    refine ⟨fun u hu => ?_, hrest.cons fun f hf hfun => ?_, fun f hf hfun => ?_⟩
    · rcases List.mem_cons.mp hu with rfl | hu
      · exact Token.isOperand_eq_false (.inr (.inl h))
      · exact hy.waits u (by rw [hs]; exact List.mem_append_right _ hu)
    · rw [hhead f hf] at hfun
      cases hfun
    · cases hf
      exact ht hfun
  | @close above rest p h hs ha hp =>
    have hne : t ≠ .opening := by
      rintro rfl
      cases h
    have hsh := hy.sheltered
    have htop := hy.top_eq_false hne
    rw [hs] at hsh htop
    obtain ⟨hrest, -⟩ := hsh.of_append ha htop
    have hwaits : ∀ u ∈ rest, u.isOperand = false := fun u hu =>
      hy.waits u (by rw [hs]; exact List.mem_append_right _ (List.mem_cons_of_mem p hu))
    rcases applyFunction_cases (above.reverse ++ y.output) rest with
      ⟨f, rest, rfl, hf, he⟩ | ⟨hf, he⟩
    · rw [he]
      obtain ⟨hbelow, hrest⟩ := hrest.uncons.2.uncons
      refine ⟨fun u hu => hwaits u (List.mem_cons_of_mem f hu), hrest, fun g hg hfun => ?_⟩
      have hparen := hbelow g hg hfun
      rw [Token.isParen_of_isFunction hf] at hparen
      cases hparen
    · rw [he]
      refine ⟨hwaits, hrest.uncons.2, fun g hg hfun => ?_⟩
      rw [hf g hg] at hfun
      cases hfun

/-! ## Replaced output -/

/-- The yard with an identifier replaced in its output. -/
def replace (name : String) (p : List Token) (y : Yard) : Yard :=
  { y with output := y.output.flatMap fun t => (replaceToken name p t).reverse }

section Replace

variable {name : String} {us p : List Token}

theorem replaceToken_of_not_isOperand {t : Token} (h : t.isOperand = false) :
    replaceToken name p t = [t] := by
  have hne : t.item ≠ .identifier name := by
    intro hi
    simp [Token.isOperand, hi] at h
  rw [replaceToken, if_neg hne]

theorem flatMap_reverse_replaceToken {ts : List Token} (h : ∀ t ∈ ts, t.isOperand = false) :
    (ts.flatMap fun t => (replaceToken name p t).reverse) = ts := by
  induction ts with
  | nil => rfl
  | cons t ts ih =>
    have ht : t.isOperand = false := h t List.mem_cons_self
    rw [List.flatMap_cons, ih fun u hu => h u (List.mem_cons_of_mem t hu),
      replaceToken_of_not_isOperand ht]
    rfl

theorem replace_append {a out stack : List Token} (ha : ∀ t ∈ a, t.isOperand = false) :
    replace name p ⟨a ++ out, stack⟩ =
      ⟨a ++ out.flatMap fun t => (replaceToken name p t).reverse, stack⟩ := by
  rw [replace, List.flatMap_append, flatMap_reverse_replaceToken ha]

theorem replace_applyFunction (out stack : List Token) :
    replace name p (applyFunction out stack) =
      applyFunction (out.flatMap fun t => (replaceToken name p t).reverse) stack := by
  rcases applyFunction_cases out stack with ⟨f, rest, rfl, hf, he⟩ | ⟨hf, he⟩
  · have hno : ∀ t ∈ [f], t.isOperand = false := by
      intro t ht
      rw [List.mem_singleton.mp ht]
      exact Token.isOperand_eq_false (.inl hf)
    rw [he, applyFunction_of_isFunction hf]
    exact replace_append hno
  · rw [he, applyFunction_of_head? hf]
    rfl

theorem Step.replace {y z : Yard} {t : Token} (h : y.Step t z) (ht : t.item ≠ .identifier name)
    (hw : ∀ u ∈ y.stack, u.isOperand = false) :
    (y.replace name p).Step t (z.replace name p) := by
  cases h with
  | operand h =>
    have hkeep : (replaceToken name p t).reverse = [t] := by
      rw [replaceToken, if_neg ht]
      rfl
    have hz : Yard.replace name p { y with output := t :: y.output } =
        { y.replace name p with output := t :: (y.replace name p).output } := by
      rw [Yard.replace, List.flatMap_cons, hkeep]
      rfl
    rw [hz]
    exact .operand h
  | hold h => exact .hold h
  | @operator popped rest h hs hp hr =>
    have hpop : ∀ u ∈ popped.reverse, u.isOperand = false := fun u hu =>
      hw u (by rw [hs]; exact List.mem_append_left _ (List.mem_reverse.mp hu))
    rw [replace_append hpop]
    exact .operator h hs hp hr
  | @close above rest q h hs ha hq =>
    have habove : ∀ u ∈ above.reverse, u.isOperand = false := fun u hu =>
      hw u (by rw [hs]; exact List.mem_append_left _ (List.mem_reverse.mp hu))
    rw [replace_applyFunction, List.flatMap_append, flatMap_reverse_replaceToken habove]
    exact .close h hs ha hq

/-- Where the identifier goes to the output, the group does, if no function takes it. -/
theorem feedAll_replaceToken {y z : Yard} {t : Token} {ts : List Token} (hp : toPostfix us = .ok p)
    (h : y.Step t z) (hy : y.Ready (t :: ts)) :
    (y.replace name p).feedAll (replaceToken name (.opening :: (us ++ [.closing])) t) =
      .ok (z.replace name p) := by
  by_cases ht : t.item = .identifier name
  · have hne : t ≠ .opening := by
      rintro rfl
      cases ht
    have hz : z = { y with output := t :: y.output } := by
      have hfeed := feed_of_step h
      simp only [feed, ht, Except.ok.injEq] at hfeed
      exact hfeed.symm
    rw [replaceToken, if_pos ht, hz, Yard.replace, feedAll_balancedGroup hp (hy.top_eq_false hne)]
    simp [Yard.replace, replaceToken, ht]
  · rw [replaceToken, if_neg ht, feedAll_cons_of_step (h.replace ht hy.waits)]
    rfl

theorem feedAll_replace {ts : List Token} (hp : toPostfix us = .ok p) :
    ∀ {y z : Yard}, y.Ready ts → FunctionsApplied ts → y.feedAll ts = .ok z →
      (y.replace name p).feedAll
          (ts.flatMap (replaceToken name (.opening :: (us ++ [.closing])))) =
        .ok (z.replace name p) ∧ ∀ t ∈ z.stack, t.isOperand = false := by
  induction ts with
  | nil =>
    intro y z hy _ h
    cases h
    exact ⟨rfl, hy.waits⟩
  | cons t ts ih =>
    intro y z hy hf h
    obtain ⟨ht, hts⟩ := functionsApplied_cons.mp hf
    rw [feedAll_cons] at h
    obtain ⟨u, hu, h⟩ := bind_eq_ok_iff.mp h
    have hstep := step_of_feed hu
    rw [List.flatMap_cons, feedAll_append_of_ok (feedAll_replaceToken hp hstep hy)]
    exact ih (hstep.ready hy ht) hts h

end Replace

end Yard

/-! ## Orders -/

/-- An identifier may be replaced before or after tokens are rearranged. -/
theorem toPostfix_replace {name : String} {ts us p q : List Token} (hp : toPostfix us = .ok p)
    (hf : FunctionsApplied ts) (hq : toPostfix ts = .ok q) :
    toPostfix (ts.flatMap (replaceToken name (.opening :: (us ++ [.closing])))) =
      .ok (q.flatMap (replaceToken name p)) := by
  obtain ⟨y, hy, hs, rfl⟩ := toPostfix_eq_ok_iff.mp hq
  have hrun : (Yard.replace name p {}).feedAll _ = .ok (y.replace name p) ∧ _ :=
    Yard.feedAll_replace hp (Yard.ready_empty ts) hf hy
  obtain ⟨hrun, hw⟩ := hrun
  refine toPostfix_eq_ok_iff.mpr ⟨_, hrun, hs, ?_⟩
  have hstack : y.stack.flatMap (replaceToken name p) = y.stack :=
    flatMap_replaceToken fun t ht hi => by
      have hno := hw t ht
      simp [Token.isOperand, hi] at hno
  rw [List.flatMap_append, hstack, Yard.replace, List.reverse_flatMap]
  simp [Function.comp_def]

theorem groupsAfter_add {k j : Nat} {bs : List Side} (h : groupsAfter k bs = some j) (n : Nat) :
    groupsAfter (k + n) bs = some (j + n) := by
  rw [groupsAfter_eq_some_iff] at h ⊢
  refine ⟨fun p hp => ?_, by omega⟩
  have := h.1 p hp
  omega

theorem groupsAfter_replace {name : String} {us : List Token}
    (hus : Balanced (us.filterMap Token.side?)) (ts : List Token) :
    ∀ k, groupsAfter k ((ts.flatMap (replaceToken name (.opening :: (us ++ [.closing])))).filterMap
      Token.side?) = groupsAfter k (ts.filterMap Token.side?) := by
  induction ts with
  | nil => exact fun k => rfl
  | cons t ts ih =>
    intro k
    rw [List.flatMap_cons, List.filterMap_append, groupsAfter_append]
    by_cases ht : t.item = .identifier name
    · have hside : t.side? = none := by simp [Token.side?, ht]
      have hin : groupsAfter (k + 1) (us.filterMap Token.side?) = some (k + 1) := by
        have h := groupsAfter_add (balanced_iff.mp hus) (k + 1)
        rwa [Nat.zero_add] at h
      have hgroup : groupsAfter k
          ((Token.opening :: (us ++ [.closing])).filterMap Token.side?) = some k := by
        have hopen : Token.opening.side? = some .opening := rfl
        have hclose : [Token.closing].filterMap Token.side? = [.closing] := rfl
        rw [List.filterMap_cons_some hopen, List.filterMap_append, hclose, groupsAfter,
          groupsAfter_append, hin]
        rfl
      rw [replaceToken, if_pos ht, hgroup, List.filterMap_cons_none hside]
      exact ih k
    · rw [replaceToken, if_neg ht, ← List.singleton_append (l := ts), List.filterMap_append,
        groupsAfter_append]
      exact congrArg _ (funext ih)

/-! ## Runs -/

namespace StackMachine

variable {scope scope' : Bindings} {name : String} {p : List Token} {v : Float}

theorem feed_eq_of_item_ne {t : Token} (ht : t.item ≠ .identifier name)
    (hs : ∀ n, scope'.find? n = if n = name then some v else scope.find? n)
    (stack : List Float) : feed scope stack t = feed scope' stack t := by
  obtain ⟨item, unary⟩ := t
  cases item with
  | identifier n =>
    have hn : n ≠ name := fun h => ht (congrArg Item.identifier h)
    simp only [feed, load, hs n, if_neg hn]
  | number x => rfl
  | function n => rfl
  | operator symbol => rfl
  | paren mark => rfl

/-- Tokens that run to a value run to it above any values; instead of them, the value may be
bound. -/
theorem feedAll_replace (hp : run scope p = .ok v)
    (hs : ∀ n, scope'.find? n = if n = name then some v else scope.find? n) (q : List Token) :
    ∀ stack, feedAll scope stack (q.flatMap (replaceToken name p)) = feedAll scope' stack q := by
  induction q with
  | nil => exact fun stack => rfl
  | cons t q ih =>
    intro stack
    have htoken : feedAll scope stack (replaceToken name p t) = feed scope' stack t := by
      by_cases ht : t.item = .identifier name
      · have hv : feedAll scope ([] ++ stack) p = .ok ([v] ++ stack) :=
          feedAll_append_of_ok (run_eq_ok_iff.mp hp) stack
        have hfind : scope'.find? name = some v := by rw [hs, if_pos rfl]
        rw [replaceToken, if_pos ht]
        refine hv.trans ?_
        simp [feed, ht, load, hfind, push]
      · rw [replaceToken, if_neg ht, feedAll_cons, feed_eq_of_item_ne ht hs]
        cases feed scope' stack t <;> rfl
    rw [List.flatMap_cons, feedAll_append, htoken, feedAll_cons]
    exact congrArg _ (funext ih)

theorem run_replace (hp : run scope p = .ok v)
    (hs : ∀ n, scope'.find? n = if n = name then some v else scope.find? n) (q : List Token) :
    run scope (q.flatMap (replaceToken name p)) = run scope' q := by
  rw [run_eq, run_eq, feedAll_replace hp hs]

end StackMachine

end Calculator
