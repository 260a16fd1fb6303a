import Calculator.Postfix
import Calculator.Proofs.Brackets

/-!
# Steps of the yard

What a token can do to the two places of the yard, said once for all later proofs.

* `Token.Binds`, `Token.HasRank`: an operator token that is known to bind, and how tightly.
* `Yard.Step`: the four things that a token can do; `Yard.feed_eq_ok_iff` gives them for `feed`.
* `Yard.groups`: the open groups, counted on the stack.
* `Yard.feedAll_groupsAfter`: tokens are taken to their end unless a bracket closes a group too
  many.
* `toPostfix_of_balanced`, `toPostfix_of_not_balanced`: tokens have a postfix order exactly if their
  brackets are balanced.
-/
set_option autoImplicit false

namespace Calculator

/-! ## Outcomes in a row -/

theorem bind_eq_ok_iff {ε α β : Type} {x : Except ε α} {f : α → Except ε β} {b : β} :
    x.bind f = .ok b ↔ ∃ a, x = .ok a ∧ f a = .ok b := by
  cases x <;> simp [Except.bind]

theorem bind_eq_error_iff {ε α β : Type} {x : Except ε α} {f : α → Except ε β} {e : ε} :
    x.bind f = .error e ↔ x = .error e ∨ ∃ a, x = .ok a ∧ f a = .error e := by
  cases x <;> simp [Except.bind]

/-! ## Tokens -/

namespace Token

/-- Whether the token goes straight to the output. -/
def isOperand (t : Token) : Bool :=
  match t.item with
  | .number _ | .identifier _ => true
  | _ => false

/-- An operator token has a binding. -/
def Binds (t : Token) : Prop := t.isOperator → ∃ b, t.binding = .ok b

@[simp] theorem binding_minus : minus.binding = .ok leadingMinus := rfl

@[simp] theorem binding_ofOperator (op : Operator) :
    (ofOperator op).binding = .ok op.binding := by
  simp [binding, ofOperator, Item.operator?]

theorem IsLexed.binds {t : Token} (h : t.IsLexed) : t.Binds := by
  intro ho
  cases h with
  | operator op => exact ⟨_, binding_ofOperator op⟩
  | minus => exact ⟨_, binding_minus⟩
  | number x => cases ho
  | identifier name => cases ho
  | function f => cases ho
  | opening => cases ho
  | closing => cases ho

theorem isParen_eq_isSome_side? (t : Token) : t.isParen = t.side?.isSome := by
  unfold isParen side?
  cases t.item <;> rfl

theorem side?_eq_none {t : Token} (h : t.isParen = false) : t.side? = none := by
  simpa [isParen_eq_isSome_side?] using h

theorem isParen_of_isOperand {t : Token} (h : t.isOperand) : t.isParen = false := by
  unfold isOperand at h
  unfold isParen
  cases hi : t.item <;> simp [hi] at h ⊢

theorem isParen_of_isOperator {t : Token} (h : t.isOperator) : t.isParen = false := by
  unfold isOperator at h
  unfold isParen
  cases hi : t.item <;> simp [hi] at h ⊢

theorem isParen_of_isFunction {t : Token} (h : t.isFunction) : t.isParen = false := by
  unfold isFunction at h
  unfold isParen
  cases hi : t.item <;> simp [hi] at h ⊢

theorem isOperand_eq_false {t : Token} (h : t.isFunction ∨ t.isOperator ∨ t.isParen) :
    t.isOperand = false := by
  unfold isFunction isOperator isParen at h
  unfold isOperand
  cases hi : t.item <;> simp [hi] at h ⊢

theorem isFunction_of_isParen {t : Token} (h : t.isParen) : t.isFunction = false := by
  refine Bool.eq_false_iff.mpr fun hf => ?_
  rw [isParen_of_isFunction hf] at h
  cases h

theorem isOperator_of_isParen {t : Token} (h : t.isParen) : t.isOperator = false := by
  refine Bool.eq_false_iff.mpr fun ho => ?_
  rw [isParen_of_isOperator ho] at h
  cases h

theorem outranks_of_not_isOperator {top t : Token} (h : top.isOperator = false) :
    top.outranks t = .ok false := by
  simp [outranks, h, pure, Except.pure]

theorem outranks_of_isOperator {top t : Token} {a b : Binding} (h : top.isOperator)
    (ha : top.binding = .ok a) (hb : t.binding = .ok b) :
    top.outranks t = .ok (a.outranks b) := by
  simp [outranks, h, ha, hb, pure, Except.pure, bind, Except.bind]

theorem isOperator_of_outranks {top t : Token} (h : top.outranks t = .ok true) :
    top.isOperator := by
  cases ho : top.isOperator with
  | true => rfl
  | false =>
    rw [outranks_of_not_isOperator ho] at h
    cases h

theorem exists_outranks {top t : Token} (htop : top.Binds) (ht : t.Binds) (ho : t.isOperator) :
    ∃ b, top.outranks t = .ok b := by
  cases h : top.isOperator with
  | false => exact ⟨false, outranks_of_not_isOperator h⟩
  | true =>
    obtain ⟨a, ha⟩ := htop h
    obtain ⟨b, hb⟩ := ht ho
    exact ⟨_, outranks_of_isOperator h ha hb⟩

/-! ## Ranks -/

/-- The token is an operator of precedence `k`. Only the tightest operators group to the right. -/
def HasRank (t : Token) (k : Nat) : Prop :=
  t.isOperator ∧ t.binding = .ok ⟨k, if k < 3 then .left else .right⟩

theorem hasRank_ofOperator (op : Operator) : (ofOperator op).HasRank op.binding.precedence :=
  ⟨rfl, by rw [binding_ofOperator]; cases op <;> rfl⟩

theorem hasRank_minus : minus.HasRank 3 := ⟨rfl, rfl⟩

theorem outranks_of_hasRank {p t : Token} {i j : Nat} (hp : p.HasRank i) (ht : t.HasRank j) :
    p.outranks t = .ok (decide (j < i ∨ j = i ∧ i < 3)) := by
  rw [outranks_of_isOperator hp.1 hp.2 ht.2, Binding.outranks]
  by_cases h : j < i
  · simp [h]
  · by_cases he : j = i
    · subst he
      by_cases h3 : j < 3 <;> simp [h3]
    · have hn : i ≠ j := fun hn => he hn.symm
      simp [h, he, hn]

end Token

namespace Yard

/-! ## The parts of a step -/

theorem giveWay_append {t : Token} {popped rest : List Token}
    (hp : ∀ p ∈ popped, p.outranks t = .ok true) (hr : ∀ p ∈ rest.head?, p.outranks t = .ok false) :
    ∀ out, giveWay t out (popped ++ rest) = .ok ⟨popped.reverse ++ out, rest⟩ := by
  induction popped with
  | nil =>
    intro out
    cases rest with
    | nil => rfl
    | cons p rest =>
      simp [giveWay, hr p rfl, pure, Except.pure, bind, Except.bind]
  | cons p popped ih =>
    intro out
    have h := ih (fun q hq => hp q (List.mem_cons_of_mem p hq)) (p :: out)
    simp [giveWay, hp p List.mem_cons_self, bind, Except.bind, h]

theorem giveWay_ok {t : Token} {stack : List Token} :
    ∀ {out : List Token} {y : Yard}, giveWay t out stack = .ok y →
      ∃ popped rest, stack = popped ++ rest ∧ y = ⟨popped.reverse ++ out, rest⟩ ∧
        (∀ p ∈ popped, p.outranks t = .ok true) ∧ ∀ p ∈ rest.head?, p.outranks t = .ok false := by
  induction stack with
  | nil =>
    intro out y h
    cases h
    exact ⟨[], [], by simp⟩
  | cons top stack ih =>
    intro out y h
    cases ho : top.outranks t with
    | error e => simp [giveWay, ho, bind, Except.bind] at h
    | ok b =>
      cases b with
      | false =>
        simp [giveWay, ho, pure, Except.pure, bind, Except.bind] at h
        exact ⟨[], top :: stack, by simp [ho, h.symm]⟩
      | true =>
        simp only [giveWay, ho, bind, Except.bind, if_true] at h
        obtain ⟨popped, rest, rfl, rfl, hp, hr⟩ := ih h
        refine ⟨top :: popped, rest, rfl, by simp, ?_, hr⟩
        intro p hm
        rcases List.mem_cons.mp hm with rfl | hm
        · exact ho
        · exact hp p hm

theorem exists_giveWay {t : Token} {stack : List Token} (ht : t.Binds) (ho : t.isOperator)
    (hs : ∀ p ∈ stack, p.Binds) : ∀ out, ∃ y, giveWay t out stack = .ok y := by
  induction stack with
  | nil => exact fun out => ⟨_, rfl⟩
  | cons top stack ih =>
    intro out
    obtain ⟨b, hb⟩ := Token.exists_outranks (hs top List.mem_cons_self) ht ho
    obtain ⟨y, hy⟩ := ih (fun p hp => hs p (List.mem_cons_of_mem top hp)) (top :: out)
    cases b with
    | false =>
      exact ⟨⟨out, top :: stack⟩, by simp [giveWay, hb, pure, Except.pure, bind, Except.bind]⟩
    | true => exact ⟨y, by simp [giveWay, hb, bind, Except.bind, hy]⟩

theorem close_append {above rest : List Token} {p : Token} (ha : ∀ t ∈ above, t.isParen = false)
    (hp : p.isParen) :
    ∀ out, close out (above ++ p :: rest) = .ok (applyFunction (above.reverse ++ out) rest) := by
  induction above with
  | nil => simp [close, hp]
  | cons t above ih =>
    intro out
    have ht := ha t List.mem_cons_self
    have h := ih (fun q hq => ha q (List.mem_cons_of_mem t hq)) (t :: out)
    simp [close, ht, h]

theorem close_error {stack : List Token} (h : ∀ t ∈ stack, t.isParen = false) :
    ∀ out, close out stack = .error (.report .mismatchedParentheses) := by
  induction stack with
  | nil => exact fun out => rfl
  | cons t stack ih =>
    intro out
    have ht := h t List.mem_cons_self
    simp [close, ht, ih (fun q hq => h q (List.mem_cons_of_mem t hq))]

theorem exists_topmost_paren {stack : List Token} (h : ∃ t ∈ stack, t.isParen) :
    ∃ above p rest, stack = above ++ p :: rest ∧ (∀ t ∈ above, t.isParen = false) ∧ p.isParen := by
  induction stack with
  | nil => simp at h
  | cons t stack ih =>
    cases ht : t.isParen with
    | true => exact ⟨[], t, stack, rfl, by simp, ht⟩
    | false =>
      have h' : ∃ u ∈ stack, u.isParen := by simpa [ht] using h
      obtain ⟨above, p, rest, rfl, ha, hp⟩ := ih h'
      refine ⟨t :: above, p, rest, rfl, ?_, hp⟩
      intro u hu
      rcases List.mem_cons.mp hu with rfl | hu
      · exact ht
      · exact ha u hu

theorem applyFunction_of_isFunction {f : Token} (h : f.isFunction) (out stack : List Token) :
    applyFunction out (f :: stack) = ⟨f :: out, stack⟩ := by
  simp [applyFunction, h]

theorem applyFunction_of_head? {stack : List Token}
    (h : ∀ t ∈ stack.head?, t.isFunction = false) (out : List Token) :
    applyFunction out stack = ⟨out, stack⟩ := by
  cases stack with
  | nil => rfl
  | cons t stack => simp [applyFunction, h t rfl]

/-- A function on top of the stack goes to the output, and nothing else does. -/
theorem applyFunction_cases (out stack : List Token) :
    (∃ f rest, stack = f :: rest ∧ f.isFunction ∧ applyFunction out stack = ⟨f :: out, rest⟩) ∨
      ((∀ t ∈ stack.head?, t.isFunction = false) ∧ applyFunction out stack = ⟨out, stack⟩) := by
  cases stack with
  | nil => exact .inr ⟨by simp, rfl⟩
  | cons t stack =>
    cases h : t.isFunction with
    | true => exact .inl ⟨t, stack, rfl, h, applyFunction_of_isFunction h out stack⟩
    | false => exact .inr ⟨by simpa using h, applyFunction_of_head? (by simpa using h) out⟩

/-! ## Steps -/

/-- The four things that a token can do. -/
inductive Step (y : Yard) (t : Token) : Yard → Prop where
  | operand (h : t.isOperand) : Step y t { y with output := t :: y.output }
  | hold (h : t.isFunction ∨ t.side? = some .opening) : Step y t (y.hold t)
  | operator {popped rest : List Token} (h : t.isOperator) (hs : y.stack = popped ++ rest)
      (hp : ∀ p ∈ popped, p.outranks t = .ok true)
      (hr : ∀ p ∈ rest.head?, p.outranks t = .ok false) :
      Step y t ⟨popped.reverse ++ y.output, t :: rest⟩
  | close {above rest : List Token} {p : Token} (h : t.side? = some .closing)
      (hs : y.stack = above ++ p :: rest) (ha : ∀ u ∈ above, u.isParen = false) (hp : p.isParen) :
      Step y t (applyFunction (above.reverse ++ y.output) rest)

theorem step_of_feed {y y' : Yard} {t : Token} (h : y.feed t = .ok y') : y.Step t y' := by
  obtain ⟨item, unary⟩ := t
  cases item with
  | number x =>
    cases h
    exact .operand rfl
  | identifier name =>
    cases h
    exact .operand rfl
  | function name =>
    cases h
    exact .hold (.inl rfl)
  | operator symbol =>
    simp only [feed] at h
    cases hg : giveWay ⟨.operator symbol, unary⟩ y.output y.stack with
    | error e => simp [hg, Except.map] at h
    | ok z =>
      simp only [hg, Except.map, Except.ok.injEq] at h
      obtain ⟨popped, rest, hs, rfl, hp, hr⟩ := giveWay_ok hg
      rw [← h]
      exact .operator rfl hs hp hr
  | paren mark =>
    simp only [feed] at h
    split at h
    · next hm =>
      cases h
      exact .hold (.inr (by simp [Token.side?, hm]))
    · next hm =>
      by_cases hp : ∃ u ∈ y.stack, u.isParen
      · obtain ⟨above, p, rest, hs, ha, hp⟩ := exists_topmost_paren hp
        rw [hs, close_append ha hp] at h
        cases h
        exact .close (by simp [Token.side?, hm]) hs ha hp
      · rw [close_error (by simpa using hp)] at h
        cases h

theorem feed_of_step {y y' : Yard} {t : Token} (h : y.Step t y') : y.feed t = .ok y' := by
  obtain ⟨item, unary⟩ := t
  cases h with
  | operand h => cases item <;> first | rfl | cases h
  | hold h =>
    cases item with
    | function name => rfl
    | paren mark =>
      have hm : mark = "(" := by simpa [Token.isFunction, Token.side?] using h
      simp [feed, hm]
    | number x => simp [Token.isFunction, Token.side?] at h
    | identifier name => simp [Token.isFunction, Token.side?] at h
    | operator symbol => simp [Token.isFunction, Token.side?] at h
  | operator h hs hp hr =>
    cases item with
    | operator symbol => simp [feed, hs, giveWay_append hp hr, Except.map, hold]
    | number x => cases h
    | identifier name => cases h
    | function name => cases h
    | paren mark => cases h
  | close h hs ha hp =>
    cases item with
    | paren mark =>
      have hm : mark ≠ "(" := by simpa [Token.side?] using h
      simp [feed, hm, hs, close_append ha hp]
    | number x => cases h
    | identifier name => cases h
    | function name => cases h
    | operator symbol => cases h

/-- A token is taken exactly by one of the four steps. -/
theorem feed_eq_ok_iff {y y' : Yard} {t : Token} : y.feed t = .ok y' ↔ y.Step t y' :=
  ⟨step_of_feed, feed_of_step⟩

/-! ## Runs -/

theorem feedAll_cons (y : Yard) (t : Token) (ts : List Token) :
    y.feedAll (t :: ts) = (y.feed t).bind (·.feedAll ts) := by
  simp only [feedAll, List.foldlM_cons]
  rfl

theorem feedAll_cons_of_step {y y' : Yard} {t : Token} (h : y.Step t y') (ts : List Token) :
    y.feedAll (t :: ts) = y'.feedAll ts := by
  rw [feedAll_cons, feed_of_step h]
  rfl

theorem feedAll_append (y : Yard) (a b : List Token) :
    y.feedAll (a ++ b) = (y.feedAll a).bind (·.feedAll b) := by
  simp only [feedAll, List.foldlM_append]
  rfl

theorem feedAll_append_of_ok {y y' : Yard} {a : List Token} (h : y.feedAll a = .ok y')
    (b : List Token) : y.feedAll (a ++ b) = y'.feedAll b := by
  rw [feedAll_append, h]
  rfl

/-- A closed group: what waits above its bracket goes out. -/
theorem feedAll_group {ts out stack o w : List Token}
    (hy : feedAll ⟨out, .opening :: stack⟩ ts = .ok ⟨o.reverse ++ out, w ++ .opening :: stack⟩)
    (hp : ∀ p ∈ w, p.isParen = false) :
    feedAll ⟨out, stack⟩ (.opening :: (ts ++ [.closing])) =
      .ok (applyFunction ((o ++ w).reverse ++ out) stack) := by
  have hopen : Step ⟨out, stack⟩ .opening ⟨out, .opening :: stack⟩ := .hold (.inr rfl)
  have hclose : Step ⟨o.reverse ++ out, w ++ .opening :: stack⟩ .closing
      (applyFunction (w.reverse ++ (o.reverse ++ out)) stack) := .close rfl rfl hp rfl
  rw [feedAll_cons_of_step hopen, feedAll_append_of_ok hy, feedAll_cons_of_step hclose,
    List.reverse_append, List.append_assoc]
  rfl

/-! ## Open groups -/

/-- The groups that are open, each with its bracket on the stack. -/
def groups (y : Yard) : Nat := y.stack.countP Token.isParen

/-- Every token on the stack binds, if it is an operator. -/
def Bound (y : Yard) : Prop := ∀ t ∈ y.stack, t.Binds

theorem countP_isParen_eq_zero {ts : List Token} (h : ∀ t ∈ ts, t.isParen = false) :
    ts.countP Token.isParen = 0 :=
  List.countP_eq_zero.mpr fun t ht => by simp [h t ht]

theorem groups_applyFunction (out stack : List Token) :
    (applyFunction out stack).groups = stack.countP Token.isParen := by
  rcases applyFunction_cases out stack with ⟨f, rest, rfl, hf, h⟩ | ⟨_, h⟩
  · rw [h, groups]
    simp [Token.isParen_of_isFunction hf]
  · rw [h, groups]

theorem Step.groupsAfter {y y' : Yard} {t : Token} (h : y.Step t y') :
    groupsAfter y.groups t.side?.toList = some y'.groups := by
  cases h with
  | operand h =>
    rw [Token.side?_eq_none (Token.isParen_of_isOperand h)]
    rfl
  | hold h =>
    rcases h with h | h
    · have hp := Token.isParen_of_isFunction h
      simp [Token.side?_eq_none hp, Calculator.groupsAfter, groups, Yard.hold, hp]
    · have hp : t.isParen := by simp [Token.isParen_eq_isSome_side?, h]
      simp [h, Calculator.groupsAfter, groups, Yard.hold, hp]
  | operator h hs hp hr =>
    have ht := Token.isParen_of_isOperator h
    have hpop := countP_isParen_eq_zero fun p hm =>
      Token.isParen_of_isOperator (Token.isOperator_of_outranks (hp p hm))
    simp [Token.side?_eq_none ht, Calculator.groupsAfter, groups, hs, ht, hpop]
  | close h hs ha hp =>
    rw [groups_applyFunction, groups, hs]
    simp [h, countP_isParen_eq_zero ha, hp, Calculator.groupsAfter]

theorem bound_applyFunction {out stack : List Token} (h : ∀ t ∈ stack, t.Binds) :
    (applyFunction out stack).Bound := by
  rcases applyFunction_cases out stack with ⟨f, rest, rfl, _, he⟩ | ⟨_, he⟩
  · rw [he]
    exact fun t ht => h t (List.mem_cons_of_mem f ht)
  · rw [he]
    exact h

theorem Step.bound {y y' : Yard} {t : Token} (h : y.Step t y') (ht : t.Binds) (hy : y.Bound) :
    y'.Bound := by
  cases h with
  | operand h => exact hy
  | hold h =>
    intro u hu
    rcases List.mem_cons.mp hu with rfl | hu
    · exact ht
    · exact hy u hu
  | operator h hs hp hr =>
    intro u hu
    rcases List.mem_cons.mp hu with rfl | hu
    · exact ht
    · exact hy u (by rw [hs]; exact List.mem_append_right _ hu)
  | close h hs ha hp =>
    exact bound_applyFunction fun u hu =>
      hy u (by rw [hs]; exact List.mem_append_right _ (List.mem_cons_of_mem _ hu))

/-- A token that binds is taken, unless it closes a group and none is open. -/
theorem feed_of_groupsAfter {y : Yard} {t : Token} (ht : t.Binds) (hy : y.Bound) :
    (∃ y', y.Step t y') ∨
      y.feed t = .error (.report .mismatchedParentheses) ∧
        groupsAfter y.groups t.side?.toList = none := by
  obtain ⟨item, unary⟩ := t
  cases item with
  | number x => exact .inl ⟨_, .operand rfl⟩
  | identifier name => exact .inl ⟨_, .operand rfl⟩
  | function name => exact .inl ⟨_, .hold (.inl rfl)⟩
  | operator symbol =>
    obtain ⟨z, hz⟩ := exists_giveWay ht rfl hy y.output
    obtain ⟨popped, rest, hs, _, hp, hr⟩ := giveWay_ok hz
    exact .inl ⟨_, .operator rfl hs hp hr⟩
  | paren mark =>
    by_cases hm : mark = "("
    · exact .inl ⟨_, .hold (.inr (by simp [Token.side?, hm]))⟩
    · have hside : Token.side? ⟨.paren mark, unary⟩ = some .closing := by simp [Token.side?, hm]
      by_cases hp : ∃ u ∈ y.stack, u.isParen
      · obtain ⟨above, p, rest, hs, ha, hp⟩ := exists_topmost_paren hp
        exact .inl ⟨_, .close hside hs ha hp⟩
      · have hnone : ∀ u ∈ y.stack, u.isParen = false := by simpa using hp
        refine .inr ⟨by simp [feed, hm, close_error hnone], ?_⟩
        rw [hside, groups, countP_isParen_eq_zero hnone]
        rfl

/-- Tokens are taken one after the other up to a bracket that closes a group too many. -/
theorem feedAll_groupsAfter {ts : List Token} (hts : ∀ t ∈ ts, t.Binds) :
    ∀ {y : Yard}, y.Bound →
      (∃ y', y.feedAll ts = .ok y' ∧
        groupsAfter y.groups (ts.filterMap Token.side?) = some y'.groups) ∨
      y.feedAll ts = .error (.report .mismatchedParentheses) ∧
        groupsAfter y.groups (ts.filterMap Token.side?) = none := by
  induction ts with
  | nil => exact fun hy => .inl ⟨_, rfl, rfl⟩
  | cons t ts ih =>
    intro y hy
    have ht := hts t List.mem_cons_self
    have hsplit : (t :: ts).filterMap Token.side? = t.side?.toList ++ ts.filterMap Token.side? := by
      cases h : t.side? <;> simp [h]
    rw [hsplit, groupsAfter_append]
    rcases feed_of_groupsAfter ht hy with ⟨z, hz⟩ | ⟨he, hn⟩
    · rw [feedAll_cons_of_step hz, hz.groupsAfter]
      exact ih (fun u hu => hts u (List.mem_cons_of_mem t hu)) (hz.bound ht hy)
    · rw [feedAll_cons, he, hn]
      exact .inr ⟨rfl, rfl⟩

/-! ## The end of the tokens -/

theorem finish_of_groups_eq_zero {y : Yard} (h : y.groups = 0) :
    y.finish = .ok (y.output.reverse ++ y.stack) := by
  have hp : y.stack.any Token.isParen = false := by
    simpa [groups, List.countP_eq_zero] using h
  simp [finish, hp]

theorem groups_eq_zero_iff {y : Yard} :
    y.groups = 0 ↔ ∀ t ∈ y.stack, t.isParen = false := by
  simp [groups, List.countP_eq_zero]

theorem finish_of_groups_ne_zero {y : Yard} (h : y.groups ≠ 0) :
    y.finish = .error (.report .mismatchedParentheses) := by
  have hp : y.stack.any Token.isParen = true := by
    simpa [groups, List.countP_eq_zero] using h
  simp [finish, hp]

theorem finish_eq_ok_iff {y : Yard} {p : List Token} :
    y.finish = .ok p ↔ (∀ t ∈ y.stack, t.isParen = false) ∧ p = y.output.reverse ++ y.stack := by
  rw [← groups_eq_zero_iff]
  by_cases h : y.groups = 0
  · rw [finish_of_groups_eq_zero h]
    simp [h, eq_comm]
  · rw [finish_of_groups_ne_zero h]
    simp [h]

end Yard

/-! ## Orders -/

theorem toPostfix_eq (ts : List Token) :
    toPostfix ts = (Yard.feedAll {} ts).bind Yard.finish := rfl

theorem toPostfix_eq_ok_iff {ts p : List Token} :
    toPostfix ts = .ok p ↔
      ∃ y, Yard.feedAll {} ts = .ok y ∧ (∀ t ∈ y.stack, t.isParen = false) ∧
        p = y.output.reverse ++ y.stack := by
  rw [toPostfix_eq, bind_eq_ok_iff]
  simp only [Yard.finish_eq_ok_iff]

theorem toPostfix_of_balanced {ts : List Token} (hts : ∀ t ∈ ts, t.Binds)
    (hb : Balanced (ts.filterMap Token.side?)) : ∃ p, toPostfix ts = .ok p := by
  have hb' := balanced_iff.mp hb
  rcases Yard.feedAll_groupsAfter hts (y := {}) (by simp [Yard.Bound]) with ⟨y, hy, hg⟩ | ⟨_, hn⟩
  · have hz : y.groups = 0 := Option.some.inj (hg.symm.trans hb')
    rw [toPostfix_eq, hy]
    exact ⟨_, Yard.finish_of_groups_eq_zero hz⟩
  · exact absurd (hn.symm.trans hb') (by simp)

theorem toPostfix_of_not_balanced {ts : List Token} (hts : ∀ t ∈ ts, t.Binds)
    (hb : ¬ Balanced (ts.filterMap Token.side?)) :
    toPostfix ts = .error (.report .mismatchedParentheses) := by
  rw [balanced_iff] at hb
  rcases Yard.feedAll_groupsAfter hts (y := {}) (by simp [Yard.Bound]) with ⟨y, hy, hg⟩ | ⟨he, _⟩
  · have hz : y.groups ≠ 0 := fun hz => hb (hg.trans (congrArg some hz))
    rw [toPostfix_eq, hy]
    exact Yard.finish_of_groups_ne_zero hz
  · rw [toPostfix_eq, he]
    rfl

theorem balanced_of_toPostfix {ts p : List Token} (hts : ∀ t ∈ ts, t.Binds)
    (h : toPostfix ts = .ok p) : Balanced (ts.filterMap Token.side?) := by
  by_cases hb : Balanced (ts.filterMap Token.side?)
  · exact hb
  · rw [toPostfix_of_not_balanced hts hb] at h
    cases h

end Calculator
