import Calculator.Proofs.Yard

/-!
# Where the tokens of a postfix order stood

Tokens are followed by the places at which they stood, so that two equal ones are told apart.

* `withoutParens`, `placed`: the tokens that are no brackets, by themselves and with their places.
* `Yard.Step.moves`: a step moves tokens from the top of the stack to the output, and adds its own.
* `Yard.Tracks`, `Yard.exists_tracks_of_feedAll`: the places of the tokens in a yard, through a run.
* `toPostfix_placed`: the order as a rearrangement of places.
-/
set_option autoImplicit false

namespace Calculator

/-! ## Tokens without brackets -/

/-- The tokens without the brackets. -/
def withoutParens (ts : List Token) : List Token := ts.filter fun t => !t.isParen

@[simp] theorem withoutParens_append (a b : List Token) :
    withoutParens (a ++ b) = withoutParens a ++ withoutParens b := List.filter_append ..

theorem withoutParens_cons (t : Token) (ts : List Token) :
    withoutParens (t :: ts) = withoutParens [t] ++ withoutParens ts :=
  withoutParens_append [t] ts

theorem withoutParens_of_isParen {t : Token} (h : t.isParen) : withoutParens [t] = [] := by
  simp [withoutParens, h]

theorem withoutParens_of_not_isParen {t : Token} (h : t.isParen = false) :
    withoutParens [t] = [t] := by
  simp [withoutParens, h]

theorem withoutParens_eq_self {ts : List Token} (h : ∀ t ∈ ts, t.isParen = false) :
    withoutParens ts = ts := by
  rw [withoutParens, List.filter_eq_self]
  intro t ht
  simp [h t ht]

/-- Tokens with their places, without the brackets. -/
def unbracketed (as : List (Token × Nat)) : List (Token × Nat) := as.filter fun a => !a.1.isParen

/-- The tokens that are no brackets, each with the place at which it stands. -/
def placed (ts : List Token) : List (Token × Nat) := unbracketed ts.zipIdx

theorem unbracketed_append (as bs : List (Token × Nat)) :
    unbracketed (as ++ bs) = unbracketed as ++ unbracketed bs := List.filter_append ..

theorem map_fst_unbracketed (as : List (Token × Nat)) :
    (unbracketed as).map Prod.fst = withoutParens (as.map Prod.fst) := by
  rw [withoutParens, List.filter_map]
  rfl

theorem unbracketed_cons_of_isParen {a : Token × Nat} (h : a.1.isParen) (as : List (Token × Nat)) :
    unbracketed (a :: as) = unbracketed as := by
  simp [unbracketed, h]

theorem unbracketed_cons_of_not_isParen {a : Token × Nat} (h : a.1.isParen = false)
    (as : List (Token × Nat)) : unbracketed (a :: as) = a :: unbracketed as := by
  simp [unbracketed, h]

theorem placed_append_singleton (ts : List Token) (t : Token) :
    placed (ts ++ [t]) = placed ts ++ unbracketed [(t, ts.length)] := by
  rw [placed, List.zipIdx_append, unbracketed_append, Nat.zero_add]
  rfl

theorem snd_lt_of_mem_placed {ts : List Token} {a : Token × Nat} (h : a ∈ placed ts) :
    a.2 < ts.length := List.snd_lt_of_mem_zipIdx (List.mem_filter.mp h).1

theorem mem_placed_of_isOperand {ts : List Token} {a : Token × Nat} (h : a ∈ ts.zipIdx)
    (ha : a.1.isOperand) : a ∈ placed ts :=
  List.mem_filter.mpr ⟨h, by simp [Token.isParen_of_isOperand ha]⟩

theorem pairwise_zipIdx (ts : List Token) (n : Nat) :
    (ts.zipIdx n).Pairwise fun a b => a.2 < b.2 := by
  induction ts generalizing n with
  | nil => exact .nil
  | cons t ts ih =>
    rw [List.zipIdx_cons, List.pairwise_cons]
    exact ⟨fun b hb => List.le_snd_of_mem_zipIdx hb, ih (n + 1)⟩

namespace Yard

/-! ## Steps -/

/-- A step takes tokens from the top of the stack, moves those that are no brackets to the output,
and adds its own token to one of the two places, unless it closes a group. -/
theorem Step.moves {y y' : Yard} {t : Token} (h : y.Step t y') :
    (t.isOperand ∧ y' = ⟨t :: y.output, y.stack⟩) ∨
      t.isOperand = false ∧ ∃ away kept, y.stack = away ++ kept ∧
        (y' = ⟨(withoutParens away).reverse ++ y.output, t :: kept⟩ ∨
          t.isParen ∧ y' = ⟨(withoutParens away).reverse ++ y.output, kept⟩) := by
  cases h with
  | operand h => exact .inl ⟨h, rfl⟩
  | hold h =>
    have ht : t.isFunction ∨ t.isOperator ∨ t.isParen := by
      rcases h with h | h
      · exact .inl h
      · exact .inr (.inr (by simp [Token.isParen_eq_isSome_side?, h]))
    exact .inr ⟨Token.isOperand_eq_false ht, [], y.stack, rfl, .inl rfl⟩
  | @operator popped rest h hs hp hr =>
    have hpop : withoutParens popped = popped := withoutParens_eq_self fun p hm =>
      Token.isParen_of_isOperator (Token.isOperator_of_outranks (hp p hm))
    refine .inr ⟨Token.isOperand_eq_false (.inr (.inl h)), popped, rest, hs, .inl ?_⟩
    rw [hpop]
  | @close above rest p h hs ha hp =>
    have ht : t.isParen := by simp [Token.isParen_eq_isSome_side?, h]
    refine .inr ⟨Token.isOperand_eq_false (.inr (.inr ht)), ?_⟩
    rcases applyFunction_cases (above.reverse ++ y.output) rest with
      ⟨f, below, rfl, hf, he⟩ | ⟨-, he⟩
    · -- The function below the bracket goes with the group.
      have hw : withoutParens (above ++ p :: [f]) = above ++ [f] := by
        rw [withoutParens_append, withoutParens_cons, withoutParens_of_isParen hp,
          withoutParens_of_not_isParen (Token.isParen_of_isFunction hf), withoutParens_eq_self ha]
        rfl
      refine ⟨above ++ p :: [f], below, by simp [hs], .inr ⟨ht, ?_⟩⟩
      rw [he, hw]
      simp
    · have hw : withoutParens (above ++ [p]) = above := by
        rw [withoutParens_append, withoutParens_of_isParen hp, withoutParens_eq_self ha,
          List.append_nil]
      exact ⟨above ++ [p], rest, by simp [hs], .inr ⟨ht, by rw [he, hw]⟩⟩

/-! ## Places -/

/-- The tokens of a yard with their places in the tokens that were taken. Every operand in the
output stood behind all that is older there, and nothing that waits is an operand. -/
structure Tracks (ts : List Token) (y : Yard) (o s : List (Token × Nat)) : Prop where
  output : o.map Prod.fst = y.output
  stack : s.map Prod.fst = y.stack
  perm : (o ++ unbracketed s).Perm (placed ts)
  waiting : ∀ a ∈ s, a.1.isOperand = false
  order : o.Pairwise fun b a => b.1.isOperand → a.2 < b.2

theorem Tracks.operand {ts : List Token} {y : Yard} {o s : List (Token × Nat)}
    (h : Tracks ts y o s) {t : Token} (ht : t.isOperand) :
    Tracks (ts ++ [t]) ⟨t :: y.output, y.stack⟩ ((t, ts.length) :: o) s := by
  refine ⟨by simp [h.output], h.stack, ?_, h.waiting, List.pairwise_cons.mpr ⟨?_, h.order⟩⟩
  · rw [placed_append_singleton, unbracketed_cons_of_not_isParen (Token.isParen_of_isOperand ht)]
    exact (h.perm.cons _).trans (List.perm_append_singleton _ _).symm
  · exact fun a ha _ => snd_lt_of_mem_placed (h.perm.mem_iff.mp (List.mem_append_left _ ha))

theorem Tracks.moves {ts : List Token} {y : Yard} {o away kept : List (Token × Nat)}
    (h : Tracks ts y o (away ++ kept)) :
    Tracks ts ⟨(withoutParens (away.map Prod.fst)).reverse ++ y.output, kept.map Prod.fst⟩
      ((unbracketed away).reverse ++ o) kept := by
  have hmoved : ∀ a ∈ (unbracketed away).reverse, a.1.isOperand = false := by
    intro a ha
    have hmem : a ∈ away := (List.mem_filter.mp (List.mem_reverse.mp ha)).1
    exact h.waiting a (List.mem_append_left _ hmem)
  refine ⟨?_, rfl, ?_, fun a ha => h.waiting a (List.mem_append_right _ ha), ?_⟩
  · rw [List.map_append, List.map_reverse, map_fst_unbracketed, h.output]
  · refine List.Perm.trans ?_ h.perm
    rw [unbracketed_append, ← List.append_assoc]
    exact (List.perm_append_comm.trans ((List.reverse_perm _).append_left _)).append_right _
  · -- No token that moves is an operand, so the order asks nothing of it.
    refine List.pairwise_append.mpr ⟨?_, h.order, fun b hb a _ hop => ?_⟩
    · refine List.pairwise_of_forall_mem_list fun b hb a _ hop => ?_
      rw [hmoved b hb] at hop
      cases hop
    · rw [hmoved b hb] at hop
      cases hop

theorem Tracks.hold {ts : List Token} {y : Yard} {o s : List (Token × Nat)}
    (h : Tracks ts y o s) {t : Token} (ht : t.isOperand = false) :
    Tracks (ts ++ [t]) (y.hold t) o ((t, ts.length) :: s) := by
  refine ⟨h.output, by simp [Yard.hold, h.stack], ?_, List.forall_mem_cons.mpr ⟨ht, h.waiting⟩,
    h.order⟩
  rw [placed_append_singleton]
  cases hp : t.isParen with
  | true =>
    rw [unbracketed_cons_of_isParen hp, unbracketed_cons_of_isParen hp]
    exact h.perm.trans (.of_eq (List.append_nil _).symm)
  | false =>
    rw [unbracketed_cons_of_not_isParen hp, unbracketed_cons_of_not_isParen hp]
    exact (List.perm_middle.trans (h.perm.cons _)).trans (List.perm_append_singleton _ _).symm

theorem Tracks.drop {ts : List Token} {y : Yard} {o s : List (Token × Nat)}
    (h : Tracks ts y o s) {t : Token} (ht : t.isParen) :
    Tracks (ts ++ [t]) y o s := by
  refine ⟨h.output, h.stack, ?_, h.waiting, h.order⟩
  rw [placed_append_singleton, unbracketed_cons_of_isParen ht]
  exact h.perm.trans (.of_eq (List.append_nil _).symm)

theorem Tracks.exists_of_step {ts : List Token} {y y' : Yard} {o s : List (Token × Nat)}
    (h : Tracks ts y o s) {t : Token} (hstep : y.Step t y') :
    ∃ o' s', Tracks (ts ++ [t]) y' o' s' := by
  rcases hstep.moves with ⟨ht, rfl⟩ | ⟨ht, away, kept, hs, hy⟩
  · exact ⟨_, _, h.operand ht⟩
  · obtain ⟨away, kept, rfl, rfl, rfl⟩ := List.map_eq_append_iff.mp (h.stack.trans hs)
    rcases hy with rfl | ⟨hp, rfl⟩
    · exact ⟨_, _, h.moves.hold ht⟩
    · exact ⟨_, _, h.moves.drop hp⟩

theorem exists_tracks_of_feedAll {ts : List Token} :
    ∀ {seen : List Token} {y y' : Yard} {o s : List (Token × Nat)},
      Tracks seen y o s → y.feedAll ts = .ok y' →
        ∃ o' s', Tracks (seen ++ ts) y' o' s' := by
  induction ts with
  | nil =>
    intro seen y y' o s h hy
    cases hy
    exact ⟨o, s, by rwa [List.append_nil]⟩
  | cons t ts ih =>
    intro seen y y' o s h hy
    rw [feedAll_cons] at hy
    obtain ⟨z, hf, hy⟩ := bind_eq_ok_iff.mp hy
    obtain ⟨o', s', hz⟩ := h.exists_of_step (step_of_feed hf)
    rw [List.append_cons]
    exact ih hz hy

end Yard

/-! ## Orders -/

/-- The places of a whole output: every operand stands in it behind nothing that stood behind it
before. -/
theorem exists_places_of_toPostfix {ts p : List Token} (h : toPostfix ts = .ok p) :
    ∃ q : List (Token × Nat), q.map Prod.fst = p ∧ q.Perm (placed ts) ∧
      q.Pairwise fun a b => b.1.isOperand → a.2 < b.2 := by
  obtain ⟨y, hy, hs, rfl⟩ := toPostfix_eq_ok_iff.mp h
  have hstart : Yard.Tracks [] {} [] [] := ⟨rfl, rfl, .refl _, by simp, .nil⟩
  obtain ⟨o, s, ht⟩ := Yard.exists_tracks_of_feedAll hstart hy
  -- At the end no bracket is left, and the stack goes to the output as it is.
  have hopen : unbracketed s = s := by
    refine List.filter_eq_self.mpr fun a ha => ?_
    simp [hs a.1 (ht.stack ▸ List.mem_map_of_mem ha)]
  refine ⟨o.reverse ++ s, ?_, ?_, ?_⟩
  · rw [List.map_append, List.map_reverse, ht.output, ht.stack]
  · exact ((o.reverse_perm).append_right _).trans (hopen ▸ ht.perm)
  · refine List.pairwise_append.mpr ⟨List.pairwise_reverse.mpr ht.order, ?_, fun a _ b hb hop => ?_⟩
    · refine List.pairwise_of_forall_mem_list fun a _ b hb hop => ?_
      rw [ht.waiting b hb] at hop
      cases hop
    · rw [ht.waiting b hb] at hop
      cases hop

/-- The postfix order holds every token once that is no bracket, and nothing else. Numbers and
names stay in their order, and all of them that stood before an operator or a function stand before
it again. -/
theorem toPostfix_placed {ts p : List Token} (h : toPostfix ts = .ok p) :
    ∃ q : List (Token × Nat), q.map Prod.fst = p ∧ q.Perm (placed ts) ∧
      (q.filter fun a => a.1.isOperand) = (ts.zipIdx.filter fun a => a.1.isOperand) ∧
      ∀ before b after, q = before ++ b :: after → b.1.isFunction ∨ b.1.isOperator →
        ∀ a ∈ ts.zipIdx, a.1.isOperand → a.2 < b.2 → a ∈ before := by
  obtain ⟨q, hq, hperm, horder⟩ := exists_places_of_toPostfix h
  refine ⟨q, hq, hperm, ?_, ?_⟩
  · have hoperands : (placed ts).filter (fun a => a.1.isOperand) =
        ts.zipIdx.filter fun a => a.1.isOperand := by
      rw [placed, unbracketed, List.filter_filter]
      refine List.filter_congr fun a _ => ?_
      cases ha : a.1.isOperand with
      | true => simp [Token.isParen_of_isOperand ha]
      | false => rfl
    rw [← hoperands]
    -- Both sides hold the same operands in the order of their places, and this order is strict.
    have hout : (q.filter fun a => a.1.isOperand).Pairwise fun a b => a.2 < b.2 :=
      List.pairwise_filter.mpr (horder.imp fun hab _ hb => hab hb)
    have hin : ((placed ts).filter fun a => a.1.isOperand).Pairwise fun a b => a.2 < b.2 :=
      ((pairwise_zipIdx ts 0).filter _).filter _
    exact List.Perm.eq_of_pairwise (fun _ _ _ _ hab hba => absurd hab (Nat.lt_asymm hba)) hout hin
      (hperm.filter _)
  · rintro before b after rfl hb a ha hop hlt
    have hmem : a ∈ before ++ b :: after := hperm.mem_iff.mpr (mem_placed_of_isOperand ha hop)
    rcases List.mem_append.mp hmem with hmem | hmem
    · exact hmem
    · rcases List.mem_cons.mp hmem with rfl | hmem
      · rw [Token.isOperand_eq_false (hb.imp_right .inl)] at hop
        cases hop
      · -- An operand behind the token would have stood behind it before, too.
        have hbehind := (List.pairwise_cons.mp (List.pairwise_append.mp horder).2.1).1 a hmem hop
        omega

/-- A bare operator, a group, and a function with an operator behind it. -/
theorem toPostfix_placed_malformed :
    toPostfix [.ofOperator .add, .opening, .number 1, .closing, .ofFunction .sin, .ofOperator .add,
      .number 1] = .ok [.number 1, .number 1, .ofOperator .add, .ofFunction .sin, .ofOperator .add] ∧
    ∃ q : List (Token × Nat),
      q.map Prod.fst =
        [.number 1, .number 1, .ofOperator .add, .ofFunction .sin, .ofOperator .add] ∧
      q.Perm [(.ofOperator .add, 0), (.number 1, 2), (.ofFunction .sin, 4), (.ofOperator .add, 5),
        (.number 1, 6)] ∧
      (q.filter fun a => a.1.isOperand) = [(.number 1, 2), (.number 1, 6)] ∧
      ∀ before after, q = before ++ (.ofOperator .add, 5) :: after → (.number 1, 2) ∈ before := by
  have h : toPostfix [.ofOperator .add, .opening, .number 1, .closing, .ofFunction .sin,
      .ofOperator .add, .number 1] =
        .ok [.number 1, .number 1, .ofOperator .add, .ofFunction .sin, .ofOperator .add] := by
    rfl
  obtain ⟨q, hq, hperm, hoperands, hbefore⟩ := toPostfix_placed h
  refine ⟨h, q, hq, hperm, hoperands, fun before after hsplit => ?_⟩
  exact hbefore before _ after hsplit (.inr rfl) (.number 1, 2) (by simp) rfl (by decide)

end Calculator
