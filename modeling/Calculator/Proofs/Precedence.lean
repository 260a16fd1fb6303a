import Calculator.Proofs.Rearrangement
import Mathlib.Data.List.Chain

/-!
# Precedence on the stack

Brackets and functions cut the stack of the yard into pieces. Within a piece the operators bind
tighter from the bottom to the top, and only those of the highest precedence wait on their like.

* `Token.precedence`, `pieces`, `Ascends`: how tightly a token binds, the pieces of a stack, and the
  shape of a piece.
* `Yard.Ordered`, `Yard.Step.ordered`, `Yard.feedAll_ordered`: every step keeps the shape, and so
  does a run.
* `Yard.GivesWay`, `Yard.Ordered.givesWay`: what an operator takes from the topmost piece, and what
  it leaves there.
* `Yard.pieces_ascend`: the shape of the stack after every token, and at every operator.
-/
set_option autoImplicit false

namespace Calculator

/-! ## Precedences -/

namespace Token

/-- The precedence of an operator token; that of a leading minus is three. A token that does not
bind has none, and zero stands for it. -/
def precedence (t : Token) : Nat :=
  match t.binding with
  | .ok b => b.precedence
  | .error _ => 0

theorem HasRank.precedence_eq {t : Token} {k : Nat} (h : t.HasRank k) : t.precedence = k := by
  simp only [precedence, h.2]

theorem hasRank_of_unary {t : Token} (ho : t.isOperator) (hu : t.unary) : t.HasRank 3 :=
  ⟨ho, if_pos hu⟩

/-- The rank of a known operator is its precedence. -/
theorem IsKnown.hasRank {t : Token} (h : t.IsKnown) (ho : t.isOperator) :
    t.HasRank t.precedence ∧ t.precedence ≤ 3 := by
  have hrank : ∃ k ≤ 3, t.HasRank k := by
    obtain ⟨item, unary⟩ := t
    cases item with
    | operator symbol =>
      cases unary with
      | true => exact ⟨3, Nat.le_refl 3, hasRank_of_unary ho rfl⟩
      | false =>
        obtain hu | ⟨op, rfl⟩ := h symbol rfl
        · cases hu
        · exact ⟨_, by cases op <;> decide, hasRank_ofOperator op⟩
    | number x => cases ho
    | identifier name => cases ho
    | function name => cases ho
    | paren mark => cases ho
  obtain ⟨k, hk, hrank⟩ := hrank
  rw [hrank.precedence_eq]
  exact ⟨hrank, hk⟩

/-- An operator may wait below another: it binds less tightly, or both have the highest
precedence. -/
def Under (p t : Token) : Prop :=
  p.precedence < t.precedence ∨ p.precedence = 3 ∧ t.precedence = 3

end Token

/-! ## Pieces -/

/-- A token at which a stack is cut. -/
def Token.isBarrier (t : Token) : Bool := t.isParen || t.isFunction

/-- The pieces of a stack between its brackets and functions. The topmost piece comes first, and the
topmost token of each. -/
def pieces (stack : List Token) : List (List Token) := stack.splitOnP Token.isBarrier

theorem Token.isBarrier_of_isOperator {t : Token} (h : t.isOperator) : t.isBarrier = false := by
  unfold isOperator at h
  unfold isBarrier isParen isFunction
  cases hi : t.item <;> simp [hi] at h ⊢

theorem pieces_cons_of_isBarrier {t : Token} (h : t.isBarrier) (stack : List Token) :
    pieces (t :: stack) = [] :: pieces stack := by
  rw [pieces, List.splitOnP_cons_eq_if_modifyHead, if_pos h, pieces]

theorem pieces_append {a : List Token} (ha : ∀ t ∈ a, t.isOperator) {stack top : List Token}
    {others : List (List Token)} (h : pieces stack = top :: others) :
    pieces (a ++ stack) = (a ++ top) :: others := by
  induction a with
  | nil => exact h
  | cons t a ih =>
    have ht := Token.isBarrier_of_isOperator (ha t List.mem_cons_self)
    have ih : (a ++ stack).splitOnP Token.isBarrier = (a ++ top) :: others :=
      ih fun u hu => ha u (List.mem_cons_of_mem t hu)
    rw [List.cons_append, pieces, List.splitOnP_cons_eq_if_modifyHead, ih]
    simp [ht]

theorem pieces_append_cons {p : Token} (h : p.isBarrier) (above rest : List Token) :
    pieces (above ++ p :: rest) = pieces above ++ pieces rest :=
  List.splitOnP_append_cons above rest h

/-- The topmost piece lies on top of the stack. -/
theorem exists_pieces (stack : List Token) :
    ∃ top others, pieces stack = top :: others ∧ top <+: stack := by
  induction stack with
  | nil => exact ⟨[], [], List.splitOnP_nil, List.prefix_rfl⟩
  | cons t stack ih =>
    obtain ⟨top, others, h, htop⟩ := ih
    cases hb : t.isBarrier with
    | true => exact ⟨[], _, pieces_cons_of_isBarrier hb stack, List.nil_prefix⟩
    | false =>
      refine ⟨t :: top, others, ?_, List.cons_prefix_cons.mpr ⟨rfl, htop⟩⟩
      rw [pieces] at h
      rw [pieces, List.splitOnP_cons_eq_if_modifyHead, h]
      simp [hb]

/-- A piece, topmost token first, in which the operators bind tighter from the bottom to the top. -/
structure Ascends (piece : List Token) : Prop where
  operators : ∀ t ∈ piece, t.isOperator ∧ t.IsKnown
  /-- From the bottom to the top the precedences do not fall. -/
  order : (piece.reverse.map Token.precedence).Pairwise (· ≤ ·)
  /-- Neighbours of one precedence have the highest. -/
  neighbours : piece.IsChain fun above below =>
    above.precedence = below.precedence → above.precedence = 3

namespace Ascends

theorem nil : Ascends [] := ⟨by simp, by simp, .nil⟩

theorem le {piece : List Token} (h : Ascends piece) :
    piece.Pairwise fun above below => below.precedence ≤ above.precedence := by
  have horder := h.order
  rwa [List.map_reverse, List.pairwise_reverse, List.pairwise_map] at horder

theorem cons {t : Token} {below : List Token} (h : Ascends below) (ho : t.isOperator)
    (ht : t.IsKnown) (hu : ∀ p ∈ below, p.Under t) : Ascends (t :: below) := by
  refine ⟨List.forall_mem_cons.mpr ⟨⟨ho, ht⟩, h.operators⟩, ?_, h.neighbours.cons ?_⟩
  · rw [List.map_reverse, List.pairwise_reverse, List.pairwise_map, List.pairwise_cons]
    refine ⟨fun p hp => ?_, h.le⟩
    rcases hu p hp with hlt | ⟨hp3, ht3⟩ <;> omega
  · intro p hp heq
    rcases hu p (List.mem_of_mem_head? hp) with hlt | ⟨hp3, ht3⟩ <;> omega

theorem of_append {a b : List Token} (h : Ascends (a ++ b)) : Ascends b := by
  refine ⟨fun t ht => h.operators t (List.mem_append_right a ht), ?_,
    h.neighbours.right_of_append⟩
  have horder := h.order
  rw [List.reverse_append, List.map_append] at horder
  exact (List.pairwise_append.mp horder).1

end Ascends

namespace Yard

/-! ## Steps -/

/-- A yard in which all waiting operators bind and all pieces of the stack ascend. -/
structure Ordered (y : Yard) : Prop where
  bound : y.Bound
  ascends : ∀ piece ∈ pieces y.stack, Ascends piece

theorem ordered_empty : Ordered {} := by
  refine ⟨by simp [Bound], fun piece h => ?_⟩
  have hnil : piece = [] := by simpa [pieces] using h
  rw [hnil]
  exact .nil

/-- What an operator meets on the stack. The operators that it pushes away and those that stay make
up the topmost piece, and it may wait on top of the latter. -/
theorem Ordered.under {y : Yard} (hy : y.Ordered) {t : Token} (ht : t.IsKnown) (ho : t.isOperator)
    {popped rest : List Token} (hs : y.stack = popped ++ rest)
    (hp : ∀ p ∈ popped, p.outranks t = .ok true)
    (hr : ∀ p ∈ rest.head?, p.outranks t = .ok false) :
    ∃ below others, pieces y.stack = (popped ++ below) :: others ∧
      pieces (t :: rest) = (t :: below) :: others ∧ ∀ p ∈ below, p.Under t := by
  obtain ⟨below, others, hrest, hprefix⟩ := exists_pieces rest
  have hbefore : pieces y.stack = (popped ++ below) :: others := by
    rw [hs]
    exact pieces_append (fun p hm => Token.isOperator_of_outranks (hp p hm)) hrest
  have hafter : pieces ([t] ++ rest) = ([t] ++ below) :: others :=
    pieces_append (fun u hu => by rwa [List.mem_singleton.mp hu]) hrest
  refine ⟨below, others, hbefore, hafter, ?_⟩
  have hbelow : Ascends below :=
    (hy.ascends _ (by rw [hbefore]; exact List.mem_cons_self)).of_append
  -- The topmost operator that is left did not outrank the new one, and no other binds tighter.
  cases below with
  | nil => simp
  | cons q below =>
    obtain ⟨hqo, hqk⟩ := hbelow.operators q List.mem_cons_self
    obtain ⟨hq, hq3⟩ := hqk.hasRank hqo
    obtain ⟨hrank, ht3⟩ := ht.hasRank ho
    have hout : q.outranks t = .ok false := by
      obtain ⟨u, rfl⟩ := hprefix
      exact hr q rfl
    rw [Token.outranks_of_hasRank hq hrank, Except.ok.injEq, decide_eq_false_iff_not] at hout
    intro p hm
    have hle : p.precedence ≤ q.precedence := by
      rcases List.mem_cons.mp hm with rfl | hm
      · exact Nat.le_refl _
      · exact (List.pairwise_cons.mp hbelow.le).1 p hm
    unfold Token.Under
    omega

theorem Step.ordered {y y' : Yard} {t : Token} (h : y.Step t y') (ht : t.IsKnown)
    (hy : y.Ordered) : y'.Ordered := by
  refine ⟨h.bound ht.binds hy.bound, ?_⟩
  cases h with
  | operand h => exact hy.ascends
  | hold h =>
    have hb : t.isBarrier := by
      rcases h with h | h
      · simp [Token.isBarrier, h]
      · simp [Token.isBarrier, Token.isParen_eq_isSome_side?, h]
    intro piece hm
    rw [Yard.hold, pieces_cons_of_isBarrier hb] at hm
    rcases List.mem_cons.mp hm with rfl | hm
    · exact .nil
    · exact hy.ascends piece hm
  | @operator popped rest ho hs hp hr =>
    obtain ⟨below, others, hbefore, hafter, hu⟩ := hy.under ht ho hs hp hr
    intro piece hm
    rw [hafter] at hm
    have hpieces := hy.ascends
    rw [hbefore] at hpieces
    rcases List.mem_cons.mp hm with rfl | hm
    · exact (hpieces _ List.mem_cons_self).of_append.cons ho ht hu
    · exact hpieces piece (List.mem_cons_of_mem _ hm)
  | @close above rest p h hs ha hp =>
    have hb : p.isBarrier := by simp [Token.isBarrier, hp]
    -- What lies below the bracket is cut as before.
    have hrest : ∀ piece ∈ pieces rest, Ascends piece := by
      intro piece hm
      refine hy.ascends piece ?_
      rw [hs, pieces_append_cons hb]
      exact List.mem_append_right _ hm
    rcases applyFunction_cases (above.reverse ++ y.output) rest with
      ⟨f, below, rfl, hf, he⟩ | ⟨-, he⟩
    · rw [he]
      intro piece hm
      refine hrest piece ?_
      rw [pieces_cons_of_isBarrier (by simp [Token.isBarrier, hf])]
      exact List.mem_cons_of_mem _ hm
    · rw [he]
      exact hrest

/-! ## Runs -/

theorem feedAll_ordered {ts : List Token} (hts : ∀ t ∈ ts, t.IsKnown) :
    ∀ {y y' : Yard}, y.Ordered → y.feedAll ts = .ok y' → y'.Ordered := by
  induction ts with
  | nil =>
    intro y y' hy h
    cases h
    exact hy
  | cons t ts ih =>
    intro y y' hy h
    rw [feedAll_cons] at h
    obtain ⟨z, hf, h⟩ := bind_eq_ok_iff.mp h
    have hz := (step_of_feed hf).ordered (hts t List.mem_cons_self) hy
    exact ih (fun u hu => hts u (List.mem_cons_of_mem t hu)) hz h

/-- How an operator with the binding `b` is put on the stack. The operators `popped` leave the
topmost piece for the output, and the operators `below` stay there. -/
structure GivesWay (y : Yard) (t : Token) (b : Binding) (popped below : List Token) : Prop where
  binding : t.binding = .ok b
  /-- The topmost piece changes, and no other. -/
  stack : ∃ rest others, y.stack = popped ++ rest ∧
    y.feed t = .ok ⟨popped.reverse ++ y.output, t :: rest⟩ ∧
    pieces y.stack = (popped ++ below) :: others ∧ pieces (t :: rest) = (t :: below) :: others
  /-- An operator that leaves binds tighter, or as tightly while the new one groups to the left. -/
  leaves : ∀ p ∈ popped, b.precedence < p.precedence ∨
    b.precedence = p.precedence ∧ b.associativity = .left
  /-- The operators leave in the order of falling precedence. -/
  order : (popped.map Token.precedence).Pairwise (· ≥ ·)
  /-- An operator that stays binds less tightly, or it has the highest precedence while the new one
  groups to the right. -/
  stays : ∀ p ∈ below, p.precedence < b.precedence ∨
    p.precedence = 3 ∧ b.associativity = .right

/-- An operator is always put on the stack of an ordered yard. -/
theorem Ordered.givesWay {y : Yard} (hy : y.Ordered) {t : Token} (ht : t.IsKnown)
    (ho : t.isOperator) : ∃ b popped below, y.GivesWay t b popped below := by
  obtain ⟨z, hz⟩ := exists_giveWay ht.binds ho hy.bound y.output
  obtain ⟨popped, rest, hs, -, hp, hr⟩ := giveWay_ok hz
  obtain ⟨below, others, hbefore, hafter, hu⟩ := hy.under ht ho hs hp hr
  obtain ⟨hrank, ht3⟩ := ht.hasRank ho
  have htop : Ascends (popped ++ below) :=
    hy.ascends _ (by rw [hbefore]; exact List.mem_cons_self)
  refine ⟨_, popped, below, hrank.2,
    ⟨rest, others, hs, feed_of_step (.operator ho hs hp hr), hbefore, hafter⟩, ?_, ?_, ?_⟩
  · intro p hm
    obtain ⟨hpo, hpk⟩ := htop.operators p (List.mem_append_left below hm)
    have hout := hp p hm
    rw [Token.outranks_of_hasRank (hpk.hasRank hpo).1 hrank, Except.ok.injEq,
      decide_eq_true_iff] at hout
    rcases hout with hlt | ⟨heq, h3⟩
    · exact .inl hlt
    · exact .inr ⟨heq, if_pos (heq ▸ h3)⟩
  · exact List.pairwise_map.mpr (List.pairwise_append.mp htop.le).1
  · intro p hm
    rcases hu p hm with hlt | ⟨hp3, ht3⟩
    · exact .inl hlt
    · exact .inr ⟨hp3, if_neg (by omega)⟩

/-- After every token the pieces of the stack ascend. An operator pushes away the operators of the
topmost piece that outrank it, in the order of falling precedence. All that stay there bind less
tightly, or have the highest precedence while the new one groups to the right. -/
theorem pieces_ascend {ts : List Token} (hts : ∀ t ∈ ts, t.IsKnown) :
    (∀ before y, before <+: ts → feedAll {} before = .ok y →
      ∀ piece ∈ pieces y.stack, Ascends piece) ∧
    ∀ before t y, before ++ [t] <+: ts → t.isOperator → feedAll {} before = .ok y →
      ∃ b popped below, y.GivesWay t b popped below := by
  have hordered : ∀ before y, before <+: ts → feedAll {} before = .ok y → y.Ordered :=
    fun before y hb => feedAll_ordered (fun t ht => hts t (hb.mem ht)) ordered_empty
  refine ⟨fun before y hb hy => (hordered before y hb hy).ascends, fun before t y hb ho hy => ?_⟩
  have ht : t.IsKnown := hts t (hb.mem (List.mem_append_right before List.mem_cons_self))
  exact (hordered before y ((List.prefix_append before [t]).trans hb) hy).givesWay ht ho

/-- A quotient whose divisor is a function without a group. The product pushes away the leading
minus and the power, but not the quotient on the other side of the function. -/
theorem pieces_ascend_bare_function :
    (∀ t ∈ [.number 6, .ofOperator .div, .ofFunction .sin, .number 2, .ofOperator .pow, .number 0,
      .minus, .number 3, .ofOperator .mul], Token.IsKnown t) ∧
    feedAll {} [.number 6, .ofOperator .div, .ofFunction .sin, .number 2, .ofOperator .pow,
      .number 0, .minus, .number 3] = .ok ⟨[.number 3, .number 0, .number 2, .number 6],
        [.minus, .ofOperator .pow, .ofFunction .sin, .ofOperator .div]⟩ ∧
    Ascends [.minus, .ofOperator .pow] ∧ Ascends [.ofOperator .div] ∧
    GivesWay ⟨[.number 3, .number 0, .number 2, .number 6],
      [.minus, .ofOperator .pow, .ofFunction .sin, .ofOperator .div]⟩ (.ofOperator .mul) ⟨2, .left⟩
        [.minus, .ofOperator .pow] [] := by
  have hts : ∀ t ∈ [.number 6, .ofOperator .div, .ofFunction .sin, .number 2, .ofOperator .pow,
      .number 0, .minus, .number 3, .ofOperator .mul], Token.IsKnown t := by
    decide
  have hy : feedAll {} [.number 6, .ofOperator .div, .ofFunction .sin, .number 2, .ofOperator .pow,
      .number 0, .minus, .number 3] = .ok ⟨[.number 3, .number 0, .number 2, .number 6],
        [.minus, .ofOperator .pow, .ofFunction .sin, .ofOperator .div]⟩ := by
    rfl
  obtain ⟨hpieces, hgives⟩ := pieces_ascend hts
  have hpiece := hpieces _ _ (List.prefix_append _ [Token.ofOperator .mul]) hy
  refine ⟨hts, hy, hpiece _ (by decide), hpiece _ (by decide), ?_⟩
  obtain ⟨b, popped, below, h⟩ := hgives _ _ _ List.prefix_rfl rfl hy
  obtain rfl : ⟨2, .left⟩ = b := Except.ok.inj h.binding
  -- The new output shows which operators left, and the piece before which stayed.
  obtain ⟨rest, others, -, hfeed, hbefore, -⟩ := h.stack
  have hout : [.ofOperator .pow, .minus] ++ [.number 3, .number 0, .number 2, .number 6] =
      popped.reverse ++ [.number 3, .number 0, .number 2, .number 6] :=
    congrArg Yard.output (Except.ok.inj hfeed)
  obtain rfl : popped = [.minus, .ofOperator .pow] :=
    List.reverse_eq_iff.mp (List.append_cancel_right hout).symm
  have htop : [[.minus, .ofOperator .pow], [.ofOperator .div]] =
      ([.minus, .ofOperator .pow] ++ below) :: others := hbefore
  obtain rfl : below = [] := List.self_eq_append_right.mp (List.cons.inj htop).1
  exact h

end Yard

end Calculator
