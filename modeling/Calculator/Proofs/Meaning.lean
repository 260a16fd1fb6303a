import Calculator.Proofs.Faults
import Calculator.Proofs.Postorder
import Calculator.Proofs.Spelling

/-!
# The meaning of an expression

A text that spells a tree evaluates to the value of the tree.

* `Keeps`: how operators compete for their operands.
* `Compiles`: the tokens of a phrase, behind whatever waits on the stack, become the phrase in
  postfix order, and the operators that still wait bind at least as tightly as the phrase.
* `Derives.exists_compiles`: every derivation compiles.
* `evaluate_of_derives`: the evaluation of a text with a derivation.
-/
set_option autoImplicit false

namespace Calculator

/-! ## Ranks -/

/-- What lies on top of the stack stays there for operators of rank `k` and above. -/
def Keeps (k : Nat) (stack : List Token) : Prop :=
  ∀ p ∈ stack.head?, p.isOperator → ∃ i, p.HasRank i ∧ (i < k ∨ i = k ∧ 3 ≤ k)

theorem keeps_nil (k : Nat) : Keeps k [] := by
  intro p hp
  cases hp

theorem keeps_cons_of_not_isOperator {t : Token} (h : t.isOperator = false) (k : Nat)
    (stack : List Token) : Keeps k (t :: stack) := by
  intro p hp ho
  cases hp
  rw [h] at ho
  cases ho

theorem keeps_cons_of_hasRank {t : Token} {i k : Nat} (h : t.HasRank i)
    (hk : i < k ∨ i = k ∧ 3 ≤ k) (stack : List Token) : Keeps k (t :: stack) := by
  intro p hp _
  cases hp
  exact ⟨i, h, hk⟩

theorem Keeps.mono {k l : Nat} {stack : List Token} (h : Keeps k stack) (hkl : k ≤ l) :
    Keeps l stack := by
  intro p hp ho
  obtain ⟨i, hi, hik⟩ := h p hp ho
  exact ⟨i, hi, by omega⟩

theorem Keeps.outranks {k j : Nat} {stack : List Token} {t : Token} (h : Keeps k stack)
    (ht : t.HasRank j) (hkj : k ≤ j) : ∀ p ∈ stack.head?, p.outranks t = .ok false := by
  intro p hp
  cases ho : p.isOperator with
  | false => exact Token.outranks_of_not_isOperator ho
  | true =>
    obtain ⟨i, hi, hik⟩ := h p hp ho
    have hn : ¬ (j < i ∨ j = i ∧ i < 3) := by omega
    rw [Token.outranks_of_hasRank hi ht, decide_eq_false hn]

/-! ## Phrases as tokens -/

/-- The operators that wait when a phrase has ended, none of them looser than `k`. -/
def Settled (k : Nat) (w : List Token) : Prop := ∀ p ∈ w, ∃ i, p.HasRank i ∧ k ≤ i

theorem Settled.mono {k l : Nat} {w : List Token} (h : Settled l w) (hkl : k ≤ l) :
    Settled k w := by
  intro p hp
  obtain ⟨i, hi, hli⟩ := h p hp
  exact ⟨i, hi, by omega⟩

theorem Settled.append_singleton {k i : Nat} {w : List Token} {t : Token} (h : Settled k w)
    (ht : t.HasRank i) (hki : k ≤ i) : Settled k (w ++ [t]) := by
  intro p hp
  rcases List.mem_append.mp hp with hp | hp
  · exact h p hp
  · rw [List.mem_singleton.mp hp]
    exact ⟨i, ht, hki⟩

theorem isParen_append_singleton {w : List Token} {t : Token} (h : ∀ p ∈ w, p.isParen = false)
    (ht : t.isParen = false) : ∀ p ∈ w ++ [t], p.isParen = false := by
  intro p hp
  rcases List.mem_append.mp hp with hp | hp
  · exact h p hp
  · rw [List.mem_singleton.mp hp]
    exact ht

/-- The lexemes of a phrase have the tokens `ts`, and behind any stack that keeps what it holds
these become the tree in postfix order; a part of it may still wait. -/
structure Compiles (k : Nat) (bare : Bool) (e : Expr) (ls : List Lexeme) (ts : List Token) :
    Prop where
  ne_nil : ls ≠ []
  reads : TokenStream.ofLexemes none none ls = ⟨ts, none⟩
  ends : minusLeads ts.getLast? = false
  yields : ∀ out stack, Keeps k stack →
    (ls.head? = some .opening → ∀ p ∈ stack.head?, p.isFunction = false) →
    ∃ o w, Yard.feedAll ⟨out, stack⟩ ts = .ok ⟨o.reverse ++ out, w ++ stack⟩ ∧
      o ++ w = e.postorder ∧ (∀ p ∈ w, p.isParen = false) ∧ (bare = false → Settled k w)

theorem minusLeads_getLast?_append {b : List Token} (h : minusLeads b.getLast? = false)
    (a : List Token) : minusLeads (a ++ b).getLast? = false := by
  rw [List.getLast?_append]
  cases hb : b.getLast? with
  | none =>
    rw [hb] at h
    cases h
  | some t => rwa [hb] at h

namespace Compiles

open Yard (Step)

variable {k i l r : Nat} {bare : Bool} {e : Expr} {ls rs : List Lexeme} {ts us : List Token}

theorem mono (h : Compiles l bare e ls ts) (hkl : k ≤ l) : Compiles k bare e ls ts where
  ne_nil := h.ne_nil
  reads := h.reads
  ends := h.ends
  yields := by
    intro out stack hk hf
    obtain ⟨o, w, hy, he, hp, hw⟩ := h.yields out stack (hk.mono hkl) hf
    exact ⟨o, w, hy, he, hp, fun hb => (hw hb).mono hkl⟩

theorem operand {t : Token} {l : Lexeme} (ht : t.isOperand) (he : e.postorder = [t])
    (hr : TokenStream.ofLexemes none none [l] = ⟨[t], none⟩) (hm : minusLeads (some t) = false) :
    Compiles k false e [l] [t] where
  ne_nil := by simp
  reads := hr
  ends := hm
  yields := by
    intro out stack _ _
    refine ⟨[t], [], ?_, by simp [he], by simp, fun _ p hp => by simp at hp⟩
    rw [Yard.feedAll_cons_of_step (Step.operand ht)]
    rfl

theorem reads_group (h : Compiles k bare e ls ts) :
    TokenStream.ofLexemes none none (.opening :: (ls ++ [.closing])) =
      ⟨.opening :: (ts ++ [.closing]), none⟩ := by
  rw [TokenStream.ofLexemes_opening, TokenStream.ofLexemes_append _ h.reads,
    TokenStream.ofLexemes_closing]
  rfl

theorem group (h : Compiles 1 bare e ls ts) :
    Compiles k false e (.opening :: (ls ++ [.closing])) (.opening :: (ts ++ [.closing])) where
  ne_nil := by simp
  reads := h.reads_group
  ends := minusLeads_getLast?_append (b := [.closing]) rfl (.opening :: ts)
  yields := by
    intro out stack _ hf
    obtain ⟨o, w, hy, he, hp, -⟩ := h.yields out (.opening :: stack)
      (keeps_cons_of_not_isOperator rfl 1 stack) (by intro _ p hp; cases hp; rfl)
    refine ⟨o ++ w, [], ?_, by simp [he], by simp, fun _ p hp => by simp at hp⟩
    rw [Yard.feedAll_group hy hp, Yard.applyFunction_of_head? (hf rfl)]
    rfl

theorem call {f : Function} {cs : List Char} (hf : Function.ofName? (smallName cs) = some f)
    (h : Compiles 1 bare e ls ts) :
    Compiles k false (.call f e) (.name cs :: .opening :: (ls ++ [.closing]))
      (.ofFunction f :: .opening :: (ts ++ [.closing])) where
  ne_nil := by simp
  reads := by
    rw [TokenStream.ofLexemes_function hf, h.reads_group]
    rfl
  ends := minusLeads_getLast?_append (b := [.closing]) rfl (.ofFunction f :: .opening :: ts)
  yields := by
    intro out stack _ _
    have hold : Yard.Step ⟨out, stack⟩ (.ofFunction f) ⟨out, .ofFunction f :: stack⟩ :=
      .hold (.inl rfl)
    obtain ⟨o, w, hy, he, hp, -⟩ := h.yields out (.opening :: .ofFunction f :: stack)
      (keeps_cons_of_not_isOperator rfl 1 _) (by intro _ p hp; cases hp; rfl)
    refine ⟨o ++ w ++ [.ofFunction f], [], ?_, by simp [he, Expr.postorder], by simp,
      fun _ p hp => by simp at hp⟩
    rw [Yard.feedAll_cons_of_step hold, Yard.feedAll_group hy hp,
      Yard.applyFunction_of_isFunction rfl]
    simp

theorem bareCall {f : Function} {cs : List Char} (hf : Function.ofName? (smallName cs) = some f)
    (h : Compiles 1 bare e ls ts) (hls : ls.head? ≠ some .opening) :
    Compiles k true (.call f e) (.name cs :: ls) (.ofFunction f :: ts) where
  ne_nil := by simp
  reads := by
    rw [TokenStream.ofLexemes_function hf, h.reads]
    rfl
  ends := minusLeads_getLast?_append h.ends [.ofFunction f]
  yields := by
    intro out stack _ _
    have hold : Yard.Step ⟨out, stack⟩ (.ofFunction f) ⟨out, .ofFunction f :: stack⟩ :=
      .hold (.inl rfl)
    obtain ⟨o, w, hy, he, hp, -⟩ := h.yields out (.ofFunction f :: stack)
      (keeps_cons_of_not_isOperator rfl 1 stack) (fun ho => absurd ho hls)
    refine ⟨o, w ++ [.ofFunction f], ?_, by simp [← he, Expr.postorder],
      isParen_append_singleton hp rfl, by simp⟩
    rw [Yard.feedAll_cons_of_step hold, hy]
    simp

/-- The step of an operator that comes when everything of its left operand may go out. -/
theorem step_operator {t : Token} {out stack w : List Token} (ht : t.HasRank i)
    (hw : Settled l w) (hil : i < l ∨ i = l ∧ l < 3) (hk : Keeps k stack) (hki : k ≤ i) :
    Yard.Step ⟨out, w ++ stack⟩ t ⟨w.reverse ++ out, t :: stack⟩ := by
  refine .operator ht.1 rfl (fun p hp => ?_) (hk.outranks ht hki)
  obtain ⟨j, hj, hlj⟩ := hw p hp
  have ho : i < j ∨ i = j ∧ j < 3 := by omega
  rw [Token.outranks_of_hasRank hj ht, decide_eq_true ho]

theorem negation (h : Compiles 3 bare e ls ts) :
    Compiles 3 bare (.negation e) (.operator .sub :: ls) (.number 0 :: .minus :: ts) where
  ne_nil := by simp
  reads := by
    rw [TokenStream.ofLexemes_minus rfl, h.reads]
    rfl
  ends := minusLeads_getLast?_append h.ends [.number 0, .minus]
  yields := by
    intro out stack hk _
    have hzero : Yard.Step ⟨out, stack⟩ (.number 0) ⟨.number 0 :: out, stack⟩ := .operand rfl
    have hminus : Yard.Step ⟨.number 0 :: out, stack⟩ .minus ⟨.number 0 :: out, .minus :: stack⟩ :=
      step_operator (l := 4) (w := []) Token.hasRank_minus (fun p hp => by cases hp) (by omega) hk
        (by omega)
    obtain ⟨o, w, hy, he, hp, hw⟩ := h.yields (.number 0 :: out) (.minus :: stack)
      (keeps_cons_of_hasRank Token.hasRank_minus (by omega) stack) (by intro _ p hp; cases hp; rfl)
    refine ⟨.number 0 :: o, w ++ [.minus], ?_, by simp [← he, Expr.postorder],
      isParen_append_singleton hp rfl,
      fun hb => (hw hb).append_singleton Token.hasRank_minus (by omega)⟩
    rw [Yard.feedAll_cons_of_step hzero, Yard.feedAll_cons_of_step hminus, hy]
    simp

/-- An operator between its operands: it is no looser than the phrase, no tighter than what waits
of its left operand, and stays below its right operand. -/
theorem binary {op : Operator} {a b : Expr} (hl : Compiles l false a ls ts)
    (hr : Compiles r bare b rs us) (hi : i = op.binding.precedence) (hki : k ≤ i)
    (hil : i < l ∨ i = l ∧ l < 3) (hir : i < r ∨ i = r ∧ 3 ≤ r) :
    Compiles k bare (.binary op a b) (ls ++ .operator op :: rs)
      (ts ++ .ofOperator op :: us) where
  ne_nil := by simp
  reads := by
    have hends : minusLeads (ts.getLast?.or none) = false := by
      rw [Option.or_none]
      exact hl.ends
    rw [TokenStream.ofLexemes_append _ hl.reads, TokenStream.ofLexemes_operator hends, hr.reads]
    rfl
  ends := by
    have h := minusLeads_getLast?_append hr.ends (ts ++ [.ofOperator op])
    rwa [List.append_assoc, List.singleton_append] at h
  yields := by
    intro out stack hk hf
    have ht : (Token.ofOperator op).HasRank i := hi ▸ Token.hasRank_ofOperator op
    have hhead : (ls ++ .operator op :: rs).head? = ls.head? := by
      cases ls with
      | nil => exact absurd rfl hl.ne_nil
      | cons x ls => rfl
    rw [hhead] at hf
    obtain ⟨o, w, hy, he, hp, hw⟩ := hl.yields out stack (hk.mono (by omega)) hf
    have hstep : Yard.Step ⟨o.reverse ++ out, w ++ stack⟩ (.ofOperator op)
        ⟨w.reverse ++ (o.reverse ++ out), .ofOperator op :: stack⟩ :=
      step_operator ht (hw rfl) hil hk hki
    obtain ⟨o', w', hy', he', hp', hw'⟩ := hr.yields (w.reverse ++ (o.reverse ++ out))
      (.ofOperator op :: stack) (keeps_cons_of_hasRank ht hir stack)
      (by intro _ p hp; cases hp; rfl)
    have hsettled : bare = false → Settled k w' := fun hb => (hw' hb).mono (by omega)
    refine ⟨o ++ w ++ o', w' ++ [.ofOperator op], ?_, ?_, isParen_append_singleton hp' rfl,
      fun hb => (hsettled hb).append_singleton ht hki⟩
    · rw [Yard.feedAll_append_of_ok hy, Yard.feedAll_cons_of_step hstep, hy']
      simp
    · rw [Expr.postorder, ← he, ← he']
      simp

end Compiles

/-! ## Derivations as tokens -/

/-- The rank of the loosest operator of a phrase. An atom has none. -/
def Level.rank : Level → Nat
  | sum => 1
  | term => 2
  | factor | power => 3
  | atom => 4

/-- Every phrase compiles, by induction on its derivation. -/
theorem Derives.exists_compiles {level : Level} {bare : Bool} {e : Expr} {ls : List Lexeme}
    (h : Derives level bare e ls) : ∃ ts, Compiles level.rank bare e ls ts := by
  induction h with
  | @numeral ds x hx =>
    have hr : TokenStream.ofLexemes none none [.numeral ds] = ⟨[.number x], none⟩ :=
      TokenStream.ofLexemes_numeral hx []
    exact ⟨_, .operand rfl rfl hr rfl⟩
  | @identifier cs hf =>
    have hr : TokenStream.ofLexemes none none [.name cs] =
        ⟨[⟨.identifier (smallName cs), false⟩], none⟩ := TokenStream.ofLexemes_identifier hf []
    exact ⟨_, .operand rfl rfl hr rfl⟩
  | group h ih =>
    obtain ⟨ts, hts⟩ := ih
    exact ⟨_, hts.group⟩
  | call hf h ih =>
    obtain ⟨ts, hts⟩ := ih
    exact ⟨_, hts.call hf⟩
  | bare hf h hls ih =>
    obtain ⟨ts, hts⟩ := ih
    exact ⟨_, hts.bareCall hf hls⟩
  | atom h ih =>
    obtain ⟨ts, hts⟩ := ih
    exact ⟨ts, hts.mono (by decide)⟩
  | raised hl hr ihl ihr =>
    obtain ⟨ts, hts⟩ := ihl
    obtain ⟨us, hus⟩ := ihr
    exact ⟨_, hts.binary hus rfl (by decide) (by decide) (by decide)⟩
  | power h ih => exact ih
  | negation h ih =>
    obtain ⟨ts, hts⟩ := ih
    exact ⟨_, hts.negation⟩
  | factor h ih =>
    obtain ⟨ts, hts⟩ := ih
    exact ⟨ts, hts.mono (by decide)⟩
  | multiplied hop hl hr ihl ihr =>
    obtain ⟨ts, hts⟩ := ihl
    obtain ⟨us, hus⟩ := ihr
    rcases hop with rfl | rfl
    · exact ⟨_, hts.binary hus rfl (by decide) (by decide) (by decide)⟩
    · exact ⟨_, hts.binary hus rfl (by decide) (by decide) (by decide)⟩
  | term h ih =>
    obtain ⟨ts, hts⟩ := ih
    exact ⟨ts, hts.mono (by decide)⟩
  | added hop hl hr ihl ihr =>
    obtain ⟨ts, hts⟩ := ihl
    obtain ⟨us, hus⟩ := ihr
    rcases hop with rfl | rfl
    · exact ⟨_, hts.binary hus rfl (by decide) (by decide) (by decide)⟩
    · exact ⟨_, hts.binary hus rfl (by decide) (by decide) (by decide)⟩

/-! ## Whole texts -/

theorem Compiles.toPostfix {k : Nat} {bare : Bool} {e : Expr} {ls : List Lexeme} {ts : List Token}
    (h : Compiles k bare e ls ts) : Calculator.toPostfix ts = .ok e.postorder := by
  obtain ⟨o, w, hy, he, hp, -⟩ := h.yields [] [] (keeps_nil k) (by simp)
  exact toPostfix_eq_ok_iff.mpr ⟨_, hy, by simpa using hp, by simp [he]⟩

theorem readPostfix_of_derives {bare : Bool} {e : Expr} {ls : List Lexeme} {text : String}
    (h : Derives .sum bare e ls) (hs : Spells ls text.toList) :
    readPostfix text = .ok e.postorder := by
  obtain ⟨ts, hts⟩ := h.exists_compiles
  have hline : TokenStream.ofLine text = ⟨ts, none⟩ := by
    rw [TokenStream.ofLine, scan_of_spells hs]
    exact hts.reads
  rw [readPostfix, hline]
  exact hts.toPostfix

/-- A text whose lexemes spell a tree evaluates to the value of the tree in its scope, whether that
is a float or an error. -/
theorem evaluate_of_derives {bare : Bool} {e : Expr} {ls : List Lexeme} {expression : String}
    (h : Derives .sum bare e ls) (hs : Spells ls (Text.trim expression).toList)
    (known : Bindings) (precision : Int) :
    ∃ scope, scopeOf known.definitions = .ok scope ∧
      evaluate expression known.definitions precision =
        .ok ⟨Text.trim expression, e.value scope, precision⟩ := by
  obtain ⟨scope, hscope⟩ := exists_scopeOf known
  have hne : Text.trim expression ≠ "" := by
    intro ht
    rw [ht] at hs
    have hnil : scan [] = (ls, none) := scan_of_spells hs
    rw [scan] at hnil
    cases hnil
    exact h.ne_nil rfl
  exact ⟨scope, hscope, evaluate_of_readPostfix hne (readPostfix_of_derives h hs) hscope
    (runPostfix_postorder scope e) precision⟩

/-- A minus in front of a power whose exponent is a bare function of a sum. -/
theorem evaluate_negated_power_of_root : ∃ scope, scopeOf [("x", .real 4)] = .ok scope ∧
    evaluate " -2^sqrt X+5 " [("x", .real 4)] 4 =
      .ok ⟨"-2^sqrt X+5", (Expr.negation (.binary .pow (.number 2)
        (.call .sqrt (.binary .add (.identifier "x") (.number 5))))).value scope, 4⟩ := by
  have htwo : Derives .atom false (.number 2) [.numeral ['2']] :=
    .numeral (by with_unfolding_all rfl)
  have hfive : Derives .atom false (.number 5) [.numeral ['5']] :=
    .numeral (by with_unfolding_all rfl)
  have hname : smallName ['X'] = "x" := by decide
  have hx : Derives .atom false (.identifier "x") [.name ['X']] :=
    hname ▸ .identifier (by decide)
  have hsum : Derives .sum false (.binary .add (.identifier "x") (.number 5))
      [.name ['X'], .operator .add, .numeral ['5']] :=
    .added (.inl rfl) (.term (.factor (.power (.atom hx)))) (.factor (.power (.atom hfive)))
  have hroot : Derives .atom true (.call .sqrt (.binary .add (.identifier "x") (.number 5)))
      [.name ['s', 'q', 'r', 't'], .name ['X'], .operator .add, .numeral ['5']] :=
    .bare (by decide) hsum (by decide)
  have h : Derives .sum true (.negation (.binary .pow (.number 2)
      (.call .sqrt (.binary .add (.identifier "x") (.number 5)))))
      [.operator .sub, .numeral ['2'], .operator .pow, .name ['s', 'q', 'r', 't'], .name ['X'],
        .operator .add, .numeral ['5']] :=
    .term (.factor (.negation (.power (.raised htwo (.power (.atom hroot))))))
  exact evaluate_of_derives h (spells_of_scan (by decide +kernel)) ⟨[("x", 4)]⟩ 4

end Calculator
