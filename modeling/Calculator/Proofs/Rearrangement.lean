import Calculator.Proofs.Positions

/-!
# Rearranged tokens

The postfix order of tokens holds each of them once, but for the brackets.

* `toPostfix_perm`: the order as a rearrangement.
* `toPostfix_eq_error_iff`: which tokens have no postfix order.
-/
set_option autoImplicit false

namespace Calculator

/-- The postfix order of tokens holds each of them once, but for the brackets. -/
theorem toPostfix_perm {ts p : List Token} (h : toPostfix ts = .ok p) :
    p.Perm (withoutParens ts) := by
  obtain ⟨q, rfl, hperm, -⟩ := exists_places_of_toPostfix h
  have hmap : (placed ts).map Prod.fst = withoutParens ts := by
    rw [placed, map_fst_unbracketed, List.zipIdx_map_fst]
  exact hmap ▸ hperm.map Prod.fst

theorem isParen_of_mem_toPostfix {ts p : List Token} (h : toPostfix ts = .ok p) :
    ∀ t ∈ p, t.isParen = false ∧ t ∈ ts := by
  intro t ht
  have := (toPostfix_perm h).mem_iff.mp ht
  simpa [withoutParens, and_comm] using this

/-! ## Tokens without an order -/

/-- An operator token carries the mark of a leading minus, or the symbol of an operator. -/
def Token.IsKnown (t : Token) : Prop :=
  ∀ symbol, t.item = .operator symbol → t.unary ∨ ∃ op : Operator, symbol = op.symbol

theorem Token.IsKnown.binds {t : Token} (h : t.IsKnown) : t.Binds := by
  intro ho
  obtain ⟨item, unary⟩ := t
  cases item with
  | operator symbol =>
    rcases h symbol rfl with hu | ⟨op, rfl⟩
    · exact ⟨leadingMinus, if_pos hu⟩
    · cases unary with
      | true => exact ⟨leadingMinus, rfl⟩
      | false => exact ⟨op.binding, binding_ofOperator op⟩
  | number x => cases ho
  | identifier name => cases ho
  | function name => cases ho
  | paren mark => cases ho

theorem Token.isKnown_iff (t : Token) :
    t.IsKnown ↔ (t.isOperator → t.unary ∨ t.item.operator?.isSome) := by
  obtain ⟨item, unary⟩ := t
  cases item with
  | operator symbol =>
    have hsome : (Operator.ofSymbol? symbol).isSome ↔ ∃ op : Operator, symbol = op.symbol := by
      constructor
      · intro h
        obtain ⟨op, hop⟩ := Option.isSome_iff_exists.mp h
        have hsymbol : op.symbol = symbol := by simpa using List.find?_some hop
        exact ⟨op, hsymbol.symm⟩
      · rintro ⟨op, rfl⟩
        simp
    simp [IsKnown, isOperator, Item.operator?, hsome]
  | number x => simp [IsKnown, isOperator]
  | identifier name => simp [IsKnown, isOperator]
  | function name => simp [IsKnown, isOperator]
  | paren mark => simp [IsKnown, isOperator]

instance : DecidablePred Token.IsKnown := fun t => decidable_of_iff _ t.isKnown_iff.symm

/-- Tokens with known operators have no postfix order exactly if their brackets are not balanced,
and then for this reason alone. No bracket gets into an order. -/
theorem toPostfix_eq_error_iff {ts : List Token} (hts : ∀ t ∈ ts, t.IsKnown) :
    (∀ stop, toPostfix ts = .error stop ↔
      ¬ Balanced (ts.filterMap Token.side?) ∧ stop = .report .mismatchedParentheses) ∧
    (Balanced (ts.filterMap Token.side?) →
      ∃ p, toPostfix ts = .ok p ∧ ∀ t ∈ p, t.isParen = false) ∧
    Error.mismatchedParentheses.kind = .malformed ∧
    Error.mismatchedParentheses.message = "Mismatched parentheses." := by
  have hbinds : ∀ t ∈ ts, t.Binds := fun t ht => (hts t ht).binds
  refine ⟨fun stop => ?_, fun hb => ?_, rfl, rfl⟩
  · by_cases hb : Balanced (ts.filterMap Token.side?)
    · obtain ⟨p, hp⟩ := toPostfix_of_balanced hbinds hb
      simp [hp, hb]
    · rw [toPostfix_of_not_balanced hbinds hb]
      simp [hb, eq_comm]
  · obtain ⟨p, hp⟩ := toPostfix_of_balanced hbinds hb
    exact ⟨p, hp, fun t ht => (isParen_of_mem_toPostfix hp t ht).1⟩

/-- As many groups are closed as are opened, but the first one too early. The operator has no
meaning and is marked. -/
theorem toPostfix_eq_error_iff_early :
    (∀ t ∈ [⟨.operator "%", true⟩, .closing, .ofFunction .sin, .opening, .number 2],
      Token.IsKnown t) ∧
    toPostfix [⟨.operator "%", true⟩, .closing, .ofFunction .sin, .opening, .number 2] =
      .error (.report .mismatchedParentheses) := by
  have hts : ∀ t ∈ [⟨.operator "%", true⟩, .closing, .ofFunction .sin, .opening, .number 2],
      Token.IsKnown t := by
    intro t ht symbol hs
    simp only [List.mem_cons, List.not_mem_nil, or_false] at ht
    rcases ht with rfl | rfl | rfl | rfl | rfl
    · exact .inl rfl
    all_goals cases hs
  exact ⟨hts, ((toPostfix_eq_error_iff hts).1 _).mpr ⟨by decide, rfl⟩⟩

end Calculator
