import Calculator.Proofs.Reading

/-!
# Brackets

The brackets of a line and of its tokens, and when they are balanced.

* `Side`: one of the two brackets; `Lexeme.side?`, `Token.side?`: the one that a lexeme or a token
  is.
* `Balanced`: no group is closed before it is opened, and as many are closed as are opened.
* `groupsAfter`: how many groups are open behind brackets, counted from left to right.
* `groupsAfter_eq_some_iff`, `balanced_iff`: the count and the definition agree.
* `filterMap_side?_ofLexemes`: a line has the brackets of its tokens.
-/
set_option autoImplicit false

namespace Calculator

/-- One of the two brackets. -/
inductive Side where
  | opening
  | closing
deriving DecidableEq

/-- The bracket that a lexeme is. -/
def Lexeme.side? : Lexeme → Option Side
  | opening => some .opening
  | closing => some .closing
  | numeral _ | name _ | operator _ => none

/-- The bracket that a token is. -/
def Token.side? (t : Token) : Option Side :=
  match t.item with
  | .paren mark => some (if mark = "(" then .opening else .closing)
  | _ => none

/-! ## Balance -/

/-- No group is closed before it is opened, and as many are closed as are opened. -/
def Balanced (bs : List Side) : Prop :=
  (∀ p, p <+: bs → p.count .closing ≤ p.count .opening) ∧ bs.count .closing = bs.count .opening

/-- The number of open groups behind brackets that stand in `k` open groups, unless a bracket
closes none. -/
def groupsAfter : Nat → List Side → Option Nat
  | k, [] => some k
  | k, .opening :: bs => groupsAfter (k + 1) bs
  | 0, .closing :: _ => none
  | k + 1, .closing :: bs => groupsAfter k bs

/-- Brackets in `k` open groups of which none closes a group too many. -/
def Closable (k : Nat) (bs : List Side) : Prop :=
  ∀ p, p <+: bs → p.count .closing ≤ k + p.count .opening

theorem closable_opening {k : Nat} {bs : List Side} :
    Closable k (.opening :: bs) ↔ Closable (k + 1) bs := by
  constructor
  · intro h p hp
    have := h (.opening :: p) (List.cons_prefix_cons.mpr ⟨rfl, hp⟩)
    simp only [List.count_cons] at this
    simpa [Nat.add_comm, Nat.add_left_comm] using this
  · intro h p hp
    cases p with
    | nil => simp
    | cons b p =>
      obtain ⟨rfl, hq⟩ := List.cons_prefix_cons.mp hp
      have := h p hq
      simp only [List.count_cons]
      simpa [Nat.add_comm, Nat.add_left_comm] using this

theorem not_closable_zero (bs : List Side) : ¬ Closable 0 (.closing :: bs) := by
  intro h
  have := h [.closing] (List.cons_prefix_cons.mpr ⟨rfl, List.nil_prefix⟩)
  simp at this

theorem closable_closing {k : Nat} {bs : List Side} :
    Closable (k + 1) (.closing :: bs) ↔ Closable k bs := by
  constructor
  · intro h p hp
    have := h (.closing :: p) (List.cons_prefix_cons.mpr ⟨rfl, hp⟩)
    simp at this
    omega
  · intro h p hp
    cases p with
    | nil => simp
    | cons b p =>
      obtain ⟨rfl, hq⟩ := List.cons_prefix_cons.mp hp
      have := h p hq
      simp
      omega

/-- The count goes through exactly if no bracket closes a group too many, and then it is the
difference of the two kinds of bracket. -/
theorem groupsAfter_eq_some_iff {k j : Nat} {bs : List Side} :
    groupsAfter k bs = some j ↔
      Closable k bs ∧ j + bs.count .closing = k + bs.count .opening := by
  induction bs generalizing k with
  | nil => simp [groupsAfter, Closable, eq_comm]
  | cons b bs ih =>
    cases b with
    | opening =>
      rw [groupsAfter, ih, closable_opening]
      simp
      omega
    | closing =>
      cases k with
      | zero => simp [groupsAfter, not_closable_zero]
      | succ k =>
        rw [groupsAfter, ih, closable_closing]
        simp
        omega

theorem balanced_iff {bs : List Side} : Balanced bs ↔ groupsAfter 0 bs = some 0 := by
  rw [groupsAfter_eq_some_iff]
  simp [Balanced, Closable]

instance (bs : List Side) : Decidable (Balanced bs) := decidable_of_iff _ balanced_iff.symm

theorem groupsAfter_append (k : Nat) (as bs : List Side) :
    groupsAfter k (as ++ bs) = (groupsAfter k as).bind (groupsAfter · bs) := by
  induction as generalizing k with
  | nil => rfl
  | cons a as ih =>
    cases a with
    | opening => exact ih (k + 1)
    | closing =>
      cases k with
      | zero => rfl
      | succ k => exact ih k

/-! ## Brackets of a line -/

theorem Token.Reads.filterMap_side? {previous : Option Token} {l : Lexeme} {ts : List Token}
    (h : Reads previous l ts) : ts.filterMap Token.side? = l.side?.toList := by
  cases h <;> rfl

/-- A line has the brackets of its tokens. -/
theorem TokenStream.filterMap_side?_ofLexemes {stuck : Option Char} {ls : List Lexeme} :
    ∀ {previous : Option Token} {ts : List Token}, ofLexemes stuck previous ls = ⟨ts, none⟩ →
      ts.filterMap Token.side? = ls.filterMap Lexeme.side? := by
  induction ls with
  | nil =>
    intro previous ts h
    rw [ofLexemes] at h
    injection h with ht _
    rw [← ht]
    rfl
  | cons l ls ih =>
    intro previous ts h
    obtain ⟨us, vs, hl, hv, rfl⟩ := of_ofLexemes_cons h
    rw [List.filterMap_append, hl.filterMap_side?, ih hv]
    cases hs : l.side? <;> simp [hs]

end Calculator
