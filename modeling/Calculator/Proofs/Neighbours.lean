import Calculator.Proofs.Brackets
import Calculator.Proofs.Grammar

/-!
# Sentences and their neighbours

Whether lexemes are a sentence shows at their brackets and at each two of them that are neighbours.

* `missingOperands`: the places where an operand has to start and none does.
* `missingOperators`: the places where an operand starts right behind another one.
* `sentence_iff`: lexemes whose numerals are numbers are a sentence exactly if their brackets are
  balanced and nothing is missing.
-/
set_option autoImplicit false

namespace Calculator

/-! ## Neighbours -/

/-- Whether an operand has to start behind a lexeme, or at the start of a line. -/
def wantsOperand : Option Lexeme → Bool
  | none | some (.operator _) | some .opening => true
  | some (.name cs) => (Function.ofName? (smallName cs)).isSome
  | some (.numeral _) | some .closing => false

/-- Whether an operand starts with the lexeme. -/
def Lexeme.startsOperand : Lexeme → Bool
  | numeral _ | name _ | opening => true
  | operator _ | closing => false

/-- Whether the lexeme ends what stands before it. A minus may also start an operand. -/
def Lexeme.endsOperand : Lexeme → Bool
  | closing => true
  | operator op => op != .sub
  | numeral _ | name _ | opening => false

/-- The places where an operand has to start and none does. -/
def missingOperands (previous : Option Lexeme) : List Lexeme → Nat
  | [] => (wantsOperand previous).toNat
  | l :: ls => (wantsOperand previous && l.endsOperand).toNat + missingOperands (some l) ls

/-- The places where an operand starts right behind another one. -/
def missingOperators (previous : Option Lexeme) : List Lexeme → Nat
  | [] => 0
  | l :: ls => (!wantsOperand previous && l.startsOperand).toNat + missingOperators (some l) ls

theorem filterMap_side?_cons (l : Lexeme) (ls : List Lexeme) :
    (l :: ls).filterMap Lexeme.side? = l.side?.toList ++ ls.filterMap Lexeme.side? := by
  cases h : l.side? <;> simp [h]

/-! ## Phrases in front -/

/-- Behind the lexemes, a phrase of the first level is one of the second. -/
def Fronts (inner outer : Level) (xs : List Lexeme) : Prop :=
  ∀ bare e ls, Derives inner bare e ls → ∃ e', Derives outer bare e' (xs ++ ls)

theorem Fronts.term {xs : List Lexeme} (h : Fronts .factor .term xs) : Fronts .term .term xs := by
  intro bare e ls he
  generalize hl : Level.term = level at he
  induction he with
  | factor he ih => exact h _ _ _ he
  | @multiplied bare op l r ls rs hop he hr ih _ =>
    obtain ⟨l', hl'⟩ := ih rfl
    refine ⟨.binary op l' r, ?_⟩
    rw [← List.append_assoc]
    exact .multiplied hop hl' hr
  | _ => cases hl

theorem Fronts.sum {xs : List Lexeme} (h : Fronts .term .sum xs) : Fronts .sum .sum xs := by
  intro bare e ls he
  generalize hl : Level.sum = level at he
  induction he with
  | term he ih => exact h _ _ _ he
  | @added bare op l r ls rs hop he hr ih _ =>
    obtain ⟨l', hl'⟩ := ih rfl
    refine ⟨.binary op l' r, ?_⟩
    rw [← List.append_assoc]
    exact .added hop hl' hr
  | _ => cases hl

theorem Fronts.sum_of_factor {xs : List Lexeme} (h : Fronts .factor .term xs) :
    Fronts .sum .sum xs := by
  refine Fronts.sum fun bare e ls he => ?_
  obtain ⟨e', he'⟩ := h.term bare e ls he
  exact ⟨e', .term he'⟩

theorem fronts_minus : Fronts .sum .sum [.operator .sub] :=
  Fronts.sum_of_factor fun _ e _ he => ⟨.negation e, .factor (.negation he)⟩

/-- An operand and an operator in front of a sum make a sum, with the operator in its place. -/
theorem fronts_operator {a : Expr} {xs : List Lexeme} (ha : Derives .atom false a xs)
    (op : Operator) : Fronts .sum .sum (xs ++ [.operator op]) := by
  have hterm : Derives .term false a xs := .factor (.power (.atom ha))
  have hadd : op = .add ∨ op = .sub → Fronts .sum .sum (xs ++ [.operator op]) := by
    refine fun hop => Fronts.sum fun bare e ls he => ⟨.binary op a e, ?_⟩
    rw [List.append_assoc]
    exact .added hop (.term hterm) he
  have hmul : op = .mul ∨ op = .div → Fronts .sum .sum (xs ++ [.operator op]) := by
    refine fun hop => Fronts.sum_of_factor fun bare e ls he => ⟨.binary op a e, ?_⟩
    rw [List.append_assoc]
    exact .multiplied hop hterm he
  cases op with
  | add => exact hadd (.inl rfl)
  | sub => exact hadd (.inr rfl)
  | mul => exact hmul (.inl rfl)
  | div => exact hmul (.inr rfl)
  | pow =>
    refine Fronts.sum_of_factor fun bare e ls he => ⟨.binary .pow a e, ?_⟩
    rw [List.append_assoc]
    exact .factor (.power (.raised ha he))

/-! ## Sentences have nothing missing -/

/-- Lexemes that can be read behind `previous` to the end of `d` groups with nothing missing. -/
structure Regular (previous : Option Lexeme) (d : Nat) (ls : List Lexeme) : Prop where
  operands : missingOperands previous ls = 0
  operators : missingOperators previous ls = 0
  groups : groupsAfter d (ls.filterMap Lexeme.side?) = some 0
  numerals : ∀ ds, .numeral ds ∈ ls → ∃ x, Number.literal ds = .ok x

namespace Regular

variable {previous q : Option Lexeme} {d d' : Nat} {l : Lexeme} {ls : List Lexeme}

theorem congr (h : Regular previous d ls) (hq : wantsOperand previous = wantsOperand q) :
    Regular q d ls := by
  obtain ⟨ho, hm, hg, hn⟩ := h
  cases ls with
  | nil =>
    rw [missingOperands, hq] at ho
    exact ⟨ho, hm, hg, hn⟩
  | cons l ls =>
    rw [missingOperands, hq] at ho
    rw [missingOperators, hq] at hm
    exact ⟨ho, hm, hg, hn⟩

theorem cons (hends : wantsOperand previous → l.endsOperand = false)
    (hstarts : wantsOperand previous = false → l.startsOperand = false)
    (hl : ∀ ds, l = .numeral ds → ∃ x, Number.literal ds = .ok x)
    (hg : groupsAfter d l.side?.toList = some d') (h : Regular (some l) d' ls) :
    Regular previous d (l :: ls) := by
  refine ⟨?_, ?_, ?_, ?_⟩
  · rw [missingOperands, h.operands]
    cases hw : wantsOperand previous with
    | true => simp [hends hw]
    | false => rfl
  · rw [missingOperators, h.operators]
    cases hw : wantsOperand previous with
    | true => rfl
    | false => simp [hstarts hw]
  · rw [filterMap_side?_cons, groupsAfter_append, hg]
    exact h.groups
  · intro ds hds
    rcases List.mem_cons.mp hds with hds | hds
    · exact hl ds hds.symm
    · exact h.numerals ds hds

theorem uncons (h : Regular previous d (l :: ls)) :
    (wantsOperand previous → l.endsOperand = false) ∧
      (wantsOperand previous = false → l.startsOperand = false) ∧
      ∃ d', groupsAfter d l.side?.toList = some d' ∧ Regular (some l) d' ls := by
  obtain ⟨ho, hm, hg, hn⟩ := h
  rw [missingOperands, Nat.add_eq_zero_iff] at ho
  rw [missingOperators, Nat.add_eq_zero_iff] at hm
  rw [filterMap_side?_cons, groupsAfter_append] at hg
  refine ⟨fun hw => ?_, fun hw => ?_, ?_⟩
  · simpa [hw] using ho.1
  · simpa [hw] using hm.1
  · obtain ⟨d', hd', hg⟩ := Option.bind_eq_some_iff.mp hg
    exact ⟨d', hd', ho.2, hm.2, hg, fun ds hds => hn ds (List.mem_cons_of_mem l hds)⟩

theorem nil : Regular (some .closing) 0 [] := ⟨rfl, rfl, rfl, fun ds hds => (by cases hds)⟩

theorem operator {op : Operator} (hw : wantsOperand previous = false)
    (h : Regular (some (.operator op)) d ls) : Regular previous d (.operator op :: ls) :=
  cons (fun hp => absurd hp (by simp [hw])) (fun _ => rfl) (fun _ hl => (by cases hl)) rfl h

theorem closing (hw : wantsOperand previous = false) (h : Regular (some .closing) d ls) :
    Regular previous (d + 1) (.closing :: ls) :=
  cons (fun hp => absurd hp (by simp [hw])) (fun _ => rfl) (fun _ hl => (by cases hl)) rfl h

theorem opening (hw : wantsOperand previous) (h : Regular (some .opening) (d + 1) ls) :
    Regular previous d (.opening :: ls) :=
  cons (fun _ => rfl) (fun hp => absurd hw (by simp [hp])) (fun _ hl => (by cases hl)) rfl h

theorem name {cs : List Char} (hw : wantsOperand previous) (h : Regular (some (.name cs)) d ls) :
    Regular previous d (.name cs :: ls) :=
  cons (fun _ => rfl) (fun hp => absurd hw (by simp [hp])) (fun _ hl => (by cases hl)) rfl h

end Regular

/-- A phrase where an operand is wanted can stand in front of whatever can stand behind an
operand. -/
theorem Derives.regular_append {level : Level} {bare : Bool} {e : Expr} {xs : List Lexeme}
    (h : Derives level bare e xs) :
    ∀ {previous : Option Lexeme} {d : Nat} {ls : List Lexeme}, wantsOperand previous →
      Regular (some .closing) d ls → Regular previous d (xs ++ ls) := by
  induction h with
  | @numeral ds x hx =>
    intro previous d ls hw hls
    refine .cons (fun _ => rfl) (fun hp => absurd hw (by simp [hp])) ?_ rfl (hls.congr rfl)
    intro ds' hl
    cases hl
    exact ⟨x, hx⟩
  | @identifier cs hf =>
    intro previous d ls hw hls
    exact .name hw (hls.congr (by simp [wantsOperand, hf]))
  | group h ih =>
    intro previous d ls hw hls
    rw [List.cons_append, List.append_assoc]
    exact .opening hw (ih rfl (.closing rfl hls))
  | @call bare f e cs xs hf h ih =>
    intro previous d ls hw hls
    have hname : wantsOperand (some (.name cs)) := by simp [wantsOperand, hf]
    rw [List.cons_append, List.cons_append, List.append_assoc]
    exact .name hw (.opening hname (ih rfl (.closing rfl hls)))
  | @bare bare f e cs xs hf h hls' ih =>
    intro previous d ls hw hls
    have hname : wantsOperand (some (.name cs)) := by simp [wantsOperand, hf]
    exact .name hw (ih hname hls)
  | atom h ih => exact ih
  | power h ih => exact ih
  | factor h ih => exact ih
  | term h ih => exact ih
  | negation h ih =>
    intro previous d ls hw hls
    exact .cons (fun _ => rfl) (fun _ => rfl) (fun _ hl => (by cases hl)) rfl (ih rfl hls)
  | raised hl hr ihl ihr =>
    intro previous d ls hw hls
    rw [List.append_assoc]
    exact ihl hw (.operator rfl (ihr rfl hls))
  | multiplied hop hl hr ihl ihr =>
    intro previous d ls hw hls
    rw [List.append_assoc]
    exact ihl hw (.operator rfl (ihr rfl hls))
  | added hop hl hr ihl ihr =>
    intro previous d ls hw hls
    rw [List.append_assoc]
    exact ihl hw (.operator rfl (ihr rfl hls))

theorem Sentence.regular {ls : List Lexeme} (h : Sentence ls) : Regular none 0 ls := by
  obtain ⟨bare, e, he⟩ := h
  have h : Regular none 0 (ls ++ []) := he.regular_append rfl Regular.nil
  rwa [List.append_nil] at h

/-! ## Where nothing is missing there is a sentence -/

/-- The end of the innermost of `d` groups, with all that follows. -/
def EndsGroup (d : Nat) (ls : List Lexeme) : Prop :=
  d = 0 ∧ ls = [] ∨ ∃ d' rest, d = d' + 1 ∧ ls = .closing :: rest ∧ Regular (some .closing) d' rest

/-- What starts with an operand is a sentence up to the end of its group. -/
def OpensSentence (n : Nat) : Prop :=
  ∀ ls, ls.length < n → ∀ previous d, wantsOperand previous → Regular previous d ls →
    ∃ a tail, ls = a ++ tail ∧ Sentence a ∧ EndsGroup d tail

/-- What stands behind an operand completes it to a sentence up to the end of its group. -/
def ClosesSentence (n : Nat) : Prop :=
  ∀ ls, ls.length < n → ∀ previous d, wantsOperand previous = false → Regular previous d ls →
    ∀ e xs, Derives .atom false e xs →
      ∃ a tail, ls = a ++ tail ∧ Sentence (xs ++ a) ∧ EndsGroup d tail

theorem Derives.sentence_of_atom {bare : Bool} {e : Expr} {xs : List Lexeme}
    (h : Derives .atom bare e xs) : Sentence xs :=
  ⟨bare, e, .term (.factor (.power (.atom h)))⟩

theorem closesSentence_succ {n : Nat} (ho : OpensSentence n) : ClosesSentence (n + 1) := by
  intro ls hn previous d hw h e xs hx
  cases ls with
  | nil =>
    have hd : some d = some 0 := h.groups
    exact ⟨[], [], rfl, by simpa using hx.sentence_of_atom, .inl ⟨Option.some.inj hd, rfl⟩⟩
  | cons l ls =>
    obtain ⟨-, hstarts, d', hg, hls⟩ := h.uncons
    cases l with
    | numeral ds => cases hstarts hw
    | name cs => cases hstarts hw
    | opening => cases hstarts hw
    | closing =>
      cases d with
      | zero => cases hg
      | succ k =>
        cases hg
        exact ⟨[], .closing :: ls, rfl, by simpa using hx.sentence_of_atom,
          .inr ⟨d', ls, rfl, rfl, hls⟩⟩
    | operator op =>
      cases hg
      obtain ⟨a, tail, rfl, ⟨bare, e', ha⟩, htail⟩ :=
        ho ls (Nat.lt_of_succ_lt_succ hn) _ _ rfl hls
      obtain ⟨e'', he''⟩ := fronts_operator hx op bare e' a ha
      rw [List.append_assoc] at he''
      exact ⟨.operator op :: a, tail, rfl, ⟨bare, e'', he''⟩, htail⟩

theorem exists_group {n d : Nat} {ls : List Lexeme} (ho : OpensSentence n) (hn : ls.length < n)
    (h : Regular (some .opening) (d + 1) ls) :
    ∃ a rest, ls = a ++ .closing :: rest ∧ Sentence a ∧ rest.length < n ∧
      Regular (some .closing) d rest := by
  obtain ⟨a, tail, rfl, ha, ⟨hd, -⟩ | ⟨d', rest, hd, rfl, hrest⟩⟩ := ho ls hn _ _ rfl h
  · cases hd
  · cases hd
    rw [List.length_append, List.length_cons] at hn
    exact ⟨a, rest, rfl, ha, by omega, hrest⟩

theorem opensSentence_succ {n : Nat} (ho : OpensSentence n) (hc : ClosesSentence n) :
    OpensSentence (n + 1) := by
  intro ls hn previous d hw h
  cases ls with
  | nil =>
    have hm : (wantsOperand previous).toNat = 0 := h.operands
    simp [hw] at hm
  | cons l ls =>
    obtain ⟨hends, -, d', hg, hls⟩ := h.uncons
    have hlen : ls.length < n := Nat.lt_of_succ_lt_succ hn
    cases l with
    | numeral ds =>
      cases hg
      obtain ⟨x, hx⟩ := h.numerals ds List.mem_cons_self
      obtain ⟨a, tail, rfl, ha, htail⟩ := hc ls hlen _ _ rfl hls _ _ (.numeral hx)
      exact ⟨.numeral ds :: a, tail, rfl, ha, htail⟩
    | name cs =>
      cases hg
      cases hf : Function.ofName? (smallName cs) with
      | none =>
        have hwants : wantsOperand (some (.name cs)) = false := by simp [wantsOperand, hf]
        obtain ⟨a, tail, rfl, ha, htail⟩ := hc ls hlen _ _ hwants hls _ _ (.identifier hf)
        exact ⟨.name cs :: a, tail, rfl, ha, htail⟩
      | some f =>
        have hwants : wantsOperand (some (.name cs)) := by simp [wantsOperand, hf]
        by_cases hhead : ls.head? = some .opening
        · -- A function with brackets: the group is its argument, and more can stand behind it.
          obtain ⟨ls, rfl⟩ : ∃ rest, ls = .opening :: rest := List.head?_eq_some_iff.mp hhead
          obtain ⟨-, -, k, hk, hin⟩ := hls.uncons
          cases hk
          rw [List.length_cons] at hlen
          obtain ⟨b, rest, rfl, ⟨bare, e, hb⟩, hrest, hreg⟩ := exists_group ho (by omega) hin
          obtain ⟨a, tail, rfl, ha, htail⟩ := hc rest hrest _ _ rfl hreg _ _ (.call hf hb)
          exact ⟨.name cs :: .opening :: (b ++ [.closing]) ++ a, tail, by simp, ha, htail⟩
        · -- A bare function takes all that follows in its group.
          obtain ⟨a, tail, rfl, ⟨bare, e, ha⟩, htail⟩ := ho ls hlen _ _ hwants hls
          have hne : a.head? ≠ some .opening := by
            cases a with
            | nil => exact absurd rfl ha.ne_nil
            | cons x a => exact hhead
          exact ⟨.name cs :: a, tail, rfl, (Derives.bare hf ha hne).sentence_of_atom, htail⟩
    | opening =>
      cases hg
      obtain ⟨b, rest, rfl, ⟨bare, e, hb⟩, hrest, hreg⟩ := exists_group ho hlen hls
      obtain ⟨a, tail, rfl, ha, htail⟩ := hc rest hrest _ _ rfl hreg _ _ (.group hb)
      exact ⟨.opening :: (b ++ [.closing]) ++ a, tail, by simp, ha, htail⟩
    | closing => cases hends hw
    | operator op =>
      have hop : op = .sub := by simpa [Lexeme.endsOperand] using hends hw
      subst hop
      cases hg
      obtain ⟨a, tail, rfl, ⟨bare, e, ha⟩, htail⟩ := ho ls hlen _ _ rfl hls
      obtain ⟨e', he'⟩ := fronts_minus bare e a ha
      exact ⟨.operator .sub :: a, tail, rfl, ⟨bare, e', he'⟩, htail⟩

theorem opensSentence_and_closesSentence (n : Nat) : OpensSentence n ∧ ClosesSentence n := by
  induction n with
  | zero => exact ⟨fun ls hn => absurd hn (by simp), fun ls hn => absurd hn (by simp)⟩
  | succ n ih => exact ⟨opensSentence_succ ih.1 ih.2, closesSentence_succ ih.1⟩

/-- Lexemes are a sentence exactly if their numerals are numbers, their brackets are balanced, and
neither an operand nor an operator is missing. -/
theorem sentence_iff {ls : List Lexeme} :
    Sentence ls ↔ (∀ ds, .numeral ds ∈ ls → ∃ x, Number.literal ds = .ok x) ∧
      Balanced (ls.filterMap Lexeme.side?) ∧
      missingOperands none ls = 0 ∧ missingOperators none ls = 0 := by
  constructor
  · intro h
    have hreg := h.regular
    exact ⟨hreg.numerals, balanced_iff.mpr hreg.groups, hreg.operands, hreg.operators⟩
  · rintro ⟨hn, hb, ho, hm⟩
    have hreg : Regular none 0 ls := ⟨ho, hm, balanced_iff.mp hb, hn⟩
    obtain ⟨a, tail, rfl, ha, ⟨-, rfl⟩ | ⟨d', rest, hd, -⟩⟩ :=
      (opensSentence_and_closesSentence (ls.length + 1)).1 ls (Nat.lt_succ_self _) none 0 rfl hreg
    · rwa [List.append_nil]
    · cases hd

end Calculator
