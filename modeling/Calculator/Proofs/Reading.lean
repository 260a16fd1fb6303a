import Calculator.TokenStream

/-!
# Lexemes as tokens

What a line gives when its lexemes are turned into tokens.

* `Token.IsLexed`: the tokens that a line can have.
* `Token.Reads`: the tokens that a lexeme can have, said once for all later proofs.
* `ofLexemes_congr`: of the token before, only whether it leaves a minus without an operand counts.
* `ofLexemes_append`: lexemes in front are read by themselves.
-/
set_option autoImplicit false

namespace Calculator

/-! ## Names of built-in symbols -/

@[simp] theorem Operator.ofSymbol?_symbol (op : Operator) : ofSymbol? op.symbol = some op := by
  cases op <;> rfl

@[simp] theorem Function.ofName?_name (f : Function) : ofName? f.name = some f := by
  cases f <;> rfl

theorem Function.eq_name_of_ofName? {s : String} {f : Function} (h : ofName? s = some f) :
    s = f.name := by
  simpa [eq_comm] using List.find?_some h

/-- The name that letters write, in small letters. -/
def smallName (letters : List Char) : String := String.ofList (letters.map Char.toLower)

/-! ## Tokens of a line -/

namespace Token

/-- The token of an operator between two operands. -/
def ofOperator (op : Operator) : Token := ⟨.operator op.symbol, false⟩

/-- The token of a function. -/
def ofFunction (f : Function) : Token := ⟨.function f.name, false⟩

/-- The token of a bracket that opens a group. -/
def opening : Token := ⟨.paren "(", false⟩

/-- The token of a bracket that closes a group. -/
def closing : Token := ⟨.paren ")", false⟩

/-- The tokens that are read from a line: every symbol has its meaning, and only a minus has a
mark. -/
inductive IsLexed : Token → Prop where
  | number (x : Float) : IsLexed (number x)
  | identifier (name : String) : IsLexed ⟨.identifier name, false⟩
  | function (f : Function) : IsLexed (ofFunction f)
  | operator (op : Operator) : IsLexed (ofOperator op)
  | minus : IsLexed minus
  | opening : IsLexed opening
  | closing : IsLexed closing

theorem ofName_of_some {letters : List Char} {f : Function}
    (h : Function.ofName? (smallName letters) = some f) : ofName letters = ofFunction f := by
  have hn : String.ofList (letters.map Char.toLower) = f.name := Function.eq_name_of_ofName? h
  simp [ofName, ofFunction, hn]

theorem ofName_of_none {letters : List Char} (h : Function.ofName? (smallName letters) = none) :
    ofName letters = ⟨.identifier (smallName letters), false⟩ := by
  unfold smallName at h
  simp [ofName, smallName, h]

/-- The tokens of a lexeme behind the given token. -/
inductive Reads (previous : Option Token) : Lexeme → List Token → Prop where
  | numeral {ds : List Char} {x : Float} (h : Number.literal ds = .ok x) :
      Reads previous (.numeral ds) [number x]
  | identifier {cs : List Char} (h : Function.ofName? (smallName cs) = none) :
      Reads previous (.name cs) [⟨.identifier (smallName cs), false⟩]
  | function {cs : List Char} {f : Function} (h : Function.ofName? (smallName cs) = some f) :
      Reads previous (.name cs) [ofFunction f]
  | operator {op : Operator} (h : op = .sub → minusLeads previous = false) :
      Reads previous (.operator op) [ofOperator op]
  | minus (h : minusLeads previous) : Reads previous (.operator .sub) [number 0, minus]
  | opening : Reads previous .opening [opening]
  | closing : Reads previous .closing [closing]

theorem reads_of_ofLexeme {previous : Option Token} {l : Lexeme} {ts : List Token}
    (h : ofLexeme previous l = .ok ts) : Reads previous l ts := by
  cases l with
  | numeral ds =>
    simp only [ofLexeme] at h
    split at h
    · next x hx =>
      cases h
      exact .numeral hx
    · cases h
    · cases h
  | name cs =>
    cases h
    cases hf : Function.ofName? (smallName cs) with
    | none =>
      rw [ofName_of_none hf]
      exact .identifier hf
    | some f =>
      rw [ofName_of_some hf]
      exact .function hf
  | operator op =>
    simp only [ofLexeme] at h
    split at h
    · next hm =>
      obtain ⟨hop, hm⟩ := (Bool.and_eq_true _ _).mp hm
      cases of_decide_eq_true hop
      cases h
      exact .minus hm
    · next hm =>
      cases h
      exact .operator (by simpa using hm)
  | opening =>
    cases h
    exact .opening
  | closing =>
    cases h
    exact .closing

theorem ofLexeme_of_reads {previous : Option Token} {l : Lexeme} {ts : List Token}
    (h : Reads previous l ts) : ofLexeme previous l = .ok ts := by
  cases h with
  | numeral h => simp [ofLexeme, h]
  | identifier h => rw [ofLexeme, ofName_of_none h]
  | function h => rw [ofLexeme, ofName_of_some h]
  | @operator op h =>
    by_cases hop : op = .sub
    · simp [ofLexeme, ofOperator, h hop]
    · simp [ofLexeme, ofOperator, hop]
  | minus h => simp [ofLexeme, h]
  | opening => rfl
  | closing => rfl

theorem Reads.isLexed {previous : Option Token} {l : Lexeme} {ts : List Token}
    (h : Reads previous l ts) : ∀ t ∈ ts, t.IsLexed := by
  intro t ht
  cases h with
  | minus h =>
    rcases List.mem_cons.mp ht with rfl | ht
    · exact .number 0
    · rw [List.mem_singleton.mp ht]
      exact .minus
  | numeral h => rw [List.mem_singleton.mp ht]; exact .number _
  | identifier h => rw [List.mem_singleton.mp ht]; exact .identifier _
  | function h => rw [List.mem_singleton.mp ht]; exact .function _
  | operator h => rw [List.mem_singleton.mp ht]; exact .operator _
  | opening => rw [List.mem_singleton.mp ht]; exact .opening
  | closing => rw [List.mem_singleton.mp ht]; exact .closing

theorem Reads.ne_nil {previous : Option Token} {l : Lexeme} {ts : List Token}
    (h : Reads previous l ts) : ts ≠ [] := by
  cases h <;> simp

end Token

namespace TokenStream

theorem after_after (a b : List Token) (s : TokenStream) :
    (s.after b).after a = s.after (a ++ b) := by
  simp [after]

theorem of_after_eq {us ts : List Token} {s : TokenStream} (h : s.after us = ⟨ts, none⟩) :
    ∃ vs, s = ⟨vs, none⟩ ∧ ts = us ++ vs := by
  cases s with
  | mk vs failure =>
    simp only [after, TokenStream.mk.injEq] at h
    obtain ⟨rfl, rfl⟩ := h
    exact ⟨vs, rfl, rfl⟩

/-- What holds of the tokens of every lexeme holds of all tokens of a line. -/
theorem forall_mem_ofLexemes {P : Token → Prop}
    (hP : ∀ {previous : Option Token} {l : Lexeme} {ts : List Token},
      Token.Reads previous l ts → ∀ t ∈ ts, P t) {stuck : Option Char} {ls : List Lexeme} :
    ∀ {previous : Option Token}, ∀ t ∈ (ofLexemes stuck previous ls).tokens, P t := by
  induction ls with
  | nil => simp [ofLexemes]
  | cons l ls ih =>
    intro previous t ht
    rw [ofLexemes] at ht
    split at ht
    · simp at ht
    · next ts h =>
      rcases List.mem_append.mp ht with ht | ht
      · exact hP (Token.reads_of_ofLexeme h) t ht
      · exact ih t ht

theorem isLexed_of_mem_ofLine {line : String} : ∀ t ∈ (ofLine line).tokens, t.IsLexed :=
  fun t ht => forall_mem_ofLexemes (fun h => h.isLexed) t ht

/-! ## The token before -/

theorem ofLexeme_congr {p q : Option Token} (h : minusLeads p = minusLeads q) (l : Lexeme) :
    Token.ofLexeme p l = Token.ofLexeme q l := by
  cases l <;> simp only [Token.ofLexeme, h]

theorem ofLexemes_congr {stuck : Option Char} {p q : Option Token}
    (h : minusLeads p = minusLeads q) (ls : List Lexeme) :
    ofLexemes stuck p ls = ofLexemes stuck q ls := by
  cases ls with
  | nil => rfl
  | cons l ls =>
    rw [ofLexemes, ofLexemes, ofLexeme_congr h]
    cases hl : Token.ofLexeme q l with
    | error e => rfl
    | ok ts =>
      simp only [List.getLast?_eq_some_getLast (Token.reads_of_ofLexeme hl).ne_nil, Option.some_or]

/-! ## Lexemes one by one -/

section Lexemes

variable {stuck : Option Char} {previous : Option Token}

/-- Behind the tokens of a lexeme, any token may be thought of that leaves a minus the same. -/
theorem ofLexemes_cons {l : Lexeme} {ts : List Token} {q : Option Token}
    (h : Token.Reads previous l ts)
    (hq : minusLeads (ts.getLast?.or previous) = minusLeads q) (ls : List Lexeme) :
    ofLexemes stuck previous (l :: ls) = (ofLexemes stuck q ls).after ts := by
  rw [ofLexemes, Token.ofLexeme_of_reads h]
  exact congrArg (after ts) (ofLexemes_congr hq ls)

theorem ofLexemes_numeral {ds : List Char} {x : Float} (h : Number.literal ds = .ok x)
    (ls : List Lexeme) :
    ofLexemes stuck previous (.numeral ds :: ls) =
      (ofLexemes stuck (some (.number x)) ls).after [.number x] :=
  ofLexemes_cons (.numeral h) rfl ls

theorem ofLexemes_identifier {cs : List Char} (h : Function.ofName? (smallName cs) = none)
    (ls : List Lexeme) :
    ofLexemes stuck previous (.name cs :: ls) =
      (ofLexemes stuck (some ⟨.identifier (smallName cs), false⟩) ls).after
        [⟨.identifier (smallName cs), false⟩] :=
  ofLexemes_cons (.identifier h) rfl ls

theorem ofLexemes_function {cs : List Char} {f : Function}
    (h : Function.ofName? (smallName cs) = some f) (ls : List Lexeme) :
    ofLexemes stuck previous (.name cs :: ls) =
      (ofLexemes stuck none ls).after [.ofFunction f] :=
  ofLexemes_cons (q := none) (.function h) rfl ls

theorem ofLexemes_operator {op : Operator} (h : minusLeads previous = false) (ls : List Lexeme) :
    ofLexemes stuck previous (.operator op :: ls) =
      (ofLexemes stuck none ls).after [.ofOperator op] :=
  ofLexemes_cons (q := none) (.operator fun _ => h) rfl ls

theorem ofLexemes_minus (h : minusLeads previous) (ls : List Lexeme) :
    ofLexemes stuck previous (.operator .sub :: ls) =
      (ofLexemes stuck none ls).after [.number 0, .minus] :=
  ofLexemes_cons (q := none) (.minus h) rfl ls

theorem ofLexemes_opening (ls : List Lexeme) :
    ofLexemes stuck previous (.opening :: ls) = (ofLexemes stuck none ls).after [.opening] :=
  ofLexemes_cons (q := none) .opening rfl ls

theorem ofLexemes_closing (ls : List Lexeme) :
    ofLexemes stuck previous (.closing :: ls) =
      (ofLexemes stuck (some .closing) ls).after [.closing] :=
  ofLexemes_cons .closing rfl ls

/-- A line that is read to its end is read lexeme by lexeme. -/
theorem of_ofLexemes_cons {l : Lexeme} {ls : List Lexeme} {ts : List Token}
    (h : ofLexemes stuck previous (l :: ls) = ⟨ts, none⟩) :
    ∃ us vs, Token.Reads previous l us ∧
      ofLexemes stuck (us.getLast?.or previous) ls = ⟨vs, none⟩ ∧ ts = us ++ vs := by
  rw [ofLexemes] at h
  split at h
  · cases h
  · next us hl =>
    obtain ⟨vs, hv, rfl⟩ := of_after_eq h
    exact ⟨us, vs, Token.reads_of_ofLexeme hl, hv, rfl⟩

end Lexemes

/-! ## Lexemes in a row -/

theorem ofLexemes_append {stuck : Option Char} {a : List Lexeme} (b : List Lexeme) :
    ∀ {previous : Option Token} {ts : List Token}, ofLexemes none previous a = ⟨ts, none⟩ →
      ofLexemes stuck previous (a ++ b) =
        (ofLexemes stuck (ts.getLast?.or previous) b).after ts := by
  induction a with
  | nil =>
    intro previous ts h
    cases h
    rfl
  | cons l a ih =>
    intro previous ts h
    obtain ⟨us, vs, hl, hv, rfl⟩ := of_ofLexemes_cons h
    rw [List.cons_append, ofLexemes_cons hl rfl, ih hv, after_after, List.getLast?_append,
      Option.or_assoc]

theorem stuck_eq_none {stuck : Option Char} {ls : List Lexeme} :
    ∀ {previous : Option Token} {ts : List Token}, ofLexemes stuck previous ls = ⟨ts, none⟩ →
      stuck = none := by
  induction ls with
  | nil =>
    intro previous ts h
    injection h with _ hf
    exact Option.map_eq_none_iff.mp hf
  | cons l ls ih =>
    intro previous ts h
    obtain ⟨us, vs, -, hv, -⟩ := of_ofLexemes_cons h
    exact ih hv

end TokenStream

end Calculator
