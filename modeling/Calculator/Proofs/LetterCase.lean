import Mathlib
import Calculator.Proofs.Faults
import Calculator.Proofs.Margins

/-!
# Letters of either case

A text has the same tokens whatever the case of its letters.

* `SameLetters`: texts that differ in the case of ASCII letters at most.
* `scansSmall`: the lexemes of a text in small letters.
* `SameLetters.ofLine`, `SameLetters.outcome`: such texts have the same tokens, with the same failure
  behind them, and the same outcome.
-/
set_option autoImplicit false

namespace Calculator

open Calculator.Text

/-- The texts differ in the case of ASCII letters at most. -/
def SameLetters (s t : String) : Prop := s.toList.map Char.toLower = t.toList.map Char.toLower

instance (s t : String) : Decidable (SameLetters s t) := inferInstanceAs (Decidable (_ = _))

/-! ## Characters -/

theorem toLower_of_isAlpha_eq_false {c : Char} (h : c.isAlpha = false) : c.toLower = c := by
  apply Char.toLower_eq_of_not_isUpper
  intro hu
  simp [Char.isAlpha, hu] at h

/-- What does not tell letters apart does not tell their cases apart. -/
theorem comp_toLower {p : Char → Bool} {b : Bool} (h : ∀ c, c.isAlpha → p c = b) :
    p ∘ Char.toLower = p := by
  funext c
  show p c.toLower = p c
  cases hc : c.isAlpha with
  | true => rw [h c hc, h _ (by rw [Char.isAlpha_toLower_eq_isAlpha, hc])]
  | false => rw [toLower_of_isAlpha_eq_false hc]

theorem isBlank_comp_toLower : isBlank ∘ Char.toLower = isBlank :=
  comp_toLower fun _ => isBlank_of_isAlpha

theorem isNumeralChar_comp_toLower : isNumeralChar ∘ Char.toLower = isNumeralChar :=
  comp_toLower fun _ => isNumeralChar_of_isAlpha

theorem isNameChar_comp_toLower : isNameChar ∘ Char.toLower = isNameChar :=
  comp_toLower fun _ => isNameChar_of_isAlpha

theorem isMargin_comp_toLower : isMargin ∘ Char.toLower = isMargin := by
  refine comp_toLower (b := false) fun c hc => Bool.eq_false_iff.mpr fun hm => ?_
  have hname := isNameChar_of_isMargin hm
  rw [isNameChar_of_isAlpha hc] at hname
  cases hname

/-! ## Lexemes -/

/-- A lexeme in small letters. -/
def Lexeme.small : Lexeme → Lexeme
  | name cs => name (cs.map Char.toLower)
  | l => l

theorem map_toLower_of_numeral {cs : List Char} (h : ∀ c ∈ cs, isNumeralChar c) :
    cs.map Char.toLower = cs := by
  have hsame : ∀ c ∈ cs, c.toLower = id c := by
    intro c hc
    apply toLower_of_isAlpha_eq_false
    apply Bool.eq_false_iff.mpr
    intro ha
    have hn := h c hc
    rw [isNumeralChar_of_isAlpha ha] at hn
    cases hn
  rw [List.map_congr_left hsame, List.map_id]

theorem Lexeme.IsWord.chars_small {l : Lexeme} (h : l.IsWord) :
    l.small.chars = l.chars.map Char.toLower := by
  cases l with
  | numeral ds => exact (map_toLower_of_numeral h.2).symm
  | name cs => rfl
  | operator op => cases op <;> decide
  | opening | closing => decide

theorem Lexeme.IsWord.small {l : Lexeme} (h : l.IsWord) : l.small.IsWord := by
  cases l with
  | name cs =>
    obtain ⟨c, rest, rfl, hc, hrest⟩ := h
    refine ⟨c.toLower, rest.map Char.toLower, rfl, ?_, fun d hd => ?_⟩
    · rw [Char.isAlpha_toLower_eq_isAlpha, hc]
    · obtain ⟨e, he, rfl⟩ := List.mem_map.mp hd
      exact (congrFun isNameChar_comp_toLower e).trans (hrest e he)
  | numeral ds | operator op | opening | closing => exact h

theorem Lexeme.EndsBefore.small {l : Lexeme} {cs : List Char} (h : l.EndsBefore cs) :
    l.small.EndsBefore (cs.map Char.toLower) := by
  have hhead : ∀ {p : Char → Bool}, p ∘ Char.toLower = p → (∀ c ∈ cs.head?, p c = false) →
      ∀ c ∈ (cs.map Char.toLower).head?, p c = false := by
    intro p hp hcs c hc
    rw [List.head?_map] at hc
    obtain ⟨d, hd, rfl⟩ := Option.map_eq_some_iff.mp hc
    exact (congrFun hp d).trans (hcs d hd)
  cases l with
  | numeral ds => exact hhead isNumeralChar_comp_toLower h
  | name letters => exact hhead isNameChar_comp_toLower h
  | operator op | opening | closing => trivial

/-- The lexemes of the characters in small letters are their lexemes in small letters. -/
def ScansSmall (cs : List Char) : Prop :=
  scan (cs.map Char.toLower) = ((scan cs).1.map Lexeme.small, (scan cs).2)

theorem ScansSmall.lexeme {l : Lexeme} {cs : List Char} (h : ScansSmall cs) (hl : l.IsWord)
    (he : l.EndsBefore cs) : ScansSmall (l.chars ++ cs) := by
  unfold ScansSmall at h ⊢
  rw [List.map_append, ← hl.chars_small, scan_lexeme hl.small he.small, scan_lexeme hl he, h]
  rfl

theorem scansSmall (cs : List Char) : ScansSmall cs := by
  induction cs using scan.induct with
  | case1 => simp [ScansSmall, scan]
  | case2 c cs hb ih =>
    have hb' : isBlank c.toLower := (congrFun isBlank_comp_toLower c).trans hb
    rw [ScansSmall, List.map_cons, scan_blank _ hb', scan_blank _ hb, ih]
  | case3 c cs hb hn ls stuck hs ih =>
    rw [cons_eq_run_append isNumeralChar c cs]
    exact ih.lexeme (isWord_numeral cs hn) (head?_dropWhile_run isNumeralChar cs)
  | case4 c cs hb hn ha ls stuck hs ih =>
    rw [cons_eq_run_append isNameChar c cs]
    exact ih.lexeme (isWord_name cs ha) (head?_dropWhile_run isNameChar cs)
  | case5 c cs hb hn ha l hl ls stuck hs ih =>
    obtain ⟨hword, hchars, hends⟩ := isWord_of_ofChar? hl
    have hlexeme := ih.lexeme hword (hends cs)
    rwa [hchars] at hlexeme
  | case6 c cs hb hn ha hl =>
    -- No lexeme starts with the character, so it is no letter and has no case.
    have hc : c.toLower = c := toLower_of_isAlpha_eq_false (by simpa using ha)
    have hstuck : ∀ ds, scan (c :: ds) = ([], some c) := fun ds =>
      scan_stuck ds hl (by simpa using hb) (by simpa using hn) (by simpa using ha)
    rw [ScansSmall, List.map_cons, hc, hstuck, hstuck]
    rfl

/-! ## Tokens -/

theorem ofName_small (letters : List Char) :
    Token.ofName (letters.map Char.toLower) = Token.ofName letters := by
  have hsame : (letters.map Char.toLower).map Char.toLower = letters.map Char.toLower := by simp
  rw [Token.ofName, Token.ofName, hsame]

theorem ofLexeme_small (previous : Option Token) (l : Lexeme) :
    Token.ofLexeme previous l.small = Token.ofLexeme previous l := by
  cases l with
  | name letters => exact congrArg (fun t => Except.ok [t]) (ofName_small letters)
  | numeral ds | operator op | opening | closing => rfl

theorem ofLexemes_small (stuck : Option Char) (ls : List Lexeme) :
    ∀ previous, TokenStream.ofLexemes stuck previous (ls.map Lexeme.small) =
      TokenStream.ofLexemes stuck previous ls := by
  induction ls with
  | nil => exact fun previous => rfl
  | cons l ls ih =>
    intro previous
    rw [List.map_cons, TokenStream.ofLexemes, TokenStream.ofLexemes, ofLexeme_small]
    simp only [ih]

theorem ofLine_small (s : String) :
    TokenStream.ofLine (String.ofList (s.toList.map Char.toLower)) = TokenStream.ofLine s := by
  rw [TokenStream.ofLine, TokenStream.ofLine, String.toList_ofList, scansSmall s.toList]
  exact ofLexemes_small _ _ none

/-! ## Texts -/

theorem trimBy_map {f : Char → Char} {p : Char → Bool} (h : p ∘ f = p) (cs : List Char) :
    trimBy p (cs.map f) = (trimBy p cs).map f := by
  simp only [trimBy, List.dropWhile_map, h, ← List.map_reverse]

namespace SameLetters

variable {s t : String}

theorem ofLine (h : SameLetters s t) : TokenStream.ofLine s = TokenStream.ofLine t := by
  rw [← ofLine_small s, h, ofLine_small t]

theorem trim (h : SameLetters s t) : SameLetters (trim s) (trim t) := by
  unfold SameLetters Text.trim at *
  rw [String.toList_ofList, String.toList_ofList, ← trimBy_map isMargin_comp_toLower, h,
    trimBy_map isMargin_comp_toLower]

theorem eq_empty_iff (h : SameLetters s t) : s = "" ↔ t = "" := by
  have hlen := congrArg List.length h
  simp only [List.length_map] at hlen
  rw [← String.toList_eq_nil_iff, ← String.toList_eq_nil_iff, ← List.length_eq_zero_iff,
    ← List.length_eq_zero_iff, hlen]

/-- The outcome of an evaluation does not depend on the case of letters. -/
theorem outcome (h : SameLetters s t) (ds : Definitions) (precision : Int) :
    (evaluate s ds precision).map Result.outcome =
      (evaluate t ds precision).map Result.outcome := by
  have hread : readPostfix (Text.trim s) = readPostfix (Text.trim t) := by
    rw [readPostfix, readPostfix, h.trim.ofLine]
  by_cases hs : Text.trim s = ""
  · have ht := h.trim.eq_empty_iff.mp hs
    rw [evaluate_of_trim_eq_empty hs, evaluate_of_trim_eq_empty ht]
    rfl
  · have ht := fun ht => hs (h.trim.eq_empty_iff.mpr ht)
    have hvalue : valueOf (Text.trim s) ds = valueOf (Text.trim t) ds := by
      rw [valueOf, valueOf, hread]
    rw [evaluate_of_trim_ne_empty hs, evaluate_of_trim_ne_empty ht, hvalue]
    cases valueOf (Text.trim t) ds <;> rfl

end SameLetters

end Calculator
