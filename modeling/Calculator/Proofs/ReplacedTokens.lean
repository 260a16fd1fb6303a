import Calculator.Proofs.Replacement

/-!
# Tokens of a replaced text

* `scan_replaceChars`: the lexemes of the text, each name replaced by the lexemes of the other text
  between brackets.
* `ofLexemes_replace`, `ofLine_replaceName`: the same for the tokens; the failure at which they end
  stays the same.
-/
set_option autoImplicit false

namespace Calculator

open Calculator.Text

/-! ## Lexemes -/

/-- The lexemes that stand for a lexeme when names that read as `x` are replaced. -/
def replaceLexeme (x : List Char) (as : List Lexeme) : Lexeme → List Lexeme
  | .name cs => if smallName cs = smallName x then as else [.name cs]
  | l => [l]

theorem scan_opening (cs : List Char) : scan ('(' :: cs) = (.opening :: (scan cs).1, (scan cs).2) :=
  scan_mark cs (by decide) (by decide) (by decide) (by decide)

theorem scan_closing (cs : List Char) : scan (')' :: cs) = (.closing :: (scan cs).1, (scan cs).2) :=
  scan_mark cs (by decide) (by decide) (by decide) (by decide)

/-- A spelled line between brackets is read as a group, whatever stands behind it. -/
theorem scan_bracketed {ls : List Lexeme} {e : List Char} (h : Spells ls e) (cs : List Char) :
    scan (bracketed e ++ cs) =
      (.opening :: (ls ++ [.closing]) ++ (scan cs).1, (scan cs).2) := by
  have hb : ∀ c ∈ (')' :: cs).head?, isNameChar c = false ∧ isNumeralChar c = false := by
    intro c hc
    cases hc
    decide
  rw [bracketed, List.cons_append, List.append_assoc, List.singleton_append, scan_opening,
    scan_append h hb, scan_closing]
  simp

theorem isAlpha_of_isNumeralChar {c : Char} (h : isNumeralChar c) : c.isAlpha = false := by
  refine Bool.eq_false_iff.mpr fun ha => ?_
  rw [isNumeralChar_of_isAlpha ha] at h
  cases h

theorem isAlpha_of_isBlank {c : Char} (h : isBlank c) : c.isAlpha = false := by
  refine Bool.eq_false_iff.mpr fun ha => ?_
  rw [isBlank_of_isAlpha ha] at h
  cases h

theorem head?_replaceChars_bracketed {q : Char → Bool} (hq : q '(' = false) {x e cs : List Char}
    (h : ∀ c ∈ cs.head?, q c = false) :
    ∀ c ∈ (replaceChars x (bracketed e) cs).head?, q c = false := by
  intro c hc
  rcases head?_replaceChars (by simp [bracketed]) cs c hc with hc | hc
  · cases hc
    exact hq
  · exact h c hc

/-- The lexemes of a replaced line are the replaced lexemes of the line. -/
theorem scan_replaceChars {ls : List Lexeme} {e : List Char} (h : Spells ls e) (x : List Char)
    (cs : List Char) :
    scan (replaceChars x (bracketed e) cs) =
      ((scan cs).1.flatMap (replaceLexeme x (.opening :: (ls ++ [.closing]))), (scan cs).2) := by
  induction cs using scan.induct with
  | case1 => rw [replaceChars_nil, scan]; rfl
  | case2 c cs hb ih =>
    rw [replaceChars_cons_of_not_isAlpha (isAlpha_of_isBlank hb), scan_blank _ hb, scan_blank _ hb,
      ih]
  | case3 c cs hb hn ls' stuck hs ih =>
    have hword : (Lexeme.numeral (c :: cs.takeWhile isNumeralChar)).IsWord := isWord_numeral cs hn
    have hends := head?_dropWhile_run isNumeralChar cs
    have hkeep : ∀ d ∈ c :: cs.takeWhile isNumeralChar, d.isAlpha = false := fun d hd =>
      isAlpha_of_isNumeralChar (hword.2 d hd)
    have hcs := cons_eq_run_append isNumeralChar c cs
    have hline : scan (c :: cs) = (.numeral (c :: cs.takeWhile isNumeralChar) :: ls', stuck) := by
      rw [hcs]
      refine (scan_lexeme hword hends).trans ?_
      rw [hs]
    rw [hline, hcs, replaceChars_append_of_not_isAlpha hkeep]
    refine (scan_lexeme hword (head?_replaceChars_bracketed (by decide) hends)).trans ?_
    rw [ih, hs]
    rfl
  | case4 c cs hb hn ha ls' stuck hs ih =>
    have hword : (Lexeme.name (c :: cs.takeWhile isNameChar)).IsWord := isWord_name cs ha
    have hends := head?_dropWhile_run isNameChar cs
    have hcs := cons_eq_run_append isNameChar c cs
    have hline : scan (c :: cs) = (.name (c :: cs.takeWhile isNameChar) :: ls', stuck) := by
      rw [hcs]
      refine (scan_lexeme hword hends).trans ?_
      rw [hs]
    rw [hline, replaceChars_cons_of_isAlpha ha, List.flatMap_cons, replaceLexeme]
    split
    · rw [scan_bracketed h, ih, hs]
    · refine (scan_lexeme hword (head?_replaceChars_bracketed (by decide) hends)).trans ?_
      rw [ih, hs]
      rfl
  | case5 c cs hb hn ha l hl ls' stuck hs ih =>
    have hc : c.isAlpha = false := by simpa using ha
    have hb' : isBlank c = false := by simpa using hb
    have hn' : isNumeralChar c = false := by simpa using hn
    have hlexeme : replaceLexeme x (.opening :: (ls ++ [.closing])) l = [l] := by
      unfold Lexeme.ofChar? at hl
      split at hl
      · cases hl; rfl
      · split at hl
        · cases hl; rfl
        · obtain ⟨op, -, rfl⟩ := Option.map_eq_some_iff.mp hl
          rfl
    rw [replaceChars_cons_of_not_isAlpha hc, scan_mark _ hl hb' hn' hc, scan_mark _ hl hb' hn' hc,
      ih, List.flatMap_cons, hlexeme]
    rfl
  | case6 c cs hb hn ha hl =>
    have hc : c.isAlpha = false := by simpa using ha
    have hstuck : ∀ ds, scan (c :: ds) = ([], some c) := by
      intro ds
      rw [scan, if_neg hb, if_neg hn, if_neg ha]
      simp only [hl]
    rw [replaceChars_cons_of_not_isAlpha hc, hstuck, hstuck]
    rfl

/-! ## Tokens -/

/-- The tokens that stand for a token when an identifier is replaced. -/
def replaceToken (name : String) (us : List Token) (t : Token) : List Token :=
  if t.item = .identifier name then us else [t]

theorem flatMap_replaceToken {name : String} {us ts : List Token}
    (h : ∀ t ∈ ts, t.item ≠ .identifier name) : ts.flatMap (replaceToken name us) = ts := by
  induction ts with
  | nil => rfl
  | cons t ts ih =>
    have ht : t.item ≠ .identifier name := h t List.mem_cons_self
    rw [List.flatMap_cons, ih fun u hu => h u (List.mem_cons_of_mem t hu), replaceToken, if_neg ht]
    rfl

theorem item_ne_identifier {p : Option Token} {l : Lexeme} {ts : List Token} {name : String}
    (h : Token.Reads p l ts) (hl : ∀ cs, l = .name cs → smallName cs ≠ name) :
    ∀ t ∈ ts, t.item ≠ .identifier name := by
  intro t ht hi
  cases h with
  | @identifier cs hf =>
    rw [List.mem_singleton.mp ht] at hi
    injection hi with hi
    exact hl cs rfl hi
  | minus hm =>
    rcases List.mem_cons.mp ht with rfl | ht
    · cases hi
    · rw [List.mem_singleton.mp ht] at hi
      cases hi
  | function hf => rw [List.mem_singleton.mp ht] at hi; cases hi
  | numeral hx => rw [List.mem_singleton.mp ht] at hi; cases hi
  | operator hop => rw [List.mem_singleton.mp ht] at hi; cases hi
  | opening => rw [List.mem_singleton.mp ht] at hi; cases hi
  | closing => rw [List.mem_singleton.mp ht] at hi; cases hi

namespace TokenStream

/-- The stream with every token replaced by tokens. -/
def flatMap (f : Token → List Token) (s : TokenStream) : TokenStream :=
  { s with tokens := s.tokens.flatMap f }

theorem flatMap_after (f : Token → List Token) (ts : List Token) (s : TokenStream) :
    (s.after ts).flatMap f = (s.flatMap f).after (ts.flatMap f) := by
  simp [flatMap, after]

/-- A group is read the same behind every token. -/
theorem ofLexemes_group {stuck : Option Char} {as : List Lexeme} {us : List Token}
    (h : ofLexemes none none as = ⟨us, none⟩) (p : Option Token) (ls : List Lexeme) :
    ofLexemes stuck p (.opening :: (as ++ [.closing]) ++ ls) =
      (ofLexemes stuck (some .closing) ls).after (.opening :: (us ++ [.closing])) := by
  rw [List.cons_append, List.append_assoc, List.singleton_append, ofLexemes_opening,
    ofLexemes_append _ h, ofLexemes_closing, after_after, after_after]
  simp

/-- The tokens of replaced lexemes are the replaced tokens of the lexemes. A minus behind the
closing bracket has its operand on its left, as behind the name. -/
theorem ofLexemes_replace {stuck : Option Char} {x : List Char} {as : List Lexeme}
    {us : List Token} (hx : Function.ofName? (smallName x) = none)
    (h : ofLexemes none none as = ⟨us, none⟩) (ls : List Lexeme) :
    ∀ {p q : Option Token}, minusLeads p = minusLeads q →
      ofLexemes stuck q (ls.flatMap (replaceLexeme x (.opening :: (as ++ [.closing])))) =
        (ofLexemes stuck p ls).flatMap
          (replaceToken (smallName x) (.opening :: (us ++ [.closing]))) := by
  induction ls with
  | nil => exact fun _ => rfl
  | cons l ls ih =>
    intro p q hpq
    rw [List.flatMap_cons]
    by_cases hl : ∃ cs, l = .name cs ∧ smallName cs = smallName x
    · obtain ⟨cs, rfl, hcs⟩ := hl
      have hf : Function.ofName? (smallName cs) = none := by rw [hcs, hx]
      have hminus : minusLeads (some ⟨.identifier (smallName cs), false⟩) =
          minusLeads (some .closing) := rfl
      rw [replaceLexeme, if_pos hcs, ofLexemes_group h, ofLexemes_identifier hf, flatMap_after,
        ih hminus]
      simp [replaceToken, hcs]
    · have hne : ∀ cs, l = .name cs → smallName cs ≠ smallName x :=
        fun cs hc hs => hl ⟨cs, hc, hs⟩
      have hkeep : replaceLexeme x (.opening :: (as ++ [.closing])) l = [l] := by
        cases l with
        | name cs => rw [replaceLexeme, if_neg (hne cs rfl)]
        | numeral ds => rfl
        | operator op => rfl
        | opening => rfl
        | closing => rfl
      rw [hkeep, List.singleton_append, ofLexemes, ofLexemes, ofLexeme_congr hpq]
      cases ht : Token.ofLexeme q l with
      | error e => rfl
      | ok ts =>
        have hreads := Token.reads_of_ofLexeme ht
        have hlast : minusLeads (ts.getLast?.or p) = minusLeads (ts.getLast?.or q) := by
          rw [List.getLast?_eq_some_getLast hreads.ne_nil]
          rfl
        simp only [flatMap_after, ih hlast, flatMap_replaceToken (item_ne_identifier hreads hne)]

theorem ofLine_replaceName {x e : String} {as : List Lexeme} {us : List Token}
    (hx : Function.ofName? (smallName x.toList) = none) (he : Spells as e.toList)
    (h : ofLexemes none none as = ⟨us, none⟩) (s : String) :
    ofLine (replaceName x e s) =
      (ofLine s).flatMap (replaceToken (smallName x.toList) (.opening :: (us ++ [.closing]))) := by
  rw [ofLine, replaceName, String.toList_ofList, scan_replaceChars he, ofLine]
  exact ofLexemes_replace hx h _ rfl

end TokenStream

end Calculator
