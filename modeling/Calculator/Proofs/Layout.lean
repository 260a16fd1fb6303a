import Calculator.Proofs.Spelling

/-!
# Lines laid out from lexemes

How lexemes are written in a line, with blanks between them, and where a line cannot be read on.

* `Lexeme.NeedsGap`: two lexemes that run into one unless a blank stands between them.
* `Renders`: lexemes written in order, in front of the rest of a line.
* `StartsLexeme`: the characters with which a lexeme can start.
* `Lexeme.needsGap_iff`, `Renders.endsBefore_iff`: where a lexeme ends, by the lexeme behind it.
* `Renders.blank`, `Renders.lexeme`: written lexemes, with a blank or a lexeme in front.
* `Renders.scan_append`: the scanner reads written lexemes and goes on with the rest.
-/
set_option autoImplicit false

namespace Calculator

open Calculator.Text

namespace Lexeme

/-- The second lexeme is read as more of the first unless a blank stands between them. -/
def NeedsGap : Lexeme → Lexeme → Prop
  | numeral _, numeral _ => True
  | name _, name _ => True
  | name _, numeral ds => ∃ c ∈ ds.head?, c.isDigit
  | _, _ => False

end Lexeme

/-- The characters write the lexemes in order, with blanks before, between and behind them, and with
one at least where two lexemes need it. The rest of the line is no more of the last lexeme. -/
inductive Renders (rest : List Char) : List Lexeme → List Char → Prop where
  | nil {gap : List Char} (hg : ∀ c ∈ gap, isBlank c) : Renders rest [] gap
  | cons {gap : List Char} {l : Lexeme} {ls : List Lexeme} {cs : List Char}
      (hg : ∀ c ∈ gap, isBlank c) (hl : l.IsWord) (h : Renders rest ls cs)
      (hn : ∀ m ∈ ls.head?, l.NeedsGap m → ∃ c ∈ cs.head?, isBlank c)
      (he : ls = [] → cs = [] → l.EndsBefore rest) :
      Renders rest (l :: ls) (gap ++ l.chars ++ cs)

/-! ## First characters -/

/-- Some lexeme starts with the character. -/
def StartsLexeme (c : Char) : Prop := ∃ l : Lexeme, l.IsWord ∧ l.chars.head? = some c

theorem goesOn_of_isBlank {c : Char} (h : isBlank c) :
    isNumeralChar c = false ∧ isNameChar c = false := by
  have hc := toNat_of_isBlank h
  constructor
  · refine Bool.eq_false_iff.mpr fun hn => ?_
    have := toNat_of_isNumeralChar hn
    omega
  · refine Bool.eq_false_iff.mpr fun hn => ?_
    have := toNat_of_isNameChar hn
    omega

theorem isNameChar_iff_isDigit {c : Char} (h : isNumeralChar c) : isNameChar c ↔ c.isDigit := by
  have ha : c.isAlpha = false := by
    refine Bool.eq_false_iff.mpr fun ha => ?_
    rw [isNumeralChar_of_isAlpha ha] at h
    cases h
  have hu : c ≠ '_' := by
    rintro rfl
    exact absurd h (by decide)
  simp [isNameChar, Char.isAlphanum, ha, hu]

namespace Lexeme

theorem IsWord.chars_ne_nil {l : Lexeme} (h : l.IsWord) : l.chars ≠ [] := by
  cases l with
  | numeral ds => exact h.1
  | name cs =>
    obtain ⟨c, rest, rfl, -⟩ := h
    exact List.cons_ne_nil c rest
  | operator op | opening | closing => exact List.cons_ne_nil _ _

theorem IsWord.head?_cases {l : Lexeme} (h : l.IsWord) {c : Char} (hc : l.chars.head? = some c) :
    isNumeralChar c ∨ c.isAlpha ∨ (ofChar? c).isSome := by
  cases l with
  | numeral ds => exact .inl (h.2 c (List.mem_of_mem_head? hc))
  | name cs =>
    obtain ⟨d, rest, rfl, hd, -⟩ := h
    cases hc
    exact .inr (.inl hd)
  | operator op =>
    cases hc
    exact .inr (.inr (by cases op <;> rfl))
  | opening =>
    cases hc
    exact .inr (.inr rfl)
  | closing =>
    cases hc
    exact .inr (.inr rfl)

theorem endsBefore_of_isBlank (l : Lexeme) {c : Char} (h : isBlank c) (cs : List Char) :
    l.EndsBefore (c :: cs) := by
  cases l with
  | numeral ds => exact fun d hd => (by cases hd; exact (goesOn_of_isBlank h).1)
  | name ds => exact fun d hd => (by cases hd; exact (goesOn_of_isBlank h).2)
  | operator op | opening | closing => trivial

/-- A gap is needed exactly before a lexeme whose first character goes on with the one before. -/
theorem needsGap_iff {l m : Lexeme} (hm : m.IsWord) {c : Char} (hc : m.chars.head? = some c)
    (cs : List Char) : l.NeedsGap m ↔ ¬ l.EndsBefore (c :: cs) := by
  have hnumeral : ∀ ds, (numeral ds).EndsBefore (c :: cs) ↔ isNumeralChar c = false :=
    fun ds => by simp [EndsBefore]
  have hname : ∀ ds, (name ds).EndsBefore (c :: cs) ↔ isNameChar c = false :=
    fun ds => by simp [EndsBefore]
  cases l with
  | numeral ds =>
    rw [hnumeral, Bool.not_eq_false]
    cases m with
    | numeral ds' => exact iff_of_true trivial (hm.2 c (List.mem_of_mem_head? hc))
    | name cs' =>
      obtain ⟨d, rest, rfl, hd, -⟩ := hm
      cases hc
      exact iff_of_false id (by simp [isNumeralChar_of_isAlpha hd])
    | operator op =>
      cases hc
      exact iff_of_false id (by cases op <;> decide)
    | opening =>
      cases hc
      exact iff_of_false id (by decide)
    | closing =>
      cases hc
      exact iff_of_false id (by decide)
  | name ds =>
    rw [hname, Bool.not_eq_false]
    cases m with
    | numeral ds' =>
      -- A numeral can start with a point, and a name ends before it.
      have hchars : ds'.head? = some c := hc
      rw [isNameChar_iff_isDigit (hm.2 c (List.mem_of_mem_head? hc))]
      simp [NeedsGap, hchars]
    | name cs' =>
      obtain ⟨d, rest, rfl, hd, -⟩ := hm
      cases hc
      exact iff_of_true trivial (isNameChar_of_isAlpha hd)
    | operator op =>
      cases hc
      exact iff_of_false id (by cases op <;> decide)
    | opening =>
      cases hc
      exact iff_of_false id (by decide)
    | closing =>
      cases hc
      exact iff_of_false id (by decide)
  | operator op => exact iff_of_false (by cases m <;> exact id) (not_not_intro trivial)
  | opening => exact iff_of_false (by cases m <;> exact id) (not_not_intro trivial)
  | closing => exact iff_of_false (by cases m <;> exact id) (not_not_intro trivial)

end Lexeme

theorem not_startsLexeme_iff {c : Char} :
    ¬ StartsLexeme c ↔
      isNumeralChar c = false ∧ c.isAlpha = false ∧ Lexeme.ofChar? c = none := by
  constructor
  · intro h
    refine ⟨Bool.eq_false_iff.mpr fun hn => h ?_, Bool.eq_false_iff.mpr fun ha => h ?_, ?_⟩
    · exact ⟨.numeral [c], ⟨List.cons_ne_nil c [], by simpa using hn⟩, rfl⟩
    · exact ⟨.name [c], ⟨c, [], rfl, ha, by simp⟩, rfl⟩
    · cases hl : Lexeme.ofChar? c with
      | none => rfl
      | some l =>
        obtain ⟨hw, hcs, -⟩ := isWord_of_ofChar? hl
        exact absurd ⟨l, hw, by rw [hcs]; rfl⟩ h
  · rintro ⟨hn, ha, ho⟩ ⟨l, hw, hc⟩
    have := hw.head?_cases hc
    simp [hn, ha, ho] at this

/-! ## Lexemes one by one -/

section

variable {rest : List Char} {l : Lexeme} {ls : List Lexeme} {cs : List Char}

theorem Renders.blank {c : Char} (hc : isBlank c) (h : Renders rest ls cs) :
    Renders rest ls (c :: cs) := by
  cases h with
  | nil hg => exact .nil (List.forall_mem_cons.mpr ⟨hc, hg⟩)
  | @cons gap l ls cs hg hl h hn he =>
    exact @Renders.cons _ (c :: gap) _ _ _ (List.forall_mem_cons.mpr ⟨hc, hg⟩) hl h hn he

/-- Written lexemes start with a blank or with the first character of the first of them. -/
theorem Renders.head?_cases (h : Renders rest ls cs) {c : Char} (hc : cs.head? = some c) :
    isBlank c ∨ ∃ m, ls.head? = some m ∧ m.IsWord ∧ m.chars.head? = some c := by
  cases h with
  | nil hg => exact .inl (hg c (List.mem_of_mem_head? hc))
  | @cons gap l ls cs hg hl h hn he =>
    cases gap with
    | nil =>
      obtain ⟨d, ds, hd⟩ := List.exists_cons_of_ne_nil hl.chars_ne_nil
      refine .inr ⟨l, rfl, hl, ?_⟩
      rw [List.nil_append, hd] at hc
      rw [hd]
      exact hc
    | cons d gap =>
      cases hc
      exact .inl (hg _ List.mem_cons_self)

theorem Renders.eq_nil (h : Renders rest ls []) : ls = [] := by
  generalize hcs : ([] : List Char) = cs at h
  cases h with
  | nil hg => rfl
  | cons hg hl h hn he =>
    have hchars := (List.append_eq_nil_iff.mp (List.append_eq_nil_iff.mp hcs.symm).1).2
    exact absurd hchars hl.chars_ne_nil

/-- The lexeme ends where the characters behind it do not go on with it. -/
theorem Renders.endsBefore_iff (h : Renders rest ls cs) :
    l.EndsBefore (cs ++ rest) ↔
      (∀ m ∈ ls.head?, l.NeedsGap m → ∃ c ∈ cs.head?, isBlank c) ∧
        (ls = [] → cs = [] → l.EndsBefore rest) := by
  cases hcs : cs with
  | nil =>
    rw [hcs] at h
    simp [h.eq_nil]
  | cons c cs' =>
    rw [List.cons_append]
    cases hb : isBlank c with
    | true => simp [l.endsBefore_of_isBlank hb, hb]
    | false =>
      -- Without a blank the next lexeme follows at once, and its first character decides.
      rcases h.head?_cases (c := c) (by rw [hcs]; rfl) with hb' | ⟨m, hm, hw, hc⟩
      · rw [hb] at hb'
        cases hb'
      · simp [hm, Lexeme.needsGap_iff hw hc (cs' ++ rest), hb]

theorem Renders.lexeme (hl : l.IsWord) (he : l.EndsBefore (cs ++ rest)) (h : Renders rest ls cs) :
    Renders rest (l :: ls) (l.chars ++ cs) := by
  obtain ⟨hn, he⟩ := h.endsBefore_iff.mp he
  exact @Renders.cons _ [] _ _ _ (by simp) hl h hn he

theorem scan_blanks {gap : List Char} (h : ∀ c ∈ gap, isBlank c) (cs : List Char) :
    scan (gap ++ cs) = scan cs := by
  induction gap with
  | nil => rfl
  | cons c gap ih =>
    obtain ⟨hc, hg⟩ := List.forall_mem_cons.mp h
    rw [List.cons_append, scan_blank _ hc, ih hg]

/-- The scanner reads written lexemes and goes on with the rest of the line. -/
theorem Renders.scan_append (h : Renders rest ls cs) :
    scan (cs ++ rest) = (ls ++ (scan rest).1, (scan rest).2) := by
  induction h with
  | nil hg => rw [scan_blanks hg, List.nil_append]
  | @cons gap l ls cs hg hl h hn he ih =>
    have hend : l.EndsBefore (cs ++ rest) := h.endsBefore_iff.mpr ⟨hn, he⟩
    rw [List.append_assoc, List.append_assoc, scan_blanks hg, scan_lexeme hl hend, ih,
      List.cons_append]

end

end Calculator
