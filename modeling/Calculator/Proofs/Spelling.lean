import Calculator.Lexeme

/-!
# Spelled lines

When a line spells a list of lexemes, said without the scanner, and what the scanner makes of it.

* `Lexeme.IsWord`, `Lexeme.EndsBefore`: a lexeme of its own class, and one that the rest of the line
  does not go on with.
* `Spells`: lexemes in a row, with blanks anywhere between them.
* `scan_append`: the scanner reads the lexemes of a spelled line one by one and goes on behind it.
* `scan_eq_iff_spells`: the lines that are scanned to their end are the spelled ones.
-/
set_option autoImplicit false

namespace Calculator

open Calculator.Text

/-! ## Classes of characters -/

theorem toNat_of_isDigit {c : Char} (h : c.isDigit) : 48 ≤ c.toNat ∧ c.toNat ≤ 57 := by
  simpa [Char.isDigit, UInt32.le_iff_toNat_le] using h

theorem toNat_of_isAlpha {c : Char} (h : c.isAlpha) :
    (65 ≤ c.toNat ∧ c.toNat ≤ 90) ∨ (97 ≤ c.toNat ∧ c.toNat ≤ 122) := by
  rcases Bool.or_eq_true_iff.mp h with hu | hl
  · have h' : 'A'.val ≤ c.val ∧ c.val ≤ 'Z'.val := of_decide_eq_true hu
    exact .inl ⟨UInt32.le_iff_toNat_le.mp h'.1, UInt32.le_iff_toNat_le.mp h'.2⟩
  · obtain ⟨h1, h2⟩ := Bool.and_eq_true_iff.mp hl
    have h1' : 'a'.val ≤ c.val := of_decide_eq_true h1
    have h2' : c.val ≤ 'z'.val := of_decide_eq_true h2
    exact .inr ⟨UInt32.le_iff_toNat_le.mp h1', UInt32.le_iff_toNat_le.mp h2'⟩

theorem isAlpha_of_isLower {c : Char} (h : c.isLower) : c.isAlpha :=
  Bool.or_eq_true_iff.mpr (.inr h)

/-- What is so for the first characters, one by one, is so for every character among them. -/
theorem forall_char_of_lt {P : Char → Prop} {b : Nat} (h : ∀ n < b, P (Char.ofNat n)) {c : Char}
    (hc : c.toNat < b) : P c := by
  have hn := h c.toNat hc
  rwa [Char.ofNat_toNat] at hn

theorem toNat_of_isNumeralChar {c : Char} (h : isNumeralChar c) :
    46 ≤ c.toNat ∧ c.toNat ≤ 57 := by
  simp only [isNumeralChar, Bool.or_eq_true, beq_iff_eq] at h
  rcases h with h | rfl
  · have := toNat_of_isDigit h
    omega
  · decide

theorem toNat_of_isBlank {c : Char} (h : isBlank c) :
    c.toNat ≤ 32 ∨ 133 ≤ c.toNat := by
  simp [isBlank, CodePoints.contains, blanks] at h
  omega

theorem toNat_of_isNameChar {c : Char} (h : isNameChar c) : 48 ≤ c.toNat ∧ c.toNat ≤ 122 := by
  simp only [isNameChar, Char.isAlphanum, Bool.or_eq_true, beq_iff_eq] at h
  rcases h with (h | h) | rfl
  · have := toNat_of_isAlpha h
    omega
  · have := toNat_of_isDigit h
    omega
  · decide

theorem isBlank_of_isNumeralChar {c : Char} (h : isNumeralChar c) : isBlank c = false := by
  have hc := toNat_of_isNumeralChar h
  refine Bool.eq_false_iff.mpr fun hb => ?_
  have := toNat_of_isBlank hb
  omega

theorem isBlank_of_isAlpha {c : Char} (h : c.isAlpha) : isBlank c = false := by
  have hc := toNat_of_isAlpha h
  refine Bool.eq_false_iff.mpr fun hb => ?_
  have := toNat_of_isBlank hb
  omega

theorem isNumeralChar_of_isAlpha {c : Char} (h : c.isAlpha) : isNumeralChar c = false := by
  have hc := toNat_of_isAlpha h
  refine Bool.eq_false_iff.mpr fun hb => ?_
  have := toNat_of_isNumeralChar hb
  omega

theorem isNameChar_of_isAlpha {c : Char} (h : c.isAlpha) : isNameChar c := by
  simp [isNameChar, Char.isAlphanum, h]

/-! ## Runs of characters -/

theorem takeWhile_run {p : Char → Bool} {ds cs : List Char} (h : ∀ c ∈ ds, p c)
    (hc : ∀ c ∈ cs.head?, p c = false) : (ds ++ cs).takeWhile p = ds := by
  rw [List.takeWhile_append_of_pos h]
  cases cs with
  | nil => simp
  | cons c cs => simp [hc c rfl]

theorem dropWhile_run {p : Char → Bool} {ds cs : List Char} (h : ∀ c ∈ ds, p c)
    (hc : ∀ c ∈ cs.head?, p c = false) : (ds ++ cs).dropWhile p = cs := by
  rw [List.dropWhile_append_of_pos h]
  cases cs with
  | nil => simp
  | cons c cs => simp [hc c rfl]

theorem takeWhile_append_run {p : Char → Bool} {b : List Char} (hb : ∀ c ∈ b.head?, p c = false)
    (a : List Char) : (a ++ b).takeWhile p = a.takeWhile p := by
  induction a with
  | nil =>
    cases b with
    | nil => rfl
    | cons c b => simp [hb c rfl]
  | cons c a ih =>
    rw [List.cons_append, List.takeWhile_cons, List.takeWhile_cons, ih]

theorem dropWhile_append_run {p : Char → Bool} {b : List Char} (hb : ∀ c ∈ b.head?, p c = false)
    (a : List Char) : (a ++ b).dropWhile p = a.dropWhile p ++ b := by
  induction a with
  | nil =>
    cases b with
    | nil => rfl
    | cons c b => simp [hb c rfl]
  | cons c a ih =>
    rw [List.cons_append, List.dropWhile_cons, List.dropWhile_cons, ih]
    split <;> rfl

theorem cons_eq_run_append (p : Char → Bool) (c : Char) (cs : List Char) :
    c :: cs = (c :: cs.takeWhile p) ++ cs.dropWhile p := by
  rw [List.cons_append, List.takeWhile_append_dropWhile]

theorem head?_dropWhile_run (p : Char → Bool) (cs : List Char) :
    ∀ c ∈ (cs.dropWhile p).head?, p c = false := by
  intro c hc
  have h := List.head?_dropWhile_not p cs
  rw [hc] at h
  exact h

/-! ## Spelled lines -/

namespace Lexeme

/-- A lexeme whose characters are those of its class. -/
def IsWord : Lexeme → Prop
  | numeral ds => ds ≠ [] ∧ ∀ c ∈ ds, isNumeralChar c
  | name cs => ∃ c rest, cs = c :: rest ∧ c.isAlpha ∧ ∀ d ∈ rest, isNameChar d
  | operator _ | opening | closing => True

/-- The characters behind a lexeme do not go on with it. -/
def EndsBefore : Lexeme → List Char → Prop
  | numeral _, cs => ∀ c ∈ cs.head?, isNumeralChar c = false
  | name _, cs => ∀ c ∈ cs.head?, isNameChar c = false
  | operator _, _ | opening, _ | closing, _ => True

end Lexeme

/-- The characters spell the lexemes from left to right, with blanks before, between and behind
them. -/
inductive Spells : List Lexeme → List Char → Prop where
  | nil : Spells [] []
  | blank {ls : List Lexeme} {c : Char} {cs : List Char} (hc : isBlank c) (h : Spells ls cs) :
      Spells ls (c :: cs)
  | lexeme {l : Lexeme} {ls : List Lexeme} {cs : List Char} (hl : l.IsWord)
      (he : l.EndsBefore cs) (h : Spells ls cs) : Spells (l :: ls) (l.chars ++ cs)

theorem spells_singleton {l : Lexeme} (h : l.IsWord) : Spells [l] l.chars := by
  have hend : l.EndsBefore [] := by
    cases l with
    | numeral ds | name cs => exact fun c hc => (by cases hc)
    | operator o | opening | closing => trivial
  have hspells : Spells [l] (l.chars ++ []) := .lexeme h hend .nil
  rwa [List.append_nil] at hspells

/-! ## Scanning a spelled line -/

theorem scan_blank {c : Char} (cs : List Char) (hc : isBlank c) : scan (c :: cs) = scan cs := by
  rw [scan, if_pos hc]

theorem scan_mark {c : Char} {l : Lexeme} (cs : List Char) (hc : Lexeme.ofChar? c = some l)
    (hb : isBlank c = false) (hn : isNumeralChar c = false) (ha : c.isAlpha = false) :
    scan (c :: cs) = (l :: (scan cs).1, (scan cs).2) := by
  rw [scan]
  simp [hb, hn, ha, hc]

theorem scan_stuck {c : Char} (cs : List Char) (hc : Lexeme.ofChar? c = none)
    (hb : isBlank c = false) (hn : isNumeralChar c = false) (ha : c.isAlpha = false) :
    scan (c :: cs) = ([], some c) := by
  rw [scan]
  simp [hb, hn, ha, hc]

theorem scan_lexeme {l : Lexeme} {cs : List Char} (hl : l.IsWord) (he : l.EndsBefore cs) :
    scan (l.chars ++ cs) = (l :: (scan cs).1, (scan cs).2) := by
  cases l with
  | numeral ds =>
    obtain ⟨hne, hds⟩ := hl
    obtain ⟨c, ds, rfl⟩ := List.exists_cons_of_ne_nil hne
    have hc : isNumeralChar c := hds c List.mem_cons_self
    have hr : ∀ d ∈ ds, isNumeralChar d := fun d hd => hds d (List.mem_cons_of_mem c hd)
    rw [Lexeme.chars, List.cons_append, scan]
    simp [isBlank_of_isNumeralChar hc, hc, takeWhile_run hr he, dropWhile_run hr he]
  | name cs' =>
    obtain ⟨c, rest, rfl, hc, hr⟩ := hl
    rw [Lexeme.chars, List.cons_append, scan]
    simp [isBlank_of_isAlpha hc, isNumeralChar_of_isAlpha hc, hc, takeWhile_run hr he,
      dropWhile_run hr he]
  | operator op => cases op <;> exact scan_mark cs (by decide) (by decide) (by decide) (by decide)
  | opening => exact scan_mark cs (by decide) (by decide) (by decide) (by decide)
  | closing => exact scan_mark cs (by decide) (by decide) (by decide) (by decide)

theorem Lexeme.EndsBefore.append {l : Lexeme} {a b : List Char} (h : l.EndsBefore a)
    (hb : ∀ c ∈ b.head?, isNameChar c = false ∧ isNumeralChar c = false) :
    l.EndsBefore (a ++ b) := by
  cases a with
  | nil =>
    cases l with
    | numeral ds => exact fun c hc => (hb c hc).2
    | name cs => exact fun c hc => (hb c hc).1
    | operator op => trivial
    | opening => trivial
    | closing => trivial
  | cons c a => cases l <;> exact h

/-- The scanner reads a spelled line and goes on behind it. -/
theorem scan_append {ls : List Lexeme} {a b : List Char} (h : Spells ls a)
    (hb : ∀ c ∈ b.head?, isNameChar c = false ∧ isNumeralChar c = false) :
    scan (a ++ b) = (ls ++ (scan b).1, (scan b).2) := by
  induction h with
  | nil => rfl
  | blank hc h ih => rw [List.cons_append, scan_blank _ hc, ih]
  | lexeme hl he h ih => rw [List.append_assoc, scan_lexeme hl (he.append hb), ih, List.cons_append]

theorem scan_of_spells {ls : List Lexeme} {cs : List Char} (h : Spells ls cs) :
    scan cs = (ls, none) := by
  have := scan_append (b := []) h (by simp)
  rw [List.append_nil] at this
  rw [this, scan, List.append_nil]

/-! ## Lines that are scanned to their end -/

theorem isWord_numeral {c : Char} (cs : List Char) (hc : isNumeralChar c) :
    (Lexeme.numeral (c :: cs.takeWhile isNumeralChar)).IsWord := by
  refine ⟨by simp, fun d hd => ?_⟩
  rcases List.mem_cons.mp hd with rfl | hd
  · exact hc
  · exact List.all_eq_true.mp List.all_takeWhile d hd

theorem isWord_name {c : Char} (cs : List Char) (hc : c.isAlpha) :
    (Lexeme.name (c :: cs.takeWhile isNameChar)).IsWord :=
  ⟨c, _, rfl, hc, fun d hd => List.all_eq_true.mp List.all_takeWhile d hd⟩

theorem isWord_of_ofChar? {c : Char} {l : Lexeme} (h : Lexeme.ofChar? c = some l) :
    l.IsWord ∧ l.chars = [c] ∧ ∀ cs, l.EndsBefore cs := by
  unfold Lexeme.ofChar? at h
  split at h
  · next hc =>
    cases h
    exact ⟨trivial, by rw [hc]; rfl, fun _ => trivial⟩
  · split at h
    · next hc =>
      cases h
      exact ⟨trivial, by rw [hc]; rfl, fun _ => trivial⟩
    · obtain ⟨op, hop, rfl⟩ := Option.map_eq_some_iff.mp h
      have hm : op.mark = c := by simpa using List.find?_some hop
      exact ⟨trivial, by rw [← hm]; rfl, fun _ => trivial⟩

theorem spells_of_scan {cs : List Char} {ls : List Lexeme} (h : scan cs = (ls, none)) :
    Spells ls cs := by
  induction cs using scan.induct generalizing ls with
  | case1 =>
    rw [scan] at h
    cases h
    exact .nil
  | case2 c cs hb ih =>
    rw [scan_blank cs hb] at h
    exact .blank hb (ih h)
  | case3 c cs hb hn ls' stuck hs ih =>
    rw [scan, if_neg hb, if_pos hn, hs] at h
    cases h
    have := Spells.lexeme (isWord_numeral cs hn) (head?_dropWhile_run isNumeralChar cs) (ih hs)
    rwa [Lexeme.chars, List.cons_append, List.takeWhile_append_dropWhile] at this
  | case4 c cs hb hn ha ls' stuck hs ih =>
    rw [scan, if_neg hb, if_neg hn, if_pos ha, hs] at h
    cases h
    have := Spells.lexeme (isWord_name cs ha) (head?_dropWhile_run isNameChar cs) (ih hs)
    rwa [Lexeme.chars, List.cons_append, List.takeWhile_append_dropWhile] at this
  | case5 c cs hb hn ha l hl ls' stuck hs ih =>
    rw [scan, if_neg hb, if_neg hn, if_neg ha] at h
    simp only [hl, hs, Prod.mk.injEq] at h
    obtain ⟨rfl, rfl⟩ := h
    obtain ⟨hw, hcs, he⟩ := isWord_of_ofChar? hl
    have := Spells.lexeme hw (he cs) (ih hs)
    rwa [hcs] at this
  | case6 c cs hb hn ha hl =>
    rw [scan, if_neg hb, if_neg hn, if_neg ha] at h
    simp [hl] at h

/-- The lines that are scanned to their end are the spelled ones. -/
theorem scan_eq_iff_spells {cs : List Char} {ls : List Lexeme} :
    scan cs = (ls, none) ↔ Spells ls cs :=
  ⟨spells_of_scan, scan_of_spells⟩

end Calculator
