import Calculator.Proofs.Spelling
import Calculator.Text.Cut

/-!
# Margins

What is left of a text when the white space at its ends is dropped.

* `trimEndBy`: what is left when only the right margin is dropped.
* `exists_margins`, `trimBy_append`: a text is what is left of it between two margins, and whatever
  stands between two margins is left of them.
* `trimBy_cutChars`: a text is cut into the same parts with its margins and without them, but for
  the margins of the parts.
* `trim_trim`, `trim_eq_self_iff`: a trimmed text has no margins, and a text without any is kept.
-/
set_option autoImplicit false

namespace Calculator

open Calculator.Text

/-! ## Right margins -/

/-- What is left of characters when those that satisfy `p` are dropped from the right end. -/
def trimEndBy (p : Char → Bool) (cs : List Char) : List Char := (cs.reverse.dropWhile p).reverse

theorem exists_right_margin (p : Char → Bool) (cs : List Char) :
    ∃ m, cs = trimEndBy p cs ++ m ∧ ∀ c ∈ m, p c := by
  refine ⟨(cs.reverse.takeWhile p).reverse, ?_, fun c hc => ?_⟩
  · rw [trimEndBy, ← List.reverse_append, List.takeWhile_append_dropWhile, List.reverse_reverse]
  · exact List.all_eq_true.mp List.all_takeWhile c (List.mem_reverse.mp hc)

theorem mem_head?_of_trimEndBy {p : Char → Bool} {cs : List Char} {c : Char}
    (h : c ∈ (trimEndBy p cs).head?) : c ∈ cs.head? := by
  obtain ⟨m, hcs, -⟩ := exists_right_margin p cs
  rw [hcs, List.head?_append, Option.mem_def.mp h]
  rfl

theorem mem_of_mem_trimEndBy {p : Char → Bool} {cs : List Char} {c : Char}
    (h : c ∈ trimEndBy p cs) : c ∈ cs := by
  obtain ⟨m, hcs, -⟩ := exists_right_margin p cs
  rw [hcs]
  exact List.mem_append_left m h

theorem getLast?_trimEndBy (p : Char → Bool) (cs : List Char) :
    ∀ c ∈ (trimEndBy p cs).getLast?, p c = false := by
  intro c hc
  rw [trimEndBy, List.getLast?_reverse] at hc
  exact head?_dropWhile_run p _ c hc

theorem trimEndBy_append {p : Char → Bool} {cs : List Char}
    (hlast : ∀ c ∈ cs.getLast?, p c = false) (ds : List Char) :
    trimEndBy p (cs ++ ds) = cs ++ trimEndBy p ds := by
  have hhead : ∀ c ∈ cs.reverse.head?, p c = false := by
    rw [List.head?_reverse]
    exact hlast
  rw [trimEndBy, List.reverse_append, dropWhile_append_run hhead, List.reverse_append,
    List.reverse_reverse, trimEndBy]

/-! ## Both margins -/

theorem dropWhile_eq_nil_of_all {p : Char → Bool} {cs : List Char} (h : ∀ c ∈ cs, p c) :
    cs.dropWhile p = [] := by
  have hd : (cs ++ []).dropWhile p = [] := dropWhile_run h (by simp)
  rwa [List.append_nil] at hd

/-- What stands between two margins, if it has none of its own, is left when they are trimmed. -/
theorem trimBy_append {p : Char → Bool} {l m cs : List Char} (hl : ∀ c ∈ l, p c)
    (hm : ∀ c ∈ m, p c) (hh : ∀ c ∈ cs.head?, p c = false) (ht : ∀ c ∈ cs.getLast?, p c = false) :
    trimBy p (l ++ (cs ++ m)) = cs := by
  rw [trimBy]
  cases cs with
  | nil =>
    have hall : ∀ c ∈ l ++ m, p c := by
      intro c hc
      rcases List.mem_append.mp hc with hc | hc
      · exact hl c hc
      · exact hm c hc
    rw [List.nil_append, dropWhile_eq_nil_of_all hall]
    rfl
  | cons c cs =>
    have hm' : ∀ d ∈ m.reverse, p d := fun d hd => hm d (List.mem_reverse.mp hd)
    have ht' : ∀ d ∈ (c :: cs).reverse.head?, p d = false := by
      rw [List.head?_reverse]
      exact ht
    have hleft : (l ++ (c :: cs ++ m)).dropWhile p = c :: cs ++ m := dropWhile_run hl hh
    rw [hleft, List.reverse_append, dropWhile_run hm' ht', List.reverse_reverse]

/-- Every text is what is left of it between two margins. -/
theorem exists_margins (p : Char → Bool) (cs : List Char) :
    ∃ l m, cs = l ++ (trimBy p cs ++ m) ∧ (∀ c ∈ l, p c) ∧ (∀ c ∈ m, p c) ∧
      (∀ c ∈ (trimBy p cs).head?, p c = false) ∧ ∀ c ∈ (trimBy p cs).getLast?, p c = false := by
  obtain ⟨m, hright, hm⟩ := exists_right_margin p (cs.dropWhile p)
  have hleft : cs.takeWhile p ++ cs.dropWhile p = cs := List.takeWhile_append_dropWhile
  rw [hright] at hleft
  have hhead : ∀ c ∈ (trimEndBy p (cs.dropWhile p)).head?, p c = false :=
    fun c hc => head?_dropWhile_run p cs c (mem_head?_of_trimEndBy hc)
  exact ⟨cs.takeWhile p, m, hleft.symm,
    fun c hc => List.all_eq_true.mp List.all_takeWhile c hc, hm, hhead, getLast?_trimEndBy p _⟩

/-- More margins around a text change nothing of what is left of it. -/
theorem trimBy_between {p : Char → Bool} {l m : List Char} (hl : ∀ c ∈ l, p c) (hm : ∀ c ∈ m, p c)
    (cs : List Char) : trimBy p (l ++ (cs ++ m)) = trimBy p cs := by
  obtain ⟨l', m', hcs, hl', hm', hhead, hlast⟩ := exists_margins p cs
  have hsplit : l ++ (cs ++ m) = (l ++ l') ++ (trimBy p cs ++ (m' ++ m)) := by
    have h := congrArg (fun ds => l ++ (ds ++ m)) hcs
    simpa only [List.append_assoc] using h
  rw [hsplit]
  refine trimBy_append (fun c hc => ?_) (fun c hc => ?_) hhead hlast
  · exact (List.mem_append.mp hc).elim (hl c) (hl' c)
  · exact (List.mem_append.mp hc).elim (hm' c) (hm c)

theorem trimBy_left_append {p : Char → Bool} {l : List Char} (hl : ∀ c ∈ l, p c)
    (cs : List Char) : trimBy p (l ++ cs) = trimBy p cs := by
  have h : trimBy p (l ++ (cs ++ [])) = trimBy p cs := trimBy_between hl (by simp) cs
  rwa [List.append_nil] at h

theorem trimBy_append_right {p : Char → Bool} {m : List Char} (hm : ∀ c ∈ m, p c)
    (cs : List Char) : trimBy p (cs ++ m) = trimBy p cs :=
  trimBy_between (l := []) (by simp) hm cs

theorem trimBy_cons {p : Char → Bool} {c : Char} (hc : p c) (cs : List Char) :
    trimBy p (c :: cs) = trimBy p cs :=
  trimBy_left_append (l := [c]) (by simpa using hc) cs

theorem trimBy_trimEndBy (p : Char → Bool) (cs : List Char) :
    trimBy p (trimEndBy p cs) = trimBy p cs := by
  obtain ⟨m, hcs, hm⟩ := exists_right_margin p cs
  have h := trimBy_append_right hm (trimEndBy p cs)
  rw [← hcs] at h
  exact h.symm

/-- Characters in front, if they have no margins, are left with what is left of the rest. -/
theorem trimBy_append_eq {p : Char → Bool} {cs : List Char} (hne : cs ≠ [])
    (hh : ∀ c ∈ cs.head?, p c = false) (ht : ∀ c ∈ cs.getLast?, p c = false) (ds : List Char) :
    trimBy p (cs ++ ds) = cs ++ trimEndBy p ds := by
  obtain ⟨c, cs, rfl⟩ := List.exists_cons_of_ne_nil hne
  have hdrop : (c :: cs ++ ds).dropWhile p = c :: cs ++ ds := by simp [hh c rfl]
  rw [trimBy, hdrop]
  exact trimEndBy_append ht ds

/-! ## Cut texts -/

theorem cutChars_run {c : Char} {cs rest : List Char} (h : ∀ d ∈ cs, d ≠ c)
    (hrest : ∀ d ∈ rest.head?, d = c) : cutChars c (cs ++ rest) = (cs, rest.drop 1) := by
  have hrun : ∀ d ∈ cs, decide (d ≠ c) = true := fun d hd => decide_eq_true (h d hd)
  have hend : ∀ d ∈ rest.head?, decide (d ≠ c) = false :=
    fun d hd => decide_eq_false (by simp [hrest d hd])
  rw [cutChars, takeWhile_run hrun hend, dropWhile_run hrun hend]

theorem cutChars_of_not_mem {c : Char} {cs : List Char} (h : c ∉ cs) (rest : List Char) :
    cutChars c (cs ++ c :: rest) = (cs, rest) := by
  refine cutChars_run (fun d hd hdc => h (hdc ▸ hd)) ?_
  rintro d ⟨⟩
  rfl

theorem not_mem_of_margin {p : Char → Bool} {c : Char} (hc : p c = false) {ds : List Char}
    (hds : ∀ d ∈ ds, p d) : c ∉ ds := by
  intro hmem
  have hp := hds c hmem
  rw [hc] at hp
  cases hp

theorem mem_trimBy {p : Char → Bool} {c : Char} (hc : p c = false) {cs : List Char} (h : c ∈ cs) :
    c ∈ trimBy p cs := by
  obtain ⟨l, m, hcs, hl, hm, -, -⟩ := exists_margins p cs
  rw [hcs] at h
  rcases List.mem_append.mp h with h | h
  · exact absurd h (not_mem_of_margin hc hl)
  · exact (List.mem_append.mp h).resolve_right (not_mem_of_margin hc hm)

/-- The parts of a text are those of what is left of it, but for their margins. -/
theorem trimBy_cutChars {p : Char → Bool} {c : Char} (hc : p c = false) {cs : List Char}
    (h : c ∈ cs) :
    trimBy p (cutChars c (trimBy p cs)).1 = trimBy p (cutChars c cs).1 ∧
      trimBy p (cutChars c (trimBy p cs)).2 = trimBy p (cutChars c cs).2 := by
  obtain ⟨l, m, hcs, hl, hm, -, -⟩ := exists_margins p cs
  obtain ⟨before, behind, hsplit, hbefore⟩ := List.eq_append_cons_of_mem (mem_trimBy hc h)
  have hleft : c ∉ l ++ before := by
    intro hmem
    exact (List.mem_append.mp hmem).elim (not_mem_of_margin hc hl) hbefore
  have hwhole : cs = (l ++ before) ++ c :: (behind ++ m) := by
    rw [hsplit] at hcs
    simpa using hcs
  have hparts : cutChars c cs = (l ++ before, behind ++ m) := by
    rw [hwhole]
    exact cutChars_of_not_mem hleft _
  rw [hparts, hsplit, cutChars_of_not_mem hbefore]
  exact ⟨(trimBy_left_append hl before).symm, (trimBy_append_right hm behind).symm⟩

/-- A part behind a margin has it no more, whether the right margin starts there or later. -/
theorem cutChars_append_trimEndBy {p : Char → Bool} {c : Char} (hc : p c) {cs : List Char}
    (hcs : c ∉ cs) (ds : List Char) :
    (cutChars c (cs ++ trimEndBy p (c :: ds))).1 = cs ∧
      trimBy p (cutChars c (cs ++ trimEndBy p (c :: ds))).2 = trimBy p ds := by
  have hhead : ∀ d ∈ (trimEndBy p (c :: ds)).head?, d = c := by
    intro d hd
    exact (Option.some.inj (mem_head?_of_trimEndBy hd)).symm
  have hrest : trimBy p (trimEndBy p (c :: ds)) = trimBy p ds := by
    rw [trimBy_trimEndBy, trimBy_cons hc]
  have hrun : ∀ d ∈ cs, d ≠ c := fun d hd hdc => hcs (hdc ▸ hd)
  rw [cutChars_run hrun hhead]
  refine ⟨rfl, ?_⟩
  show trimBy p ((trimEndBy p (c :: ds)).drop 1) = trimBy p ds
  rw [← hrest]
  cases h : trimEndBy p (c :: ds) with
  | nil => rfl
  | cons d es =>
    have hd : d = c := hhead d (by rw [h]; rfl)
    rw [hd, trimBy_cons hc]
    rfl

/-! ## Classes of characters -/

theorem toNat_of_isMargin {c : Char} (h : isMargin c) : c.toNat ≤ 32 ∨ 133 ≤ c.toNat := by
  simp only [isMargin, Bool.or_eq_true] at h
  rcases h with h | h
  · exact toNat_of_isBlank h
  · simp at h
    omega

theorem isNameChar_of_isMargin {c : Char} (h : isMargin c) : isNameChar c = false := by
  have hc := toNat_of_isMargin h
  refine Bool.eq_false_iff.mpr fun hn => ?_
  have := toNat_of_isNameChar hn
  omega

theorem isMargin_of_isNumeralChar {c : Char} (h : isNumeralChar c) : isMargin c = false := by
  have hc := toNat_of_isNumeralChar h
  refine Bool.eq_false_iff.mpr fun hm => ?_
  have := toNat_of_isMargin hm
  omega

/-! ## Trimmed texts -/

theorem trim_ofList (cs : List Char) :
    trim (String.ofList cs) = String.ofList (trimBy isMargin cs) := by
  rw [trim, String.toList_ofList]

theorem trimBy_eq_self {p : Char → Bool} {cs : List Char} (hh : ∀ c ∈ cs.head?, p c = false)
    (ht : ∀ c ∈ cs.getLast?, p c = false) : trimBy p cs = cs := by
  have h : trimBy p ([] ++ (cs ++ [])) = cs := trimBy_append (by simp) (by simp) hh ht
  rwa [List.nil_append, List.append_nil] at h

theorem trimBy_eq_self_of_all {p : Char → Bool} {cs : List Char} (h : ∀ c ∈ cs, p c = false) :
    trimBy p cs = cs :=
  trimBy_eq_self (fun c hc => h c (List.mem_of_mem_head? hc))
    fun c hc => h c (List.mem_of_mem_getLast? hc)

/-- A text is kept by trimming if neither end of it is white space. -/
theorem trim_eq_self_iff {s : String} : trim s = s ↔
    (∀ c ∈ s.toList.head?, isMargin c = false) ∧ ∀ c ∈ s.toList.getLast?, isMargin c = false := by
  constructor
  · intro h
    obtain ⟨l, m, -, -, -, hh, ht⟩ := exists_margins isMargin s.toList
    have hs : trimBy isMargin s.toList = s.toList := by
      rw [← String.toList_ofList (l := trimBy isMargin s.toList)]
      exact congrArg String.toList h
    rw [hs] at hh ht
    exact ⟨hh, ht⟩
  · rintro ⟨hh, ht⟩
    rw [trim, trimBy_eq_self hh ht, String.ofList_toList]

theorem trim_eq_self {s : String} (h : ∀ c ∈ s.toList, isMargin c = false) : trim s = s :=
  trim_eq_self_iff.mpr ⟨fun c hc => h c (List.mem_of_mem_head? hc),
    fun c hc => h c (List.mem_of_mem_getLast? hc)⟩

theorem trim_trim (s : String) : trim (trim s) = trim s := by
  obtain ⟨l, m, -, -, -, hh, ht⟩ := exists_margins isMargin s.toList
  rw [trim, trim, String.toList_ofList, trimBy_eq_self hh ht]

end Calculator
