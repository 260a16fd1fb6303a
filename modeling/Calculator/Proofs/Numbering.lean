import Calculator.Proofs.Turns

/-!
# Numbers of entries

The number under which the history lists an entry is the number by which it is dropped and by which
it is evaluated again.

* `History.numbered`: the entries with their numbers.
* `entryLines_eq`, `eraseIdx_eq`: what is listed, and what is left when an entry is dropped.
* `Session.Numbering`: what the lines that list entries, drop one and evaluate one have in common.
* `Reachable.numbering`: every reachable session numbers its entries like this.
-/
set_option autoImplicit false

namespace Calculator

open Calculator.Text

/-! ## Numbered entries -/

namespace History

/-- The entries with their numbers. The newest has the number one. -/
def numbered (h : History) : List (Entry × Nat) := h.entries.zipIdx 1

theorem mem_numbered_iff {h : History} {e : Entry} {n : Nat} :
    (e, n) ∈ h.numbered ↔ ∃ i, n = i + 1 ∧ h.entries[i]? = some e := by
  rw [numbered, List.mk_mem_zipIdx_iff_le_and_getElem?_sub]
  constructor
  · rintro ⟨hn, he⟩
    exact ⟨n - 1, by omega, he⟩
  · rintro ⟨i, rfl, he⟩
    exact ⟨by omega, he⟩

/-- The numbers are those from one up to the number of entries. -/
theorem exists_mem_numbered_iff {h : History} {n : Nat} :
    (∃ e, (e, n) ∈ h.numbered) ↔ 1 ≤ n ∧ n ≤ h.size := by
  simp only [mem_numbered_iff, size]
  constructor
  · rintro ⟨e, i, rfl, he⟩
    have hi := (List.getElem?_eq_some_iff.mp he).1
    omega
  · rintro ⟨h1, h2⟩
    have hi : n - 1 < h.entries.length := by omega
    exact ⟨h.entries[n - 1], n - 1, by omega, List.getElem?_eq_getElem hi⟩

theorem numbered_add (h : History) (e : Entry) :
    (h.add e).numbered = (e, 1) :: h.numbered.map fun p => (p.1, p.2 + 1) := by
  show (e :: h.entries).zipIdx 1 = _
  rw [List.zipIdx_cons, numbered, List.zipIdx_succ]

end History

/-- What an index drops is the entry with its number, wherever the numbers start. -/
theorem eraseIdx_eq (es : List Entry) :
    ∀ k i, es.eraseIdx i = ((es.zipIdx k).filter fun p => p.2 ≠ i + k).map Prod.fst := by
  induction es with
  | nil => exact fun k i => rfl
  | cons e es ih =>
    intro k i
    cases i with
    | zero =>
      have hrest : (es.zipIdx (k + 1)).filter (fun p => p.2 ≠ 0 + k) = es.zipIdx (k + 1) := by
        apply List.filter_eq_self.mpr
        intro p hp
        have hle := List.le_snd_of_mem_zipIdx hp
        simp
        omega
      rw [List.zipIdx_cons, List.filter_cons_of_neg (by simp), hrest, List.zipIdx_map_fst,
        List.eraseIdx_cons_zero]
    | succ i =>
      have hindex : i + 1 + k = i + (k + 1) := by omega
      rw [List.zipIdx_cons, List.filter_cons_of_pos (by simp), List.map_cons,
        List.eraseIdx_cons_succ, ih (k + 1) i, hindex]

namespace Session

theorem entryLines_eq (es : List Entry) :
    ∀ k, entryLines k es = (es.zipIdx k).map fun p => entryLine p.2 p.1 := by
  induction es with
  | nil => exact fun k => rfl
  | cons e es ih =>
    intro k
    rw [entryLines, ih, List.zipIdx_cons, List.map_cons]

/-! ## Lines -/

section Lines

variable {precision : Int} {s : Session} {text : String}

theorem join_out_answers (lines : List String) :
    String.join ((shown false (lines.map Message.answer)).map Message.out) =
      String.join (lines.map (· ++ "\n")) := by
  rw [shown_answers, List.map_map]
  rfl

theorem join_err_answers (lines : List String) :
    String.join ((shown false (lines.map Message.answer)).map Message.err) = "" := by
  rw [shown_answers]
  refine join_map_eq_empty fun m hm => ?_
  obtain ⟨line, -, rfl⟩ := List.mem_map.mp hm
  rfl

theorem writes_listHistory (h : s.history.entries ≠ []) :
    (s.answer precision ":history").Writes
      (String.join (s.history.numbered.map fun p =>
        toString p.2 ++ ". " ++ p.1.expression ++ " = " ++ p.1.result ++ "\n")) "" := by
  have hline : Request.ofLine ":history" = .command .listHistory "" := by decide
  have hlines : s.historyLines = s.history.numbered.map fun p => entryLine p.2 p.1 := by
    rw [historyLines]
    split
    · next hnil => exact absurd hnil h
    · exact entryLines_eq _ 1
  have hanswer : (s.answer precision ":history").messages =
      (s.history.numbered.map fun p => entryLine p.2 p.1).map .answer := by
    rw [answer, hline, ← hlines]
    rfl
  constructor
  · rw [hanswer, join_out_answers, List.map_map]
    rfl
  · rw [hanswer, join_err_answers]

theorem answer_deleteEntry (htrim : trim text = text) :
    s.answer precision (":delete " ++ text) = s.deleteEntry text := by
  have hline := answer_command precision s .deleteEntry text
  rwa [htrim] at hline

theorem answer_recallEntry (htrim : trim text = text) :
    s.answer precision (":recall " ++ text) = s.recallEntry precision text := by
  have hline := answer_command precision s .recallEntry text
  rwa [htrim] at hline

end Lines

/-! ## Numbers in lines -/

/-- The lines that list the entries, drop one of them and evaluate one of them go by the same
numbers; `text` is what the latter two are given. -/
structure Numbering (precision : Int) (s : Session) (text : String) : Prop where
  numbers : ∀ n, (∃ e, (e, n) ∈ s.history.numbered) ↔ 1 ≤ n ∧ n ≤ s.history.size
  /-- Every entry stands in a line of its own, behind its number. -/
  listed : s.history.entries ≠ [] → (s.answer precision ":history").Writes
    (String.join (s.history.numbered.map fun p =>
      toString p.2 ++ ". " ++ p.1.expression ++ " = " ++ p.1.result ++ "\n")) ""
  /-- The entry with the number is dropped. The others stay, in their order. -/
  dropped : ∀ e n, (e, n) ∈ s.history.numbered → Number.integer? text = some (n : Int) →
    s.answer precision (":delete " ++ text) =
      { session := { s with
          history := ⟨(s.history.numbered.filter fun p => p.2 ≠ n).map Prod.fst⟩ } }
  /-- The entry with the number is evaluated like a line with its expression. -/
  evaluated : ∀ e n, (e, n) ∈ s.history.numbered → Number.integer? text = some (n : Int) →
    s.answer precision (":recall " ++ text) = s.answer precision e.expression ∧
      (s.answer precision e.expression).failure = none ∧
      s.Evaluates precision e.expression (s.answer precision e.expression)
  /-- A result comes first, and all numbers grow by one. -/
  shifted : ∀ e result t, s.Remembers precision ⟨e, result⟩ t →
    t.session.history.numbered =
      (⟨e, result⟩, 1) :: s.history.numbered.map fun p => (p.1, p.2 + 1)
  /-- The index of a number names its entry. -/
  indexed : ∀ e n, (e, n) ∈ s.history.numbered →
    s.history.get ((n : Int) - 1) = .ok e ∧ s.history.delete ((n : Int) - 1) =
      .ok ⟨(s.history.numbered.filter fun p => p.2 ≠ n).map Prod.fst⟩
  /-- Any other text is refused. -/
  refused : (∀ e n, (e, n) ∈ s.history.numbered → Number.integer? text ≠ some (n : Int)) →
    ∀ word ∈ [":delete ", ":recall "], (s.answer precision (word ++ text)).failure = none ∧
      s.Refuses ("No such history entry " ++ text ++ ".") (s.answer precision (word ++ text))

theorem numbers_of_mem_numbered {s : Session} {text : String} {e : Entry} {i : Nat}
    (he : s.history.entries[i]? = some e)
    (h : Number.integer? text = some ((i + 1 : Nat) : Int)) : s.Numbers text i :=
  ⟨h.trans (congrArg some (Int.natCast_succ i)), (List.getElem?_eq_some_iff.mp he).1⟩

theorem entryIndex?_eq_none {s : Session} {text : String}
    (h : ∀ e n, (e, n) ∈ s.history.numbered → Number.integer? text ≠ some (n : Int)) :
    s.entryIndex? text = none := by
  cases hindex : s.entryIndex? text with
  | none => rfl
  | some index =>
    obtain ⟨i, -, hnumber, hi⟩ := entryIndex?_eq_some_iff.mp hindex
    have hmem : (s.history.entries[i], i + 1) ∈ s.history.numbered :=
      History.mem_numbered_iff.mpr ⟨i, rfl, List.getElem?_eq_getElem hi⟩
    exact absurd hnumber (h _ _ hmem)

/-- Entries have the same numbers wherever they are given, and a text that is the number of none is
refused wherever a number is asked for. -/
theorem Reachable.numbering {s : Session} (hs : s.Reachable) {precision : Int} (h0 : 0 ≤ precision)
    (h1 : precision ≤ mostPlaces) {text : String} (htrim : trim text = text) :
    s.Numbering precision text where
  numbers n := History.exists_mem_numbered_iff
  listed := writes_listHistory
  dropped e n hn hnumber := by
    obtain ⟨i, rfl, he⟩ := History.mem_numbered_iff.mp hn
    rw [answer_deleteEntry htrim, deleteEntry_of_numbers (numbers_of_mem_numbered he hnumber),
      eraseIdx_eq s.history.entries 1 i]
    rfl
  evaluated e n hn hnumber := by
    obtain ⟨i, rfl, he⟩ := History.mem_numbered_iff.mp hn
    have hcomplete := hs.isComplete e (List.mem_of_getElem? he)
    have hrecall := recallEntry_of_numbers (numbers_of_mem_numbered he hnumber) he precision
    rw [answer_recallEntry htrim, answer_of_isComplete hcomplete, hrecall]
    exact ⟨rfl, evaluates_of_isComplete h0 h1 s hcomplete⟩
  shifted e result t ht := by
    rw [ht.session]
    exact History.numbered_add s.history ⟨e, result⟩
  indexed e n hn := by
    obtain ⟨i, rfl, he⟩ := History.mem_numbered_iff.mp hn
    have hindex : ((i + 1 : Nat) : Int) - 1 = i := by omega
    have hi : i < s.history.size := (List.getElem?_eq_some_iff.mp he).1
    rw [hindex, History.get_of_lt he, History.delete_of_lt hi, eraseIdx_eq s.history.entries 1 i]
    exact ⟨rfl, rfl⟩
  refused h := by
    have hindex := entryIndex?_eq_none h
    intro word hword
    rcases List.mem_cons.mp hword with rfl | hword
    · rw [answer_deleteEntry htrim, deleteEntry_of_none hindex]
      exact ⟨rfl, s.refuses_complaint _⟩
    · rw [List.mem_singleton.mp hword, answer_recallEntry htrim, recallEntry_of_none hindex]
      exact ⟨rfl, s.refuses_complaint _⟩

/-- The second of three entries, by a number in digits of another script. -/
theorem numbering_second : ∃ s : Session, s.Reachable ∧
    s.history.entries = [⟨"3", "3.0000"⟩, ⟨"2", "2.0000"⟩, ⟨"1", "1.0000"⟩] ∧
    s.answer 4 ":delete ٢" =
      { session := { s with history := ⟨[⟨"3", "3.0000"⟩, ⟨"1", "1.0000"⟩]⟩ } } ∧
    s.answer 4 ":recall ٢" = s.answer 4 "2" := by
  have hs : (eachLine (answer 4) {} ["1", "2", "3"]).session.Reachable :=
    Reachable.eachLine (fun line h => h.line 4 line) _ .start
  have hentries : (eachLine (answer 4) {} ["1", "2", "3"]).session.history.entries =
      [⟨"3", "3.0000"⟩, ⟨"2", "2.0000"⟩, ⟨"1", "1.0000"⟩] := by decide +kernel
  have hnumbering : Numbering 4 (eachLine (answer 4) {} ["1", "2", "3"]).session "٢" :=
    hs.numbering (by decide) (by decide) (by decide +kernel)
  have hmem : ((⟨"2", "2.0000"⟩ : Entry), 2) ∈
      (eachLine (answer 4) {} ["1", "2", "3"]).session.history.numbered := by
    rw [History.numbered, hentries]
    decide
  have hnumber : Number.integer? "٢" = some ((2 : Nat) : Int) := by decide +kernel
  have hdropped := hnumbering.dropped _ _ hmem hnumber
  rw [History.numbered, hentries] at hdropped
  exact ⟨_, hs, hentries, hdropped, (hnumbering.evaluated _ _ hmem hnumber).1⟩

end Session

end Calculator
