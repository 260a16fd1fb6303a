import Calculator.CommandLine.Settings
import Calculator.Proofs.Numerals
import Calculator.Proofs.Yard

/-!
# Arguments that are followed by more

What a switch in front of further arguments, and behind them, does to the settings.

* `Argument.ofList_append`: arguments are read one by one, unless the mark `--` stands among them.
* `Uses.ofForm_append`: the uses of a switch do not change with a switch that follows later, if they
  do not take all the rest.
* `Progress.Marked`: which switches are noted as used, and what the settings say of them.
* `Progress.Runs.append`: arguments that do not take all the rest are carried out before the others.
* `Settings.ofArguments_lines`, `Settings.ofArguments_prompt`, `Settings.ofArguments_assignments`:
  lines, a prompt, or assignments, behind other arguments.
-/
set_option autoImplicit false

namespace Calculator.CommandLine

/-! ## Single arguments -/

namespace Argument

/-- Whether the argument stands beyond the mark `--`. -/
def isBeyond : Argument → Bool
  | beyond _ => true
  | _ => false

/-- An argument without two minus signs in front is read, and keeps its text. -/
theorem exists_ofString {text : String} (h : ¬ ['-', '-'] <+: text.toList) :
    ∃ a, ofString text = .ok a ∧ a.text = text ∧ a.isBeyond = false := by
  have hother : ∀ cs, (ofOther text cs).text = text ∧ (ofOther text cs).isBeyond = false := by
    intro cs
    unfold ofOther
    split <;> exact ⟨rfl, rfl⟩
  unfold ofString
  split
  · next cs hcs => exact absurd ⟨cs, hcs.symm⟩ h
  · next c cs _ _ =>
    refine ⟨_, rfl, ?_⟩
    unfold ofShort
    split
    · exact ⟨rfl, rfl⟩
    · exact ⟨rfl, rfl⟩
    · exact ⟨rfl, rfl⟩
    · exact hother _
  · exact ⟨_, rfl, rfl, rfl⟩

/-- An argument without a minus sign in front is a plain one. -/
theorem ofString_plain {text : String} (h : text.toList.head? ≠ some '-') :
    ofString text = .ok (.plain text) := by
  unfold ofString
  split
  · next hcs => exact absurd (by rw [hcs]; rfl) h
  · next hcs => exact absurd (by rw [hcs]; rfl) h
  · rfl

theorem ofString_toString (n : Nat) : ofString (toString n) = .ok (.plain (toString n)) := by
  refine ofString_plain fun hhead => ?_
  have hd := Number.isDigit_of_mem_toString (n := n) '-' (List.mem_of_mem_head? hhead)
  exact absurd hd (by decide)

theorem ofList_cons {text : String} {a : Argument} (ht : text ≠ "--") (ha : ofString text = .ok a)
    (texts : List String) : ofList (text :: texts) = (ofList texts).map (a :: ·) := by
  rw [ofList, if_neg ht, ha]
  cases ofList texts <;> rfl

/-- Arguments without two minus signs in front are all read. -/
theorem exists_ofList {texts : List String} (h : ∀ t ∈ texts, ¬ ['-', '-'] <+: t.toList) :
    ∃ as, ofList texts = .ok as ∧ as.map text = texts ∧ ∀ a ∈ as, a.isBeyond = false := by
  induction texts with
  | nil => exact ⟨[], rfl, rfl, by simp⟩
  | cons t texts ih =>
    have ht := h t List.mem_cons_self
    have hne : t ≠ "--" := by
      rintro rfl
      exact ht (List.prefix_refl _)
    obtain ⟨a, ha, htext, hbeyond⟩ := exists_ofString ht
    obtain ⟨as, has, htexts, hbeyonds⟩ := ih fun u hu => h u (List.mem_cons_of_mem t hu)
    refine ⟨a :: as, by rw [ofList_cons hne ha, has]; rfl, ?_, List.forall_mem_cons.mpr
      ⟨hbeyond, hbeyonds⟩⟩
    rw [List.map_cons, htext, htexts]

theorem ofList_append {texts : List String} (more : List String) :
    ∀ {as : List Argument}, ofList texts = .ok as → (∀ a ∈ as, a.isBeyond = false) →
      ofList (texts ++ more) = (ofList more).map (as ++ ·) := by
  induction texts with
  | nil =>
    intro as h _
    cases h
    cases h : ofList more <;> simp [h, Except.map]
  | cons t texts ih =>
    intro as h hbeyond
    by_cases ht : t = "--"
    · rw [ofList, if_pos ht] at h
      cases h
      have := hbeyond (.beyond t) List.mem_cons_self
      cases this
    · cases ha : ofString t with
      | error e =>
        rw [ofList, if_neg ht, ha] at h
        cases h
      | ok a =>
        rw [ofList_cons ht ha] at h
        cases hs : ofList texts with
        | error e =>
          rw [hs] at h
          cases h
        | ok bs =>
          rw [hs] at h
          cases h
          rw [List.cons_append, ofList_cons ht ha,
            ih hs fun b hb => hbeyond b (List.mem_cons_of_mem a hb)]
          cases ofList more <;> rfl

end Argument

/-! ## Uses of a switch -/

namespace Uses

/-- None of the uses takes all the rest. -/
def Bounded (u : Uses) : Prop := ∀ use ∈ u.uses, use.switch ≠ .expression

variable {following : List Argument} {u : Uses}

theorem alone_append {s : Switch} (h : alone s following = .ok u) (hu : u.Bounded) (text : String)
    (form : Form) (rest : List Argument) :
    alone s (following ++ .switch text form :: rest) = .ok u := by
  cases s with
  | expression =>
    cases h
    exact absurd rfl (hu _ List.mem_cons_self)
  | help | verbose | grammar | dump => exact h
  | precision | assign | prompt =>
    cases following with
    | nil => cases h <;> rfl
    | cons a following => cases a <;> cases h <;> rfl

theorem bounded_of_cons {s : Switch} (h : (u.cons s).Bounded) : u.Bounded :=
  fun use hu => h use (List.mem_cons_of_mem _ hu)

theorem map_cons_eq_ok {s : Switch} {x : Except UsageFault Uses} (h : x.map (cons s) = .ok u) :
    ∃ v, x = .ok v ∧ u = v.cons s := by
  cases x with
  | error e => cases h
  | ok v =>
    cases h
    exact ⟨v, rfl, rfl⟩

theorem short_append {tail : List Char} (text : String) (form : Form) (rest : List Argument) :
    ∀ {s : Switch} {u : Uses}, short following s tail = .ok u → u.Bounded →
      short (following ++ .switch text form :: rest) s tail = .ok u := by
  induction tail with
  | nil => exact fun h _ => h
  | cons c cs ih =>
    intro s u h hu
    rw [short] at h ⊢
    split at h
    · next hs => rwa [if_pos hs]
    · next hs =>
      rw [if_neg hs]
      split at h
      · next hc => exact h
      · next next hc =>
        obtain ⟨v, hv, rfl⟩ := map_cons_eq_ok h
        split at hv
        · next hcs => rw [if_pos hcs, alone_append hv (bounded_of_cons hu)]; rfl
        · next hcs => rw [if_neg hcs, ih hv (bounded_of_cons hu)]; rfl

theorem ofForm_append {f : Form} (h : ofForm following f = .ok u) (hu : u.Bounded) (text : String)
    (form : Form) (rest : List Argument) :
    ofForm (following ++ .switch text form :: rest) f = .ok u := by
  cases f with
  | alone s => exact alone_append h hu text form rest
  | long s value => exact h
  | short s tail => exact short_append text form rest h hu

/-- The switch for lines takes all that follows, where no mark stands among it. -/
theorem ofForm_expression {values : List String} (hbeyond : ∀ a ∈ following, a.isBeyond = false)
    (hvalues : following.map Argument.text = values) :
    ofForm following (.alone .expression) =
      .ok { uses := [⟨.expression, values⟩], taken := following.length } := by
  have hall : ∀ p : Argument → Bool, (∀ a, p a = !a.isBeyond) →
      following.takeWhile p = following := by
    intro p hp
    have hpos : ∀ a ∈ following, p a = true := fun a ha => by rw [hp, hbeyond a ha, Bool.not_false]
    have hall : (following ++ []).takeWhile p = following ++ [].takeWhile p :=
      List.takeWhile_append_of_pos hpos
    simpa using hall
  subst hvalues
  simp only [ofForm, alone, Switch.arity]
  rw [hall _ fun a => by cases a <;> rfl]

/-! ### Values among the arguments that follow -/

/-- The values are arguments that follow, none of them beyond the mark. -/
def TakesValues (u : Uses) (following : List Argument) : Prop :=
  u.taken ≤ following.length ∧ ∀ a ∈ following.take u.taken, a.isBeyond = false

theorem takesValues_of_alone {s : Switch} (h : alone s following = .ok u) :
    u.TakesValues following := by
  have hnone : ∀ us : List Use, (⟨us, 0⟩ : Uses).TakesValues following := fun us => by
    simp [TakesValues]
  have hone : ∀ (us : List Use) (v : String) (rest : List Argument), following = .plain v :: rest →
      (⟨us, 1⟩ : Uses).TakesValues following := by
    rintro us v rest rfl
    simp [TakesValues, Argument.isBeyond]
  unfold alone at h
  split at h
  · cases h
    exact hnone _
  · cases h
    exact hone _ _ _ rfl
  · cases h
    exact hone _ _ _ rfl
  · cases h
  · cases h
    exact hnone _
  · cases h
    refine ⟨(List.takeWhile_prefix _).length_le, fun a ha => ?_⟩
    rw [← List.prefix_iff_eq_take.mp (List.takeWhile_prefix _)] at ha
    have hp := List.all_eq_true.mp List.all_takeWhile a ha
    cases a with
    | beyond text => cases hp
    | plain text | switch text form | unknown text => rfl

theorem takesValues_of_attached {s : Switch} {value : List Char} (h : attached s value = .ok u) :
    u.TakesValues following := by
  unfold attached at h
  split at h
  · cases h
  · cases h
    simp [TakesValues]

theorem takesValues_of_short {tail : List Char} :
    ∀ {s : Switch} {u : Uses}, short following s tail = .ok u → u.TakesValues following := by
  induction tail with
  | nil => exact fun h => takesValues_of_attached h
  | cons c cs ih =>
    intro s u h
    rw [short] at h
    split at h
    · exact takesValues_of_attached h
    · split at h
      · exact takesValues_of_attached h
      · obtain ⟨v, hv, rfl⟩ := map_cons_eq_ok h
        have hvalues : v.TakesValues following := by
          split at hv
          · exact takesValues_of_alone hv
          · exact ih hv
        exact hvalues

theorem takesValues_of_ofForm {f : Form} (h : ofForm following f = .ok u) :
    u.TakesValues following := by
  cases f with
  | alone s => exact takesValues_of_alone h
  | long s value => exact takesValues_of_attached h
  | short s tail => exact takesValues_of_short h

end Uses

/-! ## Uses in a row -/

/-- Lines and a prompt stay in the settings, and their switches put them there. -/
theorem Settings.use_eq_ok {o o' : Settings} {u : Use} (h : o.use u = .ok o') :
    (u.switch = .expression ∨ o.lines ≠ none → o'.lines ≠ none) ∧
      (u.switch = .prompt ∨ o.prompt ≠ none → o'.prompt ≠ none) := by
  obtain ⟨s, values⟩ := u
  cases s with
  | help => cases h
  | precision =>
    cases values with
    | nil =>
      cases h
      simp
    | cons text rest =>
      simp only [Settings.use] at h
      split at h
      · cases h
        simp
      · cases h
  | prompt => cases values <;> cases h <;> simp
  | verbose | assign | expression | grammar | dump =>
    cases h
    simp

namespace Progress

theorem use_eq_ok {p q : Progress} {u : Use} (h : p.use u = .ok q) :
    p.settings.use u = .ok q.settings ∧ q.used = u.switch :: p.used ∧ q.strays = p.strays := by
  obtain ⟨o, ho, h⟩ := bind_eq_ok_iff.mp h
  have hmark : ∀ m, p.mark u.switch = .ok m → m = { p with used := u.switch :: p.used } := by
    intro m hm
    unfold mark at hm
    split at hm
    · split at hm
      · cases hm
      · exact (Except.ok.inj hm).symm
    · exact (Except.ok.inj hm).symm
  cases hm : p.mark u.switch with
  | error e =>
    rw [hm] at h
    cases h
  | ok m =>
    rw [hm] at h
    cases h
    rw [hmark m hm]
    exact ⟨ho, rfl, rfl⟩

theorem use_of_settings {p : Progress} {u : Use} {o : Settings} (ho : p.settings.use u = .ok o)
    (hrival : ∀ other ∈ u.switch.rival?, other ∉ p.used) :
    p.use u = .ok { p with settings := o, used := u.switch :: p.used } := by
  have hmark : p.mark u.switch = .ok { p with used := u.switch :: p.used } := by
    unfold mark
    split
    · next other hr =>
      have hfree : p.used.contains other = false := by simpa using hrival other hr
      rw [hfree]
      rfl
    · rfl
  rw [use, ho, Except.bind, hmark]
  rfl

/-- A single use whose rival was not used before. -/
theorem useAll_single {p : Progress} {u : Use} {o : Settings} (ho : p.settings.use u = .ok o)
    (hrival : ∀ other ∈ u.switch.rival?, other ∉ p.used) (taken : Nat) :
    p.useAll { uses := [u], taken } =
      .ok { p with settings := o, used := u.switch :: p.used } := by
  rw [useAll, List.foldlM_cons, use_of_settings ho hrival]
  rfl

/-- The switches of all uses are noted, and nothing else changes but the settings. -/
theorem useAll_eq_ok {us : List Use} :
    ∀ {p q : Progress}, us.foldlM use p = .ok q →
      q.strays = p.strays ∧ (∀ s ∈ p.used, s ∈ q.used) ∧ ∀ u ∈ us, u.switch ∈ q.used := by
  induction us with
  | nil =>
    intro p q h
    cases h
    exact ⟨rfl, fun s hs => hs, by simp⟩
  | cons u us ih =>
    intro p q h
    rw [List.foldlM_cons] at h
    obtain ⟨m, hm, h⟩ := bind_eq_ok_iff.mp h
    obtain ⟨-, hused, hstrays⟩ := use_eq_ok hm
    obtain ⟨hstrays', hkept, huses⟩ := ih h
    rw [hused] at hkept
    refine ⟨hstrays'.trans hstrays, fun s hs => hkept s (List.mem_cons_of_mem _ hs), ?_⟩
    exact List.forall_mem_cons.mpr ⟨hkept _ List.mem_cons_self, huses⟩

/-- Lines among the arguments, and a prompt, show in the settings. -/
structure Marked (p : Progress) : Prop where
  lines : .expression ∈ p.used → p.settings.lines ≠ none
  prompt : .prompt ∈ p.used → p.settings.prompt ≠ none

theorem marked_start : Marked {} :=
  ⟨fun h => (by cases h), fun h => (by cases h)⟩

theorem Marked.use {p q : Progress} {u : Use} (hp : p.Marked) (h : p.use u = .ok q) :
    q.Marked := by
  obtain ⟨ho, hused, -⟩ := use_eq_ok h
  obtain ⟨hlines, hprompt⟩ := Settings.use_eq_ok ho
  constructor
  · intro hm
    rw [hused] at hm
    exact hlines ((List.mem_cons.mp hm).imp Eq.symm hp.lines)
  · intro hm
    rw [hused] at hm
    exact hprompt ((List.mem_cons.mp hm).imp Eq.symm hp.prompt)

/-- What a single use keeps is kept by all uses of an argument. -/
theorem useAll_invariant {P : Progress → Prop}
    (huse : ∀ {p q : Progress} {u : Use}, P p → p.use u = .ok q → P q) {us : List Use} :
    ∀ {p q : Progress}, P p → us.foldlM use p = .ok q → P q := by
  induction us with
  | nil =>
    intro p q hp h
    cases h
    exact hp
  | cons u us ih =>
    intro p q hp h
    rw [List.foldlM_cons] at h
    obtain ⟨m, hm, h⟩ := bind_eq_ok_iff.mp h
    exact ih (huse hp hm) h

/-! ## Runs -/

/-- What arguments lead to, carried out one after the other. -/
inductive Runs : Progress → List Argument → Progress → Prop where
  | done (p : Progress) : Runs p [] p
  | stray {p q : Progress} {a : Argument} {rest : List Argument}
      (ha : ∀ text form, a ≠ .switch text form) (h : Runs (p.stray a.text) rest q) :
      Runs p (a :: rest) q
  | switch {p m q : Progress} {text : String} {form : Form} {rest : List Argument} {u : Uses}
      (hu : Uses.ofForm rest form = .ok u) (hm : p.useAll u = .ok m)
      (h : Runs m (rest.drop u.taken) q) : Runs p (.switch text form :: rest) q

theorem run_switch {form : Form} {rest : List Argument} {u : Uses}
    (hu : Uses.ofForm rest form = .ok u) (p : Progress) (text : String) :
    p.run (.switch text form :: rest) =
      (p.useAll u).bind fun m => m.run (rest.drop u.taken) := by
  rw [run, hu]
  rfl

theorem run_stray (p : Progress) {a : Argument} (ha : ∀ text form, a ≠ .switch text form)
    (rest : List Argument) : p.run (a :: rest) = (p.stray a.text).run rest := by
  cases a with
  | switch text form => exact absurd rfl (ha text form)
  | plain text | unknown text | beyond text => rw [run]; rfl

theorem run_of_runs {p q : Progress} {as : List Argument} (h : Runs p as q) :
    p.run as = .ok q := by
  induction h with
  | done p => rw [run]
  | stray ha _ ih => rw [run_stray _ ha, ih]
  | switch hu hm _ ih =>
    rw [run_switch hu]
    exact bind_eq_ok_iff.mpr ⟨_, hm, ih⟩

theorem runs_of_run {n : Nat} : ∀ {as : List Argument} {p q : Progress}, as.length ≤ n →
    p.run as = .ok q → Runs p as q := by
  induction n with
  | zero =>
    intro as p q hn h
    have has : as = [] := List.length_eq_zero_iff.mp (Nat.le_zero.mp hn)
    subst has
    rw [run] at h
    cases h
    exact .done p
  | succ n ih =>
    intro as p q hn h
    cases as with
    | nil =>
      rw [run] at h
      cases h
      exact .done p
    | cons a rest =>
      have hrest : rest.length ≤ n := Nat.le_of_succ_le_succ hn
      by_cases ha : ∀ text form, a ≠ .switch text form
      · rw [run_stray p ha] at h
        exact .stray ha (ih hrest h)
      · have : ∃ text form, a = .switch text form := by simpa using ha
        obtain ⟨text, form, rfl⟩ := this
        cases hu : Uses.ofForm rest form with
        | error e =>
          rw [run, hu] at h
          cases h
        | ok u =>
          rw [run_switch hu] at h
          obtain ⟨m, hm, h⟩ := bind_eq_ok_iff.mp h
          have hdrop : (rest.drop u.taken).length ≤ n :=
            Nat.le_trans (List.drop_sublist _ _).length_le hrest
          exact .switch hu hm (ih hdrop h)

/-- Arguments are carried out exactly if they lead somewhere. -/
theorem run_eq_ok_iff {p q : Progress} {as : List Argument} : p.run as = .ok q ↔ Runs p as q :=
  ⟨runs_of_run (Nat.le_refl _), run_of_runs⟩

theorem Runs.used_subset {p q : Progress} {as : List Argument} (h : Runs p as q) :
    ∀ s ∈ p.used, s ∈ q.used := by
  induction h with
  | done p => exact fun s hs => hs
  | stray _ _ ih => exact ih
  | switch _ hm _ ih => exact fun s hs => ih s ((useAll_eq_ok hm).2.1 s hs)

/-- What an argument without a meaning and a single use keep is kept by all arguments. -/
theorem Runs.invariant {P : Progress → Prop}
    (hstray : ∀ {p : Progress} (text : String), P p → P (p.stray text))
    (huse : ∀ {p q : Progress} {u : Use}, P p → p.use u = .ok q → P q) {p q : Progress}
    {as : List Argument} (h : Runs p as q) (hp : P p) : P q := by
  induction h with
  | done p => exact hp
  | stray _ _ ih => exact ih (hstray _ hp)
  | switch _ hm _ ih => exact ih (useAll_invariant huse hp hm)

theorem Runs.marked {p q : Progress} {as : List Argument} (h : Runs p as q) (hp : p.Marked) :
    q.Marked :=
  h.invariant (fun _ hp => ⟨hp.lines, hp.prompt⟩) Marked.use hp

/-- Where every argument means something, none of them stands beyond the mark. -/
theorem Runs.isBeyond_eq_false {p q : Progress} {as : List Argument} (h : Runs p as q)
    (hq : q.strays = []) : p.strays = [] ∧ ∀ a ∈ as, a.isBeyond = false := by
  induction h with
  | done p => exact ⟨hq, by simp⟩
  | stray _ _ ih =>
    have hstrays := (ih hq).1
    simp [Progress.stray] at hstrays
  | @switch p m q text form rest u hu hm _ ih =>
    obtain ⟨hstrays, hdrop⟩ := ih hq
    rw [(useAll_eq_ok hm).1] at hstrays
    refine ⟨hstrays, List.forall_mem_cons.mpr ⟨rfl, fun a ha => ?_⟩⟩
    rw [← List.take_append_drop u.taken rest] at ha
    rcases List.mem_append.mp ha with ha | ha
    · exact (Uses.takesValues_of_ofForm hu).2 a ha
    · exact hdrop a ha

/-- Arguments that do not take all the rest are carried out before a switch that follows. -/
theorem Runs.append {p q r : Progress} {as rest : List Argument} {text : String} {form : Form}
    (h : Runs p as q) (hq : .expression ∉ q.used) (hr : Runs q (.switch text form :: rest) r) :
    Runs p (as ++ .switch text form :: rest) r := by
  induction h with
  | done p => exact hr
  | stray ha _ ih => exact .stray ha (ih hq hr)
  | @switch _ _ _ _ _ following u hu hm hrun ih =>
    have hbounded : u.Bounded := by
      intro use huse he
      have hmem := hrun.used_subset _ ((useAll_eq_ok hm).2.2 use huse)
      rw [he] at hmem
      exact hq hmem
    refine .switch (Uses.ofForm_append hu hbounded text form rest) hm ?_
    change Runs _ ((following ++ .switch text form :: rest).drop u.taken) r
    rw [List.drop_append_of_le_length (Uses.takesValues_of_ofForm hu).1]
    exact ih hq hr

end Progress

/-! ## Settings -/

namespace Settings

theorem ofArguments_eq_ok {texts : List String} {o : Settings} (h : ofArguments texts = .ok o) :
    ∃ (as : List Argument) (q : Progress), Argument.ofList texts = .ok as ∧
      Progress.Runs {} as q ∧ q.strays = [] ∧ q.settings = o := by
  unfold ofArguments at h
  cases ha : Argument.ofList texts with
  | error e =>
    rw [ha] at h
    cases h
  | ok as =>
    rw [ha] at h
    obtain ⟨bs, hbs, h⟩ := bind_eq_ok_iff.mp h
    cases hbs
    obtain ⟨q, hq, h⟩ := bind_eq_ok_iff.mp h
    by_cases hstrays : q.strays = []
    · rw [if_pos hstrays] at h
      exact ⟨as, q, rfl, Progress.run_eq_ok_iff.mp hq, hstrays, Except.ok.inj h⟩
    · rw [if_neg hstrays] at h
      cases h

theorem ofArguments_of_runs {texts : List String} {as : List Argument} {q : Progress}
    (ha : Argument.ofList texts = .ok as) (h : Progress.Runs {} as q) (hq : q.strays = []) :
    ofArguments texts = .ok q.settings := by
  rw [ofArguments, ha]
  refine bind_eq_ok_iff.mpr ⟨as, rfl, bind_eq_ok_iff.mpr ⟨q, Progress.run_eq_ok_iff.mpr h, ?_⟩⟩
  rw [if_pos hq]
  rfl

theorem ofArguments_nil : ofArguments [] = .ok {} := ofArguments_of_runs rfl (.done _) rfl

/-- A switch behind arguments that do not take all the rest goes on where they end. -/
theorem ofArguments_append {texts more : List String} {o o' : Settings} {text : String}
    {form : Form} {rest : List Argument} (h : ofArguments texts = .ok o) (hlines : o.lines = none)
    (hmore : Argument.ofList more = .ok (.switch text form :: rest))
    (hrest : ∀ q : Progress, q.Marked → q.settings = o →
      ∃ r, q.Runs (.switch text form :: rest) r ∧ r.strays = q.strays ∧ r.settings = o') :
    ofArguments (texts ++ more) = .ok o' := by
  obtain ⟨as, q, ha, hq, hstrays, rfl⟩ := ofArguments_eq_ok h
  have hmarked := hq.marked Progress.marked_start
  obtain ⟨r, hr, hrstrays, rfl⟩ := hrest q hmarked rfl
  have hall : Argument.ofList (texts ++ more) = .ok (as ++ .switch text form :: rest) := by
    rw [Argument.ofList_append more ha (hq.isBeyond_eq_false hstrays).2, hmore]
    rfl
  have hfree : .expression ∉ q.used := fun hm => hmarked.lines hm hlines
  exact ofArguments_of_runs hall (hq.append hfree hr) (hrstrays.trans hstrays)

/-- All that stands behind the switch for lines is a line. -/
theorem ofArguments_lines {texts lines : List String} {o : Settings}
    (h : ofArguments texts = .ok o) (hlines : o.lines = none) (hprompt : o.prompt = none)
    (hmarks : ∀ t ∈ lines, ¬ ['-', '-'] <+: t.toList) :
    ofArguments (texts ++ "-e" :: lines) = .ok { o with lines := some lines } := by
  obtain ⟨as, has, htexts, hbeyond⟩ := Argument.exists_ofList hmarks
  have hmore : Argument.ofList ("-e" :: lines) =
      .ok (.switch "-e" (.alone .expression) :: as) := by
    rw [Argument.ofList_cons (by decide) (by rfl), has]
    rfl
  refine ofArguments_append h hlines hmore fun q hq ho => ?_
  have hfree : ∀ other ∈ Switch.rival? .expression, other ∉ q.used := by
    rintro other ⟨rfl⟩ hm
    exact hq.prompt hm (ho ▸ hprompt)
  have hsettings : q.settings.use ⟨.expression, lines⟩ = .ok { o with lines := some lines } :=
    ho ▸ rfl
  have hdone (p : Progress) : Progress.Runs p (as.drop as.length) p := by
    rw [List.drop_length]
    exact .done p
  exact ⟨_, .switch (Uses.ofForm_expression hbeyond htexts)
    (Progress.useAll_single hsettings hfree _) (hdone _), rfl, rfl⟩

/-- A prompt is asked for behind arguments that give no lines. -/
theorem ofArguments_prompt {texts : List String} {o : Settings} (h : ofArguments texts = .ok o)
    (hlines : o.lines = none) :
    ofArguments (texts ++ ["-p"]) = .ok { o with prompt := some defaultPrompt } := by
  have hmore : Argument.ofList ["-p"] = .ok [.switch "-p" (.alone .prompt)] := by rfl
  refine ofArguments_append h hlines hmore fun q hq ho => ?_
  have hfree : ∀ other ∈ Switch.rival? .prompt, other ∉ q.used := by
    rintro other ⟨rfl⟩ hm
    exact hq.lines hm (ho ▸ hlines)
  have hsettings : q.settings.use ⟨.prompt, []⟩ = .ok { o with prompt := some defaultPrompt } :=
    ho ▸ rfl
  exact ⟨_, .switch rfl (Progress.useAll_single hsettings hfree _) (.done _), rfl, rfl⟩

/-- An assignment is put behind those before it. -/
theorem ofArguments_assign {texts : List String} {o : Settings} (h : ofArguments texts = .ok o)
    (hlines : o.lines = none) {text : String} (htext : text.toList.head? ≠ some '-') :
    ofArguments (texts ++ ["-s", text]) =
      .ok { o with assignments := o.assignments ++ [some text] } := by
  have hmore : Argument.ofList ["-s", text] =
      .ok [.switch "-s" (.alone .assign), .plain text] := by
    have hne : text ≠ "--" := by
      rintro rfl
      exact htext rfl
    rw [Argument.ofList_cons (by decide) (by rfl),
      Argument.ofList_cons hne (Argument.ofString_plain htext)]
    rfl
  refine ofArguments_append h hlines hmore fun q hq ho => ?_
  have hsettings : q.settings.use ⟨.assign, [text]⟩ =
      .ok { o with assignments := o.assignments ++ [some text] } := ho ▸ rfl
  exact ⟨_, .switch rfl (Progress.useAll_single hsettings (by rintro _ ⟨⟩) 1) (.done _), rfl, rfl⟩

theorem ofArguments_assignments (assignments : List String) :
    ∀ {texts : List String} {o : Settings}, ofArguments texts = .ok o → o.lines = none →
      (∀ t ∈ assignments, t.toList.head? ≠ some '-') →
        ofArguments (texts ++ assignments.flatMap fun t => ["-s", t]) =
          .ok { o with assignments := o.assignments ++ assignments.map some } := by
  induction assignments with
  | nil =>
    intro texts o h _ _
    simpa using h
  | cons text assignments ih =>
    intro texts o h hlines hall
    obtain ⟨htext, hrest⟩ := List.forall_mem_cons.mp hall
    have hfirst := ofArguments_assign h hlines htext
    have hmore := ih hfirst hlines hrest
    simpa using hmore

/-- The precision is read from its numeral. -/
theorem ofArguments_precision {k : Nat} (h : k ≤ mostPlaces) :
    ofArguments ["-k", toString k] = .ok { precision := k } := by
  have hlength : (toString k).length ≤ Number.mostDigits := by
    rw [Nat.toString_eq_ofList_toDigits, String.length_ofList]
    exact (Nat.length_toDigits_le_iff (by decide) (by decide)).mpr
      (Nat.lt_of_le_of_lt h (by decide +kernel))
  have hprecision : precision? (toString k) = some (k : Int) := by
    rw [precision?, Number.integer?_toString hlength]
    simp
  have harguments : Argument.ofList ["-k", toString k] =
      .ok [.switch "-k" (.alone .precision), .plain (toString k)] := by
    have hne : toString k ≠ "--" := by
      intro he
      have := Argument.ofString_toString k
      rw [he] at this
      cases this
    rw [Argument.ofList_cons (by decide) (by rfl),
      Argument.ofList_cons hne (Argument.ofString_toString k)]
    rfl
  have hsettings : use {} ⟨.precision, [toString k]⟩ = .ok { precision := k } := by
    simp only [use, hprecision]
  have hall : Progress.useAll {} { uses := [⟨.precision, [toString k]⟩], taken := 1 } =
      .ok { settings := { precision := k }, used := [.precision] } :=
    Progress.useAll_single (p := {}) hsettings (by rintro _ ⟨⟩) 1
  exact ofArguments_of_runs harguments (.switch rfl hall (.done _)) rfl

end Settings

end Calculator.CommandLine
