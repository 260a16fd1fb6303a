import Calculator.Registers
import Calculator.Proofs.Margins
import Calculator.Proofs.Scopes

/-!
# Variables over time

What holds of the registers behind any calls that keep and forget variables.

* `Registers.Objection`, `Registers.firstObjection`, `Registers.check_cases`: why a variable is not
  kept. The first objection counts.
* `Registers.keep_cases`, `Registers.forget_on`: what the calls do; `Registers.store_on`,
  `Registers.remove_on`: the same calls on loose names and values.
* `Registers.Call`, `Registers.performAll`: calls in a row. `Registers.perform_cases` says all that a
  call can change.
* `Registers.Kept`: distinct names that are in lower case and no constant's, with finite values.
* `Kept.perform`, `kept_performAll`: a call keeps this, and so do all calls in a row.
* `Kept.scopeOf_definitions`: the scope of such registers holds the constants, and then the
  variables as they are.
* `get?_performAll`: calls about other names leave the value of a name as it is.
-/
set_option autoImplicit false

namespace Calculator

open Calculator.Text

/-! ## Bound names -/

namespace Bindings

theorem mem_insertPair {name : String} {x : Float} {ps : List (String × Float)}
    {p : String × Float} (h : p ∈ insertPair name x ps) : p = (name, x) ∨ p ∈ ps := by
  induction ps with
  | nil => exact .inl (List.mem_singleton.mp h)
  | cons q ps ih =>
    rw [insertPair] at h
    split at h
    · rcases List.mem_cons.mp h with h | h
      · exact .inl h
      · exact .inr (List.mem_cons_of_mem q h)
    · rcases List.mem_cons.mp h with rfl | h
      · exact .inr List.mem_cons_self
      · exact (ih h).imp_right (List.mem_cons_of_mem q)

theorem insertPair_of_not_mem {name : String} {ps : List (String × Float)}
    (h : name ∉ ps.map Prod.fst) (x : Float) : insertPair name x ps = ps ++ [(name, x)] := by
  induction ps with
  | nil => rfl
  | cons q ps ih =>
    have hq : q.1 ≠ name := by
      rintro rfl
      exact h List.mem_cons_self
    have hps : name ∉ ps.map Prod.fst := fun hm => h (List.mem_cons_of_mem _ hm)
    rw [insertPair, if_neg hq, ih hps, List.cons_append]

theorem map_fst_insertPair_of_mem {name : String} {ps : List (String × Float)}
    (h : name ∈ ps.map Prod.fst) (x : Float) :
    (insertPair name x ps).map Prod.fst = ps.map Prod.fst := by
  induction ps with
  | nil => cases h
  | cons q ps ih =>
    rw [insertPair]
    by_cases hq : q.1 = name
    · rw [if_pos hq, List.map_cons, List.map_cons, hq]
    · have hps : name ∈ ps.map Prod.fst := (List.mem_cons.mp h).resolve_left (Ne.symm hq)
      rw [if_neg hq, List.map_cons, List.map_cons, ih hps]

theorem insert_of_not_mem {b : Bindings} {name : String} (h : name ∉ b.names) (x : Float) :
    b.insert name x = ⟨b.pairs ++ [(name, x)]⟩ :=
  congrArg mk (insertPair_of_not_mem h x)

theorem mem_names_insert {b : Bindings} {name n : String} {x : Float}
    (h : n ∈ (b.insert name x).names) : n = name ∨ n ∈ b.names := by
  obtain ⟨p, hp, rfl⟩ := List.mem_map.mp h
  rcases mem_insertPair hp with rfl | hp
  · exact .inl rfl
  · exact .inr (List.mem_map_of_mem hp)

theorem nodup_names_insert {b : Bindings} (h : b.names.Nodup) (name : String) (x : Float) :
    (b.insert name x).names.Nodup := by
  by_cases hn : name ∈ b.names
  · have hsame : (b.insert name x).names = b.names := map_fst_insertPair_of_mem hn x
    rwa [hsame]
  · have hnew : (b.insert name x).names = b.names ++ [name] := by
      rw [insert_of_not_mem hn, names, List.map_append]
      rfl
    rw [hnew, List.nodup_append]
    refine ⟨h, by simp, fun m hm n hn' => ?_⟩
    rw [List.mem_singleton.mp hn']
    rintro rfl
    exact hn hm

theorem names_erase_sublist (b : Bindings) (name : String) :
    (b.erase name).names.Sublist b.names :=
  List.filter_sublist.map Prod.fst

theorem filter_insertPair (name : String) (x : Float) (ps : List (String × Float)) :
    (insertPair name x ps).filter (·.1 ≠ name) = ps.filter (·.1 ≠ name) := by
  induction ps with
  | nil => simp [insertPair]
  | cons q ps ih =>
    rw [insertPair]
    by_cases hq : q.1 = name
    · simp [hq]
    · rw [if_neg hq, List.filter_cons, List.filter_cons, ih]

/-- To bind a name before it is forgotten leaves the others, in their order, with their values. -/
theorem erase_insert (b : Bindings) (name : String) (x : Float) :
    (b.insert name x).erase name = b.erase name :=
  congrArg mk (filter_insertPair name x b.pairs)

theorem lookup_filter_ne {name n : String} (h : n ≠ name) (ps : List (String × Float)) :
    (ps.filter (·.1 ≠ name)).lookup n = ps.lookup n := by
  induction ps with
  | nil => rfl
  | cons q ps ih =>
    obtain ⟨m, y⟩ := q
    by_cases hm : m = name
    · subst hm
      rw [List.filter_cons_of_neg (by simp), lookup_cons_of_ne h, ih]
    · rw [List.filter_cons_of_pos (by simpa using hm), List.lookup_cons, List.lookup_cons, ih]

theorem find?_erase_of_ne {name n : String} (h : n ≠ name) (b : Bindings) :
    (b.erase name).find? n = b.find? n :=
  lookup_filter_ne h b.pairs

theorem mem_of_find? {b : Bindings} {n : String} {x : Float} (h : b.find? n = some x) :
    (n, x) ∈ b.pairs := by
  obtain ⟨l, m, hs, -⟩ := List.lookup_eq_some_iff.mp h
  rw [hs]
  exact List.mem_append_right l List.mem_cons_self

theorem mem_names_of_find? {b : Bindings} {n : String} {x : Float}
    (h : b.find? n = some x) : n ∈ b.names :=
  List.mem_map_of_mem (mem_of_find? h)

theorem find?_eq_none_iff {b : Bindings} {name : String} :
    b.find? name = none ↔ name ∉ b.names := by
  rw [find?, names, List.lookup_eq_none_iff]
  constructor
  · intro h hmem
    obtain ⟨p, hp, rfl⟩ := List.mem_map.mp hmem
    exact absurd (h p hp) (by simp)
  · intro h p hp
    exact bne_iff_ne.mpr fun hname => h (hname ▸ List.mem_map_of_mem hp)

theorem find?_append (ps qs : List (String × Float)) (n : String) :
    (⟨ps ++ qs⟩ : Bindings).find? n =
      ((⟨ps⟩ : Bindings).find? n).or ((⟨qs⟩ : Bindings).find? n) :=
  List.lookup_append

end Bindings

/-! ## Names of variables -/

theorem small_of_isLower {c : Char} (h : c.isLower || c.isDigit || c == '_') :
    isNameChar c ∧ c.toLower = c := by
  have hlt : c.toNat < 128 := by
    simp only [Bool.or_eq_true, beq_iff_eq] at h
    rcases h with (hl | hd) | rfl
    · have ha := toNat_of_isAlpha (isAlpha_of_isLower hl)
      omega
    · have hd' := toNat_of_isDigit hd
      omega
    · decide
  exact forall_char_of_lt (P := fun c => c.isLower || c.isDigit || c == '_' →
    isNameChar c ∧ c.toLower = c) (by decide) hlt h

theorem long_or_small {c : Char} (h : isVariableLetter c || c.isDigit || c == '_') :
    c = 'ſ' ∨ isNameChar c ∧ c.toLower = c := by
  by_cases hlong : c = 'ſ'
  · exact .inl hlong
  · exact .inr (small_of_isLower (by simpa [isVariableLetter, hlong] using h))

/-- A character of a variable's name is the long s, or it may stand in a name of an expression and
is no capital. -/
theorem long_or_small_of_mem {name : String} (h : isVariableName name) :
    ∀ c ∈ name.toList, c = 'ſ' ∨ isNameChar c ∧ c.toLower = c := by
  intro c hc
  unfold isVariableName at h
  split at h
  · cases h
  · next d cs hs =>
    obtain ⟨hd, hcs⟩ := Bool.and_eq_true_iff.mp h
    rw [hs] at hc
    rcases List.mem_cons.mp hc with rfl | hc
    · exact long_or_small (by simp [hd])
    · exact long_or_small (List.all_eq_true.mp hcs c hc)

theorem lowerChars_eq_self {cs : List Char}
    (h : ∀ c ∈ cs, c ≠ 'Σ' ∧ c ≠ 'İ' ∧ lowerChar c = c) :
    ∀ before, lowerChars before cs = cs := by
  induction cs with
  | nil => exact fun before => rfl
  | cons c cs ih =>
    intro before
    obtain ⟨hsigma, hdot, hc⟩ := h c List.mem_cons_self
    rw [lowerChars, if_neg hsigma, if_neg hdot, hc,
      ih fun d hd => h d (List.mem_cons_of_mem c hd)]
    rfl

theorem toLower_of_isVariableName {name : String} (h : isVariableName name) :
    toLower name = name := by
  have hchars : ∀ c ∈ name.toList, c ≠ 'Σ' ∧ c ≠ 'İ' ∧ lowerChar c = c := by
    intro c hc
    rcases long_or_small_of_mem h c hc with rfl | ⟨hn, hl⟩
    · decide +kernel
    · have hlt := toNat_of_isNameChar hn
      refine ⟨?_, ?_, by rw [lowerChar_of_lt (by omega), hl]⟩
      · rintro rfl
        exact absurd hlt.2 (by decide)
      · rintro rfl
        exact absurd hlt.2 (by decide)
  rw [toLower, lowerChars_eq_self hchars, String.ofList_toList]

theorem trim_of_isVariableName {name : String} (h : isVariableName name) : trim name = name := by
  refine trim_eq_self fun c hc => Bool.eq_false_iff.mpr fun hm => ?_
  rcases long_or_small_of_mem h c hc with rfl | ⟨hn, -⟩
  · exact absurd hm (by decide)
  · rw [isNameChar_of_isMargin hm] at hn
    cases hn

theorem ne_empty_of_isVariableName {name : String} (h : isVariableName name) : name ≠ "" := by
  rintro rfl
  exact absurd h (by decide)

namespace Registers

/-! ## Objections -/

/-- Why a variable is not kept. -/
inductive Objection where
  | missing
  | badName
  | constant
  | badValue
deriving DecidableEq, Repr

namespace Objection

/-- Whether an objection applies to a name and a value, whatever else applies. -/
def applies (name value : String) : Objection → Bool
  | missing => variableName name == "" || trim value == ""
  | badName => !isVariableName (variableName name)
  | constant => constantNames.contains (variableName name)
  | badValue => !(Number.float? (trim value)).any Float.isFinite

/-- The error that reports an objection. -/
def error : Objection → Error
  | missing => .emptyAssignment
  | badName => .invalidName
  | constant => .constantName constantNames
  | badValue => .invalidValue

end Objection

/-- The first objection to a name and a value. -/
def firstObjection (name value : String) : Option Objection :=
  [.missing, .badName, .constant, .badValue].find? (·.applies name value)

/-- The margins of a name and of a value do not count. -/
theorem check_congr {name name' value value' : String} (hn : trim name = trim name')
    (hv : trim value = trim value') : check name value = check name' value' := by
  unfold check variableName
  rw [hn, hv]

theorem keep_congr {name name' value value' : String} (hn : trim name = trim name')
    (hv : trim value = trim value') : keep name value = keep name' value' := by
  rw [keep, check_congr hn hv, keep]

/-- A name and a value are refused for the first objection. If there is none, they are normal. -/
theorem check_cases (name value : String) :
    (∃ o, firstObjection name value = some o ∧ check name value = .error o.error) ∨
      ∃ x, firstObjection name value = none ∧ finite? (trim value) = some x ∧
        check name value = .ok (variableName name, x) := by
  unfold check firstObjection
  by_cases hmissing : variableName name = "" ∨ trim value = ""
  · refine .inl ⟨.missing, ?_, ?_⟩
    · simp [Objection.applies, hmissing]
    · simp [hmissing, Objection.error]
  by_cases hname : isVariableName (variableName name) = false
  · refine .inl ⟨.badName, ?_, ?_⟩
    · simp [Objection.applies, hmissing, hname]
    · simp [hmissing, hname, Objection.error]
  rw [Bool.not_eq_false] at hname
  by_cases hconstant : variableName name ∈ constantNames
  · refine .inl ⟨.constant, ?_, ?_⟩
    · simp [Objection.applies, hmissing, hname, hconstant]
    · simp [hmissing, hname, hconstant, Objection.error]
  by_cases hvalue : (Number.float? (trim value)).any Float.isFinite
  · obtain ⟨x, hread, hfinite⟩ := (Option.any_eq_true _ _).mp hvalue
    have hkept : finite? (trim value) = some x := Option.filter_eq_some_iff.mpr ⟨hread, hfinite⟩
    refine .inr ⟨x, ?_, hkept, ?_⟩
    · simp [Objection.applies, hmissing, hname, hconstant, hread, hfinite]
    · simp [hmissing, hname, hconstant, hkept]
  · have hnone : finite? (trim value) = none :=
      Option.filter_eq_none_iff.mpr fun x hx hfinite =>
        hvalue (by rw [hx]; exact hfinite)
    refine .inl ⟨.badValue, ?_, ?_⟩
    · simp [Objection.applies, hmissing, hname, hconstant, hvalue]
    · simp [hmissing, hname, hconstant, hnone, Objection.error]

/-- The name of a constant is refused before its value is read. -/
example : firstObjection " Pi " "inf" = some .constant := by decide +kernel

theorem check_eq_ok {name value : String} {p : String × Float} (h : check name value = .ok p) :
    p.1 = variableName name ∧ isVariableName p.1 ∧ p.1 ∉ constantNames ∧
      finite? (trim value) = some p.2 := by
  rcases check_cases name value with ⟨o, -, hcheck⟩ | ⟨x, hnone, hx, hcheck⟩
  · rw [hcheck] at h
    cases h
  · rw [hcheck] at h
    obtain rfl := Except.ok.inj h
    have hgood := List.find?_eq_none.mp hnone
    have hname := hgood .badName (by simp)
    have hconstant := hgood .constant (by simp)
    exact ⟨rfl, by simpa [Objection.applies] using hname,
      by simpa [Objection.applies] using hconstant, hx⟩

theorem isFinite_of_finite? {text : String} {x : Float} (h : finite? text = some x) :
    x.isFinite := (Option.filter_eq_some_iff.mp h).2

theorem Objection.kind_error (o : Objection) : o.error.kind = .variable := by
  cases o <;> rfl

/-! ## Outcomes of calls -/

namespace Keeping

variable {ε ε' α β : Type} {r : Registers}

theorem on_get_bind (f : Registers → Keeping ε α) : (get >>= f).on r = (f r).on r := rfl

theorem on_throw (e : ε) : (throw e : Keeping ε α).on r = (.error e, r) := rfl

theorem on_modify (f : Registers → Registers) :
    (modify f : Keeping ε PUnit).on r = (.ok (), f r) := rfl

theorem on_bind_of_ok {c : Keeping ε α} {a : α} {r' : Registers} (h : c.on r = (.ok a, r'))
    (f : α → Keeping ε β) : (c >>= f).on r = (f a).on r' := by
  change (ExceptT.bindCont f (c.on r).1).run (c.on r).2 = _
  rw [h]
  rfl

theorem on_bind_of_error {c : Keeping ε α} {e : ε} {r' : Registers} (h : c.on r = (.error e, r'))
    (f : α → Keeping ε β) : (c >>= f).on r = (.error e, r') := by
  change (ExceptT.bindCont f (c.on r).1).run (c.on r).2 = _
  rw [h]
  rfl

theorem on_adapt (f : ε → ε') (c : Keeping ε α) :
    Keeping.on (ExceptT.adapt f c) r = ((c.on r).1.mapError f, (c.on r).2) := rfl

theorem on_textOf (d : Datum) : (textOf d).on r = (d.toText.mapError CallFault.datum, r) := by
  rw [textOf]
  cases d.toText <;> rfl

end Keeping

section

variable {name value : String} {r : Registers}

theorem keep_on_of_error {e : Error} (h : check name value = .error e) :
    (keep name value).on r = (.error e, r) := by
  simp only [keep, h]
  rfl

theorem keep_on_of_ok {n : String} {x : Float} (h : check name value = .ok (n, x)) :
    (keep name value).on r = (.ok n, ⟨r.bindings.insert n x⟩) := by
  simp only [keep, h]
  rfl

/-- A variable is refused for the first objection, and the registers stay as they are, or it is kept
under its normal name. -/
theorem keep_cases (name value : String) (r : Registers) :
    (∃ o, firstObjection name value = some o ∧ (keep name value).on r = (.error o.error, r)) ∨
      ∃ x, firstObjection name value = none ∧ finite? (trim value) = some x ∧
        isVariableName (variableName name) ∧ variableName name ∉ constantNames ∧
        (keep name value).on r = (.ok (variableName name),
          ⟨r.bindings.insert (variableName name) x⟩) := by
  rcases check_cases name value with ⟨o, ho, hcheck⟩ | ⟨x, ho, hx, hcheck⟩
  · exact .inl ⟨o, ho, keep_on_of_error hcheck⟩
  · obtain ⟨-, hname, hconstant, -⟩ := check_eq_ok hcheck
    exact .inr ⟨x, ho, hx, hname, hconstant, keep_on_of_ok hcheck⟩

theorem forget_on (name : String) (r : Registers) :
    (forget name).on r =
      if variableName name ∈ r.names then (.ok (), ⟨r.bindings.erase (variableName name)⟩)
      else (.error (.unknownVariable (variableName name)), r) := by
  simp only [forget, Keeping.on_get_bind]
  split
  · next x hx =>
    have hname : variableName name ∈ r.names := Bindings.mem_names_of_find? hx
    rw [Keeping.on_modify, if_pos hname]
  · next hnone =>
    have hname : variableName name ∉ r.names := Bindings.find?_eq_none_iff.mp hnone
    rw [Keeping.on_throw, if_neg hname]

end

/-! ## Loose names and values -/

section

variable {name value : Datum} {n v : String} {r : Registers}

theorem store_on (hn : name.toText = .ok n) (hv : value.toText = .ok v) :
    (store name value).on r =
      (((keep n v).on r).1.mapError CallFault.report, ((keep n v).on r).2) := by
  have hname : (textOf name).on r = (.ok n, r) := by rw [Keeping.on_textOf, hn]; rfl
  have hvalue : (textOf value).on r = (.ok v, r) := by rw [Keeping.on_textOf, hv]; rfl
  rw [store, Keeping.on_bind_of_ok hname, Keeping.on_bind_of_ok hvalue, Keeping.on_adapt]

/-- A name or a value without a text fails the call, the name first. -/
theorem store_on_of_fault {fault : DatumFault}
    (h : name.toText = .error fault ∨ (∃ n, name.toText = .ok n) ∧ value.toText = .error fault) :
    (store name value).on r = (.error (.datum fault), r) := by
  rcases h with hn | ⟨⟨n, hn⟩, hv⟩
  · have hname : (textOf name).on r = (.error (.datum fault), r) := by
      rw [Keeping.on_textOf, hn]
      rfl
    rw [store, Keeping.on_bind_of_error hname]
  · have hname : (textOf name).on r = (.ok n, r) := by rw [Keeping.on_textOf, hn]; rfl
    have hvalue : (textOf value).on r = (.error (.datum fault), r) := by
      rw [Keeping.on_textOf, hv]
      rfl
    rw [store, Keeping.on_bind_of_ok hname, Keeping.on_bind_of_error hvalue]

theorem remove_on (hn : name.toText = .ok n) :
    (remove name).on r =
      (((forget n).on r).1.mapError CallFault.report, ((forget n).on r).2) := by
  have hname : (textOf name).on r = (.ok n, r) := by rw [Keeping.on_textOf, hn]; rfl
  rw [remove, Keeping.on_bind_of_ok hname, Keeping.on_adapt]

theorem remove_on_of_fault {fault : DatumFault} (h : name.toText = .error fault) :
    (remove name).on r = (.error (.datum fault), r) := by
  have hname : (textOf name).on r = (.error (.datum fault), r) := by
    rw [Keeping.on_textOf, h]
    rfl
  rw [remove, Keeping.on_bind_of_error hname]

/-- Either both texts can be had, or the call fails with the fault of the first that cannot. -/
theorem texts_cases (name value : Datum) :
    (∃ n v, name.toText = .ok n ∧ value.toText = .ok v) ∨
      ∃ fault, name.toText = .error fault ∨
        (∃ n, name.toText = .ok n) ∧ value.toText = .error fault := by
  cases hn : name.toText with
  | error fault => exact .inr ⟨fault, .inl rfl⟩
  | ok n =>
    cases hv : value.toText with
    | error fault => exact .inr ⟨fault, .inr ⟨⟨n, rfl⟩, rfl⟩⟩
    | ok v => exact .inl ⟨n, v, rfl, rfl⟩

end

/-! ## Calls -/

/-- A call that keeps or forgets a variable. -/
inductive Call where
  | store (name value : Datum)
  | remove (name : Datum)
deriving DecidableEq

/-- The name of the variable that a call is about, if it has a text. -/
def Call.target? : Call → Option String
  | store name _ | remove name => name.toText.toOption.map variableName

/-- The registers behind a call. -/
def perform (r : Registers) : Call → Registers
  | .store name value => ((store name value).on r).2
  | .remove name => ((remove name).on r).2

/-- The registers behind calls, one after the other. -/
def performAll (r : Registers) (calls : List Call) : Registers := calls.foldl perform r

theorem target?_of_toText {name : Datum} {n : String} (h : name.toText = .ok n) :
    name.toText.toOption.map variableName = some (variableName n) := by
  rw [h]
  rfl

/-- A call leaves the registers as they are, or keeps its variable, or forgets it. -/
theorem perform_cases (r : Registers) (c : Call) :
    r.perform c = r ∨
      (∃ n x, c.target? = some n ∧ isVariableName n ∧ n ∉ constantNames ∧ x.isFinite ∧
        r.perform c = ⟨r.bindings.insert n x⟩) ∨
      ∃ n, c.target? = some n ∧ r.perform c = ⟨r.bindings.erase n⟩ := by
  cases c with
  | store name value =>
    rw [perform, Call.target?]
    rcases texts_cases name value with ⟨n, v, hn, hv⟩ | ⟨fault, hfault⟩
    · rw [store_on hn hv, target?_of_toText hn]
      rcases keep_cases n v r with ⟨o, -, hkeep⟩ | ⟨x, -, hx, hname, hconstant, hkeep⟩
      · exact .inl (congrArg Prod.snd hkeep)
      · exact .inr (.inl ⟨_, x, rfl, hname, hconstant, isFinite_of_finite? hx,
          congrArg Prod.snd hkeep⟩)
    · exact .inl (congrArg Prod.snd (store_on_of_fault hfault))
  | remove name =>
    rw [perform, Call.target?]
    cases hn : name.toText with
    | error fault => exact .inl (congrArg Prod.snd (remove_on_of_fault hn))
    | ok n =>
      rw [remove_on hn, forget_on]
      split
      · exact .inr (.inr ⟨_, rfl, rfl⟩)
      · exact .inl rfl

/-- A call that succeeds keeps the value of its text under the normal name. -/
theorem store_eq_ok {name value : Datum} {r r' : Registers} {n : String}
    (h : (store name value).on r = (.ok n, r')) :
    ∃ m v x, name.toText = .ok m ∧ value.toText = .ok v ∧ n = variableName m ∧
      isVariableName n ∧ n ∉ constantNames ∧ finite? (trim v) = some x ∧
      r' = ⟨r.bindings.insert n x⟩ := by
  rcases texts_cases name value with ⟨m, v, hm, hv⟩ | ⟨fault, hfault⟩
  · rw [store_on hm hv] at h
    rcases keep_cases m v r with ⟨o, -, hkeep⟩ | ⟨x, -, hx, hname, hconstant, hkeep⟩
    · rw [hkeep] at h
      cases h
    · rw [hkeep] at h
      obtain ⟨hn, rfl⟩ := Prod.mk.inj h
      obtain rfl := Except.ok.inj hn
      exact ⟨m, v, x, hm, hv, rfl, hname, hconstant, hx, rfl⟩
  · rw [store_on_of_fault hfault] at h
    cases h

/-! ## What calls keep -/

/-- The names are distinct, in lower case and no constant's, and the values are finite. -/
structure Kept (r : Registers) : Prop where
  nodup : r.names.Nodup
  isVariableName : ∀ n ∈ r.names, isVariableName n
  not_constant : ∀ n ∈ r.names, n ∉ constantNames
  isFinite : ∀ p ∈ r.bindings.pairs, p.2.isFinite

theorem kept_empty : Kept {} := by
  refine ⟨List.nodup_nil, ?_, ?_, ?_⟩ <;> intro n hn <;> cases hn

theorem Kept.insert {r : Registers} (hr : r.Kept) {n : String} {x : Float}
    (hn : Calculator.isVariableName n) (hc : n ∉ constantNames) (hx : x.isFinite) :
    Kept ⟨r.bindings.insert n x⟩ := by
  refine ⟨Bindings.nodup_names_insert hr.nodup n x, fun m hm => ?_, fun m hm => ?_,
    fun p hp => ?_⟩
  · rcases Bindings.mem_names_insert hm with rfl | hm
    · exact hn
    · exact hr.isVariableName m hm
  · rcases Bindings.mem_names_insert hm with rfl | hm
    · exact hc
    · exact hr.not_constant m hm
  · rcases Bindings.mem_insertPair hp with rfl | hp
    · exact hx
    · exact hr.isFinite p hp

theorem Kept.erase {r : Registers} (hr : r.Kept) (n : String) :
    Kept ⟨r.bindings.erase n⟩ := by
  have hsub := Bindings.names_erase_sublist r.bindings n
  exact ⟨hr.nodup.sublist hsub, fun m hm => hr.isVariableName m (hsub.subset hm),
    fun m hm => hr.not_constant m (hsub.subset hm),
    fun p hp => hr.isFinite p (List.filter_sublist.subset hp)⟩

theorem Kept.keep {r : Registers} (hr : r.Kept) (name value : String) :
    Kept ((Registers.keep name value).on r).2 := by
  rcases keep_cases name value r with ⟨o, -, hkeep⟩ | ⟨x, -, hx, hname, hconstant, hkeep⟩
  · rw [hkeep]
    exact hr
  · rw [hkeep]
    exact hr.insert hname hconstant (isFinite_of_finite? hx)

theorem Kept.forget {r : Registers} (hr : r.Kept) (name : String) :
    Kept ((Registers.forget name).on r).2 := by
  rw [forget_on]
  split
  · exact hr.erase _
  · exact hr

theorem Kept.perform {r : Registers} (hr : r.Kept) (c : Call) : (r.perform c).Kept := by
  rcases r.perform_cases c with h | ⟨n, x, -, hn, hc, hx, h⟩ | ⟨n, -, h⟩
  · rw [h]
    exact hr
  · rw [h]
    exact hr.insert hn hc hx
  · rw [h]
    exact hr.erase n

theorem Kept.store {r r' : Registers} {name value : Datum} {outcome : Except CallFault String}
    (hr : r.Kept) (h : (Registers.store name value).on r = (outcome, r')) : r'.Kept := by
  have hperform := hr.perform (.store name value)
  rwa [Registers.perform, h] at hperform

theorem Kept.performAll {r : Registers} (hr : r.Kept) (calls : List Call) :
    (r.performAll calls).Kept := by
  induction calls generalizing r with
  | nil => exact hr
  | cons c calls ih => exact ih (hr.perform c)

/-- Registers that start empty are kept in order by whatever calls. -/
theorem kept_performAll (calls : List Call) : (performAll {} calls).Kept :=
  kept_empty.performAll calls

/-! ## Other names -/

theorem get?_perform_of_ne {r : Registers} {c : Call} {n : String} (h : c.target? ≠ some n) :
    (r.perform c).get? n = r.get? n := by
  have hne : ∀ m, c.target? = some m → n ≠ m := by
    rintro m hm rfl
    exact h hm
  rcases r.perform_cases c with hp | ⟨m, x, hm, -, -, -, hp⟩ | ⟨m, hm, hp⟩
  · rw [hp]
  · rw [hp, get?, find?_insert, if_neg (hne m hm), get?]
  · rw [hp, get?, Bindings.find?_erase_of_ne (hne m hm), get?]

/-- Calls about other names leave the value of a name as it is. -/
theorem get?_performAll {calls : List Call} {n : String} (h : ∀ c ∈ calls, c.target? ≠ some n)
    (r : Registers) : (r.performAll calls).get? n = r.get? n := by
  induction calls generalizing r with
  | nil => rfl
  | cons c calls ih =>
    have hc : c.target? ≠ some n := h c List.mem_cons_self
    have hcalls : ∀ d ∈ calls, d.target? ≠ some n := fun d hd => h d (List.mem_cons_of_mem c hd)
    exact (ih hcalls (r.perform c)).trans (get?_perform_of_ne hc)

/-! ## Scopes of variables -/

/-- New names in lower case are put behind the others. -/
theorem foldlM_overlay_of_new {ps : List (String × Float)} (hnodup : (ps.map Prod.fst).Nodup)
    (hlower : ∀ n ∈ ps.map Prod.fst, toLower n = n) :
    ∀ {b : Bindings}, (∀ n ∈ ps.map Prod.fst, n ∉ b.names) →
      (⟨ps⟩ : Bindings).definitions.foldlM overlay b = .ok ⟨b.pairs ++ ps⟩ := by
  induction ps with
  | nil =>
    intro b hnew
    rw [List.append_nil]
    rfl
  | cons p ps ih =>
    intro b hnew
    obtain ⟨name, x⟩ := p
    obtain ⟨hname, hps⟩ := List.nodup_cons.mp hnodup
    have hfirst : overlay b (name, .real x) = .ok ⟨b.pairs ++ [(name, x)]⟩ := by
      have hl : toLower name = name := hlower name List.mem_cons_self
      have hb : name ∉ b.names := hnew name List.mem_cons_self
      rw [overlay, hl, ← Bindings.insert_of_not_mem hb]
      rfl
    have hrest : ∀ n ∈ ps.map Prod.fst, n ∉ (⟨b.pairs ++ [(name, x)]⟩ : Bindings).names := by
      intro n hn hmem
      rw [Bindings.names, List.map_append] at hmem
      rcases List.mem_append.mp hmem with hmem | hmem
      · exact hnew n (List.mem_cons_of_mem name hn) hmem
      · rw [List.mem_singleton.mp hmem] at hn
        exact hname hn
    have hih := ih hps (fun n hn => hlower n (List.mem_cons_of_mem name hn)) hrest
    rw [List.append_assoc] at hih
    rw [Bindings.definitions, List.map_cons, List.foldlM_cons, hfirst]
    exact hih

/-- The scope holds the constants, and then the variables as they are. -/
theorem Kept.scopeOf_definitions {r : Registers} (hr : r.Kept) :
    scopeOf r.definitions = .ok ⟨constants.pairs ++ r.bindings.pairs⟩ :=
  foldlM_overlay_of_new hr.nodup
    (fun n hn => toLower_of_isVariableName (hr.isVariableName n hn)) hr.not_constant

theorem Kept.get?_isVariableName {r : Registers} (hr : r.Kept) {n : String} {x : Float}
    (h : r.get? n = some x) : Calculator.isVariableName n ∧ n ∉ constantNames := by
  have hn : n ∈ r.names := Bindings.mem_names_of_find? h
  exact ⟨hr.isVariableName n hn, hr.not_constant n hn⟩

end Registers

end Calculator
