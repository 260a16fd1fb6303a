import Calculator.Scope
import Calculator.Proofs.Reading
import Calculator.Proofs.Spelling

/-!
# Scopes of definitions

* `FirstRefused`: a definition without a float, behind definitions that have one.
* `scopeOf_eq_error_iff`: the scope cannot be built exactly if there is such a definition.
* `exists_scopeOf`: floats always make a scope.
* `find?_scopeOf_append`: a float that is defined last is what its name stands for.
* `toLower_of_isWord`: the lower case of a name of lexemes.
-/
set_option autoImplicit false

namespace Calculator

/-! ## Definitions without a float -/

/-- The first definition without a float fails with the given fault. -/
def FirstRefused (definitions : Definitions) (fault : DatumFault) : Prop :=
  ∃ before d behind, definitions = before ++ d :: behind ∧
    (∀ q ∈ before, ∃ x, q.2.toFloat = .ok x) ∧ d.2.toFloat = .error fault

theorem not_firstRefused_nil (fault : DatumFault) : ¬ FirstRefused [] fault := by
  rintro ⟨before, d, behind, h, _⟩
  simp at h

theorem firstRefused_cons_of_error {d : String × Datum} {ds : Definitions} {e : DatumFault}
    (h : d.2.toFloat = .error e) (fault : DatumFault) :
    FirstRefused (d :: ds) fault ↔ e = fault := by
  constructor
  · rintro ⟨before, d', behind, hs, hb, hd⟩
    cases before with
    | nil =>
      cases hs
      rw [h] at hd
      exact Except.error.inj hd
    | cons q before =>
      cases hs
      obtain ⟨x, hx⟩ := hb d List.mem_cons_self
      rw [h] at hx
      cases hx
  · rintro rfl
    exact ⟨[], d, ds, rfl, by simp, h⟩

theorem firstRefused_cons_of_ok {d : String × Datum} {ds : Definitions} {x : Float}
    (h : d.2.toFloat = .ok x) (fault : DatumFault) :
    FirstRefused (d :: ds) fault ↔ FirstRefused ds fault := by
  constructor
  · rintro ⟨before, d', behind, hs, hb, hd⟩
    cases before with
    | nil =>
      cases hs
      rw [h] at hd
      cases hd
    | cons q before =>
      cases hs
      exact ⟨before, d', behind, rfl, fun q hq => hb q (List.mem_cons_of_mem d hq), hd⟩
  · rintro ⟨before, d', behind, rfl, hb, hd⟩
    refine ⟨d :: before, d', behind, rfl, fun q hq => ?_, hd⟩
    rcases List.mem_cons.mp hq with rfl | hq
    · exact ⟨x, h⟩
    · exact hb q hq

theorem foldlM_overlay_eq_error_iff {ds : Definitions} {fault : DatumFault} :
    ∀ {scope : Bindings}, ds.foldlM overlay scope = .error fault ↔ FirstRefused ds fault := by
  induction ds with
  | nil =>
    intro scope
    exact ⟨fun h => (by cases h), fun h => absurd h (not_firstRefused_nil fault)⟩
  | cons d ds ih =>
    intro scope
    rw [List.foldlM_cons]
    cases h : d.2.toFloat with
    | error e =>
      rw [firstRefused_cons_of_error h]
      simp [overlay, h, Except.map, bind, Except.bind]
    | ok x =>
      rw [firstRefused_cons_of_ok h]
      simp only [overlay, h, Except.map, bind, Except.bind]
      exact ih

/-- The scope cannot be built exactly if a definition has no float, and the first one counts. -/
theorem scopeOf_eq_error_iff {ds : Definitions} {fault : DatumFault} :
    scopeOf ds = .error fault ↔ FirstRefused ds fault :=
  foldlM_overlay_eq_error_iff

/-! ## Floats -/

theorem exists_foldlM_overlay (b : Bindings) :
    ∀ scope, ∃ scope', b.definitions.foldlM overlay scope = .ok scope' := by
  obtain ⟨pairs⟩ := b
  induction pairs with
  | nil => exact fun scope => ⟨scope, rfl⟩
  | cons p pairs ih =>
    intro scope
    obtain ⟨scope', h⟩ := ih (scope.insert (Text.toLower p.1) p.2)
    exact ⟨scope', h⟩

theorem exists_scopeOf (b : Bindings) : ∃ scope, scopeOf b.definitions = .ok scope :=
  exists_foldlM_overlay b constants

theorem lookup_cons_of_ne {m n : String} (h : n ≠ m) (y : Float) (ps : List (String × Float)) :
    ((m, y) :: ps).lookup n = ps.lookup n := by
  have hne : (n == m) = false := by simpa using h
  rw [List.lookup_cons, hne]

theorem lookup_insertPair (name : String) (x : Float) (ps : List (String × Float)) (n : String) :
    (Bindings.insertPair name x ps).lookup n = if n = name then some x else ps.lookup n := by
  induction ps with
  | nil =>
    by_cases hn : n = name
    · simp [Bindings.insertPair, hn]
    · rw [Bindings.insertPair, lookup_cons_of_ne hn, if_neg hn]
  | cons p ps ih =>
    obtain ⟨m, y⟩ := p
    rw [Bindings.insertPair]
    by_cases hm : m = name
    · subst hm
      by_cases hn : n = m
      · simp [hn]
      · rw [if_pos rfl, lookup_cons_of_ne hn, if_neg hn, lookup_cons_of_ne hn]
    · rw [if_neg hm]
      by_cases hn : n = m
      · simp [hn, hm]
      · rw [lookup_cons_of_ne hn, ih, lookup_cons_of_ne hn]

theorem find?_insert (b : Bindings) (name : String) (x : Float) (n : String) :
    (b.insert name x).find? n = if n = name then some x else b.find? n :=
  lookup_insertPair name x b.pairs n

/-- A float that is defined last is what its name stands for. -/
theorem find?_scopeOf_append {b : Bindings} {scope : Bindings} (name : String) (x : Float)
    (h : scopeOf b.definitions = .ok scope) :
    ∃ scope', scopeOf (⟨b.pairs ++ [(name, x)]⟩ : Bindings).definitions = .ok scope' ∧
      ∀ n, scope'.find? n = if n = Text.toLower name then some x else scope.find? n := by
  refine ⟨scope.insert (Text.toLower name) x, ?_, find?_insert scope _ x⟩
  rw [scopeOf] at h
  rw [scopeOf, Bindings.definitions, List.map_append, List.foldlM_append]
  rw [Bindings.definitions] at h
  rw [h]
  rfl

/-! ## Names in small letters -/

/-- The first run of capitals holds those of ASCII, and no other one starts among these. -/
theorem lowerChar_of_lt {c : Char} (h : c.toNat < 128) : Text.lowerChar c = c.toLower := by
  have hruns : Text.lowerRuns = ⟨0x41, 0x5A, 1, 32⟩ :: Text.lowerRuns.tail := rfl
  have hfirst : ∀ r ∈ Text.lowerRuns.tail, 128 ≤ r.first := by decide +kernel
  have hrest : Text.lowerRuns.tail.find? (·.contains c.toNat) = none := by
    refine List.find?_eq_none.mpr fun r hr => ?_
    have hr' := hfirst r hr
    simp [Text.CaseRun.contains]
    omega
  have hc : Char.ofNat (if 65 ≤ c.toNat ∧ c.toNat ≤ 90 then c.toNat + 32 else c.toNat) =
      c.toLower :=
    forall_char_of_lt (P := fun c =>
      Char.ofNat (if 65 ≤ c.toNat ∧ c.toNat ≤ 90 then c.toNat + 32 else c.toNat) = c.toLower)
      (by decide) h
  rw [← hc, Text.lowerChar, hruns, List.find?_cons, hrest]
  by_cases hu : 65 ≤ c.toNat ∧ c.toNat ≤ 90
  · have hin : Text.CaseRun.contains ⟨0x41, 0x5A, 1, 32⟩ c.toNat = true := by
      simp [Text.CaseRun.contains, hu, Nat.mod_one]
    have hshift : ((c.toNat : Int) + 32).toNat = c.toNat + 32 := by omega
    rw [hin, if_pos hu, ← hshift]
  · have hout : Text.CaseRun.contains ⟨0x41, 0x5A, 1, 32⟩ c.toNat = false := by
      simp [Text.CaseRun.contains]
      omega
    rw [hout, if_neg hu, Char.ofNat_toNat]

theorem lowerChars_of_ascii {cs : List Char} (h : ∀ c ∈ cs, c.toNat < 128) :
    ∀ before, Text.lowerChars before cs = cs.map Char.toLower := by
  induction cs with
  | nil => exact fun before => rfl
  | cons c cs ih =>
    intro before
    have hc : c.toNat < 128 := h c List.mem_cons_self
    have hsigma : c ≠ 'Σ' := by
      rintro rfl
      exact absurd hc (by decide)
    have hdot : c ≠ 'İ' := by
      rintro rfl
      exact absurd hc (by decide)
    rw [Text.lowerChars, if_neg hsigma, if_neg hdot, lowerChar_of_lt hc,
      ih fun d hd => h d (List.mem_cons_of_mem c hd)]
    rfl

theorem toLower_of_isWord {x : String} (h : (Lexeme.name x.toList).IsWord) :
    Text.toLower x = smallName x.toList := by
  obtain ⟨c, rest, hx, hc, hrest⟩ := h
  have hascii : ∀ d ∈ x.toList, d.toNat < 128 := by
    intro d hd
    have hname : isNameChar d := by
      rw [hx] at hd
      rcases List.mem_cons.mp hd with rfl | hd
      · exact isNameChar_of_isAlpha hc
      · exact hrest d hd
    have hn := toNat_of_isNameChar hname
    omega
  rw [Text.toLower, lowerChars_of_ascii hascii, smallName]

end Calculator
