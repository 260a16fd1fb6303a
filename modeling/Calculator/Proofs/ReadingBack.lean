import Calculator.Proofs.Faults
import Calculator.Proofs.Variables

/-!
# Variables that are read back

The registers and the lexemes have different notions of a name. The registers know of no functions
and take the long s for a letter, and the lexemes are ASCII with the functions set apart. What a
variable is worth as an expression therefore depends on its name.

* `readPostfix_name`, `readPostfix_of_long_mem`: how the name of a variable is read.
* `Registers.nameOutcome`: what comes of the name of a variable.
* `evaluate_stored`: this is so right behind the call that keeps the variable, and behind any calls
  about other names.
-/
set_option autoImplicit false

namespace Calculator

open Calculator.Text

/-! ## Names as lexemes -/

theorem isWord_of_isVariableName {name : String} (h : isVariableName name)
    (hlong : 'ſ' ∉ name.toList) : (Lexeme.name name.toList).IsWord := by
  have hchars := long_or_small_of_mem h
  unfold isVariableName at h
  split at h
  · cases h
  · next c rest hs =>
    rw [hs] at hlong hchars
    have hc : isVariableLetter c := (Bool.and_eq_true_iff.mp h).1
    have hne : c ≠ 'ſ' := by
      rintro rfl
      exact hlong List.mem_cons_self
    have hlower : c.isLower := by simpa [isVariableLetter, hne] using hc
    refine ⟨c, rest, hs, isAlpha_of_isLower hlower, fun d hd => ?_⟩
    have hd' : d ∈ c :: rest := List.mem_cons_of_mem c hd
    rcases hchars d hd' with rfl | ⟨hn, -⟩
    · exact absurd hd' hlong
    · exact hn

theorem smallName_of_isVariableName {name : String} (h : isVariableName name)
    (hlong : 'ſ' ∉ name.toList) : smallName name.toList = name := by
  have hmap : name.toList.map Char.toLower = name.toList.map id := by
    refine List.map_congr_left fun c hc => ?_
    rcases long_or_small_of_mem h c hc with rfl | ⟨-, hl⟩
    · exact absurd hc hlong
    · exact hl
  rw [smallName, hmap, List.map_id, String.ofList_toList]

theorem scan_name {cs : List Char} (h : (Lexeme.name cs).IsWord) :
    scan cs = ([.name cs], none) :=
  scan_of_spells (spells_singleton h)

theorem toPostfix_ofName (letters : List Char) :
    toPostfix [.ofName letters] = .ok [.ofName letters] := by
  cases hf : Function.ofName? (smallName letters) with
  | none =>
    rw [Token.ofName_of_none hf]
    rfl
  | some f =>
    rw [Token.ofName_of_some hf]
    rfl

/-- A name that is a lexeme is read as one token. -/
theorem readPostfix_name {name : String} (h : (Lexeme.name name.toList).IsWord) :
    readPostfix name = .ok [.ofName name.toList] := by
  have hline : TokenStream.ofLine name = ⟨[.ofName name.toList], none⟩ := by
    rw [TokenStream.ofLine, scan_name h]
    rfl
  rw [readPostfix, TokenStream.all_eq_ok_iff.mpr hline]
  exact toPostfix_ofName name.toList

/-! ## The long s -/

theorem scan_long (cs : List Char) : scan ('ſ' :: cs) = ([], some 'ſ') :=
  scan_stuck cs (by decide) (by decide) (by decide) (by decide)

theorem exists_dropWhile_eq_long {cs : List Char} (h : ∀ c ∈ cs, c = 'ſ' ∨ isNameChar c)
    (hlong : 'ſ' ∈ cs) : ∃ rest, cs.dropWhile isNameChar = 'ſ' :: rest := by
  have hsplit : cs.takeWhile isNameChar ++ cs.dropWhile isNameChar = cs :=
    List.takeWhile_append_dropWhile
  cases hd : cs.dropWhile isNameChar with
  | nil =>
    rw [hd, List.append_nil] at hsplit
    rw [← hsplit] at hlong
    exact absurd (List.all_eq_true.mp List.all_takeWhile _ hlong) (by decide)
  | cons c rest =>
    have hmem : c ∈ cs := by
      rw [← hsplit, hd]
      exact List.mem_append_right _ List.mem_cons_self
    have hc : isNameChar c = false := head?_dropWhile_run isNameChar cs c (by rw [hd]; rfl)
    rcases h c hmem with rfl | hn
    · exact ⟨rest, rfl⟩
    · rw [hc] at hn
      cases hn

/-- A name with a long s is read up to the first one, at which no lexeme starts. -/
theorem readPostfix_of_long_mem {name : String} (h : isVariableName name)
    (hlong : 'ſ' ∈ name.toList) :
    readPostfix name = .error (.report (.unsupportedCharacter 'ſ')) := by
  have hchars : ∀ c ∈ name.toList, c = 'ſ' ∨ isNameChar c :=
    fun c hc => (long_or_small_of_mem h c hc).imp_right And.left
  have hall : (TokenStream.ofLine name).all = .error (.report (.unsupportedCharacter 'ſ')) := by
    rw [TokenStream.all_eq_error_iff, TokenStream.ofLine]
    unfold isVariableName at h
    split at h
    · cases h
    · next c rest hs =>
      rw [hs] at hchars hlong ⊢
      by_cases hc : c = 'ſ'
      · rw [hc, scan_long]
        rfl
      · have hrest : 'ſ' ∈ rest := (List.mem_cons.mp hlong).resolve_left (Ne.symm hc)
        have hletter : isVariableLetter c := (Bool.and_eq_true_iff.mp h).1
        have halpha : c.isAlpha :=
          isAlpha_of_isLower (by simpa [isVariableLetter, hc] using hletter)
        obtain ⟨behind, hb⟩ := exists_dropWhile_eq_long
          (fun d hd => hchars d (List.mem_cons_of_mem c hd)) hrest
        rw [scan, hb, scan_long]
        simp [isBlank_of_isAlpha halpha, isNumeralChar_of_isAlpha halpha, halpha,
          TokenStream.ofLexemes, TokenStream.after, Token.ofLexeme]
  rw [readPostfix, hall]

/-! ## Values of names -/

/-- What comes of the name of a variable with the given value. -/
def Registers.nameOutcome (name : String) (x : Float) : Except Error Float :=
  if 'ſ' ∈ name.toList then .error (.unsupportedCharacter 'ſ')
  else if (Function.ofName? name).isSome then .error .missingArgument
  else .ok x

theorem runPostfix_name {letters : List Char} {scope : Bindings} {x : Float}
    (hx : scope.find? (smallName letters) = some x) :
    runPostfix scope [.ofName letters] =
      .ok (if (Function.ofName? (smallName letters)).isSome then .error .missingArgument
        else .ok x) := by
  cases hf : Function.ofName? (smallName letters) with
  | none =>
    rw [Token.ofName_of_none hf]
    refine runPostfix_of_run_eq_ok (StackMachine.run_eq_ok_iff.mpr ?_)
    rw [StackMachine.feedAll_cons]
    simp only [StackMachine.feed, StackMachine.load, hx]
    rfl
  | some f =>
    rw [Token.ofName_of_some hf]
    rfl

/-- The constants do not hide a variable. -/
theorem Registers.Kept.find?_scope {r : Registers} (hr : r.Kept) {name : String} {x : Float}
    (hx : r.get? name = some x) :
    (⟨constants.pairs ++ r.bindings.pairs⟩ : Bindings).find? name = some x := by
  have hconst := (hr.get?_isVariableName hx).2
  have hnone : constants.find? name = none := by
    refine List.lookup_eq_none_iff.mpr fun p hp => ?_
    have hp' : p.1 ∈ constantNames := List.mem_map_of_mem hp
    have hne : name ≠ p.1 := fun he => hconst (he ▸ hp')
    simpa using hne
  rw [Bindings.find?_append, hnone, Option.none_or]
  exact hx

theorem evaluate_variable {r : Registers} (hr : r.Kept) {name : String} {x : Float}
    (hx : r.get? name = some x) (precision : Int) :
    evaluate name r.definitions precision =
      .ok ⟨name, Registers.nameOutcome name x, precision⟩ := by
  have hname := (hr.get?_isVariableName hx).1
  have htrim : trim name = name := trim_of_isVariableName hname
  have hne : trim name ≠ "" := fun he => ne_empty_of_isVariableName hname (htrim.symm.trans he)
  unfold Registers.nameOutcome
  by_cases hlong : 'ſ' ∈ name.toList
  · have hread := (congrArg readPostfix htrim).trans (readPostfix_of_long_mem hname hlong)
    have h := evaluate_of_malformed hne hread r.definitions precision
    rw [htrim] at h
    rw [h, if_pos hlong]
  · have hsmall := smallName_of_isVariableName hname hlong
    have hread := (congrArg readPostfix htrim).trans
      (readPostfix_name (isWord_of_isVariableName hname hlong))
    have hscope : (⟨constants.pairs ++ r.bindings.pairs⟩ : Bindings).find?
        (smallName name.toList) = some x := by
      rw [hsmall]
      exact hr.find?_scope hx
    have hrun := runPostfix_name hscope
    have h := evaluate_of_readPostfix hne hread hr.scopeOf_definitions hrun precision
    rw [htrim, hsmall] at h
    rw [h, if_neg hlong]

/-- A variable that is kept has the value that its text denotes, and it still has it behind calls
about other names. Its name, evaluated, is worth this value, unless it is the name of a function or
has a long s in it. -/
theorem evaluate_stored {calls later : List Registers.Call} {name value : Datum} {n : String}
    {r : Registers}
    (h : (Registers.store name value).on (Registers.performAll {} calls) = (.ok n, r))
    (hlater : ∀ c ∈ later, c.target? ≠ some n) (precision : Int) :
    ∃ v x, value.toText = .ok v ∧ Registers.finite? (trim v) = some x ∧ r.get? n = some x ∧
      (r.performAll later).get? n = some x ∧
      evaluate n r.definitions precision = .ok ⟨n, Registers.nameOutcome n x, precision⟩ ∧
      evaluate n (r.performAll later).definitions precision =
        .ok ⟨n, Registers.nameOutcome n x, precision⟩ := by
  have hkept : r.Kept := (Registers.kept_performAll calls).store h
  obtain ⟨m, v, x, -, hv, -, -, -, hx, hr⟩ := Registers.store_eq_ok h
  have hget : r.get? n = some x := by
    rw [hr, Registers.get?, find?_insert, if_pos rfl]
  have hget' : (r.performAll later).get? n = some x := by
    rw [Registers.get?_performAll hlater, hget]
  exact ⟨v, x, hv, hx, hget, hget', evaluate_variable hkept hget precision,
    evaluate_variable (hkept.performAll later) hget' precision⟩

/-- A variable in another spelling, behind which another one is bound again and forgotten. -/
theorem evaluate_stored_rate : ∃ r x,
    (Registers.store (.text " Rate ") (.text "1_0")).on
        (Registers.performAll {} [.store (.text "x") (.integer 3)]) = (.ok "rate", r) ∧
    evaluate "rate" (r.performAll [.store (.text "X") (.text "4"), .remove (.text "x")]).definitions
      2 = .ok ⟨"rate", .ok x, 2⟩ ∧ x = 10 := by
  have h : (Registers.store (.text " Rate ") (.text "1_0")).on
      (Registers.performAll {} [.store (.text "x") (.integer 3)]) =
        (.ok "rate", ⟨⟨[("x", 3), ("rate", 10)]⟩⟩) := by with_unfolding_all rfl
  have hlater : ∀ c ∈ [Registers.Call.store (.text "X") (.text "4"), .remove (.text "x")],
      c.target? ≠ some "rate" := by decide +kernel
  obtain ⟨v, x, hv, hx, -, -, -, he⟩ := evaluate_stored h hlater 2
  obtain rfl := Except.ok.inj hv
  have hten : Registers.finite? (trim "1_0") = some 10 := by decide +kernel
  have hname : Registers.nameOutcome "rate" x = .ok x := rfl
  rw [hname] at he
  exact ⟨_, x, h, he, Option.some.inj (hx.symm.trans hten)⟩

/-- A variable with the name of a function is kept and cannot be read back, and neither can one with
a long s. -/
theorem evaluate_stored_unreadable :
    (∃ r, (Registers.store (.text "sin") (.text "5")).on {} = (.ok "sin", r) ∧
      r.get? "sin" = some 5 ∧
      evaluate "sin" r.definitions 4 = .ok ⟨"sin", .error .missingArgument, 4⟩) ∧
    ∃ r, (Registers.store (.text "ſ") (.text "5")).on {} = (.ok "ſ", r) ∧ r.get? "ſ" = some 5 ∧
      evaluate "ſ" r.definitions 4 = .ok ⟨"ſ", .error (.unsupportedCharacter 'ſ'), 4⟩ := by
  have hsin : (Registers.store (.text "sin") (.text "5")).on {} =
      (.ok "sin", ⟨⟨[("sin", 5)]⟩⟩) := by
    with_unfolding_all rfl
  have hlong : (Registers.store (.text "ſ") (.text "5")).on {} = (.ok "ſ", ⟨⟨[("ſ", 5)]⟩⟩) := by
    with_unfolding_all rfl
  have hksin := Registers.kept_empty.store hsin
  have hklong := Registers.kept_empty.store hlong
  exact ⟨⟨_, hsin, rfl, evaluate_variable hksin rfl 4⟩,
    ⟨_, hlong, rfl, evaluate_variable hklong rfl 4⟩⟩

end Calculator
