import Calculator.Proofs.Variables

/-!
# Keeping and forgetting by name

Calls on registers are refused without a trace or change the entry of one name, however the name is
spelled.

* `keep_eq_error_iff`, `keep_eq_ok_iff`: what a call does.
* `store_eq_error_iff`, `store_eq_ok_iff`, `remove_on_ite`: the same for loose names and values.
* `store_effect`: what a call does does not depend on the registers.
* `Answers`, `answers_performAll`: what holds of every call behind any calls.
-/
set_option autoImplicit false

namespace Calculator

open Calculator.Text

/-! ## Entries -/

namespace Bindings

theorem insertPair_of_mem {name : String} {ps : List (String × Float)}
    (hnodup : (ps.map Prod.fst).Nodup) (h : name ∈ ps.map Prod.fst) (x : Float) :
    insertPair name x ps = ps.map fun p => if p.1 = name then (name, x) else p := by
  induction ps with
  | nil => cases h
  | cons q ps ih =>
    obtain ⟨hq, hps⟩ := List.nodup_cons.mp hnodup
    rw [insertPair, List.map_cons]
    by_cases hname : q.1 = name
    · -- No other pair has the name.
      have hrest : ps.map (fun p => if p.1 = name then (name, x) else p) = ps.map id := by
        refine List.map_congr_left fun p hp => if_neg fun hp' => hq ?_
        exact hname.trans hp'.symm ▸ List.mem_map_of_mem hp
      rw [if_pos hname, if_pos hname, hrest, List.map_id]
    · rw [if_neg hname, if_neg hname, ih hps ((List.mem_cons.mp h).resolve_left (Ne.symm hname))]

theorem insert_comm_find? {m n : String} (h : m ≠ n) (b : Bindings) (x y : Float) (k : String) :
    ((b.insert m x).insert n y).find? k = ((b.insert n y).insert m x).find? k := by
  rw [find?_insert, find?_insert, find?_insert, find?_insert]
  by_cases hm : k = m
  · have hn : k ≠ n := hm ▸ h
    rw [if_neg hn, if_neg hn]
  · rw [if_neg hm, if_neg hm]

theorem erase_of_not_mem {b : Bindings} {name : String} (h : name ∉ b.names) : b.erase name = b := by
  refine congrArg mk (List.filter_eq_self.mpr fun p hp => decide_eq_true ?_)
  rintro rfl
  exact h (List.mem_map_of_mem hp)

end Bindings

namespace Registers

/-! ## Calls -/

theorem keep_eq_error_iff {name value : String} {r r' : Registers} {e : Error} :
    (keep name value).on r = (.error e, r') ↔
      r' = r ∧ ∃ o, firstObjection name value = some o ∧ e = o.error := by
  rcases keep_cases name value r with ⟨o, ho, hkeep⟩ | ⟨x, ho, -, -, -, hkeep⟩
  · rw [hkeep, ho, Prod.mk.injEq, Except.error.injEq]
    constructor
    · rintro ⟨rfl, rfl⟩
      exact ⟨rfl, o, rfl, rfl⟩
    · rintro ⟨rfl, o', ho', rfl⟩
      rw [Option.some.inj ho']
      exact ⟨rfl, rfl⟩
  · rw [hkeep, ho]
    simp

theorem keep_eq_ok_iff {name value n : String} {r r' : Registers} :
    (keep name value).on r = (.ok n, r') ↔
      firstObjection name value = none ∧ n = variableName name ∧
        ∃ x, Number.float? (trim value) = some x ∧ r' = ⟨r.bindings.insert n x⟩ := by
  rcases keep_cases name value r with ⟨o, ho, hkeep⟩ | ⟨x, ho, hx, -, -, hkeep⟩
  · rw [hkeep, ho]
    simp
  · have hread := (Option.filter_eq_some_iff.mp hx).1
    rw [hkeep, ho, hread, Prod.mk.injEq, Except.ok.injEq]
    constructor
    · rintro ⟨rfl, rfl⟩
      exact ⟨rfl, rfl, x, rfl, rfl⟩
    · rintro ⟨-, rfl, y, hy, rfl⟩
      rw [Option.some.inj hy]
      exact ⟨rfl, rfl⟩

section

variable {name value : Datum} {n v : String} (hn : name.toText = .ok n) (hv : value.toText = .ok v)
  {r r' : Registers}
include hn hv

theorem store_eq_error_iff {fault : CallFault} :
    (store name value).on r = (.error fault, r') ↔
      r' = r ∧ ∃ o, firstObjection n v = some o ∧ fault = .report o.error := by
  rw [store_on hn hv]
  constructor
  · intro h
    obtain ⟨hfault, hr⟩ := Prod.mk.inj h
    cases hkeep : (keep n v).on r with
    | mk outcome left =>
      rw [hkeep] at hfault hr
      cases outcome with
      | ok m => cases hfault
      | error e =>
        obtain rfl := Except.error.inj hfault
        obtain ⟨rfl, o, ho, rfl⟩ := keep_eq_error_iff.mp hkeep
        exact ⟨hr.symm, o, ho, rfl⟩
  · rintro ⟨rfl, o, ho, rfl⟩
    rw [keep_eq_error_iff.mpr ⟨rfl, o, ho, rfl⟩]
    rfl

theorem store_eq_ok_iff {m : String} :
    (store name value).on r = (.ok m, r') ↔
      firstObjection n v = none ∧ m = variableName n ∧
        ∃ x, Number.float? (trim v) = some x ∧ r' = ⟨r.bindings.insert m x⟩ := by
  rw [store_on hn hv, ← keep_eq_ok_iff]
  cases (keep n v).on r with
  | mk outcome left =>
    cases outcome with
    | ok k =>
      change (Except.ok k, left) = (Except.ok m, r') ↔ _
      rw [Prod.mk.injEq, Prod.mk.injEq, Except.ok.injEq, Except.ok.injEq]
    | error e => exact iff_of_false (fun h => by cases h) fun h => by cases h

end

theorem remove_on_ite {name : Datum} {n : String} (hn : name.toText = .ok n) (r : Registers) :
    (remove name).on r =
      if variableName n ∈ r.names then (.ok (), ⟨r.bindings.erase (variableName n)⟩)
      else (.error (.report (.unknownVariable (variableName n))), r) := by
  rw [remove_on hn, forget_on]
  split <;> rfl

/-! ## Answers -/

/-- What holds of the calls on registers. -/
structure Answers (r : Registers) : Prop where
  perform_store : ∀ name value, r.perform (.store name value) = ((store name value).on r).2
  perform_remove : ∀ name, r.perform (.remove name) = ((remove name).on r).2
  /-- A variable is refused for the first objection, and the registers stay as they are. -/
  store_error : ∀ name value n v, name.toText = .ok n → value.toText = .ok v → ∀ fault r',
    (store name value).on r = (.error fault, r') ↔
      r' = r ∧ ∃ o, firstObjection n v = some o ∧ fault = .report o.error
  /-- A variable that is kept has the normal name. Its entry is changed in place or comes last. -/
  store_ok : ∀ name value n v, name.toText = .ok n → value.toText = .ok v → ∀ m r',
    (store name value).on r = (.ok m, r') ↔
      firstObjection n v = none ∧ m = variableName n ∧
        ∃ x, Number.float? (trim v) = some x ∧
          r'.bindings.pairs =
            if m ∈ r.names then r.bindings.pairs.map fun p => if p.1 = m then (m, x) else p
            else r.bindings.pairs ++ [(m, x)]
  /-- A name or a value without a text fails the call, and the registers stay as they are. -/
  store_fault : ∀ name value fault,
    (name.toText = .error fault ∨ (∃ n, name.toText = .ok n) ∧ value.toText = .error fault) →
      (store name value).on r = (.error (.datum fault), r)
  /-- A variable is forgotten under its normal name, and no other is. -/
  remove : ∀ name n, name.toText = .ok n → (remove name).on r =
    if variableName n ∈ r.names then
      (.ok (), ⟨⟨r.bindings.pairs.filter fun p => p.1 ≠ variableName n⟩⟩)
    else (.error (.report (.unknownVariable (variableName n))), r)
  remove_fault : ∀ name fault, name.toText = .error fault →
    (Registers.remove name).on r = (.error (.datum fault), r)
  /-- A variable that was kept is forgotten under any spelling of its name, and so is a value that
  it had before. -/
  store_remove : ∀ name value other o n r', (store name value).on r = (.ok n, r') →
    other.toText = .ok o → variableName o = n →
      (Registers.remove other).on r' = (.ok (), ⟨⟨r.bindings.pairs.filter fun p => p.1 ≠ n⟩⟩)
  /-- A new variable that is forgotten leaves no trace. -/
  store_remove_new : ∀ name value other o n r', (store name value).on r = (.ok n, r') →
    other.toText = .ok o → variableName o = n → n ∉ r.names →
      (Registers.remove other).on r' = (.ok (), r)
  /-- Variables with different names may be kept in any order. -/
  store_comm : ∀ name value name' value',
    (∀ n n', name.toText = .ok n → name'.toText = .ok n' → variableName n ≠ variableName n') →
      ∀ n, ((store name' value').on ((store name value).on r).2).2.get? n =
        ((store name value).on ((store name' value').on r).2).2.get? n

theorem Kept.insert_pairs {r : Registers} (hr : r.Kept) (n : String) (x : Float) :
    (r.bindings.insert n x).pairs =
      if n ∈ r.names then r.bindings.pairs.map fun p => if p.1 = n then (n, x) else p
      else r.bindings.pairs ++ [(n, x)] := by
  split
  · next h => exact Bindings.insertPair_of_mem hr.nodup h x
  · next h => exact Bindings.insertPair_of_not_mem h x

/-- A call that keeps changes nothing, or binds the same name to the same value in all registers. -/
theorem store_effect (name value : Datum) :
    (∀ r, ((store name value).on r).2 = r) ∨
      ∃ n x, name.toText = .ok n ∧
        ∀ r, ((store name value).on r).2 = ⟨r.bindings.insert (variableName n) x⟩ := by
  rcases texts_cases name value with ⟨n, v, hn, hv⟩ | ⟨fault, hfault⟩
  · rcases check_cases n v with ⟨o, -, hcheck⟩ | ⟨x, -, -, hcheck⟩
    · refine .inl fun r => ?_
      rw [store_on hn hv, keep_on_of_error hcheck]
    · refine .inr ⟨n, x, hn, fun r => ?_⟩
      rw [store_on hn hv, keep_on_of_ok hcheck]
  · refine .inl fun r => ?_
    rw [store_on_of_fault hfault]

theorem get?_store_comm {name name' : Datum}
    (h : ∀ n n', name.toText = .ok n → name'.toText = .ok n' → variableName n ≠ variableName n')
    (value value' : Datum) (r : Registers) (n : String) :
    ((store name' value').on ((store name value).on r).2).2.get? n =
      ((store name value).on ((store name' value').on r).2).2.get? n := by
  rcases store_effect name value with h1 | ⟨m, x, hm, h1⟩
  · rw [h1, h1]
  · rcases store_effect name' value' with h2 | ⟨m', y, hm', h2⟩
    · rw [h2, h2]
    · simp only [h1, h2]
      exact Bindings.insert_comm_find? (h m m' hm hm') r.bindings x y n

theorem remove_on_insert {other : Datum} {o n : String} (ho : other.toText = .ok o)
    (h : variableName o = n) (r : Registers) (x : Float) :
    (remove other).on ⟨r.bindings.insert n x⟩ = (.ok (), ⟨r.bindings.erase n⟩) := by
  have hmem : n ∈ (⟨r.bindings.insert n x⟩ : Registers).names :=
    Bindings.mem_names_of_find? (x := x) (by rw [find?_insert, if_pos rfl])
  rw [remove_on_ite ho, h, if_pos hmem, Bindings.erase_insert]

theorem Kept.answers {r : Registers} (hr : r.Kept) : r.Answers where
  perform_store name value := rfl
  perform_remove name := rfl
  store_error name value n v hn hv fault r' := store_eq_error_iff hn hv
  store_ok name value n v hn hv m r' := by
    rw [store_eq_ok_iff hn hv]
    refine and_congr_right' (and_congr_right' (exists_congr fun x => and_congr_right' ?_))
    rw [← hr.insert_pairs]
    exact ⟨fun h => h ▸ rfl, fun h => congrArg Registers.mk (congrArg Bindings.mk h)⟩
  store_fault name value fault h := store_on_of_fault h
  remove name n hn := remove_on_ite hn r
  remove_fault name fault h := remove_on_of_fault h
  store_remove name value other o n r' h ho hn := by
    obtain ⟨m, v, x, -, -, -, -, -, -, rfl⟩ := store_eq_ok h
    exact remove_on_insert ho hn r x
  store_remove_new name value other o n r' h ho hn hnew := by
    obtain ⟨m, v, x, -, -, -, -, -, -, rfl⟩ := store_eq_ok h
    rw [remove_on_insert ho hn, Bindings.erase_of_not_mem hnew]
  store_comm name value name' value' h n := get?_store_comm h value value' r n

/-- Registers that start empty answer like this behind any calls, refused ones among them. -/
theorem answers_performAll (calls : List Call) : (performAll {} calls).Answers :=
  (kept_performAll calls).answers

end Registers

end Calculator
