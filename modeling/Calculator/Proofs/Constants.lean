import Calculator.Proofs.Mentioned
import Calculator.Proofs.Variables

/-!
# Constants out of reach

Variables never touch the constants: no variable has the name of one, and so the scope of the
registers is the constants, followed by the variables as they were kept.

* `Registers.Orderly`: what holds of registers and of their scope.
* `find?_constant_append`: a constant is found in front of variables.
* `Kept.evaluate_append_constants`: to define the constants once more changes no result.
* `orderly_performAll`: registers are orderly behind any calls.
-/
set_option autoImplicit false

namespace Calculator

open Calculator.Text

namespace Registers

/-- The variables are distinct and in plain spelling, none is a constant, and all are finite. The
scope holds the constants and then the variables in their order, each under a key of its own, and
every expression reads the constants with their values. -/
structure Orderly (r : Registers) : Prop where
  nodup : r.names.Nodup
  name : ∀ n ∈ r.names,
    toLower n = n ∧ trim n = n ∧ isVariableName n ∧ n ≠ "pi" ∧ n ≠ "e"
  isFinite : ∀ p ∈ r.bindings.pairs, p.2.isFinite
  scope : r.scope = .ok ⟨("pi", 3.1415) :: ("e", 2.7182) :: r.bindings.pairs⟩
  nodup_scope : ("pi" :: "e" :: r.names).Nodup
  load_constants : ∀ scope, r.scope = .ok scope →
    StackMachine.load scope "pi" = .ok 3.1415 ∧ StackMachine.load scope "e" = .ok 2.7182
  evaluate_append : ∀ expression precision,
    evaluate expression (r.definitions ++ [("pi", .real 3.1415), ("e", .real 2.7182)]) precision =
      evaluate expression r.definitions precision

theorem Kept.ne_constants {r : Registers} (hr : r.Kept) {n : String} (hn : n ∈ r.names) :
    n ≠ "pi" ∧ n ≠ "e" := by
  have hconst := hr.not_constant n hn
  constructor
  · rintro rfl
    exact hconst (by decide)
  · rintro rfl
    exact hconst (by decide)

theorem Kept.nodup_scope {r : Registers} (hr : r.Kept) : ("pi" :: "e" :: r.names).Nodup := by
  have hpi : "pi" ∉ r.names := fun hn => (hr.ne_constants hn).1 rfl
  have he : "e" ∉ r.names := fun hn => (hr.ne_constants hn).2 rfl
  refine List.nodup_cons.mpr ⟨?_, List.nodup_cons.mpr ⟨he, hr.nodup⟩⟩
  rw [List.mem_cons, not_or]
  exact ⟨by decide, hpi⟩

/-- A constant is found in front of the variables. -/
theorem find?_constant_append {name : String} {x : Float} (h : constants.find? name = some x)
    (ps : List (String × Float)) : (⟨constants.pairs ++ ps⟩ : Bindings).find? name = some x := by
  rw [Bindings.find?_append]
  exact congrArg (Option.or · _) h

theorem load_constant_append {name : String} {x : Float} (h : constants.find? name = some x)
    (ps : List (String × Float)) :
    StackMachine.load ⟨constants.pairs ++ ps⟩ name = .ok x := by
  rw [StackMachine.load, find?_constant_append h]

/-- A value that a name already has may be bound to it once more. -/
theorem find?_insert_of_find? {b : Bindings} {name : String} {x : Float}
    (h : b.find? name = some x) (n : String) : (b.insert name x).find? n = b.find? n := by
  rw [find?_insert]
  split
  · next hn => rw [hn, h]
  · rfl

/-- To define the constants once more changes no result. -/
theorem Kept.evaluate_append_constants {r : Registers} (hr : r.Kept) (expression : String)
    (precision : Int) :
    Calculator.evaluate expression
        (r.definitions ++ [("pi", .real 3.1415), ("e", .real 2.7182)]) precision =
      Calculator.evaluate expression r.definitions precision := by
  have hscope := hr.scopeOf_definitions
  have hagain : scopeOf (r.definitions ++ [("pi", .real 3.1415), ("e", .real 2.7182)]) =
      .ok (((⟨constants.pairs ++ r.bindings.pairs⟩ : Bindings).insert (toLower "pi") 3.1415).insert
        (toLower "e") 2.7182) := by
    rw [scopeOf] at hscope
    rw [scopeOf, List.foldlM_append, hscope]
    rfl
  have hpi : toLower "pi" = "pi" := by decide +kernel
  have he : toLower "e" = "e" := by decide +kernel
  rw [hpi, he] at hagain
  refine evaluate_of_find?_eq hagain hscope (fun n _ => ?_) precision
  have hfirst := find?_insert_of_find?
    (find?_constant_append (by decide +kernel : constants.find? "pi" = some 3.1415)
      r.bindings.pairs)
  have hsecond : ((⟨constants.pairs ++ r.bindings.pairs⟩ : Bindings).insert "pi" 3.1415).find? "e" =
      some 2.7182 :=
    (hfirst "e").trans (find?_constant_append (by decide +kernel) r.bindings.pairs)
  rw [find?_insert_of_find? hsecond, hfirst]

theorem Kept.orderly {r : Registers} (hr : r.Kept) : r.Orderly := by
  have hscope : r.scope = .ok ⟨constants.pairs ++ r.bindings.pairs⟩ := hr.scopeOf_definitions
  refine ⟨hr.nodup, fun n hn => ?_, hr.isFinite, hscope, hr.nodup_scope, fun scope hs => ?_,
    hr.evaluate_append_constants⟩
  · have hname := hr.isVariableName n hn
    exact ⟨toLower_of_isVariableName hname, trim_of_isVariableName hname, hname,
      hr.ne_constants hn⟩
  · cases hscope.symm.trans hs
    exact ⟨load_constant_append (by decide +kernel) _, load_constant_append (by decide +kernel) _⟩

/-- Registers that start empty are orderly behind any calls, refused ones among them. -/
theorem orderly_performAll (calls : List Call) : (performAll {} calls).Orderly :=
  (kept_performAll calls).orderly

end Registers

end Calculator
