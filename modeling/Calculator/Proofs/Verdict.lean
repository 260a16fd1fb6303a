import Calculator.Proofs.Depth

/-!
# The structural verdict

Whether the tokens of a run find their operands, and which error shows first if they do not, can be
told from the kinds of the tokens. The values only decide whether a token fails before.

* `Kind`, `Token.kind`, `Kind.operands`: what a token is to the machine, and how many values it takes.
* `depth`, `faultAt`, `IsVerdict`: the number of values behind kinds, what is wrong at a place, and
  what is wrong first.
* `StackMachine.FailsAt`: the token at a place finds its operands and fails on them.
* `StackMachine.feedAll_take_cases`: a run gets to a place with nothing wrong before, or it fails.
* `StackMachine.FollowsKinds`, `StackMachine.run_followsKinds`: what the kinds say of a run.
-/
set_option autoImplicit false

namespace Calculator

/-! ## Kinds -/

/-- What a token is to the machine. -/
inductive Kind where
  | number
  | identifier
  | function
  | operator
  | paren
deriving DecidableEq, Repr

/-- The kind of a token. -/
def Token.kind (t : Token) : Kind :=
  match t.item with
  | .number _ => .number
  | .identifier _ => .identifier
  | .function _ => .function
  | .operator _ => .operator
  | .paren _ => .paren

namespace Kind

/-- The number of values that a token takes from the stack. -/
def operands : Kind → Nat
  | number | identifier | paren => 0
  | function => 1
  | operator => 2

/-- By how much a token changes the number of values. -/
def change : Kind → Int
  | number | identifier => 1
  | function | paren => 0
  | operator => -1

/-- What is wrong with a token that is met with `d` values. -/
def fault (d : Int) : Kind → Option Error
  | number | identifier => none
  | function => if d = 0 then some .missingArgument else none
  | operator => if d < 2 then some .missingValues else none
  | paren => some .mismatchedParentheses

end Kind

/-- The number of values behind tokens of these kinds. -/
def depth (ks : List Kind) : Int := ks.foldl (fun d k => d + k.change) 0

/-- What is wrong at a place: with the token there, or with the end. -/
def faultAt (ks : List Kind) (n : Nat) : Option Error :=
  match ks[n]? with
  | some k => k.fault (depth (ks.take n))
  | none => if n = ks.length ∧ depth ks ≠ 1 then some .incomplete else none

/-- The first that is wrong, and its place. -/
def IsVerdict (ks : List Kind) (n : Nat) (e : Error) : Prop :=
  faultAt ks n = some e ∧ ∀ m < n, faultAt ks m = none

@[simp] theorem depth_nil : depth [] = 0 := rfl

theorem depth_append_singleton (ks : List Kind) (k : Kind) :
    depth (ks ++ [k]) = depth ks + k.change := by
  simp [depth]

theorem faultAt_of_getElem? {ks : List Kind} {n : Nat} {k : Kind} (h : ks[n]? = some k) :
    faultAt ks n = k.fault (depth (ks.take n)) := by
  simp [faultAt, h]

theorem faultAt_length (ks : List Kind) :
    faultAt ks ks.length = if depth ks ≠ 1 then some .incomplete else none := by
  simp [faultAt]

theorem le_length_of_faultAt {ks : List Kind} {n : Nat} {e : Error} (h : faultAt ks n = some e) :
    n ≤ ks.length := by
  refine Nat.le_of_not_lt fun hn => ?_
  have hnone : ks[n]? = none := List.getElem?_eq_none (Nat.le_of_lt hn)
  have hne : n ≠ ks.length := Nat.ne_of_gt hn
  simp [faultAt, hnone, hne] at h

theorem exists_isVerdict {ks : List Kind} {n : Nat} {e : Error} (h : faultAt ks n = some e) :
    ∃ m ≤ n, ∃ e', IsVerdict ks m e' := by
  induction n using Nat.strongRecOn generalizing e with
  | ind n ih =>
    by_cases hm : ∃ m < n, ∃ e', faultAt ks m = some e'
    · obtain ⟨m, hm, e', he⟩ := hm
      obtain ⟨l, hl, hv⟩ := ih m hm he
      exact ⟨l, by omega, hv⟩
    · refine ⟨n, Nat.le_refl n, e, h, fun m hlt => ?_⟩
      cases hf : faultAt ks m with
      | none => rfl
      | some e' => exact absurd ⟨m, hlt, e', hf⟩ hm

namespace StackMachine

variable {scope : Bindings}

/-! ## Steps -/

theorem depthBehind_eq_error_iff {t : Token} {k : Nat} {e : Error} :
    t.depthBehind k = .error e ↔ t.kind.fault k = some e := by
  obtain ⟨item, unary⟩ := t
  cases item with
  | number x => simp [Token.depthBehind, Token.kind, Kind.fault]
  | identifier name => simp [Token.depthBehind, Token.kind, Kind.fault]
  | function name =>
    by_cases hk : k = 0 <;> simp [Token.depthBehind, Token.kind, Kind.fault, hk]
  | operator symbol =>
    by_cases hk : k < 2 <;> simp [Token.depthBehind, Token.kind, Kind.fault, hk] <;> omega
  | paren mark => simp [Token.depthBehind, Token.kind, Kind.fault]

theorem Step.length_eq {stack s : List Float} {t : Token} (h : Step scope stack t s) :
    (s.length : Int) = stack.length + t.kind.change := by
  cases h with
  | number => rfl
  | identifier h => rfl
  | function h => exact (Int.add_zero _).symm
  | operator h =>
    simp only [List.length_cons, Token.kind, Kind.change]
    omega

theorem feed_of_fault {stack : List Float} {t : Token} {e : Error}
    (h : t.kind.fault stack.length = some e) :
    feed scope stack t = .error ⟨.report e, stack⟩ := by
  have hd := depthBehind_eq_error_iff.mpr h
  cases hf : feed scope stack t with
  | ok s =>
    rw [(step_of_feed hf).depth] at hd
    cases hd
  | error halt =>
    rcases feed_error_cases hf with ⟨e', hd', rfl⟩ | hfails
    · cases hd.symm.trans hd'
      rfl
    · cases hfails <;> cases hd

/-- A token that fails on its operands leaves the stack without them. -/
theorem Fails.feed_eq {stack : List Float} {t : Token} {c : Stop} (h : Fails scope stack t c) :
    feed scope stack t = .error ⟨c, stack.drop t.kind.operands⟩ := by
  cases h with
  | identifier h => exact push_eq_error_iff.mpr ⟨h, rfl⟩
  | function h => exact push_eq_error_iff.mpr ⟨h, rfl⟩
  | operator h => exact push_eq_error_iff.mpr ⟨h, rfl⟩

/-! ## Runs -/

/-- The token at a place finds its operands and fails on them. -/
def FailsAt (scope : Bindings) (ts : List Token) (n : Nat) (c : Stop) : Prop :=
  ∃ t s, ts[n]? = some t ∧ feedAll scope [] (ts.take n) = .ok s ∧ Fails scope s t c

theorem length_eq_depth_append {ts : List Token} :
    ∀ {before : List Kind} {stack s : List Float}, (stack.length : Int) = depth before →
      feedAll scope stack ts = .ok s → (s.length : Int) = depth (before ++ ts.map Token.kind) := by
  induction ts with
  | nil =>
    intro before stack s hstack h
    cases h
    rw [List.map_nil, List.append_nil, hstack]
  | cons t ts ih =>
    intro before stack s hstack h
    rw [feedAll_cons] at h
    obtain ⟨u, hf, h⟩ := bind_eq_ok_iff.mp h
    rw [List.map_cons, List.append_cons]
    refine ih ?_ h
    rw [(step_of_feed hf).length_eq, depth_append_singleton, hstack]

theorem length_eq_depth {ts : List Token} {s : List Float} (h : feedAll scope [] ts = .ok s) :
    (s.length : Int) = depth (ts.map Token.kind) :=
  length_eq_depth_append (by rw [depth_nil]; rfl) h

theorem feedAll_take_succ {ts : List Token} {n : Nat} {t : Token} (ht : ts[n]? = some t) :
    feedAll scope [] (ts.take (n + 1)) = (feedAll scope [] (ts.take n)).bind (feed scope · t) := by
  rw [List.take_add_one, ht, Option.toList_some, feedAll_append]
  congr 1
  funext s
  rw [feedAll_cons]
  cases feed scope s t <;> rfl

theorem run_of_feed {ts : List Token} {n : Nat} {t : Token} {s : List Float} {halt : Halt}
    (ht : ts[n]? = some t) (hs : feedAll scope [] (ts.take n) = .ok s)
    (hf : feed scope s t = .error halt) : run scope ts = .error halt := by
  obtain ⟨hn, rfl⟩ := List.getElem?_eq_some_iff.mp ht
  have hsplit : ts = ts.take n ++ ts[n] :: ts.drop (n + 1) := by
    rw [← List.drop_eq_getElem_cons hn, List.take_append_drop]
  rw [run_eq, hsplit, feedAll_append, hs]
  simp only [Except.bind, feedAll_cons, hf]

theorem FailsAt.run {ts : List Token} {n : Nat} {c : Stop} (h : FailsAt scope ts n c) :
    ∃ s, run scope ts = .error ⟨c, s⟩ := by
  obtain ⟨t, u, ht, hu, hfails⟩ := h
  exact ⟨_, run_of_feed ht hu hfails.feed_eq⟩

/-- A run gets to a place before which nothing is wrong, unless a token fails before. -/
theorem feedAll_take_cases {ts : List Token} {n : Nat} (hn : n ≤ ts.length)
    (h : ∀ m < n, faultAt (ts.map Token.kind) m = none) :
    (∃ s, feedAll scope [] (ts.take n) = .ok s) ∨ ∃ m < n, ∃ c, FailsAt scope ts m c := by
  induction n with
  | zero => exact .inl ⟨[], rfl⟩
  | succ n ih =>
    rcases ih (by omega) fun m hm => h m (by omega) with ⟨s, hs⟩ | ⟨m, hm, hc⟩
    · have ht : ts[n]? = some ts[n] := List.getElem?_eq_getElem hn
      rw [feedAll_take_succ ht, hs]
      cases hf : feed scope s ts[n] with
      | ok u => exact .inl ⟨u, hf⟩
      | error halt =>
        rcases feed_error_cases hf with ⟨e, hd, -⟩ | hfails
        · -- The token would lack its operands, and nothing is wrong at its place.
          have hlen := length_eq_depth hs
          have hfault := depthBehind_eq_error_iff.mp hd
          have hnone := h n (by omega)
          rw [faultAt_of_getElem? (k := ts[n].kind) (by simp [ht]), ← List.map_take] at hnone
          rw [hlen, hnone] at hfault
          cases hfault
        · exact .inr ⟨n, by omega, halt.cause, ts[n], s, ht, hs, hfails⟩
    · exact .inr ⟨m, by omega, hc⟩

theorem run_of_isVerdict {ts : List Token} {n : Nat} {e : Error}
    (h : IsVerdict (ts.map Token.kind) n e) (hfails : ∀ m < n, ∀ c, ¬ FailsAt scope ts m c) :
    ∃ s, feedAll scope [] (ts.take n) = .ok s ∧ run scope ts = .error ⟨.report e, s⟩ := by
  have hn : n ≤ ts.length := by simpa using le_length_of_faultAt h.1
  rcases feedAll_take_cases hn h.2 with ⟨s, hs⟩ | ⟨m, hm, c, hc⟩
  · have hlen := length_eq_depth hs
    refine ⟨s, hs, ?_⟩
    -- The run ends at a token that lacks operands, or at the end with more or less than one value.
    rcases Nat.lt_or_eq_of_le hn with hlt | rfl
    · have ht : ts[n]? = some ts[n] := List.getElem?_eq_getElem hlt
      have hfault := h.1
      rw [faultAt_of_getElem? (k := ts[n].kind) (by simp [ht]), ← List.map_take, ← hlen] at hfault
      exact run_of_feed ht hs (feed_of_fault hfault)
    · have hfault := h.1
      rw [List.take_length] at hs hlen
      rw [← List.length_map Token.kind, faultAt_length, ← hlen] at hfault
      rw [run_eq, hs]
      match s, hfault with
      | [], hfault =>
        cases hfault
        rfl
      | [_], hfault => cases hfault
      | _ :: _ :: _, hfault =>
        split at hfault
        · cases hfault
          rfl
        · cases hfault
  · exact absurd hc (hfails m hm c)

theorem feedAll_of_no_verdict {ts : List Token} (h : ∀ n e, ¬ IsVerdict (ts.map Token.kind) n e)
    (hfails : ∀ n c, ¬ FailsAt scope ts n c) : ∃ x, feedAll scope [] ts = .ok [x] := by
  have hnone : ∀ n, faultAt (ts.map Token.kind) n = none := by
    intro n
    cases hf : faultAt (ts.map Token.kind) n with
    | none => rfl
    | some e =>
      obtain ⟨m, -, e', hv⟩ := exists_isVerdict hf
      exact absurd hv (h m e')
  rcases feedAll_take_cases (Nat.le_refl ts.length) fun m _ => hnone m with ⟨s, hs⟩ | ⟨m, -, c, hc⟩
  · have hlen := length_eq_depth hs
    have hend := hnone (ts.map Token.kind).length
    rw [List.take_length] at hs hlen
    rw [faultAt_length, ← hlen] at hend
    have hone : (s.length : Int) = 1 := by simpa using hend
    obtain ⟨x, rfl⟩ := List.length_eq_one_iff.mp (Int.ofNat.inj hone)
    exact ⟨x, hs⟩
  · exact absurd hc (hfails m c)

/-! ## What the kinds say -/

/-- What the kinds of its tokens say of a run. -/
structure FollowsKinds (scope : Bindings) (ts : List Token) : Prop where
  /-- While the run has not failed, there are as many values as the kinds say. -/
  length : ∀ n s, feedAll scope [] (ts.take n) = .ok s →
    (s.length : Int) = depth ((ts.take n).map Token.kind)
  /-- A token that fails on its operands ends the run with its own error. -/
  fails : ∀ n c, FailsAt scope ts n c → ∃ s, run scope ts = .error ⟨c, s⟩
  /-- Unless a token fails before, the run ends where the kinds are wrong first, with the error of
  this place. -/
  verdict : ∀ n e, IsVerdict (ts.map Token.kind) n e → (∀ m < n, ∀ c, ¬ FailsAt scope ts m c) →
    e.kind = .malformed ∧
      ∃ s, feedAll scope [] (ts.take n) = .ok s ∧ run scope ts = .error ⟨.report e, s⟩
  /-- If nothing is wrong and no token fails, the run leaves its single value. -/
  value : (∀ n e, ¬ IsVerdict (ts.map Token.kind) n e) → (∀ n c, ¬ FailsAt scope ts n c) →
    ∃ x, feedAll scope [] ts = .ok [x] ∧ run scope ts = .ok x
  /-- Two runs over the same kinds in which no token fails end with the same error, if any. -/
  same : ∀ scope' ts', ts'.map Token.kind = ts.map Token.kind →
    (∀ n c, ¬ FailsAt scope ts n c) → (∀ n c, ¬ FailsAt scope' ts' n c) →
      ∀ e, (∃ s, run scope ts = .error ⟨.report e, s⟩) ↔
        ∃ s, run scope' ts' = .error ⟨.report e, s⟩

theorem kind_of_isVerdict {ks : List Kind} {n : Nat} {e : Error} (h : IsVerdict ks n e) :
    e.kind = .malformed := by
  have hfault := h.1
  unfold faultAt at hfault
  split at hfault
  · next k _ =>
    cases k <;> simp only [Kind.fault] at hfault
    · cases hfault
    · cases hfault
    · split at hfault <;> cases hfault
      rfl
    · split at hfault <;> cases hfault
      rfl
    · cases hfault
      rfl
  · split at hfault <;> cases hfault
    rfl

/-- Where no token fails, the error of a run is the verdict on the kinds. -/
theorem run_error_iff_isVerdict {ts : List Token} (hfails : ∀ n c, ¬ FailsAt scope ts n c)
    (e : Error) : (∃ s, run scope ts = .error ⟨.report e, s⟩) ↔
      ∃ n, IsVerdict (ts.map Token.kind) n e := by
  constructor
  · rintro ⟨s, hs⟩
    -- Without a verdict the run would leave a value, and with one it ends with that error.
    by_cases h : ∃ n e', IsVerdict (ts.map Token.kind) n e'
    · obtain ⟨n, e', h⟩ := h
      obtain ⟨s', -, hs'⟩ := run_of_isVerdict h fun m _ => hfails m
      cases hs.symm.trans hs'
      exact ⟨n, h⟩
    · have hnone : ∀ n e', ¬ IsVerdict (ts.map Token.kind) n e' := fun n e' hv => h ⟨n, e', hv⟩
      obtain ⟨x, hx⟩ := feedAll_of_no_verdict hnone hfails
      cases hs.symm.trans (run_eq_ok_iff.mpr hx)
  · rintro ⟨n, h⟩
    obtain ⟨s, -, hs⟩ := run_of_isVerdict h fun m _ => hfails m
    exact ⟨s, hs⟩

theorem followsKinds (scope : Bindings) (ts : List Token) : FollowsKinds scope ts where
  length := fun n s hs => length_eq_depth hs
  fails := fun n c h => h.run
  verdict := fun n e h hfails => ⟨kind_of_isVerdict h, run_of_isVerdict h hfails⟩
  value := fun h hfails => by
    obtain ⟨x, hx⟩ := feedAll_of_no_verdict h hfails
    exact ⟨x, hx, run_eq_ok_iff.mpr hx⟩
  same := fun scope' ts' hkinds hfails hfails' e => by
    rw [run_error_iff_isVerdict hfails, run_error_iff_isVerdict hfails', hkinds]

/-- Every run follows the kinds of its tokens, whatever they are, and tells what is wrong. -/
theorem run_followsKinds (scope : Bindings) (ts : List Token) :
    FollowsKinds scope ts ∧
      [Error.missingArgument, .missingValues, .mismatchedParentheses, .incomplete].map
          Error.message =
        ["Incomplete expression: missing argument.", "Incomplete expression: missing values.",
          "Mismatched parentheses.", "Incomplete expression."] :=
  ⟨followsKinds scope ts, rfl⟩

end StackMachine

end Calculator
