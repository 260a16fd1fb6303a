import Calculator.Scope
import Calculator.Proofs.Reading

/-!
# The infix grammar

Expressions as trees, what they mean, and which lexemes spell them.

* `Expr`, `Expr.value`: trees, and their value by recursion: operands before their operator, the
  left one first, and each result checked to be finite.
* `Level`, `Derives`: the grammar. A sum is made of terms, a term of factors, a factor of a power
  behind any number of minus signs, a power of an atom and a factor as its exponent. The operators
  of a sum and of a term group to the left.
* `Sentence`: lexemes with a derivation.
-/
set_option autoImplicit false

namespace Calculator

/-! ## Trees -/

/-- An expression as its derivation groups it. -/
inductive Expr where
  | number (x : Float)
  | identifier (name : String)
  | call (f : Function) (argument : Expr)
  | binary (op : Operator) (left right : Expr)
  | negation (e : Expr)

/-- What a rule gives, if it is finite; a failure that the rule does not report itself is reported
as `invalid`. -/
def finite (invalid : Error) : Except RuleFault Float → Except Error Float
  | .ok x => if x.isFinite then .ok x else .error invalid
  | .error (.report e) => .error e
  | .error .outsideDomain | .error .outOfRange => .error invalid

/-- The value of a tree, or the error of the first step that fails. -/
def Expr.value (scope : Bindings) : Expr → Except Error Float
  | number x => .ok x
  | identifier name =>
    match scope.find? name with
    | some x => .ok x
    | none => .error (.unknownName name)
  | call f argument => do
    let x ← argument.value scope
    finite .invalidFunctionResult (f.apply x)
  | binary op left right => do
    let x ← left.value scope
    let y ← right.value scope
    finite .invalidResult (op.apply x y)
  | negation e => do
    let x ← e.value scope
    finite .invalidResult (.ok (0 - x))

/-! ## Derivations -/

/-- The kinds of phrase, from the loosest to the tightest. -/
inductive Level where
  | sum
  | term
  | factor
  | power
  | atom

/-- The lexemes spell the tree as a phrase of the level. The flag marks a phrase that ends in a bare
function, one without brackets around its argument: its argument is all that follows, so that
nothing can stand behind it but the end of its group. -/
inductive Derives : Level → Bool → Expr → List Lexeme → Prop where
  | numeral {ds : List Char} {x : Float} (hx : Number.literal ds = .ok x) :
      Derives .atom false (.number x) [.numeral ds]
  | identifier {cs : List Char} (hf : Function.ofName? (smallName cs) = none) :
      Derives .atom false (.identifier (smallName cs)) [.name cs]
  | group {bare : Bool} {e : Expr} {ls : List Lexeme} (h : Derives .sum bare e ls) :
      Derives .atom false e (.opening :: (ls ++ [.closing]))
  | call {bare : Bool} {f : Function} {e : Expr} {cs : List Char} {ls : List Lexeme}
      (hf : Function.ofName? (smallName cs) = some f) (h : Derives .sum bare e ls) :
      Derives .atom false (.call f e) (.name cs :: .opening :: (ls ++ [.closing]))
  | bare {bare : Bool} {f : Function} {e : Expr} {cs : List Char} {ls : List Lexeme}
      (hf : Function.ofName? (smallName cs) = some f) (h : Derives .sum bare e ls)
      (hls : ls.head? ≠ some .opening) : Derives .atom true (.call f e) (.name cs :: ls)
  | atom {bare : Bool} {e : Expr} {ls : List Lexeme} (h : Derives .atom bare e ls) :
      Derives .power bare e ls
  | raised {bare : Bool} {l r : Expr} {ls rs : List Lexeme} (hl : Derives .atom false l ls)
      (hr : Derives .factor bare r rs) :
      Derives .power bare (.binary .pow l r) (ls ++ .operator .pow :: rs)
  | power {bare : Bool} {e : Expr} {ls : List Lexeme} (h : Derives .power bare e ls) :
      Derives .factor bare e ls
  | negation {bare : Bool} {e : Expr} {ls : List Lexeme} (h : Derives .factor bare e ls) :
      Derives .factor bare (.negation e) (.operator .sub :: ls)
  | factor {bare : Bool} {e : Expr} {ls : List Lexeme} (h : Derives .factor bare e ls) :
      Derives .term bare e ls
  | multiplied {bare : Bool} {op : Operator} {l r : Expr} {ls rs : List Lexeme}
      (hop : op = .mul ∨ op = .div) (hl : Derives .term false l ls)
      (hr : Derives .factor bare r rs) :
      Derives .term bare (.binary op l r) (ls ++ .operator op :: rs)
  | term {bare : Bool} {e : Expr} {ls : List Lexeme} (h : Derives .term bare e ls) :
      Derives .sum bare e ls
  | added {bare : Bool} {op : Operator} {l r : Expr} {ls rs : List Lexeme}
      (hop : op = .add ∨ op = .sub) (hl : Derives .sum false l ls)
      (hr : Derives .term bare r rs) :
      Derives .sum bare (.binary op l r) (ls ++ .operator op :: rs)

/-- Lexemes that spell a whole expression. -/
def Sentence (ls : List Lexeme) : Prop := ∃ bare e, Derives .sum bare e ls

theorem Derives.ne_nil {level : Level} {bare : Bool} {e : Expr} {ls : List Lexeme}
    (h : Derives level bare e ls) : ls ≠ [] := by
  induction h with
  | atom h ih => exact ih
  | power h ih => exact ih
  | factor h ih => exact ih
  | term h ih => exact ih
  | numeral hx => simp
  | identifier hf => simp
  | group h ih => simp
  | call hf h ih => simp
  | bare hf h hls ih => simp
  | raised hl hr ihl ihr => simp
  | negation h ih => simp
  | multiplied hop hl hr ihl ihr => simp
  | added hop hl hr ihl ihr => simp

end Calculator
