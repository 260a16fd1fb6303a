import Calculator.StackMachine

/-!
# Machines in use

A machine keeps its scope and its stack from one call to the next.

* `Machine`: the scope and the stack.
* `load`, `feed`, `run`: the calls. Only `run` empties the stack, and it does so before its first
  token.
* `perform`: any call, with its answer.
-/
set_option autoImplicit false

namespace Calculator

/-- A machine between two calls. The topmost value of its stack comes first. -/
structure Machine where
  scope : Bindings
  stack : List Float := []
deriving DecidableEq

namespace Machine

/-! ## Calls -/

/-- The value of a name. -/
def load (m : Machine) (name : String) : Except Stop Float := StackMachine.load m.scope name

/-- The machine with the stack that tokens leave, and why they failed if they did. -/
def leave (m : Machine) : Except StackMachine.Halt (List Float) → Except Stop Unit × Machine
  | .ok stack => (.ok (), { m with stack })
  | .error halt => (.error halt.cause, { m with stack := halt.stack })

/-- Runs one token. A token that fails can leave its mark on the stack. -/
def feed (m : Machine) (t : Token) : Except Stop Unit × Machine :=
  m.leave (StackMachine.feed m.scope m.stack t)

/-- Runs tokens one by one, up to one that fails. -/
def feedEach (m : Machine) : List Token → Except Stop Unit × Machine
  | [] => (.ok (), m)
  | t :: ts =>
    match m.feed t with
    | (.ok (), m) => m.feedEach ts
    | (.error cause, m) => (.error cause, m)

/-- Empties the stack. -/
def clear (m : Machine) : Machine := { m with stack := [] }

/-- The single value on the stack. -/
def single (m : Machine) : Except Stop Float :=
  (StackMachine.single m.stack).mapError StackMachine.Halt.cause

/-- Empties the stack, runs tokens and gives the single value that they leave. -/
def run (m : Machine) (ts : List Token) : Except Stop Float × Machine :=
  let fed := m.clear.feedEach ts
  (fed.1.bind fun _ => fed.2.single, fed.2)

/-! ## Calls in a row -/

/-- What a machine is asked for. -/
inductive Call where
  | load (name : String)
  | feed (t : Token)
  | run (ts : List Token)
deriving DecidableEq

/-- Answers a call. A token that is fed has no value to give. -/
def perform (m : Machine) : Call → Except Stop (Option Float) × Machine
  | .load name => ((m.load name).map some, m)
  | .feed t => ((m.feed t).1.map fun _ => none, (m.feed t).2)
  | .run ts => ((m.run ts).1.map some, (m.run ts).2)

/-- The machine behind calls, one after the other. -/
def performAll (m : Machine) (calls : List Call) : Machine :=
  calls.foldl (fun m c => (m.perform c).2) m

end Machine

end Calculator
