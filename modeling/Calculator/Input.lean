/-!
# Input

Lines from outside.

* `Lines`: lines, and whether the user broke off behind the last one.
* `Lines.ofStream`: the lines of a text. A line feed, a carriage return, and the two together each
  end a line.
* `PromptSession`: what a prompt makes of keys, line by line.
* `Lines.ofPrompt`: the lines that are typed at a prompt.
* `PromptSession.plain`: a prompt at which no line can be edited.
-/
set_option autoImplicit false

namespace Calculator

/-- Lines, and whether the user broke off behind the last one. -/
structure Lines where
  lines : List String
  interrupted : Bool := false
deriving DecidableEq, Repr

namespace Lines

/-- The lines with one put before them. -/
def cons (line : String) (ls : Lines) : Lines := { ls with lines := line :: ls.lines }

/-- The lines of a text behind the characters `line`, which are kept in reverse order. -/
def ofChars (line : List Char) : List Char → List String
  | [] => if line.isEmpty then [] else [String.ofList line.reverse]
  | '\r' :: '\n' :: cs => String.ofList line.reverse :: ofChars [] cs
  | '\r' :: cs | '\n' :: cs => String.ofList line.reverse :: ofChars [] cs
  | c :: cs => ofChars (c :: line) cs

/-- The lines of a text. -/
def ofStream (text : String) : Lines := { lines := ofChars [] text.toList }

end Lines

/-! ## Prompts -/

/-- What comes of one line at a prompt. -/
inductive Prompted where
  /-- The line is accepted; the other keys are left. -/
  | line (text : String) (rest : List Char)
  /-- The input ends. -/
  | ended
  /-- The user breaks off. -/
  | interrupted
deriving DecidableEq, Repr

/-- A session at a prompt. What it makes of the keys may depend on the message that it shows and on
the lines that it accepted before. -/
structure PromptSession where
  prompt (message : String) (accepted : List String) (keys : List Char) : Prompted
  /-- An accepted line takes at least one key. -/
  shorter {message : String} {accepted : List String} {keys rest : List Char} {text : String} :
    prompt message accepted keys = .line text rest → rest.length < keys.length

/-- The lines of a session at a prompt, behind those that it has accepted. -/
def Lines.ofPrompt (p : PromptSession) (message : String) (accepted : List String)
    (keys : List Char) : Lines :=
  match _h : p.prompt message accepted keys with
  | .line text rest => (ofPrompt p message (accepted ++ [text]) rest).cons text
  | .ended => { lines := [] }
  | .interrupted => { lines := [], interrupted := true }
termination_by keys.length
decreasing_by exact p.shorter _h

namespace PromptSession

/-- The key that accepts a line. -/
def returnKey : Char := '\r'

/-- The key that ends the input if the line is empty. -/
def endKey : Char := '\u0004'

/-- The key with which the user breaks off. -/
def breakKey : Char := '\u0003'

/-! ## A prompt without editing -/

/-- What comes of the keys behind the characters `line`, which are kept in reverse order. A line
that is not accepted is lost. -/
def typed (line : List Char) : List Char → Prompted
  | [] => .ended
  | c :: cs =>
    if c = returnKey then .line (String.ofList line.reverse) cs
    else if c = breakKey then .interrupted
    else if c = endKey then if line.isEmpty then .ended else typed line cs
    else typed (c :: line) cs

theorem typed_shorter {keys rest : List Char} {text : String} :
    ∀ {line : List Char}, typed line keys = .line text rest → rest.length < keys.length := by
  induction keys with
  | nil => exact fun h => (by cases h)
  | cons c cs ih =>
    intro line h
    rw [typed] at h
    split at h
    · cases h
      exact Nat.lt_succ_self _
    · split at h
      · cases h
      · split at h
        · split at h
          · cases h
          · exact Nat.lt_succ_of_lt (ih h)
        · exact Nat.lt_succ_of_lt (ih h)

/-- A prompt at which every key but three types its character. -/
def plain : PromptSession where
  prompt _ _ keys := typed [] keys
  shorter := typed_shorter

end PromptSession

end Calculator
