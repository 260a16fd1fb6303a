import Calculator.CommandLine.Switch
import Calculator.Error
import Calculator.Text.Quoted

/-!
# Faults of usage

* `UsageFault`: why a command line is refused.
* `usage`, `help`: what the user is told about the command line.
-/
set_option autoImplicit false

namespace Calculator.CommandLine

/-- Why a command line is refused. -/
inductive UsageFault where
  /-- The start of a long name fits several switches. -/
  | ambiguous (argument : String) (matching : List Switch)
  /-- A value is attached to a switch that takes none. -/
  | ignoredValue (s : Switch) (value : String)
  | missingValue (s : Switch)
  | badPrecision (text : String)
  | rivals (s other : Switch)
  | unrecognized (arguments : List String)
  /-- A variable is refused. -/
  | assignment (text : String) (e : Error)
deriving DecidableEq, Repr

/-- A message about the argument of a switch. -/
def argumentMessage (s : Switch) (text : String) : String :=
  "argument " ++ s.names ++ ": " ++ text

/-- The message of a fault. -/
def UsageFault.message : UsageFault → String
  | ambiguous argument matching =>
    "ambiguous option: " ++ argument ++ " could match " ++
      ", ".intercalate (matching.map Switch.long)
  | ignoredValue s value => argumentMessage s ("ignored explicit argument " ++ Text.quoted value)
  | missingValue s => argumentMessage s "expected one argument"
  | badPrecision text =>
    argumentMessage .precision (Text.quoted text ++ " is not a non-negative integer")
  | rivals s other => argumentMessage s ("not allowed with argument " ++ other.names)
  | unrecognized arguments => "unrecognized arguments: " ++ " ".intercalate arguments
  | assignment text e => text ++ ": " ++ e.message

/-- The name of the program. -/
def programName : String := "infixcalc"

/-- How the program is called. -/
def usage : String :=
  "\n".intercalate
    ["usage: " ++ programName ++ " [-h] [-v] [-k PRECISION] [-s NAME=VALUE]",
     "                 [-e ... | -p [PROMPT]] [-G | -D]"]

/-- The usage, with all switches explained. -/
def help : String :=
  "\n".intercalate
    [usage,
     "",
     "Infix expression calculator",
     "",
     "options:",
     "  -h, --help            show this help message and exit",
     "  -v, --verbose",
     "  -k PRECISION, --precision PRECISION",
     "                        decimal places shown",
     "  -s NAME=VALUE, --set NAME=VALUE",
     "  -e ..., --expression ...",
     "  -p [PROMPT], --prompt [PROMPT]",
     "  -G, --raw-grammar",
     "  -D, --dump"]

/-- What the user is told about a fault. -/
def UsageFault.complaint (f : UsageFault) : String :=
  usage ++ "\n" ++ programName ++ ": error: " ++ f.message

end Calculator.CommandLine
