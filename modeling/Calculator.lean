import Calculator.Main
import Calculator.Proofs.Brackets
import Calculator.Proofs.Spelling
import Calculator.Proofs.Yard
import Calculator.Proofs.Positions
import Calculator.Proofs.Rearrangement
import Calculator.Proofs.Precedence
import Calculator.Proofs.Machine
import Calculator.Proofs.Faults
import Calculator.Proofs.Grammar
import Calculator.Proofs.Meaning
import Calculator.Proofs.Acceptance
import Calculator.Proofs.Layout
import Calculator.Proofs.LexedLines
import Calculator.Proofs.Streams
import Calculator.Proofs.Margins
import Calculator.Proofs.Replacement
import Calculator.Proofs.ReplacedTokens
import Calculator.Proofs.ReplacedOrder
import Calculator.Proofs.Substitution
import Calculator.Proofs.Variables
import Calculator.Proofs.Finite
import Calculator.Proofs.ReadingBack
import Calculator.Proofs.Depth
import Calculator.Proofs.Verdict
import Calculator.Proofs.Mentioned
import Calculator.Proofs.Sessions
import Calculator.Proofs.Turns
import Calculator.Proofs.Numerals
import Calculator.Proofs.Repetition
import Calculator.Proofs.Constants
import Calculator.Proofs.Arguments
import Calculator.Proofs.Feeding
import Calculator.Proofs.Floats
import Calculator.Proofs.Nearest
import Calculator.Proofs.FixedPlaces
import Calculator.Proofs.TypedBack
import Calculator.Machine
import Calculator.Proofs.Reuse
import Calculator.Proofs.Framing
import Calculator.Proofs.ExactValues
import Calculator.Proofs.Literals
import Calculator.Proofs.FixedText
import Calculator.Proofs.Keeping
import Calculator.Proofs.EffectiveValues
import Calculator.Proofs.Numbering
import Calculator.Proofs.Assignments
import Calculator.Proofs.Precision
