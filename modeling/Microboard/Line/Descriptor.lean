import Microboard.Fault
import Microboard.Line.Latch

/-!
# Line names

A core lists its input lines by name. Hosts resolve a name once, at setup, without regard to
the case of ASCII letters.
-/

namespace Microboard

/-- Name and behaviour of one input line. -/
structure LineDescriptor where
  name : String
  line : InputLine
  trigger : Trigger
  deriving DecidableEq, Repr

/-- Whether two names differ at most in the case of ASCII letters. -/
def sameName (a b : String) : Bool := a.toList.map Char.toLower == b.toList.map Char.toLower

/-- The line of a core that carries a name; of two such lines, the one listed first. -/
def resolveLine (core : String) (lines : List LineDescriptor) (name : String) :
    Except SetupError InputLine :=
  match lines.find? (sameName ·.name name) with
  | some descriptor => .ok descriptor.line
  | none => .error (.unsupportedLine core name)

end Microboard
