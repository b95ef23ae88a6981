import Microboard.Text.Record

/-!
# Faults and setup errors

A fault stops a running core. A setup error refuses a configuration before anything runs; a
core that was built never reports one later, except for a state entry that it does not export.
-/

namespace Microboard

/-! ## §1 Faults -/

/-- What stops a running core. -/
inductive Fault where
  /-- The byte fetched at `pc` has no defined behaviour and the core runs with the fatal policy. -/
  | illegalOpcode (pc : UInt32) (opcode : UInt8)
  deriving DecidableEq, Repr

namespace Fault

/-- Address at which the fault was raised. -/
def pc : Fault → UInt32
  | .illegalOpcode pc _ => pc

def message : Fault → String
  | .illegalOpcode pc opcode =>
    "illegal opcode 0x" ++ Hex.lower 2 opcode.toNat ++ " at 0x" ++ Hex.lower 4 pc.toNat

def describe : Fault → String
  | .illegalOpcode pc opcode =>
    Text.record "IllegalOpcode" [("pc", toString pc.toNat), ("opcode", toString opcode.toNat)]

end Fault

/-! ## §2 Setup errors -/

/-- Why a part, a space or a scheduler was refused. -/
inductive SetupError where
  /-- The core has no input line of that name. -/
  | unsupportedLine (core name : String)
  /-- The supplied space does not have the shape that the core needs. -/
  | spaceMismatch (space expected actual : String)
  /-- A numeric parameter is outside its range. -/
  | invalidParameter (parameter reason : String)
  /-- The core exports no state entry with that index. -/
  | unknownStateEntry (core : String) (index : Int)
  /-- A region overlaps another or leaves the space. -/
  | invalidRegion (first last : UInt32)
  deriving DecidableEq, Repr

namespace SetupError

def message : SetupError → String
  | .unsupportedLine core name => core ++ " has no input line named \x60" ++ name ++ "\x60"
  | .spaceMismatch space expected actual => s!"{space} space needs {expected}, got {actual}"
  | .invalidParameter parameter reason => s!"invalid {parameter}: {reason}"
  | .unknownStateEntry core index => s!"{core} exports no state entry {index}"
  | .invalidRegion first last =>
    "region 0x" ++ Hex.lower 1 first.toNat ++ "..=0x" ++ Hex.lower 1 last.toNat ++
      " overlaps another mapping or exceeds the space"

/-- Refuses a parameter whose value lies outside `low..=high`. -/
def outside (parameter : String) (value low high : Nat) : SetupError :=
  .invalidParameter parameter s!"{value} is outside {low}..={high}"

end SetupError

end Microboard
