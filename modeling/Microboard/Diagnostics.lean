import Microboard.Counter

/-!
# Diagnostics

Saturating event counters that every core keeps for hosts and debuggers.
-/

namespace Microboard

/-- Where an illegal opcode was fetched, and its value. -/
structure IllegalOpcodeRecord where
  pc : UInt32
  opcode : UInt8
  deriving DecidableEq, Repr

/-- Event counters of one core. -/
structure Diagnostics where
  /-- Instructions retired, skipped and tolerated illegal ones included. -/
  instructions : Nat := 0
  interrupts : Nat := 0
  illegalOpcodes : Nat := 0
  /-- Wait-state cycles reported by the spaces. -/
  waitStates : Nat := 0
  lastIllegal : Option IllegalOpcodeRecord := none
  deriving DecidableEq, Repr

namespace Diagnostics

def recordInstruction (d : Diagnostics) : Diagnostics :=
  { d with instructions := satAdd d.instructions 1 }

def recordInterrupt (d : Diagnostics) : Diagnostics :=
  { d with interrupts := satAdd d.interrupts 1 }

/-- Counts an illegal opcode and remembers it. -/
def recordIllegal (d : Diagnostics) (pc : UInt32) (opcode : UInt8) : Diagnostics :=
  { d with
    illegalOpcodes := satAdd d.illegalOpcodes 1
    lastIllegal := some ⟨pc, opcode⟩ }

def recordWaitStates (d : Diagnostics) (cycles : UInt32) : Diagnostics :=
  { d with waitStates := satAdd d.waitStates cycles.toNat }

end Diagnostics

end Microboard
