import Microboard.Bus.Config
import Microboard.Diagnostics
import Microboard.Fault

/-!
# Execution

Where a core is in its cycle of fetching and executing, what one boundary action of a core did,
and the part of a core's state that every family keeps: clock, counters, and what an observer
sees on the pins.
-/

namespace Microboard

/-! ## §1 Execution states -/

/-- Where a core is in its cycle. Between calls a core rests in every state but `executing` and
`servicingInterrupt`. -/
inductive ExecState where
  /-- Held in reset. -/
  | idle
  /-- At an instruction boundary. -/
  | fetching
  /-- Inside an instruction. -/
  | executing
  /-- Inside the interrupt entry sequence. -/
  | servicingInterrupt
  /-- Stopped until an interrupt or a reset. -/
  | halted
  /-- Stopped by a fault until a reset. -/
  | faultLatched (fault : Fault)
  deriving DecidableEq, Repr

namespace ExecState

instance : Inhabited ExecState := ⟨.idle⟩

def latchedFault? : ExecState → Option Fault
  | .faultLatched fault => some fault
  | .idle | .fetching | .executing | .servicingInterrupt | .halted => none

/-- Whether the core makes no progress until something wakes it. -/
def isStopped : ExecState → Bool
  | .idle | .halted | .faultLatched _ => true
  | .fetching | .executing | .servicingInterrupt => false

def describe : ExecState → String
  | .idle => "Idle"
  | .fetching => "Fetching"
  | .executing => "Executing"
  | .servicingInterrupt => "ServicingInterrupt"
  | .halted => "Halted"
  | .faultLatched fault => Text.applied "FaultLatched" [fault.describe]

end ExecState

/-! ## §2 Outcomes -/

/-- What one boundary action did, and the cycles that it took, wait states included. -/
inductive StepOutcome where
  | retired (pc : UInt32) (cycles : Nat)
  /-- The interrupt entry sequence ran; execution continues at `vector`. -/
  | interrupt (vector : UInt32) (cycles : Nat)
  /-- The core was halted or held in reset and only let time pass. -/
  | idle (cycles : Nat)
  deriving DecidableEq, Repr

def StepOutcome.cycles : StepOutcome → Nat
  | .retired _ cycles | .interrupt _ cycles | .idle cycles => cycles

/-- Whether the cycles fit the 32 bits in which an action adds them up. Cycles that do not fit are
reported to nobody: the addition stops the program. -/
def StepOutcome.Reportable (outcome : StepOutcome) : Prop := outcome.cycles ≤ waitMax

instance : DecidablePred StepOutcome.Reportable := fun outcome =>
  inferInstanceAs (Decidable (outcome.cycles ≤ waitMax))

/-! ## §3 What an observer sees -/

/-- Bus on which a cycle appears. -/
inductive BusRole where
  | program
  | data
  | io
  /-- A register that is addressed like memory but lives in the core. -/
  | internal
  deriving DecidableEq, Repr

inductive BusDirection where
  | read
  | write
  deriving DecidableEq, Repr

/-- One access that a core made. -/
structure BusCycle where
  role : BusRole
  direction : BusDirection
  width : AccessWidth
  address : UInt32
  value : UInt8
  deriving DecidableEq, Repr

/-- Number of an output line of a core. -/
abbrev OutputLine := UInt8

/-- A level that a core drove on an output line. -/
structure OutputEvent where
  line : OutputLine
  asserted : Bool
  deriving DecidableEq, Repr

/-! ## §4 Common state -/

/-- State that every core keeps, whatever its family. -/
structure CoreStatus where
  /-- Where the core is in its cycle. -/
  exec : ExecState := .fetching
  /-- Whether the reset line held the core at the last boundary. -/
  inReset : Bool := false
  totalCycles : Nat := 0
  diagnostics : Diagnostics := {}
  /-- Levels driven on output lines since the host last looked, oldest first. -/
  outputs : Array OutputEvent := #[]
  /-- Bus cycles since the last boundary action began, oldest first. -/
  bus : List BusCycle := []
  deriving DecidableEq, Repr

namespace CoreStatus

def charge (status : CoreStatus) (cycles : Nat) : CoreStatus :=
  { status with totalCycles := satAdd status.totalCycles cycles }

def drive (status : CoreStatus) (line : OutputLine) (asserted : Bool) : CoreStatus :=
  { status with outputs := status.outputs.push ⟨line, asserted⟩ }

def observe (status : CoreStatus) (cycle : BusCycle) : CoreStatus :=
  { status with bus := status.bus ++ [cycle] }

end CoreStatus

end Microboard
