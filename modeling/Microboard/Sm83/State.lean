import Microboard.Line.Descriptor
import Microboard.Machine
import Microboard.Sm83.Registers

/-!
# SM83 core state

What a core is built with, what it keeps while it runs, and the small operations that the
instruction and interrupt sequences share.

`IE` and `IF` are addressed like memory but live in the core: the program space never sees an
access to them.
-/

namespace Microboard.Sm83

/-! ## §1 Wiring and state -/

structure Config where
  /-- Common configuration; the policy of the family is fatal. -/
  core : CoreConfig := { clockHz := 4194304 }
  /-- Start with the registers that the boot program leaves behind. -/
  skipBoot : Bool := false
  deriving DecidableEq, Repr

namespace Config

def policy (config : Config) : IllegalOpcodePolicy := config.core.policyOr .fatal

def powerOn (config : Config) : Registers := if config.skipBoot then .postBoot else {}

end Config

/-- What a core is connected to. -/
structure Wiring (σ : Type) where
  config : Config
  program : Space σ
  /-- Number of the core in the line bank. -/
  number : Nat
  /-- What hangs on the output lines; the host may attach it once the core is built. -/
  sink : Sink σ := .ignore

/-- What a core keeps. -/
structure State extends CoreStatus where
  regs : Registers := {}
  /-- Halted by `STOP` rather than `HALT`. -/
  stopped : Bool := false
  /-- The next fetch leaves the program counter alone. -/
  haltBug : Bool := false
  /-- `EI` was the last instruction, so interrupts wait for one more. -/
  eiDelay : Bool := false
  /-- Address of the instruction that ran last. -/
  lastPc : UInt16 := 0
  /-- Opcode fetched last. -/
  opcode : UInt8 := 0
  deriving DecidableEq, Repr

def name : String := "sm83"

/-! ## §2 Lines -/

/-- Joypad request, which also ends `STOP`. -/
def joypad : InputLine := 4

/-- Interrupt request lines, in order of priority. -/
def requestLines : List InputLine := [0, 1, 2, 3, 4]

/-- Reset input; the core is held while it is active. -/
def resetLine : InputLine := 5

def lines : List LineDescriptor :=
  [⟨"VBLANK", 0, .edge⟩, ⟨"STAT", 1, .edge⟩, ⟨"TIMER", 2, .edge⟩, ⟨"SERIAL", 3, .edge⟩,
    ⟨"JOYPAD", joypad, .edge⟩, ⟨"RESET", resetLine, .level⟩]

/-- Output that is asserted while the core is halted or stopped. -/
def haltOut : OutputLine := 0

/-- Output that is pulsed for each interrupt dispatched. -/
def acknowledgeOut : OutputLine := 1

/-! ## §3 Shared operations -/

/-- A core at work over devices with state `σ`. -/
abbrev Exec (σ : Type) : Type → Type := StateM (Machine State σ)

variable {σ : Type}

@[inline] def getState : Exec σ State := Machine.getCore

@[inline] def modifyState (change : State → State) : Exec σ Unit := Machine.modifyCore change

@[inline] def getRegs : Exec σ Registers := do return (← getState).regs

@[inline] def modifyRegs (change : Registers → Registers) : Exec σ Unit :=
  modifyState fun s => { s with regs := change s.regs }

/-- Changes the part of the state that all families share. -/
@[inline] def modifyStatus (change : CoreStatus → CoreStatus) : Exec σ Unit :=
  modifyState fun s => { s with toCoreStatus := change s.toCoreStatus }

/-- Notes a bus cycle of one unit. -/
def observe (role : BusRole) (direction : BusDirection) (address : UInt16) (value : UInt8) :
    Exec σ Unit :=
  modifyStatus (·.observe ⟨role, direction, .byte, address.toUInt32, value⟩)

def drive (w : Wiring σ) (line : OutputLine) (asserted : Bool) : Exec σ Unit := do
  modifyStatus (·.drive line asserted)
  Machine.signal w.sink line asserted

def charge (cycles : Nat) : Exec σ Unit := modifyStatus (·.charge cycles)

/-- Address of the interrupt enable register. -/
def ieAddress : UInt16 := 0xFFFF

/-- Address of the interrupt request register. -/
def ifAddress : UInt16 := 0xFF0F

/-- Value of `IF` on the bus, where the bits that do not exist read as set. -/
def shownIf (regs : Registers) : UInt8 := regs.iflag ||| 0xE0

def read8 (w : Wiring σ) (address : UInt16) : Exec σ UInt8 := do
  if address = ieAddress then
    let value := (← getRegs).ie
    observe .internal .read address value
    return value
  else if address = ifAddress then
    let value := shownIf (← getRegs)
    observe .internal .read address value
    return value
  else
    let value ← Machine.readUnit w.program address.toUInt32
    observe .program .read address value
    return value

def write8 (w : Wiring σ) (address : UInt16) (value : UInt8) : Exec σ Unit := do
  if address = ieAddress then
    modifyRegs ({ · with ie := value })
    observe .internal .write address value
  else if address = ifAddress then
    modifyRegs (·.setIflag value)
    observe .internal .write address value
  else
    Machine.writeUnit w.program address.toUInt32 value
    observe .program .write address value

/-- Reads the byte at the program counter and moves past it. -/
def fetch8 (w : Wiring σ) : Exec σ UInt8 := do
  let value ← read8 w (← getRegs).pc
  modifyRegs fun r => { r with pc := r.pc + 1 }
  return value

/-- Fetches a word, low byte first. -/
def fetch16 (w : Wiring σ) : Exec σ UInt16 := do
  let low ← fetch8 w
  let high ← fetch8 w
  return joinBytes high low

def push8 (w : Wiring σ) (value : UInt8) : Exec σ Unit := do
  modifyRegs fun r => { r with sp := r.sp - 1 }
  write8 w (← getRegs).sp value

def pop8 (w : Wiring σ) : Exec σ UInt8 := do
  let value ← read8 w (← getRegs).sp
  modifyRegs fun r => { r with sp := r.sp + 1 }
  return value

/-- Pushes a word, high byte first. -/
def push16 (w : Wiring σ) (value : UInt16) : Exec σ Unit := do
  push8 w (highByte value)
  push8 w (lowByte value)

/-- Pops a word, low byte first. -/
def pop16 (w : Wiring σ) : Exec σ UInt16 := do
  let low ← pop8 w
  let high ← pop8 w
  return joinBytes high low

/-- Halts the core, by `STOP` or by `HALT`. -/
def enterHalt (w : Wiring σ) (stopped : Bool) : Exec σ Unit := do
  modifyState fun s => { s with exec := .halted, stopped }
  drive w haltOut true
  Machine.record (.halted name (← getRegs).pc stopped)

/-- Ends a halt. -/
def wake (w : Wiring σ) : Exec σ Unit := do
  modifyState fun s => { s with exec := .fetching, stopped := false }
  drive w haltOut false
  Machine.record (.wokeUp name (← getRegs).pc)

/-- Takes the wait states of the program space and counts them. -/
def drainWaitStates (w : Wiring σ) : Exec σ Nat := do
  let waits ← Machine.takeWaitStates w.program
  modifyStatus fun s => { s with diagnostics := s.diagnostics.recordWaitStates waits }
  return waits.toNat

end Microboard.Sm83
