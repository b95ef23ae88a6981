import Microboard.Line.Descriptor
import Microboard.Machine
import Microboard.Ucom4.Instruction
import Microboard.Ucom4.Registers

/-!
# uCOM-4 core state

What a core is built with, what it keeps while it runs, and the operations that instructions,
interrupts and reset share. Opcodes come from an eight-bit program space, data RAM is a four-bit
data space, and I/O ports are the addresses of a four-bit I/O space. Cycles are machine cycles.
-/

namespace Microboard.Ucom4

/-! ## §1 Wiring and state -/

structure Config where
  /-- Common configuration; the policy of the family is to tolerate illegal opcodes. -/
  core : CoreConfig := { clockHz := 400000 }
  part : Part
  interruptTrigger : Trigger := .edge
  deriving DecidableEq, Repr

namespace Config

def policy (config : Config) : IllegalOpcodePolicy := config.core.policyOr .nop

def geometry (config : Config) : Geometry := config.part.geometry

def name (config : Config) : String := config.part.name

end Config

/-- What a core is connected to. -/
structure Wiring (σ : Type) where
  config : Config
  program : Space σ
  data : Space σ
  io : Space σ
  /-- Number of the core in the line bank. -/
  number : Nat
  /-- What hangs on the output lines; the host may attach it once the core is built. -/
  sink : Sink σ := .ignore

namespace Wiring

variable {σ : Type}

def geometry (w : Wiring σ) : Geometry := w.config.geometry

def name (w : Wiring σ) : String := w.config.name

end Wiring

/-- What a core keeps. -/
structure State extends CoreStatus where
  regs : Registers := {}
  /-- The next instruction is fetched but not executed. -/
  skip : Bool := false
  /-- Opcode fetched last; zero after an instruction that was skipped. -/
  opcode : UInt8 := 0
  /-- Argument byte fetched last. -/
  argument : UInt8 := 0
  /-- Address of the instruction that ran last. -/
  lastPc : UInt16 := 0
  /-- Machine cycles left on the timer while it runs. -/
  timer : Option Nat := none
  deriving DecidableEq, Repr

/-! ## §2 Lines -/

/-- Interrupt request input. -/
def interruptLine : InputLine := 0

/-- Reset input; the core is held while it is active. -/
def resetLine : InputLine := 1

def lines (config : Config) : List LineDescriptor :=
  [⟨"INT", interruptLine, config.interruptTrigger⟩, ⟨"RESET", resetLine, .level⟩]

/-- Output that is pulsed for each interrupt entry. -/
def acknowledgeOut : OutputLine := 0

/-! ## §3 Time -/

/-- A core at work over devices with state `σ`. -/
abbrev Exec (σ : Type) : Type → Type := StateM (Machine State σ)

variable {σ : Type}

@[inline] def getState : Exec σ State := Machine.getCore

@[inline] def modifyState (change : State → State) : Exec σ Unit := Machine.modifyCore change

@[inline] def getRegs : Exec σ Registers := do return (← getState).regs

@[inline] def modifyRegs (change : Registers → Registers) : Exec σ Unit :=
  modifyState fun s => { s with regs := change s.regs }

/-- Changes the part of the state that all families share. -/
@[inline] def modifyStatus (change : CoreStatus → CoreStatus) : Exec σ Unit :=
  modifyState fun s => { s with toCoreStatus := change s.toCoreStatus }

/-- Lets the timer run for some cycles. -/
def tickTimer (w : Wiring σ) (cycles : Nat) : Exec σ Unit := do
  match (← getState).timer with
  | none => return ()
  | some left =>
    if left ≤ cycles then
      modifyState fun s => { s with timer := none, regs := { s.regs with timerFlag := true } }
      Machine.record (.timerExpired w.name)
    else
      modifyState ({ · with timer := some (left - cycles) })

/-- Adds to the cycle total and lets the timer run. -/
def charge (w : Wiring σ) (cycles : Nat) : Exec σ Unit := do
  modifyStatus (·.charge cycles)
  tickTimer w cycles

/-- Takes the wait states of the three spaces and counts them. -/
def drainWaitStates (w : Wiring σ) : Exec σ Nat := do
  let program ← Machine.takeWaitStates w.program
  let data ← Machine.takeWaitStates w.data
  let io ← Machine.takeWaitStates w.io
  let waits := satAdd32 (satAdd32 program data) io
  modifyStatus fun s => { s with diagnostics := s.diagnostics.recordWaitStates waits }
  return waits.toNat

def drive (w : Wiring σ) (line : OutputLine) (asserted : Bool) : Exec σ Unit := do
  modifyStatus (·.drive line asserted)
  Machine.signal w.sink line asserted

/-! ## §4 Buses -/

/-- Reads a unit and notes the bus cycle. -/
def readBus (role : BusRole) (space : Space σ) (address : UInt32) : Exec σ UInt8 := do
  let value ← Machine.readUnit space address
  modifyStatus (·.observe ⟨role, .read, .byte, address, value⟩)
  return value

/-- Writes a unit and notes the bus cycle. -/
def writeBus (role : BusRole) (space : Space σ) (address : UInt32) (value : UInt8) :
    Exec σ Unit := do
  Machine.writeUnit space address value
  modifyStatus (·.observe ⟨role, .write, .byte, address, value⟩)

/-- Address after another in fetch order: the upper bits of the program counter are fixed, so a
page of 256 bytes wraps onto itself. -/
def Geometry.nextAddress (g : Geometry) (pc : UInt16) : UInt16 :=
  (pc &&& ~~~0xFF ||| (pc + 1) &&& 0xFF) &&& g.programMask

/-- Reads the byte at the program counter and moves past it. -/
def fetch (w : Wiring σ) : Exec σ UInt8 := do
  let value ← readBus .program w.program (← getRegs).pc.toUInt32
  modifyRegs fun r => { r with pc := w.geometry.nextAddress r.pc }
  return value

/-- Address of the RAM cell under the data pointer. -/
def Registers.ramAddress (regs : Registers) (g : Geometry) : UInt32 :=
  (regs.dataPointer &&& g.dataMask).toUInt32

/-- Reads the RAM cell under the data pointer. -/
def readRam (w : Wiring σ) : Exec σ UInt8 := do
  let value ← readBus .data w.data ((← getRegs).ramAddress w.geometry)
  return nibble value

/-- Writes the RAM cell under the data pointer. -/
def writeRam (w : Wiring σ) (value : UInt8) : Exec σ Unit := do
  writeBus .data w.data ((← getRegs).ramAddress w.geometry) (nibble value)

/-- Registers that the full family keeps at the top of data RAM. -/
inductive RamRegister where
  | x
  | y
  | r
  | s
  | w
  | z
  | f
  deriving DecidableEq, Repr

namespace RamRegister

/-- Distance from the last RAM address. -/
def offset : RamRegister → UInt8
  | .x => 0
  | .y => 1
  | .r => 2
  | .s => 3
  | .w => 4
  | .z => 5
  | .f => 6

def address (g : Geometry) (register : RamRegister) : UInt32 :=
  (g.dataMask - register.offset).toUInt32

end RamRegister

def readRamRegister (w : Wiring σ) (register : RamRegister) : Exec σ UInt8 := do
  let value ← readBus .data w.data (register.address w.geometry)
  return nibble value

def writeRamRegister (w : Wiring σ) (register : RamRegister) (value : UInt8) : Exec σ Unit :=
  writeBus .data w.data (register.address w.geometry) (nibble value)

/-! ## §5 I/O ports -/

def portA : UInt8 := 0

def portC : UInt8 := 2

def portD : UInt8 := 3

def portE : UInt8 := 4

def portLetter (port : UInt8) : Char := Char.ofNat ('A'.toNat + (nibble port).toNat)

/-- Reads an I/O port. A port that is also an output reads its latch together with the pins; a
port that cannot be read is reported and reads as zero. -/
def input (w : Wiring σ) (port : UInt8) : Exec σ UInt8 := do
  let port := nibble port
  let ports := w.geometry.ports
  if ports.readable port then
    let pins ← readBus .io w.io port.toUInt32
    if ports.writable port then
      return nibble (pins ||| (← getRegs).port port)
    else
      return nibble pins
  else
    Machine.record (.unknownPortRead w.name (portLetter port) (← getState).lastPc)
    return 0

/-- Drives an I/O port and latches what reached the pins. A port that cannot be written is
reported and left alone. -/
def output (w : Wiring σ) (port value : UInt8) : Exec σ Unit := do
  let port := nibble port
  let ports := w.geometry.ports
  if ports.writable port then
    let driven := nibble value &&& ports.outputMask port
    writeBus .io w.io port.toUInt32 driven
    modifyRegs (·.setPort port driven)
  else
    Machine.record (.unknownPortWrite w.name (portLetter port) value (← getState).lastPc)

/-! ## §6 Call stack -/

def pushPc (w : Wiring σ) : Exec σ Unit :=
  modifyRegs fun r => { r with stack := r.stack.push w.geometry.stackLevels r.pc }

def popPc (w : Wiring σ) : Exec σ Unit :=
  modifyRegs fun r =>
    { r with
      pc := r.stack.top &&& w.geometry.programMask
      stack := r.stack.drop w.geometry.stackLevels }

end Microboard.Ucom4
