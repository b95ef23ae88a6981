import Microboard.Text.Record
import Microboard.Word

/-!
# SM83 registers

Eight 8-bit registers that pair up into words, stack pointer, program counter, and the interrupt
registers. The low nibble of `F` and the upper bits of `IF` do not exist; the setters drop them.
-/

namespace Microboard.Sm83

/-! ## §1 Bits of `F`, `IE` and `IF` -/

def zeroFlag : UInt8 := 0x80

/-- Last operation was a subtraction. -/
def subtractFlag : UInt8 := 0x40

/-- Carry out of bit 3, or borrow into bit 4. -/
def halfCarryFlag : UInt8 := 0x20

/-- Carry out of bit 7, or borrow. -/
def carryFlag : UInt8 := 0x10

/-- Bits of `F` that exist. -/
def flagsMask : UInt8 := 0xF0

/-- Interrupt sources. -/
def interruptMask : UInt8 := 0x1F

/-! ## §2 Register file -/

structure Registers where
  /-- Accumulator. -/
  a : UInt8 := 0
  /-- Flags. -/
  f : UInt8 := 0
  b : UInt8 := 0
  c : UInt8 := 0
  d : UInt8 := 0
  e : UInt8 := 0
  h : UInt8 := 0
  l : UInt8 := 0
  /-- Stack pointer. -/
  sp : UInt16 := 0
  /-- Program counter. -/
  pc : UInt16 := 0
  /-- Interrupt master enable. -/
  ime : Bool := false
  /-- Interrupt enable register. -/
  ie : UInt8 := 0
  /-- Interrupt request register, without the bits that always read as set. -/
  iflag : UInt8 := 0
  deriving DecidableEq, Repr

namespace Registers

/-- What the boot program leaves behind when it jumps to `0x0100`. -/
def postBoot : Registers where
  a := 0x01
  f := 0xB0
  b := 0x00
  c := 0x13
  d := 0x00
  e := 0xD8
  h := 0x01
  l := 0x4D
  sp := 0xFFFE
  pc := 0x0100
  ime := false
  ie := 0x00
  iflag := 0x01

def af (regs : Registers) : UInt16 := joinBytes regs.a regs.f

def bc (regs : Registers) : UInt16 := joinBytes regs.b regs.c

def de (regs : Registers) : UInt16 := joinBytes regs.d regs.e

def hl (regs : Registers) : UInt16 := joinBytes regs.h regs.l

/-- Whether every flag under a mask is set. -/
def flag (regs : Registers) (mask : UInt8) : Bool := regs.f &&& mask == mask

/-- Interrupts that are both requested and enabled. -/
def pending (regs : Registers) : UInt8 := regs.ie &&& regs.iflag &&& interruptMask

def setF (regs : Registers) (value : UInt8) : Registers := { regs with f := value &&& flagsMask }

def setIflag (regs : Registers) (value : UInt8) : Registers :=
  { regs with iflag := value &&& interruptMask }

def setAf (regs : Registers) (value : UInt16) : Registers :=
  { regs with a := highByte value, f := lowByte value &&& flagsMask }

def setBc (regs : Registers) (value : UInt16) : Registers :=
  { regs with b := highByte value, c := lowByte value }

def setDe (regs : Registers) (value : UInt16) : Registers :=
  { regs with d := highByte value, e := lowByte value }

def setHl (regs : Registers) (value : UInt16) : Registers :=
  { regs with h := highByte value, l := lowByte value }

def describe (regs : Registers) : String :=
  Text.record "Registers"
    [("a", toString regs.a.toNat), ("f", toString regs.f.toNat), ("b", toString regs.b.toNat),
      ("c", toString regs.c.toNat), ("d", toString regs.d.toNat), ("e", toString regs.e.toNat),
      ("h", toString regs.h.toNat), ("l", toString regs.l.toNat), ("sp", toString regs.sp.toNat),
      ("pc", toString regs.pc.toNat), ("ime", toString regs.ime), ("ie", toString regs.ie.toNat),
      ("iflag", toString regs.iflag.toNat)]

end Registers

end Microboard.Sm83
