import Microboard.Text.Record
import Microboard.Ucom4.CallStack

/-!
# uCOM-4 registers

Every register but the program counter and the call stack is four bits wide. The program counter
is masked by the core, which knows how wide it is on the part.
-/

namespace Microboard.Ucom4

/-- The lowest four bits of a byte. -/
def nibble (value : UInt8) : UInt8 := value &&& 0xF

structure Registers where
  /-- Program counter. -/
  pc : UInt16 := 0
  /-- Accumulator. -/
  acc : UInt8 := 0
  /-- Lower half of the data pointer: column of the data RAM. -/
  dpl : UInt8 := 0
  /-- Upper half of the data pointer: row of the data RAM. -/
  dph : UInt8 := 0
  carry : Bool := false
  carrySave : Bool := false
  /-- The timer ran out. -/
  timerFlag : Bool := false
  /-- An interrupt is pending. -/
  intFlag : Bool := false
  intEnable : Bool := false
  stack : CallStack := {}
  /-- Value that each I/O port was last driven with. -/
  portOut : Vector UInt8 16 := Vector.replicate 16 0
  deriving DecidableEq, Repr

namespace Registers

/-- Value that an I/O port was last driven with; the port number counts modulo sixteen. -/
def port (regs : Registers) (port : UInt8) : UInt8 :=
  regs.portOut.get ⟨port.toNat % 16, Nat.mod_lt _ (by decide)⟩

/-- Latches the value of an I/O port. -/
def setPort (regs : Registers) (port value : UInt8) : Registers :=
  { regs with portOut := regs.portOut.set (port.toNat % 16) value (Nat.mod_lt _ (by decide)) }

/-- Both halves of the data pointer. -/
def dataPointer (regs : Registers) : UInt8 := regs.dph <<< 4 ||| regs.dpl

def setAcc (regs : Registers) (value : UInt8) : Registers := { regs with acc := nibble value }

/-- Sets the lower half of the data pointer. -/
def setDpl (regs : Registers) (value : UInt8) : Registers := { regs with dpl := nibble value }

/-- Sets the upper half of the data pointer. -/
def setDph (regs : Registers) (value : UInt8) : Registers := { regs with dph := nibble value }

def describe (regs : Registers) : String :=
  Text.record "Registers"
    [("pc", toString regs.pc.toNat), ("acc", toString regs.acc.toNat),
      ("dpl", toString regs.dpl.toNat), ("dph", toString regs.dph.toNat),
      ("carry", toString regs.carry), ("carry_save", toString regs.carrySave),
      ("timer_f", toString regs.timerFlag), ("int_f", toString regs.intFlag),
      ("inte_f", toString regs.intEnable),
      ("stack", Text.bracketed (regs.stack.slots.map fun slot => toString slot.toNat)),
      ("port_out", Text.bracketed (regs.portOut.toList.map fun value => toString value.toNat))]

end Registers

end Microboard.Ucom4
