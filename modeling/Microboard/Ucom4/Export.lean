import Microboard.StateEntry
import Microboard.Ucom4.Step

/-!
# uCOM-4 state export

The values that a debugger can read and write. Written in the listed order they carry a resting
core over to another: the skip comes last, because writing the program counter ends it.
-/

namespace Microboard.Ucom4

/-! ## §1 Packed flags -/

/-- One flag of the packed byte: its bit and its letter. -/
structure PackedFlag where
  /-- Bit in the byte. -/
  mask : UInt8
  /-- Letter of the flag when it is set. -/
  letter : Char
  /-- The flag in the register file. -/
  get : Registers → Bool

/-- Flags, most significant first: interrupt enable, interrupt pending, timer, saved carry and
carry. -/
def packedFlagLayout : List PackedFlag :=
  [⟨0x10, 'E', (·.intEnable)⟩, ⟨0x08, 'I', (·.intFlag)⟩, ⟨0x04, 'T', (·.timerFlag)⟩,
    ⟨0x02, 'S', (·.carrySave)⟩, ⟨0x01, 'C', (·.carry)⟩]

namespace Registers

def packedFlags (regs : Registers) : UInt8 :=
  packedFlagLayout.foldl (fun packed flag => packed ||| if flag.get regs then flag.mask else 0) 0

def setPackedFlags (regs : Registers) (packed : UInt8) : Registers :=
  { regs with
    intEnable := packed &&& 0x10 != 0
    intFlag := packed &&& 0x08 != 0
    timerFlag := packed &&& 0x04 != 0
    carrySave := packed &&& 0x02 != 0
    carry := packed &&& 0x01 != 0 }

/-- Letters of the flags; a flag that is clear has a small one. -/
def flagLetters (regs : Registers) : String :=
  String.ofList <| packedFlagLayout.map fun flag =>
    if flag.get regs then flag.letter else flag.letter.toLower

end Registers

/-! ## §2 Exported values -/

/-- An exported value. -/
inductive Export where
  | pc
  | dpl
  | dph
  | acc
  | carry
  | carrySave
  | timerFlag
  | intFlag
  | intEnable
  | stack (level : Fin 3)
  /-- The program counter, under its common index. -/
  | currentPc
  /-- Address of the instruction that ran last. -/
  | lastPc
  /-- The packed flags, under their common index. -/
  | flags
  | timer
  | opcode
  | skip
  deriving DecidableEq, Repr

namespace Export

/-- Every value that a part exports, in the order in which they are restored. -/
def all (g : Geometry) : List Export :=
  [.pc, .dpl, .dph, .acc, .carry, .carrySave, .timerFlag, .intFlag, .intEnable] ++
    (([0, 1, 2] : List (Fin 3)).take g.stackLevels).map .stack ++
    [.currentPc, .lastPc, .flags, .timer, .opcode, .skip]

/-- How a value is numbered, named and sized. -/
def entry (g : Geometry) : Export → StateEntry
  | .pc => { index := 0, symbol := "PC", bits := g.programWidth }
  | .dpl => { index := 1, symbol := "DPL", bits := 4 }
  | .dph => { index := 2, symbol := "DPH", bits := 4 }
  | .acc => { index := 3, symbol := "ACC", bits := 4 }
  | .carry => { index := 4, symbol := "C", bits := 1 }
  | .carrySave => { index := 5, symbol := "CS", bits := 1 }
  | .timerFlag => { index := 6, symbol := "TIMF", bits := 1 }
  | .intFlag => { index := 7, symbol := "INTF", bits := 1 }
  | .intEnable => { index := 8, symbol := "INTE", bits := 1 }
  | .stack level =>
    { index := 9 + level.val, symbol := "STK" ++ toString level.val, bits := g.programWidth }
  | .currentPc =>
    .hidden { index := StateEntry.pcIndex, symbol := "GENPC", bits := g.programWidth }
  | .lastPc =>
    .hidden { index := StateEntry.lastPcIndex, symbol := "CURPC", bits := g.programWidth }
  | .flags => .hidden { index := StateEntry.flagsIndex, symbol := "GENFLAGS", bits := 5 }
  | .timer => .hidden { index := 14, symbol := "TIMC", bits := 12 }
  | .opcode => .hidden { index := 12, symbol := "OP", bits := 8 }
  | .skip => .hidden { index := 13, symbol := "SKIP", bits := 1 }

/-- Value as the core holds it. -/
def raw (s : State) : Export → Nat
  | .pc | .currentPc => s.regs.pc.toNat
  | .dpl => s.regs.dpl.toNat
  | .dph => s.regs.dph.toNat
  | .acc => s.regs.acc.toNat
  | .carry => s.regs.carry.toNat
  | .carrySave => s.regs.carrySave.toNat
  | .timerFlag => s.regs.timerFlag.toNat
  | .intFlag => s.regs.intFlag.toNat
  | .intEnable => s.regs.intEnable.toNat
  | .stack level => (s.regs.stack.slot level).toNat
  | .lastPc => s.lastPc.toNat
  | .flags => s.regs.packedFlags.toNat
  | .timer => s.timer.getD 0
  | .opcode => s.opcode.toNat
  | .skip => s.skip.toNat

def read (g : Geometry) (s : State) (item : Export) : Nat := (item.entry g).truncate (item.raw s)

/-- Writes a value that fits the entry. -/
def writeFitting (value : Nat) (s : State) : Export → State
  | .pc | .currentPc => { s with regs := { s.regs with pc := UInt16.ofNat value }, skip := false }
  | .dpl => { s with regs := s.regs.setDpl (UInt8.ofNat value) }
  | .dph => { s with regs := s.regs.setDph (UInt8.ofNat value) }
  | .acc => { s with regs := s.regs.setAcc (UInt8.ofNat value) }
  | .carry => { s with regs := { s.regs with carry := value != 0 } }
  | .carrySave => { s with regs := { s.regs with carrySave := value != 0 } }
  | .timerFlag => { s with regs := { s.regs with timerFlag := value != 0 } }
  | .intFlag => { s with regs := { s.regs with intFlag := value != 0 } }
  | .intEnable => { s with regs := { s.regs with intEnable := value != 0 } }
  | .stack level =>
    { s with regs := { s.regs with stack := s.regs.stack.setSlot level (UInt16.ofNat value) } }
  | .lastPc => { s with lastPc := UInt16.ofNat value }
  | .flags => { s with regs := s.regs.setPackedFlags (UInt8.ofNat value) }
  | .timer => { s with timer := if value = 0 then none else some value }
  | .opcode => { s with opcode := UInt8.ofNat value }
  | .skip => { s with skip := value != 0 }

/-- Writes a value, cut to the width of the entry. -/
def write (g : Geometry) (item : Export) (value : Nat) (s : State) : State :=
  item.writeFitting ((item.entry g).truncate value) s

/-- Exported value of a part with an index. -/
def find? (g : Geometry) (index : Int) : Option Export :=
  (all g).find? fun item => (item.entry g).index == index

end Export

end Microboard.Ucom4
