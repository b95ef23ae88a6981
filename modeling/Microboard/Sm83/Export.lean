import Microboard.Sm83.Step
import Microboard.StateEntry

/-!
# SM83 state export

The values that a debugger can read and write. Written in the listed order they carry the whole
of a resting core over to another: the entries that change others as a side effect come first.
-/

namespace Microboard.Sm83

/-- An exported value. -/
inductive Export where
  | pc
  | sp
  | a
  | f
  | b
  | c
  | d
  | e
  | h
  | l
  | ime
  | ie
  | iflag
  | opcode
  | eiDelay
  | af
  | bc
  | de
  | hl
  | halted
  | stopped
  | haltBug
  /-- The program counter, under its common index. -/
  | currentPc
  /-- Address of the instruction that ran last. -/
  | lastPc
  /-- The stack pointer, under its common index. -/
  | stackPointer
  /-- The flags, under their common index. -/
  | flags
  deriving DecidableEq, Repr

namespace Export

/-- Every exported value, in the order in which they are restored. The program counter ends the
halt bug, so the halt entries follow it. -/
def all : List Export :=
  [.pc, .sp, .a, .f, .b, .c, .d, .e, .h, .l, .ime, .ie, .iflag, .opcode, .eiDelay, .af, .bc, .de,
    .hl, .currentPc, .lastPc, .stackPointer, .flags, .halted, .stopped, .haltBug]

/-- How a value is numbered, named and sized. -/
def entry : Export → StateEntry
  | .pc => { index := 0, symbol := "PC", bits := 16 }
  | .sp => { index := 1, symbol := "SP", bits := 16 }
  | .a => { index := 2, symbol := "A", bits := 8 }
  | .f => { index := 3, symbol := "F", bits := 8 }
  | .b => { index := 4, symbol := "B", bits := 8 }
  | .c => { index := 5, symbol := "C", bits := 8 }
  | .d => { index := 6, symbol := "D", bits := 8 }
  | .e => { index := 7, symbol := "E", bits := 8 }
  | .h => { index := 8, symbol := "H", bits := 8 }
  | .l => { index := 9, symbol := "L", bits := 8 }
  | .ime => { index := 10, symbol := "IME", bits := 1 }
  | .ie => { index := 11, symbol := "IE", bits := 8 }
  | .iflag => { index := 12, symbol := "IF", bits := 8 }
  | .opcode => .hidden { index := 13, symbol := "OP", bits := 8 }
  | .eiDelay => .hidden { index := 14, symbol := "EID", bits := 1 }
  | .af => .hidden { index := 15, symbol := "AF", bits := 16 }
  | .bc => .hidden { index := 16, symbol := "BC", bits := 16 }
  | .de => .hidden { index := 17, symbol := "DE", bits := 16 }
  | .hl => .hidden { index := 18, symbol := "HL", bits := 16 }
  | .halted => .hidden { index := 19, symbol := "HALT", bits := 1 }
  | .stopped => .hidden { index := 20, symbol := "STOP", bits := 1 }
  | .haltBug => .hidden { index := 21, symbol := "HBUG", bits := 1 }
  | .currentPc => .hidden { index := StateEntry.pcIndex, symbol := "GENPC", bits := 16 }
  | .lastPc => .hidden { index := StateEntry.lastPcIndex, symbol := "CURPC", bits := 16 }
  | .stackPointer =>
    .hidden { index := StateEntry.stackPointerIndex, symbol := "GENSP", bits := 16 }
  | .flags => .hidden { index := StateEntry.flagsIndex, symbol := "GENFLAGS", bits := 8 }

/-- Value as the core holds it. -/
def raw (s : State) : Export → Nat
  | .pc | .currentPc => s.regs.pc.toNat
  | .sp | .stackPointer => s.regs.sp.toNat
  | .a => s.regs.a.toNat
  | .f | .flags => s.regs.f.toNat
  | .b => s.regs.b.toNat
  | .c => s.regs.c.toNat
  | .d => s.regs.d.toNat
  | .e => s.regs.e.toNat
  | .h => s.regs.h.toNat
  | .l => s.regs.l.toNat
  | .ime => s.regs.ime.toNat
  | .ie => s.regs.ie.toNat
  | .iflag => (shownIf s.regs).toNat
  | .opcode => s.opcode.toNat
  | .eiDelay => s.eiDelay.toNat
  | .af => s.regs.af.toNat
  | .bc => s.regs.bc.toNat
  | .de => s.regs.de.toNat
  | .hl => s.regs.hl.toNat
  | .halted => (decide (s.exec = .halted)).toNat
  | .stopped => s.stopped.toNat
  | .haltBug => s.haltBug.toNat
  | .lastPc => s.lastPc.toNat

def read (s : State) (item : Export) : Nat := item.entry.truncate (item.raw s)

variable {σ : Type}

/-- Halts or wakes the core; writing the state that it is in already does nothing. -/
def writeHalted (w : Wiring σ) (value : Bool) : Exec σ Unit := do
  let s ← getState
  let halted := decide (s.exec = .halted)
  if value && !halted then
    enterHalt w s.stopped
  else if !value && halted then
    wake w

/-- Writes a value that fits the entry. -/
def writeFitting (w : Wiring σ) (value : Nat) : Export → Exec σ Unit
  | .pc | .currentPc => modifyState fun s =>
    { s with regs := { s.regs with pc := UInt16.ofNat value }, haltBug := false }
  | .sp | .stackPointer => modifyRegs ({ · with sp := UInt16.ofNat value })
  | .a => modifyRegs ({ · with a := UInt8.ofNat value })
  | .f | .flags => modifyRegs (·.setF (UInt8.ofNat value))
  | .b => modifyRegs ({ · with b := UInt8.ofNat value })
  | .c => modifyRegs ({ · with c := UInt8.ofNat value })
  | .d => modifyRegs ({ · with d := UInt8.ofNat value })
  | .e => modifyRegs ({ · with e := UInt8.ofNat value })
  | .h => modifyRegs ({ · with h := UInt8.ofNat value })
  | .l => modifyRegs ({ · with l := UInt8.ofNat value })
  | .ime => modifyRegs ({ · with ime := value != 0 })
  | .ie => modifyRegs ({ · with ie := UInt8.ofNat value })
  | .iflag => modifyRegs (·.setIflag (UInt8.ofNat value))
  | .opcode => modifyState ({ · with opcode := UInt8.ofNat value })
  | .eiDelay => modifyState ({ · with eiDelay := value != 0 })
  | .af => modifyRegs (·.setAf (UInt16.ofNat value))
  | .bc => modifyRegs (·.setBc (UInt16.ofNat value))
  | .de => modifyRegs (·.setDe (UInt16.ofNat value))
  | .hl => modifyRegs (·.setHl (UInt16.ofNat value))
  | .halted => writeHalted w (value != 0)
  | .stopped => modifyState ({ · with stopped := value != 0 })
  | .haltBug => modifyState ({ · with haltBug := value != 0 })
  | .lastPc => modifyState ({ · with lastPc := UInt16.ofNat value })

/-- Writes a value, cut to the width of the entry. -/
def write (w : Wiring σ) (item : Export) (value : Nat) : Exec σ Unit :=
  item.writeFitting w (item.entry.truncate value)

def find? (index : Int) : Option Export := all.find? (·.entry.index == index)

end Export

end Microboard.Sm83
