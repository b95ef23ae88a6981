import Microboard.Ucom4.State

/-!
# uCOM-4 instruction execution

The operations, in the groups of the data sheet. Opcode and argument have been fetched when an
operation runs. A test that succeeds sets the skip, which drops the next instruction.
-/

namespace Microboard.Ucom4

variable {σ : Type}

/-! ## §1 Pieces -/

/-- Decides about the next instruction. -/
def setSkip (skip : Bool) : Exec σ Unit := modifyState ({ · with skip })

/-- Whether a bit of a nibble is set. -/
def hasBit (value bit : UInt8) : Bool := value &&& 1 <<< bit != 0

def withBit (value bit : UInt8) : UInt8 := value ||| 1 <<< bit

def withoutBit (value bit : UInt8) : UInt8 := value &&& ~~~(1 <<< bit)

/-- Flips bits of the row of the data pointer. -/
def flipRow (flip : UInt8) : Exec σ Unit := modifyRegs fun r => r.setDph (r.dph ^^^ flip)

/-- Exchanges the accumulator with the cell under the data pointer, then flips row bits. -/
def exchangeRam (w : Wiring σ) (flip : UInt8) : Exec σ Unit := do
  let old := (← getRegs).acc
  let value ← readRam w
  modifyRegs ({ · with acc := value })
  writeRam w old
  flipRow flip

/-- Moves the column up and skips when it comes round to the first. -/
def incrementColumn : Exec σ Unit := do
  modifyRegs fun r => r.setDpl (r.dpl + 1)
  setSkip ((← getRegs).dpl == 0)

/-- Moves the column down and skips when it comes round to the last. -/
def decrementColumn : Exec σ Unit := do
  modifyRegs fun r => r.setDpl (r.dpl - 1)
  setSkip ((← getRegs).dpl == 0xF)

/-- Adds the cell under the data pointer and the carry to the accumulator. -/
def addWithCarry (w : Wiring σ) : Exec σ Unit := do
  let value ← readRam w
  modifyRegs fun r =>
    let sum := value + r.acc + r.carry.toUInt8
    { r with carry := sum &&& 0x10 != 0, acc := nibble sum }

/-- Replaces the value of a register in RAM and answers the old one. -/
def exchangeRamRegister (w : Wiring σ) (register : RamRegister) (value : UInt8) :
    Exec σ UInt8 := do
  let old ← readRamRegister w register
  writeRamRegister w register value
  return old

/-- Reports an argument that lacks the fixed bits of its encoding. -/
def checkArgument (w : Wiring σ) (mnemonic : String) (argument mask fixed : UInt8) :
    Exec σ Unit := do
  if argument &&& mask != fixed then
    Machine.record (.unexpectedArgument w.name mnemonic argument (← getState).lastPc)

/-- Program address from upper bits in the opcode and lower bits in the argument. -/
def Geometry.farAddress (g : Geometry) (high argument : UInt8) : UInt16 :=
  (high.toUInt16 <<< 8 ||| argument.toUInt16) &&& g.programMask

/-- Program address in the 64-byte block of another. -/
def Geometry.nearAddress (g : Geometry) (pc low : UInt16) : UInt16 :=
  (pc &&& 0x7C0 ||| low) &&& g.programMask

/-- Cycles that an argument of `STM` sets the timer to. -/
def timerCycles (argument : UInt8) : Nat := ((argument &&& 0x3F).toNat + 1) * 63

/-! ## §2 Operations -/

/-- Runs an operation. Illegal opcodes do nothing here. -/
def perform (w : Wiring σ) (argument : UInt8) : Op → Exec σ Unit
  | .nop | .illegal => return ()
  -- loads and data pointer
  | .ldz column => modifyRegs ({ · with dph := 0, dpl := column })
  | .li value => modifyRegs ({ · with acc := value })
  | .ldi => modifyRegs fun r =>
    { r with dph := argument >>> 4 &&& w.geometry.rowMask, dpl := nibble argument }
  | .lm flip => do
    let value ← readRam w
    modifyRegs ({ · with acc := value })
    flipRow flip
  | .s => do writeRam w (← getRegs).acc
  | .tal => modifyRegs fun r => { r with dpl := r.acc }
  | .tla => modifyRegs fun r => { r with acc := r.dpl }
  | .xm flip => exchangeRam w flip
  | .xmi flip => do
    exchangeRam w flip
    incrementColumn
  | .xmd flip => do
    exchangeRam w flip
    decrementColumn
  -- arithmetic
  | .ad => do
    let value ← readRam w
    let sum := value + (← getRegs).acc
    setSkip (sum &&& 0x10 != 0)
    modifyRegs (·.setAcc sum)
  | .adc => addWithCarry w
  | .ads => do
    addWithCarry w
    setSkip (← getRegs).carry
  | .daa => modifyRegs fun r => r.setAcc (r.acc + 6)
  | .das => modifyRegs fun r => r.setAcc (r.acc + 10)
  | .exl => do
    let value ← readRam w
    modifyRegs fun r => { r with acc := r.acc ^^^ value }
  | .cma => modifyRegs fun r => { r with acc := r.acc ^^^ 0xF }
  | .cia => modifyRegs fun r => r.setAcc ((r.acc ^^^ 0xF) + 1)
  | .rar => modifyRegs fun r =>
    { r with acc := r.acc >>> 1 ||| r.carry.toUInt8 <<< 3, carry := r.acc &&& 1 != 0 }
  -- carry
  | .clc => modifyRegs ({ · with carry := false })
  | .stc => modifyRegs ({ · with carry := true })
  | .tc => do setSkip (← getRegs).carry
  | .xc => modifyRegs fun r => { r with carry := r.carrySave, carrySave := r.carry }
  -- increment and decrement
  | .inc => do
    modifyRegs fun r => r.setAcc (r.acc + 1)
    setSkip ((← getRegs).acc == 0)
  | .dec => do
    modifyRegs fun r => r.setAcc (r.acc - 1)
    setSkip ((← getRegs).acc == 0xF)
  | .ind => incrementColumn
  | .ded => decrementColumn
  | .inm => do
    let value := nibble ((← readRam w) + 1)
    writeRam w value
    setSkip (value == 0)
  | .dem => do
    let value := nibble ((← readRam w) - 1)
    writeRam w value
    setSkip (value == 0xF)
  -- bits
  | .rmb bit => do writeRam w (withoutBit (← readRam w) bit)
  | .smb bit => do writeRam w (withBit (← readRam w) bit)
  | .reb bit => do output w portE (withoutBit ((← getRegs).port portE) bit)
  | .seb bit => do output w portE (withBit ((← getRegs).port portE) bit)
  | .rpb bit => do
    let regs ← getRegs
    output w regs.dpl (withoutBit (regs.port regs.dpl) bit)
  | .spb bit => do
    let regs ← getRegs
    output w regs.dpl (withBit (regs.port regs.dpl) bit)
  -- jumps, calls and returns
  | .jmp high => modifyRegs ({ · with pc := w.geometry.farAddress high argument })
  | .cal high => do
    pushPc w
    modifyRegs ({ · with pc := w.geometry.farAddress high argument })
  | .jcp low => modifyRegs fun r => { r with pc := w.geometry.nearAddress r.pc low.toUInt16 }
  | .jpa => modifyRegs fun r =>
    { r with pc := w.geometry.nearAddress r.pc (r.acc.toUInt16 <<< 2) }
  | .czp vector => do
    pushPc w
    modifyRegs ({ · with pc := vector.toUInt16 <<< 2 })
  | .rt => popPc w
  | .rts => do
    popPc w
    setSkip true
  -- comparisons and tests
  | .ci => do
    setSkip ((← getRegs).acc == nibble argument)
    checkArgument w "CI" argument 0xF0 0xC0
  | .cm => do
    let value ← readRam w
    setSkip ((← getRegs).acc == value)
  | .cmb bit => do
    let value ← readRam w
    setSkip (hasBit (← getRegs).acc bit == hasBit value bit)
  | .tab bit => do setSkip (hasBit (← getRegs).acc bit)
  | .cli => do
    setSkip ((← getRegs).dpl == nibble argument)
    checkArgument w "CLI" argument 0xF0 0xE0
  | .tmb bit => do setSkip (hasBit (← readRam w) bit)
  | .tpa bit => do setSkip (hasBit (← input w portA) bit)
  | .tpb bit => do setSkip (hasBit (← input w (← getRegs).dpl) bit)
  | .tit => do
    setSkip (← getRegs).intFlag
    modifyRegs ({ · with intFlag := false })
  -- input and output
  | .ia => do
    let value ← input w portA
    modifyRegs ({ · with acc := value })
  | .ip => do
    let value ← input w (← getRegs).dpl
    modifyRegs ({ · with acc := value })
  | .oe => do output w portE (← getRegs).acc
  | .op => do
    let regs ← getRegs
    output w regs.dpl regs.acc
  | .ocd => do
    output w portD (argument >>> 4)
    output w portC (nibble argument)
  -- registers in RAM
  | .taw => do writeRamRegister w .w (← getRegs).acc
  | .taz => do writeRamRegister w .z (← getRegs).acc
  | .thx => do writeRamRegister w .x (← getRegs).dph
  | .tly => do writeRamRegister w .y (← getRegs).dpl
  | .xaw => do
    let value ← exchangeRamRegister w .w (← getRegs).acc
    modifyRegs ({ · with acc := value })
  | .xaz => do
    let value ← exchangeRamRegister w .z (← getRegs).acc
    modifyRegs ({ · with acc := value })
  | .xhr => do
    let value ← exchangeRamRegister w .r (← getRegs).dph
    modifyRegs ({ · with dph := value })
  | .xhx => do
    let value ← exchangeRamRegister w .x (← getRegs).dph
    modifyRegs ({ · with dph := value })
  | .xls => do
    let value ← exchangeRamRegister w .s (← getRegs).dpl
    modifyRegs ({ · with dpl := value })
  | .xly => do
    let value ← exchangeRamRegister w .y (← getRegs).dpl
    modifyRegs ({ · with dpl := value })
  | .sfb bit => do writeRamRegister w .f (withBit (← readRamRegister w .f) bit)
  | .rfb bit => do writeRamRegister w .f (withoutBit (← readRamRegister w .f) bit)
  | .fbt bit => do setSkip (hasBit (← readRamRegister w .f) bit)
  | .fbf bit => do setSkip (!hasBit (← readRamRegister w .f) bit)
  -- timer and interrupts
  | .stm => do
    modifyState fun s =>
      { s with
        timer := some (timerCycles argument)
        regs := { s.regs with timerFlag := false } }
    checkArgument w "STM" argument 0xC0 0x80
  | .ttm => do setSkip (← getRegs).timerFlag
  | .ei => modifyRegs ({ · with intEnable := true })
  | .di => modifyRegs ({ · with intEnable := false })

end Microboard.Ucom4
