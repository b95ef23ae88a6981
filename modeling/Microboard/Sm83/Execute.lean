import Microboard.Sm83.Alu
import Microboard.Sm83.State

/-!
# SM83 instruction execution

Each operation makes its bus cycles in the order in which the part makes them. Operand fetches
move the program counter as they happen, so relative jumps and pushed return addresses refer to
the instruction that follows.
-/

namespace Microboard.Sm83

variable {σ : Type}

/-! ## §1 Operand access -/

def getOperand (w : Wiring σ) : Operand → Exec σ UInt8
  | .b => do return (← getRegs).b
  | .c => do return (← getRegs).c
  | .d => do return (← getRegs).d
  | .e => do return (← getRegs).e
  | .h => do return (← getRegs).h
  | .l => do return (← getRegs).l
  | .atHl => do read8 w (← getRegs).hl
  | .a => do return (← getRegs).a

def setOperand (w : Wiring σ) (operand : Operand) (value : UInt8) : Exec σ Unit :=
  match operand with
  | .b => modifyRegs ({ · with b := value })
  | .c => modifyRegs ({ · with c := value })
  | .d => modifyRegs ({ · with d := value })
  | .e => modifyRegs ({ · with e := value })
  | .h => modifyRegs ({ · with h := value })
  | .l => modifyRegs ({ · with l := value })
  | .atHl => do write8 w (← getRegs).hl value
  | .a => modifyRegs ({ · with a := value })

def Registers.pair (regs : Registers) : Pair → UInt16
  | .bc => regs.bc
  | .de => regs.de
  | .hl => regs.hl
  | .sp => regs.sp

def Registers.setPair (regs : Registers) (value : UInt16) : Pair → Registers
  | .bc => regs.setBc value
  | .de => regs.setDe value
  | .hl => regs.setHl value
  | .sp => { regs with sp := value }

/-- Value of a pair that can be pushed. -/
def Registers.stackPair (regs : Registers) : StackPair → UInt16
  | .bc => regs.bc
  | .de => regs.de
  | .hl => regs.hl
  | .af => regs.af

/-- Sets a pair that was popped. -/
def Registers.setStackPair (regs : Registers) (value : UInt16) : StackPair → Registers
  | .bc => regs.setBc value
  | .de => regs.setDe value
  | .hl => regs.setHl value
  | .af => regs.setAf value

/-- Address that a pointer gives, and the registers after it was used. -/
def Registers.follow (regs : Registers) : Pointer → UInt16 × Registers
  | .bc => (regs.bc, regs)
  | .de => (regs.de, regs)
  | .hlUp => (regs.hl, regs.setHl (regs.hl + 1))
  | .hlDown => (regs.hl, regs.setHl (regs.hl - 1))

def Registers.holds (regs : Registers) : Condition → Bool
  | .notZero => !regs.flag zeroFlag
  | .zero => regs.flag zeroFlag
  | .notCarry => !regs.flag carryFlag
  | .carry => regs.flag carryFlag

def followPointer (pointer : Pointer) : Exec σ UInt16 := do
  let (address, regs) := (← getRegs).follow pointer
  modifyRegs fun _ => regs
  return address

def setAccumulator (result : UInt8 × UInt8) : Exec σ Unit :=
  modifyRegs fun r => { r with a := result.1 }.setF result.2

/-- Replaces an operand by the result of an operation on it and the flags. -/
def updateOperand (w : Wiring σ) (operand : Operand) (op : UInt8 → UInt8 → UInt8 × UInt8) :
    Exec σ Unit := do
  let value ← getOperand w operand
  let (result, flags) := op value (← getRegs).f
  setOperand w operand result
  modifyRegs (·.setF flags)

/-- Moves the program counter by a signed byte. -/
def jumpRelative (offset : UInt8) : Exec σ Unit :=
  modifyRegs fun r => { r with pc := r.pc + signExtend offset }

def jumpTo (target : UInt16) : Exec σ Unit := modifyRegs ({ · with pc := target })

def callTo (w : Wiring σ) (target : UInt16) : Exec σ Unit := do
  push16 w (← getRegs).pc
  jumpTo target

/-- Runs a branch if a condition holds, and says whether it did. -/
def branchIf (condition : Condition) (branch : Exec σ Unit) : Exec σ Bool := do
  if (← getRegs).holds condition then
    branch
    return true
  else
    return false

/-- An operation without a condition. -/
@[inline] def always (act : Exec σ Unit) : Exec σ Bool := do
  act
  return false

/-- Address in the last page of memory. -/
def highAddress (offset : UInt8) : UInt16 := joinBytes 0xFF offset

/-! ## §2 Operations -/

/-- `HALT`. With interrupts disabled but one pending, the core does not halt: the next fetch
leaves the program counter alone instead. -/
def halt (w : Wiring σ) : Exec σ Unit := do
  let regs ← getRegs
  if !regs.ime && regs.pending != 0 then
    modifyState fun s => { s with haltBug := true }
  else
    enterHalt w false

/-- Runs an operation whose opcode was fetched, and says whether a branch was taken. The page
byte and illegal opcodes do nothing here. -/
def perform (w : Wiring σ) : Op → Exec σ Bool
  | .nop | .illegal | .secondPage => return false
  | .stop => always do
    discard <| fetch8 w
    enterHalt w true
  | .halt => always (halt w)
  | .di => always <| modifyState fun s =>
    { s with regs := { s.regs with ime := false }, eiDelay := false }
  | .ei => always <| modifyState fun s =>
    { s with regs := { s.regs with ime := true }, eiDelay := true }
  | .loadPair target => always do
    let value ← fetch16 w
    modifyRegs (·.setPair value target)
  | .storeA pointer => always do
    let address ← followPointer pointer
    write8 w address (← getRegs).a
  | .loadA pointer => always do
    let address ← followPointer pointer
    let value ← read8 w address
    modifyRegs ({ · with a := value })
  | .storeSp => always do
    let address ← fetch16 w
    let sp := (← getRegs).sp
    write8 w address (lowByte sp)
    write8 w (address + 1) (highByte sp)
  | .incPair target => always <| modifyRegs fun r => r.setPair (r.pair target + 1) target
  | .decPair target => always <| modifyRegs fun r => r.setPair (r.pair target - 1) target
  | .addHl source => always <| modifyRegs fun r =>
    let (value, flags) := Alu.addWord r.hl (r.pair source) r.f
    (r.setHl value).setF flags
  | .inc target => always <| updateOperand w target Alu.inc
  | .dec target => always <| updateOperand w target Alu.dec
  | .loadImmediate target => always do
    let value ← fetch8 w
    setOperand w target value
  | .rlca => always do setAccumulator (Alu.rotateAccumulator .rlc (← getRegs).a (← getRegs).f)
  | .rrca => always do setAccumulator (Alu.rotateAccumulator .rrc (← getRegs).a (← getRegs).f)
  | .rla => always do setAccumulator (Alu.rotateAccumulator .rl (← getRegs).a (← getRegs).f)
  | .rra => always do setAccumulator (Alu.rotateAccumulator .rr (← getRegs).a (← getRegs).f)
  | .daa => always do setAccumulator (Alu.daa (← getRegs).a (← getRegs).f)
  | .cpl => always <| modifyRegs fun r =>
    { r with a := ~~~r.a }.setF (r.f ||| subtractFlag ||| halfCarryFlag)
  | .scf => always <| modifyRegs fun r => r.setF (r.f &&& zeroFlag ||| carryFlag)
  | .ccf => always <| modifyRegs fun r =>
    r.setF ((r.f &&& (zeroFlag ||| carryFlag)) ^^^ carryFlag)
  | .jr => always do jumpRelative (← fetch8 w)
  | .jrIf condition => do
    let offset ← fetch8 w
    branchIf condition (jumpRelative offset)
  | .load target source => always do
    let value ← getOperand w source
    setOperand w target value
  | .alu op source => always do
    let value ← getOperand w source
    let regs ← getRegs
    setAccumulator (Alu.apply op regs.a value regs.f)
  | .aluImmediate op => always do
    let value ← fetch8 w
    let regs ← getRegs
    setAccumulator (Alu.apply op regs.a value regs.f)
  | .ret => always do jumpTo (← pop16 w)
  | .reti => always do
    jumpTo (← pop16 w)
    modifyRegs ({ · with ime := true })
  | .retIf condition => branchIf condition do jumpTo (← pop16 w)
  | .pop target => always do
    let value ← pop16 w
    modifyRegs (·.setStackPair value target)
  | .push source => always do push16 w ((← getRegs).stackPair source)
  | .jp => always do jumpTo (← fetch16 w)
  | .jpHl => always <| modifyRegs fun r => { r with pc := r.hl }
  | .jpIf condition => do
    let target ← fetch16 w
    branchIf condition (jumpTo target)
  | .call => always do callTo w (← fetch16 w)
  | .callIf condition => do
    let target ← fetch16 w
    branchIf condition (callTo w target)
  | .rst vector => always <| callTo w vector.toUInt16
  | .storeHigh => always do
    let offset ← fetch8 w
    write8 w (highAddress offset) (← getRegs).a
  | .loadHigh => always do
    let offset ← fetch8 w
    let value ← read8 w (highAddress offset)
    modifyRegs ({ · with a := value })
  | .storeHighC => always do
    let regs ← getRegs
    write8 w (highAddress regs.c) regs.a
  | .loadHighC => always do
    let value ← read8 w (highAddress (← getRegs).c)
    modifyRegs ({ · with a := value })
  | .storeAbsolute => always do
    let address ← fetch16 w
    write8 w address (← getRegs).a
  | .loadAbsolute => always do
    let address ← fetch16 w
    let value ← read8 w address
    modifyRegs ({ · with a := value })
  | .addSp => always do
    let offset ← fetch8 w
    modifyRegs fun r =>
      let (value, flags) := Alu.addSp r.sp offset
      { r with sp := value }.setF flags
  | .loadHlSp => always do
    let offset ← fetch8 w
    modifyRegs fun r =>
      let (value, flags) := Alu.addSp r.sp offset
      (r.setHl value).setF flags
  | .loadSpHl => always <| modifyRegs fun r => { r with sp := r.hl }
  | .rotate op target => always <| updateOperand w target (Alu.rotate op)
  | .bit index source => always do
    let value ← getOperand w source
    modifyRegs fun r => r.setF (Alu.bit index value r.f)
  | .res index target => always do
    let value ← getOperand w target
    setOperand w target (value &&& ~~~(1 <<< index))
  | .set index target => always do
    let value ← getOperand w target
    setOperand w target (value ||| 1 <<< index)

/-- Runs an operation and answers its cost. -/
def performCosted (w : Wiring σ) (op : Op) : Exec σ Nat := do
  let taken ← perform w op
  return if taken then op.cost.taken else op.cost.base

/-- Runs an operation of the first page, which may send for one of the second, and answers its
cost. -/
def execute (w : Wiring σ) (op : Op) : Exec σ Nat := do
  if op = .secondPage then
    performCosted w (decodeSecond (← fetch8 w))
  else
    performCosted w op

end Microboard.Sm83
