import Microboard.Disassembly
import Microboard.Ucom4.State

/-!
# uCOM-4 disassembly

Assembler text of one instruction. Bytes that are missing at the end read as zero. The target of
a jump within a block is worked out from the address that follows the instruction.
-/

namespace Microboard.Ucom4

def hexText (width value : Nat) : String := "$" ++ Hex.upper width value

/-- Operands of an operation, given the address after it, its opcode and its argument. -/
def operandText (next : UInt16) (opcode argument : UInt8) : Op → String
  | .ldz n | .li n => hexText 1 n.toNat
  | .jmp high | .cal high => hexText 3 (high.toUInt16 <<< 8 ||| argument.toUInt16).toNat
  | .czp vector => hexText 3 (vector.toUInt16 <<< 2).toNat
  | .jcp low => hexText 3 (next &&& 0x7C0 ||| low.toUInt16).toNat
  | .stm | .ldi | .cli | .ci | .ocd => hexText 2 argument.toNat
  | .illegal => hexText 2 opcode.toNat
  | operation =>
    match operation.bitOperand? with
    | some n => toString n.toNat
    | none => ""

/-- Disassembles the instruction at `pc` whose bytes begin a list, on a part of a family. -/
def disassemble (family : Family) (pc next : UInt16) (bytes : List UInt8) : DisassemblyRow :=
  let byte (index : Nat) := bytes.getD index 0
  let entry := decode family (byte 0)
  { address := pc.toUInt32
    bytes := (List.range entry.length).map byte
    mnemonic := if entry.operation = .illegal then "DB" else entry.operation.mnemonic
    operands := operandText next (byte 0) (byte 1) entry.operation
    isIllegal := entry.operation = .illegal }

/-- Instruction layout of a part: addresses have the width of its program counter and stay inside
a page, and an instruction has at most two bytes. -/
def listing (g : Geometry) : Listing where
  maxBytes := 2
  nextPc pc := (g.nextAddress (pc.toUInt16 &&& g.programMask)).toUInt32
  row pc bytes :=
    let pc := pc.toUInt16 &&& g.programMask
    disassemble g.family pc (g.nextAddress pc) bytes

end Microboard.Ucom4
