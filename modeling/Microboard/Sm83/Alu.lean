import Microboard.Flags
import Microboard.Sm83.Instruction
import Microboard.Sm83.Registers

/-!
# SM83 arithmetic

Pure operations on bytes and words. Each answers with the result and the whole new flag byte;
an operation that keeps some flags is given the current ones.
-/

namespace Microboard.Sm83.Alu

open Flags

/-- `ADD` and `ADC`. -/
def add (a b : UInt8) (carryIn : Bool) : UInt8 × UInt8 :=
  let sum := a.toNat + b.toNat + carryIn.toNat
  let value := UInt8.ofNat sum
  (value,
    flagIf (value == 0) zeroFlag ||| flagIf (halfCarryAdd a b carryIn) halfCarryFlag |||
      flagIf (255 < sum) carryFlag)

/-- `SUB`, `SBC` and `CP`. -/
def sub (a b : UInt8) (borrowIn : Bool) : UInt8 × UInt8 :=
  let value := a - b - borrowIn.toUInt8
  (value,
    subtractFlag ||| flagIf (value == 0) zeroFlag |||
      flagIf (halfBorrowSub a b borrowIn) halfCarryFlag |||
      flagIf (a.toNat < b.toNat + borrowIn.toNat) carryFlag)

/-- A result of a logical operation and its flags. -/
def logical (value extra : UInt8) : UInt8 × UInt8 :=
  (value, extra ||| flagIf (value == 0) zeroFlag)

/-- Operation between the accumulator and an operand; `CP` leaves the accumulator alone. -/
def apply (op : AluOp) (a b flags : UInt8) : UInt8 × UInt8 :=
  let carry := flags &&& carryFlag != 0
  match op with
  | .add => add a b false
  | .adc => add a b carry
  | .sub => sub a b false
  | .sbc => sub a b carry
  | .and => logical (a &&& b) halfCarryFlag
  | .xor => logical (a ^^^ b) 0
  | .or => logical (a ||| b) 0
  | .cp => (a, (sub a b false).2)

/-- Eight-bit `INC`; the carry is kept. -/
def inc (value flags : UInt8) : UInt8 × UInt8 :=
  let result := value + 1
  (result,
    (flags &&& carryFlag) ||| flagIf (result == 0) zeroFlag |||
      flagIf (result &&& 0x0F == 0) halfCarryFlag)

/-- Eight-bit `DEC`; the carry is kept. -/
def dec (value flags : UInt8) : UInt8 × UInt8 :=
  let result := value - 1
  (result,
    (flags &&& carryFlag) ||| subtractFlag ||| flagIf (result == 0) zeroFlag |||
      flagIf (result &&& 0x0F == 0x0F) halfCarryFlag)

/-- `ADD HL,rr`; the zero flag is kept. -/
def addWord (hl operand : UInt16) (flags : UInt8) : UInt16 × UInt8 :=
  (hl + operand,
    (flags &&& zeroFlag) ||| flagIf (halfCarryAdd16 hl operand) halfCarryFlag |||
      flagIf (65535 < hl.toNat + operand.toNat) carryFlag)

/-- Stack pointer plus a signed byte. The carries are those of adding the byte, unsigned, to the
low byte of the pointer. -/
def addSp (sp : UInt16) (offset : UInt8) : UInt16 × UInt8 :=
  let low := lowByte sp
  (sp + signExtend offset,
    flagIf (255 < low.toNat + offset.toNat) carryFlag |||
      flagIf (halfCarryAdd low offset false) halfCarryFlag)

/-- Result of a rotation and the bit that left the byte. -/
def rotated (op : Rotation) (value : UInt8) (carryIn : Bool) : UInt8 × Bool :=
  let top := value &&& 0x80 != 0
  let bottom := value &&& 0x01 != 0
  match op with
  | .rlc => (value <<< 1 ||| value >>> 7, top)
  | .rrc => (value >>> 1 ||| value <<< 7, bottom)
  | .rl => (value <<< 1 ||| carryIn.toUInt8, top)
  | .rr => (value >>> 1 ||| carryIn.toUInt8 <<< 7, bottom)
  | .sla => (value <<< 1, top)
  | .sra => (value >>> 1 ||| value &&& 0x80, bottom)
  | .swap => (value <<< 4 ||| value >>> 4, false)
  | .srl => (value >>> 1, bottom)

/-- Rotation of the second page. -/
def rotate (op : Rotation) (value flags : UInt8) : UInt8 × UInt8 :=
  let (result, carryOut) := rotated op value (flags &&& carryFlag != 0)
  (result, flagIf (result == 0) zeroFlag ||| flagIf carryOut carryFlag)

/-- Rotation of the accumulator, which reports nothing but the carry. -/
def rotateAccumulator (op : Rotation) (value flags : UInt8) : UInt8 × UInt8 :=
  let (result, reported) := rotate op value flags
  (result, reported &&& carryFlag)

/-- Flags after `BIT`; the carry is kept. -/
def bit (index value flags : UInt8) : UInt8 :=
  (flags &&& carryFlag) ||| halfCarryFlag ||| flagIf (value &&& 1 <<< index == 0) zeroFlag

/-- `DAA`: brings the result of an addition or subtraction of packed decimals back to packed
decimal. After a subtraction the corrections are subtracted without looking at the digits. -/
def daa (a flags : UInt8) : UInt8 × UInt8 :=
  let halfCarry := flags &&& halfCarryFlag != 0
  let carry := flags &&& carryFlag != 0
  let (value, carryOut) :=
    if flags &&& subtractFlag == 0 then
      let low := a.toNat + if halfCarry || 9 < a.toNat % 16 then 6 else 0
      let both := low + if carry || 0x9F < low then 0x60 else 0
      (UInt8.ofNat both, decide (255 < both))
    else
      (a - (if halfCarry then 6 else 0) - (if carry then 0x60 else 0), carry)
  (value,
    (flags &&& ~~~(halfCarryFlag ||| zeroFlag)) ||| flagIf carryOut carryFlag |||
      flagIf (value == 0) zeroFlag)

end Microboard.Sm83.Alu
