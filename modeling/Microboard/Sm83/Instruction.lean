import Microboard.Text.Record

/-!
# SM83 instructions

Operands, operations and the two opcode pages. An opcode is read as three fields, `x` (bits 7
and 6), `y` (bits 5 to 3) and `z` (bits 2 to 0); `y` is further read as `p` (its upper two bits)
and `q` (its lowest). Length and cost are properties of the decoded operation.
-/

namespace Microboard.Sm83

/-! ## §1 Operands -/

/-- Eight-bit operand. -/
inductive Operand where
  | b
  | c
  | d
  | e
  | h
  | l
  /-- The cell that `HL` points at. -/
  | atHl
  | a
  deriving DecidableEq, Repr

namespace Operand

/-- Operand that a three-bit field selects. -/
def ofField : Nat → Operand
  | 0 => .b
  | 1 => .c
  | 2 => .d
  | 3 => .e
  | 4 => .h
  | 5 => .l
  | 6 => .atHl
  | _ => .a

def name : Operand → String
  | .b => "B"
  | .c => "C"
  | .d => "D"
  | .e => "E"
  | .h => "H"
  | .l => "L"
  | .atHl => "(HL)"
  | .a => "A"

def describe : Operand → String
  | .atHl => "HlInd"
  | operand => operand.name

/-- A number that depends on whether the operand is a register or a cell of memory. -/
def choose (register memory : Nat) : Operand → Nat
  | .atHl => memory
  | _ => register

end Operand

/-- Register pair of loads and arithmetic. -/
inductive Pair where
  | bc
  | de
  | hl
  | sp
  deriving DecidableEq, Repr

namespace Pair

/-- Pair that a two-bit field selects. -/
def ofField : Nat → Pair
  | 0 => .bc
  | 1 => .de
  | 2 => .hl
  | _ => .sp

def name : Pair → String
  | .bc => "BC"
  | .de => "DE"
  | .hl => "HL"
  | .sp => "SP"

end Pair

/-- Register pair of `PUSH` and `POP`. -/
inductive StackPair where
  | bc
  | de
  | hl
  | af
  deriving DecidableEq, Repr

namespace StackPair

/-- Pair that a two-bit field selects. -/
def ofField : Nat → StackPair
  | 0 => .bc
  | 1 => .de
  | 2 => .hl
  | _ => .af

def name : StackPair → String
  | .bc => "BC"
  | .de => "DE"
  | .hl => "HL"
  | .af => "AF"

end StackPair

/-- Pointer through which the accumulator is loaded and stored. -/
inductive Pointer where
  | bc
  | de
  /-- `HL`, which is incremented after use. -/
  | hlUp
  /-- `HL`, which is decremented after use. -/
  | hlDown
  deriving DecidableEq, Repr

namespace Pointer

/-- Pointer that a two-bit field selects. -/
def ofField : Nat → Pointer
  | 0 => .bc
  | 1 => .de
  | 2 => .hlUp
  | _ => .hlDown

def name : Pointer → String
  | .bc => "(BC)"
  | .de => "(DE)"
  | .hlUp => "(HL+)"
  | .hlDown => "(HL-)"

def describe : Pointer → String
  | .bc => "Bc"
  | .de => "De"
  | .hlUp => "HlInc"
  | .hlDown => "HlDec"

end Pointer

/-- Condition of a branch. -/
inductive Condition where
  | notZero
  | zero
  | notCarry
  | carry
  deriving DecidableEq, Repr

namespace Condition

/-- Condition that a two-bit field selects. -/
def ofField : Nat → Condition
  | 0 => .notZero
  | 1 => .zero
  | 2 => .notCarry
  | _ => .carry

def name : Condition → String
  | .notZero => "NZ"
  | .zero => "Z"
  | .notCarry => "NC"
  | .carry => "C"

end Condition

/-- Operation between the accumulator and an operand. -/
inductive AluOp where
  | add
  | adc
  | sub
  | sbc
  | and
  | xor
  | or
  | cp
  deriving DecidableEq, Repr

namespace AluOp

/-- Operation that a three-bit field selects. -/
def ofField : Nat → AluOp
  | 0 => .add
  | 1 => .adc
  | 2 => .sub
  | 3 => .sbc
  | 4 => .and
  | 5 => .xor
  | 6 => .or
  | _ => .cp

def mnemonic : AluOp → String
  | .add => "ADD"
  | .adc => "ADC"
  | .sub => "SUB"
  | .sbc => "SBC"
  | .and => "AND"
  | .xor => "XOR"
  | .or => "OR"
  | .cp => "CP"

end AluOp

/-- Rotation or shift. -/
inductive Rotation where
  | rlc
  | rrc
  | rl
  | rr
  | sla
  | sra
  | swap
  | srl
  deriving DecidableEq, Repr

namespace Rotation

/-- Rotation that a three-bit field selects. -/
def ofField : Nat → Rotation
  | 0 => .rlc
  | 1 => .rrc
  | 2 => .rl
  | 3 => .rr
  | 4 => .sla
  | 5 => .sra
  | 6 => .swap
  | _ => .srl

def mnemonic : Rotation → String
  | .rlc => "RLC"
  | .rrc => "RRC"
  | .rl => "RL"
  | .rr => "RR"
  | .sla => "SLA"
  | .sra => "SRA"
  | .swap => "SWAP"
  | .srl => "SRL"

end Rotation

/-! ## §2 Operations -/

/-- Decoded operation. -/
inductive Op where
  | nop
  | stop
  | halt
  | di
  | ei
  | loadPair (target : Pair)
  | storeA (pointer : Pointer)
  | loadA (pointer : Pointer)
  | storeSp
  | incPair (target : Pair)
  | decPair (target : Pair)
  | addHl (source : Pair)
  | inc (target : Operand)
  | dec (target : Operand)
  | loadImmediate (target : Operand)
  | rlca
  | rrca
  | rla
  | rra
  | daa
  | cpl
  | scf
  | ccf
  | jr
  | jrIf (condition : Condition)
  | load (target source : Operand)
  | alu (op : AluOp) (source : Operand)
  | aluImmediate (op : AluOp)
  | ret
  | reti
  | retIf (condition : Condition)
  | pop (target : StackPair)
  | push (source : StackPair)
  | jp
  | jpHl
  | jpIf (condition : Condition)
  | call
  | callIf (condition : Condition)
  | rst (vector : UInt8)
  /-- `LDH (n),A`. -/
  | storeHigh
  /-- `LDH A,(n)`. -/
  | loadHigh
  /-- `LD (C),A`. -/
  | storeHighC
  /-- `LD A,(C)`. -/
  | loadHighC
  /-- `LD (nn),A`. -/
  | storeAbsolute
  /-- `LD A,(nn)`. -/
  | loadAbsolute
  | addSp
  | loadHlSp
  | loadSpHl
  /-- The byte that follows selects an operation of the second page. -/
  | secondPage
  | rotate (op : Rotation) (target : Operand)
  | bit (index : UInt8) (source : Operand)
  | res (index : UInt8) (target : Operand)
  | set (index : UInt8) (target : Operand)
  /-- No defined behaviour. -/
  | illegal
  deriving DecidableEq, Repr

/-- Clock cycles of an operation. -/
structure Cost where
  /-- Unconditional operations, and branches that are not taken. -/
  base : Nat
  /-- Branches that are taken. -/
  taken : Nat
  deriving DecidableEq, Repr

/-- Cost of an operation without a condition. -/
def Cost.fixed (cycles : Nat) : Cost := ⟨cycles, cycles⟩

namespace Op

/-- Encoded length in bytes, with the byte that selects the page. -/
def length : Op → Nat
  | .loadPair _ | .storeSp | .jp | .jpIf _ | .call | .callIf _ | .storeAbsolute
  | .loadAbsolute => 3
  | .stop | .jr | .jrIf _ | .loadImmediate _ | .aluImmediate _ | .storeHigh | .loadHigh | .addSp
  | .loadHlSp | .secondPage | .rotate .. | .bit .. | .res .. | .set .. => 2
  | _ => 1

/-- Cost in clock cycles. The page byte itself costs nothing: the operations of the second page
include it. -/
def cost : Op → Cost
  | .secondPage => .fixed 0
  | .storeSp => .fixed 20
  | .jr => .fixed 12
  | .jrIf _ => ⟨8, 12⟩
  | .loadPair _ | .storeHigh | .loadHigh | .loadHlSp | .pop _ => .fixed 12
  | .addHl _ | .storeA _ | .loadA _ | .incPair _ | .decPair _ | .loadSpHl | .storeHighC
  | .loadHighC | .aluImmediate _ => .fixed 8
  | .inc target | .dec target => .fixed (target.choose 4 12)
  | .loadImmediate target => .fixed (target.choose 8 12)
  | .load target source => .fixed (if target = .atHl ∨ source = .atHl then 8 else 4)
  | .alu _ source => .fixed (source.choose 4 8)
  | .retIf _ => ⟨8, 20⟩
  | .jpIf _ => ⟨12, 16⟩
  | .callIf _ => ⟨12, 24⟩
  | .addSp | .ret | .reti | .jp | .storeAbsolute | .loadAbsolute | .push _ | .rst _ => .fixed 16
  | .call => .fixed 24
  | .rotate _ target | .res _ target | .set _ target => .fixed (target.choose 8 16)
  | .bit _ source => .fixed (source.choose 8 12)
  | .nop | .stop | .halt | .di | .ei | .rlca | .rrca | .rla | .rra | .daa | .cpl | .scf | .ccf
  | .jpHl | .illegal => .fixed 4

def describe : Op → String
  | .nop => "Nop"
  | .stop => "Stop"
  | .halt => "Halt"
  | .di => "Di"
  | .ei => "Ei"
  | .loadPair target => Text.applied "LdR16Imm" [Text.titleCase target.name]
  | .storeA pointer => Text.applied "LdIndA" [pointer.describe]
  | .loadA pointer => Text.applied "LdAInd" [pointer.describe]
  | .storeSp => "LdImmSp"
  | .incPair target => Text.applied "IncR16" [Text.titleCase target.name]
  | .decPair target => Text.applied "DecR16" [Text.titleCase target.name]
  | .addHl source => Text.applied "AddHl" [Text.titleCase source.name]
  | .inc target => Text.applied "IncR8" [target.describe]
  | .dec target => Text.applied "DecR8" [target.describe]
  | .loadImmediate target => Text.applied "LdR8Imm" [target.describe]
  | .rlca => "Rlca"
  | .rrca => "Rrca"
  | .rla => "Rla"
  | .rra => "Rra"
  | .daa => "Daa"
  | .cpl => "Cpl"
  | .scf => "Scf"
  | .ccf => "Ccf"
  | .jr => "Jr"
  | .jrIf condition => Text.applied "JrCond" [Text.titleCase condition.name]
  | .load target source =>
    Text.record "LdR8R8" [("dst", target.describe), ("src", source.describe)]
  | .alu op source => Text.applied "Alu" [Text.titleCase op.mnemonic, source.describe]
  | .aluImmediate op => Text.applied "AluImm" [Text.titleCase op.mnemonic]
  | .ret => "Ret"
  | .reti => "Reti"
  | .retIf condition => Text.applied "RetCond" [Text.titleCase condition.name]
  | .pop target => Text.applied "Pop" [Text.titleCase target.name]
  | .push source => Text.applied "Push" [Text.titleCase source.name]
  | .jp => "Jp"
  | .jpHl => "JpHl"
  | .jpIf condition => Text.applied "JpCond" [Text.titleCase condition.name]
  | .call => "Call"
  | .callIf condition => Text.applied "CallCond" [Text.titleCase condition.name]
  | .rst vector => Text.applied "Rst" [toString vector.toNat]
  | .storeHigh => "LdhImmA"
  | .loadHigh => "LdhAImm"
  | .storeHighC => "LdhCA"
  | .loadHighC => "LdhAC"
  | .storeAbsolute => "LdAbsA"
  | .loadAbsolute => "LdAAbs"
  | .addSp => "AddSpImm"
  | .loadHlSp => "LdHlSpImm"
  | .loadSpHl => "LdSpHl"
  | .secondPage => "Prefix"
  | .rotate op target => Text.applied "Rot" [Text.titleCase op.mnemonic, target.describe]
  | .bit index source => Text.applied "Bit" [toString index.toNat, source.describe]
  | .res index target => Text.applied "Res" [toString index.toNat, target.describe]
  | .set index target => Text.applied "Set" [toString index.toNat, target.describe]
  | .illegal => "Illegal"

end Op

/-! ## §3 Opcode pages -/

def fieldX (opcode : UInt8) : Nat := opcode.toNat / 64

def fieldY (opcode : UInt8) : Nat := opcode.toNat / 8 % 8

def fieldZ (opcode : UInt8) : Nat := opcode.toNat % 8

/-- Accumulator and flag operations, by field `y`. -/
def accumulatorOp : Nat → Op
  | 0 => .rlca
  | 1 => .rrca
  | 2 => .rla
  | 3 => .rra
  | 4 => .daa
  | 5 => .cpl
  | 6 => .scf
  | _ => .ccf

/-- First quarter of the first page, by fields `y` and `z`. -/
def decodeQuarterZero (y z : Nat) : Op :=
  let p := y / 2
  let isFirst := y % 2 = 0
  match z with
  | 0 =>
    match y with
    | 0 => .nop
    | 1 => .storeSp
    | 2 => .stop
    | 3 => .jr
    | _ => .jrIf (.ofField (y - 4))
  | 1 => if isFirst then .loadPair (.ofField p) else .addHl (.ofField p)
  | 2 => if isFirst then .storeA (.ofField p) else .loadA (.ofField p)
  | 3 => if isFirst then .incPair (.ofField p) else .decPair (.ofField p)
  | 4 => .inc (.ofField y)
  | 5 => .dec (.ofField y)
  | 6 => .loadImmediate (.ofField y)
  | _ => accumulatorOp y

/-- Last quarter of the first page, by fields `y` and `z`. -/
def decodeQuarterThree (y z : Nat) : Op :=
  let p := y / 2
  let isFirst := y % 2 = 0
  match z with
  | 0 =>
    match y with
    | 4 => .storeHigh
    | 5 => .addSp
    | 6 => .loadHigh
    | 7 => .loadHlSp
    | _ => .retIf (.ofField y)
  | 1 =>
    if isFirst then .pop (.ofField p)
    else
      match p with
      | 0 => .ret
      | 1 => .reti
      | 2 => .jpHl
      | _ => .loadSpHl
  | 2 =>
    match y with
    | 4 => .storeHighC
    | 5 => .storeAbsolute
    | 6 => .loadHighC
    | 7 => .loadAbsolute
    | _ => .jpIf (.ofField y)
  | 3 =>
    match y with
    | 0 => .jp
    | 1 => .secondPage
    | 6 => .di
    | 7 => .ei
    | _ => .illegal
  | 4 => if y < 4 then .callIf (.ofField y) else .illegal
  | 5 => if isFirst then .push (.ofField p) else if p = 0 then .call else .illegal
  | 6 => .aluImmediate (.ofField y)
  | _ => .rst (UInt8.ofNat (y * 8))

/-- Operation of the first page. -/
def decode (opcode : UInt8) : Op :=
  let y := fieldY opcode
  let z := fieldZ opcode
  match fieldX opcode with
  | 0 => decodeQuarterZero y z
  | 1 => if opcode = 0x76 then .halt else .load (.ofField y) (.ofField z)
  | 2 => .alu (.ofField y) (.ofField z)
  | _ => decodeQuarterThree y z

/-- Operation of the second page. -/
def decodeSecond (opcode : UInt8) : Op :=
  let y := fieldY opcode
  let operand := Operand.ofField (fieldZ opcode)
  match fieldX opcode with
  | 0 => .rotate (.ofField y) operand
  | 1 => .bit (UInt8.ofNat y) operand
  | 2 => .res (UInt8.ofNat y) operand
  | _ => .set (UInt8.ofNat y) operand

end Microboard.Sm83
