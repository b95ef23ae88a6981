import Microboard.Text.Record
import Microboard.Ucom4.Part

/-!
# uCOM-4 instructions

Operations and the opcode map. Operations that address a bit carry its number, and those that
change the row of the data pointer carry the bits to flip. A part of the reduced family has no
use for the opcodes of the extension set: there they are illegal, but keep their length.
-/

namespace Microboard.Ucom4

/-! ## §1 Operations -/

/-- Decoded operation. -/
inductive Op where
  | nop
  | di
  | s
  | tit
  | tc
  | ttm
  | daa
  | tal
  | ad
  | ads
  | das
  | clc
  | cm
  | inc
  | op
  | dec
  | cma
  | cia
  | tla
  | ded
  | stm
  | ldi
  | cli
  | ci
  | exl
  | adc
  | xc
  | stc
  | inm
  | ocd
  | dem
  | rar
  | ei
  | ip
  | ind
  | ia
  | jpa
  | taz
  | taw
  | oe
  | tly
  | thx
  | rt
  | rts
  | xaz
  | xaw
  | xls
  | xhr
  | xly
  | xhx
  | fbf (bit : UInt8)
  | tab (bit : UInt8)
  | xm (flip : UInt8)
  | xmd (flip : UInt8)
  | cmb (bit : UInt8)
  | lm (flip : UInt8)
  | xmi (flip : UInt8)
  | tpb (bit : UInt8)
  | tpa (bit : UInt8)
  | tmb (bit : UInt8)
  | fbt (bit : UInt8)
  | rpb (bit : UInt8)
  | reb (bit : UInt8)
  | rmb (bit : UInt8)
  | rfb (bit : UInt8)
  | spb (bit : UInt8)
  | seb (bit : UInt8)
  | smb (bit : UInt8)
  | sfb (bit : UInt8)
  | ldz (column : UInt8)
  | li (value : UInt8)
  | jmp (high : UInt8)
  | cal (high : UInt8)
  | czp (vector : UInt8)
  | jcp (low : UInt8)
  /-- No defined behaviour. -/
  | illegal
  deriving DecidableEq, Repr

namespace Op

/-- Whether the operation belongs to the set that only the full family has. -/
def isExtension : Op → Bool
  | .taw | .taz | .thx | .tly | .xaw | .xaz | .xhr | .xhx | .xls | .xly | .sfb _ | .rfb _
  | .fbt _ | .fbf _ | .stm | .ttm | .ei | .di => true
  | _ => false

def mnemonic : Op → String
  | .nop => "NOP"
  | .di => "DI"
  | .s => "S"
  | .tit => "TIT"
  | .tc => "TC"
  | .ttm => "TTM"
  | .daa => "DAA"
  | .tal => "TAL"
  | .ad => "AD"
  | .ads => "ADS"
  | .das => "DAS"
  | .clc => "CLC"
  | .cm => "CM"
  | .inc => "INC"
  | .op => "OP"
  | .dec => "DEC"
  | .cma => "CMA"
  | .cia => "CIA"
  | .tla => "TLA"
  | .ded => "DED"
  | .stm => "STM"
  | .ldi => "LDI"
  | .cli => "CLI"
  | .ci => "CI"
  | .exl => "EXL"
  | .adc => "ADC"
  | .xc => "XC"
  | .stc => "STC"
  | .inm => "INM"
  | .ocd => "OCD"
  | .dem => "DEM"
  | .rar => "RAR"
  | .ei => "EI"
  | .ip => "IP"
  | .ind => "IND"
  | .ia => "IA"
  | .jpa => "JPA"
  | .taz => "TAZ"
  | .taw => "TAW"
  | .oe => "OE"
  | .tly => "TLY"
  | .thx => "THX"
  | .rt => "RT"
  | .rts => "RTS"
  | .xaz => "XAZ"
  | .xaw => "XAW"
  | .xls => "XLS"
  | .xhr => "XHR"
  | .xly => "XLY"
  | .xhx => "XHX"
  | .fbf _ => "FBF"
  | .tab _ => "TAB"
  | .xm _ => "XM"
  | .xmd _ => "XMD"
  | .cmb _ => "CMB"
  | .lm _ => "LM"
  | .xmi _ => "XMI"
  | .tpb _ => "TPB"
  | .tpa _ => "TPA"
  | .tmb _ => "TMB"
  | .fbt _ => "FBT"
  | .rpb _ => "RPB"
  | .reb _ => "REB"
  | .rmb _ => "RMB"
  | .rfb _ => "RFB"
  | .spb _ => "SPB"
  | .seb _ => "SEB"
  | .smb _ => "SMB"
  | .sfb _ => "SFB"
  | .ldz _ => "LDZ"
  | .li _ => "LI"
  | .jmp _ => "JMP"
  | .cal _ => "CAL"
  | .czp _ => "CZP"
  | .jcp _ => "JCP"
  | .illegal => "?"

/-- The bit number or flip that an operation of a group of four carries. -/
def bitOperand? : Op → Option UInt8
  | .fbf n | .tab n | .xm n | .xmd n | .cmb n | .lm n | .xmi n | .tpb n | .tpa n | .tmb n
  | .fbt n | .rpb n | .reb n | .rmb n | .rfb n | .spb n | .seb n | .smb n | .sfb n => some n
  | _ => none

/-- Whatever the opcode itself carries. -/
def payload? : Op → Option UInt8
  | .ldz n | .li n | .jmp n | .cal n | .czp n | .jcp n => some n
  | operation => operation.bitOperand?

def describe : Op → String
  | .illegal => "Illegal"
  | operation =>
    Text.applied (Text.titleCase operation.mnemonic)
      (operation.payload?.map fun n => toString n.toNat).toList

end Op

/-! ## §2 Opcode map -/

/-- Operations that take up a single opcode. -/
def singleOp : Nat → Op
  | 0x00 => .nop
  | 0x01 => .di
  | 0x02 => .s
  | 0x03 => .tit
  | 0x04 => .tc
  | 0x05 => .ttm
  | 0x06 => .daa
  | 0x07 => .tal
  | 0x08 => .ad
  | 0x09 => .ads
  | 0x0A => .das
  | 0x0B => .clc
  | 0x0C => .cm
  | 0x0D => .inc
  | 0x0E => .op
  | 0x0F => .dec
  | 0x10 => .cma
  | 0x11 => .cia
  | 0x12 => .tla
  | 0x13 => .ded
  | 0x14 => .stm
  | 0x15 => .ldi
  | 0x16 => .cli
  | 0x17 => .ci
  | 0x18 => .exl
  | 0x19 => .adc
  | 0x1A => .xc
  | 0x1B => .stc
  | 0x1D => .inm
  | 0x1E => .ocd
  | 0x1F => .dem
  | 0x30 => .rar
  | 0x31 => .ei
  | 0x32 => .ip
  | 0x33 => .ind
  | 0x40 => .ia
  | 0x41 => .jpa
  | 0x42 => .taz
  | 0x43 => .taw
  | 0x44 => .oe
  | 0x46 => .tly
  | 0x47 => .thx
  | 0x48 => .rt
  | 0x49 => .rts
  | 0x4A => .xaz
  | 0x4B => .xaw
  | 0x4C => .xls
  | 0x4D => .xhr
  | 0x4E => .xly
  | 0x4F => .xhx
  | _ => .illegal

/-- Operations that take up four opcodes, by the upper six bits. -/
def groupOp? (n : UInt8) : Nat → Option Op
  | 8 => some (.fbf n)
  | 9 => some (.tab n)
  | 10 => some (.xm n)
  | 11 => some (.xmd n)
  | 13 => some (.cmb n)
  | 14 => some (.lm n)
  | 15 => some (.xmi n)
  | 20 => some (.tpb n)
  | 21 => some (.tpa n)
  | 22 => some (.tmb n)
  | 23 => some (.fbt n)
  | 24 => some (.rpb n)
  | 25 => some (.reb n)
  | 26 => some (.rmb n)
  | 27 => some (.rfb n)
  | 28 => some (.spb n)
  | 29 => some (.seb n)
  | 30 => some (.smb n)
  | 31 => some (.sfb n)
  | _ => none

/-- Operation of the full set. -/
def decodeFull (opcode : UInt8) : Op :=
  match opcode.toNat / 16 with
  | 8 => .ldz (opcode &&& 0x0F)
  | 9 => .li (opcode &&& 0x0F)
  | 10 => if opcode &&& 0x08 = 0 then .jmp (opcode &&& 0x07) else .cal (opcode &&& 0x07)
  | 11 => .czp (opcode &&& 0x0F)
  | high =>
    if 12 ≤ high then .jcp (opcode &&& 0x3F)
    else (groupOp? (opcode &&& 0x03) (opcode.toNat / 4)).getD (singleOp opcode.toNat)

/-- Whether an argument byte follows an opcode. -/
def hasArgument (opcode : UInt8) : Bool :=
  opcode &&& 0xFC == 0x14 || opcode &&& 0xF0 == 0xA0 || opcode == 0x1E

/-- What a part makes of an opcode. -/
structure Entry where
  operation : Op
  /-- Bytes fetched. -/
  length : Nat
  /-- Machine cycles: one for each byte, and one more for a return. -/
  cycles : Nat
  deriving DecidableEq, Repr

/-- Operation of an opcode on a part of a family. -/
def decodeOp (family : Family) (opcode : UInt8) : Op :=
  let operation := decodeFull opcode
  if family = .ucom44 ∧ operation.isExtension then .illegal else operation

/-- What a part of a family makes of an opcode. -/
def decode (family : Family) (opcode : UInt8) : Entry :=
  let operation := decodeOp family opcode
  let length := if hasArgument opcode then 2 else 1
  let isReturn := operation = .rt ∨ operation = .rts
  { operation, length, cycles := if isReturn then length + 1 else length }

end Microboard.Ucom4
