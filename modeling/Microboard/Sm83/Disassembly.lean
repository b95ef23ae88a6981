import Microboard.Disassembly
import Microboard.Sm83.Instruction
import Microboard.Word

/-!
# SM83 disassembly

Assembler text of one instruction. Bytes that are missing at the end read as zero.
-/

namespace Microboard.Sm83

def byteText (value : UInt8) : String := "$" ++ Hex.upper 2 value.toNat

def wordText (value : UInt16) : String := "$" ++ Hex.upper 4 value.toNat

/-- Something in memory. -/
def memoryText (address : String) : String := "(" ++ address ++ ")"

/-- An address in the last page of memory. -/
def highText (offset : UInt8) : String := memoryText ("$FF" ++ Hex.upper 2 offset.toNat)

def operandsText (left right : String) : String := left ++ "," ++ right

def signedText (offset : UInt8) : String :=
  if offset < 0x80 then "+" ++ byteText offset else "-" ++ byteText (0 - offset)

/-- Where a relative jump at `pc` goes. -/
def relativeTarget (pc : UInt32) (offset : UInt8) : UInt16 := pc.toUInt16 + 2 + signExtend offset

/-- Mnemonic and operands of an operation at `pc`, given its opcode, the byte after the opcode
and the word after the opcode. -/
def assemblerText (pc : UInt32) (opcode immediate : UInt8) (word : UInt16) :
    Op → String × String
  | .nop => ("NOP", "")
  | .stop => ("STOP", "")
  | .halt => ("HALT", "")
  | .di => ("DI", "")
  | .ei => ("EI", "")
  | .loadPair target => ("LD", operandsText target.name (wordText word))
  | .storeA pointer => ("LD", operandsText pointer.name "A")
  | .loadA pointer => ("LD", operandsText "A" pointer.name)
  | .storeSp => ("LD", operandsText (memoryText (wordText word)) "SP")
  | .incPair target => ("INC", target.name)
  | .decPair target => ("DEC", target.name)
  | .addHl source => ("ADD", operandsText "HL" source.name)
  | .inc target => ("INC", target.name)
  | .dec target => ("DEC", target.name)
  | .loadImmediate target => ("LD", operandsText target.name (byteText immediate))
  | .rlca => ("RLCA", "")
  | .rrca => ("RRCA", "")
  | .rla => ("RLA", "")
  | .rra => ("RRA", "")
  | .daa => ("DAA", "")
  | .cpl => ("CPL", "")
  | .scf => ("SCF", "")
  | .ccf => ("CCF", "")
  | .jr => ("JR", wordText (relativeTarget pc immediate))
  | .jrIf condition =>
    ("JR", operandsText condition.name (wordText (relativeTarget pc immediate)))
  | .load target source => ("LD", operandsText target.name source.name)
  | .alu op source => (op.mnemonic, operandsText "A" source.name)
  | .aluImmediate op => (op.mnemonic, operandsText "A" (byteText immediate))
  | .ret => ("RET", "")
  | .reti => ("RETI", "")
  | .retIf condition => ("RET", condition.name)
  | .pop target => ("POP", target.name)
  | .push source => ("PUSH", source.name)
  | .jp => ("JP", wordText word)
  | .jpHl => ("JP", "HL")
  | .jpIf condition => ("JP", operandsText condition.name (wordText word))
  | .call => ("CALL", wordText word)
  | .callIf condition => ("CALL", operandsText condition.name (wordText word))
  | .rst vector => ("RST", byteText vector)
  | .storeHigh => ("LDH", operandsText (highText immediate) "A")
  | .loadHigh => ("LDH", operandsText "A" (highText immediate))
  | .storeHighC => ("LD", operandsText (memoryText "$FF00+C") "A")
  | .loadHighC => ("LD", operandsText "A" (memoryText "$FF00+C"))
  | .storeAbsolute => ("LD", operandsText (memoryText (wordText word)) "A")
  | .loadAbsolute => ("LD", operandsText "A" (memoryText (wordText word)))
  | .addSp => ("ADD", operandsText "SP" (signedText immediate))
  | .loadHlSp => ("LD", operandsText "HL" ("SP" ++ signedText immediate))
  | .loadSpHl => ("LD", operandsText "SP" "HL")
  | .rotate op target => (op.mnemonic, target.name)
  | .bit index source => ("BIT", operandsText (toString index.toNat) source.name)
  | .res index target => ("RES", operandsText (toString index.toNat) target.name)
  | .set index target => ("SET", operandsText (toString index.toNat) target.name)
  | .secondPage | .illegal => ("DB", byteText opcode)

/-- The operation that the first two bytes of an instruction select. -/
def decodeBytes (opcode next : UInt8) : Op :=
  match decode opcode with
  | .secondPage => decodeSecond next
  | op => op

/-- Disassembles the instruction at `pc` whose bytes begin a list. -/
def disassemble (pc : UInt32) (bytes : List UInt8) : DisassemblyRow :=
  let byte (index : Nat) := bytes.getD index 0
  let op := decodeBytes (byte 0) (byte 1)
  let (mnemonic, operands) := assemblerText pc (byte 0) (byte 1) (joinBytes (byte 2) (byte 1)) op
  { address := pc
    bytes := (List.range op.length).map byte
    mnemonic
    operands
    isIllegal := op = .illegal }

/-- Instruction layout: addresses have 16 bits and an instruction at most three bytes. -/
def listing : Listing where
  maxBytes := 3
  nextPc pc := pc + 1 &&& 0xFFFF
  row pc bytes := disassemble (pc &&& 0xFFFF) bytes

end Microboard.Sm83
