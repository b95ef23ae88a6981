import Microboard.Fault

/-!
# uCOM-4 parts

The family has two instruction sets and several parts, which differ in the width of the program
counter, the size of the data RAM, the depth of the call stack and the I/O ports.
-/

namespace Microboard.Ucom4

/-- Instruction set of a part. -/
inductive Family where
  /-- Full set: timer, registers in RAM, interrupt enable. -/
  | ucom43
  /-- Reduced set; interrupts are always enabled. -/
  | ucom44
  deriving DecidableEq, Repr

/-! ## §1 I/O ports -/

/-- Output masks of the sixteen I/O ports. -/
abbrev PortMasks := Vector UInt8 16

/-- Sixteen masks of four bits, but for the ports that are listed. -/
def portMasks (exceptions : List (Fin 16 × UInt8)) : PortMasks :=
  exceptions.foldl (fun masks (port, mask) => masks.set port mask) (Vector.replicate 16 0xF)

/-- Which I/O ports a part has. Bit `n` of a set stands for port number `n`. -/
structure PortLayout where
  inputs : UInt16
  outputs : UInt16
  /-- Bits of each port that reach the pins. -/
  outputMasks : PortMasks
  deriving DecidableEq, Repr

namespace PortLayout

/-- Inputs on A to D, outputs on C to I; port I is three bits wide. -/
def standard : PortLayout where
  inputs := 0b000001111
  outputs := 0b111111100
  outputMasks := portMasks [(8, 0x7)]

/-- No port B, no ports H and I, and a single bit on port G. -/
def reduced : PortLayout where
  inputs := 0b000001101
  outputs := 0b001111100
  outputMasks := portMasks [(6, 0x1), (8, 0x7)]

def readable (ports : PortLayout) (port : UInt8) : Bool := ports.inputs.toNat.testBit port.toNat

def writable (ports : PortLayout) (port : UInt8) : Bool := ports.outputs.toNat.testBit port.toNat

/-- Bits of a port that reach the pins; the port number counts modulo sixteen. -/
def outputMask (ports : PortLayout) (port : UInt8) : UInt8 :=
  ports.outputMasks[Fin.ofNat 16 port.toNat]

end PortLayout

/-! ## §2 Geometry -/

structure Geometry where
  family : Family
  /-- Bits of the program counter. -/
  programWidth : Nat
  /-- Bits of a data RAM address. -/
  dataWidth : Nat
  stackLevels : Nat
  ports : PortLayout
  deriving DecidableEq, Repr

namespace Geometry

def programMask (g : Geometry) : UInt16 := UInt16.ofNat ((1 <<< g.programWidth) - 1)

def dataMask (g : Geometry) : UInt8 := UInt8.ofNat ((1 <<< g.dataWidth) - 1)

/-- Mask of the upper half of the data pointer. -/
def rowMask (g : Geometry) : UInt8 := g.dataMask >>> 4

/-- Refuses a field outside its range. -/
def checkField (parameter : String) (value low high : Nat) : Except SetupError Unit :=
  if low ≤ value ∧ value ≤ high then .ok () else .error (.outside parameter value low high)

/-- Checks that the interpreter can run the geometry; the first bad field is named. -/
def validate (g : Geometry) : Except SetupError Unit := do
  checkField "prg_width" g.programWidth 8 11
  checkField "data_width" g.dataWidth 4 7
  checkField "stack_levels" g.stackLevels 1 3

end Geometry

/-! ## §3 Known parts -/

inductive Part where
  | upd546
  | upd553
  | upd557l
  | upd650
  | upd552
  /-- A geometry that the host supplies. -/
  | custom (geometry : Geometry)
  deriving DecidableEq, Repr

namespace Part

/-- Geometry of the larger parts: 2K program, 96 nibbles of RAM in a 7-bit space, three levels. -/
def large (ports : PortLayout) : Geometry := ⟨.ucom43, 11, 7, 3, ports⟩

def geometry : Part → Geometry
  | .upd546 | .upd553 | .upd650 => large .standard
  | .upd557l => large .reduced
  | .upd552 => ⟨.ucom44, 10, 6, 1, .standard⟩
  | .custom g => g

def name : Part → String
  | .upd546 => "uPD546"
  | .upd553 => "uPD553"
  | .upd557l => "uPD557L"
  | .upd650 => "uPD650"
  | .upd552 => "uPD552"
  | .custom _ => "uCOM-4"

end Part

end Microboard.Ucom4
