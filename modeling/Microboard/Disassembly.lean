import Microboard.Text.Hex

/-!
# Disassembly

Rows of a listing, their printed form, and listings of consecutive instructions.
-/

namespace Microboard

/-- One disassembled instruction. -/
structure DisassemblyRow where
  address : UInt32
  /-- Bytes in fetch order. -/
  bytes : List UInt8
  mnemonic : String
  /-- Operands; empty if there are none. -/
  operands : String
  /-- Whether the opcode has no defined behaviour. -/
  isIllegal : Bool
  deriving DecidableEq, Repr

namespace DisassemblyRow

def length (row : DisassemblyRow) : Nat := row.bytes.length

/-- Printed form: address, bytes padded to three columns, mnemonic and operands. -/
def render (row : DisassemblyRow) : String :=
  let bytes := row.bytes.map fun byte => Hex.upper 2 byte.toNat ++ " "
  let padding := List.replicate (3 - row.length) "   "
  let operands := if row.operands.isEmpty then "" else " " ++ row.operands
  Hex.upper 4 row.address.toNat ++ ": " ++ String.join bytes ++ String.join padding ++
    row.mnemonic ++ operands

end DisassemblyRow

/-- How a core lays its instructions out in program memory. -/
structure Listing where
  maxBytes : Nat
  /-- Address after another in fetch order. -/
  nextPc : UInt32 → UInt32
  /-- Disassembles the instruction whose bytes begin a list. -/
  row : UInt32 → List UInt8 → DisassemblyRow

namespace Listing

/-- Address `steps` places after another in fetch order. -/
def advance (listing : Listing) (pc : UInt32) : (steps : Nat) → UInt32
  | 0 => pc
  | steps + 1 => listing.advance (listing.nextPc pc) steps

/-- Bytes from an address on, in fetch order. -/
def window (listing : Listing) (peek : UInt32 → UInt8) (pc : UInt32) : (count : Nat) → List UInt8
  | 0 => []
  | count + 1 => peek pc :: listing.window peek (listing.nextPc pc) count

/-- Rows of consecutive instructions. `peek` reads program memory without side effect, and
addresses advance the way the program counter does. -/
def rows (listing : Listing) (peek : UInt32 → UInt8) (pc : UInt32) :
    (count : Nat) → List DisassemblyRow
  | 0 => []
  | count + 1 =>
    let row := listing.row pc (listing.window peek pc listing.maxBytes)
    row :: listing.rows peek (listing.advance pc (max row.length 1)) count

end Listing

end Microboard
