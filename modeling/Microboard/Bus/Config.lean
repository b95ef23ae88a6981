import Microboard.Text.Record
import Microboard.Fault

/-!
# Shape of an address space

Width and byte order of a space, and the check that a supplied space has the shape a core needs.
-/

namespace Microboard

/-- Width of one bus access. -/
inductive AccessWidth where
  | byte
  | word
  | dword
  deriving DecidableEq, Repr

/-- Number of addressable units that an access touches. -/
def AccessWidth.units : AccessWidth → Nat
  | .byte => 1
  | .word => 2
  | .dword => 4

/-- Order of the units of a wide access. -/
inductive Endianness where
  /-- The lowest address holds the least significant unit. -/
  | little
  /-- The lowest address holds the most significant unit. -/
  | big
  deriving DecidableEq, Repr

def Endianness.describe : Endianness → String
  | .little => "Little"
  | .big => "Big"

/-- The lowest `width` bits of a 32-bit word. -/
def lowBits (width : Nat) : UInt32 := UInt32.ofNat ((1 <<< min width 32) - 1)

/-- Shape of an address space. -/
structure SpaceConfig where
  name : String
  /-- Width of the address bus in bits. -/
  addressWidth : Nat
  /-- Bits in an addressable unit. -/
  dataWidth : Nat
  /-- Order of units in wide accesses. -/
  endianness : Endianness := .little
  deriving DecidableEq, Repr

namespace SpaceConfig

def addressMask (config : SpaceConfig) : UInt32 := lowBits config.addressWidth

def dataMask (config : SpaceConfig) : UInt32 := lowBits config.dataWidth

def describe (config : SpaceConfig) : String :=
  Text.record "SpaceConfig"
    [("name", Text.quoted config.name), ("address_width", toString config.addressWidth),
      ("data_width", toString config.dataWidth), ("endianness", config.endianness.describe)]

/-- Checks a supplied space against the needs of a core: at least `minAddressWidth` address bits
and units of exactly `dataWidth` bits. The address bus is checked first. -/
def require (role : String) (actual : SpaceConfig) (minAddressWidth dataWidth : Nat) :
    Except SetupError Unit :=
  if actual.addressWidth < minAddressWidth ∨ 32 < actual.addressWidth then
    .error (.spaceMismatch role (toString minAddressWidth ++ "..=32 address bits")
      (toString actual.addressWidth ++ " address bits"))
  else if actual.dataWidth ≠ dataWidth then
    .error (.spaceMismatch role (toString dataWidth ++ "-bit data")
      (toString actual.dataWidth ++ "-bit data"))
  else
    .ok ()

end SpaceConfig

end Microboard
