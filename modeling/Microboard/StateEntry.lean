import Microboard.Line.Descriptor
import Microboard.Text.Hex

/-!
# State entries

Debuggers see the registers of a core as numbered, named entries of a given width. Registers of a
family carry small positive indices; entries that every family could offer carry negative ones.
-/

namespace Microboard

/-- One exported value. -/
structure StateEntry where
  /-- Number under which the value is read and written. -/
  index : Int
  symbol : String
  /-- Width in bits; widths beyond 64 count as 64. -/
  bits : Nat
  /-- Whether a debugger lists the entry by default. -/
  isShown : Bool := true
  deriving DecidableEq, Repr

namespace StateEntry

/-- Index of the current program counter. -/
def pcIndex : Int := -1

/-- Index of the address of the instruction that ran last. -/
def lastPcIndex : Int := -2

/-- Index of the stack pointer, in a family that has one. -/
def stackPointerIndex : Int := -3

/-- Index of the packed flags. -/
def flagsIndex : Int := -4

/-- The entry, left out of default listings. -/
def hidden (entry : StateEntry) : StateEntry := { entry with isShown := false }

/-- Bits that a value of the entry keeps. -/
def width (entry : StateEntry) : Nat := min entry.bits 64

/-- Mask over the bits of the entry. -/
def mask (entry : StateEntry) : Nat := (1 <<< entry.width) - 1

/-- Cuts a value to the width of the entry. -/
def truncate (entry : StateEntry) (value : Nat) : Nat := value % (1 <<< entry.width)

theorem truncate_lt (entry : StateEntry) (value : Nat) :
    entry.truncate value < 1 <<< entry.width := by
  refine Nat.mod_lt _ ?_
  rw [Nat.shiftLeft_eq, Nat.one_mul]
  exact Nat.two_pow_pos _

/-- Cutting a value again changes nothing. -/
theorem truncate_truncate (entry : StateEntry) (value : Nat) :
    entry.truncate (entry.truncate value) = entry.truncate value :=
  Nat.mod_mod _ _

/-- A value that fits is not cut. -/
theorem truncate_eq {entry : StateEntry} {value : Nat} (fits : value < 1 <<< entry.width) :
    entry.truncate value = value :=
  Nat.mod_eq_of_lt fits

theorem byte_truncated {entry : StateEntry} (width : entry.width = 8) (value : UInt8) :
    UInt8.ofNat (entry.truncate (entry.truncate value.toNat)) = value := by
  have range : value.toNat < 1 <<< entry.width := by
    rw [width]
    exact value.toNat_lt
  rw [truncate_truncate, truncate_eq range]
  exact UInt8.ofNat_toNat

theorem word_truncated {entry : StateEntry} (width : entry.width = 16) (value : UInt16) :
    UInt16.ofNat (entry.truncate (entry.truncate value.toNat)) = value := by
  have range : value.toNat < 1 <<< entry.width := by
    rw [width]
    exact value.toNat_lt
  rw [truncate_truncate, truncate_eq range]
  exact UInt16.ofNat_toNat

theorem bit_truncated {entry : StateEntry} (width : entry.width = 1) (value : Bool) :
    (entry.truncate (entry.truncate value.toNat) != 0) = value := by
  unfold truncate
  rw [width]
  cases value <;> rfl

/-- Bits of the mask up to its highest one. -/
def maskBits (entry : StateEntry) : Nat := if entry.mask = 0 then 0 else entry.mask.log2 + 1

/-- Digits that every value of the entry is shown with, four bits to a digit and at least one. -/
def digits (entry : StateEntry) : Nat := max 1 ((entry.maskBits + 3) / 4)

/-- Hexadecimal text of a value, filled up with zeros to the digits of the entry. -/
def format (entry : StateEntry) (value : Nat) : String :=
  Hex.upper entry.digits (entry.truncate value)

def find? (entries : List StateEntry) (index : Int) : Option StateEntry :=
  entries.find? (·.index == index)

/-- Looks an entry up by symbol, without regard to the case of ASCII letters. -/
def findSymbol? (entries : List StateEntry) (symbol : String) : Option StateEntry :=
  entries.find? (sameName ·.symbol symbol)

end StateEntry

end Microboard
