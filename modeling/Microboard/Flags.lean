/-!
# Flag arithmetic

Helpers for packing condition flags into a byte and for the carries between nibbles.
-/

namespace Microboard.Flags

/-- The bits of `current`, with those under `mask` taken from `new`. -/
def merge (current mask new : UInt8) : UInt8 := (current &&& ~~~mask) ||| (new &&& mask)

/-- A flag when a condition holds, otherwise nothing. -/
def flagIf (condition : Bool) (flag : UInt8) : UInt8 := if condition then flag else 0

/-- Carry out of bit 3 of `a + b + carryIn`. -/
def halfCarryAdd (a b : UInt8) (carryIn : Bool) : Bool :=
  a.toNat % 16 + b.toNat % 16 + carryIn.toNat > 15

/-- Borrow into bit 4 of `a - b - borrowIn`. -/
def halfBorrowSub (a b : UInt8) (borrowIn : Bool) : Bool :=
  a.toNat % 16 < b.toNat % 16 + borrowIn.toNat

/-- Carry out of bit 11 of a sixteen-bit sum. -/
def halfCarryAdd16 (a b : UInt16) : Bool := a.toNat % 4096 + b.toNat % 4096 > 4095

end Microboard.Flags
