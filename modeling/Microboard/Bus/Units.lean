import Microboard.Bus.Config

/-!
# Wide accesses

A wide access is a sequence of units. `split` takes a value apart into units in address order
and `assemble` puts such units together again.
-/

namespace Microboard

/-- Bits that one unit contributes to a wide value. -/
def unitShift (dataWidth : Nat) : Nat := min dataWidth 8

/-- Shifts a further unit into a value; bits shifted past the 32nd are lost. -/
def shiftIn (dataWidth : Nat) (value : UInt32) (unit : UInt8) : UInt32 :=
  (value <<< UInt32.ofNat (unitShift dataWidth)) ||| unit.toUInt32

/-- Value of units given in address order. -/
def assemble (units : List UInt8) (dataWidth : Nat) : Endianness → UInt32
  | .little => units.foldr (fun unit value => shiftIn dataWidth value unit) 0
  | .big => units.foldl (shiftIn dataWidth) 0

/-- Unit number `index` of a value, counted from the least significant. -/
def unitAt (value : UInt32) (dataWidth index : Nat) : UInt8 :=
  UInt8.ofNat ((value.toNat >>> (index * unitShift dataWidth)) % (1 <<< unitShift dataWidth))

/-- The `count` least significant units of a value, in address order. -/
def split (value : UInt32) (count dataWidth : Nat) : Endianness → List UInt8
  | .little => (List.range count).map (unitAt value dataWidth)
  | .big => ((List.range count).map (unitAt value dataWidth)).reverse

end Microboard
