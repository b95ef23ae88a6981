/-!
# Hexadecimal text

Addresses, opcodes and state values are shown in hexadecimal. `Hex.fixed` writes a number with an
exact count of digits; `Hex.atLeast` pads to a minimum and grows when the number needs more.
-/

namespace Microboard.Hex

/-- Spelling of the digits above nine. -/
inductive LetterCase where
  | upper
  | lower
  deriving DecidableEq, Repr

/-- First letter of each spelling. -/
def LetterCase.first : LetterCase → Char
  | .upper => 'A'
  | .lower => 'a'

/-- One digit, for a value below sixteen. -/
def digit (letters : LetterCase) (value : Nat) : Char :=
  if value < 10 then Char.ofNat ('0'.toNat + value)
  else Char.ofNat (letters.first.toNat + (value - 10))

/-- The lowest `width` digits of a number, most significant first. -/
def fixed (letters : LetterCase) : (width value : Nat) → List Char
  | 0, _ => []
  | width + 1, value => fixed letters width (value / 16) ++ [digit letters (value % 16)]

theorem length_fixed (letters : LetterCase) (width value : Nat) :
    (fixed letters width value).length = width := by
  induction width generalizing value with
  | zero => rfl
  | succ width ih => simp [fixed, ih]

/-- How many digits a number needs; zero needs one. -/
def digitCount (value : Nat) : Nat := if value = 0 then 1 else value.log2 / 4 + 1

/-- A number with at least `width` digits. -/
def atLeast (letters : LetterCase) (width value : Nat) : String :=
  String.ofList (fixed letters (max width (digitCount value)) value)

/-- Upper-case text of at least `width` digits. -/
def upper (width value : Nat) : String := atLeast .upper width value

/-- Lower-case text of at least `width` digits. -/
def lower (width value : Nat) : String := atLeast .lower width value

end Microboard.Hex
