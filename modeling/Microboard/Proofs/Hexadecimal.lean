import Mathlib.Algebra.Group.Nat.Defs
import Microboard.Text.Hex

/-!
# Hexadecimal texts

A text has enough digits for its number and is read back as it, so different numbers have
different texts.

- **§1** Reading digits.
- **§2** Texts of an exact width.
- **§3** How many digits a number needs.
- **§4** Texts that grow with their number.
-/

namespace Microboard.Hex

/-! ## §1 Reading -/

/-- Value of a digit; letters count in either spelling. -/
def digitValue? (character : Char) : Option Nat :=
  if '0' ≤ character ∧ character ≤ '9' then some (character.toNat - '0'.toNat)
  else if 'A' ≤ character ∧ character ≤ 'F' then some (10 + (character.toNat - 'A'.toNat))
  else if 'a' ≤ character ∧ character ≤ 'f' then some (10 + (character.toNat - 'a'.toNat))
  else none

/-- Number that digits write, the most significant first; other characters write none. -/
def read? (text : List Char) : Option Nat :=
  text.foldlM (fun number character => (digitValue? character).map (16 * number + ·)) 0

/-- Whether a character is a digit in its upper-case spelling. -/
def isFigure (c : Char) : Bool := ('0' ≤ c && c ≤ '9') || ('A' ≤ c && c ≤ 'F')

theorem digitValue?_digit (letters : LetterCase) :
    ∀ value < 16, digitValue? (digit letters value) = some value := by
  cases letters <;> decide

theorem isFigure_digit : ∀ value < 16, isFigure (digit .upper value) = true := by
  decide

theorem read?_concat (text : List Char) (character : Char) :
    read? (text ++ [character]) = (read? text).bind fun number =>
      (digitValue? character).map (16 * number + ·) := by
  unfold read?
  rw [List.foldlM_append]
  simp only [List.foldlM_cons, List.foldlM_nil, bind_pure, Option.bind_eq_bind]

/-! ## §2 Exact widths -/

/-- The digits of a number are read back as what is left of it when it is cut to them. -/
theorem read?_fixed (letters : LetterCase) (width value : Nat) :
    read? (fixed letters width value) = some (value % 16 ^ width) := by
  induction width generalizing value with
  | zero => rw [Nat.pow_zero, Nat.mod_one]; rfl
  | succ width ih =>
    -- the lowest digit stands last
    have lowest := digitValue?_digit letters (value % 16) (Nat.mod_lt value (by decide))
    rw [fixed, read?_concat, ih, lowest, Option.bind_some, Option.map_some]
    rw [Nat.pow_succ', Nat.mod_mul, Nat.add_comm]

theorem isFigure_of_mem_fixed {width value : Nat} {c : Char}
    (member : c ∈ fixed .upper width value) : isFigure c = true := by
  induction width generalizing value with
  | zero => exact absurd member List.not_mem_nil
  | succ width ih =>
    rcases List.mem_append.mp member with upper | lowest
    · exact ih upper
    · obtain rfl := List.mem_singleton.mp lowest
      exact isFigure_digit _ (Nat.mod_lt value (by decide))

/-! ## §3 Needed digits -/

/-- Four bits make a digit. -/
theorem sixteen_pow (count : Nat) : 16 ^ count = 2 ^ (4 * count) := by
  rw [Nat.pow_mul]

/-- A number has as many digits as it needs. -/
theorem lt_digitCount (value : Nat) : value < 16 ^ digitCount value := by
  unfold digitCount
  split
  next zero => rw [zero]; decide
  next =>
    have top : value < 2 ^ (value.log2 + 1) := Nat.lt_log2_self
    have wide : 2 ^ (value.log2 + 1) ≤ 2 ^ (4 * (value.log2 / 4 + 1)) :=
      Nat.pow_le_pow_right (by decide) (by omega)
    rw [sixteen_pow]
    omega

/-- A number needs no more digits than it fits in. -/
theorem digitCount_le {width value : Nat} (positive : 0 < width) (fits : value < 16 ^ width) :
    digitCount value ≤ width := by
  unfold digitCount
  split
  next => exact positive
  next nonzero =>
    rw [sixteen_pow] at fits
    have top : value.log2 < 4 * width := (Nat.log2_lt nonzero).mpr fits
    omega

/-! ## §4 Growing texts -/

theorem toList_upper (width value : Nat) :
    (upper width value).toList = fixed .upper (max width (digitCount value)) value :=
  String.toList_ofList

/-- A text is read back as its number. -/
theorem read?_upper (width value : Nat) : read? (upper width value).toList = some value := by
  have fits : value < 16 ^ max width (digitCount value) :=
    Nat.lt_of_lt_of_le (lt_digitCount value)
      (Nat.pow_le_pow_right (by decide) (Nat.le_max_right ..))
  rw [toList_upper, read?_fixed, Nat.mod_eq_of_lt fits]

/-- Different numbers have different texts. -/
theorem upper_inj {width a b : Nat} (same : upper width a = upper width b) : a = b := by
  have read := congrArg (read? ·.toList) same
  simp only [read?_upper] at read
  exact Option.some.inj read

theorem isFigure_of_mem_upper {width value : Nat} {c : Char}
    (member : c ∈ (upper width value).toList) : isFigure c = true := by
  rw [toList_upper] at member
  exact isFigure_of_mem_fixed member

/-- A number that fits does not make its text longer. -/
theorem length_upper {width value : Nat} (positive : 0 < width) (fits : value < 16 ^ width) :
    (upper width value).length = width := by
  rw [← String.length_toList, toList_upper, length_fixed]
  exact Nat.max_eq_left (digitCount_le positive fits)

end Microboard.Hex
