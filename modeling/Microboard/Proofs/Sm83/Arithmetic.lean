import Mathlib.Data.Nat.Digits.Defs
import Mathlib.Tactic.LinearCombination
import Microboard.Sm83.Alu

/-!
# SM83 arithmetic on byte strings

The arithmetic of a core works on bytes. Programs work on longer numbers a byte at a time, from the
least significant one on, and leave the carry between two bytes in the flags.

- **§1** Carries, and the flags they are packed into.
- **§2** Chains of operations through which a carry is handed on.
- **§3** Binary numbers, and the addition of words.
- **§4** Packed decimals.
-/

namespace Microboard.Sm83.Alu

open Flags

/-! ## §1 Carries -/

/-- Whether flags hold a carry, or a borrow. -/
def carried (flags : UInt8) : Bool := flags &&& carryFlag != 0

/-- Whether flags hold a half carry, or a half borrow. -/
def halfCarried (flags : UInt8) : Bool := flags &&& halfCarryFlag != 0

theorem flags_add (a b : UInt8) (carryIn : Bool) :
    let flags := (add a b carryIn).2
    flags &&& subtractFlag = 0 ∧ halfCarried flags = halfCarryAdd a b carryIn ∧
      carried flags = decide (255 < a.toNat + b.toNat + carryIn.toNat) := by
  unfold add carried halfCarried
  dsimp only
  generalize (UInt8.ofNat _ == 0) = zero
  generalize halfCarryAdd a b carryIn = half
  generalize decide (255 < a.toNat + b.toNat + carryIn.toNat) = carry
  revert zero half carry
  decide

theorem flags_sub (a b : UInt8) (borrowIn : Bool) :
    let flags := (sub a b borrowIn).2
    flags &&& subtractFlag ≠ 0 ∧ halfCarried flags = halfBorrowSub a b borrowIn ∧
      carried flags = decide (a.toNat < b.toNat + borrowIn.toNat) := by
  unfold sub carried halfCarried
  dsimp only
  generalize (a - b - borrowIn.toUInt8 == 0) = zero
  generalize halfBorrowSub a b borrowIn = half
  generalize decide (a.toNat < b.toNat + borrowIn.toNat) = borrow
  revert zero half borrow
  decide

theorem toNat_add (a b : UInt8) (carryIn : Bool) :
    (add a b carryIn).1.toNat = (a.toNat + b.toNat + carryIn.toNat) % 256 :=
  UInt8.toNat_ofNat'

theorem toNat_sub (a b : UInt8) (borrowIn : Bool) :
    (sub a b borrowIn).1.toNat = (512 + a.toNat - b.toNat - borrowIn.toNat) % 256 := by
  have left := a.toNat_lt
  have right := b.toNat_lt
  unfold sub
  dsimp only
  rw [UInt8.toNat_sub, UInt8.toNat_sub]
  cases borrowIn
  · show (256 - 0 + (256 - b.toNat + a.toNat) % 256) % 256 = (512 + a.toNat - b.toNat - 0) % 256
    omega
  · show (256 - 1 + (256 - b.toNat + a.toNat) % 256) % 256 = (512 + a.toNat - b.toNat - 1) % 256
    omega

/-! ## §2 Chains -/

/-- A way to read bytes as the digits of a number. -/
structure Reading where
  base : Nat
  digit : UInt8 → Nat
  /-- The bytes that are digits. -/
  valid : UInt8 → Prop
  digit_lt : ∀ byte, valid byte → digit byte < base

namespace Reading

variable (reading : Reading)

/-- The number whose digits are some bytes, the least significant one first. -/
def value (bytes : List UInt8) : Nat := Nat.ofDigits reading.base (bytes.map reading.digit)

theorem value_cons (byte : UInt8) (bytes : List UInt8) :
    reading.value (byte :: bytes) = reading.digit byte + reading.base * reading.value bytes :=
  Nat.ofDigits_cons ..

/-- A number with so many digits is small. -/
theorem value_lt {bytes : List UInt8} (valid : ∀ byte ∈ bytes, reading.valid byte) :
    reading.value bytes < reading.base ^ bytes.length := by
  induction bytes with
  | nil => exact Nat.one_pos
  | cons byte bytes ih =>
    obtain ⟨first, rest⟩ := List.forall_mem_cons.mp valid
    rw [value_cons, List.length_cons, Nat.pow_succ']
    calc reading.digit byte + reading.base * reading.value bytes
        < reading.base + reading.base * reading.value bytes :=
          Nat.add_lt_add_right (reading.digit_lt byte first) _
      _ = reading.base * (reading.value bytes + 1) := by rw [Nat.mul_add_one, Nat.add_comm]
      _ ≤ reading.base * reading.base ^ bytes.length := Nat.mul_le_mul_left _ (ih rest)

end Reading

/-- Operation on two bytes and the current flags. -/
abbrev ByteOp : Type := UInt8 → UInt8 → UInt8 → UInt8 × UInt8

/-- Applies an operation to two byte strings, from their first bytes on. Each time it is given the
flags that it left behind the time before. -/
def chain (op : ByteOp) : List UInt8 → List UInt8 → UInt8 → List UInt8 × UInt8
  | x :: xs, y :: ys, flags =>
    let (result, flags) := op x y flags
    let (results, flags) := chain op xs ys flags
    (result :: results, flags)
  | _, _, flags => ([], flags)

/-- The operation adds digits, with sign `1`, or subtracts them, with sign `-1`, and loses nothing:
what does not fit into the digit that it answers is in the carry. -/
structure Exact (reading : Reading) (sign : ℤ) (op : ByteOp) : Prop where
  valid : ∀ {x y : UInt8} (flags : UInt8), reading.valid x → reading.valid y →
    reading.valid (op x y flags).1
  digit : ∀ {x y : UInt8} (flags : UInt8), reading.valid x → reading.valid y →
    (reading.digit x : ℤ) + sign * (reading.digit y + (carried flags).toNat) =
      reading.digit (op x y flags).1 + sign * (reading.base * (carried (op x y flags).2).toNat)

section Exactness

variable {reading : Reading} {sign : ℤ} {op : ByteOp} {xs ys : List UInt8}

/-- Then a chain of it adds or subtracts numbers, and the carry that is left over is that of the
numbers. -/
theorem Exact.chain (exact : Exact reading sign op) (same : xs.length = ys.length)
    (left : ∀ x ∈ xs, reading.valid x) (right : ∀ y ∈ ys, reading.valid y) (flags : UInt8) :
    let (results, after) := chain op xs ys flags
    results.length = xs.length ∧ (∀ r ∈ results, reading.valid r) ∧
      (reading.value xs : ℤ) + sign * (reading.value ys + (carried flags).toNat) =
        reading.value results +
          sign * (reading.base ^ xs.length * (carried after).toNat : ℕ) := by
  -- the carry between two bytes is that of one step and goes into the next
  induction xs generalizing ys flags with
  | nil =>
    obtain rfl := List.length_eq_zero_iff.mp same.symm
    refine ⟨rfl, nofun, ?_⟩
    simp [Reading.value]
  | cons x xs ih =>
    cases ys with
    | nil => cases same
    | cons y ys =>
      obtain ⟨leftFirst, leftRest⟩ := List.forall_mem_cons.mp left
      obtain ⟨rightFirst, rightRest⟩ := List.forall_mem_cons.mp right
      have first := exact.digit flags leftFirst rightFirst
      obtain ⟨length, valid, rest⟩ := ih (Nat.succ.inj same) leftRest rightRest (op x y flags).2
      refine ⟨congrArg Nat.succ length,
        List.forall_mem_cons.mpr ⟨exact.valid flags leftFirst rightFirst, valid⟩, ?_⟩
      simp only [Reading.value_cons, List.length_cons]
      push_cast at rest ⊢
      rw [pow_succ]
      linear_combination first + reading.base * rest

/-- A chain of additions leaves the sum modulo the range, and carries exactly if it is exceeded. -/
theorem Exact.sum (exact : Exact reading 1 op) (same : xs.length = ys.length)
    (left : ∀ x ∈ xs, reading.valid x) (right : ∀ y ∈ ys, reading.valid y) (flags : UInt8) :
    let (results, after) := Alu.chain op xs ys flags
    let sum := reading.value xs + reading.value ys + (carried flags).toNat
    reading.value results = sum % reading.base ^ xs.length ∧
      (carried after = true ↔ reading.base ^ xs.length ≤ sum) := by
  obtain ⟨length, valid, total⟩ := exact.chain same left right flags
  have small := reading.value_lt valid
  rw [length] at small
  dsimp only at *
  generalize reading.base ^ xs.length = range at *
  generalize carried (Alu.chain op xs ys flags).2 = carry at *
  cases carry with
  | false =>
    have sum : reading.value xs + reading.value ys + (carried flags).toNat =
        reading.value (Alu.chain op xs ys flags).1 := by
      simp only [Bool.toNat_false] at total
      omega
    rw [sum, Nat.mod_eq_of_lt small]
    exact ⟨rfl, by simpa using small⟩
  | true =>
    have sum : reading.value xs + reading.value ys + (carried flags).toNat =
        reading.value (Alu.chain op xs ys flags).1 + range := by
      simp only [Bool.toNat_true] at total
      omega
    rw [sum, Nat.add_mod_right, Nat.mod_eq_of_lt small]
    exact ⟨rfl, by simp⟩

/-- A chain of subtractions leaves the difference modulo the range, and borrows exactly if it is
negative. -/
theorem Exact.difference (exact : Exact reading (-1) op) (same : xs.length = ys.length)
    (left : ∀ x ∈ xs, reading.valid x) (right : ∀ y ∈ ys, reading.valid y) (flags : UInt8) :
    let (results, after) := Alu.chain op xs ys flags
    (reading.value results : ℤ) = ((reading.value xs : ℤ) - reading.value ys -
        (carried flags).toNat) % (reading.base ^ xs.length : ℕ) ∧
      (carried after = true ↔ reading.value xs < reading.value ys + (carried flags).toNat) := by
  obtain ⟨length, valid, total⟩ := exact.chain same left right flags
  have small := reading.value_lt valid
  rw [length] at small
  dsimp only at *
  generalize reading.base ^ xs.length = range at *
  generalize carried (Alu.chain op xs ys flags).2 = carry at *
  cases carry with
  | false =>
    have difference : (reading.value xs : ℤ) - reading.value ys - (carried flags).toNat =
        reading.value (Alu.chain op xs ys flags).1 := by
      simp only [Bool.toNat_false] at total
      omega
    rw [difference, Int.emod_eq_of_lt (Int.natCast_nonneg _) (by exact_mod_cast small)]
    exact ⟨rfl, by simp; omega⟩
  | true =>
    have difference : (reading.value xs : ℤ) - reading.value ys - (carried flags).toNat =
        reading.value (Alu.chain op xs ys flags).1 - range := by
      simp only [Bool.toNat_true] at total
      omega
    rw [difference, Int.sub_emod_right,
      Int.emod_eq_of_lt (Int.natCast_nonneg _) (by exact_mod_cast small)]
    exact ⟨rfl, by simp; omega⟩

end Exactness

/-! ## §3 Binary numbers -/

/-- Every byte is a digit. -/
def binary : Reading where
  base := 256
  digit := UInt8.toNat
  valid _ := True
  digit_lt byte _ := byte.toNat_lt

theorem adc_exact : Exact binary 1 (apply .adc) where
  valid _ _ _ := trivial
  digit {x y} flags _ _ := by
    show (x.toNat : ℤ) + 1 * (y.toNat + (carried flags).toNat) =
      (add x y (carried flags)).1.toNat + 1 * (256 * (carried (add x y (carried flags)).2).toNat)
    have left := x.toNat_lt
    have right := y.toNat_lt
    have one := (carried flags).toNat_le
    rw [(flags_add x y _).2.2, toNat_add]
    by_cases exceeds : 255 < x.toNat + y.toNat + (carried flags).toNat
    · rw [decide_eq_true exceeds, Bool.toNat_true]
      omega
    · rw [decide_eq_false exceeds, Bool.toNat_false]
      omega

theorem sbc_exact : Exact binary (-1) (apply .sbc) where
  valid _ _ _ := trivial
  digit {x y} flags _ _ := by
    show (x.toNat : ℤ) + -1 * (y.toNat + (carried flags).toNat) =
      (sub x y (carried flags)).1.toNat + -1 * (256 * (carried (sub x y (carried flags)).2).toNat)
    have left := x.toNat_lt
    have right := y.toNat_lt
    have one := (carried flags).toNat_le
    rw [(flags_sub x y _).2.2, toNat_sub]
    by_cases under : x.toNat < y.toNat + (carried flags).toNat
    · rw [decide_eq_true under, Bool.toNat_true]
      omega
    · rw [decide_eq_false under, Bool.toNat_false]
      omega

/-- Adding words is adding their low bytes, and then their high bytes with the carry. -/
theorem addWord_eq (hl operand : UInt16) (flags : UInt8) :
    let low := add (lowByte hl) (lowByte operand) false
    let high := add (highByte hl) (highByte operand) (carried low.2)
    addWord hl operand flags =
      (joinBytes high.1 low.1,
        (flags &&& zeroFlag) ||| (high.2 &&& (halfCarryFlag ||| carryFlag))) := by
  intro low high
  have left := hl.toNat_lt
  have right := operand.toNat_lt
  have lowBytes : (lowByte hl).toNat = hl.toNat % 256 ∧
      (lowByte operand).toNat = operand.toNat % 256 := ⟨UInt8.toNat_ofNat', UInt8.toNat_ofNat'⟩
  have highBytes : (highByte hl).toNat = hl.toNat / 256 ∧
      (highByte operand).toNat = operand.toNat / 256 := by
    unfold highByte
    rw [UInt8.toNat_ofNat', UInt8.toNat_ofNat']
    omega
  have carry : carried low.2 = decide (255 < hl.toNat % 256 + operand.toNat % 256) := by
    rw [(flags_add _ _ _).2.2, lowBytes.1, lowBytes.2]
    rfl
  have carryIn : (carried low.2).toNat = (hl.toNat % 256 + operand.toNat % 256) / 256 := by
    rw [carry]
    by_cases exceeds : 255 < hl.toNat % 256 + operand.toNat % 256
    · rw [decide_eq_true exceeds, Bool.toNat_true]
      omega
    · rw [decide_eq_false exceeds, Bool.toNat_false]
      omega
  have word : hl + operand = joinBytes high.1 low.1 := by
    apply UInt16.toNat_inj.mp
    unfold joinBytes
    rw [UInt16.toNat_add, UInt16.toNat_ofNat', toNat_add, toNat_add, lowBytes.1, lowBytes.2,
      highBytes.1, highBytes.2, carryIn, Bool.toNat_false]
    omega
  have half : halfCarryAdd16 hl operand =
      halfCarryAdd (highByte hl) (highByte operand) (carried low.2) := by
    unfold halfCarryAdd16 halfCarryAdd
    rw [highBytes.1, highBytes.2, carryIn, decide_eq_decide]
    omega
  have exceeds : decide (65535 < hl.toNat + operand.toNat) =
      decide (255 < (highByte hl).toNat + (highByte operand).toNat + (carried low.2).toNat) := by
    rw [highBytes.1, highBytes.2, carryIn, decide_eq_decide]
    omega
  have flagged (zero half exceeds : Bool) : flagIf half halfCarryFlag ||| flagIf exceeds carryFlag =
      (flagIf zero zeroFlag ||| flagIf half halfCarryFlag ||| flagIf exceeds carryFlag) &&&
        (halfCarryFlag ||| carryFlag) := by
    revert zero half exceeds
    decide
  unfold addWord
  rw [word, half, exceeds, UInt8.or_assoc, flagged (high.1 == 0)]
  rfl

/-- Chains of additions and of subtractions with carry compute with numbers of any length, and what
is left over is in the carry. Adding words agrees with a chain of two bytes: the half carry and the
carry are those of the high bytes, the zero flag stays as it was, and the subtract flag is clear. -/
theorem chains_exact (xs ys : List UInt8) (same : xs.length = ys.length) (flags : UInt8) :
    let X : ℤ := binary.value xs
    let Y : ℤ := binary.value ys
    let carry : ℤ := (carried flags).toNat
    let sum := chain (apply .adc) xs ys flags
    let difference := chain (apply .sbc) xs ys flags
    (sum.1.length = xs.length ∧
      X + Y + carry = binary.value sum.1 + 256 ^ xs.length * (carried sum.2).toNat) ∧
    (difference.1.length = xs.length ∧
      X - Y - carry = binary.value difference.1 - 256 ^ xs.length * (carried difference.2).toNat) ∧
    ∀ (hl operand : UInt16) (flags : UInt8),
      let low := apply .add (lowByte hl) (lowByte operand) flags
      let high := apply .adc (highByte hl) (highByte operand) low.2
      let word := addWord hl operand flags
      word.1 = joinBytes high.1 low.1 ∧
        word.2 = (flags &&& zeroFlag) ||| (high.2 &&& (halfCarryFlag ||| carryFlag)) ∧
        word.2 &&& subtractFlag = 0 := by
  dsimp only
  have base : binary.base = 256 := rfl
  obtain ⟨lengthSum, -, total⟩ :=
    adc_exact.chain same (fun _ _ => trivial) (fun _ _ => trivial) flags
  obtain ⟨lengthDifference, -, rest⟩ :=
    sbc_exact.chain same (fun _ _ => trivial) (fun _ _ => trivial) flags
  rw [base] at total rest
  push_cast at total rest
  refine ⟨⟨lengthSum, ?_⟩, ⟨lengthDifference, ?_⟩, ?_⟩
  · linear_combination total
  · linear_combination rest
  · intro hl operand flags
    have first : zeroFlag &&& subtractFlag = 0 := rfl
    have second : (halfCarryFlag ||| carryFlag) &&& subtractFlag = 0 := rfl
    rw [addWord_eq]
    refine ⟨rfl, rfl, ?_⟩
    rw [or_and_distrib, UInt8.and_assoc, UInt8.and_assoc, first, second, UInt8.and_zero,
      UInt8.and_zero, UInt8.or_zero]

/-- Two numbers of three bytes, added with a carry to begin with. -/
theorem chains_exact_three_bytes :
    let xs : List UInt8 := [0xFF, 0xFF, 0x01]
    let ys : List UInt8 := [0x01, 0x00, 0xFE]
    xs.length = ys.length ∧ chain (apply .adc) xs ys carryFlag = ([0x01, 0x00, 0x00], 0xB0) ∧
      (binary.value xs + binary.value ys + (carried carryFlag).toNat : ℤ) =
        binary.value [0x01, 0x00, 0x00] + 256 ^ xs.length * (carried 0xB0).toNat := by
  intro xs ys
  have added : chain (apply .adc) xs ys carryFlag = ([0x01, 0x00, 0x00], 0xB0) := by
    decide +kernel
  obtain ⟨⟨-, sum⟩, -⟩ := chains_exact xs ys rfl carryFlag
  rw [added] at sum
  exact ⟨rfl, added, sum⟩

/-! ## §4 Packed decimals -/

/-- A byte holds two decimal digits, one in each nibble. -/
def decimal : Reading where
  base := 100
  digit byte := 10 * (byte.toNat / 16) + byte.toNat % 16
  valid byte := byte.toNat / 16 ≤ 9 ∧ byte.toNat % 16 ≤ 9
  digit_lt byte valid := by omega

instance (byte : UInt8) : Decidable (decimal.valid byte) :=
  inferInstanceAs (Decidable (byte.toNat / 16 ≤ 9 ∧ byte.toNat % 16 ≤ 9))

/-- So many bytes of the decimal digits of a number, the least significant one first. -/
def packed : Nat → Nat → List UInt8
  | 0, _ => []
  | count + 1, number =>
    UInt8.ofNat (16 * (number / 10 % 10) + number % 10) :: packed count (number / 100)

/-- Decimal digits are those of the number that they show. -/
theorem packed_value {bytes : List UInt8} (valid : ∀ byte ∈ bytes, decimal.valid byte) :
    packed bytes.length (decimal.value bytes) = bytes := by
  induction bytes with
  | nil => rfl
  | cons byte bytes ih =>
    obtain ⟨⟨high, low⟩, rest⟩ := List.forall_mem_cons.mp valid
    have value : decimal.value (byte :: bytes) =
        10 * (byte.toNat / 16) + byte.toNat % 16 + 100 * decimal.value bytes :=
      decimal.value_cons byte bytes
    have first : UInt8.ofNat (16 * (decimal.value (byte :: bytes) / 10 % 10) +
        decimal.value (byte :: bytes) % 10) = byte := by
      apply UInt8.toNat_inj.mp
      rw [UInt8.toNat_ofNat', value]
      omega
    have others : decimal.value (byte :: bytes) / 100 = decimal.value bytes := by omega
    rw [List.length_cons, packed, first, others, ih rest]

/-- An operation whose result is adjusted. -/
def adjusted (op : AluOp) : ByteOp := fun x y flags =>
  let (value, flags) := apply op x y flags
  daa value flags

/-- `DAA` keeps a carry and may add one. -/
theorem carried_adjusted (flags : UInt8) (carryOut zero : Bool) :
    carried ((flags &&& ~~~(halfCarryFlag ||| zeroFlag)) ||| flagIf carryOut carryFlag |||
      flagIf zero zeroFlag) = (carried flags || carryOut) := by
  have kept : ~~~(halfCarryFlag ||| zeroFlag) &&& carryFlag = carryFlag := rfl
  have others : flagIf zero zeroFlag &&& carryFlag = 0 := by
    revert zero
    decide
  unfold carried
  rw [or_and_distrib, or_and_distrib, UInt8.and_assoc, kept, others, UInt8.or_zero]
  cases carryOut with
  | false =>
    show (flags &&& carryFlag ||| 0 != 0) = _
    rw [UInt8.or_zero, Bool.or_false]
  | true =>
    rw [Bool.or_true, bne_iff_ne, Ne, UInt8.or_eq_zero_iff]
    exact fun none => absurd none.2 (by decide)

/-- After an addition, `DAA` adds six to each digit that is too large or has carried. -/
theorem daa_added (value : UInt8) {flags : UInt8} (added : flags &&& subtractFlag = 0) :
    let low := value.toNat + if halfCarried flags || 9 < value.toNat % 16 then 6 else 0
    let both := low + if carried flags || 0x9F < low then 0x60 else 0
    (daa value flags).1.toNat = both % 256 ∧
      carried (daa value flags).2 = (carried flags || decide (255 < both)) := by
  intro low both
  have adds : (flags &&& subtractFlag == 0) = true := by rw [added]; rfl
  unfold daa
  simp only [adds, if_true]
  exact ⟨UInt8.toNat_ofNat', carried_adjusted flags _ _⟩

/-- After a subtraction, it subtracts six from each digit that has borrowed. -/
theorem daa_subtracted (value : UInt8) {flags : UInt8}
    (subtracted : flags &&& subtractFlag ≠ 0) :
    (daa value flags).1.toNat = (512 + value.toNat - (if halfCarried flags then 6 else 0) -
        (if carried flags then 0x60 else 0)) % 256 ∧
      carried (daa value flags).2 = carried flags := by
  have subtracts : (flags &&& subtractFlag == 0) = false := beq_false_of_ne subtracted
  have bound := value.toNat_lt
  unfold daa
  simp only [subtracts]
  refine ⟨?_, (carried_adjusted flags _ _).trans (Bool.or_self _)⟩
  show (value - (if halfCarried flags then 6 else 0) - if carried flags then 0x60 else 0).toNat = _
  rw [UInt8.toNat_sub, UInt8.toNat_sub]
  cases halfCarried flags <;> cases carried flags
  all_goals
    simp
    omega

/-- Two digits of decimals are added in one step, each nibble with the carry of the one below. -/
theorem adjusted_adc {x y : UInt8} (flags : UInt8) (left : decimal.valid x)
    (right : decimal.valid y) :
    let after := adjusted .adc x y flags
    decimal.valid after.1 ∧ decimal.digit x + decimal.digit y + (carried flags).toNat =
      decimal.digit after.1 + 100 * (carried after.2).toNat := by
  intro after
  obtain ⟨added, half, carry⟩ := flags_add x y (carried flags)
  obtain ⟨value, exceeds⟩ := daa_added (add x y (carried flags)).1 added
  change after.1.toNat = _ at value
  change carried after.2 = _ at exceeds
  rw [half, carry, toNat_add] at value exceeds
  unfold halfCarryAdd at value exceeds
  have one := (carried flags).toNat_le
  simp only [decide_eq_true_eq, ← Bool.decide_or] at value exceeds
  simp only [decimal] at left right ⊢
  generalize (carried flags).toNat = c at *
  generalize x.toNat = a at *
  generalize y.toNat = b at *
  -- each correction is made exactly if the digits of its nibble add up to more than nine
  have first : (if a % 16 + b % 16 + c > 15 ∨ 9 < (a + b + c) % 256 % 16 then 6 else 0) =
      6 * ((a % 16 + b % 16 + c) / 10) := by split <;> omega
  have second : (255 < a + b + c ∨ 0x9F < (a + b + c) % 256 + 6 * ((a % 16 + b % 16 + c) / 10)) ↔
      9 < a / 16 + b / 16 + (a % 16 + b % 16 + c) / 10 := by omega
  simp only [first, second] at value exceeds
  have digits : a % 16 + b % 16 + c = 10 * ((a % 16 + b % 16 + c) / 10) +
      (a % 16 + b % 16 + c) % 10 := (Nat.div_add_mod _ 10).symm
  have nibbles : a + b + c = 16 * (a / 16 + b / 16) + (a % 16 + b % 16 + c) := by omega
  generalize (a % 16 + b % 16 + c) / 10 = k at *
  generalize a % 16 + b % 16 + c = n at *
  by_cases high : 9 < a / 16 + b / 16 + k
  · have result : after.1.toNat = 16 * (a / 16 + b / 16 + k - 10) + (n - 10 * k) := by
      rw [value, if_pos high]
      omega
    rw [if_pos high] at exceeds
    rw [exceeds, decide_eq_true (by omega), result, Bool.toNat_true]
    omega
  · rw [if_neg high] at value exceeds
    rw [exceeds, decide_eq_false (by omega), value, Bool.toNat_false]
    omega

/-- So are they subtracted. -/
theorem adjusted_sbc {x y : UInt8} (flags : UInt8) (left : decimal.valid x)
    (right : decimal.valid y) :
    let after := adjusted .sbc x y flags
    decimal.valid after.1 ∧ decimal.digit x + 100 * (carried after.2).toNat =
      decimal.digit after.1 + decimal.digit y + (carried flags).toNat := by
  intro after
  obtain ⟨subtracted, half, borrow⟩ := flags_sub x y (carried flags)
  obtain ⟨value, under⟩ := daa_subtracted (sub x y (carried flags)).1 subtracted
  change after.1.toNat = _ at value
  change carried after.2 = _ at under
  rw [half, borrow, toNat_sub] at value
  rw [borrow] at under
  unfold halfBorrowSub at value
  have one := (carried flags).toNat_le
  simp only [decide_eq_true_eq] at value
  simp only [decimal] at left right ⊢
  generalize (carried flags).toNat = c at *
  generalize x.toNat = a at *
  generalize y.toNat = b at *
  -- a nibble that is too small borrows sixteen, of which six are given back
  by_cases low : a % 16 < b % 16 + c
  all_goals by_cases high : a < b + c
  · rw [if_pos low, if_pos high] at value
    rw [under, decide_eq_true high, value, Bool.toNat_true]
    omega
  · rw [if_pos low, if_neg high] at value
    rw [under, decide_eq_false high, value, Bool.toNat_false]
    omega
  · rw [if_neg low, if_pos high] at value
    rw [under, decide_eq_true high, value, Bool.toNat_true]
    omega
  · rw [if_neg low, if_neg high] at value
    rw [under, decide_eq_false high, value, Bool.toNat_false]
    omega

theorem adjusted_adc_exact : Exact decimal 1 (adjusted .adc) where
  valid flags left right := (adjusted_adc flags left right).1
  digit flags left right := by
    have added := (adjusted_adc flags left right).2
    rw [one_mul, one_mul]
    exact_mod_cast (Nat.add_assoc ..).symm.trans added

theorem adjusted_sbc_exact : Exact decimal (-1) (adjusted .sbc) where
  valid flags left right := (adjusted_sbc flags left right).1
  digit {x y} flags left right := by
    have subtracted : (decimal.digit x + 100 * (carried (adjusted .sbc x y flags).2).toNat : ℤ) =
        decimal.digit (adjusted .sbc x y flags).1 + decimal.digit y + (carried flags).toNat := by
      exact_mod_cast (adjusted_sbc flags left right).2
    show _ = _ + -1 * (100 * _)
    linear_combination subtracted

/-- Sums and differences of packed decimals of any length: each byte is added or subtracted with
carry and then adjusted. What is left are the digits of the sum or the difference, as far as there
is room for them, and the carry says whether there was. -/
theorem decimal_chains_exact (xs ys : List UInt8) (same : xs.length = ys.length)
    (left : ∀ x ∈ xs, decimal.valid x) (right : ∀ y ∈ ys, decimal.valid y) (flags : UInt8) :
    let X := decimal.value xs
    let Y := decimal.value ys
    let carry := (carried flags).toNat
    let sum := chain (adjusted .adc) xs ys flags
    let difference := chain (adjusted .sbc) xs ys flags
    (sum.1 = packed xs.length ((X + Y + carry) % 100 ^ xs.length) ∧
      (∀ byte ∈ sum.1, decimal.valid byte) ∧
      (carried sum.2 = true ↔ 100 ^ xs.length ≤ X + Y + carry)) ∧
    (difference.1 = packed xs.length ((X - Y - carry : ℤ) % 100 ^ xs.length).toNat ∧
      (∀ byte ∈ difference.1, decimal.valid byte) ∧
      (carried difference.2 = true ↔ X < Y + carry)) := by
  dsimp only
  constructor
  · obtain ⟨length, valid, -⟩ := adjusted_adc_exact.chain same left right flags
    obtain ⟨value, carry⟩ := adjusted_adc_exact.sum same left right flags
    refine ⟨?_, valid, carry⟩
    rw [show (100 : Nat) = decimal.base from rfl, ← value, ← length]
    exact (packed_value valid).symm
  · obtain ⟨length, valid, -⟩ := adjusted_sbc_exact.chain same left right flags
    obtain ⟨value, borrow⟩ := adjusted_sbc_exact.difference same left right flags
    refine ⟨?_, valid, borrow⟩
    have range : (100 ^ xs.length : ℤ) = (decimal.base ^ xs.length : ℕ) := by
      push_cast
      rfl
    rw [range, ← value, Int.toNat_natCast, ← length]
    exact (packed_value valid).symm

/-- 1999 and 8001 are added, and 8001 is subtracted from 1999, on two bytes each. -/
theorem decimal_chains_exact_overflow :
    let xs : List UInt8 := [0x99, 0x19]
    let ys : List UInt8 := [0x01, 0x80]
    (xs.length = ys.length ∧ (∀ x ∈ xs, decimal.valid x) ∧ ∀ y ∈ ys, decimal.valid y) ∧
      (decimal.value xs = 1999 ∧ decimal.value ys = 8001) ∧
      (chain (adjusted .adc) xs ys 0).1 = packed 2 0 ∧
      (chain (adjusted .sbc) xs ys 0).1 = packed 2 3998 ∧
      carried (chain (adjusted .adc) xs ys 0).2 = true ∧
      carried (chain (adjusted .sbc) xs ys 0).2 = true := by
  intro xs ys
  have left : ∀ x ∈ xs, decimal.valid x := by decide +kernel
  have right : ∀ y ∈ ys, decimal.valid y := by decide +kernel
  obtain ⟨⟨sum, -, carries⟩, ⟨difference, -, borrows⟩⟩ :=
    decimal_chains_exact xs ys rfl left right 0
  have values : decimal.value xs = 1999 ∧ decimal.value ys = 8001 := by decide
  have clear : (carried 0).toNat = 0 := rfl
  rw [values.1, values.2, clear] at sum carries difference borrows
  have total : (1999 + 8001 + 0) % 100 ^ xs.length = 0 := by decide
  have rest : ((1999 - 8001 - 0 : ℤ) % 100 ^ xs.length).toNat = 3998 := by decide
  rw [total] at sum
  exact ⟨⟨rfl, left, right⟩, values, sum, difference.trans (congrArg _ rest),
    carries.mpr (by decide), borrows.mpr (by decide)⟩

end Microboard.Sm83.Alu
