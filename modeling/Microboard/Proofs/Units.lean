import Mathlib.Algebra.Group.Nat.Defs
import Microboard.Bus.Units

/-!
# Values and their units

A value is a number written with its units as digits. Taking a value apart gives its lowest
digits, and putting digits together gives their number, so that each undoes the other.

- **§1** A unit of a value, and a further unit shifted into one.
- **§2** Lists of units as numbers.
- **§3** Both orders of units.
- **§4** Putting together what was taken apart.
- **§5** Taking apart what was put together, and both ways at once (`assemble_split_inverse`).
-/

namespace Microboard

/-! ## §1 Single units -/

theorem unitShift_le (dataWidth : Nat) : unitShift dataWidth ≤ 8 := Nat.min_le_right ..

theorem unitShift_eq {dataWidth : Nat} (narrow : dataWidth ≤ 8) : unitShift dataWidth = dataWidth :=
  Nat.min_eq_left narrow

theorem two_pow_unitShift_le (dataWidth : Nat) : 2 ^ unitShift dataWidth ≤ 2 ^ 8 :=
  Nat.pow_le_pow_right (by decide) (unitShift_le dataWidth)

/-- A unit of a value is one of its digits. -/
theorem toNat_unitAt (value : UInt32) (dataWidth index : Nat) :
    (unitAt value dataWidth index).toNat =
      value.toNat / 2 ^ (index * unitShift dataWidth) % 2 ^ unitShift dataWidth := by
  have bound := two_pow_unitShift_le dataWidth
  unfold unitAt
  rw [UInt8.toNat_ofNat', Nat.one_shiftLeft, Nat.shiftRight_eq_div_pow]
  apply Nat.mod_eq_of_lt
  exact Nat.lt_of_lt_of_le (Nat.mod_lt _ (Nat.two_pow_pos _)) bound

theorem unitAt_lt (value : UInt32) (dataWidth index : Nat) :
    (unitAt value dataWidth index).toNat < 2 ^ unitShift dataWidth := by
  rw [toNat_unitAt]
  exact Nat.mod_lt _ (Nat.two_pow_pos _)

/-- A unit that is shifted in becomes the lowest digit. -/
theorem toNat_shiftIn {dataWidth : Nat} {value : UInt32} {unit : UInt8}
    (narrow : unit.toNat < 2 ^ unitShift dataWidth) :
    (shiftIn dataWidth value unit).toNat =
      (unit.toNat + 2 ^ unitShift dataWidth * value.toNat) % 2 ^ 32 := by
  have short := unitShift_le dataWidth
  have amount : (UInt32.ofNat (unitShift dataWidth)).toNat % 32 = unitShift dataWidth := by
    rw [UInt32.toNat_ofNat_of_lt' (by unfold UInt32.size; omega)]
    exact Nat.mod_eq_of_lt (by omega)
  have small : unit.toNat % 2 ^ 32 = unit.toNat :=
    Nat.mod_eq_of_lt (Nat.lt_trans unit.toNat_lt (by decide))
  unfold shiftIn
  rw [UInt32.toNat_or, UInt32.toNat_shiftLeft, amount, UInt8.toNat_toUInt32]
  -- the unit lies below the digits that are shifted, so both sides may be cut at once
  rw [← small, ← Nat.or_mod_two_pow, small, ← Nat.shiftLeft_add_eq_or_of_lt narrow,
    Nat.shiftLeft_eq, Nat.mul_comm, Nat.add_comm]

/-! ## §2 Units as digits -/

/-- The number that has the units as digits of a width, the least significant first. -/
def ofUnits (width : Nat) : List UInt8 → Nat
  | [] => 0
  | unit :: units => unit.toNat + 2 ^ width * ofUnits width units

@[simp] theorem ofUnits_nil (width : Nat) : ofUnits width [] = 0 := rfl

@[simp] theorem ofUnits_cons (width : Nat) (unit : UInt8) (units : List UInt8) :
    ofUnits width (unit :: units) = unit.toNat + 2 ^ width * ofUnits width units := rfl

theorem ofUnits_append (width : Nat) (units further : List UInt8) :
    ofUnits width (units ++ further) =
      ofUnits width units + 2 ^ (units.length * width) * ofUnits width further := by
  induction units with
  | nil => simp
  | cons unit units ih =>
    have widen : 2 ^ ((units.length + 1) * width) = 2 ^ width * 2 ^ (units.length * width) := by
      rw [Nat.succ_mul, Nat.pow_add, Nat.mul_comm]
    simp only [List.cons_append, ofUnits_cons, List.length_cons, ih, widen]
    rw [Nat.mul_add, Nat.mul_assoc, Nat.add_assoc]

/-- The units of a value have the digits of the value. -/
theorem ofUnits_unitAt (value : UInt32) (dataWidth count : Nat) :
    ofUnits (unitShift dataWidth) ((List.range count).map (unitAt value dataWidth)) =
      value.toNat % 2 ^ (count * unitShift dataWidth) := by
  induction count with
  | zero => simp [Nat.mod_one]
  | succ count ih =>
    have widen : 2 ^ ((count + 1) * unitShift dataWidth) =
        2 ^ (count * unitShift dataWidth) * 2 ^ unitShift dataWidth := by
      rw [Nat.succ_mul, Nat.pow_add]
    rw [List.range_succ, List.map_append, ofUnits_append, ih, widen, Nat.mod_mul]
    simp [toNat_unitAt]

theorem ofUnits_lt {width : Nat} {units : List UInt8}
    (narrow : ∀ unit ∈ units, unit.toNat < 2 ^ width) :
    ofUnits width units < 2 ^ (units.length * width) := by
  induction units with
  | nil => simp
  | cons unit units ih =>
    have first := narrow unit List.mem_cons_self
    have rest := ih fun unit mem => narrow unit (List.mem_cons_of_mem _ mem)
    calc ofUnits width (unit :: units)
        < 2 ^ width + 2 ^ width * ofUnits width units := Nat.add_lt_add_right first _
      _ = 2 ^ width * (ofUnits width units + 1) := by rw [Nat.mul_succ, Nat.add_comm]
      _ ≤ 2 ^ width * 2 ^ (units.length * width) := Nat.mul_le_mul_left _ rest
      _ = 2 ^ ((unit :: units).length * width) := by
        rw [List.length_cons, Nat.succ_mul, Nat.pow_add, Nat.mul_comm]

/-- Digits of a width are determined by their number and how many they are. -/
theorem ofUnits_inj {width : Nat} {units others : List UInt8}
    (narrow : ∀ unit ∈ units, unit.toNat < 2 ^ width)
    (narrow' : ∀ unit ∈ others, unit.toNat < 2 ^ width) (lengths : units.length = others.length)
    (same : ofUnits width units = ofUnits width others) : units = others := by
  induction units generalizing others with
  | nil => exact (List.length_eq_zero_iff.mp lengths.symm).symm
  | cons unit units ih =>
    cases others with
    | nil => exact absurd lengths (Nat.succ_ne_zero _)
    | cons other others =>
      have first := narrow unit List.mem_cons_self
      have first' := narrow' other List.mem_cons_self
      rw [ofUnits_cons, ofUnits_cons] at same
      have lowest : unit.toNat = other.toNat := by
        have cut := congrArg (· % 2 ^ width) same
        simpa [Nat.add_mul_mod_self_left, Nat.mod_eq_of_lt, first, first'] using cut
      have higher : ofUnits width units = ofUnits width others :=
        Nat.eq_of_mul_eq_mul_left (Nat.two_pow_pos width) (by omega)
      rw [UInt8.toNat_inj.mp lowest, ih (fun unit mem => narrow unit (List.mem_cons_of_mem _ mem))
        (fun unit mem => narrow' unit (List.mem_cons_of_mem _ mem)) (Nat.succ.inj lengths) higher]

/-- Units are put together as digits; what does not fit 32 bits is lost. -/
theorem toNat_assemble_little {dataWidth : Nat} {units : List UInt8}
    (narrow : ∀ unit ∈ units, unit.toNat < 2 ^ unitShift dataWidth) :
    (assemble units dataWidth .little).toNat = ofUnits (unitShift dataWidth) units % 2 ^ 32 := by
  induction units with
  | nil => rfl
  | cons unit units ih =>
    have rest := ih fun unit mem => narrow unit (List.mem_cons_of_mem _ mem)
    have first : (assemble (unit :: units) dataWidth .little).toNat =
        (unit.toNat + 2 ^ unitShift dataWidth * (assemble units dataWidth .little).toNat) %
          2 ^ 32 :=
      toNat_shiftIn (narrow unit List.mem_cons_self)
    rw [first, rest, ofUnits_cons]
    simp only [Nat.add_mod, Nat.mul_mod, Nat.mod_mod]

/-! ## §3 Orders -/

/-- Significance of the unit at a position of a wide access; the least significant has none. -/
def Endianness.rank (count index : Nat) : Endianness → Nat
  | .little => index
  | .big => count - 1 - index

/-- Units in the other order are put together from the other end. -/
theorem assemble_big (units : List UInt8) (dataWidth : Nat) :
    assemble units dataWidth .big = assemble units.reverse dataWidth .little := by
  show units.foldl (shiftIn dataWidth) 0 = units.reverse.foldr _ 0
  rw [List.foldr_reverse]

theorem split_big (value : UInt32) (count dataWidth : Nat) :
    split value count dataWidth .big = (split value count dataWidth .little).reverse := rfl

theorem length_split (value : UInt32) (count dataWidth : Nat) (order : Endianness) :
    (split value count dataWidth order).length = count := by
  cases order with
  | little => exact (List.length_map _).trans List.length_range
  | big => exact List.length_reverse.trans ((List.length_map _).trans List.length_range)

theorem getElem?_split (value : UInt32) {count dataWidth index : Nat} (order : Endianness)
    (inside : index < count) :
    (split value count dataWidth order)[index]? =
      some (unitAt value dataWidth (order.rank count index)) := by
  cases order with
  | little => simp [split, Endianness.rank, inside]
  | big => simp [split, Endianness.rank, inside]

theorem split_lt {value : UInt32} {count dataWidth : Nat} {order : Endianness} {unit : UInt8}
    (mem : unit ∈ split value count dataWidth order) : unit.toNat < 2 ^ unitShift dataWidth := by
  have unordered : unit ∈ (List.range count).map (unitAt value dataWidth) := by
    cases order with
    | little => exact mem
    | big => exact List.mem_reverse.mp mem
  obtain ⟨index, -, rfl⟩ := List.mem_map.mp unordered
  exact unitAt_lt value dataWidth index

/-! ## §4 Together again -/

/-- The units of a value, put together, are the value as far as they reach. -/
theorem assemble_split (value : UInt32) (count dataWidth : Nat) (order : Endianness) :
    assemble (split value count dataWidth order) dataWidth order =
      UInt32.ofNat (value.toNat % 2 ^ (count * unitShift dataWidth)) := by
  have little : assemble (split value count dataWidth .little) dataWidth .little =
      UInt32.ofNat (value.toNat % 2 ^ (count * unitShift dataWidth)) := by
    rw [← UInt32.ofNat_toNat (x := assemble _ _ _), toNat_assemble_little fun unit => split_lt]
    show UInt32.ofNat (ofUnits _ ((List.range count).map (unitAt value dataWidth)) % _) = _
    rw [ofUnits_unitAt]
    apply congrArg UInt32.ofNat
    apply Nat.mod_eq_of_lt
    exact Nat.lt_of_le_of_lt (Nat.mod_le _ _) value.toNat_lt
  cases order with
  | little => exact little
  | big => rw [assemble_big, split_big, List.reverse_reverse, little]

/-! ## §5 Apart again -/

theorem split_assemble_little {units : List UInt8} {dataWidth : Nat}
    (narrow : ∀ unit ∈ units, unit.toNat < 2 ^ unitShift dataWidth)
    (fits : units.length * unitShift dataWidth ≤ 32) :
    split (assemble units dataWidth .little) units.length dataWidth .little = units := by
  have bound := ofUnits_lt narrow
  have word : 2 ^ (units.length * unitShift dataWidth) ≤ 2 ^ 32 :=
    Nat.pow_le_pow_right (by decide) fits
  -- both are as many digits of the same number
  apply ofUnits_inj (fun unit => split_lt) narrow (length_split ..)
  show ofUnits _ ((List.range _).map _) = _
  rw [ofUnits_unitAt, toNat_assemble_little narrow]
  rw [Nat.mod_eq_of_lt (Nat.lt_of_lt_of_le bound word), Nat.mod_eq_of_lt bound]

/-- Units that fit the word, put together, are taken apart into themselves. -/
theorem split_assemble {units : List UInt8} {dataWidth : Nat} (order : Endianness)
    (narrow : ∀ unit ∈ units, unit.toNat < 2 ^ unitShift dataWidth)
    (fits : units.length * unitShift dataWidth ≤ 32) :
    split (assemble units dataWidth order) units.length dataWidth order = units := by
  cases order with
  | little => exact split_assemble_little narrow fits
  | big =>
    have mirrored : split (assemble units.reverse dataWidth .little) units.reverse.length dataWidth
        .little = units.reverse :=
      split_assemble_little (fun unit mem => narrow unit (List.mem_reverse.mp mem))
        (by rwa [List.length_reverse])
    rw [List.length_reverse] at mirrored
    rw [assemble_big, split_big, mirrored, List.reverse_reverse]

/-- Taking values apart and putting units together undo each other as far as the units and the
word reach: of a value there remain the bits that its units have room for, and units that fit the
word come back as they are. This is so in both orders of units, which mirror each other. -/
theorem assemble_split_inverse (dataWidth : Nat) :
    (∀ value count order, (assemble (split value count dataWidth order) dataWidth order).toNat =
      value.toNat % 2 ^ min 32 (count * unitShift dataWidth)) ∧
    (∀ (units : List UInt8) order, (∀ unit ∈ units, unit.toNat < 2 ^ unitShift dataWidth) →
      units.length * unitShift dataWidth ≤ 32 →
      split (assemble units dataWidth order) units.length dataWidth order = units) ∧
    (∀ value count,
      split value count dataWidth .big = (split value count dataWidth .little).reverse) ∧
    ∀ units, assemble units dataWidth .big = assemble units.reverse dataWidth .little := by
  refine ⟨fun value count order => ?value, fun units order narrow fits => ?units, ?split,
    (assemble_big · dataWidth)⟩
  case value =>
    have cut : value.toNat % 2 ^ (count * unitShift dataWidth) < 2 ^ 32 :=
      Nat.lt_of_le_of_lt (Nat.mod_le _ _) value.toNat_lt
    rw [assemble_split, UInt32.toNat_ofNat_of_lt' cut]
    rcases Nat.le_total (count * unitShift dataWidth) 32 with short | long
    · rw [Nat.min_eq_right short]
    · -- the value has no digits beyond the word
      have wide : 2 ^ 32 ≤ 2 ^ (count * unitShift dataWidth) := Nat.pow_le_pow_right (by decide) long
      rw [Nat.min_eq_left long, Nat.mod_eq_of_lt value.toNat_lt,
        Nat.mod_eq_of_lt (Nat.lt_of_lt_of_le value.toNat_lt wide)]
  case units => exact split_assemble order narrow fits
  case split => exact fun value count => split_big value count dataWidth

/-- Seven units of five bits reach past the word, six do not. -/
theorem assemble_split_inverse_quintets :
    let units : List UInt8 := [0x1F, 0x00, 0x12, 0x07, 0x19, 0x0A]
    (∀ unit ∈ units, unit.toNat < 2 ^ unitShift 5) ∧ 6 * unitShift 5 ≤ 32 ∧
      split (assemble units 5 .big) 6 5 .big = units ∧
      (assemble (split 0xFEDCBA98 7 5 .little) 5 .little).toNat = 0xFEDCBA98 ∧
      (assemble (split 0xFEDCBA98 6 5 .big) 5 .big).toNat = 0x3EDCBA98 := by
  intro units
  obtain ⟨values, lists, -⟩ := assemble_split_inverse 5
  have narrow : ∀ unit ∈ units, unit.toNat < 2 ^ unitShift 5 := by decide +kernel
  have fits : 6 * unitShift 5 ≤ 32 := by decide
  exact ⟨narrow, fits, lists units .big narrow fits, values 0xFEDCBA98 7 .little,
    values 0xFEDCBA98 6 .big⟩

end Microboard
