import Microboard.StateEntry
import Microboard.Proofs.Hexadecimal

/-!
# State values as texts

The width of an entry decides how many digits its values have, and the digits of a value are those
of the bits that the entry keeps.

- **§1** The mask of an entry.
- **§2** Enough digits for every value under the mask.
- **§3** Texts of values.
-/

namespace Microboard.StateEntry

variable (entry : StateEntry) (value : Nat)

/-! ## §1 Masks -/

theorem mask_eq : entry.mask = 2 ^ entry.width - 1 := by
  rw [mask, Nat.one_shiftLeft]

/-- Cutting a value to the width of an entry is to mask it. -/
theorem truncate_eq_and : entry.truncate value = value &&& entry.mask := by
  rw [mask_eq, Nat.and_two_pow_sub_one_eq_mod, truncate, Nat.one_shiftLeft]

/-- The highest bit of the mask is the last one of the width. -/
theorem maskBits_eq : entry.maskBits = entry.width := by
  unfold maskBits
  rw [mask_eq]
  rcases Nat.eq_zero_or_pos entry.width with empty | positive
  · rw [empty]
    rfl
  · have twice : 2 ^ entry.width = 2 * 2 ^ (entry.width - 1) := by
      rw [← Nat.pow_succ', Nat.succ_eq_add_one, Nat.sub_add_cancel positive]
    have half : 0 < 2 ^ (entry.width - 1) := Nat.two_pow_pos _
    have nonzero : 2 ^ entry.width - 1 ≠ 0 := by omega
    have highest : (2 ^ entry.width - 1).log2 = entry.width - 1 := by
      rw [Nat.log2_eq_iff nonzero, Nat.sub_add_cancel positive]
      omega
    rw [if_neg nonzero, highest, Nat.sub_add_cancel positive]

/-! ## §2 Digits -/

theorem digits_eq : entry.digits = max 1 ((min entry.bits 64 + 3) / 4) := by
  rw [digits, maskBits_eq, width]

theorem digits_pos : 0 < entry.digits := Nat.le_max_left ..

/-- What the entry keeps of a value fits its digits. -/
theorem truncate_lt_digits : entry.truncate value < 16 ^ entry.digits := by
  have kept := entry.truncate_lt value
  have wide : 2 ^ entry.width ≤ 2 ^ (4 * entry.digits) := by
    apply Nat.pow_le_pow_right (by decide)
    rw [digits, maskBits_eq]
    omega
  rw [Nat.one_shiftLeft] at kept
  rw [Hex.sixteen_pow]
  exact Nat.lt_of_lt_of_le kept wide

/-! ## §3 Texts -/

theorem length_format : (entry.format value).length = entry.digits :=
  Hex.length_upper entry.digits_pos (entry.truncate_lt_digits value)

theorem read?_format :
    Hex.read? (entry.format value).toList = some (value &&& entry.mask) := by
  rw [format, Hex.read?_upper, truncate_eq_and]

theorem format_eq_format_iff {other : Nat} :
    entry.format value = entry.format other ↔ value &&& entry.mask = other &&& entry.mask := by
  constructor
  · intro same
    have read := entry.read?_format value
    rw [same, read?_format] at read
    exact (Option.some.inj read).symm
  · intro same
    rw [format, format, truncate_eq_and, truncate_eq_and, same]

/-- Every value of an entry is shown with one and the same number of digits, all of them upper-case,
one for each four bits of the width (begun ones count) and at least one. They are read back as what
the mask leaves of the value, so that two values look alike exactly if they agree under the mask. -/
theorem format_reads_back :
    (entry.format value).length = max 1 ((min entry.bits 64 + 3) / 4) ∧
      (entry.format value).toList.all Hex.isFigure = true ∧
      Hex.read? (entry.format value).toList = some (value &&& entry.mask) ∧
      ∀ other, entry.format value = entry.format other ↔
        value &&& entry.mask = other &&& entry.mask := by
  refine ⟨?digits, ?upper, entry.read?_format value, fun _ => entry.format_eq_format_iff value⟩
  case digits => rw [length_format, digits_eq]
  case upper => exact List.all_eq_true.mpr fun _ member => Hex.isFigure_of_mem_upper member

/-- A program counter of eleven bits has three digits. -/
example : (StateEntry.mk 1 "PC" 11 true).format 0x283C = "03C" := by decide +kernel

end Microboard.StateEntry
