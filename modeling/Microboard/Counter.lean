/-!
# Saturating counters

Cycle totals and event counts are 64 bits wide and wait-state counts 32 bits wide. Neither wraps:
a counter that reaches its largest value stays there.
-/

namespace Microboard

/-- Largest value of a cycle or event counter. -/
def counterMax : Nat := 0xFFFFFFFFFFFFFFFF

/-- Adds to a counter, stopping at `counterMax`. -/
def satAdd (a b : Nat) : Nat := min (a + b) counterMax

/-- Largest value of a wait-state counter. -/
def waitMax : Nat := 0xFFFFFFFF

/-- Adds wait states, stopping at `waitMax`. -/
def satAdd32 (a b : UInt32) : UInt32 := UInt32.ofNat (min (a.toNat + b.toNat) waitMax)

theorem satAdd_le (a b : Nat) : satAdd a b ≤ counterMax := Nat.min_le_right ..

theorem satAdd_eq {a b : Nat} (h : a + b ≤ counterMax) : satAdd a b = a + b :=
  Nat.min_eq_left h

theorem toNat_satAdd32 (a b : UInt32) :
    (satAdd32 a b).toNat = min (a.toNat + b.toNat) waitMax := by
  simp only [satAdd32, UInt32.toNat_ofNat', waitMax]
  omega

end Microboard
