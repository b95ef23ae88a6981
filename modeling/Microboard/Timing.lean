import Microboard.Counter

/-!
# Time and cycle budgets

`cyclesAt` converts absolute time into whole cycles of one core, so that slicing time never
accumulates rounding. `CycleCounter` charges the actions of one run against its budget.
-/

namespace Microboard

/-! ## §1 Time -/

def nanosPerSecond : Nat := 1000000000

/-- Whole cycles elapsed at `time` nanoseconds for a core whose clock runs at `clock` Hz and that
needs `clocksPerCycle` clocks for a cycle; a divider of zero counts as one. -/
def cyclesAt (time clock clocksPerCycle : Nat) : Nat :=
  min (time * clock / (nanosPerSecond * max clocksPerCycle 1)) counterMax

theorem cyclesAt_le (time clock clocksPerCycle : Nat) :
    cyclesAt time clock clocksPerCycle ≤ counterMax := Nat.min_le_right ..

theorem cyclesAt_zero (clock clocksPerCycle : Nat) : cyclesAt 0 clock clocksPerCycle = 0 := by
  simp [cyclesAt]

/-- Cycles only accumulate. -/
theorem cyclesAt_mono {time time' : Nat} (later : time ≤ time') (clock clocksPerCycle : Nat) :
    cyclesAt time clock clocksPerCycle ≤ cyclesAt time' clock clocksPerCycle := by
  have clocks : time * clock ≤ time' * clock := Nat.mul_le_mul_right clock later
  have cycles := Nat.div_le_div_right (c := nanosPerSecond * max clocksPerCycle 1) clocks
  unfold cyclesAt
  omega

/-! ## §2 Budgets -/

/-- Cycles charged against a budget. The last charge may pass the budget. -/
structure CycleCounter where
  /-- Cycles that the run is asked for. -/
  budget : Nat
  consumed : Nat := 0
  /-- A budget is itself a counter value. -/
  budget_le : budget ≤ counterMax := by decide

namespace CycleCounter

/-- A fresh counter; a budget beyond the counter range is cut to it. -/
def start (budget : Nat) : CycleCounter where
  budget := min budget counterMax
  budget_le := Nat.min_le_right ..

def charge (counter : CycleCounter) (cycles : Nat) : CycleCounter :=
  { counter with consumed := satAdd counter.consumed cycles }

/-- Cycles left before the budget is reached. -/
def remaining (counter : CycleCounter) : Nat := counter.budget - counter.consumed

/-- Whether the budget is reached or passed. -/
def exhausted (counter : CycleCounter) : Bool := counter.budget ≤ counter.consumed

/-- A charge of at least one cycle brings an open budget closer to its end. -/
theorem remaining_charge_lt (counter : CycleCounter) (cycles : Nat)
    (open_ : counter.exhausted = false) (pos : 0 < cycles) :
    (counter.charge cycles).remaining < counter.remaining := by
  have bound := counter.budget_le
  simp only [exhausted, decide_eq_false_iff_not] at open_
  simp only [remaining, charge, satAdd]
  omega

end CycleCounter

end Microboard
