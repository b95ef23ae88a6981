/-!
# uCOM-4 call stack

Return addresses sit in three slots, of which a part uses the first one, two or three. Pushing
shifts the used slots towards the deep end, where the oldest address falls off; popping shifts
them back and leaves the deepest slot as it was.
-/

namespace Microboard.Ucom4

/-- Slots of the deepest call stack that any part has. -/
def maxStackLevels : Nat := 3

/-- Return addresses, most recent first. -/
structure CallStack where
  slots : List UInt16 := List.replicate maxStackLevels 0
  /-- There are always three. -/
  length_slots : slots.length = maxStackLevels := by decide
  deriving DecidableEq, Repr

namespace CallStack

/-- Slots that a stack of a given depth uses: at least one and at most all. -/
def used (levels : Nat) : Nat := min (max levels 1) maxStackLevels

theorem used_pos (levels : Nat) : 0 < used levels := by
  unfold used maxStackLevels
  omega

theorem used_le (levels : Nat) : used levels ≤ maxStackLevels := Nat.min_le_right ..

/-- Pushes an address onto a stack of a given depth. -/
def push (stack : CallStack) (levels : Nat) (address : UInt16) : CallStack where
  slots := address :: stack.slots.take (used levels - 1) ++ stack.slots.drop (used levels)
  length_slots := by
    have pos := used_pos levels
    have le := used_le levels
    simp only [List.cons_append, List.length_cons, List.length_append, List.length_take,
      List.length_drop, stack.length_slots]
    omega

/-- Most recent address. -/
def top (stack : CallStack) : UInt16 := stack.slots.headD 0

/-- Drops the most recent address of a stack of a given depth. -/
def drop (stack : CallStack) (levels : Nat) : CallStack where
  slots := (stack.slots.take (used levels)).drop 1 ++ stack.slots.drop (used levels - 1)
  length_slots := by
    have pos := used_pos levels
    have le := used_le levels
    simp only [List.length_append, List.length_take, List.length_drop, stack.length_slots]
    omega

/-- Replaces the address in a slot; a slot that does not exist is left alone. -/
def setSlot (stack : CallStack) (level : Nat) (address : UInt16) : CallStack where
  slots := stack.slots.set level address
  length_slots := by rw [List.length_set, stack.length_slots]

def slot (stack : CallStack) (level : Nat) : UInt16 := stack.slots.getD level 0

end CallStack

end Microboard.Ucom4
