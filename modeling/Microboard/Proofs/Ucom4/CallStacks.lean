import Mathlib.Data.List.Infix
import Mathlib.Logic.Function.Iterate
import Microboard.Ucom4.CallStack

/-!
# uCOM-4 call stacks remember the newest addresses

A stack of some depth is compared with a list that keeps as many of the newest return addresses.
What is on the list is found in the slots, newest first. The slots do not know how long the list is:
once more has been popped than was pushed, the deepest slot answers, over and over.

- **§1** The slots that a part uses, and the others, after a push and after a pop.
- **§2** Uses of a stack, and runs of any number of them.
-/

namespace Microboard.Ucom4.CallStack

/-! ## §1 Slots -/

/-- A stack of a depth that there is uses all of its levels. -/
theorem used_eq {levels : Nat} (least : 1 ≤ levels) (most : levels ≤ maxStackLevels) :
    used levels = levels := by
  unfold used
  omega

section Slots

variable (stack : CallStack) (levels : Nat)

theorem length_take_slots : (stack.slots.take (used levels)).length = used levels := by
  have bound := used_le levels
  simp [stack.length_slots, bound]

theorem length_pushed (address : UInt16) :
    (address :: stack.slots.take (used levels - 1)).length = used levels := by
  have pos := used_pos levels
  have bound := used_le levels
  simp [stack.length_slots]
  omega

theorem take_slots_push (address : UInt16) :
    (stack.push levels address).slots.take (used levels) =
      address :: stack.slots.take (used levels - 1) :=
  List.take_left' (stack.length_pushed levels address)

theorem drop_slots_push (address : UInt16) :
    (stack.push levels address).slots.drop (used levels) = stack.slots.drop (used levels) :=
  List.drop_left' (stack.length_pushed levels address)

theorem slot_eq_getElem {level : Nat} (inside : level < stack.slots.length) :
    stack.slot level = stack.slots[level] := by
  simp [slot, inside]

/-- The deepest slot that is used, and those beyond. -/
theorem drop_slots_deepest :
    stack.slots.drop (used levels - 1) =
      stack.slot (used levels - 1) :: stack.slots.drop (used levels) := by
  have pos := used_pos levels
  have bound := used_le levels
  have inside : used levels - 1 < stack.slots.length := by
    rw [stack.length_slots]
    omega
  rw [List.drop_eq_getElem_cons inside, ← slot_eq_getElem, Nat.sub_add_cancel pos]

theorem slots_drop :
    (stack.drop levels).slots =
      (stack.slots.take (used levels)).tail ++ [stack.slot (used levels - 1)] ++
        stack.slots.drop (used levels) := by
  unfold drop
  dsimp only
  rw [drop_slots_deepest]
  simp

theorem length_popped :
    ((stack.slots.take (used levels)).tail ++ [stack.slot (used levels - 1)]).length =
      used levels := by
  have pos := used_pos levels
  simp only [List.length_append, List.length_tail, length_take_slots, List.length_singleton]
  omega

theorem take_slots_drop :
    (stack.drop levels).slots.take (used levels) =
      (stack.slots.take (used levels)).tail ++ [stack.slot (used levels - 1)] := by
  rw [slots_drop]
  exact List.take_left' (stack.length_popped levels)

theorem drop_slots_drop :
    (stack.drop levels).slots.drop (used levels) = stack.slots.drop (used levels) := by
  rw [slots_drop]
  exact List.drop_left' (stack.length_popped levels)

variable {level : Nat}

theorem slot_eq_take (below : level < used levels) :
    stack.slot level = (stack.slots.take (used levels)).getD level 0 := by
  simp [slot, below]

theorem slot_eq_drop (beyond : used levels ≤ level) :
    stack.slot level = (stack.slots.drop (used levels)).getD (level - used levels) 0 := by
  simp [slot, beyond]

/-- Slots after a push: the address, and then those before it. -/
theorem slot_push (address : UInt16) (below : level < used levels) :
    (stack.push levels address).slot level =
      if level = 0 then address else stack.slot (level - 1) := by
  rw [slot_eq_take _ _ below, take_slots_push]
  cases level with
  | zero => rfl
  | succ level =>
    have inside : level < used levels - 1 := by omega
    simp [slot, inside]

/-- Slots after a return: those one deeper, and the deepest one once more. -/
theorem slot_drop (below : level < used levels) :
    (stack.drop levels).slot level =
      if level + 1 < used levels then stack.slot (level + 1) else stack.slot level := by
  have moved : (stack.slots.take (used levels)).tail.length = used levels - 1 := by
    rw [List.length_tail, length_take_slots]
  rw [slot_eq_take _ _ below, take_slots_drop, List.getD_eq_getElem?_getD, List.getElem?_append,
    moved]
  by_cases deeper : level + 1 < used levels
  · have inside : level < used levels - 1 := by omega
    simp [slot, deeper, inside]
  · obtain rfl : level = used levels - 1 := by omega
    simp [deeper]

/-- Slots that a part does not use are left alone. -/
theorem slot_push_unused (address : UInt16) (beyond : used levels ≤ level) :
    (stack.push levels address).slot level = stack.slot level := by
  rw [slot_eq_drop _ _ beyond, drop_slots_push, ← slot_eq_drop _ _ beyond]

theorem slot_drop_unused (beyond : used levels ≤ level) :
    (stack.drop levels).slot level = stack.slot level := by
  rw [slot_eq_drop _ _ beyond, drop_slots_drop, ← slot_eq_drop _ _ beyond]

theorem top_eq : stack.top = stack.slot 0 := by
  unfold top slot
  cases stack.slots <;> rfl

end Slots

/-! ## §2 Uses -/

/-- What calls and returns do to a call stack. -/
inductive Use where
  | push (address : UInt16)
  | pop
  deriving DecidableEq, Repr

/-- The stack of a given depth after a use. -/
def use (levels : Nat) (stack : CallStack) : Use → CallStack
  | .push address => stack.push levels address
  | .pop => stack.drop levels

/-- A list of return addresses after a use of the stack, newest first. It keeps no more of them than
the stack has levels. -/
def remember (levels : Nat) (newest : List UInt16) : Use → List UInt16
  | .push address => (address :: newest).take levels
  | .pop => newest.tail

/-- The stack shows a list of return addresses: they are in the first of the slots that are used.
The other slots are those of the stack at the beginning. -/
structure Shows (levels : Nat) (initial : CallStack) (newest : List UInt16) (stack : CallStack) :
    Prop where
  newest : newest <+: stack.slots.take (used levels)
  others : stack.slots.drop (used levels) = initial.slots.drop (used levels)

section Runs

variable {levels : Nat} {initial stack : CallStack} {newest : List UInt16}

/-- A use of the stack is one of the list. -/
theorem Shows.use (shown : Shows levels initial newest stack) (how : Use) :
    Shows levels initial (remember (used levels) newest how) (stack.use levels how) := by
  obtain ⟨shown, others⟩ := shown
  cases how with
  | push address =>
    refine ⟨?_, (stack.drop_slots_push levels address).trans others⟩
    have pos := used_pos levels
    show (address :: newest).take (used levels) <+:
      (stack.push levels address).slots.take (used levels)
    rw [take_slots_push, List.take_cons pos]
    -- what is on the list moves down by one slot, and only the oldest may fall off
    have kept := shown.take (used levels - 1)
    rw [List.take_take, Nat.min_eq_left (Nat.sub_le _ _)] at kept
    exact List.cons_prefix_cons.mpr ⟨rfl, kept⟩
  | pop =>
    refine ⟨?_, (stack.drop_slots_drop levels).trans others⟩
    show newest.tail <+: (stack.drop levels).slots.take (used levels)
    rw [take_slots_drop, ← List.drop_one, ← List.drop_one]
    exact (shown.drop 1).trans (List.prefix_append ..)

theorem Shows.run (uses : List Use) (shown : Shows levels initial newest stack) :
    Shows levels initial (uses.foldl (remember (used levels)) newest)
      (uses.foldl (CallStack.use levels) stack) := by
  induction uses generalizing newest stack with
  | nil => exact shown
  | cons how uses ih => exact ih (shown.use how)

/-- The newest address on the list is the next to be popped. -/
theorem Shows.top (shown : Shows levels initial newest stack) {address : UInt16}
    {older : List UInt16} (head : newest = address :: older) : stack.top = address := by
  obtain ⟨oldest, whole⟩ := shown.newest
  unfold CallStack.top
  rw [← List.take_append_drop (used levels) stack.slots, ← whole, head]
  rfl

/-- Slots once some addresses have been popped: those that were further down, or the deepest. -/
theorem slot_iterate_drop (levels pops : Nat) (stack : CallStack) {level : Nat}
    (below : level < used levels) :
    ((CallStack.drop · levels)^[pops] stack).slot level =
      stack.slot (min (level + pops) (used levels - 1)) := by
  induction pops generalizing stack with
  | zero =>
    rw [Nat.add_zero, Nat.min_eq_left (by omega)]
    rfl
  | succ pops ih =>
    rw [Function.iterate_succ_apply, ih, slot_drop _ _ (by omega)]
    split
    · congr 1
      omega
    · congr 1
      omega

/-- Once all but the deepest slot have been popped, all of them hold the same. -/
theorem take_slots_iterate_drop (stack : CallStack) {pops : Nat} (many : used levels - 1 ≤ pops) :
    ((CallStack.drop · levels)^[pops] stack).slots.take (used levels) =
      List.replicate (used levels) (stack.slot (used levels - 1)) := by
  apply List.ext_getElem
  · rw [length_take_slots, List.length_replicate]
  · intro level inside _
    rw [length_take_slots] at inside
    rw [List.getElem_take, List.getElem_replicate, ← slot_eq_getElem, slot_iterate_drop _ _ _ inside,
      Nat.min_eq_right (by omega)]

end Runs

/-- A call stack of one, two or three levels remembers as many of the newest return addresses. They
are in its first slots, the next to be popped first, however often it has been used and whatever it
held before, and no slot beyond its levels is ever touched. To pop all but one of its levels leaves
the same address in all of them, which further pops answer again and again. -/
theorem uses_remember_newest {levels : Nat} (least : 1 ≤ levels) (most : levels ≤ maxStackLevels)
    (initial : CallStack) (uses : List Use) :
    let stack := uses.foldl (use levels) initial
    let newest := uses.foldl (remember levels) []
    newest <+: stack.slots.take levels ∧
      (∀ address older, newest = address :: older → stack.top = address) ∧
      stack.slots.drop levels = initial.slots.drop levels ∧
      ∀ pops, levels - 1 ≤ pops →
        let popped := (CallStack.drop · levels)^[pops] stack
        popped.slots.take levels = List.replicate levels (stack.slot (levels - 1)) ∧
          popped.top = stack.slot (levels - 1) := by
  intro stack newest
  have depth : used levels = levels := used_eq least most
  have shown : Shows levels initial newest stack := by
    have started : Shows levels initial [] initial := ⟨List.nil_prefix, rfl⟩
    have ran := started.run uses
    rw [depth] at ran
    exact ran
  have first := shown.newest
  have others := shown.others
  rw [depth] at first others
  refine ⟨first, fun address older head => shown.top head, others, fun pops many => ?_⟩
  have all : used levels - 1 ≤ pops := by omega
  have same := take_slots_iterate_drop stack all
  have top := slot_iterate_drop levels pops stack (used_pos levels)
  rw [depth] at same top
  rw [Nat.min_eq_right (by omega)] at top
  exact ⟨same, (top_eq _).trans top⟩

/-- Two levels, of which a third call takes the older one. -/
theorem uses_remember_newest_overflow :
    let initial : CallStack := { slots := [0x111, 0x222, 0x333] }
    let uses : List Use := [.push 0x100, .push 0x200, .push 0x300, .pop]
    let stack := uses.foldl (use 2) initial
    (1 ≤ 2 ∧ 2 ≤ maxStackLevels) ∧ uses.foldl (remember 2) [] = [0x200] ∧ stack.top = 0x200 ∧
      stack.slots.drop 2 = [0x333] ∧ ((CallStack.drop · 2)^[5] stack).top = 0x200 := by
  intro initial uses stack
  obtain ⟨-, top, others, popped⟩ :=
    uses_remember_newest (show 1 ≤ 2 by decide) (by decide) initial uses
  exact ⟨by decide, rfl, top 0x200 [] rfl, others, (popped 5 (by decide)).2⟩

end Microboard.Ucom4.CallStack
