import Microboard.Proofs.CoreCycles
import Microboard.Proofs.CoreSlicing
import Microboard.Scheduler
import Mathlib.Logic.Function.Iterate

/-!
# Slots at work

- **§1** A slot that catches up.
- **§2** One slot among the others, of which it only notices what they do to the world.
- **§3** Work on a single slot.
- **§4** Whole quanta.
-/

namespace Microboard.Scheduler

variable {σ α : Type}

/-! ## §1 Catching up -/

/-- Targets only move on. -/
theorem target_mono {now now' : Nat} (later : now ≤ now') (slot : Slot σ) :
    slot.target now ≤ slot.target now' := cyclesAt_mono later _ _

/-- The wiring of a core decides its targets. -/
theorem target_congr {slot slot' : Slot σ} (same : slot.core.wiring = slot'.core.wiring)
    (now : Nat) : slot.target now = slot'.target now := by
  unfold Slot.target
  rw [Core.clockHz_congr same, Core.clocksPerCycle_congr same]

/-- A parked core and one that is ahead wait; any other runs up to its target. -/
theorem catchUp_eq (now index : Nat) (slot : Slot σ) (world : World σ) :
    catchUp now index ⟨slot, world⟩ =
      if slot.fault.isSome ∨ slot.target now ≤ slot.executed then ((), ⟨slot, world⟩)
      else
        match Core.run (slot.target now - slot.executed) ⟨slot.core, world⟩ with
        | (answer, ⟨core, world⟩) =>
          let executed := slot.executed + (core.totalCycles - slot.core.totalCycles)
          match answer with
          | .ok outcome =>
            ((), ⟨{ core, executed, fault := slot.fault }, world.record
              (.sliceComplete slot.core.name index outcome.cycles outcome.instructions)⟩)
          | .error fault =>
            ((), ⟨{ core, executed, fault := some fault }, world.record
              (.coreParked slot.core.name index fault)⟩) := by
  obtain ⟨core, executed, fault⟩ := slot
  by_cases waits : fault.isSome ∨ Slot.target ⟨core, executed, fault⟩ now ≤ executed
  · rw [if_pos waits]
    exact congrFun (if_pos waits) (⟨⟨core, executed, fault⟩, world⟩ : Machine (Slot σ) σ)
  · rw [if_neg waits]
    refine (congrFun (if_neg waits)
      (⟨⟨core, executed, fault⟩, world⟩ : Machine (Slot σ) σ)).trans ?_
    rw [eval_bind]
    dsimp only [Machine.getCore, onCore]
    obtain ⟨answer, core', world'⟩ :=
      Core.run (Slot.target ⟨core, executed, fault⟩ now - executed) ⟨core, world⟩
    cases answer with
    | ok outcome => rfl
    | error fault => rfl

/-- A parked slot waits. -/
theorem catchUp_parked {slot : Slot σ} (parked : slot.fault ≠ none) (now index : Nat)
    (world : World σ) : catchUp now index ⟨slot, world⟩ = ((), ⟨slot, world⟩) := by
  rw [catchUp_eq, if_pos (.inl (Option.isSome_iff_ne_none.mpr parked))]

/-- A slot that is ahead waits. -/
theorem catchUp_ahead {slot : Slot σ} {now : Nat} (ahead : slot.target now ≤ slot.executed)
    (index : Nat) (world : World σ) : catchUp now index ⟨slot, world⟩ = ((), ⟨slot, world⟩) := by
  rw [catchUp_eq, if_pos (.inr ahead)]

/-- What catching up makes of a slot: nothing, if it is parked or ahead, and otherwise what a run
for the cycles that it is behind makes of its core. -/
def Caught (slack now : Nat) (slot slot' : Slot σ) : Prop :=
  (slot' = slot ∧ (slot.fault ≠ none ∨ slot.target now ≤ slot.executed)) ∨
  ∃ answer, slot.fault = none ∧ slot.executed < slot.target now ∧
    AccountsRun slack (slot.target now - slot.executed) slot.core.totalCycles answer
      slot'.core.totalCycles ∧
    slot'.executed = slot.executed + (slot'.core.totalCycles - slot.core.totalCycles) ∧
    slot'.fault = Core.faultOf answer

/-- A slot whose core works in a world with a property keeps it, and its wiring, while it catches
up. -/
theorem catchUp_spec {V : World σ → Prop} {limit : Nat} {w : Core.Wiring σ}
    (calm : Core.Calm V limit w) (records : ∀ world event, V world → V (world.record event))
    {slot : Slot σ} (wired : slot.core.wiring = w) (now index : Nat) (world : World σ)
    (holds : V world) :
    V (catchUp now index ⟨slot, world⟩).2.world ∧
      (catchUp now index ⟨slot, world⟩).2.core.core.wiring = w ∧
      Caught (Core.slack limit w) now slot (catchUp now index ⟨slot, world⟩).2.core := by
  rw [catchUp_eq]
  by_cases waits : slot.fault.isSome ∨ slot.target now ≤ slot.executed
  · rw [if_pos waits]
    refine ⟨holds, wired, .inl ⟨rfl, ?_⟩⟩
    rcases waits with parked | ahead
    · exact .inl (Option.isSome_iff_ne_none.mp parked)
    · exact .inr ahead
  -- a run for the cycles that the slot is behind, which accounts for them
  · have working : slot.fault = none ∧ slot.executed < slot.target now := by
      simpa only [not_or, Bool.not_eq_true, Option.isSome_eq_false_iff, Option.isNone_iff_eq_none,
        Nat.not_le] using waits
    rw [if_neg waits]
    have range : slot.target now - slot.executed ≤ counterMax :=
      Nat.le_trans (Nat.sub_le _ _) (cyclesAt_le _ _ _)
    have ran := Core.run_accounts calm range slot.core.totalCycles ⟨slot.core, world⟩
      ⟨⟨holds, wired⟩, rfl⟩
    revert ran
    obtain ⟨answer, core', world'⟩ :=
      Core.run (slot.target now - slot.executed) ⟨slot.core, world⟩
    rintro ⟨⟨kept, wired'⟩, accounts⟩
    cases answer with
    | ok outcome =>
      exact ⟨records _ _ kept, wired', .inr ⟨_, working.1, working.2, accounts, rfl, working.1⟩⟩
    | error fault =>
      exact ⟨records _ _ kept, wired', .inr ⟨_, working.1, working.2, accounts, rfl, rfl⟩⟩

/-! ## §2 One slot among others -/

/-- The slot keeps a property of the world when it catches up. -/
def CatchesUpIn (V : World σ → Prop) (now : Nat) (slot : Slot σ) : Prop :=
  ∀ index world, V world → V (catchUp now index ⟨slot, world⟩).2.world

theorem catchUpAll_keeps {V : World σ → Prop} {now : Nat} {slots : List (Slot σ)}
    (keeps : ∀ slot ∈ slots, CatchesUpIn V now slot) (index : Nat) {world : World σ}
    (holds : V world) : V (catchUpAll now slots index world).2 := by
  induction slots generalizing index world with
  | nil => exact holds
  | cons slot slots ih =>
    exact ih (fun other mem => keeps other (List.mem_cons_of_mem slot mem)) (index + 1)
      (keeps slot List.mem_cons_self index world holds)

/-- Slots that each keep a property of the world, and gain one of their own from another, do so
together. -/
theorem catchUpAll_all {V : World σ → Prop} (S S' : Slot σ → Prop) {now : Nat}
    (each : ∀ index slot world, S slot → V world → V (catchUp now index ⟨slot, world⟩).2.world ∧
      S' (catchUp now index ⟨slot, world⟩).2.core)
    {slots : List (Slot σ)} (hold : ∀ slot ∈ slots, S slot) (index : Nat) (world : World σ)
    (holds : V world) : V (catchUpAll now slots index world).2 ∧
      ∀ slot ∈ (catchUpAll now slots index world).1, S' slot := by
  induction slots generalizing index world with
  | nil => exact ⟨holds, fun slot none => by cases none⟩
  | cons slot slots ih =>
    obtain ⟨kept, gained⟩ := each index slot world (hold slot List.mem_cons_self) holds
    obtain ⟨kept, rest⟩ :=
      ih (fun other mem => hold other (List.mem_cons_of_mem slot mem)) (index + 1) _ kept
    exact ⟨kept, List.forall_mem_cons.mpr ⟨gained, rest⟩⟩

/-- What a slot does in a world with a first property, and leaves with a second one, it also does
among others that keep both. -/
theorem catchUpAll_at {V V' : World σ → Prop} {S : Slot σ → Prop} {now position : Nat}
    {slots : List (Slot σ)} {slot : Slot σ} (here : slots[position]? = some slot)
    (before : ∀ i other, slots[i]? = some other → i ≠ position → CatchesUpIn V now other)
    (after : ∀ i other, slots[i]? = some other → i ≠ position → CatchesUpIn V' now other)
    (own : ∀ index world, V world → V' (catchUp now index ⟨slot, world⟩).2.world ∧
      S (catchUp now index ⟨slot, world⟩).2.core)
    (index : Nat) (world : World σ) (holds : V world) :
    V' (catchUpAll now slots index world).2 ∧
      ∃ slot', (catchUpAll now slots index world).1[position]? = some slot' ∧ S slot' := by
  induction slots generalizing position index world with
  | nil => cases here
  | cons first slots ih =>
    cases position with
    | zero =>
      obtain rfl : first = slot := Option.some.inj here
      obtain ⟨kept, done⟩ := own index world holds
      -- the slots after this one run in the world that it has left
      refine ⟨catchUpAll_keeps (fun other mem => ?_) (index + 1) kept, _, rfl, done⟩
      obtain ⟨i, bound, rfl⟩ := List.getElem_of_mem mem
      exact after (i + 1) _ (List.getElem?_eq_getElem bound) (Nat.succ_ne_zero i)
    | succ position =>
      refine ih here (fun i other there apart => ?_) (fun i other there apart => ?_)
        (index + 1) _ ?_
      · exact before (i + 1) other there fun same => apart (Nat.succ.inj same)
      · exact after (i + 1) other there fun same => apart (Nat.succ.inj same)
      -- the slots before this one keep the world ready for it
      · exact before 0 first rfl (Nat.succ_ne_zero position).symm index world holds

/-! ## §3 Work on one slot -/

theorem onSlotOf_some {work : SlotExec σ α} {slots : List (Slot σ)} {id : Nat} {slot : Slot σ}
    (here : slots[id]? = some slot) (world : World σ) :
    onSlotOf work slots id world = (some (work ⟨slot, world⟩).1,
      slots.set id (work ⟨slot, world⟩).2.core, (work ⟨slot, world⟩).2.world) := by
  induction slots generalizing id with
  | nil => cases here
  | cons first slots ih =>
    cases id with
    | zero =>
      obtain rfl : first = slot := Option.some.inj here
      rfl
    | succ id =>
      unfold onSlotOf
      rw [ih here]
      rfl

theorem onSlotOf_none {work : SlotExec σ α} {slots : List (Slot σ)} {id : Nat}
    (absent : slots[id]? = none) (world : World σ) :
    onSlotOf work slots id world = (none, slots, world) := by
  induction slots generalizing id with
  | nil => rfl
  | cons first slots ih =>
    cases id with
    | zero => cases absent
    | succ id =>
      unfold onSlotOf
      rw [ih absent]

/-- Work on one slot changes that slot and the world. -/
theorem onSlot_eq (work : SlotExec σ α) (id : Nat) (m : Machine (Scheduler σ) σ) :
    (onSlot id work m).2 =
      match m.core.slots[id]? with
      | none => m
      | some slot =>
        ⟨{ m.core with slots := m.core.slots.set id (work ⟨slot, m.world⟩).2.core },
          (work ⟨slot, m.world⟩).2.world⟩ := by
  obtain ⟨⟨slots, quantum, now, pos⟩, world⟩ := m
  unfold onSlot
  dsimp only
  cases here : slots[id]? with
  | none => rw [onSlotOf_none here]
  | some slot => rw [onSlotOf_some here]

/-- Work that keeps a property of the world, and of its slot, keeps it of all slots. -/
theorem onSlot_all {V : World σ → Prop} {S : Slot σ → Prop} {work : SlotExec σ α}
    (each : ∀ slot world, S slot → V world →
      V (work ⟨slot, world⟩).2.world ∧ S (work ⟨slot, world⟩).2.core)
    (id : Nat) {m : Machine (Scheduler σ) σ} (holds : V m.world)
    (hold : ∀ slot ∈ m.core.slots, S slot) :
    V (onSlot id work m).2.world ∧ ∀ slot ∈ (onSlot id work m).2.core.slots, S slot := by
  rw [onSlot_eq]
  cases here : m.core.slots[id]? with
  | none => exact ⟨holds, hold⟩
  | some slot =>
    obtain ⟨kept, gained⟩ := each slot m.world (hold slot (List.mem_of_getElem? here)) holds
    refine ⟨kept, fun other mem => ?_⟩
    rcases List.mem_or_eq_of_mem_set mem with old | rfl
    · exact hold other old
    · exact gained

@[simp]
theorem now_onSlot (id : Nat) (work : SlotExec σ α) (m : Machine (Scheduler σ) σ) :
    (onSlot id work m).2.core.now = m.core.now := by
  rw [onSlot_eq]
  cases m.core.slots[id]? <;> rfl

/-- Work on a slot leaves the others alone. -/
theorem onSlot_other {work : SlotExec σ α} {id other : Nat} (apart : id ≠ other)
    (m : Machine (Scheduler σ) σ) :
    (onSlot id work m).2.core.slots[other]? = m.core.slots[other]? := by
  rw [onSlot_eq]
  cases m.core.slots[id]? with
  | none => rfl
  | some slot => exact List.getElem?_set_ne apart

theorem onSlot_own {work : SlotExec σ α} {id : Nat} {m : Machine (Scheduler σ) σ} {slot : Slot σ}
    (here : m.core.slots[id]? = some slot) :
    (onSlot id work m).2.core.slots[id]? = some (work ⟨slot, m.world⟩).2.core := by
  obtain ⟨bound, -⟩ := List.getElem?_eq_some_iff.mp here
  rw [onSlot_eq, here]
  exact List.getElem?_set_self bound

/-! ## §4 Whole quanta -/

/-- Advances global time by some quanta. -/
def runQuanta (count : Nat) (m : Machine (Scheduler σ) σ) : Machine (Scheduler σ) σ :=
  (fun m => (runQuantum m).2)^[count] m

theorem runQuanta_succ (count : Nat) (m : Machine (Scheduler σ) σ) :
    runQuanta (count + 1) m = (runQuantum (runQuanta count m)).2 :=
  Function.iterate_succ_apply' _ count m

/-- Waiting for an instant is waiting for some number of quanta. -/
theorem runUntil_eq_runQuanta (instant : Nat) (m : Machine (Scheduler σ) σ) :
    ∃ count, runUntil instant m = runQuanta count m := by
  fun_induction runUntil instant m with
  | case1 m early ih =>
    obtain ⟨count, same⟩ := ih
    exact ⟨count + 1, same⟩
  | case2 m late => exact ⟨0, rfl⟩

end Microboard.Scheduler
