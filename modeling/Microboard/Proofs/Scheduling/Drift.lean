import Microboard.Proofs.CoreCycles
import Microboard.Proofs.Scheduling.Slots

/-!
# Scheduled time does not drift

Over spaces that report no wait states, what a core has used as scheduled time stays within one
instruction of what global time grants it.

- **§1** Devices that report no wait states.
- **§2** A slot that catches up.
- **§3** Histories of a scheduler, and the invariant that they keep.
- **§4** Parked cores.
- **§5** The bound.
-/

namespace Microboard

variable {σ α : Type}

/-! ## §1 No wait states -/

/-- The access keeps a property of the devices. -/
def Access.Maintains (P : σ → Prop) (access : Access σ α) : Prop :=
  ∀ devices, P devices → P (access devices).state

/-- Accesses through the space keep a property of the devices, and while it holds the space
reports no wait states. -/
structure Space.WaitFree (P : σ → Prop) (space : Space σ) : Prop where
  read : ∀ address, (space.readUnit address).Maintains P
  write : ∀ address value, (space.writeUnit address value).Maintains P
  none : ∀ devices, P devices → (space.takeWaitStates devices).1 = 0
  takes : ∀ devices, P devices → P (space.takeWaitStates devices).2

namespace Core

/-- The spaces of a core report no wait states while the devices have a property, which neither
its accesses nor what hangs on its output lines disturbs. -/
def WaitFree (P : σ → Prop) : Wiring σ → Prop
  | .inl w => w.program.WaitFree P ∧ ∀ line asserted, (w.sink line asserted).Maintains P
  | .inr w => (w.program.WaitFree P ∧ w.data.WaitFree P ∧ w.io.WaitFree P) ∧
      ∀ line asserted, (w.sink line asserted).Maintains P

/-- The devices of the world have a property. -/
def DevicesHave (P : σ → Prop) (world : World σ) : Prop := P world.devices

variable {P : σ → Prop}

theorem WaitFree.space {space : Space σ} (free : space.WaitFree P) :
    Space.Coupled (Both (DevicesHave P)) space space where
  read address := Keeps.lockstep fun world holds => free.read address world.devices holds
  write address value := Keeps.lockstep fun world holds =>
    free.write address value world.devices holds
  waits := Keeps.lockstep fun world holds => free.takes world.devices holds

theorem WaitFree.places {sink : Sink σ}
    (maintains : ∀ line asserted, (sink line asserted).Maintains P) (number : Nat) :
    PlacesCoupled (Both (DevicesHave P)) number number sink sink where
  latch _ := Keeps.lockstep fun _ holds => holds
  sink line asserted := Keeps.lockstep fun world holds =>
    maintains line asserted world.devices holds
  record _ := Keeps.lockstep fun _ holds => holds

theorem WaitFree.none {space : Space σ} (free : space.WaitFree P) (world : World σ)
    (holds : DevicesHave P world) : (World.takeWaitStates space world).1.toNat ≤ 0 := by
  have none := free.none world.devices holds
  show (space.takeWaitStates world.devices).1.toNat ≤ 0
  rw [none]
  exact Nat.le_refl 0

/-- Such a core works in a world without wait states. -/
theorem WaitFree.calm {w : Wiring σ} (free : WaitFree P w) : Calm (DevicesHave P) 0 w := by
  cases w with
  | inl w =>
    obtain ⟨program, sink⟩ := free
    exact ⟨{ WaitFree.places sink w.number with
      config := rfl
      program := WaitFree.space program }, WaitFree.none program⟩
  | inr w =>
    obtain ⟨⟨program, data, io⟩, sink⟩ := free
    exact ⟨{ WaitFree.places sink w.number with
      config := rfl
      program := WaitFree.space program
      data := WaitFree.space data
      io := WaitFree.space io },
      ⟨WaitFree.none program, WaitFree.none data, WaitFree.none io⟩⟩

end Core

/-! ## §2 Slots -/

/-- Cycles by which a core may pass its target: an instruction of the longest kind, less one. -/
def Core.overshoot : Core σ → Nat
  | .sm83 .. => 23
  | .ucom4 .. => 1

namespace Slot

/-- The core is not further ahead of its target than one instruction takes it. -/
def Bounded (now : Nat) (slot : Slot σ) : Prop :=
  slot.core.totalCycles < counterMax → slot.executed ≤ slot.target now + slot.core.overshoot

/-- The core is not behind its target, unless it is parked. -/
def Due (now : Nat) (slot : Slot σ) : Prop :=
  slot.fault = none → slot.core.totalCycles < counterMax → slot.target now ≤ slot.executed

theorem overshoot_eq (core : Core σ) : core.overshoot = Core.slack 0 core.wiring := by
  cases core <;> rfl

theorem Bounded.later {now now' : Nat} {slot : Slot σ} (bounded : slot.Bounded now)
    (later : now ≤ now') : slot.Bounded now' := by
  intro range
  have earlier := bounded range
  have target := Scheduler.target_mono later slot
  omega

/-- A slot that starts from its target is not ahead of it. -/
theorem bounded_of_target {now : Nat} {slot : Slot σ} (starts : slot.executed = slot.target now) :
    slot.Bounded now := by
  intro range
  rw [starts]
  exact Nat.le_add_right _ _

/-- Work that leaves the count of scheduled cycles alone and the clock of the core running. -/
theorem Bounded.of_later {now : Nat} {slot slot' : Slot σ} (bounded : slot.Bounded now)
    (wired : slot'.core.wiring = slot.core.wiring) (executed : slot'.executed = slot.executed)
    (clock : Later slot.core.totalCycles slot'.core.totalCycles) : slot'.Bounded now := by
  intro range
  have before := bounded (by unfold Later at clock; omega)
  rw [Scheduler.target_congr wired, overshoot_eq, wired, ← overshoot_eq, executed]
  exact before

end Slot

/-- A slot that has caught up is due and not too far ahead. -/
theorem Scheduler.Caught.onTime {now now' : Nat} {slot slot' : Slot σ}
    (caught : Caught (Core.slack 0 slot.core.wiring) now' slot slot')
    (wired : slot'.core.wiring = slot.core.wiring) (bounded : slot.Bounded now)
    (later : now ≤ now') : slot'.Bounded now' ∧ slot'.Due now' := by
  rcases caught with ⟨rfl, waits⟩ | ⟨answer, working, behind, accounts, executed, fault⟩
  -- a slot that waited is as far as it was, and its target has only moved on
  · refine ⟨bounded.later later, fun running _ => ?_⟩
    rcases waits with parked | ahead
    · exact absurd running parked
    · exact ahead
  · have target := target_congr wired now'
    unfold Slot.Bounded Slot.Due
    rw [Slot.overshoot_eq, wired, target]
    cases answer with
    | ok outcome =>
      -- the run used up what the slot was behind and passed it by an instruction at most
      obtain ⟨least, most, -, moved⟩ := accounts
      unfold Moved at moved
      constructor
      · intro range
        omega
      · intro _ range
        omega
    | error fault' =>
      -- a fault leaves less on the clock than was asked for, and the slot is parked
      obtain ⟨cycles, less, moved⟩ := accounts
      unfold Moved at moved
      constructor
      · intro range
        omega
      · intro running
        rw [fault] at running
        cases running

/-! ## §3 Histories -/

namespace Scheduler

/-- What a host can do with a scheduler, and what can happen around it between quanta. -/
inductive Command (σ : Type) where
  | add (core : Core σ)
  | quantum
  | runFor (duration : Nat)
  | resetCore (id : Nat)
  | withCore (id : Nat) (command : Core.Command)
  /-- The host, or a device, changes the world. -/
  | outside (change : World σ → World σ)

namespace Command

/-- Carries a command out. -/
def apply : Command σ → Machine (Scheduler σ) σ → Machine (Scheduler σ) σ
  | .add core, m => ⟨m.core.add core, m.world⟩
  | .quantum, m => (Scheduler.runQuantum m).2
  | .runFor duration, m => (Scheduler.runFor duration m).2
  | .resetCore id, m => (Scheduler.resetCore id m).2
  | .withCore id command, m => (Scheduler.withCore id command.apply m).2
  | .outside change, m => ⟨m.core, change m.world⟩

/-- Carries commands out, one after the other. -/
def applyAll (commands : List (Command σ)) (m : Machine (Scheduler σ) σ) :
    Machine (Scheduler σ) σ :=
  commands.foldl (fun m command => command.apply m) m

/-- Cores that are added report no wait states, and what happens outside keeps the property of
the devices that this rests on. -/
def Lawful (P : σ → Prop) : Command σ → Prop
  | .add core => Core.WaitFree P core.wiring
  | .outside change => ∀ world, P world.devices → P (change world).devices
  | .quantum | .runFor _ | .resetCore _ | .withCore .. => True

end Command

/-- Invariant of such histories: no core reports wait states and none is further ahead than one
instruction takes it. -/
structure InTime (P : σ → Prop) (m : Machine (Scheduler σ) σ) : Prop where
  devices : P m.world.devices
  range : m.core.now ≤ counterMax
  slots : ∀ slot ∈ m.core.slots,
    Core.WaitFree P slot.core.wiring ∧ slot.Bounded m.core.now

variable {P : σ → Prop} {m : Machine (Scheduler σ) σ}

theorem InTime.create {quantum : Nat} {empty : Scheduler σ}
    (created : Scheduler.create quantum = .ok empty) {world : World σ}
    (holds : P world.devices) : InTime P ⟨empty, world⟩ := by
  unfold Scheduler.create at created
  split at created
  · obtain rfl := Except.ok.inj created
    exact ⟨holds, Nat.zero_le _, fun slot none => by cases none⟩
  · cases created

/-- After a quantum no running core is behind. -/
theorem InTime.runQuantum (inTime : InTime P m) :
    InTime P (Scheduler.runQuantum m).2 ∧
      ∀ slot ∈ (Scheduler.runQuantum m).2.core.slots,
        slot.Due (Scheduler.runQuantum m).2.core.now := by
  obtain ⟨⟨slots, quantum, now, pos⟩, world⟩ := m
  obtain ⟨holds, range, bounded⟩ := inTime
  have later : now ≤ satAdd now quantum := by
    unfold satAdd
    dsimp only at range
    omega
  have each (index : Nat) (slot : Slot σ) (world : World σ)
      (before : Core.WaitFree P slot.core.wiring ∧ slot.Bounded now)
      (holds : Core.DevicesHave P world) :
      let m := (catchUp (satAdd now quantum) index ⟨slot, world⟩).2
      Core.DevicesHave P m.world ∧
        (Core.WaitFree P m.core.core.wiring ∧ m.core.Bounded (satAdd now quantum)) ∧
        m.core.Due (satAdd now quantum) := by
    obtain ⟨free, bounded⟩ := before
    obtain ⟨kept, wired, caught⟩ := catchUp_spec free.calm (fun _ _ holds => holds) rfl
      (satAdd now quantum) index world holds
    obtain ⟨bounded, due⟩ := caught.onTime wired bounded later
    exact ⟨kept, ⟨wired ▸ free, bounded⟩, due⟩
  have caught := catchUpAll_all _
    (fun slot => (Core.WaitFree P slot.core.wiring ∧ slot.Bounded (satAdd now quantum)) ∧
      slot.Due (satAdd now quantum)) each bounded 0 world holds
  exact ⟨⟨caught.1, satAdd_le _ _, fun slot mem => (caught.2 slot mem).1⟩,
    fun slot mem => (caught.2 slot mem).2⟩

theorem InTime.runQuanta (inTime : InTime P m) (count : Nat) :
    InTime P (Scheduler.runQuanta count m) := by
  induction count with
  | zero => exact inTime
  | succ count ih =>
    rw [runQuanta_succ]
    exact ih.runQuantum.1

/-- After any number of quanta but none, no running core is behind. -/
theorem InTime.due_runQuanta (inTime : InTime P m) (count : Nat) :
    ∀ slot ∈ (Scheduler.runQuanta (count + 1) m).core.slots,
      slot.Due (Scheduler.runQuanta (count + 1) m).core.now := by
  rw [runQuanta_succ]
  exact (inTime.runQuanta count).runQuantum.2

/-- A core that joins at the current time is not ahead of it. -/
theorem InTime.add (inTime : InTime P m) {core : Core σ} (free : Core.WaitFree P core.wiring) :
    InTime P ⟨m.core.add core, m.world⟩ := by
  refine ⟨inTime.devices, inTime.range, fun slot mem => ?_⟩
  -- the newcomer starts from its target
  rcases List.mem_append.mp mem with old | new
  · exact inTime.slots slot old
  · obtain rfl := List.mem_singleton.mp new
    exact ⟨free, Slot.bounded_of_target rfl⟩

/-- Work on one slot that keeps the devices as they must be, and the slot in time. -/
theorem InTime.onSlot (inTime : InTime P m) (work : SlotExec σ α)
    (each : ∀ (slot : Slot σ) world, Core.WaitFree P slot.core.wiring → slot.Bounded m.core.now →
      P world.devices → P (work ⟨slot, world⟩).2.world.devices ∧
        (work ⟨slot, world⟩).2.core.core.wiring = slot.core.wiring ∧
        (work ⟨slot, world⟩).2.core.Bounded m.core.now) (id : Nat) :
    InTime P (Scheduler.onSlot id work m).2 := by
  have kept := onSlot_all
    (V := Core.DevicesHave P)
    (S := fun slot => Core.WaitFree P slot.core.wiring ∧ slot.Bounded m.core.now)
    (by
      rintro slot world ⟨free, bounded⟩ holds
      obtain ⟨kept, wired, bounded⟩ := each slot world free bounded holds
      exact ⟨kept, wired ▸ free, bounded⟩)
    id inTime.devices inTime.slots
  have now := now_onSlot id work m
  exact ⟨kept.1, now ▸ inTime.range, fun slot mem => now ▸ kept.2 slot mem⟩

/-- A core that is reset rejoins at the current time. -/
theorem InTime.resetCore (inTime : InTime P m) (id : Nat) :
    InTime P (Scheduler.resetCore id m).2 := by
  refine inTime.onSlot _ (fun slot world free _ holds => ?_) id
  obtain ⟨⟨kept, wired⟩, -⟩ := Core.reset_since free.calm slot.core.totalCycles
    ⟨slot.core, world⟩ ⟨⟨holds, rfl⟩, Later.refl _⟩
  rw [eval_bind]
  unfold onCore
  dsimp only
  revert kept wired
  obtain ⟨-, core', world'⟩ := Core.reset ⟨slot.core, world⟩
  intro kept wired
  exact ⟨kept, wired, Slot.bounded_of_target rfl⟩

/-- Work on a core outside scheduled time is not counted. -/
theorem InTime.withCore (inTime : InTime P m) (id : Nat) (command : Core.Command) :
    InTime P (Scheduler.withCore id command.apply m).2 := by
  refine inTime.onSlot _ (fun slot world free bounded holds => ?_) id
  obtain ⟨⟨kept, wired⟩, clock⟩ := command.apply_since free.calm (fun _ _ holds => holds)
    slot.core.totalCycles ⟨slot.core, world⟩ ⟨⟨holds, rfl⟩, Later.refl _⟩
  exact ⟨kept, wired, bounded.of_later wired rfl clock⟩

/-- Every operation keeps the invariant. -/
theorem InTime.apply (inTime : InTime P m) {command : Command σ} (lawful : command.Lawful P) :
    InTime P (command.apply m) := by
  cases command with
  | add core => exact inTime.add lawful
  | quantum => exact inTime.runQuantum.1
  | runFor duration =>
    obtain ⟨count, same⟩ := runUntil_eq_runQuanta (satAdd m.core.now duration) m
    show InTime P (runUntil (satAdd m.core.now duration) m)
    rw [same]
    exact inTime.runQuanta count
  | resetCore id => exact inTime.resetCore id
  | withCore id command => exact inTime.withCore id command
  | outside change => exact ⟨lawful _ inTime.devices, inTime.range, inTime.slots⟩

theorem InTime.applyAll (inTime : InTime P m) {commands : List (Command σ)}
    (lawful : ∀ command ∈ commands, command.Lawful P) : InTime P (Command.applyAll commands m) := by
  induction commands generalizing m with
  | nil => exact inTime
  | cons command commands ih =>
    obtain ⟨first, rest⟩ := List.forall_mem_cons.mp lawful
    exact ih (inTime.apply first) rest

/-- Waiting that moved time on leaves no running core behind. -/
theorem InTime.due_runFor (inTime : InTime P m) (duration : Nat)
    (advanced : m.core.now < (Scheduler.runFor duration m).2.core.now) :
    ∀ slot ∈ (Scheduler.runFor duration m).2.core.slots,
      slot.Due (Scheduler.runFor duration m).2.core.now := by
  obtain ⟨count, same⟩ := runUntil_eq_runQuanta (satAdd m.core.now duration) m
  change m.core.now < (runUntil _ m).core.now at advanced
  show ∀ slot ∈ (runUntil _ m).core.slots, slot.Due (runUntil _ m).core.now
  rw [same] at advanced ⊢
  cases count with
  | zero => exact absurd advanced (Nat.lt_irrefl _)
  | succ count => exact inTime.due_runQuanta count

/-! ## §4 Parked cores -/

theorem runQuantum_parked {id : Nat} {slot : Slot σ} (here : m.core.slots[id]? = some slot)
    (parked : slot.fault ≠ none) : (Scheduler.runQuantum m).2.core.slots[id]? = some slot := by
  obtain ⟨⟨slots, quantum, now, pos⟩, world⟩ := m
  -- the others may do anything: nothing is asked of the world
  have anything : ∀ other, CatchesUpIn (fun _ : World σ => True) (satAdd now quantum) other :=
    fun _ _ _ _ => trivial
  obtain ⟨-, slot', there, rfl⟩ := catchUpAll_at (S := (· = slot)) here
    (fun _ other _ _ => anything other) (fun _ other _ _ => anything other)
    (fun index world _ => ⟨trivial, by rw [catchUp_parked parked]⟩) 0 world trivial
  exact there

theorem runQuanta_parked {id : Nat} {slot : Slot σ} (here : m.core.slots[id]? = some slot)
    (parked : slot.fault ≠ none) (count : Nat) :
    (runQuanta count m).core.slots[id]? = some slot := by
  induction count with
  | zero => exact here
  | succ count ih =>
    rw [runQuanta_succ]
    exact runQuantum_parked ih parked

/-- Only a reset brings a parked core back, and only work on the core itself changes it. -/
theorem Command.apply_parked {id : Nat} {slot : Slot σ} (here : m.core.slots[id]? = some slot)
    (parked : slot.fault ≠ none) {command : Command σ} (stays : command ≠ .resetCore id) :
    ∃ core, (command.apply m).core.slots[id]? = some { slot with core } ∧
      ((∀ work, command ≠ .withCore id work) → core = slot.core) := by
  cases command with
  | add core =>
    obtain ⟨bound, -⟩ := List.getElem?_eq_some_iff.mp here
    exact ⟨slot.core, (List.getElem?_append_left bound).trans here, fun _ => rfl⟩
  | quantum => exact ⟨slot.core, runQuantum_parked here parked, fun _ => rfl⟩
  | runFor duration =>
    obtain ⟨count, same⟩ := runUntil_eq_runQuanta (satAdd m.core.now duration) m
    refine ⟨slot.core, ?_, fun _ => rfl⟩
    show (runUntil _ m).core.slots[id]? = _
    rw [same]
    exact runQuanta_parked here parked count
  | resetCore other =>
    have apart : other ≠ id := fun same => stays (congrArg Command.resetCore same)
    exact ⟨slot.core, (onSlot_other apart m).trans here, fun _ => rfl⟩
  | withCore other work =>
    by_cases same : other = id
    · subst same
      exact ⟨_, onSlot_own here, fun apart => absurd rfl (apart work)⟩
    · exact ⟨slot.core, (onSlot_other same m).trans here, fun _ => rfl⟩
  | outside change => exact ⟨slot.core, here, fun _ => rfl⟩

theorem Command.applyAll_parked {id : Nat} {slot : Slot σ}
    (here : m.core.slots[id]? = some slot) (parked : slot.fault ≠ none)
    {commands : List (Command σ)} (stays : .resetCore id ∉ commands) :
    ∃ core, (applyAll commands m).core.slots[id]? = some { slot with core } ∧
      ((∀ work, .withCore id work ∉ commands) → core = slot.core) := by
  induction commands generalizing m slot with
  | nil => exact ⟨slot.core, here, fun _ => rfl⟩
  | cons command commands ih =>
    obtain ⟨first, rest⟩ := not_or.mp (mt List.mem_cons.mpr stays)
    obtain ⟨core, there, alone⟩ := apply_parked here parked (Ne.symm first)
    obtain ⟨core', there', alone'⟩ := ih there parked rest
    refine ⟨core', there', fun absent => ?_⟩
    have left := alone fun work same => absent work (same ▸ List.mem_cons_self)
    have later := alone' fun work mem => absent work (List.mem_cons_of_mem command mem)
    exact later.trans left

/-! ## §5 The bound -/

/-- After any history of a scheduler over spaces without wait states, waiting that moves time on
leaves every running core within one instruction of what global time grants it, as long as the
clock of the core has not stopped at its largest reading; and a parked core is left as it is
until it is reset. -/
theorem stays_in_time {quantum : Nat} {empty : Scheduler σ}
    (created : Scheduler.create quantum = .ok empty) (P : σ → Prop) (world : World σ)
    (holds : P world.devices) (history : List (Command σ))
    (lawful : ∀ command ∈ history, command.Lawful P) :
    let m := Command.applyAll history ⟨empty, world⟩
    (∀ command : Command σ, (command = .quantum ∨ ∃ duration, command = .runFor duration) →
      let m' := command.apply m
      m.core.now < m'.core.now → ∀ slot ∈ m'.core.slots,
        slot.fault = none → slot.core.totalCycles < counterMax →
          slot.target m'.core.now ≤ slot.executed ∧
            slot.executed ≤ slot.target m'.core.now + slot.core.overshoot) ∧
    ∀ id slot, m.core.slots[id]? = some slot → slot.fault ≠ none →
      ∀ later : List (Command σ), .resetCore id ∉ later →
        ∃ core, (Command.applyAll later m).core.slots[id]? = some { slot with core } ∧
          ((∀ work, .withCore id work ∉ later) → core = slot.core) := by
  have inTime := (InTime.create created holds).applyAll lawful
  refine ⟨fun command waits advanced slot mem running range => ?_,
    fun id slot here parked later stays => Command.applyAll_parked here parked stays⟩
  -- both ways of waiting end with a quantum, after which every running core is due
  rcases waits with rfl | ⟨duration, rfl⟩
  · obtain ⟨inTime', due⟩ := inTime.runQuantum
    exact ⟨due slot mem running range, (inTime'.slots slot mem).2 range⟩
  · have waiting : (Command.runFor duration : Command σ).Lawful P := trivial
    have inTime' := inTime.apply waiting
    exact ⟨inTime.due_runFor duration advanced slot mem running range,
      (inTime'.slots slot mem).2 range⟩

/-- A core that joins, and the first quantum that it runs. -/
theorem stays_in_time_cell :
    let core : Core UInt8 := .sm83 (.cell id (fun value _ => value) 0) {}
    let world : World UInt8 := ⟨0, { latches := [.released 6] }, {}⟩
    let m := Command.applyAll [.add core] ⟨⟨[], 1000, 0, by decide⟩, world⟩
    let m' := Command.quantum.apply m
    ∃ slot ∈ m'.core.slots, slot.fault = none ∧ slot.target m'.core.now ≤ slot.executed ∧
      slot.executed ≤ slot.target m'.core.now + slot.core.overshoot := by
  intro core world m m'
  have free : Core.WaitFree (fun _ => True) core.wiring :=
    ⟨⟨fun _ _ _ => trivial, fun _ _ _ _ => trivial, fun _ _ => rfl, fun _ _ => trivial⟩,
      fun _ _ _ _ => trivial⟩
  have created : create 1000 = .ok (⟨[], 1000, 0, by decide⟩ : Scheduler UInt8) := rfl
  have inTime := stays_in_time created (fun _ => True) world trivial [.add core]
    (List.forall_mem_singleton.mpr free)
  -- a single instruction uses up what the quantum grants
  have action : Core.advance 4 ⟨core, world⟩ =
      (.ok (.retired 0 4), (Core.advance 4 ⟨core, world⟩).2) := rfl
  obtain ⟨answer, left⟩ := Core.run_single (by decide) (by decide) action (Nat.le_refl 4)
  let joined : Slot UInt8 := { core, executed := cyclesAt 0 core.clockHz core.clocksPerCycle }
  let slot : Slot UInt8 := (catchUp (satAdd 0 1000) 0 ⟨joined, world⟩).2.core
  have mem : slot ∈ m'.core.slots := List.mem_singleton_self slot
  have caught : slot.fault = none ∧ slot.core.totalCycles = 4 := by
    have granted : joined.target (satAdd 0 1000) - joined.executed = 4 := by decide
    have behind : ¬(joined.fault.isSome ∨ joined.target (satAdd 0 1000) ≤ joined.executed) := by
      decide
    show (catchUp (satAdd 0 1000) 0 ⟨joined, world⟩).2.core.fault = none ∧
      (catchUp (satAdd 0 1000) 0 ⟨joined, world⟩).2.core.core.totalCycles = 4
    rw [catchUp_eq, if_neg behind, granted]
    revert answer left
    obtain ⟨result, core', world'⟩ := Core.run 4 ⟨core, world⟩
    intro answer left
    cases result with
    | error fault => cases answer
    | ok outcome => exact ⟨rfl, congrArg (·.core.totalCycles) left⟩
  obtain ⟨running, clock⟩ := caught
  have range : slot.core.totalCycles < counterMax := by
    rw [clock]
    decide
  have advanced : m.core.now < m'.core.now := by decide
  exact ⟨slot, mem, running, inTime.1 .quantum (.inl rfl) advanced slot mem running range⟩

end Scheduler

end Microboard
