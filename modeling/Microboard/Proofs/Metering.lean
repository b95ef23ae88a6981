import Mathlib.Algebra.BigOperators.Group.Finset.Piecewise
import Mathlib.Algebra.GroupWithZero.Nat
import Microboard.Proofs.Lockstep

/-!
# Wait states

Wait states pile up behind a space until a core takes them. A core is billed for what its bus
cycles cost only if nothing was left there by somebody else.

- **§1** Meters: the wait states pending behind the spaces of a system.
- **§2** Ledgers: the bus cycles of an action account for what has piled up since it began.
- **§3** Bills: what an action says it took, and what it leaves behind.
-/

namespace Microboard

variable {σ α : Type}

/-! ## §1 Meters -/

/-- Wait states behind the spaces of a system. Spaces over the same memory share a seat. -/
structure Meter (σ : Type) where
  /-- What is asked of the devices. -/
  fits : σ → Prop
  /-- Wait states that wait to be taken, by seat. -/
  pending : Nat → σ → Nat
  /-- Wait states that an access to an address costs, by seat. -/
  tariff : Nat → UInt32 → Nat
  pending_le : ∀ seat devices, pending seat devices ≤ waitMax

/-- Seats behind the buses of a core. -/
abbrev Seating : Type := BusRole → Option Nat

/-- The seats that a core has; its internal registers have none. -/
def Seating.seats (seating : Seating) : Finset Nat :=
  ([BusRole.program, .data, .io].filterMap seating).toFinset

theorem Seating.mem_seats {seating : Seating} (core : seating .internal = none) {role : BusRole}
    {seat : Nat} (seated : seating role = some seat) : seat ∈ seating.seats := by
  unfold seats
  rw [List.mem_toFinset, List.mem_filterMap]
  refine ⟨role, ?_, seated⟩
  cases role with
  | internal => rw [core] at seated; cases seated
  | program | data | io => decide

namespace Meter

/-- The devices are as they must be, and so much more waits at each seat. -/
structure Adds (meter : Meter σ) (cost : Nat → Nat) (before after : σ) : Prop where
  fits : meter.fits after
  pending : ∀ seat, meter.pending seat after = min (meter.pending seat before + cost seat) waitMax

/-- What an access to an address through a seat costs, by seat. -/
def access (meter : Meter σ) (seat : Nat) (address : UInt32) (other : Nat) : Nat :=
  if other = seat then meter.tariff seat address else 0

/-- Accesses through the space pile up wait states at a seat, where the space takes them. -/
structure Seats (meter : Meter σ) (seat : Nat) (space : Space σ) : Prop where
  read : ∀ address devices, meter.fits devices →
    meter.Adds (meter.access seat address) devices (space.readUnit address devices).state
  write : ∀ address value devices, meter.fits devices →
    meter.Adds (meter.access seat address) devices (space.writeUnit address value devices).state
  takes : ∀ devices, meter.fits devices →
    (space.takeWaitStates devices).1.toNat = meter.pending seat devices ∧
      meter.fits (space.takeWaitStates devices).2 ∧
      ∀ other, meter.pending other (space.takeWaitStates devices).2 =
        if other = seat then 0 else meter.pending other devices

/-- The access leaves all seats alone. -/
def Spares (meter : Meter σ) (access : Access σ α) : Prop :=
  ∀ devices, meter.fits devices → meter.fits (access devices).state ∧
    ∀ seat, meter.pending seat (access devices).state = meter.pending seat devices

/-- The wait states at some seats have been taken. -/
structure Taken (meter : Meter σ) (seats : Finset Nat) (before : σ) (cycles : Nat) (after : σ) :
    Prop where
  cycles : cycles = min (∑ seat ∈ seats, meter.pending seat before) waitMax
  fits : meter.fits after
  pending : ∀ seat, meter.pending seat after =
    if seat ∈ seats then 0 else meter.pending seat before

theorem Seats.taken {meter : Meter σ} {seat : Nat} {space : Space σ}
    (seats : meter.Seats seat space) {devices : σ} (fits : meter.fits devices) :
    meter.Taken {seat} devices (space.takeWaitStates devices).1.toNat
      (space.takeWaitStates devices).2 := by
  obtain ⟨cycles, fits, pending⟩ := seats.takes devices fits
  refine ⟨?_, fits, fun other => ?_⟩
  · rw [Finset.sum_singleton, Nat.min_eq_left (meter.pending_le ..)]
    exact cycles
  · refine (pending other).trans ?_
    simp only [Finset.mem_singleton]

/-- Taking the wait states of a further space, which may have the seat of one before it. -/
theorem Taken.more {meter : Meter σ} {seats : Finset Nat} {before devices : σ} {cycles : Nat}
    (taken : meter.Taken seats before cycles devices) {seat : Nat} {space : Space σ}
    (plugged : meter.Seats seat space) :
    meter.Taken (insert seat seats) before
      (min (cycles + (space.takeWaitStates devices).1.toNat) waitMax)
      (space.takeWaitStates devices).2 := by
  obtain ⟨further, fits, pending⟩ := plugged.takes devices taken.fits
  refine ⟨?_, fits, fun other => ?_⟩
  · rw [further, taken.pending, taken.cycles]
    by_cases again : seat ∈ seats
    -- a seat that has been emptied has nothing more to give
    · rw [if_pos again, Finset.insert_eq_of_mem again]
      omega
    · rw [if_neg again, Finset.sum_insert again]
      omega
  · rw [pending, taken.pending]
    simp only [Finset.mem_insert]
    by_cases here : other = seat
    · rw [if_pos here, if_pos (.inl here)]
    · rw [if_neg here]
      simp only [here, false_or]

/-! ### Shares -/

variable (meter : Meter σ) (seating : Seating)

/-- What a bus cycle costs. -/
def cost (cycle : BusCycle) : Nat :=
  match seating cycle.role with
  | some seat => meter.tariff seat cycle.address
  | none => 0

/-- What some bus cycles cost together. -/
def own (bus : List BusCycle) : Nat := (bus.map (meter.cost seating)).sum

/-- What a bus cycle costs at a seat. -/
def share (seat : Nat) (cycle : BusCycle) : Nat :=
  match seating cycle.role with
  | some own => meter.access own cycle.address seat
  | none => 0

/-- What some bus cycles cost together at a seat. -/
def owed (bus : List BusCycle) (seat : Nat) : Nat := (bus.map (meter.share seating seat)).sum

variable {meter seating}

theorem owed_append (bus : List BusCycle) (cycle : BusCycle) (seat : Nat) :
    meter.owed seating (bus ++ [cycle]) seat =
      meter.owed seating bus seat + meter.share seating seat cycle := by
  unfold owed
  rw [List.map_append, List.sum_append, List.map_singleton, List.sum_singleton]

/-- A bus cycle costs what it costs at its own seat. -/
theorem sum_share (core : seating .internal = none) (cycle : BusCycle) :
    ∑ seat ∈ seating.seats, meter.share seating seat cycle = meter.cost seating cycle := by
  unfold share cost
  cases seated : seating cycle.role with
  | none => exact Finset.sum_const_zero
  | some seat =>
    unfold access
    dsimp only
    rw [Finset.sum_ite_eq', if_pos (Seating.mem_seats core seated)]

/-- What is owed at all seats is what the bus cycles cost. -/
theorem sum_owed (core : seating .internal = none) (bus : List BusCycle) :
    ∑ seat ∈ seating.seats, meter.owed seating bus seat = meter.own seating bus := by
  induction bus with
  | nil => exact Finset.sum_const_zero
  | cons cycle bus ih =>
    have parts (seat : Nat) : meter.owed seating (cycle :: bus) seat =
        meter.share seating seat cycle + meter.owed seating bus seat := rfl
    simp only [parts]
    rw [Finset.sum_add_distrib, sum_share core, ih]
    rfl

/-- Nothing is owed where the core has no seat. -/
theorem owed_other (core : seating .internal = none) (bus : List BusCycle) {seat : Nat}
    (other : seat ∉ seating.seats) : meter.owed seating bus seat = 0 := by
  unfold owed
  rw [List.sum_eq_zero]
  intro share member
  obtain ⟨cycle, -, rfl⟩ := List.mem_map.mp member
  unfold Meter.share
  cases seated : seating cycle.role with
  | none => rfl
  | some own =>
    refine if_neg fun same => other ?_
    rw [same]
    exact Seating.mem_seats core seated

/-! ## §2 Ledgers -/

end Meter

/-- What a core has counted: cycles, instructions and interrupts. -/
structure Tally where
  clock : Nat
  instructions : Nat
  interrupts : Nat

def CoreStatus.tally (status : CoreStatus) : Tally :=
  ⟨status.totalCycles, status.diagnostics.instructions, status.diagnostics.interrupts⟩

namespace Meter

variable {meter : Meter σ} {seating : Seating} {before : Nat → Nat} {tally : Tally}
  {begun : List BusCycle} {status status' : CoreStatus} {devices devices' : σ}

/-- Where an action stands: the bus cycles that it has made, the first of which are known, account
for all wait states beyond those that were pending before, and it has counted nothing yet. -/
structure Ledger (meter : Meter σ) (seating : Seating) (before : Nat → Nat) (tally : Tally)
    (begun : List BusCycle) (status : CoreStatus) (devices : σ) : Prop where
  fits : meter.fits devices
  pending : ∀ seat, meter.pending seat devices =
    min (before seat + meter.owed seating status.bus seat) waitMax
  begun : begun <+: status.bus
  tally : status.tally = tally

namespace Ledger

/-- An action that begins owes nothing. -/
theorem start (fits : meter.fits devices) (fresh : status.bus = [])
    (counted : status.tally = tally) :
    meter.Ledger seating (meter.pending · devices) tally [] status devices where
  fits := fits
  pending seat := by
    rw [fresh]
    exact (Nat.min_eq_left (meter.pending_le seat devices)).symm
  begun := List.nil_prefix
  tally := counted

/-- The status may change in what is not on the ledger. -/
theorem aside (ledger : meter.Ledger seating before tally begun status devices)
    (bus : status'.bus = status.bus) (same : status'.tally = status.tally) :
    meter.Ledger seating before tally begun status' devices :=
  ⟨ledger.fits, bus ▸ ledger.pending, bus ▸ ledger.begun, same.trans ledger.tally⟩

/-- What leaves the seats alone may happen at any time. -/
theorem spare (ledger : meter.Ledger seating before tally begun status devices)
    {access : Access σ α} (spares : meter.Spares access) :
    meter.Ledger seating before tally begun status (access devices).state := by
  obtain ⟨fits, same⟩ := spares devices ledger.fits
  exact ⟨fits, fun seat => (same seat).trans (ledger.pending seat), ledger.begun, ledger.tally⟩

theorem observe (ledger : meter.Ledger seating before tally begun status devices)
    {cycle : BusCycle} (adds : meter.Adds (meter.share seating · cycle) devices devices') :
    meter.Ledger seating before tally begun (status.observe cycle) devices' where
  fits := adds.fits
  pending seat := by
    show _ = min (before seat + meter.owed seating (status.bus ++ [cycle]) seat) waitMax
    rw [adds.pending, ledger.pending, owed_append]
    omega
  begun := ledger.begun.trans (List.prefix_append ..)
  tally := ledger.tally

/-- A bus cycle is put on the ledger together with what it costs. -/
theorem observeAt (ledger : meter.Ledger seating before tally begun status devices)
    {cycle : BusCycle} {seat : Nat} (seated : seating cycle.role = some seat)
    (adds : meter.Adds (meter.access seat cycle.address) devices devices') :
    meter.Ledger seating before tally begun (status.observe cycle) devices' := by
  have costs : (meter.share seating · cycle) = meter.access seat cycle.address := by
    unfold share
    rw [seated]
  exact ledger.observe (costs ▸ adds)

/-- A bus cycle inside the core costs nothing. -/
theorem observeInside (ledger : meter.Ledger seating before tally begun status devices)
    {cycle : BusCycle} (inside : seating cycle.role = none) :
    meter.Ledger seating before tally begun (status.observe cycle) devices := by
  refine ledger.observe ⟨ledger.fits, fun seat => ?_⟩
  have free : meter.share seating seat cycle = 0 := by
    unfold share
    rw [inside]
  rw [free]
  exact (Nat.min_eq_left (meter.pending_le seat devices)).symm

/-- More of the bus cycles becomes known. -/
theorem know (ledger : meter.Ledger seating before tally begun status devices)
    {known : List BusCycle} (bus : status.bus = known) :
    meter.Ledger seating before tally known status devices :=
  ⟨ledger.fits, ledger.pending, bus ▸ List.prefix_rfl, ledger.tally⟩

end Ledger

/-- Saturating each summand first does not change a saturated sum. -/
theorem min_sum (seats : Finset Nat) (f : Nat → Nat) (most : Nat) :
    min (∑ seat ∈ seats, min (f seat) most) most = min (∑ seat ∈ seats, f seat) most := by
  induction seats using Finset.induction with
  | empty => rfl
  | insert seat seats fresh ih =>
    rw [Finset.sum_insert fresh, Finset.sum_insert fresh]
    omega

/-! ## §3 Bills -/

end Meter

/-- What a core charges without wait states: for the instruction that some bus cycles fetched, and
for entering an interrupt; when it lets time pass, it does so in beats. -/
structure Bill where
  instruction : List BusCycle → Nat
  interrupt : Nat
  beat : Nat

/-- A step took what its bus cycles are worth and some wait states. -/
def Bill.Covers (bill : Bill) (bus : List BusCycle) (waits : Nat) : StepOutcome → Prop
  | .retired _ cycles => cycles = bill.instruction bus + waits
  | .interrupt _ cycles => cycles = bill.interrupt + waits
  | .idle cycles => 0 < cycles ∧ bill.beat ∣ cycles

/-- Counts a step. -/
def Tally.add (tally : Tally) (step : StepOutcome) : Tally :=
  let clock := satAdd tally.clock step.cycles
  match step with
  | .retired .. => { tally with clock, instructions := satAdd tally.instructions 1 }
  | .interrupt .. => { tally with clock, interrupts := satAdd tally.interrupts 1 }
  | .idle _ => { tally with clock }

namespace Meter

variable {meter : Meter σ} {seating : Seating} {bill : Bill} {before : Nat → Nat}
  {tally : Tally} {wasReset : Bool} {begun : List BusCycle} {status status' : CoreStatus}
  {devices devices' : σ}

/-- No seat has more pending than before. -/
structure Settled (meter : Meter σ) (before : Nat → Nat) (devices : σ) : Prop where
  fits : meter.fits devices
  settles : ∀ seat, meter.pending seat devices ≤ before seat

/-- A step that took what was pending at the seats of the core and what its own bus cycles cost, and
was counted, unless it entered reset. -/
structure Billed (meter : Meter σ) (seating : Seating) (bill : Bill) (before : Nat → Nat)
    (tally : Tally) (wasReset : Bool) (step : StepOutcome) (status : CoreStatus)
    (devices : σ) : Prop extends meter.Settled before devices where
  covers : bill.Covers status.bus
    (min ((∑ seat ∈ seating.seats, before seat) + meter.own seating status.bus) waitMax) step
  tally : status.tally = tally.add step ∨
    (status.totalCycles = satAdd tally.clock step.cycles ∧ wasReset = false ∧ status.inReset = true)

/-- An action that left everything pending that its bus cycles cost, and has counted nothing. -/
structure Owing (meter : Meter σ) (seating : Seating) (before : Nat → Nat) (tally : Tally)
    (status : CoreStatus) (devices : σ) : Prop where
  fits : meter.fits devices
  pending : ∀ seat, meter.pending seat devices =
    min (before seat + meter.owed seating status.bus seat) waitMax
  tally : status.tally = tally

/-- An action is billed, or faults and leaves its costs to others. -/
def Answers (meter : Meter σ) (seating : Seating) (bill : Bill) (before : Nat → Nat)
    (tally : Tally) (wasReset : Bool) (answer : Except Fault StepOutcome)
    (status : CoreStatus) (devices : σ) : Prop :=
  match answer with
  | .ok step => meter.Billed seating bill before tally wasReset step status devices
  | .error _ => meter.Owing seating before tally status devices

/-- A core that does nothing at this boundary: it has counted nothing, unless it has entered
reset. -/
structure Rested (meter : Meter σ) (before : Nat → Nat) (tally : Tally) (wasReset : Bool)
    (status : CoreStatus) (devices : σ) : Prop extends meter.Settled before devices where
  tally : status.tally = tally ∨
    (status.totalCycles = tally.clock ∧ wasReset = false ∧ status.inReset = true)

/-- What leaves the seats alone may happen at any time. -/
theorem Settled.spare (settled : meter.Settled before devices) {access : Access σ α}
    (spares : meter.Spares access) : meter.Settled before (access devices).state := by
  obtain ⟨fits, same⟩ := spares devices settled.fits
  exact ⟨fits, fun seat => (same seat).trans_le (settled.settles seat)⟩

theorem Ledger.owing (ledger : meter.Ledger seating before tally begun status devices) :
    meter.Owing seating before tally status devices :=
  ⟨ledger.fits, ledger.pending, ledger.tally⟩

theorem Ledger.settled (ledger : meter.Ledger seating before tally begun status devices)
    (fresh : status.bus = []) : meter.Settled before devices where
  fits := ledger.fits
  settles seat := by
    rw [ledger.pending, fresh]
    exact Nat.min_le_left ..

/-- An action that has made no bus cycle may rest. -/
theorem Ledger.rested (ledger : meter.Ledger seating before tally begun status devices)
    (fresh : status.bus = []) : meter.Rested before tally wasReset status devices :=
  ⟨ledger.settled fresh, .inl ledger.tally⟩

/-- A core that rests is not billed for accesses. -/
theorem Rested.billed (rested : meter.Rested before tally wasReset status devices) {cycles : Nat}
    (least : 0 < cycles) (beats : bill.beat ∣ cycles) (inReset : status'.inReset = status.inReset)
    (same : status'.tally = status.tally.add (.idle cycles)) :
    meter.Billed seating bill before tally wasReset (.idle cycles) status' devices where
  toSettled := rested.toSettled
  covers := ⟨least, beats⟩
  tally := by
    rw [same, inReset]
    rcases rested.tally with counted | ⟨clock, entered⟩
    · exact .inl (by rw [counted])
    · have moved := congrArg Tally.clock same
      exact .inr ⟨moved.trans (congrArg (satAdd · cycles) clock), entered⟩

/-- An action that has taken the wait states at the seats of the core: those that were pending
before it, and those that its own bus cycles cost. -/
structure Drained (meter : Meter σ) (seating : Seating) (before : Nat → Nat) (tally : Tally)
    (begun : List BusCycle) (waits : Nat) (status : CoreStatus) (devices : σ) : Prop
    extends meter.Settled before devices where
  waits : waits = min ((∑ seat ∈ seating.seats, before seat) + meter.own seating status.bus) waitMax
  begun : begun <+: status.bus
  tally : status.tally = tally

/-- Taking the wait states closes the ledger. -/
theorem Ledger.drained (ledger : meter.Ledger seating before tally begun status devices)
    (core : seating .internal = none) {waits : Nat}
    (taken : meter.Taken seating.seats devices waits devices') (bus : status'.bus = status.bus)
    (same : status'.tally = status.tally) :
    meter.Drained seating before tally begun waits status' devices' where
  fits := taken.fits
  settles seat := by
    rw [taken.pending]
    split
    · exact Nat.zero_le _
    -- at the seats of others the core has piled up nothing
    · next other =>
      rw [ledger.pending, owed_other core _ other]
      exact Nat.min_le_left ..
  waits := by
    simp only [taken.cycles, ledger.pending]
    rw [min_sum, Finset.sum_add_distrib, sum_owed core, bus]
  begun := bus ▸ ledger.begun
  tally := same.trans ledger.tally

variable {waits : Nat}

/-- An action that charges the wait states that it has taken. -/
theorem Drained.billed (drained : meter.Drained seating before tally begun waits status devices)
    {step : StepOutcome} (covers : bill.Covers status.bus waits step)
    (bus : status'.bus = status.bus) (counted : status'.tally = status.tally.add step) :
    meter.Billed seating bill before tally wasReset step status' devices where
  toSettled := drained.toSettled
  covers := by
    rw [bus, ← drained.waits]
    exact covers
  tally := by
    rw [counted, drained.tally]
    exact .inl rfl

end Meter

end Microboard
