import Microboard.Proofs.Metering
import Microboard.Proofs.Ucom4.Cycles

/-!
# What uCOM-4 actions are billed

- **§1** The table of costs: what an instruction takes without wait states.
- **§2** Instructions keep the ledger of an action.
- **§3** Every action is billed.
-/

namespace Microboard.Ucom4

variable {σ : Type}

/-! ## §1 The table of costs -/

/-- Cycles of the instruction that some bus cycles fetched: its length, if it is skipped. -/
def tableCost (family : Family) (skip : Bool) (bus : List BusCycle) : Nat :=
  match bus with
  | [] => 0
  | first :: _ =>
    if skip then (decode family first.value).length else (decode family first.value).cycles

def bill (family : Family) (skip : Bool) : Bill := ⟨tableCost family skip, interruptCycles, 1⟩

/-! ## §2 Instructions -/

/-- Each of the three spaces of a core has a seat, and what hangs on its output lines leaves all
seats alone. -/
structure Wiring.Metered (meter : Meter σ) (seating : Seating) (w : Wiring σ) : Prop where
  program : ∃ seat, seating .program = some seat ∧ meter.Seats seat w.program
  data : ∃ seat, seating .data = some seat ∧ meter.Seats seat w.data
  io : ∃ seat, seating .io = some seat ∧ meter.Seats seat w.io
  core : seating .internal = none
  sink : ∀ line asserted, meter.Spares (w.sink line asserted)

section Walk

variable {meter : Meter σ} {seating : Seating} {w : Wiring σ} {before : Nat → Nat}
  {tally : Tally} {begun : List BusCycle} {skip : Bool}

/-- A core in the middle of an action. -/
abbrev Keeping (meter : Meter σ) (seating : Seating) (before : Nat → Nat) (tally : Tally)
    (begun : List BusCycle) (m : Machine State σ) : Prop :=
  meter.Ledger seating before tally begun m.core.toCoreStatus m.world.devices

theorem readBus_keeps {role : BusRole} {space : Space σ}
    (plugged : ∃ seat, seating role = some seat ∧ meter.Seats seat space) (address : UInt32) :
    Keeps (Keeping meter seating before tally begun) (readBus role space address) := by
  intro m ledger
  obtain ⟨seat, seated, seats⟩ := plugged
  exact ledger.observeAt seated (seats.read address m.world.devices ledger.fits)

theorem writeBus_keeps {role : BusRole} {space : Space σ}
    (plugged : ∃ seat, seating role = some seat ∧ meter.Seats seat space) (address : UInt32)
    (value : UInt8) :
    Keeps (Keeping meter seating before tally begun) (writeBus role space address value) := by
  intro m ledger
  obtain ⟨seat, seated, seats⟩ := plugged
  exact ledger.observeAt seated (seats.write address value m.world.devices ledger.fits)

/-- Every instruction keeps the ledger. -/
theorem respects_ledger (metered : w.Metered meter seating) :
    Respects w w (Both (Keeping meter seating before tally begun)) where
  config := rfl
  regs := by
    rintro m _ ⟨rfl, -⟩
    exact ⟨_, rfl⟩
  lastPc := by
    rintro m _ ⟨rfl, -⟩
    rfl
  change _ := Keeps.lockstep fun _ ledger => ledger
  jump _ _ := Keeps.lockstep fun _ ledger => ledger
  pushPc := Keeps.lockstep fun _ ledger => ledger
  popPc := Keeps.lockstep fun _ ledger => ledger
  latchPort _ := Keeps.lockstep fun _ ledger => ledger
  setSkip _ := Keeps.lockstep fun _ ledger => ledger
  startTimer _ := Keeps.lockstep fun _ ledger => ledger
  readProgram address := (readBus_keeps metered.program address).lockstep
  readData address := (readBus_keeps metered.data address).lockstep
  writeData address value := (writeBus_keeps metered.data address value).lockstep
  readIo address := (readBus_keeps metered.io address).lockstep
  writeIo address value := (writeBus_keeps metered.io address value).lockstep
  record _ := Keeps.lockstep fun _ ledger => ledger

theorem drive_keeps (metered : w.Metered meter seating) (line : OutputLine) (asserted : Bool) :
    Keeps (Keeping meter seating before tally begun) (drive w line asserted) := by
  intro m ledger
  have driven := ledger.spare (metered.sink line asserted)
  exact driven.aside rfl rfl

/-- The timer touches nothing that is on a ledger. -/
theorem tickTimer_aside (w : Wiring σ) (cycles : Nat) (m : Machine State σ) :
    (tickTimer w cycles m).2.core.toCoreStatus = m.core.toCoreStatus ∧
      (tickTimer w cycles m).2.world.devices = m.world.devices := by
  obtain ⟨log, ticked⟩ := tickTimer_dial w cycles m
  rw [ticked]
  exact ⟨rfl, rfl⟩

/-- Charging moves the clock and touches nothing else that is on a ledger. -/
theorem charge_aside (w : Wiring σ) (cycles : Nat) (m : Machine State σ) :
    (charge w cycles m).2.core.toCoreStatus = m.core.toCoreStatus.charge cycles ∧
      (charge w cycles m).2.world.devices = m.world.devices :=
  tickTimer_aside w cycles ⟨{ m.core with toCoreStatus := m.core.toCoreStatus.charge cycles },
    m.world⟩

/-- What is asked of the status and the devices only is kept while the timer runs. -/
theorem tickTimer_keeps {P : CoreStatus → σ → Prop} (w : Wiring σ) (cycles : Nat) :
    Keeps (fun m : Machine State σ => P m.core.toCoreStatus m.world.devices)
      (tickTimer w cycles) := by
  intro m holds
  obtain ⟨status, devices⟩ := tickTimer_aside w cycles m
  show P _ _
  rw [status, devices]
  exact holds

/-- All bus cycles of an action so far are known, and it has the skip of its beginning. -/
structure Knowing (meter : Meter σ) (seating : Seating) (skip : Bool) (before : Nat → Nat)
    (tally : Tally) (bus : List BusCycle) (m : Machine State σ) : Prop where
  ledger : Keeping meter seating before tally bus m
  bus : m.core.bus = bus
  skip : m.core.skip = skip

/-- The bus cycles that are known fetched an instruction that costs so much. -/
def Prices (family : Family) (skip : Bool) (begun : List BusCycle) (cost : Nat) : Prop :=
  ∀ bus, begun <+: bus → tableCost family skip bus = cost

theorem prices_first (family : Family) (skip : Bool) (first : BusCycle) :
    Prices family skip [first] (if skip then (decode family first.value).length
      else (decode family first.value).cycles) := by
  rintro bus ⟨rest, rfl⟩
  rfl

/-- The instruction that is fetched is what the first bus cycle read. -/
theorem fetchInstruction_known (metered : w.Metered meter seating) :
    Ensures (Knowing meter seating skip before tally []) (fetchInstruction w)
      fun fetched m => ∃ first : BusCycle, first.value = fetched.1 ∧
        fetched.2 = decode w.geometry.family first.value ∧
        Keeping meter seating before tally [first] m ∧ m.core.skip = skip := by
  rintro m ⟨ledger, fresh, skips⟩
  have fetch (begun : List BusCycle) :
      Keeps (Keeping meter seating before tally begun) (Ucom4.fetch w) :=
    (respects_ledger metered).fetch.keeps
  have opcode := fetch [] m ledger
  have noted : (Ucom4.fetch w m).2.core.bus = [⟨.program, .read, .byte, m.core.regs.pc.toUInt32,
      (Ucom4.fetch w m).1⟩] := by
    have noted : (Ucom4.fetch w m).2.core.bus = m.core.bus ++ [⟨.program, .read, .byte,
      m.core.regs.pc.toUInt32, (Ucom4.fetch w m).1⟩] := rfl
    rw [fresh] at noted
    exact noted
  have known := opcode.know noted
  unfold fetchInstruction
  rw [eval_bind, eval_ite]
  split
  · exact ⟨_, rfl, rfl, fetch _ _ known, skips⟩
  · exact ⟨_, rfl, rfl, known, skips⟩

/-! ## §3 Actions -/

variable {wasReset : Bool} {family : Family}

theorem Wiring.Metered.seats_eq {program data io : Nat} (first : seating .program = some program)
    (second : seating .data = some data) (third : seating .io = some io) :
    seating.seats = insert io (insert data {program}) := by
  unfold Seating.seats
  ext seat
  simp only [List.filterMap_cons, first, second, third, List.filterMap_nil, List.mem_toFinset,
    List.mem_cons, List.not_mem_nil, or_false, Finset.mem_insert, Finset.mem_singleton]
  omega

/-- All three spaces give up their wait states. -/
theorem drainWaitStates_taken (metered : w.Metered meter seating) (m : Machine State σ)
    (fits : meter.fits m.world.devices) :
    meter.Taken seating.seats m.world.devices (drainWaitStates w m).1
      (drainWaitStates w m).2.world.devices := by
  obtain ⟨_, first, program⟩ := metered.program
  obtain ⟨_, second, data⟩ := metered.data
  obtain ⟨_, third, io⟩ := metered.io
  have taken := ((program.taken fits).more data).more io
  rw [← Wiring.Metered.seats_eq first second third, ← toNat_satAdd32, ← toNat_satAdd32] at taken
  exact taken

theorem drainWaitStates_drained (metered : w.Metered meter seating) :
    Ensures (Keeping meter seating before tally begun) (drainWaitStates w) fun waits m =>
      meter.Drained seating before tally begun waits m.core.toCoreStatus m.world.devices :=
  fun m ledger => ledger.drained metered.core (drainWaitStates_taken metered m ledger.fits) rfl rfl

/-- A core whose action is over. -/
abbrev Paid (meter : Meter σ) (seating : Seating) (bill : Bill) (before : Nat → Nat)
    (tally : Tally) (wasReset : Bool) (answer : Except Fault StepOutcome)
    (m : Machine State σ) : Prop :=
  meter.Answers seating bill before tally wasReset answer m.core.toCoreStatus m.world.devices

theorem retire_paid (metered : w.Metered meter seating) (pc : UInt16) (opcode : UInt8) {cost : Nat}
    (prices : Prices family skip begun cost) :
    Ensures (Keeping meter seating before tally begun) (retire w pc opcode cost)
      fun step => Paid meter seating (bill family skip) before tally wasReset (.ok step) := by
  refine .keepsBind (fun _ ledger => ledger.aside rfl rfl) fun _ =>
    .bind (drainWaitStates_drained metered) fun waits => .keepsBind (tickTimer_keeps w waits)
    fun _ m drained => ?_
  have covers : (bill family skip).Covers m.core.bus waits (.retired pc.toUInt32 (cost + waits)) :=
    congrArg (· + waits) (prices _ drained.begun).symm
  exact drained.billed covers rfl rfl

theorem service_paid (metered : w.Metered meter seating) :
    Ensures (Keeping meter seating before tally []) (service w)
      fun step => Paid meter seating (bill family skip) before tally wasReset (.ok step) := by
  refine .keepsBind (fun _ ledger => ledger.aside rfl rfl) fun _ =>
    .keepsBind (fun _ ledger => ledger) fun _ => .keepsBind (fun _ ledger => ledger) fun _ =>
    .keepsBind (fun _ ledger => ledger) fun _ => .keepsBind (drive_keeps metered _ _) fun _ =>
    .keepsBind (drive_keeps metered _ _) fun _ => .bind (drainWaitStates_drained metered)
    fun waits m drained => ?_
  obtain ⟨status, devices⟩ := charge_aside w (interruptCycles + waits) m
  have covers : (bill family skip).Covers m.core.bus waits
      (.interrupt (charge w (interruptCycles + waits) m).2.core.regs.pc.toUInt32
        (interruptCycles + waits)) := rfl
  show meter.Billed _ _ _ _ _ _ _ (charge w (interruptCycles + waits) m).2.world.devices
  rw [devices]
  have bus : (charge w (interruptCycles + waits) m).2.core.bus = m.core.bus := by
    rw [status]
    rfl
  refine drained.billed covers bus ?_
  show ({ (charge w (interruptCycles + waits) m).2.core.toCoreStatus with
    exec := .fetching
    diagnostics := (charge w (interruptCycles + waits) m).2.core.diagnostics.recordInterrupt } :
      CoreStatus).tally = _
  rw [status]
  rfl

theorem runSkipped_paid (metered : w.Metered meter seating) (pc : UInt16) {first : BusCycle} :
    Ensures (Keeping meter seating before tally [first])
      (runSkipped w pc first.value (decode w.geometry.family first.value))
      fun step => Paid meter seating (bill w.geometry.family true) before tally wasReset
        (.ok step) :=
  .keepsBind (tickTimer_keeps w _) fun _ => .keepsBind (fun _ ledger => ledger) fun _ =>
    retire_paid metered pc first.value (prices_first w.geometry.family true first)

theorem runIllegal_paid (metered : w.Metered meter seating) (pc : UInt16) {first : BusCycle} :
    Ensures (Keeping meter seating before tally [first])
      (runIllegal w pc first.value (decode w.geometry.family first.value))
      (Paid meter seating (bill w.geometry.family false) before tally wasReset) := by
  refine .keepsBind (fun _ ledger => ledger.aside rfl rfl) fun _ =>
    .keepsBind (fun _ ledger => ledger) fun _ => ?_
  dsimp only
  cases w.config.policy with
  | fatal =>
    exact .keepsBind (fun _ ledger => ledger.aside rfl rfl) fun _ =>
      .pure fun _ ledger => ledger.owing
  | nop =>
    exact .keepsBind (tickTimer_keeps w _) fun _ =>
      .mapped (retire_paid metered pc _ (prices_first w.geometry.family false first))

theorem runInstruction_paid (metered : w.Metered meter seating) :
    Ensures (Knowing meter seating skip before tally []) (runInstruction w)
      (Paid meter seating (bill w.geometry.family skip) before tally wasReset) := by
  rw [runInstruction_eq]
  refine .keepsBind (fun _ known => known) fun r =>
    .keepsBind (fun _ known => ⟨known.ledger.aside rfl rfl, known.bus, known.skip⟩) fun _ =>
    .bind (fetchInstruction_known metered) fun fetched => ?_
  obtain ⟨opcode, entry⟩ := fetched
  rintro m ⟨first, rfl, rfl, ledger, skips⟩
  show Paid _ _ _ _ _ _ ((runFetched w r.pc first.value _ m.core) m).1
    ((runFetched w r.pc first.value _ m.core) m).2
  unfold runFetched
  rw [skips]
  cases skip with
  | true => exact Ensures.mapped (runSkipped_paid metered r.pc) m ledger
  | false =>
    obtain ⟨fits, -⟩ := decode_fits w.geometry.family first.value
    refine Ensures.ite (fun _ => runIllegal_paid metered r.pc) (fun _ => ?_) m ledger
    refine .keepsBind (tickTimer_keeps w _) fun _ =>
      .keepsBind ((respects_ledger metered).operates.perform fits (fun _ => rfl) fun _ =>
        Keeps.lockstep fun _ ledger => ledger).keeps fun _ => ?_
    exact .mapped (retire_paid metered r.pc _ (prices_first w.geometry.family false first))

/-- A core that rests at a boundary. -/
abbrev Resting (meter : Meter σ) (before : Nat → Nat) (tally : Tally) (wasReset : Bool)
    (m : Machine State σ) : Prop :=
  meter.Rested before tally wasReset m.core.toCoreStatus m.world.devices

theorem idle_paid {bill : Bill} (everyCycle : bill.beat = 1) (remaining : Nat) :
    Ensures (Resting meter before tally wasReset)
      (do
        let cycles := idleCycles remaining
        charge w cycles
        return .ok (.idle cycles))
      (Paid meter seating bill before tally wasReset) := by
  intro m rested
  obtain ⟨status, devices⟩ := charge_aside w (idleCycles remaining) m
  show meter.Billed _ _ _ _ _ _ (charge w (idleCycles remaining) m).2.core.toCoreStatus
    (charge w (idleCycles remaining) m).2.world.devices
  rw [status, devices]
  refine rested.billed ?_ (everyCycle ▸ Nat.one_dvd _) rfl rfl
  unfold idleCycles
  omega

/-- A core while a reset drives its ports: only its own seats get more, and the clock stands. -/
structure Driving (meter : Meter σ) (seating : Seating) (before : Nat → Nat) (reading : Nat)
    (m : Machine State σ) : Prop where
  fits : meter.fits m.world.devices
  others : ∀ seat, seat ∉ seating.seats → meter.pending seat m.world.devices ≤ before seat
  clock : m.core.totalCycles = reading

theorem clearPorts_driving (metered : w.Metered meter seating) (reading : Nat)
    (ports : List UInt8) : Keeps (Driving meter seating before reading) (clearPorts w ports) := by
  have output (port : UInt8) : Keeps (Driving meter seating before reading) (output w port 0) := by
    refine .ite (fun _ => .bind ?_ fun _ _ driving => ⟨driving.fits, driving.others, driving.clock⟩)
      fun _ => .bind (fun _ driving => ⟨driving.fits, driving.others, driving.clock⟩)
        fun _ _ driving => ⟨driving.fits, driving.others, driving.clock⟩
    rintro m ⟨fits, others, clock⟩
    obtain ⟨own, seated, seats⟩ := metered.io
    have adds := seats.write (nibble port).toUInt32
      (nibble 0 &&& w.geometry.ports.outputMask (nibble port)) m.world.devices fits
    refine ⟨adds.fits, fun seat other => ?_, clock⟩
    have elsewhere : seat ≠ own := by
      rintro rfl
      exact other (Seating.mem_seats metered.core seated)
    refine (adds.pending seat).trans_le ?_
    unfold Meter.access
    rw [if_neg elsewhere]
    exact (Nat.min_le_left ..).trans (others seat other)
  induction ports with
  | nil => exact .pure ()
  | cons port ports ih =>
    unfold clearPorts
    exact .ite (fun _ => .bind (output port) fun _ => ih) fun _ => ih

/-- A reset leaves nothing at the seats of the core, and all others and the clock alone. -/
theorem reset_settled (metered : w.Metered meter seating) (reading : Nat) :
    Keeps (fun m => meter.Settled before m.world.devices ∧ m.core.totalCycles = reading)
      (reset w) := by
  have drained : Ensures (Driving meter seating before reading)
      (Functor.discard (drainWaitStates w))
      fun _ m => meter.Settled before m.world.devices ∧ m.core.totalCycles = reading := by
    rintro m ⟨fits, others, clock⟩
    have taken := drainWaitStates_taken metered m fits
    refine ⟨⟨taken.fits, fun seat => (taken.pending seat).trans_le ?_⟩, clock⟩
    split
    · exact Nat.zero_le _
    · next other => exact others seat other
  refine Ensures.bind (V := fun _ => Driving meter seating before reading)
    (W := fun _ m => meter.Settled before m.world.devices ∧ m.core.totalCycles = reading)
    (fun m holds => ⟨holds.1.fits, fun seat _ => holds.1.settles seat, holds.2⟩) fun _ => ?_
  exact .keepsBind (fun _ driving => ⟨driving.fits, driving.others, driving.clock⟩) fun _ =>
    .keepsBind (clearPorts_driving metered reading resetPorts) fun _ =>
    .bind drained fun _ _ settled => settled

/-- A core that is held in reset rests, and any other one is still at its boundary. -/
theorem sampleReset_rests (metered : w.Metered meter seating) :
    Ensures (fun m => Knowing meter seating skip before tally [] m ∧ m.core.inReset = wasReset)
      (sampleReset w)
      fun held m => if held then Resting meter before tally wasReset m
        else Knowing meter seating skip before tally [] m := by
  refine .keepsBind (fun _ holds => ⟨⟨holds.1.ledger, holds.1.bus, holds.1.skip⟩, holds.2⟩)
    fun held => ?_
  rintro m ⟨known, rfl⟩
  rw [eval_bind, eval_ite]
  cases held with
  | true =>
    cases now : m.core.inReset with
    | false =>
      have now_ : (getState m).1.inReset = false := now
      rw [now_]
      obtain ⟨settled, clock⟩ := reset_settled metered m.core.totalCycles m
        ⟨known.ledger.settled known.bus, rfl⟩
      exact ⟨settled, .inr ⟨clock.trans (congrArg Tally.clock known.ledger.tally), rfl, rfl⟩⟩
    | true =>
      have now_ : (getState m).1.inReset = true := now
      rw [now_]
      exact known.ledger.rested known.bus
  | false =>
    rw [eval_ite]
    -- letting go of the reset line is nothing to the ledger
    split
    · cases ‹_›
    · split
      · exact ⟨known.ledger.aside rfl rfl, known.bus, known.skip⟩
      · exact known

/-- A request is nothing to the ledger. -/
theorem latchRequest_known (w : Wiring σ) :
    Keeps (Knowing meter seating skip before tally []) (latchRequest w) :=
  .bind (fun _ known => ⟨known.ledger, known.bus, known.skip⟩) fun _ =>
    .ite (fun _ => fun _ known => ⟨known.ledger, known.bus, known.skip⟩) fun _ => .pure ()

/-- Every action is billed for what was pending at the seats of the core and for what its own bus
cycles cost. -/
theorem advance_paid (metered : w.Metered meter seating) (remaining : Nat) (m : Machine State σ)
    (fits : meter.fits m.world.devices) :
    Paid meter seating (bill w.geometry.family m.core.skip) (meter.pending · m.world.devices)
      m.core.toCoreStatus.tally m.core.inReset (advance w remaining m).1
      (advance w remaining m).2 := by
  refine Ensures.bind (P := (· = m))
    (V := fun _ m' => Knowing meter seating m.core.skip (meter.pending · m.world.devices)
      m.core.toCoreStatus.tally [] m' ∧ m'.core.inReset = m.core.inReset) ?begin
    (fun _ => .keepsBind (fun _ holds => holds) fun s => ?_) m rfl
  case begin =>
    rintro m rfl
    exact ⟨⟨.start fits rfl rfl, rfl, rfl⟩, rfl⟩
  cases s.exec.latchedFault? with
  | some fault => exact .pure fun _ holds => holds.1.ledger.owing
  | none =>
    refine .bind (sampleReset_rests metered) fun held => ?_
    cases held with
    | true => exact idle_paid rfl remaining
    | false =>
      refine Ensures.keepsBind (latchRequest_known w) fun _ =>
        .keepsBind (fun _ known => known) fun s => .ite (fun _ => ?_) fun _ =>
        runInstruction_paid metered
      exact .mapped fun m known => service_paid metered m known.ledger

end Walk

end Microboard.Ucom4
