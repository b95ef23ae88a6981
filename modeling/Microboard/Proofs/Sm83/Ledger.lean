import Microboard.Proofs.Metering
import Microboard.Proofs.Sm83.Cycles

/-!
# What SM83 actions are billed

- **§1** The table of costs: what an instruction takes without wait states.
- **§2** Instructions keep the ledger of an action.
- **§3** Every action is billed.
-/

namespace Microboard.Sm83

variable {σ : Type}

/-! ## §1 The table of costs -/

/-- Condition of a branch. -/
def Op.condition? : Op → Option Condition
  | .jrIf condition | .retIf condition | .jpIf condition | .callIf condition => some condition
  | _ => none

/-- Whether the operation is a branch that is taken. -/
def Op.branches (op : Op) (regs : Registers) : Bool := op.condition?.any regs.holds

/-- Cycles of an operation. -/
def Op.cycles (op : Op) (regs : Registers) : Nat :=
  if op.branches regs then op.cost.taken else op.cost.base

/-- Operation that the bus cycles of an instruction fetched. -/
def operation? : List BusCycle → Option Op
  | [] => none
  | first :: rest =>
    if decode first.value = .secondPage then rest.head?.map (decodeSecond ·.value)
    else some (decode first.value)

/-- Cycles of the instruction that some bus cycles fetched, on a core with some registers. -/
def tableCost (regs : Registers) (bus : List BusCycle) : Nat :=
  ((operation? bus).map (·.cycles regs)).getD 0

def bill (regs : Registers) : Bill := ⟨tableCost regs, interruptCycles, 4⟩

/-- Only the flags decide whether a branch is taken. -/
theorem holds_congr {r r' : Registers} (flags : r.f = r'.f) (condition : Condition) :
    r.holds condition = r'.holds condition := by
  unfold Registers.holds Registers.flag
  rw [flags]

theorem Op.cycles_congr (op : Op) {r r' : Registers} (flags : r.f = r'.f) :
    op.cycles r = op.cycles r' := by
  unfold cycles branches
  rw [funext (holds_congr flags)]

/-- An instruction that has been fetched has a cost in the table. -/
theorem tableCost_timed {regs : Registers} {bus : List BusCycle} {op : Op}
    (fetched : operation? bus = some op) : Timed (tableCost regs bus) := by
  have first : op ≠ .secondPage := by
    rintro rfl
    unfold operation? at fetched
    split at fetched
    · cases fetched
    · split at fetched
      · obtain ⟨second, -, page⟩ := Option.map_eq_some_iff.mp fetched
        exact decodeSecond_ne _ page
      · next other => exact other (Option.some.inj fetched)
  have timed := cost_timed op first
  unfold tableCost
  rw [fetched]
  show Timed (if op.branches regs then op.cost.taken else op.cost.base)
  split
  · exact timed.2
  · exact timed.1

/-! ### Answers of operations -/

theorem flags_fetch8 (w : Wiring σ) (m : Machine State σ) :
    (fetch8 w m).2.core.regs.f = m.core.regs.f := by
  have same := congrArg Registers.f (regs_read8 w m.core.regs.pc m)
  exact same

theorem flags_fetch16 (w : Wiring σ) (m : Machine State σ) :
    (fetch16 w m).2.core.regs.f = m.core.regs.f := by
  show (fetch8 w (fetch8 w m).2).2.core.regs.f = _
  rw [flags_fetch8, flags_fetch8]

theorem branchIf_answer (condition : Condition) (branch : Exec σ Unit) (m : Machine State σ) :
    (branchIf condition branch m).1 = m.core.regs.holds condition := by
  show ((if m.core.regs.holds condition then _ else _ : Exec σ Bool) m).1 = _
  rw [eval_ite]
  split
  · next holds => exact holds.symm
  · next fails => exact (eq_false_of_ne_true fails).symm

theorem always_answer (act : Exec σ Unit) (m : Machine State σ) : (always act m).1 = false := rfl

/-- An operation says whether it was a branch that was taken, which the flags decided before its
operands were fetched. -/
theorem perform_answer (w : Wiring σ) (op : Op) (m : Machine State σ) :
    (perform w op m).1 = op.branches m.core.regs := by
  cases op with
  | jrIf condition =>
    exact (branchIf_answer condition _ _).trans (holds_congr (flags_fetch8 w m) condition)
  | jpIf condition =>
    exact (branchIf_answer condition _ _).trans (holds_congr (flags_fetch16 w m) condition)
  | callIf condition =>
    exact (branchIf_answer condition _ _).trans (holds_congr (flags_fetch16 w m) condition)
  | retIf condition => exact branchIf_answer condition _ m
  | nop | illegal | secondPage => rfl
  | _ => exact always_answer _ m

theorem performCosted_answer (w : Wiring σ) (op : Op) (m : Machine State σ) :
    (performCosted w op m).1 = op.cycles m.core.regs := by
  show (if (perform w op m).1 then op.cost.taken else op.cost.base) = _
  rw [perform_answer]
  rfl

/-! ## §2 Instructions -/

/-- The program space of a core has a seat, the core has no other, and what hangs on its output
lines leaves all seats alone. -/
structure Wiring.Metered (meter : Meter σ) (seating : Seating) (w : Wiring σ) : Prop where
  program : ∃ seat, seating .program = some seat ∧ meter.Seats seat w.program
  data : seating .data = none
  io : seating .io = none
  core : seating .internal = none
  sink : ∀ line asserted, meter.Spares (w.sink line asserted)

section Walk

variable {meter : Meter σ} {seating : Seating} {w : Wiring σ} {before : Nat → Nat}
  {tally : Tally} {begun : List BusCycle}

/-- A core in the middle of an action. -/
abbrev Keeping (meter : Meter σ) (seating : Seating) (before : Nat → Nat) (tally : Tally)
    (begun : List BusCycle) (m : Machine State σ) : Prop :=
  meter.Ledger seating before tally begun m.core.toCoreStatus m.world.devices

theorem drive_keeps (metered : w.Metered meter seating) (line : OutputLine) (asserted : Bool) :
    Keeps (Keeping meter seating before tally begun) (drive w line asserted) := by
  intro m ledger
  have driven := ledger.spare (metered.sink line asserted)
  exact driven.aside rfl rfl

theorem read8_keeps (metered : w.Metered meter seating) (address : UInt16) :
    Keeps (Keeping meter seating before tally begun) (read8 w address) := by
  refine .ite (fun _ => ?_) fun _ => .ite (fun _ => ?_) fun _ => ?_
  · exact .bind (fun _ ledger => ledger) fun regs =>
      .bind (fun _ ledger => ledger.observeInside metered.core) fun _ => .pure regs.ie
  · exact .bind (fun _ ledger => ledger) fun regs =>
      .bind (fun _ ledger => ledger.observeInside metered.core) fun _ => .pure (shownIf regs)
  -- the access and the note of it belong together
  · intro m ledger
    obtain ⟨seat, seated, seats⟩ := metered.program
    exact ledger.observeAt seated (seats.read address.toUInt32 m.world.devices ledger.fits)

theorem write8_keeps (metered : w.Metered meter seating) (address : UInt16) (value : UInt8) :
    Keeps (Keeping meter seating before tally begun) (write8 w address value) := by
  refine .ite (fun _ => ?_) fun _ => .ite (fun _ => ?_) fun _ => ?_
  · exact .bind (fun _ ledger => ledger) fun _ =>
      fun _ ledger => ledger.observeInside metered.core
  · exact .bind (fun _ ledger => ledger) fun _ =>
      fun _ ledger => ledger.observeInside metered.core
  · intro m ledger
    obtain ⟨seat, seated, seats⟩ := metered.program
    exact ledger.observeAt seated (seats.write address.toUInt32 value m.world.devices ledger.fits)

/-- Every instruction keeps the ledger. -/
theorem respects_ledger (metered : w.Metered meter seating) :
    Respects w w (Both (Keeping meter seating before tally begun)) where
  regs := by
    rintro m _ ⟨rfl, -⟩
    rfl
  change _ := Keeps.lockstep fun _ ledger => ledger
  enable := Keeps.lockstep fun _ ledger => ledger
  disable := Keeps.lockstep fun _ ledger => ledger
  enableLater := Keeps.lockstep fun _ ledger => ledger
  repeatFetch := Keeps.lockstep fun _ ledger => ledger
  enterHalt _ := Keeps.lockstep <| .bind (fun _ ledger => ledger.aside rfl rfl) fun _ =>
    .bind (drive_keeps metered haltOut true) fun _ => .bind (fun _ ledger => ledger) fun _ =>
    fun _ ledger => ledger
  read8 address := (read8_keeps metered address).lockstep
  write8 address value := (write8_keeps metered address value).lockstep

/-- Reading a byte notes the bus cycle and does nothing else to the core. -/
theorem read8_notes (w : Wiring σ) (address : UInt16) (m : Machine State σ) :
    ∃ role, (read8 w address m).2.core.bus =
      m.core.bus ++ [⟨role, .read, .byte, address.toUInt32, (read8 w address m).1⟩] := by
  unfold read8
  rw [eval_ite]
  split
  · exact ⟨.internal, rfl⟩
  · rw [eval_ite]
    split
    · exact ⟨.internal, rfl⟩
    · exact ⟨.program, rfl⟩

/-- The bus cycles that are known fetched an instruction that costs so much. -/
def Prices (flags : UInt8) (begun : List BusCycle) (cost : Nat) : Prop :=
  ∀ (regs : Registers) bus, regs.f = flags → begun <+: bus → tableCost regs bus = cost

/-- All bus cycles of an action so far are known, and the flags are those of its beginning. -/
structure Knowing (meter : Meter σ) (seating : Seating) (flags : UInt8) (before : Nat → Nat)
    (tally : Tally) (bus : List BusCycle) (m : Machine State σ) : Prop where
  ledger : Keeping meter seating before tally bus m
  bus : m.core.bus = bus
  flags : m.core.regs.f = flags

/-- What happens elsewhere, and to the rest of the core, changes nothing about it. -/
theorem Knowing.elsewhere {flags : UInt8} {bus : List BusCycle} {m m' : Machine State σ}
    (known : Knowing meter seating flags before tally bus m)
    (ledger : Keeping meter seating before tally bus m → Keeping meter seating before tally bus m')
    (same : m'.core.bus = m.core.bus) (f : m'.core.regs.f = m.core.regs.f) :
    Knowing meter seating flags before tally bus m' :=
  ⟨ledger known.ledger, same.trans known.bus, f.trans known.flags⟩

/-- Whether the program counter moves is nothing to the ledger. -/
theorem State.fetched_aside (opcode : UInt8) (s : State) :
    (s.fetched opcode).bus = s.bus ∧ (s.fetched opcode).toCoreStatus.tally = s.toCoreStatus.tally ∧
      (s.fetched opcode).regs.f = s.regs.f := by
  unfold fetched
  split <;> exact ⟨rfl, rfl, rfl⟩

/-- The opcode that is fetched is what the first bus cycle read. -/
theorem fetchOpcode_known (metered : w.Metered meter seating) (flags : UInt8) :
    Ensures (Knowing meter seating flags before tally []) (fetchOpcode w) fun opcode m =>
      ∃ first : BusCycle, first.value = opcode ∧
        Knowing meter seating flags before tally [first] m := by
  rintro m ⟨ledger, fresh, flagged⟩
  have kept := read8_keeps metered m.core.regs.pc m ledger
  have same := regs_read8 w m.core.regs.pc m
  obtain ⟨role, noted⟩ := read8_notes w m.core.regs.pc m
  rw [fresh] at noted
  revert kept same noted
  rw [fetchOpcode_eq]
  obtain ⟨opcode, m₁⟩ := read8 w m.core.regs.pc m
  intro kept same noted
  obtain ⟨bus, counted, f⟩ := m₁.core.fetched_aside opcode
  refine ⟨_, rfl, (kept.know noted).aside bus counted, bus.trans noted, ?_⟩
  exact f.trans ((congrArg Registers.f same).trans flagged)

/-- An operation of the first page is known from the first bus cycle. -/
theorem prices_first {first : BusCycle} (page : decode first.value ≠ .secondPage)
    {regs : Registers} : Prices regs.f [first] ((decode first.value).cycles regs) := by
  rintro r bus flags ⟨rest, rfl⟩
  show ((if decode first.value = .secondPage then _ else _ : Option Op).map _).getD 0 = _
  rw [if_neg page]
  exact Op.cycles_congr _ flags

/-- An operation of the second page is known from the first two bus cycles. -/
theorem prices_second {first second : BusCycle} (page : decode first.value = .secondPage)
    {regs : Registers} :
    Prices regs.f [first, second] ((decodeSecond second.value).cycles regs) := by
  rintro r bus flags ⟨rest, rfl⟩
  show ((if decode first.value = .secondPage then _ else _ : Option Op).map _).getD 0 = _
  rw [if_pos page]
  exact Op.cycles_congr _ flags

theorem performCosted_keeps (metered : w.Metered meter seating) (op : Op) :
    Keeps (Keeping meter seating before tally begun) (performCosted w op) :=
  ((respects_ledger metered).performCosted op).keeps

/-- An instruction answers its cost in the table. -/
theorem execute_prices (metered : w.Metered meter seating) (flags : UInt8) {first : BusCycle} :
    Ensures (Knowing meter seating flags before tally [first]) (execute w (decode first.value))
      fun cost m => ∃ begun, Keeping meter seating before tally begun m ∧
        Prices flags begun cost := by
  refine .ite (fun page => ?_) fun page => ?_
  · rintro m ⟨ledger, fresh, rfl⟩
    have kept := (respects_ledger metered).fetch8.keeps m ledger
    obtain ⟨role, noted⟩ := read8_notes w m.core.regs.pc m
    have bus : (fetch8 w m).2.core.bus = [first, ⟨role, .read, .byte, m.core.regs.pc.toUInt32,
        (fetch8 w m).1⟩] := by
      rw [fresh] at noted
      exact noted
    rw [eval_bind, performCosted_answer, Op.cycles_congr _ (flags_fetch8 w m)]
    exact ⟨_, performCosted_keeps metered _ _ (kept.know bus), prices_second page⟩
  · rintro m ⟨ledger, -, rfl⟩
    rw [performCosted_answer]
    exact ⟨[first], performCosted_keeps metered _ m ledger, prices_first page⟩

/-! ## §3 Actions -/

variable {wasReset : Bool} {regs : Registers}

theorem Wiring.Metered.seats_eq (metered : w.Metered meter seating) {seat : Nat}
    (seated : seating .program = some seat) : seating.seats = {seat} := by
  unfold Seating.seats
  simp [seated, metered.data, metered.io]

theorem drainWaitStates_drained (metered : w.Metered meter seating) :
    Ensures (Keeping meter seating before tally begun) (drainWaitStates w) fun waits m =>
      meter.Drained seating before tally begun waits m.core.toCoreStatus m.world.devices := by
  intro m ledger
  obtain ⟨seat, seated, seats⟩ := metered.program
  have taken := seats.taken ledger.fits
  rw [← metered.seats_eq seated] at taken
  exact ledger.drained metered.core taken rfl rfl

/-- A core whose action is over. -/
abbrev Paid (meter : Meter σ) (seating : Seating) (regs : Registers) (before : Nat → Nat)
    (tally : Tally) (wasReset : Bool) (answer : Except Fault StepOutcome)
    (m : Machine State σ) : Prop :=
  meter.Answers seating (bill regs) before tally wasReset answer m.core.toCoreStatus
    m.world.devices

theorem retire_paid (metered : w.Metered meter seating) (pc : UInt16) (opcode : UInt8) {cost : Nat}
    (prices : Prices regs.f begun cost) :
    Ensures (Keeping meter seating before tally begun) (retire w pc opcode cost)
      fun step => Paid meter seating regs before tally wasReset (.ok step) := by
  refine .keepsBind (fun m ledger => ledger.aside ?_ ?_) fun _ =>
    .bind (drainWaitStates_drained metered) fun waits => ?_
  -- the state in which the core goes on is nothing to the ledger
  · show (if m.core.exec = .executing then _ else m.core.toCoreStatus).bus = _
    split <;> rfl
  · show (if m.core.exec = .executing then _ else m.core.toCoreStatus).tally = _
    split <;> rfl
  · intro m drained
    have covers : (bill regs).Covers m.core.bus waits (.retired pc.toUInt32 (cost + waits)) :=
      congrArg (· + waits) (prices regs _ rfl drained.begun).symm
    exact drained.billed covers rfl rfl

theorem service_paid (metered : w.Metered meter seating) (source : InputLine) :
    Ensures (Keeping meter seating before tally []) (service w source)
      fun step => Paid meter seating regs before tally wasReset (.ok step) := by
  refine .keepsBind (fun _ ledger => ledger.aside rfl rfl) fun _ =>
    .keepsBind (fun _ ledger => ledger) fun _ =>
    .keepsBind ((respects_ledger metered).callTo _).keeps fun _ =>
    .keepsBind (drive_keeps metered _ _) fun _ => .keepsBind (drive_keeps metered _ _) fun _ =>
    .bind (drainWaitStates_drained metered) fun waits => ?_
  intro m drained
  have covers : (bill regs).Covers m.core.bus waits
      (.interrupt (handlerAddress source).toUInt32 (interruptCycles + waits)) := rfl
  exact drained.billed covers rfl rfl

/-- An illegal opcode stops the core or passes like an instruction. -/
theorem illegal_paid (metered : w.Metered meter seating) (pc : UInt16) {first : BusCycle}
    (illegal : decode first.value = .illegal) :
    Ensures (Keeping meter seating before tally [first])
      (do
        modifyStatus fun s =>
          { s with diagnostics := s.diagnostics.recordIllegal pc.toUInt32 first.value }
        let policy := w.config.policy
        Machine.record (.illegalOpcode name pc first.value policy)
        match policy with
        | .fatal =>
          let fault := Fault.illegalOpcode pc.toUInt32 first.value
          modifyStatus ({ · with exec := .faultLatched fault })
          return .error fault
        | .nop => return .ok (← retire w pc first.value (decode first.value).cost.base))
      (Paid meter seating regs before tally wasReset) := by
  have page : decode first.value ≠ .secondPage := by
    rw [illegal]
    exact Op.noConfusion
  have prices : Prices regs.f [first] (decode first.value).cost.base := by
    have priced := @prices_first first page regs
    rw [illegal] at priced ⊢
    exact priced
  refine .keepsBind (fun _ ledger => ledger.aside rfl rfl) fun _ =>
    .keepsBind (fun _ ledger => ledger) fun _ => ?_
  dsimp only
  cases w.config.policy with
  | fatal =>
    exact .keepsBind (fun _ ledger => ledger.aside rfl rfl) fun _ =>
      .pure fun _ ledger => ledger.owing
  | nop => exact .mapped (retire_paid metered _ _ prices)

theorem runInstruction_paid (metered : w.Metered meter seating) :
    Ensures (Knowing meter seating regs.f before tally []) (runInstruction w)
      (Paid meter seating regs before tally wasReset) := by
  refine .keepsBind (fun _ holds => holds) fun at_ =>
    .keepsBind (fun _ holds => ⟨holds.ledger.aside rfl rfl, holds.bus, holds.flags⟩) fun _ =>
    .bind (fetchOpcode_known metered regs.f) fun opcode => ?_
  rintro m ⟨first, rfl, known⟩
  refine Ensures.ite (fun illegal m known => ?_) (fun legal => ?_) m known
  · exact illegal_paid metered _ illegal m known.ledger
  · refine .bind (execute_prices metered regs.f) fun cost => ?_
    rintro m ⟨begun, ledger, prices⟩
    exact Ensures.mapped (retire_paid metered _ _ prices) m ledger

theorem runBoundary_paid (metered : w.Metered meter seating) :
    Ensures (Knowing meter seating regs.f before tally []) (runBoundary w)
      (Paid meter seating regs before tally wasReset) := by
  refine .keepsBind (fun _ holds => holds) fun s => .ite (fun _ => ?_) fun _ => ?_
  · exact .keepsBind (fun _ holds => ⟨holds.ledger.aside rfl rfl, holds.bus, holds.flags⟩) fun _ =>
      runInstruction_paid metered
  · cases s.regs.nextInterrupt? with
    | some source => exact .mapped fun m known => service_paid metered source m known.ledger
    | none => exact runInstruction_paid metered

/-- A core that rests at a boundary. -/
abbrev Resting (meter : Meter σ) (before : Nat → Nat) (tally : Tally) (wasReset : Bool)
    (m : Machine State σ) : Prop :=
  meter.Rested before tally wasReset m.core.toCoreStatus m.world.devices

theorem idle_paid (remaining : Nat) :
    Ensures (Resting meter before tally wasReset) (idle remaining)
      fun step => Paid meter seating regs before tally wasReset (.ok step) := by
  intro m rested
  refine rested.billed ?_ ?_ rfl rfl
  · unfold idleCycles
    omega
  · exact Nat.dvd_mul_right ..

theorem wake_rests (metered : w.Metered meter seating) :
    Keeps (Resting meter before tally wasReset) (wake w) := by
  intro m rested
  exact ⟨rested.toSettled.spare (metered.sink haltOut false), rested.tally⟩

theorem stayHalted_paid (metered : w.Metered meter seating) (remaining : Nat) (raised : UInt8) :
    Ensures (Resting meter before tally wasReset) (stayHalted w remaining raised)
      fun step => Paid meter seating regs before tally wasReset (.ok step) := by
  refine .keepsBind (fun _ rested => rested) fun s => .ite (fun _ => ?_) fun _ => ?_
  · refine .keepsBind (wake_rests metered) fun _ m rested => ?_
    exact rested.billed (by decide) (Nat.dvd_refl 4) rfl rfl
  · exact idle_paid remaining

/-- A reset leaves all seats and the clock alone. -/
theorem reset_settled (metered : w.Metered meter seating) (reading : Nat) :
    Keeps (fun m => meter.Settled before m.world.devices ∧ m.core.totalCycles = reading)
      (reset w) := by
  refine .bind (fun _ holds => holds) fun s => .whenFirst ?_ ?_
  · exact fun _ holds => ⟨holds.1.spare (metered.sink haltOut false), holds.2⟩
  · exact .bind (fun _ holds => holds) fun _ => .bind (fun _ holds => holds) fun _ =>
      fun _ holds => holds

/-- A core that is held in reset rests, and any other one is still at its boundary. -/
theorem sampleReset_rests (metered : w.Metered meter seating) {flags : UInt8} :
    Ensures (fun m => Knowing meter seating flags before tally [] m ∧ m.core.inReset = wasReset)
      (sampleReset w)
      fun held m => if held then Resting meter before tally wasReset m
        else Knowing meter seating flags before tally [] m := by
  refine .keepsBind (fun _ holds => ⟨holds.1.elsewhere id rfl rfl, holds.2⟩) fun held => ?_
  rintro m ⟨known, rfl⟩
  rw [eval_bind, eval_ite]
  cases held with
  | true =>
    cases now : m.core.inReset with
    | false =>
      have now_ : (getState m).1.inReset = false := now
      rw [now_]
      obtain ⟨settled, clock⟩ := reset_settled metered m.core.totalCycles m
        ⟨known.ledger.settled known.bus, rfl⟩
      exact ⟨settled, .inr ⟨clock.trans (congrArg Tally.clock known.ledger.tally), rfl, rfl⟩⟩
    | true =>
      have now_ : (getState m).1.inReset = true := now
      rw [now_]
      exact known.ledger.rested known.bus
  | false =>
    rw [eval_ite]
    -- letting go of the reset line is nothing to the ledger
    split
    · cases ‹_›
    · split
      · exact known.elsewhere (·.aside rfl rfl) rfl rfl
      · exact known

/-- Newly raised requests are nothing to the ledger. -/
theorem latchRequests_known (flags : UInt8) :
    Keeps (Knowing meter seating flags before tally []) (latchRequests w) :=
  .bind (fun _ known => known.elsewhere id rfl rfl) fun _ =>
    .bind (fun _ known => known.elsewhere id rfl rfl) fun _ => .pure _

/-- Every action is billed for what was pending at the seat of the core and for what its own bus
cycles cost. -/
theorem advance_paid (metered : w.Metered meter seating) (remaining : Nat) (m : Machine State σ)
    (fits : meter.fits m.world.devices) :
    Paid meter seating m.core.regs (meter.pending · m.world.devices) m.core.toCoreStatus.tally
      m.core.inReset (advance w remaining m).1 (advance w remaining m).2 := by
  refine Ensures.bind (P := (· = m))
    (V := fun _ m' => Knowing meter seating m.core.regs.f (meter.pending · m.world.devices)
      m.core.toCoreStatus.tally [] m' ∧ m'.core.inReset = m.core.inReset) ?begin
    (fun _ => .keepsBind (fun _ holds => holds) fun s => ?_) m rfl
  case begin =>
    rintro m rfl
    exact ⟨⟨.start fits rfl rfl, rfl, rfl⟩, rfl⟩
  cases s.exec.latchedFault? with
  | some fault => exact .pure fun _ holds => holds.1.ledger.owing
  | none =>
    refine .bind (sampleReset_rests metered) fun held => ?_
    cases held with
    | true => exact .mapped (idle_paid remaining)
    | false =>
      refine Ensures.keepsBind (latchRequests_known _) fun raised =>
        .keepsBind (fun _ known => known) fun s => .ite (fun _ => ?_) fun _ =>
        runBoundary_paid metered
      exact .mapped fun m known =>
        stayHalted_paid metered remaining raised m (known.ledger.rested known.bus)

end Walk

end Microboard.Sm83
