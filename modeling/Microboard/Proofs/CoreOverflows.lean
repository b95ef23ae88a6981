import Microboard.Proofs.CoreSharing
import Microboard.Proofs.Sm83.Sleeping
import Microboard.Proofs.Ucom4.Entering

/-!
# Cycles beyond 32 bits

Wait states pile up until their counter is full, and it stays there. A step then adds them to the
cycles of its table, and nothing keeps that sum inside the 32 bits in which the step reports it.

- **§1** SM83: an instruction that retires has a cost in the table, and idling is short.
- **§2** uCOM-4: the same.
- **§3** What a core charges besides wait states.
- **§4** Steps on a board: which of them can report their cycles.
-/

namespace Microboard

variable {σ δ : Type}

/-! ## §1 SM83 instructions -/

namespace Sm83

/-- The bus cycles of the core so far have fetched an operation. -/
def Recognized (m : Machine State σ) : Prop := ∃ op, operation? m.core.bus = some op

theorem operation?_cons (first : BusCycle) (rest : List BusCycle) :
    operation? (first :: rest) =
      if decode first.value = .secondPage then rest.head?.map (decodeSecond ·.value)
      else some (decode first.value) := rfl

/-- Bus cycles after an operation was fetched are not looked at. -/
theorem operation?_append {bus : List BusCycle} {op : Op} (fetched : operation? bus = some op)
    (more : List BusCycle) : operation? (bus ++ more) = some op := by
  cases bus with
  | nil => nomatch fetched
  | cons first rest =>
    rw [List.cons_append, operation?_cons]
    rw [operation?_cons] at fetched
    by_cases page : decode first.value = .secondPage
    · rw [if_pos page] at fetched ⊢
      obtain ⟨second, there, rfl⟩ := Option.map_eq_some_iff.mp fetched
      simp [there]
    · rw [if_neg page] at fetched ⊢
      exact fetched

theorem Recognized.noted {m m' : Machine State σ} (recognized : Recognized m) {cycle : BusCycle}
    (bus : m'.core.bus = m.core.bus ++ [cycle]) : Recognized m' := by
  obtain ⟨op, fetched⟩ := recognized
  exact ⟨op, bus ▸ operation?_append fetched _⟩

/-- No part of an instruction takes bus cycles back. -/
theorem respects_recognized (w : Wiring σ) : Respects w w (Both Recognized) where
  regs := by
    rintro m _ ⟨rfl, -⟩
    rfl
  change _ := Keeps.lockstep fun _ recognized => recognized
  enable := Keeps.lockstep fun _ recognized => recognized
  disable := Keeps.lockstep fun _ recognized => recognized
  enableLater := Keeps.lockstep fun _ recognized => recognized
  repeatFetch := Keeps.lockstep fun _ recognized => recognized
  enterHalt _ := Keeps.lockstep fun _ recognized => recognized
  read8 address := Keeps.lockstep fun m recognized =>
    recognized.noted (read8_bus w address m).1
  write8 address value := Keeps.lockstep fun m recognized => by
    obtain ⟨⟨_, bus⟩, -⟩ := write8_bus w address value m
    exact recognized.noted bus

theorem retire_recognized (w : Wiring σ) (pc : UInt16) (opcode : UInt8) (cost : Nat) :
    Keeps Recognized (retire w pc opcode cost) := by
  rintro m ⟨op, fetched⟩
  obtain ⟨totalCycles, diagnostics, core⟩ := retire_core w pc opcode cost m
  have bus : (retire w pc opcode cost m).2.core.bus = m.core.bus := by
    rw [core]
  exact ⟨op, bus ▸ fetched⟩

/-- Once its opcode is on the bus, an instruction knows its operation, at the latest when it has
fetched the second byte of an opcode of two. -/
theorem runFetched_recognized (w : Wiring σ) (pc : UInt16) {first : BusCycle} :
    Ensures (fun m : Machine State σ => m.core.bus = [first]) (runFetched w pc first.value)
      fun _ => Recognized := by
  have known (page : decode first.value ≠ .secondPage) {m : Machine State σ}
      (bus : m.core.bus = [first]) : Recognized m :=
    ⟨decode first.value, by rw [bus, operation?_cons, if_neg page]⟩
  have retires (cost : Nat) : Keeps (Recognized (σ := σ)) (retire w pc first.value cost) :=
    retire_recognized w pc first.value cost
  refine .ite (fun illegal => ?_) fun _ => ?_
  · have page : decode first.value ≠ .secondPage := by simp [illegal]
    refine fun m bus => (?_ : Ensures Recognized _ fun _ => Recognized) m (known page bus)
    refine .keepsBind (fun _ recognized => recognized) fun _ =>
      .keepsBind (fun _ recognized => recognized) fun _ => ?_
    dsimp only
    cases w.config.policy with
    | fatal =>
      exact .keepsBind (fun _ recognized => recognized) fun _ =>
        .pure fun _ recognized => recognized
    | nop => exact .mapped (retires _)
  · refine .bind (V := fun _ => Recognized) ?_ fun cost => .mapped (retires cost)
    refine .ite (fun page m bus => ?_) fun page m bus => ?_
    -- the second byte of the opcode is the next bus cycle
    · obtain ⟨bus', -⟩ := read8_bus w m.core.regs.pc m
      have both : Recognized (fetch8 w m).2 := by
        refine ⟨decodeSecond (fetch8 w m).1, ?_⟩
        show operation? (read8 w m.core.regs.pc m).2.core.bus = _
        rw [bus', bus]
        exact if_pos page
      exact ((respects_recognized w).performCosted _).keeps _ both
    · exact ((respects_recognized w).performCosted _).keeps m (known page bus)

/-- What retires has a cost in the table. -/
theorem advance_priced {w : Wiring σ} {m : Machine State σ} {remaining : Nat} {place : UInt32}
    {cycles : Nat} (retired : (advance w remaining m).1 = .ok (.retired place cycles))
    (regs : Registers) : Timed (tableCost regs (advance w remaining m).2.core.bus) := by
  obtain ⟨released, runs⟩ := advance_retired retired
  obtain ⟨-, fresh, -⟩ := sample_found released
  generalize looks : (⟨{ (sample w m).2.core with eiDelay := false }, (sample w m).2.world⟩ :
    Machine State σ) = begins at runs
  have fresh : (begun begins).core.bus = [] := by
    rw [← looks]
    exact fresh
  have bus := bus_fetchOpcode w (begun begins)
  rw [fresh, List.nil_append] at bus
  obtain ⟨op, fetched⟩ := runFetched_recognized w begins.core.regs.pc _ bus
  rw [runs, runInstruction_eq]
  exact tableCost_timed fetched

/-- A core never idles for long. -/
theorem advance_idles {w : Wiring σ} {m : Machine State σ} {remaining cycles : Nat}
    (idles : (advance w remaining m).1 = .ok (.idle cycles)) : cycles ≤ 4096 := by
  have bound : idleCycles remaining ≤ 4096 := by
    unfold idleCycles
    omega
  cases latched : m.core.exec.latchedFault? with
  | some fault =>
    rw [advance_eq, latched] at idles
    nomatch idles
  | none =>
    by_cases released : Released w m
    · rw [advance_sampled latched released, eval_bind] at idles
      rcases act_cases w remaining (sample w m).1 (sample w m).2 with
        ⟨-, acts⟩ | ⟨-, acts | ⟨source, -, -, -, acts⟩⟩
      · rw [acts, stayHalted_eq] at idles
        split at idles
        · cases idles
          decide
        · cases idles
          exact bound
      · have place := runInstruction_runsAt w
          ⟨{ (sample w m).2.core with eiDelay := false }, (sample w m).2.world⟩
        rw [← acts, idles] at place
        nomatch place
      · rw [acts] at idles
        nomatch idles
    · rw [advance_held latched released] at idles
      cases idles
      exact bound

end Sm83

/-! ## §2 uCOM-4 instructions -/

namespace Ucom4

/-- What retires has a cost in the table. -/
theorem advance_priced {w : Wiring σ} {m : Machine State σ} {remaining : Nat} {place : UInt32}
    {cycles : Nat} (retired : (advance w remaining m).1 = .ok (.retired place cycles)) :
    Timed (tableCost w.geometry.family m.core.skip (advance w remaining m).2.core.bus) := by
  have way := advance_way w remaining m
  generalize advance w remaining m = after at way retired
  cases way with
  | faulted | held | enters => nomatch retired
  | runs _ released _ =>
    have fresh : (sample w m).2.core.bus = [] := by rw [sample_core released]
    obtain ⟨first, -⟩ := runInstruction_marked w fresh
    unfold tableCost
    cases bus : (runInstruction w (sample w m).2).2.core.bus with
    | nil =>
      -- the opcode has been fetched, so this cannot be
      rw [bus] at first
      nomatch first
    | cons cycle rest =>
      dsimp only
      split
      · exact decode_length _ _
      · exact decode_cycles _ _

/-- A core never idles for long. -/
theorem advance_idles {w : Wiring σ} {m : Machine State σ} {remaining cycles : Nat}
    (idles : (advance w remaining m).1 = .ok (.idle cycles)) : cycles ≤ 4096 := by
  have way := advance_way w remaining m
  generalize advance w remaining m = after at way idles
  cases way with
  | faulted | enters => nomatch idles
  | held =>
    cases idles
    unfold idleCycles
    omega
  | runs =>
    have place := runInstruction_runsAt w (sample w m).2
    rw [idles] at place
    nomatch place

end Ucom4

/-! ## §3 Charges -/

/-- What a step takes: nothing but time if it is idle, else what its bus cycles are worth and some
wait states. -/
def Bill.due (bill : Bill) (bus : List BusCycle) (waits : Nat) : StepOutcome → Nat
  | .retired .. => bill.instruction bus + waits
  | .interrupt .. => bill.interrupt + waits
  | .idle cycles => cycles

theorem Bill.Covers.cycles_eq {bill : Bill} {bus : List BusCycle} {waits : Nat} {step : StepOutcome}
    (covers : bill.Covers bus waits step) : step.cycles = bill.due bus waits step := by
  cases step with
  | retired pc cycles => exact covers
  | interrupt vector cycles => exact covers
  | idle cycles => rfl

namespace Core

/-- What a core charges without wait states is something, but not much. -/
def Modest (bill : Bill) (bus : List BusCycle) : StepOutcome → Prop
  | .retired .. => 0 < bill.instruction bus ∧ bill.instruction bus ≤ 24
  | .interrupt .. => 0 < bill.interrupt ∧ bill.interrupt ≤ 24
  | .idle cycles => cycles ≤ 4096

theorem advance_modest {m m' : Machine (Core σ) σ} {remaining : Nat} {step : StepOutcome}
    (acts : advance remaining m = (.ok step, m')) :
    Modest m.core.bill m'.core.status.bus step := by
  obtain ⟨core, world⟩ := m
  have answer : (advance remaining ⟨core, world⟩).1 = .ok step := congrArg Prod.fst acts
  obtain rfl : (advance remaining ⟨core, world⟩).2 = m' := congrArg Prod.snd acts
  cases core with
  | sm83 w s =>
    replace answer : (Sm83.advance w remaining ⟨s, world⟩).1 = .ok step := answer
    cases step with
    | retired place cycles => exact (Sm83.advance_priced answer s.regs).2
    | interrupt vector cycles =>
      show 0 < Sm83.interruptCycles ∧ Sm83.interruptCycles ≤ 24
      decide
    | idle cycles => exact Sm83.advance_idles answer
  | ucom4 w s =>
    replace answer : (Ucom4.advance w remaining ⟨s, world⟩).1 = .ok step := answer
    cases step with
    | retired place cycles =>
      obtain ⟨least, most⟩ := Ucom4.advance_priced answer
      exact ⟨least, Nat.le_trans most (by decide)⟩
    | interrupt vector cycles =>
      show 0 < Ucom4.interruptCycles ∧ Ucom4.interruptCycles ≤ 24
      decide
    | idle cycles => exact Ucom4.advance_idles answer

/-- A full counter of wait states leaves no room for what the table asks. -/
theorem Modest.due_le_iff {bill : Bill} {bus : List BusCycle} {step : StepOutcome}
    (modest : Modest bill bus step) (waits : Nat) :
    bill.due bus (min waits waitMax) step ≤ waitMax ↔ bill.due bus waits step ≤ waitMax := by
  cases step with
  | retired | interrupt =>
    obtain ⟨least, -⟩ := modest
    dsimp only [Bill.due]
    omega
  | idle cycles => exact Iff.rfl

theorem Modest.due_le {bill : Bill} {bus : List BusCycle} {step : StepOutcome}
    (modest : Modest bill bus step) {waits : Nat} (room : waits + 24 ≤ waitMax) :
    bill.due bus waits step ≤ waitMax := by
  cases step with
  | retired | interrupt =>
    obtain ⟨-, most⟩ := modest
    dsimp only [Bill.due]
    omega
  | idle cycles => exact Nat.le_trans modest (by decide)

/-! ## §4 Steps -/

/-- A step takes the cycles of its table, and the wait states that were left in the slots of the
core and that its own bus cycles cost, as far as their counter reaches. Whether it can report the
sum is decided by the sum without that limit; there is room for it as long as the wait states
leave room for 24 cycles. -/
theorem reportable_iff_sum_fits {slots : Slots} {core : Core (Board δ)}
    (onBoard : OnBoard slots core.wiring) (world : World (Board δ)) {remaining : Nat}
    {step : StepOutcome} {m' : Machine (Core (Board δ)) (Board δ)}
    (acts : advance remaining ⟨core, world⟩ = (.ok step, m')) :
    let seating := slots.seating core.wiring
    let waits := (∑ slot ∈ seating.seats, world.devices.pendingAt slot) +
      ownWaits world.devices seating m'.core.status.bus
    step.cycles = core.bill.due m'.core.status.bus (min waits waitMax) step ∧
      (step.Reportable ↔ core.bill.due m'.core.status.bus waits step ≤ waitMax) ∧
      (waits + 24 ≤ waitMax → step.Reportable) := by
  intro seating waits
  have billed := advance_billed (m := ⟨core, world⟩) (onBoard.seated world.devices.rates) rfl
    remaining
  rw [acts] at billed
  have cycles : step.cycles = core.bill.due m'.core.status.bus (min waits waitMax) step :=
    billed.covers.cycles_eq
  have modest : Modest core.bill m'.core.status.bus step := advance_modest acts
  have fits : step.Reportable ↔ core.bill.due m'.core.status.bus waits step ≤ waitMax := by
    unfold StepOutcome.Reportable
    rw [cycles]
    exact modest.due_le_iff waits
  exact ⟨cycles, fits, fun room => fits.mpr (modest.due_le room)⟩

/-- Wait states up to the last that can be reported: a `NOP` takes four cycles for itself. -/
theorem reportable_iff_sum_fits_nop :
    let map : AddressMap Unit :=
      { config := ⟨"program", 16, 8, .little⟩, regions := [⟨0, 3, 4294967291, .ram #[0, 0, 0, 0]⟩] }
    let w : Sm83.Wiring (Board Unit) :=
      { config := {}, program := Board.space map.config 0, number := 0 }
    let world : World (Board Unit) :=
      ⟨{ maps := [map], devices := () }, { latches := [.released 6] }, {}⟩
    let core : Core (Board Unit) := .sm83 w {}
    let after := advance 1 ⟨core, world⟩
    OnBoard ⟨0, 0, 0⟩ core.wiring ∧ after.1 = .ok (.retired 0 4294967295) ∧
      (StepOutcome.retired 0 4294967295).Reportable := by
  intro map w world core after
  have onBoard : OnBoard ⟨0, 0, 0⟩ core.wiring := ⟨⟨_, rfl⟩, fun _ _ _ => rfl⟩
  have acts : after.1 = .ok (.retired 0 4294967295) := by decide +kernel
  obtain ⟨-, fits, -⟩ := reportable_iff_sum_fits onBoard world (Prod.ext acts rfl)
  exact ⟨onBoard, acts, fits.mpr (by decide +kernel)⟩

/-- A host sets the wait states of a region to the most that it can, and builds a core over it. The
first `NOP` takes more cycles than it can report. -/
theorem full_wait_states_overflow :
    let ram : AddressMap Unit :=
      { config := ⟨"program", 16, 8, .little⟩, regions := [⟨0, 3, 0, .ram #[0, 0, 0, 0]⟩] }
    let map := (ram.setWaitStates 0 0xFFFFFFFF).2
    let board : Board Unit := { maps := [map], devices := () }
    let w : Sm83.Wiring (Board Unit) :=
      { config := {}, program := Board.space map.config 0, number := 0 }
    let start := (Sm83.reset w ⟨{}, ⟨board, {}, {}⟩⟩).2.core
    (ram.setWaitStates 0 0xFFFFFFFF).1 = true ∧
      (∃ world, Sm83.build {} w.program ⟨board, {}, {}⟩ = .ok ((w, start), world) ∧
        (advance 1 ⟨.sm83 w start, world⟩).1 = .ok (.retired 0 4294967299)) ∧
      ¬(StepOutcome.retired 0 4294967299).Reportable := by
  intro ram map board w start
  refine ⟨by decide +kernel, ⟨_, rfl, ?_⟩, by decide⟩
  decide +kernel

end Core

end Microboard
