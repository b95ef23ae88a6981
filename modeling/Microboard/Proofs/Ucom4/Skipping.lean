import Microboard.Proofs.Ucom4.Retiring

/-!
# uCOM-4 instructions that are skipped

A test that succeeds drops the next instruction, whatever that is. It is fetched all the same, and
its cycles pass, so that programs which skip keep their timing.
-/

namespace Microboard.Ucom4

variable {σ : Type} {w : Wiring σ}

/-- The core once it has dropped an instruction that took some cycles, wait states included. -/
def State.skipped (waits : UInt32) (cycles : Nat) (s : State) : State :=
  { s.withDial (s.dial.after cycles) with
    skip := false
    opcode := 0
    exec := .fetching
    totalCycles := satAdd s.totalCycles cycles
    diagnostics := (s.diagnostics.recordWaitStates waits).recordInstruction }

/-- An instruction that has been fetched is dropped, and its cycles pass. -/
theorem runSkipped_eq (w : Wiring σ) (pc : UInt16) (opcode : UInt8) (entry : Entry)
    (m : Machine State σ) :
    ∃ log,
      let waits := w.waits m.world.devices
      let cycles := entry.length + waits.toNat
      runSkipped w pc opcode entry m = (.retired pc.toUInt32 cycles,
        ⟨m.core.skipped waits cycles,
          { m.world with devices := w.drained m.world.devices, log }⟩) := by
  obtain ⟨log, ticked⟩ := tickTimer_dial w entry.length m
  obtain ⟨log', ended⟩ := retire_eq w pc opcode entry.length
    ⟨{ m.core.withDial (m.core.dial.after entry.length) with skip := false, opcode := 0 },
      { m.world with log }⟩
  refine ⟨log', ?_⟩
  have runs : runSkipped w pc opcode entry m = retire w pc opcode entry.length
      ⟨{ (tickTimer w entry.length m).2.core with skip := false, opcode := 0 },
        (tickTimer w entry.length m).2.world⟩ := rfl
  rw [ticked, ended] at runs
  dsimp only
  unfold State.skipped
  rw [← Dial.after_after]
  exact runs

/-- What becomes of an instruction that is skipped, whatever it is. -/
theorem runInstruction_skipped {m : Machine State σ} (skips : m.core.skip = true) :
    ∃ log,
      let fetch := World.perform (w.instruction m.core.regs.pc) m.world
      let waits := w.waits fetch.2.devices
      let cycles := fetch.1.length + waits.toNat
      runInstruction w m = (.ok (.retired m.core.regs.pc.toUInt32 cycles),
        ⟨(m.core.begun.took w.geometry fetch.1).skipped waits cycles,
          { fetch.2 with devices := w.drained fetch.2.devices, log }⟩) := by
  let fetch := World.perform (w.instruction m.core.regs.pc) m.world
  let entry := decode w.geometry.family (fetch.1.headD 0)
  let s := m.core.begun.took w.geometry fetch.1
  have length : fetch.1.length = entry.length :=
    length_instruction w m.core.regs.pc m.world.devices
  obtain ⟨log, dropped⟩ :=
    runSkipped_eq w m.core.regs.pc (fetch.1.headD 0) entry ⟨s, fetch.2⟩
  refine ⟨log, ?_⟩
  have pending : s.skip = true := skips
  have runs : runInstruction w m =
      runFetched w m.core.regs.pc (fetch.1.headD 0) entry s ⟨s, fetch.2⟩ :=
    runInstruction_took w m
  unfold runFetched at runs
  rw [eval_ite, if_pos pending, eval_bind, dropped] at runs
  dsimp only
  rw [length]
  exact runs

/-- A core with a skip pending enters no interrupt. It runs up to the next boundary without doing
anything: the bytes of the instruction are fetched and their cycles pass, wait states included, which
moves the program counter, the timer and the counters. The interrupt flag is what the core has found
on its line. All else stays as it is, and the other spaces are asked for nothing but their wait
states. -/
theorem advance_skipping (s : State) (world : World σ) (skips : s.skip = true)
    (awake : s.exec.latchedFault? = none) (released : Released w ⟨s, world⟩) (remaining : Nat) :
    let fetch := w.instruction s.regs.pc world.devices
    let bytes := fetch.value
    let waits := w.waits fetch.state
    let cycles := bytes.length + waits.toNat
    let dial := s.dial.after cycles
    let after := advance w remaining ⟨s, world⟩
    bytes.length = (decode w.geometry.family (bytes.headD 0)).length ∧
      after.1 = .ok (.retired s.regs.pc.toUInt32 cycles) ∧
      after.2.core =
        { s with
          regs := { s.regs with
            pc := w.geometry.nextAddress^[bytes.length] s.regs.pc
            intFlag := flagFound w ⟨s, world⟩
            timerFlag := dial.out }
          timer := dial.left
          skip := false
          opcode := 0
          argument := bytes.getD 1 s.argument
          lastPc := s.regs.pc
          exec := .fetching
          inReset := false
          bus := w.geometry.fetchCycles s.regs.pc bytes
          totalCycles := satAdd s.totalCycles cycles
          diagnostics := (s.diagnostics.recordWaitStates waits).recordInstruction } ∧
      after.2.world.devices = w.drained fetch.state := by
  intro fetch bytes waits cycles dial after
  have found := sample_core (m := ⟨s, world⟩) released
  have undue : interruptAllowed (sample w ⟨s, world⟩).2.core = false := by
    rw [found]
    unfold interruptAllowed
    dsimp only
    rw [skips, Bool.not_true, Bool.and_false]
  have runs : after = runInstruction w (sample w ⟨s, world⟩).2 := by
    show advance w remaining ⟨s, world⟩ = _
    rw [advance_acts awake released, undue, if_neg nofun]
  obtain ⟨log, dropped⟩ := runInstruction_skipped (w := w) (m := (sample w ⟨s, world⟩).2)
    (by rw [found]; exact skips)
  obtain ⟨bytes_eq, devices_eq⟩ := perform_instruction_sample released s.regs.pc
  rw [found] at dropped
  dsimp only at dropped
  rw [bytes_eq, devices_eq] at dropped
  rw [runs, dropped]
  exact ⟨length_instruction w _ _, rfl, rfl, rfl⟩

/-- An opcode of two bytes that the part does not have, at the end of a page and under the strict
policy, is skipped while an interrupt is requested and the timer is about to run out. -/
theorem advance_skipping_illegal :
    let config : Config :=
      { core := { clockHz := 400000, illegalOpcodes := some .fatal }, part := .upd552 }
    let program : Space Nat :=
      { config := ⟨"program", 10, 8, .little⟩
        -- every access takes a wait state
        read := fun _ address owed =>
          ⟨if address = 0xFF then 0x14 else 0x80, owed + 1, []⟩
        write := fun _ _ _ owed => ⟨(), owed, []⟩
        takeWaitStates := fun owed => (UInt32.ofNat owed, 0) }
    let nibbles (name : String) : Space Nat :=
      .cell ⟨name, 6, 4, .little⟩ (fun _ => 0) fun _ owed => owed
    let w : Wiring Nat :=
      { config, program, data := nibbles "data", io := nibbles "io", number := 0 }
    let regs : Registers := { pc := 0xFF, acc := 0xA, intEnable := true }
    let s : State := { regs, skip := true, timer := some 4 }
    let requested : World Nat :=
      ⟨0, { latches := [(LineLatch.released 2).set interruptLine .assert] }, {}⟩
    let after := advance w 1 ⟨s, requested⟩
    (s.skip = true ∧ s.exec.latchedFault? = none ∧ Released w ⟨s, requested⟩) ∧
      (decode .ucom44 0x14).operation = .illegal ∧ after.1 = .ok (.retired 0xFF 4) ∧
      after.2.core.regs = { regs with pc := 0x01, intFlag := true, timerFlag := true } ∧
      after.2.core.skip = false ∧ after.2.core.diagnostics.illegalOpcodes = 0 := by
  intro config program nibbles w regs s requested after
  have released : Released w ⟨s, requested⟩ := rfl
  obtain ⟨-, answer, core, -⟩ := advance_skipping (w := w) s requested rfl rfl released 1
  refine ⟨⟨rfl, rfl, released⟩, by decide +kernel, answer.trans (by decide +kernel), ?_, ?_, ?_⟩
  · exact (congrArg State.regs core).trans (by decide +kernel)
  · exact congrArg State.skip core
  · exact (congrArg (fun s : State => s.diagnostics.illegalOpcodes) core).trans (by decide +kernel)

end Microboard.Ucom4
