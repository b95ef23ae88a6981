import Microboard.Proofs.Sm83.Sleeping

/-!
# SM83 opcodes that stop the core

Under the strict policy of the family, an illegal opcode is found when it has been fetched already,
and when the requests on the lines have been moved into `IF`. Nothing more than that has happened
then.

- **§1** Reads. Those of the interrupt registers stay in the core.
- **§2** The core as it refuses an opcode.
- **§3** Only such opcodes make an action fail.
- **§4** Actions that succeed latch nothing.
-/

namespace Microboard.Sm83

variable {σ : Type}

/-! ## §1 Reads -/

/-- What a read asks of the program space. -/
def Wiring.loads (w : Wiring σ) (r : Registers) (address : UInt16) : Access σ UInt8 :=
  if address = ieAddress then pure r.ie
  else if address = ifAddress then pure (shownIf r)
  else w.program.readUnit address.toUInt32

theorem read8_eq (w : Wiring σ) (address : UInt16) (m : Machine State σ) :
    read8 w address m =
      let read := World.perform (w.loads m.core.regs address) m.world
      (read.1, ⟨{ m.core with bus := m.core.bus ++ [readCycle address read.1] }, read.2⟩) := by
  by_cases enable : address = ieAddress
  · subst enable
    rfl
  by_cases request : address = ifAddress
  · subst request
    rfl
  · unfold read8 Wiring.loads readCycle
    rw [fetchRole_program enable request, eval_ite, if_neg enable, eval_ite, if_neg request,
      if_neg enable, if_neg request]
    rfl

/-- What leaves no trace on the devices when the program space is read leaves none when the core
reads. -/
theorem Wiring.loads_view {α : Type} {w : Wiring σ} {view : σ → α}
    (traceless : ∀ address devices, view (w.program.readUnit address devices).state = view devices)
    (r : Registers) (address : UInt16) (devices : σ) :
    view (w.loads r address devices).state = view devices := by
  unfold loads
  split
  · rfl
  · split
    · rfl
    · exact traceless _ devices

/-! ## §2 Refused opcodes -/

section Refusals

variable {w : Wiring σ} {m : Machine State σ} {opcode : UInt8}

/-- What a core that has looked at its lines finds at its program counter. -/
def Wiring.finds (w : Wiring σ) (m : Machine State σ) : Access σ UInt8 :=
  w.loads { m.core.regs with iflag := flagsFound w m } m.core.regs.pc

/-- The next action begins an instruction: no fault is latched, the reset line does not hold the
core, it is not halted, and no interrupt is due. -/
structure Begins (w : Wiring σ) (m : Machine State σ) (opcode : UInt8) : Prop where
  awake : m.core.exec.latchedFault? = none
  released : Released w m
  running : (sample w m).2.core.exec ≠ .halted
  undue : (sample w m).2.core.dueInterrupt? = none
  /-- What the program counter points at. -/
  fetched : (w.finds m m.world.devices).value = opcode

/-- The core once it has refused an opcode: it has fetched it, and has noted it. The halt bug, if
there was one, has kept the program counter where it was. -/
def State.refusing (w : Wiring σ) (m : Machine State σ) (opcode : UInt8) : State :=
  { m.core with
    regs := { m.core.regs with
      pc := m.core.opened.pc
      iflag := flagsFound w m }
    haltBug := false
    eiDelay := false
    opcode
    lastPc := m.core.regs.pc
    exec := .faultLatched (.illegalOpcode m.core.regs.pc.toUInt32 opcode)
    inReset := false
    bus := [readCycle m.core.regs.pc opcode]
    diagnostics := m.core.diagnostics.recordIllegal m.core.regs.pc.toUInt32 opcode }

/-- The fetch of an opcode uses up the halt bug. -/
theorem State.fetched_eq (s : State) (opcode : UInt8) :
    s.fetched opcode = { s with regs := s.opened, haltBug := false, opcode } := by
  unfold fetched opened
  cases s.haltBug <;> rfl

/-- An instruction that begins is the one at the program counter. -/
theorem Begins.advance_fetched (begins : Begins w m opcode) (remaining : Nat) :
    ∃ lines log, advance w remaining m = runFetched w m.core.regs.pc opcode
      ⟨{ State.refusing w m opcode with
          exec := .executing
          diagnostics := m.core.diagnostics },
        (w.finds m m.world.devices).state, lines, log⟩ := by
  obtain ⟨awake, released, running, undue, rfl⟩ := begins
  have core := sample_core released
  obtain ⟨-, -, devices, -⟩ := sample_found released
  rw [advance_sampled awake released, eval_bind, act_running w remaining _ running, undue]
  dsimp only
  rw [core]
  -- the lines have been looked at, which leaves the devices as they are
  generalize (sample w m).2.world = world at devices
  rw [runInstruction_eq, fetchOpcode_eq, read8_eq, State.fetched_eq]
  obtain ⟨found, lines, log⟩ := world
  obtain rfl : found = m.world.devices := devices
  exact ⟨(World.perform (w.finds m) ⟨m.world.devices, lines, log⟩).2.lines,
    (World.perform (w.finds m) ⟨m.world.devices, lines, log⟩).2.log, rfl⟩

theorem runFetched_illegal (w : Wiring σ) (pc : UInt16) (illegal : decode opcode = .illegal)
    (fatal : w.config.policy = .fatal) (m : Machine State σ) :
    runFetched w pc opcode m = (.error (.illegalOpcode pc.toUInt32 opcode),
      ⟨{ m.core with
          exec := .faultLatched (.illegalOpcode pc.toUInt32 opcode)
          diagnostics := m.core.diagnostics.recordIllegal pc.toUInt32 opcode },
        m.world.record (.illegalOpcode name pc opcode .fatal)⟩) := by
  unfold runFetched
  rw [eval_ite, if_pos illegal, fatal]
  rfl

/-- Answer, core and devices after an action that refuses an opcode. -/
theorem Begins.refuses (begins : Begins w m opcode) (illegal : decode opcode = .illegal)
    (fatal : w.config.policy = .fatal) (remaining : Nat) :
    let after := advance w remaining m
    (after.1, after.2.core, after.2.world.devices) =
      (.error (.illegalOpcode m.core.regs.pc.toUInt32 opcode), State.refusing w m opcode,
        (w.finds m m.world.devices).state) := by
  intro after
  obtain ⟨lines, log, runs⟩ := begins.advance_fetched remaining
  rw [runFetched_illegal w _ illegal fatal] at runs
  rw [show after = _ from runs]
  rfl

/-! ## §3 Failing actions -/

theorem runFetched_error (w : Wiring σ) (pc : UInt16) {m : Machine State σ} {fault : Fault}
    (fails : (runFetched w pc opcode m).1 = .error fault) :
    decode opcode = .illegal ∧ w.config.policy = .fatal := by
  unfold runFetched at fails
  rw [eval_ite] at fails
  split at fails
  next illegal =>
    refine ⟨illegal, ?_⟩
    cases policy : w.config.policy with
    | fatal => rfl
    | nop =>
      rw [policy] at fails
      nomatch fails
  next legal => nomatch fails

/-- A core that has no fault latched fails only at an illegal opcode, and under the strict
policy. -/
theorem begins_of_error (awake : m.core.exec.latchedFault? = none) {remaining : Nat}
    {fault : Fault} (fails : (advance w remaining m).1 = .error fault) :
    ∃ opcode, Begins w m opcode ∧ decode opcode = .illegal ∧ w.config.policy = .fatal := by
  have released : Released w m := by
    by_contra held
    rw [advance_held awake held] at fails
    nomatch fails
  have acts := fails
  rw [advance_sampled awake released, eval_bind] at acts
  have running : (sample w m).2.core.exec ≠ .halted := by
    intro halted
    obtain ⟨-, sleeps⟩ | ⟨running, -⟩ := act_cases w remaining (sample w m).1 (sample w m).2
    · rw [sleeps] at acts
      nomatch acts
    · exact running halted
  rw [act_running w remaining _ running] at acts
  cases undue : (sample w m).2.core.dueInterrupt? with
  | some source =>
    rw [undue] at acts
    nomatch acts
  | none =>
    have begins : Begins w m (w.finds m m.world.devices).value :=
      ⟨awake, released, running, undue, rfl⟩
    obtain ⟨lines, log, runs⟩ := begins.advance_fetched remaining
    rw [runs] at fails
    exact ⟨_, begins, runFetched_error w _ fails⟩

end Refusals

/-! ## §4 Actions that succeed -/

/-- An action that succeeds leaves no fault latched. -/
theorem Switches.Answers.awake {s after : Switches} {active requested : Bool} {pc : UInt16}
    {opcode : UInt8} {answer : Except Fault StepOutcome}
    (answers : s.Answers active requested pc opcode answer after)
    (before : s.exec.latchedFault? = none) {step : StepOutcome} (succeeds : answer = .ok step) :
    after.exec.latchedFault? = none := by
  subst succeeds
  cases answers with
  | held cycles =>
    unfold Switches.look
    split
    · rfl
    · split
      · rfl
      · exact before
  | acted _ _ does =>
    cases does with
    | sleeps cycles halted =>
      rw [halted]
      rfl
    | wakes | enters => rfl
    | runs _ _ performs =>
      cases performs with
      | retired cycles =>
        -- an instruction ends halted or at a boundary
        generalize decode opcode = op
        cases op with
        | halt =>
          unfold Switches.perform
          dsimp only
          split <;> rfl
        | _ => rfl

end Microboard.Sm83
