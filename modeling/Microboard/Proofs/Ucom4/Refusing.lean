import Microboard.Proofs.Ucom4.Reduced
import Microboard.Proofs.Ucom4.Widths

/-!
# uCOM-4 opcodes that stop the core

- **§1** Only an illegal opcode that is not skipped makes an action fail, and only under the strict
  policy.
- **§2** Actions that succeed latch nothing.
- **§3** What fetching an instruction leaves alone.
-/

namespace Microboard.Ucom4

variable {σ : Type} {w : Wiring σ} {m : Machine State σ}

/-! ## §1 Failing actions -/

theorem runFetched_error {pc : UInt16} {opcode : UInt8} {entry : Entry} {s : State}
    {fault : Fault} (fails : (runFetched w pc opcode entry s m).1 = .error fault) :
    s.skip = false ∧ entry.operation = .illegal ∧ w.config.policy = .fatal := by
  unfold runFetched at fails
  rw [eval_ite, eval_ite] at fails
  split at fails
  next skips => nomatch fails
  next runs =>
    split at fails
    next illegal =>
      refine ⟨Bool.eq_false_iff.mpr runs, illegal, ?_⟩
      cases policy : w.config.policy with
      | fatal => rfl
      | nop =>
        unfold runIllegal at fails
        rw [policy] at fails
        nomatch fails
    next legal => nomatch fails

/-- A core that has no fault latched fails only at an illegal opcode that it does not skip, and
under the strict policy. -/
theorem executes_of_error (awake : m.core.exec.latchedFault? = none) {remaining : Nat}
    {fault : Fault} (fails : (advance w remaining m).1 = .error fault) :
    ∃ bytes, Executes w m bytes ∧
      (decode w.geometry.family (bytes.headD 0)).operation = .illegal ∧
      w.config.policy = .fatal := by
  have way := advance_way w remaining m
  generalize advance w remaining m = after at way fails
  cases way with
  | faulted fault latched =>
    rw [awake] at latched
    nomatch latched
  | held | enters => nomatch fails
  | runs _ released undue =>
    obtain ⟨lines, log, runs⟩ := runInstruction_sample (w := w) released
    rw [runs] at fails
    obtain ⟨runs, illegal, fatal⟩ := runFetched_error fails
    rw [executing_eq released] at runs
    have fetches : Fetches w m (w.instruction m.core.regs.pc m.world.devices).value :=
      ⟨released, undue, rfl⟩
    exact ⟨_, ⟨fetches, awake, runs⟩, illegal, fatal⟩

/-! ## §2 Actions that succeed -/

/-- The core has no fault latched. -/
def Awake (m : Machine State σ) : Prop := m.core.exec.latchedFault? = none

/-- An instruction that succeeds ends at a boundary. -/
theorem runFetched_awake (pc : UInt16) (opcode : UInt8) (entry : Entry) (s : State) :
    Ensures (fun _ => True) (runFetched w pc opcode entry s)
      fun answer m => ∀ step, answer = .ok step → Awake m := by
  have retires (cost : Nat) : Ensures (fun _ => True) (retire w pc opcode cost)
      fun done m => ∀ step, Except.ok (ε := Fault) done = .ok step → Awake m :=
    (retire_at w pc opcode cost).weaken fun _ _ here _ _ => congrArg ExecState.latchedFault? here
  refine .ite (fun _ => .mapped ?skipped) fun _ => .ite (fun _ => ?illegal) fun _ => ?performed
  case skipped =>
    exact .keepsBind (fun _ _ => trivial) fun _ => .keepsBind (fun _ _ => trivial)
      fun _ => retires _
  case illegal =>
    refine .keepsBind (fun _ _ => trivial) fun _ => .keepsBind (fun _ _ => trivial) fun _ => ?_
    dsimp only
    cases w.config.policy with
    | fatal => exact .keepsBind (fun _ _ => trivial) fun _ => .pure fun _ _ _ fails => nomatch fails
    | nop => exact .keepsBind (fun _ _ => trivial) fun _ => .mapped (retires _)
  case performed =>
    exact .keepsBind (fun _ _ => trivial) fun _ => .keepsBind (fun _ _ => trivial) fun _ =>
      .mapped (retires _)

/-- An action that succeeds leaves no fault latched. -/
theorem advance_awake (awake : Awake m) {remaining : Nat} {step : StepOutcome}
    (succeeds : (advance w remaining m).1 = .ok step) : Awake (advance w remaining m).2 := by
  have way := advance_way w remaining m
  generalize advance w remaining m = after at way succeeds
  cases way with
  | faulted => nomatch succeeds
  | enters => rfl
  | runs _ released _ =>
    obtain ⟨lines, log, runs⟩ := runInstruction_sample (w := w) released
    rw [runs] at succeeds ⊢
    exact runFetched_awake _ _ _ _ _ trivial step succeeds
  | held =>
    -- the core idles, whether or not it has just been taken
    have sampled : Awake (sampleReset w (unobserved m)).2 := by
      rw [sampleReset_eq]
      split
      split
      · rfl
      · split
        · rfl
        · exact awake
    have paid := (charge_aside w (idleCycles remaining) (sampleReset w (unobserved m)).2).1
    have same := congrArg CoreStatus.exec paid
    exact (congrArg ExecState.latchedFault? same).trans sampled

/-! ## §3 Fetches -/

/-- What leaves no trace on the devices when the program space is read leaves none when an
instruction is fetched. -/
theorem Wiring.instruction_view {α : Type} {view : σ → α}
    (traceless : ∀ address devices, view (w.program.readUnit address devices).state = view devices)
    (pc : UInt16) (devices : σ) : view (w.instruction pc devices).state = view devices := by
  rw [instruction_apply]
  dsimp only
  split
  · exact (traceless _ _).trans (traceless _ _)
  · exact traceless _ _

end Microboard.Ucom4
