import Mathlib.Algebra.GroupWithZero.Nat
import Microboard.Proofs.CoreLockstep

/-!
# Clocks of cores

A completed action puts on the clock what it answers, wait states and all, and a fault takes no
time. This needs no knowledge of the spaces of a core. It carries over to runs, those that end early
included.

- **§1** SM83 actions.
- **§2** uCOM-4 actions.
- **§3** Actions of either family.
- **§4** Runs that a fault ends.
-/

namespace Microboard

variable {σ : Type}

/-- What a clock shows after an action. -/
def clockAfter (reading : Nat) : Except Fault StepOutcome → Nat
  | .ok step => satAdd reading step.cycles
  | .error _ => reading

/-! ## §1 SM83 actions -/

namespace Sm83

variable {V : World σ → Prop} {w : Wiring σ}

section Actions

variable (coupled : Wiring.Coupled (Both V) w w) (reading : Nat)
include coupled

theorem retire_clock (pc : UInt16) (opcode : UInt8) (cost : Nat) :
    Ensures (Reads V clock reading) (retire w pc opcode cost)
      fun step => Reads V clock (satAdd reading step.cycles) := by
  have before := coupled.follows_clock reading
  -- the clock shows the old reading up to the charge, and the new one from there on
  refine .keepsBind (fun m holds => ⟨holds.1, ?_⟩) fun _ =>
    .keepsBind before.drainWaitStates.standing fun waits => ?_
  · show (if m.core.exec = .executing then _ else m.core.toCoreStatus).totalCycles = reading
    split <;> exact holds.2
  · have after := coupled.follows_clock (satAdd reading (cost + waits))
    exact .bind (charge_reads reading (cost + waits)) fun _ => .keepsBind (fun _ holds => holds)
      fun _ => .keepsBind (after.record _).standing fun _ => .pure fun _ holds => holds

theorem service_clock (source : InputLine) :
    Ensures (Reads V clock reading) (service w source)
      fun step => Reads V clock (satAdd reading step.cycles) := by
  have before := coupled.follows_clock reading
  refine .keepsBind (fun _ holds => holds) fun _ => .keepsBind (before.onLatch _).standing fun _ =>
    .keepsBind (before.respects.callTo _).standing fun _ =>
    .keepsBind (before.drive _ _).standing fun _ =>
    .keepsBind (before.drive _ _).standing fun _ =>
    .keepsBind before.drainWaitStates.standing fun waits => ?_
  have after := coupled.follows_clock (satAdd reading (interruptCycles + waits))
  exact .bind (charge_reads reading (interruptCycles + waits)) fun _ =>
    .keepsBind (fun _ holds => holds) fun _ => .keepsBind (after.record _).standing fun _ =>
    .pure fun _ holds => holds

theorem runInstruction_clock :
    Ensures (Reads V clock reading) (runInstruction w)
      fun answer => Reads V clock (clockAfter reading answer) := by
  have before := coupled.follows_clock reading
  refine .keepsBind (fun _ holds => holds) fun regs => .keepsBind (fun _ holds => holds) fun _ =>
    .keepsBind before.fetchOpcode.standing fun opcode => .ite (fun _ => ?_) fun _ => ?_
  · refine .keepsBind (fun _ holds => holds) fun _ => .keepsBind (before.record _).standing
      fun _ => ?_
    dsimp only
    cases w.config.policy with
    | fatal => exact .keepsBind (fun _ holds => holds) fun _ => .pure fun _ holds => holds
    | nop => exact .mapped (retire_clock coupled reading _ _ _)
  · exact .keepsBind (before.respects.execute _).standing fun cost =>
      .mapped (retire_clock coupled reading _ _ _)

theorem advance_clock (remaining : Nat) :
    Ensures (Reads V clock reading) (advance w remaining)
      fun answer => Reads V clock (clockAfter reading answer) := by
  have before := coupled.follows_clock reading
  have idles : Ensures (Reads V clock reading) (idle remaining)
      fun step => Reads V clock (satAdd reading step.cycles) :=
    .bind (charge_reads reading (idleCycles remaining)) fun _ => .pure fun _ holds => holds
  refine .keepsBind (P := Reads V clock reading) (fun _ holds => holds) fun _ =>
    .keepsBind (fun _ holds => holds) fun s => ?_
  cases s.exec.latchedFault? with
  | some fault => exact .pure fun _ holds => holds
  | none =>
    refine .keepsBind before.sampleReset.standing fun held => .ite (fun _ => .mapped idles)
      fun _ => .keepsBind before.latchRequests.standing fun raised =>
      .keepsBind (fun _ holds => holds) fun s => .ite (fun _ => ?halted) fun _ => ?running
    case halted =>
      refine .mapped (.keepsBind (fun _ holds => holds) fun s => .ite (fun _ => ?_) fun _ => idles)
      exact .keepsBind before.wake.standing fun _ =>
        .bind (charge_reads reading wakeCycles) fun _ => .pure fun _ holds => holds
    case running =>
      have runs := runInstruction_clock coupled reading
      refine .keepsBind (fun _ holds => holds) fun s => .ite (fun _ => ?_) fun _ => ?_
      · exact .keepsBind (fun _ holds => holds) fun _ => runs
      · cases s.regs.nextInterrupt? with
        | some source => exact .mapped (service_clock coupled reading source)
        | none => exact runs

end Actions

end Sm83

/-! ## §2 uCOM-4 actions -/

namespace Ucom4

variable {V : World σ → Prop} {w : Wiring σ}

section Actions

variable (coupled : Wiring.Coupled (Both V) w w) (reading : Nat)
include coupled

theorem drainWaitStates_clock : Keeps (Reads V clock reading) (drainWaitStates w) := by
  have before := coupled.follows_clock reading
  exact .bind before.waitProgram.standing fun _ => .bind before.waitData.standing fun _ =>
    .bind before.waitIo.standing fun _ => .bind (fun _ holds => holds) fun _ => .pure _

theorem retire_clock (pc : UInt16) (opcode : UInt8) (cost : Nat) :
    Ensures (Reads V clock reading) (retire w pc opcode cost)
      fun step => Reads V clock (satAdd reading step.cycles) := by
  have before := coupled.follows_clock reading
  refine .keepsBind (fun _ holds => holds) fun _ =>
    .keepsBind (drainWaitStates_clock coupled reading) fun waits =>
    .keepsBind (before.tickTimer waits).standing fun _ => ?_
  have after := coupled.follows_clock (satAdd reading (cost + waits))
  exact .bind (V := fun _ => Reads V clock (satAdd reading (cost + waits)))
    (fun _ holds => ⟨holds.1, congrArg (satAdd · (cost + waits)) holds.2⟩) fun _ =>
    .keepsBind (after.record _).standing fun _ => .pure fun _ holds => holds

theorem service_clock :
    Ensures (Reads V clock reading) (service w)
      fun step => Reads V clock (satAdd reading step.cycles) := by
  have before := coupled.follows_clock reading
  refine .keepsBind (fun _ holds => holds) fun _ => .keepsBind (before.onLatch _).standing fun _ =>
    .keepsBind before.respects.pushPc.standing fun _ => .keepsBind (fun _ holds => holds) fun _ =>
    .keepsBind (before.drive _ _).standing fun _ =>
    .keepsBind (before.drive _ _).standing fun _ =>
    .keepsBind (drainWaitStates_clock coupled reading) fun waits => ?_
  have after := coupled.follows_clock (satAdd reading (interruptCycles + waits))
  exact .bind (charge_reads coupled reading (interruptCycles + waits)) fun _ =>
    .keepsBind (fun _ holds => holds) fun _ => .keepsBind (after.record _).standing fun _ =>
    .keepsBind (fun _ holds => holds) fun _ => .pure fun _ holds => holds

theorem runInstruction_clock :
    Ensures (Reads V clock reading) (runInstruction w)
      fun answer => Reads V clock (clockAfter reading answer) := by
  have before := coupled.follows_clock reading
  refine .keepsBind (fun _ holds => holds) fun regs => .keepsBind (fun _ holds => holds) fun _ =>
    .bindAnd (fetchInstruction_reads coupled reading) fun fetched entry => ?_
  -- what is performed comes from the table, and fits the registers of the family
  obtain ⟨fits, -⟩ := decode_fits w.geometry.family fetched.1
  rw [← entry] at fits
  refine .keepsBind (fun _ holds => holds) fun s => .ite (fun _ => .mapped ?skipped)
    fun _ => .ite (fun _ => ?illegal) fun _ => ?performed
  case skipped =>
    exact .keepsBind (before.tickTimer _).standing fun _ => .keepsBind (fun _ holds => holds)
      fun _ => retire_clock coupled reading _ _ _
  case illegal =>
    refine .keepsBind (fun _ holds => holds) fun _ => .keepsBind (before.record _).standing
      fun _ => ?_
    dsimp only
    cases w.config.policy with
    | fatal => exact .keepsBind (fun _ holds => holds) fun _ => .pure fun _ holds => holds
    | nop =>
      exact .keepsBind (before.tickTimer _).standing fun _ =>
        .mapped (retire_clock coupled reading _ _ _)
  case performed =>
    exact .keepsBind (before.tickTimer _).standing fun _ =>
      .keepsBind (before.perform fits fun _ => rfl).standing fun _ =>
      .mapped (retire_clock coupled reading _ _ _)

theorem advance_clock (remaining : Nat) :
    Ensures (Reads V clock reading) (advance w remaining)
      fun answer => Reads V clock (clockAfter reading answer) := by
  have before := coupled.follows_clock reading
  refine .keepsBind (P := Reads V clock reading) (fun _ holds => holds) fun _ =>
    .keepsBind (fun _ holds => holds) fun s => ?_
  dsimp only
  cases s.exec.latchedFault? with
  | some fault => exact .pure fun _ holds => holds
  | none =>
    refine .keepsBind before.sampleReset.standing fun held => .ite (fun _ => ?_) fun _ =>
      .keepsBind before.latchRequest.standing fun _ => .keepsBind (fun _ holds => holds) fun s =>
      .ite (fun _ => .mapped (service_clock coupled reading)) fun _ =>
      runInstruction_clock coupled reading
    exact .bind (charge_reads coupled reading (idleCycles remaining)) fun _ =>
      .pure fun _ holds => holds

end Actions

end Ucom4

/-! ## §3 Actions -/

namespace Core

variable {m m' : Machine (Core σ) σ}

/-- A completed action puts on the clock what it answers, and a fault takes no time. -/
theorem advance_clock (remaining : Nat) (m : Machine (Core σ) σ) :
    (advance remaining m).2.core.totalCycles =
      clockAfter m.core.totalCycles (advance remaining m).1 := by
  obtain ⟨core, world⟩ := m
  have calm := calm_anywhere core.wiring
  cases core with
  | sm83 w s =>
    exact (Sm83.advance_clock calm.1 s.totalCycles remaining ⟨s, world⟩ ⟨trivial, rfl⟩).2
  | ucom4 w s =>
    exact (Ucom4.advance_clock calm.1 s.totalCycles remaining ⟨s, world⟩ ⟨trivial, rfl⟩).2

/-- A completed action takes a cycle at least. -/
theorem advance_pos {remaining : Nat} {step : StepOutcome}
    (acts : advance remaining m = (.ok step, m')) : 0 < step.cycles := by
  have accounts := metered (calm_anywhere m.core.wiring) m.core.totalCycles remaining m
    ⟨⟨trivial, rfl⟩, rfl⟩
  rw [acts] at accounts
  exact accounts.2.1

/-! ## §4 Runs -/

/-- Completed actions that lead from one machine to another. The first is told a budget, and each
further one what those before it have left. -/
inductive Passes : Nat → Machine (Core σ) σ → List StepOutcome → Nat → Machine (Core σ) σ → Prop
  | none (left : Nat) (m : Machine (Core σ) σ) : Passes left m [] left m
  | action {left left' : Nat} {m m' m'' : Machine (Core σ) σ} {step : StepOutcome}
      {steps : List StepOutcome} : 0 < left → advance left m = (.ok step, m') →
      Passes (left - step.cycles) m' steps left' m'' → Passes left m (step :: steps) left' m''

/-- What is kept by every completed action holds after any number of them. -/
theorem Passes.keeps {P : Machine (Core σ) σ → Prop} {left left' : Nat} {steps : List StepOutcome}
    (passes : Passes left m steps left' m')
    (each : ∀ remaining m step, P m → (advance remaining m).1 = .ok step →
      P (advance remaining m).2) (holds : P m) : P m' := by
  induction passes with
  | none => exact holds
  | @action left _ m m' _ step _ _ acts _ ih =>
    have next := each left m step holds (congrArg Prod.fst acts)
    rw [acts] at next
    exact ih next

/-- No action changes what the core is connected to. -/
theorem Passes.wiring {left left' : Nat} {steps : List StepOutcome}
    (passes : Passes left m steps left' m') : m'.core.wiring = m.core.wiring := by
  refine passes.keeps (P := fun m₁ => m₁.core.wiring = m.core.wiring) ?_ rfl
  intro remaining m₁ step same _
  have kept := metered (calm_anywhere m.core.wiring) m₁.core.totalCycles remaining m₁
    ⟨⟨trivial, same⟩, rfl⟩
  exact kept.1.2

/-- What the first machine of a run has, and every action keeps that the run comes to, there is at
the end of the run. -/
theorem spend_along {P : Machine (Core σ) σ → Prop} {budget : Nat} (range : budget ≤ counterMax)
    (each : ∀ steps left before, Passes budget m steps left before → 0 < left → P before →
      P (advance left before).2) (holds : P m) : P (spend advance budget m).2 := by
  induction budget using Nat.strongRecOn generalizing m with
  | ind budget ih =>
  by_cases pos : 0 < budget
  · have next := each [] budget m (.none budget m) pos holds
    rw [spend_step m pos range]
    cases acts : advance budget m with
    | mk answer m₁ =>
    rw [acts] at next
    cases answer with
    | error fault => exact next
    | ok step =>
      have least := advance_pos acts
      -- what the rest of the run comes to, the whole run comes to
      have rest := ih (budget - step.cycles) (by omega) (by omega)
        (fun steps left before passes => each _ left before (.action pos acts passes)) next
      rw [← Nat.max_eq_right least] at rest
      revert rest
      dsimp only
      obtain ⟨answer, m₂⟩ := spend advance (budget - max 1 step.cycles) m₁
      intro rest
      cases answer <;> exact rest
  · obtain rfl : budget = 0 := by omega
    rw [spend_zero]
    exact holds

theorem run_along {P : Machine (Core σ) σ → Prop} {budget : Nat}
    (each : ∀ steps left before, Passes (min budget counterMax) m steps left before → 0 < left →
      P before → P (advance left before).2) (holds : P m) : P (run budget m).2 := by
  have along := spend_along (Nat.min_le_right ..) each holds
  unfold run
  rw [run_min, run_eq]
  revert along
  obtain ⟨answer, m₁⟩ := spend advance (min budget counterMax) m
  intro along
  cases answer <;> exact along

/-- The clock moves on by the cycles of the actions, and stops at its largest reading. -/
theorem Passes.clock {left left' : Nat} {steps : List StepOutcome}
    (passes : Passes left m steps left' m') (range : m.core.totalCycles ≤ counterMax) :
    m'.core.totalCycles = satAdd m.core.totalCycles (steps.map (·.cycles)).sum := by
  induction passes with
  | none left m => exact (satAdd_eq (show m.core.totalCycles + 0 ≤ counterMax from range)).symm
  | @action left _ m m' _ step steps _ acts _ ih =>
    have moved := advance_clock left m
    rw [acts] at moved
    replace moved : m'.core.totalCycles = satAdd m.core.totalCycles step.cycles := moved
    rw [ih (moved ▸ satAdd_le ..), moved, List.map_cons, List.sum_cons]
    unfold satAdd
    omega

theorem spend_faults {budget : Nat} (range : budget ≤ counterMax) {fault : Fault}
    (ends : spend advance budget m = (.error fault, m')) :
    ∃ steps left before, Passes budget m steps left before ∧
      advance left before = (.error fault, m') := by
  induction budget using Nat.strongRecOn generalizing m with
  | ind budget ih =>
  by_cases pos : 0 < budget
  · rw [spend_step m pos range] at ends
    cases acts : advance budget m with
    | mk answer m₁ =>
    rw [acts] at ends
    cases answer with
    | error other =>
      obtain ⟨⟨⟩, rfl⟩ := Prod.mk.inj ends
      exact ⟨[], budget, m, .none budget m, acts⟩
    | ok step =>
      have least := advance_pos acts
      -- the rest of the run ends with the same fault
      have rest : spend advance (budget - step.cycles) m₁ = (.error fault, m') := by
        dsimp only at ends
        rw [Nat.max_eq_right least] at ends
        revert ends
        obtain ⟨answer, m₂⟩ := spend advance (budget - step.cycles) m₁
        intro ends
        cases answer with
        | error other => exact ends
        | ok outcome => nomatch ends
      obtain ⟨steps, left, before, passes, fails⟩ := ih _ (by omega) (by omega) rest
      exact ⟨step :: steps, left, before, .action pos acts passes, fails⟩
  · obtain rfl : budget = 0 := by omega
    rw [spend_zero] at ends
    nomatch ends

/-- A run that ends with a fault has completed some actions before the one that failed. -/
theorem run_faults {budget : Nat} {fault : Fault} (ends : run budget m = (.error fault, m')) :
    ∃ steps left before, Passes (min budget counterMax) m steps left before ∧
      advance left before = (.error fault, m') := by
  refine spend_faults (Nat.min_le_right ..) ?_
  -- a run is the loop over a budget that its counter can hold; it only words the answer
  unfold run at ends
  rw [run_min, run_eq] at ends
  revert ends
  obtain ⟨answer, m₁⟩ := spend advance (min budget counterMax) m
  intro ends
  cases answer with
  | error other => exact ends
  | ok outcome => nomatch ends

end Core

end Microboard
