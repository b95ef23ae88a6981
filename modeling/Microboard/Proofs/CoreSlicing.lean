import Microboard.Core
import Microboard.Proofs.Accesses
import Microboard.Proofs.Sm83.Idling
import Microboard.Proofs.Ucom4.Idling

/-!
# Slicing the runs of a core

- **§1** What is compared, and surroundings that leave the reset line alone.
- **§2** The cut, for cores of either family.
-/

namespace Microboard.Core

variable {σ : Type}

/-! ## §1 Cores and their surroundings -/

/-- The core without the bus cycles of the last action, which are a note for the observer and no
part of the state of the core. -/
def cleared (core : Core σ) : Core σ := core.modifyStatus ({ · with bus := [] })

/-- The machine whose core is cleared. -/
def unobserved (m : Machine (Core σ) σ) : Machine (Core σ) σ := ⟨m.core.cleared, m.world⟩

@[simp]
theorem exec_cleared (core : Core σ) : core.cleared.exec = core.exec := by
  cases core <;> rfl

@[simp]
theorem totalCycles_cleared (core : Core σ) : core.cleared.totalCycles = core.totalCycles := by
  cases core <;> rfl

/-- Nothing that the core drives while it is reset changes its reset line: neither what hangs on
its output lines nor, where a reset drives them, the devices behind its ports. -/
def SparesReset : Core σ → Prop
  | sm83 w _ => ∀ line asserted, (w.sink line asserted).Spares w.number Sm83.resetLine
  | ucom4 w _ => ∀ address value, (w.io.writeUnit address value).Spares w.number Ucom4.resetLine

theorem SparesReset.cleared {core : Core σ} (spares : core.SparesReset) :
    core.cleared.SparesReset := by
  cases core <;> exact spares

/-- A member of the SM83 family as a core. -/
def ofSm83 (w : Sm83.Wiring σ) (m : Machine Sm83.State σ) : Machine (Core σ) σ :=
  ⟨.sm83 w m.core, m.world⟩

/-- A member of the uCOM-4 family as a core. -/
def ofUcom4 (w : Ucom4.Wiring σ) (m : Machine Ucom4.State σ) : Machine (Core σ) σ :=
  ⟨.ucom4 w m.core, m.world⟩

/-! ## §2 The cut -/

/-- An action starts with a fresh note of its bus cycles. -/
theorem advance_unobserved (remaining : Nat) (m : Machine (Core σ) σ) :
    advance remaining (unobserved m) = advance remaining m := by
  obtain ⟨core, world⟩ := m
  cases core with
  | sm83 w s => rfl
  | ucom4 w s => rfl

/-- Cores in such surroundings pay no heed to the remaining budget or let time pass. -/
theorem sliceable :
    Sliceable (tidied unobserved advance) fun m : Machine (Core σ) σ => m.core.SparesReset where
  kept remaining m spares := by
    obtain ⟨core, world⟩ := m
    cases core with
    | sm83 w s => exact spares
    | ucom4 w s => exact spares
  either m spares := by
    obtain ⟨core, world⟩ := m
    cases core with
    | sm83 w s =>
      have same : ∀ remaining m, tidied unobserved advance remaining (ofSm83 w m) =
        Prod.map id (ofSm83 w) (tidied Sm83.unobserved (Sm83.advance w) remaining m) :=
          fun _ _ => rfl
      rcases Sm83.heedless_or_dozes spares ⟨s, world⟩ with heedless | ⟨pace, passed, dozes⟩
      · have heeds := heedless.lift same
        exact .inl heeds
      · have time := dozes.lift same
        exact .inr ⟨pace, _, time⟩
    | ucom4 w s =>
      have same : ∀ remaining m, tidied unobserved advance remaining (ofUcom4 w m) =
        Prod.map id (ofUcom4 w) (tidied Ucom4.unobserved (Ucom4.advance w) remaining m) :=
          fun _ _ => rfl
      rcases Ucom4.heedless_or_dozes spares ⟨s, world⟩ with heedless | ⟨pace, passed, dozes⟩
      · have heeds := heedless.lift same
        exact .inl heeds
      · have time := dozes.lift same
        exact .inr ⟨pace, _, time⟩

/-- A run may be cut anywhere: a run for a first budget and another for what it leaves over of
both end in the same state as one run for both, and what they did adds up to what it did. A fault
of either part is the fault of the whole. -/
theorem run_cut (first second : Nat) (m : Machine (Core σ) σ)
    (range : first + second ≤ counterMax) (spares : m.core.SparesReset) :
    Prod.map id unobserved (run (first + second) m) =
      Prod.map id unobserved (runCut run first second m) :=
  sliceable.run_add _ advance_unobserved (fun m => exec_cleared m.core) range spares.cleared

/-- A halted core, whose run is cut between two multiples of four cycles. -/
theorem run_cut_halted :
    let m : Machine (Core UInt8) UInt8 :=
      ⟨.sm83 (.cell id (fun value _ => value) 0) { exec := .halted },
        ⟨0, { latches := [.released 6] }, {}⟩⟩
    Prod.map id unobserved (run (7 + 6) m) = Prod.map id unobserved (runCut run 7 6 m) :=
  run_cut 7 6 _ (by decide) fun _ _ => Access.spares_of_requests fun _ => rfl

/-! ## §3 Longer runs -/

/-- Fault with which a run ends. -/
def faultOf : Except Fault RunOutcome → Option Fault
  | .ok _ => none
  | .error fault => some fault

variable {m m₁ : Machine (Core σ) σ} {first second : Nat}

/-- A run for no cycles does nothing. -/
theorem run_zero (m : Machine (Core σ) σ) : faultOf (run 0 m).1 = none ∧ (run 0 m).2 = m := by
  unfold run
  rw [run_eq, spend_zero]
  exact ⟨rfl, rfl⟩

/-- A run that its first action uses up. -/
theorem run_single {budget : Nat} {step : StepOutcome} (pos : 0 < budget)
    (range : budget ≤ counterMax) (acts : advance budget m = (.ok step, m₁))
    (enough : budget ≤ step.cycles) : faultOf (run budget m).1 = none ∧ (run budget m).2 = m₁ := by
  have nothing : budget - max 1 step.cycles = 0 := by omega
  unfold run
  rw [run_eq, spend_step m pos range, acts]
  dsimp only
  rw [nothing, spend_zero]
  exact ⟨rfl, rfl⟩

/-- A longer run does no more than a run that ends with a fault. -/
theorem run_faulted {fault : Fault} (range : first + second ≤ counterMax)
    (spares : m.core.SparesReset) (ran : run first m = (.error fault, m₁)) :
    faultOf (run (first + second) m).1 = some fault ∧
      unobserved (run (first + second) m).2 = unobserved m₁ := by
  have cut := sliceable.run_add (fun m => m.core.exec) advance_unobserved
    (fun m => exec_cleared m.core) range spares.cleared
  have whole := cut.trans (congrArg _ (runCut_error ran))
  refine ⟨congrArg faultOf (congrArg Prod.fst whole), congrArg Prod.snd whole⟩

/-- A longer run goes on where a run has used up its budget. -/
theorem run_resumed {done : RunOutcome} (range : first + second ≤ counterMax)
    (spares : m.core.SparesReset) (ran : run first m = (.ok done, m₁)) :
    faultOf (run (first + second) m).1 = faultOf (run (first + second - done.cycles) m₁).1 ∧
      unobserved (run (first + second) m).2 =
        unobserved (run (first + second - done.cycles) m₁).2 := by
  have cut := sliceable.run_add (fun m => m.core.exec) advance_unobserved
    (fun m => exec_cleared m.core) range spares.cleared
  have whole := cut.trans (congrArg _ (runCut_ok ran))
  have rest : ∀ result : Except Fault RunOutcome × Machine (Core σ) σ,
      faultOf (resume done result).1 = faultOf result.1 ∧ (resume done result).2 = result.2 := by
    rintro ⟨fault | outcome, m₂⟩ <;> exact ⟨rfl, rfl⟩
  obtain ⟨answer, machine⟩ := rest (run (first + second - done.cycles) m₁)
  constructor
  · exact (congrArg faultOf (congrArg Prod.fst whole)).trans answer
  · exact (congrArg Prod.snd whole).trans (congrArg unobserved machine)

end Microboard.Core
