import Microboard.Proofs.Lockstep
import Microboard.Proofs.Slicing

/-!
# Accounting for cycles

- **§1** Cores whose clock stands still in worlds that keep a property.
- **§2** What an action must account for, and what a run then accounts for.
- **§3** Where an instruction runs.
-/

namespace Microboard

/-! ## §1 Clocks that stand still -/

/-- The world has a property and the core another. -/
def Standing {κ σ : Type} (V : World σ → Prop) (S : κ → Prop) (m : Machine κ σ) : Prop :=
  V m.world ∧ S m.core

/-- A program in lockstep with itself keeps what is said of both sides. -/
theorem Lockstep.standing {κ σ α : Type} {V : World σ → Prop} {S : κ → Prop}
    {p : StateM (Machine κ σ) α}
    (inStep : Lockstep (Across (fun s t => s = t ∧ S s) (Both V)) p p) :
    Keeps (Standing V S) p := by
  intro m holds
  obtain ⟨-, cores, worlds⟩ := inStep m m ⟨⟨rfl, holds.2⟩, rfl, holds.1⟩
  exact ⟨worlds.1 ▸ worlds.2, cores.2⟩

/-! ## §2 Actions and runs -/

/-- The clock has moved on by some cycles, or stopped at its largest reading. -/
def Moved (before cycles after : Nat) : Prop := counterMax ≤ after ∨ after = before + cycles

theorem Moved.none (reading : Nat) : Moved reading 0 reading := .inr rfl

theorem Moved.trans {before first between second after : Nat} (moved : Moved before first between)
    (further : Moved between second after) : Moved before (satAdd first second) after := by
  unfold Moved satAdd at *
  omega

theorem moved_satAdd (before cycles : Nat) : Moved before cycles (satAdd before cycles) := by
  unfold Moved satAdd
  omega

/-- The clock has not moved back, unless it stopped at its largest reading. -/
def Later (before after : Nat) : Prop := counterMax ≤ after ∨ before ≤ after

theorem Later.refl (reading : Nat) : Later reading reading := .inr (Nat.le_refl reading)

theorem Later.trans {a b c : Nat} (first : Later a b) (second : Later b c) : Later a c := by
  unfold Later at *
  omega

theorem Later.of_eq {before after after' : Nat} (later : Later before after)
    (same : after' = after) : Later before after' := by
  rw [same]
  exact later

theorem Moved.later {before cycles after : Nat} (moved : Moved before cycles after) :
    Later before after := by
  unfold Moved Later at *
  omega

/-- An action took at least a cycle and no more than it may, and put what it took on the clock; a
fault takes no time. -/
def Accounts (most before : Nat) (answer : Except Fault StepOutcome) (after : Nat) : Prop :=
  match answer with
  | .ok step => 0 < step.cycles ∧ step.cycles ≤ most ∧ Moved before step.cycles after
  | .error _ => after = before

/-- The world has the property and the clock of the core a reading. -/
abbrev Reads {κ σ : Type} (V : World σ → Prop) (clock : κ → Nat) (reading : Nat)
    (m : Machine κ σ) : Prop :=
  Standing V (fun s => clock s = reading) m

/-- The world has the property and the clock of the core shows what the answer says. -/
def Answered {κ σ : Type} (V : World σ → Prop) (clock : κ → Nat) (reading most : Nat)
    (answer : Except Fault StepOutcome) (m : Machine κ σ) : Prop :=
  V m.world ∧ Accounts most reading answer (clock m.core)

theorem Answered.within {κ σ : Type} {V : World σ → Prop} {clock : κ → Nat}
    {reading most more : Nat} {answer : Except Fault StepOutcome} {m : Machine κ σ}
    (answered : Answered V clock reading most answer m) (within : most ≤ more) :
    Answered V clock reading more answer m := by
  obtain ⟨kept, accounts⟩ := answered
  cases answer with
  | error fault => exact ⟨kept, accounts⟩
  | ok step =>
    obtain ⟨least, bound, moved⟩ := accounts
    exact ⟨kept, least, Nat.le_trans bound within, moved⟩

/-- A clock to which the cycles of a step have been added. -/
theorem answered_of_reads {κ σ : Type} {V : World σ → Prop} {clock : κ → Nat}
    {reading most : Nat} {step : StepOutcome} {m : Machine κ σ}
    (reads : Reads V clock (satAdd reading step.cycles) m) (least : 0 < step.cycles)
    (bound : step.cycles ≤ most) : Answered V clock reading most (.ok step) m := by
  obtain ⟨kept, shown⟩ := reads
  refine ⟨kept, least, bound, ?_⟩
  rw [shown]
  exact moved_satAdd reading step.cycles

/-- A step that accounts for its cycles is an answer that does. -/
theorem Ensures.answered {κ σ : Type} {P : Machine κ σ → Prop} {V : World σ → Prop}
    {clock : κ → Nat} {reading most more : Nat} {act : StateM (Machine κ σ) StepOutcome}
    (took : Ensures P act fun step => Answered V clock reading most (.ok step))
    (within : most ≤ more) :
    Ensures P (do return .ok (← act)) (Answered V clock reading more) :=
  .bind took fun _ => .pure fun _ holds => holds.within within

/-- A run used up its budget, passed it by no more than it may, and put what it took on the clock;
a run that ends with a fault has not used up its budget. -/
def AccountsRun (slack budget before : Nat) (answer : Except Fault RunOutcome) (after : Nat) :
    Prop :=
  match answer with
  | .ok outcome => budget ≤ outcome.cycles ∧ outcome.cycles ≤ budget + slack ∧
      (budget = 0 → outcome.cycles = 0) ∧ Moved before outcome.cycles after
  | .error _ => ∃ cycles, cycles < budget ∧ Moved before cycles after

theorem Accounts.later {most before after : Nat} {answer : Except Fault StepOutcome}
    (accounts : Accounts most before answer after) : Later before after := by
  cases answer with
  | error fault => exact accounts ▸ Later.refl before
  | ok step => exact accounts.2.2.later

theorem AccountsRun.later {slack budget before after : Nat} {answer : Except Fault RunOutcome}
    (accounts : AccountsRun slack budget before answer after) : Later before after := by
  cases answer with
  | error fault =>
    obtain ⟨cycles, -, moved⟩ := accounts
    exact moved.later
  | ok outcome => exact accounts.2.2.2.later

/-- A run accounts for its cycles when its first action does and the rest of it accounts for what
is left of the budget. -/
theorem AccountsRun.resume {μ : Type} {slack budget before between after : Nat}
    {step : StepOutcome} {result : Except Fault RunOutcome × μ} (pos : 0 < budget)
    (range : budget ≤ counterMax)
    (first : Accounts (max 1 budget + slack) before (.ok step) between)
    (rest : AccountsRun slack (budget - step.cycles) between result.1 after) :
    AccountsRun slack budget before (Microboard.resume (.ofStep step) result).1 after := by
  obtain ⟨least, most, moved⟩ := first
  obtain ⟨answer, m⟩ := result
  cases answer with
  | error fault =>
    obtain ⟨cycles, less, further⟩ := rest
    refine ⟨satAdd step.cycles cycles, ?_, moved.trans further⟩
    unfold satAdd
    omega
  | ok outcome =>
    obtain ⟨enough, bound, nothing, further⟩ := rest
    have whole : ((RunOutcome.ofStep step).append outcome).cycles =
        satAdd step.cycles outcome.cycles := by
      show satAdd (RunOutcome.ofStep step).cycles outcome.cycles = _
      rw [RunOutcome.cycles_ofStep, Nat.max_eq_right least]
      unfold satAdd
      omega
    show AccountsRun slack budget before (.ok ((RunOutcome.ofStep step).append outcome)) after
    unfold AccountsRun
    dsimp only
    rw [whole]
    -- the action overshoots the budget, or leaves some of it to the rest of the run
    have overshoot : budget - step.cycles = 0 ∨ step.cycles < budget := by omega
    refine ⟨?_, ?_, by omega, moved.trans further⟩
    · unfold satAdd
      omega
    · unfold satAdd
      omega

/-- Every action of such a machine keeps it such and accounts for its cycles. -/
def Metered {μ : Type} (advance : Nat → StateM μ (Except Fault StepOutcome)) (P : μ → Prop)
    (clock : μ → Nat) (slack : Nat) : Prop :=
  ∀ before remaining, Ensures (fun m => P m ∧ clock m = before) (advance remaining)
    fun answer m => P m ∧ Accounts (max 1 remaining + slack) before answer (clock m)

namespace Metered

variable {μ : Type} {advance : Nat → StateM μ (Except Fault StepOutcome)} {P : μ → Prop}
  {clock : μ → Nat} {slack : Nat}

theorem spend (metered : Metered advance P clock slack) {budget : Nat}
    (range : budget ≤ counterMax) (before : Nat) :
    Ensures (fun m => P m ∧ clock m = before) (Microboard.spend advance budget)
      fun answer m => P m ∧ AccountsRun slack budget before answer (clock m) := by
  induction budget using Nat.strongRecOn generalizing before with
  | ind budget ih =>
  rintro m ⟨holds, rfl⟩
  by_cases pos : 0 < budget
  -- one action, and then the run for the smaller budget that it leaves
  · have first := metered (clock m) budget m ⟨holds, rfl⟩
    rw [spend_step m pos range]
    revert first
    obtain ⟨answer, m₁⟩ := advance budget m
    rintro ⟨holds₁, accounts⟩
    cases answer with
    | error fault => exact ⟨holds₁, 0, pos, .inr accounts⟩
    | ok step =>
      have least : 0 < step.cycles := accounts.1
      dsimp only
      rw [Nat.max_eq_right least, resume_snd]
      have rest := ih (budget - step.cycles) (by omega) (by omega) (clock m₁) m₁ ⟨holds₁, rfl⟩
      exact ⟨rest.1, AccountsRun.resume pos range accounts rest.2⟩
  · obtain rfl : budget = 0 := by omega
    rw [spend_zero]
    exact ⟨holds, Nat.le_refl _, Nat.zero_le _, fun _ => rfl, Moved.none _⟩

/-- A run accounts for its cycles. -/
theorem run (metered : Metered advance P clock slack) (exec : μ → ExecState) {budget : Nat}
    (range : budget ≤ counterMax) (before : Nat) :
    Ensures (fun m => P m ∧ clock m = before) (Microboard.run advance exec budget)
      fun answer m => P m ∧ AccountsRun slack budget before answer (clock m) := by
  intro m holds
  have spent := metered.spend range before m holds
  rw [run_eq]
  revert spent
  obtain ⟨answer, m₁⟩ := Microboard.spend advance budget m
  intro spent
  cases answer with
  | error fault => exact spent
  | ok outcome => exact spent

end Metered

/-! ## §3 Instructions -/

/-- Only the state that latches a fault has one latched. -/
theorem ExecState.eq_faultLatched {exec : ExecState} {fault : Fault}
    (latched : exec.latchedFault? = some fault) : exec = .faultLatched fault := by
  cases exec with
  | faultLatched other => exact congrArg _ (Option.some.inj latched)
  | _ => cases latched

theorem ok_of_toOption {ε α : Type} {answer : Except ε α} {value : α}
    (answered : answer.toOption = some value) : answer = .ok value := by
  cases answer with
  | error fault => cases answered
  | ok outcome => exact congrArg _ (Option.some.inj answered)

/-- The instruction at an address has run, or it was refused. -/
inductive RunsAt (pc : UInt16) : Except Fault StepOutcome → Prop where
  | retired (cycles : Nat) : RunsAt pc (.ok (.retired pc.toUInt32 cycles))
  | refused (opcode : UInt8) : RunsAt pc (.error (.illegalOpcode pc.toUInt32 opcode))

/-- An instruction is no interrupt entry. -/
theorem RunsAt.calm {pc : UInt16} {answer : Except Fault StepOutcome} (runs : RunsAt pc answer)
    (vector : UInt32) (cycles : Nat) : answer ≠ .ok (.interrupt vector cycles) := by
  cases runs <;> exact nofun

end Microboard
