import Microboard.Proofs.Programs
import Microboard.Run

/-!
# Slicing runs

A run for a budget can be cut anywhere: a run for the first part, followed by a run for what the
first one left over, is the run for the whole.

- **§1** Outcomes of consecutive runs.
- **§2** A run as its first action and the run that follows.
- **§3** Machines that only let time pass, in portions that depend on the remaining budget.
- **§4** The cut.

An action looks at the remaining budget only when it lets time pass. Such a machine keeps letting
time pass until the run ends, so a cut moves the borders between its portions but not their sum.
-/

namespace Microboard

variable {μ : Type} {advance : Nat → StateM μ (Except Fault StepOutcome)}

/-! ## §1 Consecutive outcomes -/

theorem satAdd_assoc (a b c : Nat) : satAdd a (satAdd b c) = satAdd (satAdd a b) c := by
  unfold satAdd
  omega

/-- Adding twice is adding the sum. -/
theorem satAdd_satAdd (a b c : Nat) : satAdd (satAdd a b) c = satAdd a (b + c) := by
  unfold satAdd
  omega

namespace RunOutcome

/-- The outcome of one run and then another. -/
def append (first second : RunOutcome) : RunOutcome where
  cycles := satAdd first.cycles second.cycles
  instructions := first.instructions + second.instructions
  interrupts := first.interrupts + second.interrupts
  state := second.state

theorem append_assoc (a b c : RunOutcome) : a.append (b.append c) = (a.append b).append c := by
  simp only [append, satAdd_assoc, Nat.add_assoc]

/-- The outcome of a single action, which counts as at least a cycle. -/
def ofStep (step : StepOutcome) : RunOutcome :=
  tally { cycles := satAdd 0 (max 1 step.cycles) } step

@[simp]
theorem cycles_ofStep (step : StepOutcome) :
    (ofStep step).cycles = satAdd 0 (max 1 step.cycles) := by
  cases step <;> rfl

end RunOutcome

/-- Counts what was done before. -/
def resume (before : RunOutcome) (result : Except Fault RunOutcome × μ) :
    Except Fault RunOutcome × μ :=
  match result with
  | (.error fault, m) => (.error fault, m)
  | (.ok rest, m) => (.ok (before.append rest), m)

@[simp]
theorem resume_snd (before : RunOutcome) (result : Except Fault RunOutcome × μ) :
    (resume before result).2 = result.2 := by
  obtain ⟨answer, m⟩ := result
  cases answer <;> rfl

theorem resume_resume (a b : RunOutcome) (result : Except Fault RunOutcome × μ) :
    resume a (resume b result) = resume (a.append b) result := by
  obtain ⟨answer, m⟩ := result
  cases answer with
  | error fault => rfl
  | ok rest =>
    simp only [resume]
    rw [RunOutcome.append_assoc]

/-! ## §2 The first action -/

namespace CycleCounter

theorem exhausted_eq_false (counter : CycleCounter) :
    counter.exhausted = false ↔ 0 < counter.remaining := by
  unfold exhausted remaining
  rw [decide_eq_false_iff_not]
  omega

@[simp]
theorem remaining_start (budget : Nat) : (start budget).remaining = min budget counterMax := rfl

@[simp]
theorem remaining_charge (counter : CycleCounter) (cycles : Nat) :
    (counter.charge cycles).remaining = counter.remaining - cycles := by
  have bound := counter.budget_le
  simp only [charge, remaining, satAdd]
  omega

end CycleCounter

/-- A run, before the state in which the core rests is noted. -/
def spend (advance : Nat → StateM μ (Except Fault StepOutcome)) (budget : Nat) (m : μ) :
    Except Fault RunOutcome × μ :=
  runUntilExhausted advance (.start budget) {} m

/-- A run that goes on after an outcome is the outcome and then a fresh run. -/
theorem runUntilExhausted_eq (counter : CycleCounter) (outcome : RunOutcome) (m : μ)
    (range : counter.consumed ≤ counterMax) (fresh : outcome.state = .idle) :
    runUntilExhausted advance counter outcome m =
      resume { outcome with cycles := counter.consumed } (spend advance counter.remaining m) := by
  -- both runs shrink together, so the induction is on the budget that is left
  induction left : counter.remaining using Nat.strongRecOn generalizing counter outcome m with
  | ind left ih =>
  subst left
  have bound := counter.budget_le
  have started : (CycleCounter.start counter.remaining).remaining = counter.remaining := by
    rw [CycleCounter.remaining_start]
    unfold CycleCounter.remaining
    omega
  unfold spend
  rw [runUntilExhausted, runUntilExhausted]
  by_cases open_ : counter.exhausted = false
  · have pos := counter.exhausted_eq_false.mp open_
    have more : (CycleCounter.start counter.remaining).exhausted = false := by
      rw [CycleCounter.exhausted_eq_false, started]
      exact pos
    rw [dif_pos open_, dif_pos more, started]
    obtain ⟨answer, m'⟩ := advance counter.remaining m
    cases answer with
    | error fault => rfl
    | ok step =>
      have same : ((CycleCounter.start counter.remaining).charge (max 1 step.cycles)).remaining =
          (counter.charge (max 1 step.cycles)).remaining := by
        simp only [CycleCounter.remaining_charge, started]
      have less := counter.remaining_charge_lt (max 1 step.cycles) open_ (by omega)
      -- the induction hypothesis twice: for the run that goes on and for the fresh one
      have long := ih _ less (counter.charge (max 1 step.cycles)) (outcome.tally step) m'
        (satAdd_le _ _) (by cases step <;> exact fresh) rfl
      have short := ih _ (same ▸ less) ((CycleCounter.start counter.remaining).charge _)
        (RunOutcome.tally {} step) m' (satAdd_le _ _) (by cases step <;> rfl) rfl
      dsimp only
      rw [long, short, resume_resume, same]
      congr 1
      -- what is counted so far agrees, field by field
      simp only [RunOutcome.append, CycleCounter.charge, CycleCounter.start, RunOutcome.mk.injEq]
      refine ⟨?_, ?_, ?_, ?_⟩
      · unfold satAdd
        omega
      · cases step <;> simp only [RunOutcome.tally] <;> omega
      · cases step <;> simp only [RunOutcome.tally] <;> omega
      · cases step <;> exact fresh
  · have done : ¬(CycleCounter.start counter.remaining).exhausted = false := by
      rw [CycleCounter.exhausted_eq_false, started, ← CycleCounter.exhausted_eq_false]
      exact open_
    rw [dif_neg open_, dif_neg done]
    simp only [resume, RunOutcome.append, CycleCounter.start, Nat.add_zero]
    rw [satAdd_eq (Nat.add_zero _ ▸ range), Nat.add_zero, fresh]

/-- Nothing done before changes nothing. -/
theorem resume_spend {budget : Nat} (m : μ) (range : budget ≤ counterMax) :
    resume {} (spend advance budget m) = spend advance budget m := by
  have started : runUntilExhausted advance (.start budget) {} m = _ :=
    runUntilExhausted_eq _ _ _ (Nat.zero_le _) rfl
  rw [CycleCounter.remaining_start, Nat.min_eq_left range] at started
  exact started.symm

@[simp]
theorem spend_zero (m : μ) : spend advance 0 m = (.ok {}, m) := by
  unfold spend
  rw [runUntilExhausted]
  rfl

/-- A run is its first action and then the run for what is left. -/
theorem spend_step {budget : Nat} (m : μ) (pos : 0 < budget) (range : budget ≤ counterMax) :
    spend advance budget m =
      match advance budget m with
      | (.error fault, m) => (.error fault, m)
      | (.ok step, m) =>
        resume (.ofStep step) (spend advance (budget - max 1 step.cycles) m) := by
  have whole : (CycleCounter.start budget).remaining = budget := Nat.min_eq_left range
  have open_ : (CycleCounter.start budget).exhausted = false := by
    rw [CycleCounter.exhausted_eq_false, whole]
    exact pos
  conv => lhs; unfold spend
  rw [runUntilExhausted, dif_pos open_, whole]
  obtain ⟨answer, m'⟩ := advance budget m
  cases answer with
  | error fault => rfl
  | ok step =>
    have fresh : (RunOutcome.tally {} step).state = .idle := by cases step <;> rfl
    dsimp only
    rw [runUntilExhausted_eq _ _ _ (satAdd_le _ _) fresh, CycleCounter.remaining_charge, whole]
    cases step <;> rfl

/-! ## §3 Letting time pass -/

/-- How a machine lets time pass: the portion that one action lets pass when so much of the
budget remains, and what a whole run then adds up to. -/
structure Pace where
  /-- Cycles of one action. -/
  portion : Nat → Nat
  /-- Cycles of all actions until the budget is used up. -/
  whole : Nat → Nat
  portion_pos : ∀ remaining, 0 < portion remaining
  whole_zero : whole 0 = 0
  /-- The whole is the first portion and the whole of the rest. -/
  whole_step : ∀ remaining, 0 < remaining →
    portion remaining + whole (remaining - portion remaining) = whole remaining
  /-- The whole does not change when it is cut. -/
  whole_cut : ∀ first second,
    whole first + whole (first + second - whole first) = whole (first + second)

/-- The machine lets time pass from now on; `passed c` is the machine once `c` cycles have
passed. -/
structure Dozes (advance : Nat → StateM μ (Except Fault StepOutcome)) (pace : Pace)
    (passed : Nat → μ) (m : μ) : Prop where
  first : ∀ remaining,
    advance remaining m = (.ok (.idle (pace.portion remaining)), passed (pace.portion remaining))
  next : ∀ cycles remaining, advance remaining (passed cycles) =
    (.ok (.idle (pace.portion remaining)), passed (cycles + pace.portion remaining))

/-- What an action does does not depend on the remaining budget. -/
def Heedless (advance : Nat → StateM μ (Except Fault StepOutcome)) (m : μ) : Prop :=
  ∀ remaining remaining', advance remaining m = advance remaining' m

namespace Dozes

variable {pace : Pace} {passed : Nat → μ} {m : μ}

/-- The outcome of letting the portion and then the whole of the rest pass. -/
theorem append_portion {budget : Nat} (pos : 0 < budget) :
    (RunOutcome.ofStep (.idle (pace.portion budget))).append
        { cycles := satAdd 0 (pace.whole (budget - max 1 (pace.portion budget))) } =
      { cycles := satAdd 0 (pace.whole budget) } := by
  have portion := pace.portion_pos budget
  have step := pace.whole_step budget pos
  have least : max 1 (pace.portion budget) = pace.portion budget := by omega
  simp only [RunOutcome.ofStep, RunOutcome.tally, RunOutcome.append, StepOutcome.cycles, least,
    RunOutcome.mk.injEq, and_true]
  unfold satAdd
  omega

theorem spend_passed (dozes : Dozes advance pace passed m) {budget : Nat}
    (range : budget ≤ counterMax) (cycles : Nat) :
    spend advance budget (passed cycles) =
      (.ok { cycles := satAdd 0 (pace.whole budget) }, passed (cycles + pace.whole budget)) := by
  induction budget using Nat.strongRecOn generalizing cycles with
  | ind budget ih =>
  by_cases pos : 0 < budget
  · have portion := pace.portion_pos budget
    have step := pace.whole_step budget pos
    have least : max 1 (pace.portion budget) = pace.portion budget := by omega
    rw [spend_step _ pos range, dozes.next]
    dsimp only [StepOutcome.cycles]
    -- what is left after the portion is a smaller budget
    rw [ih _ (by omega) (by omega)]
    simp only [resume]
    rw [append_portion pos, least, Nat.add_assoc, step]
  · obtain rfl : budget = 0 := by omega
    rw [spend_zero, pace.whole_zero]
    rfl

/-- A run of a machine that lets time pass. -/
theorem spend_eq (dozes : Dozes advance pace passed m) {budget : Nat} (pos : 0 < budget)
    (range : budget ≤ counterMax) :
    spend advance budget m =
      (.ok { cycles := satAdd 0 (pace.whole budget) }, passed (pace.whole budget)) := by
  have portion := pace.portion_pos budget
  have step := pace.whole_step budget pos
  have least : max 1 (pace.portion budget) = pace.portion budget := by omega
  rw [spend_step _ pos range, dozes.first]
  dsimp only [StepOutcome.cycles]
  rw [dozes.spend_passed (by omega)]
  simp only [resume]
  rw [append_portion pos, least, step]

/-- Letting time pass can be cut. -/
theorem spend_add (dozes : Dozes advance pace passed m) {first second : Nat} (pos : 0 < first)
    (range : first + second ≤ counterMax) :
    spend advance (first + second) m =
      resume { cycles := satAdd 0 (pace.whole first) }
        (spend advance (first + second - pace.whole first) (passed (pace.whole first))) := by
  have cut := pace.whole_cut first second
  rw [dozes.spend_eq (by omega) range, dozes.spend_passed (by omega), cut]
  simp only [resume, RunOutcome.append, Nat.add_zero, Prod.mk.injEq, Except.ok.injEq,
    RunOutcome.mk.injEq, and_true]
  unfold satAdd
  omega

end Dozes

/-- Machines on which an action charges its portion and does nothing else, once the machine is
cleared of what the last action left to look at. -/
structure Restful (advance : Nat → StateM μ (Except Fault StepOutcome)) (clear : μ → μ)
    (pace : Pace) (charge : Nat → μ → μ) (Rest : μ → Prop) : Prop where
  idles : ∀ {m}, Rest m → ∀ remaining, advance remaining m =
    (.ok (.idle (pace.portion remaining)), charge (pace.portion remaining) (clear m))
  rest_charge : ∀ {m} cycles, Rest m → Rest (charge cycles m)
  rest_clear : ∀ {m}, Rest m → Rest (clear m)
  charge_charge : ∀ a b m, charge b (charge a m) = charge (a + b) m
  clear_charge : ∀ cycles m, clear (charge cycles m) = charge cycles (clear m)
  clear_clear : ∀ m, clear (clear m) = clear m

/-- An action whose machine is cleared afterwards. -/
def tidied (clear : μ → μ) (advance : Nat → StateM μ (Except Fault StepOutcome))
    (remaining : Nat) : StateM μ (Except Fault StepOutcome) :=
  fun m => ((advance remaining m).1, clear (advance remaining m).2)

/-- A machine that comes to rest lets time pass. -/
theorem Restful.dozes {clear : μ → μ} {pace : Pace} {charge : Nat → μ → μ} {Rest : μ → Prop}
    (restful : Restful advance clear pace charge Rest) {m m₁ : μ} (rest : Rest m₁)
    (enters : ∀ remaining, advance remaining m =
      (.ok (.idle (pace.portion remaining)), charge (pace.portion remaining) m₁)) :
    Dozes (tidied clear advance) pace (fun cycles => charge cycles (clear m₁)) m where
  first remaining := by
    unfold tidied
    rw [enters, restful.clear_charge]
  next cycles remaining := by
    have still := restful.rest_charge cycles (restful.rest_clear rest)
    unfold tidied
    rw [restful.idles still]
    simp only [restful.clear_charge, restful.clear_clear, restful.charge_charge]

/-- Clearing after every action is clearing at the end, for an action that does not look at what
is cleared. -/
theorem spend_tidied {clear : μ → μ}
    (blind : ∀ remaining m, advance remaining (clear m) = advance remaining m) (budget : Nat)
    (m : μ) :
    spend (tidied clear advance) budget (clear m) = Prod.map id clear (spend advance budget m) := by
  unfold spend
  -- the induction needs any counter and any outcome so far, not just the initial ones
  generalize CycleCounter.start budget = counter
  generalize ({} : RunOutcome) = outcome
  induction left : counter.remaining using Nat.strongRecOn generalizing counter outcome m with
  | ind left ih =>
  subst left
  rw [runUntilExhausted, runUntilExhausted]
  by_cases open_ : counter.exhausted = false
  · rw [dif_pos open_, dif_pos open_]
    unfold tidied
    rw [blind]
    obtain ⟨answer, m'⟩ := advance counter.remaining m
    cases answer with
    | error fault => rfl
    | ok step => exact ih _ (counter.remaining_charge_lt _ open_ (by omega)) m' _ _ rfl
  · rw [dif_neg open_, dif_neg open_]
    rfl

/-! ### Other views of a machine -/

section Views

variable {ν : Type} {advance' : Nat → StateM ν (Except Fault StepOutcome)} {view : μ → ν} {m : μ}

theorem Heedless.lift
    (same : ∀ remaining m, advance' remaining (view m) = Prod.map id view (advance remaining m))
    (heedless : Heedless advance m) : Heedless advance' (view m) := by
  intro remaining remaining'
  rw [same, same, heedless remaining remaining']

theorem Dozes.lift
    (same : ∀ remaining m, advance' remaining (view m) = Prod.map id view (advance remaining m))
    {pace : Pace} {passed : Nat → μ} (dozes : Dozes advance pace passed m) :
    Dozes advance' pace (fun cycles => view (passed cycles)) (view m) where
  first remaining := by
    rw [same, dozes.first]
    rfl
  next cycles remaining := by
    rw [same, dozes.next]
    rfl

end Views

/-! ## §4 The cut -/

/-- Machines that either pay no heed to the remaining budget or let time pass, and stay such. -/
structure Sliceable (advance : Nat → StateM μ (Except Fault StepOutcome)) (P : μ → Prop) :
    Prop where
  kept : ∀ remaining m, P m → P (advance remaining m).2
  either : ∀ m, P m → Heedless advance m ∨ ∃ pace passed, Dozes advance pace passed m

/-- A run can be cut: the whole is the first part and then the run for what it left over. A fault
in either part is the fault of the whole. -/
theorem Sliceable.spend_add {P : μ → Prop} (sliceable : Sliceable advance P)
    {first second : Nat} (range : first + second ≤ counterMax) {m : μ} (holds : P m) :
    spend advance (first + second) m =
      match spend advance first m with
      | (.error fault, m) => (.error fault, m)
      | (.ok done, m) => resume done (spend advance (first + second - done.cycles) m) := by
  -- the induction is on the first budget; what its first action leaves over of it is cut again
  induction first using Nat.strongRecOn generalizing second m with
  | ind first ih =>
  by_cases pos : 0 < first
  · rcases sliceable.either m holds with heedless | ⟨pace, passed, dozes⟩
    · have kept := sliceable.kept first m holds
      -- the first action of the part is the first action of the whole
      rw [spend_step m pos (by omega), spend_step m (by omega) range,
        heedless (first + second) first]
      revert kept
      obtain ⟨answer, m'⟩ := advance first m
      intro kept
      cases answer with
      | error fault => rfl
      | ok step =>
        -- an action that overshoots the first budget leaves less of the second
        obtain ⟨rest, left⟩ : ∃ rest, first + second - max 1 step.cycles =
            first - max 1 step.cycles + rest :=
          ⟨first + second - max 1 step.cycles - (first - max 1 step.cycles), by omega⟩
        dsimp only
        rw [left, ih _ (by omega) (by omega) kept]
        obtain ⟨answer, m''⟩ := spend advance (first - max 1 step.cycles) m'
        cases answer with
        | error fault => rfl
        | ok done =>
          have left_over : first - max 1 step.cycles + rest - done.cycles =
              first + second - ((RunOutcome.ofStep step).append done).cycles := by
            simp only [RunOutcome.append, RunOutcome.cycles_ofStep, satAdd]
            omega
          simp only [resume]
          rw [left_over]
          exact resume_resume _ _ _
    -- time passes until both budgets are used up; the pace says that its parts add up
    · have left_over : first + second - satAdd 0 (pace.whole first) =
          first + second - pace.whole first := by
        unfold satAdd
        omega
      rw [dozes.spend_add pos range, dozes.spend_eq pos (by omega)]
      dsimp only
      rw [left_over]
  · obtain rfl : first = 0 := by omega
    rw [spend_zero, Nat.zero_add]
    exact (resume_spend m (by omega)).symm

/-- Notes the state in which the core rests. -/
def conclude (exec : μ → ExecState) (result : Except Fault RunOutcome × μ) :
    Except Fault RunOutcome × μ :=
  match result with
  | (.error fault, m) => (.error fault, m)
  | (.ok outcome, m) => (.ok { outcome with state := exec m }, m)

theorem run_eq (exec : μ → ExecState) (budget : Nat) (m : μ) :
    run advance exec budget m = conclude exec (spend advance budget m) := rfl

/-- A budget beyond the range of the counter is cut to it. -/
theorem run_min (exec : μ → ExecState) (budget : Nat) :
    run advance exec budget = run advance exec (min budget counterMax) := by
  have same : CycleCounter.start budget = CycleCounter.start (min budget counterMax) := by
    unfold CycleCounter.start
    congr 1
    omega
  unfold run
  rw [same]

theorem map_conclude {clear : μ → μ} {exec : μ → ExecState}
    (exec_clear : ∀ m, exec (clear m) = exec m) (result : Except Fault RunOutcome × μ) :
    Prod.map id clear (conclude exec result) = conclude exec (Prod.map id clear result) := by
  obtain ⟨answer, m⟩ := result
  cases answer with
  | error fault => rfl
  | ok outcome =>
    simp only [conclude, Prod.map_apply, id_eq]
    rw [exec_clear]

/-- A run for a first budget, and another for what it leaves over of both. -/
def runCut (run : Nat → StateM μ (Except Fault RunOutcome)) (first second : Nat) :
    StateM μ (Except Fault RunOutcome) := do
  match ← run first with
  | .error fault => return .error fault
  | .ok done =>
    match ← run (first + second - done.cycles) with
    | .error fault => return .error fault
    | .ok rest => return .ok (done.append rest)

theorem runCut_error {run : Nat → StateM μ (Except Fault RunOutcome)} {first second : Nat}
    {m m₁ : μ} {fault : Fault} (ran : run first m = (.error fault, m₁)) :
    runCut run first second m = (.error fault, m₁) := by
  unfold runCut
  rw [eval_bind, ran]
  rfl

theorem runCut_ok {run : Nat → StateM μ (Except Fault RunOutcome)} {first second : Nat}
    {m m₁ : μ} {done : RunOutcome} (ran : run first m = (.ok done, m₁)) :
    runCut run first second m = resume done (run (first + second - done.cycles) m₁) := by
  unfold runCut
  rw [eval_bind, ran]
  dsimp only
  rw [eval_bind]
  obtain ⟨answer, m₂⟩ := run (first + second - done.cycles) m₁
  cases answer with
  | error fault => rfl
  | ok rest => rfl

/-- A run can be cut. What is compared are the machines cleared of what their last action left to
look at. -/
theorem Sliceable.run_add {clear : μ → μ} (exec : μ → ExecState) {P : μ → Prop}
    (sliceable : Sliceable (tidied clear advance) P)
    (blind : ∀ remaining m, advance remaining (clear m) = advance remaining m)
    (exec_clear : ∀ m, exec (clear m) = exec m) {first second : Nat}
    (range : first + second ≤ counterMax) {m : μ} (holds : P (clear m)) :
    Prod.map id clear (run advance exec (first + second) m) =
      Prod.map id clear (runCut (run advance exec) first second m) := by
  have cut := sliceable.spend_add range holds
  rw [spend_tidied blind, spend_tidied blind] at cut
  rw [run_eq, map_conclude exec_clear, cut]
  rcases ran : spend advance first m with ⟨fault | done, m₁⟩
  -- a fault in the first part
  · have stopped : run advance exec first m = (.error fault, m₁) := by
      rw [run_eq, ran]
      rfl
    rw [runCut_error stopped]
    rfl
  -- the second part goes on where the first one ended
  · have went : run advance exec first m = (.ok { done with state := exec m₁ }, m₁) := by
      rw [run_eq, ran]
      rfl
    rw [runCut_ok went, run_eq]
    dsimp only [Prod.map_apply, id_eq]
    rw [spend_tidied blind]
    obtain ⟨answer, m₂⟩ := spend advance (first + second - done.cycles) m₁
    cases answer with
    | error fault => rfl
    | ok rest =>
      simp only [conclude, resume, Prod.map_apply, id_eq, exec_clear]
      rfl

end Microboard
