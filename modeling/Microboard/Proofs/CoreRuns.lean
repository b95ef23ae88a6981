import Microboard.Proofs.CoreBilling
import Microboard.Proofs.Scheduling.Drift

/-!
# Runs over spaces without wait states

- **§1** What a step adds to the counters.
- **§2** The meter of spaces that report no wait states.
- **§3** One action: it takes a whole number of beats, and is counted.
- **§4** The course of a run: its actions, one after the other.
- **§5** What the actions of a course add up to.
- **§6** What a run says of itself.
-/

namespace Microboard

variable {σ : Type}

/-! ## §1 Counts -/

/-- Instructions that a step retires. -/
def StepOutcome.instructions : StepOutcome → Nat
  | .retired .. => 1
  | .interrupt .. | .idle _ => 0

/-- Interrupts that a step enters. -/
def StepOutcome.interrupts : StepOutcome → Nat
  | .interrupt .. => 1
  | .retired .. | .idle _ => 0

theorem RunOutcome.instructions_ofStep (step : StepOutcome) :
    (ofStep step).instructions = step.instructions := by
  cases step <;> rfl

theorem RunOutcome.interrupts_ofStep (step : StepOutcome) :
    (ofStep step).interrupts = step.interrupts := by
  cases step <;> rfl

/-- Counting a step adds what it did, as long as the counters have room. -/
theorem Tally.add_counts (tally : Tally) (step : StepOutcome) :
    (tally.instructions + step.instructions ≤ counterMax →
        (tally.add step).instructions = tally.instructions + step.instructions) ∧
      (tally.interrupts + step.interrupts ≤ counterMax →
        (tally.add step).interrupts = tally.interrupts + step.interrupts) := by
  cases step with
  | retired pc cycles => exact ⟨satAdd_eq, fun _ => rfl⟩
  | interrupt vector cycles => exact ⟨fun _ => rfl, satAdd_eq⟩
  | idle cycles => exact ⟨fun _ => rfl, fun _ => rfl⟩

/-! ## §2 No wait states -/

/-- Nothing ever waits. -/
def Meter.free (P : σ → Prop) : Meter σ where
  fits := P
  pending _ _ := 0
  tariff _ _ := 0
  pending_le _ _ := Nat.zero_le _

theorem Space.WaitFree.seats {P : σ → Prop} {space : Space σ} (free : space.WaitFree P)
    (seat : Nat) : (Meter.free P).Seats seat space where
  read address devices fits := by
    refine ⟨free.read address devices fits, fun other => ?_⟩
    simp only [Meter.free, Meter.access, ite_self, Nat.add_zero, Nat.zero_min]
  write address value devices fits := by
    refine ⟨free.write address value devices fits, fun other => ?_⟩
    simp only [Meter.free, Meter.access, ite_self, Nat.add_zero, Nat.zero_min]
  takes devices fits := by
    refine ⟨?_, free.takes devices fits, fun other => (ite_self 0).symm⟩
    rw [free.none devices fits]
    rfl

/-- No bus cycle costs anything. -/
theorem Meter.own_free (P : σ → Prop) (seating : Seating) (bus : List BusCycle) :
    (Meter.free P).own seating bus = 0 := by
  unfold own
  rw [List.sum_eq_zero]
  intro cost member
  obtain ⟨cycle, -, rfl⟩ := List.mem_map.mp member
  unfold Meter.cost
  split <;> rfl

theorem Meter.left_free (P : σ → Prop) (seats : Finset Nat) (devices : σ) :
    ∑ seat ∈ seats, (Meter.free P).pending seat devices = 0 :=
  Finset.sum_const_zero

namespace Core

/-- All spaces of a core at one seat. -/
def soleSeat : Wiring σ → Seating
  | .inl _, .program => some 0
  | .inr _, .program | .inr _, .data | .inr _, .io => some 0
  | _, _ => none

variable {P : σ → Prop} {w : Wiring σ}

theorem WaitFree.seated (free : WaitFree P w) : Seated (.free P) (soleSeat w) w := by
  cases w with
  | inl w =>
    obtain ⟨program, sink⟩ := free
    exact
      { program := ⟨0, rfl, program.seats 0⟩
        data := rfl
        io := rfl
        core := rfl
        sink := fun line asserted devices fits =>
          ⟨sink line asserted devices fits, fun _ => rfl⟩ }
  | inr w =>
    obtain ⟨⟨program, data, io⟩, sink⟩ := free
    exact
      { program := ⟨0, rfl, program.seats 0⟩
        data := ⟨0, rfl, data.seats 0⟩
        io := ⟨0, rfl, io.seats 0⟩
        core := rfl
        sink := fun line asserted devices fits =>
          ⟨sink line asserted devices fits, fun _ => rfl⟩ }

/-! ## §3 One action -/

/-- Cycles of a beat: an SM83 core works in machine cycles of four clocks. -/
def beat : Wiring σ → Nat
  | .inl _ => 4
  | .inr _ => 1

/-- What a core charges is a whole number of beats. -/
theorem beat_dvd {core : Core σ} {bus : List BusCycle} {step : StepOutcome}
    (covers : core.bill.Covers bus 0 step) : beat core.wiring ∣ step.cycles := by
  cases core with
  | ucom4 w s => exact Nat.one_dvd _
  | sm83 w s =>
    cases step with
    | idle cycles => exact covers.2
    | interrupt vector cycles =>
      obtain rfl : cycles = Sm83.interruptCycles := covers
      exact ⟨5, rfl⟩
    | retired pc cycles =>
      obtain rfl : cycles = Sm83.tableCost s.regs bus := covers
      show 4 ∣ Sm83.tableCost s.regs bus
      cases fetched : Sm83.operation? bus with
      | some op => exact Nat.dvd_of_mod_eq_zero (Sm83.tableCost_timed fetched).1
      | none =>
        unfold Sm83.tableCost
        rw [fetched]
        exact Nat.dvd_zero 4

/-- A completed action: it took some beats, no more than it may, and was counted, unless it entered
reset. -/
structure Completes (P : σ → Prop) (w : Wiring σ) (remaining : Nat) (m : Machine (Core σ) σ)
    (step : StepOutcome) (m' : Machine (Core σ) σ) : Prop where
  works : Works (DevicesHave P) w m'
  least : 0 < step.cycles
  beats : beat w ∣ step.cycles
  most : step.cycles ≤ max 1 remaining + slack 0 w
  clock : m'.core.totalCycles = satAdd m.core.totalCycles step.cycles
  tally : m'.core.status.tally = m.core.status.tally.add step ∨
    (m.core.status.inReset = false ∧ m'.core.status.inReset = true)

theorem completes (free : WaitFree P w) {m m' : Machine (Core σ) σ}
    (works : Works (DevicesHave P) w m) {remaining : Nat} {step : StepOutcome} (acts : advance remaining m = (.ok step, m')) :
    Completes P w remaining m step m' := by
  obtain ⟨holds, rfl⟩ := works
  have billed := advance_billed free.seated holds remaining
  have accounts := metered free.calm m.core.totalCycles remaining m ⟨⟨holds, rfl⟩, rfl⟩
  rw [acts] at billed accounts
  obtain ⟨works, least, most, -⟩ := accounts
  obtain ⟨-, covers, tally⟩ := billed
  rw [Meter.own_free, Meter.left_free] at covers
  refine ⟨works, least, beat_dvd covers, most, ?_, ?_⟩
  · rcases tally with counted | ⟨clock, -⟩
    · have clock := congrArg Tally.clock counted
      cases step <;> exact clock
    · exact clock
  · exact tally.imp_right (·.2)

/-- A fault leaves the counts alone. -/
theorem faults (free : WaitFree P w) {m m' : Machine (Core σ) σ} (works : Works (DevicesHave P) w m)
    {remaining : Nat} {fault : Fault} (acts : advance remaining m = (.error fault, m')) :
    m'.core.status.tally = m.core.status.tally := by
  obtain ⟨holds, rfl⟩ := works
  have billed := advance_billed free.seated holds remaining
  rw [acts] at billed
  exact billed.tally

/-! ## §4 The course of a run -/

/-- One action of a run: what it did, and whether the core entered reset on it. -/
structure Lap where
  step : StepOutcome
  entersReset : Bool

/-- The action of a machine that leaves another one. -/
def Lap.of (step : StepOutcome) (m m' : Machine (Core σ) σ) : Lap where
  step := step
  entersReset := !m.core.status.inReset && m'.core.status.inReset

/-- A run, action by action. What an action took is charged as it is, so one that took nothing
would leave the budget as it was. The run ends when nothing is left of the budget, or with a
fault. -/
inductive Course : Nat → Machine (Core σ) σ → List Lap → Option Fault → Machine (Core σ) σ → Prop
  | done (m : Machine (Core σ) σ) : Course 0 m [] none m
  | fault {budget : Nat} {m m' : Machine (Core σ) σ} {fault : Fault} : 0 < budget →
      advance budget m = (.error fault, m') → Course budget m [] (some fault) m'
  | step {budget : Nat} {m m' m'' : Machine (Core σ) σ} {step : StepOutcome} {laps : List Lap}
      {ending : Option Fault} : 0 < budget → advance budget m = (.ok step, m') →
      Course (budget - step.cycles) m' laps ending m'' →
      Course budget m (.of step m m' :: laps) ending m''

/-- Cycles of the actions of a run. -/
def cyclesOf (laps : List Lap) : Nat := (laps.map (·.step.cycles)).sum

/-- Instructions that the actions of a run retired. -/
def instructionsOf (laps : List Lap) : Nat := (laps.map (·.step.instructions)).sum

/-- Interrupts that the actions of a run entered. -/
def interruptsOf (laps : List Lap) : Nat := (laps.map (·.step.interrupts)).sum

/-- What a run answers at the end of its course. -/
def verdict (laps : List Lap) (ending : Option Fault) (state : ExecState) :
    Except Fault RunOutcome :=
  match ending with
  | some fault => .error fault
  | none => .ok
    { cycles := min (cyclesOf laps) counterMax
      instructions := instructionsOf laps
      interrupts := interruptsOf laps
      state }

/-- An action comes before the rest of its run. -/
theorem append_verdict {step : StepOutcome} (least : 0 < step.cycles) (m m' : Machine (Core σ) σ)
    (laps : List Lap) (ending : Option Fault) {μ : Type} (rest : μ) :
    resume (.ofStep step) (verdict laps ending .idle, rest) =
      (verdict (.of step m m' :: laps) ending .idle, rest) := by
  cases ending with
  | some fault => rfl
  | none =>
    have cycles : satAdd (satAdd 0 (max 1 step.cycles)) (min (cyclesOf laps) counterMax) =
        min (cyclesOf (.of step m m' :: laps)) counterMax := by
      show _ = min (step.cycles + cyclesOf laps) counterMax
      unfold satAdd
      omega
    unfold resume verdict RunOutcome.append
    dsimp only
    rw [RunOutcome.cycles_ofStep, cycles, RunOutcome.instructions_ofStep,
      RunOutcome.interrupts_ofStep]
    rfl

/-- A run follows its course to the end. -/
theorem spend_course (free : WaitFree P w) {budget : Nat} (range : budget ≤ counterMax)
    {m : Machine (Core σ) σ} (works : Works (DevicesHave P) w m) :
    ∃ laps ending, Course budget m laps ending (spend advance budget m).2 ∧
      (spend advance budget m).1 = verdict laps ending .idle := by
  induction budget using Nat.strongRecOn generalizing m with
  | ind budget ih =>
  by_cases pos : 0 < budget
  · rw [spend_step m pos range]
    cases acts : advance budget m with
    | mk answer m' =>
    cases answer with
    | error fault => exact ⟨[], some fault, .fault pos acts, rfl⟩
    | ok step =>
      -- every action takes a cycle at least, so less is left of the budget
      have done_ := completes free works acts
      have least := done_.least
      obtain ⟨laps, ending, course, answers⟩ := ih (budget - step.cycles) (by omega) (by omega)
        done_.works
      have rest : spend advance (budget - step.cycles) m' =
          (verdict laps ending .idle, (spend advance (budget - step.cycles) m').2) :=
        Prod.ext answers rfl
      refine ⟨.of step m m' :: laps, ending, ?_⟩
      dsimp only
      rw [Nat.max_eq_right least, rest, append_verdict least m m']
      exact ⟨.step pos acts course, rfl⟩
  · obtain rfl : budget = 0 := by omega
    rw [spend_zero]
    exact ⟨[], none, .done m, rfl⟩

/-! ## §5 What a course adds up to -/

namespace Course

variable {budget : Nat} {m m' : Machine (Core σ) σ} {laps : List Lap} {ending : Option Fault}

/-- Every action takes some beats. -/
theorem beats (course : Course budget m laps ending m') (free : WaitFree P w)
    (works : Works (DevicesHave P) w m) :
    ∀ lap ∈ laps, 0 < lap.step.cycles ∧ beat w ∣ lap.step.cycles := by
  induction course with
  | done | fault => exact fun _ member => nomatch member
  | step pos acts _ ih =>
    have done_ := completes free works acts
    exact List.forall_mem_cons.mpr ⟨⟨done_.least, done_.beats⟩, ih done_.works⟩

/-- A run that ends without a fault has used up its budget. -/
theorem enough (course : Course budget m laps ending m') (orderly : ending = none) :
    budget ≤ cyclesOf laps := by
  induction course with
  | done => exact Nat.zero_le _
  | fault => cases orderly
  | @step budget m m' _ step laps _ _ _ _ ih =>
    have rest := ih orderly
    show budget ≤ step.cycles + cyclesOf laps
    omega

/-- Only the last action of a run may pass the budget. -/
theorem most (course : Course budget m laps ending m') (free : WaitFree P w)
    (works : Works (DevicesHave P) w m) (pos : 0 < budget) :
    cyclesOf laps ≤ budget + slack 0 w := by
  induction course with
  | done => exact absurd pos (Nat.lt_irrefl 0)
  | fault => exact Nat.zero_le _
  | @step budget m m' _ step laps _ _ acts rest ih =>
    have done_ := completes free works acts
    have most := done_.most
    show step.cycles + cyclesOf laps ≤ _
    by_cases last : budget ≤ step.cycles
    -- the action that uses the budget up is the last one
    · have none_ : laps = [] := by
        rw [Nat.sub_eq_zero_of_le last] at rest
        cases rest with
        | done => rfl
        | fault pos => exact absurd pos (Nat.lt_irrefl 0)
        | step pos => exact absurd pos (Nat.lt_irrefl 0)
      subst none_
      have nothing : cyclesOf [] = 0 := rfl
      omega
    · have later := ih done_.works (by omega)
      omega

/-- The clock moves on by the cycles of the actions. -/
theorem clock (course : Course budget m laps ending m') (free : WaitFree P w)
    (works : Works (DevicesHave P) w m) (range : m.core.totalCycles + cyclesOf laps ≤ counterMax) :
    m'.core.totalCycles = m.core.totalCycles + cyclesOf laps := by
  induction course with
  | done => rfl
  | fault pos acts => exact congrArg Tally.clock (faults free works acts)
  | @step budget m m' _ step laps _ _ acts rest ih =>
    have done_ := completes free works acts
    have whole : cyclesOf (.of step m m' :: laps) = step.cycles + cyclesOf laps := rfl
    have moved : m'.core.totalCycles = m.core.totalCycles + step.cycles := by
      rw [done_.clock, satAdd_eq (by omega)]
    rw [ih done_.works (by omega), whole]
    omega

/-- The counters of a core that enters no reset move on by the instructions and the interrupts. -/
theorem counters (course : Course budget m laps ending m') (free : WaitFree P w)
    (works : Works (DevicesHave P) w m) (running : ∀ lap ∈ laps, lap.entersReset = false) :
    (m.core.diagnostics.instructions + instructionsOf laps ≤ counterMax →
        m'.core.diagnostics.instructions =
          m.core.diagnostics.instructions + instructionsOf laps) ∧
      (m.core.diagnostics.interrupts + interruptsOf laps ≤ counterMax →
        m'.core.diagnostics.interrupts = m.core.diagnostics.interrupts + interruptsOf laps) := by
  induction course with
  | done => exact ⟨fun _ => rfl, fun _ => rfl⟩
  | fault pos acts =>
    have same := faults free works acts
    exact ⟨fun _ => congrArg Tally.instructions same, fun _ => congrArg Tally.interrupts same⟩
  | @step budget m m' _ step laps _ _ acts rest ih =>
    obtain ⟨first, others⟩ := List.forall_mem_cons.mp running
    have done_ := completes free works acts
    obtain ⟨instructions, interrupts⟩ := ih done_.works others
    have tally : m'.core.status.tally = m.core.status.tally.add step := by
      rcases done_.tally with counted | ⟨was, is⟩
      · exact counted
      · have enters : (Lap.of step m m').entersReset = true := by
          unfold Lap.of
          rw [was, is]
          rfl
        exact nomatch first.symm.trans enters
    obtain ⟨retired, entered⟩ := m.core.status.tally.add_counts step
    rw [← tally] at retired entered
    constructor
    · intro range
      have whole : instructionsOf (.of step m m' :: laps) =
        step.instructions + instructionsOf laps := rfl
      have moved : m'.core.diagnostics.instructions =
        m.core.diagnostics.instructions + step.instructions :=
          retired (show m.core.diagnostics.instructions + _ ≤ _ by omega)
      rw [instructions (by omega)]
      omega
    · intro range
      have whole : interruptsOf (.of step m m' :: laps) =
        step.interrupts + interruptsOf laps := rfl
      have moved : m'.core.diagnostics.interrupts =
        m.core.diagnostics.interrupts + step.interrupts :=
          entered (show m.core.diagnostics.interrupts + _ ≤ _ by omega)
      rw [interrupts (by omega)]
      omega

end Course

/-! ## §6 Runs -/

/-- A run follows a course to its end and answers for it. -/
theorem run_course (free : WaitFree P w) {budget : Nat} (range : budget ≤ counterMax)
    {m : Machine (Core σ) σ} (works : Works (DevicesHave P) w m) :
    ∃ laps ending, Course budget m laps ending (run budget m).2 ∧
      (run budget m).1 = verdict laps ending (run budget m).2.core.exec := by
  obtain ⟨laps, ending, course, answers⟩ := spend_course free range works
  refine ⟨laps, ending, ?_⟩
  unfold run
  rw [run_eq]
  revert course answers
  obtain ⟨answer, m'⟩ := spend advance budget m
  rintro course rfl
  cases ending <;> exact ⟨course, rfl⟩

/-- Only a run without a fault has an outcome, which says what its actions add up to. -/
theorem verdict_ok {laps : List Lap} {ending : Option Fault} {state : ExecState}
    {outcome : RunOutcome} (answers : verdict laps ending state = .ok outcome) :
    ending = none ∧ outcome.cycles = min (cyclesOf laps) counterMax ∧
      outcome.instructions = instructionsOf laps ∧ outcome.interrupts = interruptsOf laps := by
  cases ending with
  | some fault => cases answers
  | none =>
    obtain rfl := Except.ok.inj answers
    exact ⟨rfl, rfl, rfl, rfl⟩

/-- What a run does to the clock and to the counters of a core. -/
structure Adds (laps : List Lap) (before after : Core σ) : Prop where
  clock : before.totalCycles + cyclesOf laps ≤ counterMax →
    after.totalCycles = before.totalCycles + cyclesOf laps
  instructions : (∀ lap ∈ laps, lap.entersReset = false) →
    before.diagnostics.instructions + instructionsOf laps ≤ counterMax →
      after.diagnostics.instructions = before.diagnostics.instructions + instructionsOf laps
  interrupts : (∀ lap ∈ laps, lap.entersReset = false) →
    before.diagnostics.interrupts + interruptsOf laps ≤ counterMax →
      after.diagnostics.interrupts = before.diagnostics.interrupts + interruptsOf laps

/-- A completed run is paid for: it used up the budget and passed it by less than an instruction,
and it says itself what it adds to the core. -/
structure Pays (budget : Nat) (laps : List Lap) (before : Core σ) (outcome : RunOutcome) :
    Prop where
  least : budget ≤ outcome.cycles
  most : 0 < budget → outcome.cycles ≤ budget + before.overshoot
  cycles : before.totalCycles + cyclesOf laps ≤ counterMax → outcome.cycles = cyclesOf laps
  instructions : outcome.instructions = instructionsOf laps
  interrupts : outcome.interrupts = interruptsOf laps

/-- Over spaces that report no wait states every action takes some beats, and a run is a course of
such actions: what they took is added to the clock, and unless the core enters reset they are
counted; without a fault the run uses up its budget and overshoots by less than an instruction. -/
theorem run_accounts_for_actions (free : WaitFree P w) {budget : Nat} (range : budget ≤ counterMax)
    (m : Machine (Core σ) σ) (works : Works (DevicesHave P) w m) :
    (∀ remaining step, (advance remaining m).1 = .ok step →
      0 < step.cycles ∧ beat w ∣ step.cycles) ∧
    ∃ laps ending, Course budget m laps ending (run budget m).2 ∧
      (run budget m).1 = verdict laps ending (run budget m).2.core.exec ∧
      (∀ lap ∈ laps, 0 < lap.step.cycles ∧ beat w ∣ lap.step.cycles) ∧
      Adds laps m.core (run budget m).2.core ∧
      ∀ outcome, (run budget m).1 = .ok outcome → Pays budget laps m.core outcome := by
  refine ⟨fun remaining step acts => ?_, ?_⟩
  · have done_ := completes free works (Prod.ext acts rfl)
    exact ⟨done_.least, done_.beats⟩
  obtain ⟨laps, ending, course, answers⟩ := run_course free range works
  refine ⟨laps, ending, course, answers, course.beats free works, ?_, fun outcome completed => ?_⟩
  · exact
      { clock := course.clock free works
        instructions := fun running => (course.counters free works running).1
        interrupts := fun running => (course.counters free works running).2 }
  · obtain ⟨orderly, cycles, instructions, interrupts⟩ := verdict_ok (answers.symm.trans completed)
    refine ⟨?_, fun pos => ?_, fun unsaturated => ?_, instructions, interrupts⟩
    · have enough := course.enough orderly
      omega
    · have most := course.most free works pos
      rw [← works.2, ← Slot.overshoot_eq] at most
      omega
    · omega

/-- A core over a single cell, run for a budget that its first instruction does not use up. -/
theorem run_accounts_for_actions_cell :
    let w : Sm83.Wiring UInt8 := .cell id (fun value _ => value) 0
    let m : Machine (Core UInt8) UInt8 := ⟨.sm83 w {}, ⟨0, { latches := [.released 6] }, {}⟩⟩
    WaitFree (fun _ => True) (.inl w) ∧
    ∃ laps ending, Course 5 m laps ending (run 5 m).2 ∧
      Adds laps m.core (run 5 m).2.core ∧
      ∀ outcome, (run 5 m).1 = .ok outcome → Pays 5 laps m.core outcome := by
  intro w m
  have free : WaitFree (fun _ => True) (.inl w) :=
    ⟨⟨fun _ _ _ => trivial, fun _ _ _ _ => trivial, fun _ _ => rfl, fun _ _ => trivial⟩,
      fun _ _ _ _ => trivial⟩
  obtain ⟨-, laps, ending, course, -, -, adds, pays⟩ :=
    run_accounts_for_actions free (by decide : 5 ≤ counterMax) m ⟨trivial, rfl⟩
  exact ⟨free, laps, ending, course, adds, pays⟩

end Core

end Microboard
