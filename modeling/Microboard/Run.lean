import Microboard.Execution
import Microboard.Timing

/-!
# Runs

A run repeats the boundary action of a core until a budget of cycles is used up. The action in
progress when the budget runs out is completed, so a run may overshoot by less than one action.
-/

namespace Microboard

/-- What a run did. -/
structure RunOutcome where
  cycles : Nat := 0
  instructions : Nat := 0
  interrupts : Nat := 0
  /-- State in which the core rests afterwards. -/
  state : ExecState := .idle
  deriving DecidableEq, Repr

def RunOutcome.tally (outcome : RunOutcome) : StepOutcome → RunOutcome
  | .retired .. => { outcome with instructions := outcome.instructions + 1 }
  | .interrupt .. => { outcome with interrupts := outcome.interrupts + 1 }
  | .idle _ => outcome

/-- Repeats an action, which is told the remaining budget, until the budget is used up or the
action faults. Every action takes at least a cycle; one that claimed to take none would be
charged one, so that a run always ends. -/
def runUntilExhausted {μ : Type} (advance : Nat → StateM μ (Except Fault StepOutcome))
    (counter : CycleCounter) (outcome : RunOutcome) (machine : μ) :
    Except Fault RunOutcome × μ :=
  if _ : counter.exhausted = false then
    match advance counter.remaining machine with
    | (.error fault, machine) => (.error fault, machine)
    | (.ok step, machine) =>
      runUntilExhausted advance (counter.charge (max 1 step.cycles)) (outcome.tally step) machine
  else
    (.ok { outcome with cycles := counter.consumed }, machine)
termination_by counter.remaining
decreasing_by exact counter.remaining_charge_lt _ ‹_› (by omega)

/-- Runs a core for at least a budget of cycles. -/
def run {μ : Type} (advance : Nat → StateM μ (Except Fault StepOutcome)) (exec : μ → ExecState)
    (budget : Nat) : StateM μ (Except Fault RunOutcome) := fun machine =>
  match runUntilExhausted advance (.start budget) {} machine with
  | (.error fault, machine) => (.error fault, machine)
  | (.ok outcome, machine) => (.ok { outcome with state := exec machine }, machine)

end Microboard
