import Microboard.Core

/-!
# Scheduling

Global time advances in quanta of fixed length. In each quantum every core in turn runs until its
own cycle count catches up with global time. Targets are computed from absolute time, so what a
core overshoots in one quantum it saves in the next. A core that faults is parked until it is
reset.
-/

namespace Microboard

/-- A scheduled core. -/
structure Slot (σ : Type) where
  core : Core σ
  /-- Cycles that the core has used or let pass as scheduled time. -/
  executed : Nat
  /-- Fault that parked the core. -/
  fault : Option Fault := none

namespace Slot

variable {σ : Type}

/-- Cycles that the core should have used at a time. -/
def target (slot : Slot σ) (now : Nat) : Nat :=
  cyclesAt now slot.core.clockHz slot.core.clocksPerCycle

end Slot

/-- Cores that share a time base. -/
structure Scheduler (σ : Type) where
  /-- Cores, in the order in which they were added. -/
  slots : List (Slot σ) := []
  /-- Length of a quantum in nanoseconds. -/
  quantum : Nat
  /-- Global time in nanoseconds. -/
  now : Nat := 0
  /-- Time moves on in every quantum. -/
  quantum_pos : 0 < quantum

namespace Scheduler

variable {σ α : Type}

/-! ## §1 Cores -/

/-- A scheduler without cores; a quantum of no length is refused. -/
def create (quantum : Nat) : Except SetupError (Scheduler σ) :=
  if h : 0 < quantum then .ok { quantum, quantum_pos := h }
  else .error (.invalidParameter "quantum_ns" "quantum must be non-zero")

def size (s : Scheduler σ) : Nat := s.slots.length

/-- Adds a core, which joins at the current time. -/
def add (s : Scheduler σ) (core : Core σ) : Scheduler σ :=
  let executed := cyclesAt s.now core.clockHz core.clocksPerCycle
  { s with slots := s.slots ++ [{ core, executed }] }

def core? (s : Scheduler σ) (id : Nat) : Option (Core σ) := s.slots[id]?.map (·.core)

def fault? (s : Scheduler σ) (id : Nat) : Option Fault := s.slots[id]?.bind (·.fault)

/-- Cycles that a core has used as scheduled time. -/
def executed? (s : Scheduler σ) (id : Nat) : Option Nat := s.slots[id]?.map (·.executed)

def describe (s : Scheduler σ) : String :=
  Text.record "Scheduler"
    [("cores", toString s.size), ("quantum_ns", toString s.quantum), ("now_ns", toString s.now)]

/-! ## §2 Slots at work -/

/-- Cores and world at work. -/
abbrev Exec (σ : Type) : Type → Type := StateM (Machine (Scheduler σ) σ)

/-- A slot at work. -/
abbrev SlotExec (σ : Type) : Type → Type := StateM (Machine (Slot σ) σ)

/-- Lets the core of a slot work. -/
@[inline] def onCore (work : Core.Exec σ α) : SlotExec σ α
  | ⟨⟨core, executed, fault⟩, world⟩ =>
    match work ⟨core, world⟩ with
    | (value, ⟨core, world⟩) => (value, ⟨⟨core, executed, fault⟩, world⟩)

/-- Lets the slot at a position of a list work. -/
def onSlotOf (work : SlotExec σ α) :
    List (Slot σ) → Nat → World σ → Option α × List (Slot σ) × World σ
  | [], _, world => (none, [], world)
  | slot :: slots, 0, world =>
    match work ⟨slot, world⟩ with
    | (value, ⟨slot, world⟩) => (some value, slot :: slots, world)
  | slot :: slots, id + 1, world =>
    match onSlotOf work slots id world with
    | (value, slots, world) => (value, slot :: slots, world)

/-- Lets one slot work; a number that no core has does nothing. -/
def onSlot (id : Nat) (work : SlotExec σ α) : Exec σ (Option α)
  | ⟨⟨slots, quantum, now, pos⟩, world⟩ =>
    match onSlotOf work slots id world with
    | (value, slots, world) => (value, ⟨⟨slots, quantum, now, pos⟩, world⟩)

/-- Lets one core work outside scheduled time. -/
def withCore (id : Nat) (work : Core.Exec σ α) : Exec σ (Option α) := onSlot id (onCore work)

/-- Resets a core and puts it back into rotation at the current time. -/
def resetCore (id : Nat) : Exec σ Unit := do
  let now := (← Machine.getCore).now
  discard <| onSlot id do
    onCore Core.reset
    Machine.modifyCore fun slot => { slot with fault := none, executed := slot.target now }

/-! ## §3 Time -/

/-- Lets a core catch up with global time. A parked core, and one that is ahead, wait. -/
def catchUp (now index : Nat) : SlotExec σ Unit := do
  let slot ← Machine.getCore
  let target := slot.target now
  if slot.fault.isSome ∨ target ≤ slot.executed then
    return ()
  let before := slot.core.totalCycles
  let name := slot.core.name
  let result ← onCore (Core.run (target - slot.executed))
  -- a run that ends with a fault has used cycles as well
  Machine.modifyCore fun slot =>
    { slot with executed := slot.executed + (slot.core.totalCycles - before) }
  match result with
  | .ok outcome =>
    Machine.record (.sliceComplete name index outcome.cycles outcome.instructions)
  | .error fault =>
    Machine.record (.coreParked name index fault)
    Machine.modifyCore ({ · with fault := some fault })

/-- Lets every core of a list catch up, in order. -/
def catchUpAll (now : Nat) : List (Slot σ) → (index : Nat) → World σ → List (Slot σ) × World σ
  | [], _, world => ([], world)
  | slot :: slots, index, world =>
    match catchUp now index ⟨slot, world⟩ with
    | ((), ⟨slot, world⟩) =>
      match catchUpAll now slots (index + 1) world with
      | (slots, world) => (slot :: slots, world)

def runQuantum : Exec σ Unit
  | ⟨⟨slots, quantum, now, pos⟩, world⟩ =>
    let now := satAdd now quantum
    match catchUpAll now slots 0 world with
    | (slots, world) => ((), ⟨⟨slots, quantum, now, pos⟩, world⟩)

theorem now_runQuantum (m : Machine (Scheduler σ) σ) :
    (runQuantum m).2.core.now = satAdd m.core.now m.core.quantum := rfl

/-- Runs whole quanta until global time reaches an instant. -/
def runUntil (instant : Nat) (machine : Machine (Scheduler σ) σ) : Machine (Scheduler σ) σ :=
  -- time stops at the end of the counter range, and so does the wait
  if machine.core.now < min instant counterMax then
    runUntil instant (runQuantum machine).2
  else
    machine
termination_by min instant counterMax - machine.core.now
decreasing_by
  have pos := machine.core.quantum_pos
  rw [now_runQuantum, satAdd]
  omega

/-- Runs whole quanta until at least a duration has passed. -/
def runFor (duration : Nat) : Exec σ Unit := fun machine =>
  ((), runUntil (satAdd machine.core.now duration) machine)

end Scheduler

end Microboard
