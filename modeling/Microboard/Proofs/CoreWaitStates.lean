import Microboard.Proofs.CoreHolding
import Microboard.Proofs.CoreOverflows
import Microboard.Proofs.CoreRestarting
import Microboard.Proofs.Sm83.Refusing

/-!
# Wait states that are counted

Wait states are taken from the spaces when an action ends. They are added to its cycles and to a
counter on the same occasion, so the counter shows by how much the actions have exceeded the table.
A reset of a uCOM-4 core takes wait states as well, those of the ports that it drives low. It counts
them when the counter has been cleared already, and there is no action whose cycles they could be
added to.

- **§1** What an action adds to the counter.
- **§2** SM83 actions.
- **§3** uCOM-4 actions.
- **§4** Actions and resets of either family.
- **§5** Histories, told with the wait states that were met.
-/

namespace Microboard

variable {σ : Type}

/-! ## §1 Counters -/

/-- Cycles by which an action exceeds the table; it does not if it fails. -/
def Bill.excess (bill : Bill) (bus : List BusCycle) : Except Fault StepOutcome → Nat
  | .ok step => step.cycles - bill.due bus 0 step
  | .error _ => 0

/-- An action has counted the wait states that it took on top of its table. One that idles or fails
has counted none. -/
inductive Counts (bill : Bill) (before : Nat) : Except Fault StepOutcome → CoreStatus → Prop where
  | retired {status : CoreStatus} {place : UInt32} {cycles : Nat} (waits : Nat) :
      cycles = bill.instruction status.bus + waits →
      status.diagnostics.waitStates = satAdd before waits →
      Counts bill before (.ok (.retired place cycles)) status
  | interrupt {status : CoreStatus} {vector : UInt32} {cycles : Nat} (waits : Nat) :
      cycles = bill.interrupt + waits → status.diagnostics.waitStates = satAdd before waits →
      Counts bill before (.ok (.interrupt vector cycles)) status
  | idle {status : CoreStatus} (cycles : Nat) :
      status.diagnostics.waitStates = before → Counts bill before (.ok (.idle cycles)) status
  | refused {status : CoreStatus} (fault : Fault) :
      status.diagnostics.waitStates = before → Counts bill before (.error fault) status

namespace Counts

variable {bill : Bill} {before : Nat} {answer : Except Fault StepOutcome} {status : CoreStatus}

/-- What was counted is what the action took beyond the table. -/
theorem waitStates (counts : Counts bill before answer status) (range : before ≤ counterMax) :
    status.diagnostics.waitStates = satAdd before (bill.excess status.bus answer) := by
  cases counts with
  | retired waits cycles counted | interrupt waits cycles counted =>
    simp [counted, cycles, Bill.excess, Bill.due, StepOutcome.cycles]
  | idle cycles counted =>
    simp [counted, Bill.excess, Bill.due, StepOutcome.cycles, satAdd, range]
  | refused fault counted => simp [counted, Bill.excess, satAdd, range]

/-- No action takes less than the table says. -/
theorem due_le {step : StepOutcome} (counts : Counts bill before (.ok step) status) :
    bill.due status.bus 0 step ≤ step.cycles := by
  cases counts with
  | retired waits cycles | interrupt waits cycles =>
    simp [cycles, Bill.due, StepOutcome.cycles]
  | idle => exact Nat.le_refl _

end Counts

/-- A counter that has been cleared has room for any wait states. -/
theorem waitStates_recorded (waits : UInt32) :
    (({} : Diagnostics).recordWaitStates waits).waitStates = waits.toNat := by
  have small := waits.toNat_lt
  show satAdd 0 waits.toNat = _
  unfold satAdd counterMax
  omega

/-! ## §2 SM83 -/

namespace Sm83

variable {w : Wiring σ} {op : Op} {counted : Nat}

/-- The bus cycles so far have fetched an operation, and the counter of wait states has a
reading. -/
structure Running (op : Op) (counted : Nat) (m : Machine State σ) : Prop where
  fetched : operation? m.core.bus = some op
  counted : m.core.diagnostics.waitStates = counted

/-- No part of an instruction takes bus cycles back or counts wait states. -/
theorem respects_running (w : Wiring σ) (op : Op) (counted : Nat) :
    Respects w w (Both (Running op counted)) where
  regs := by
    rintro m _ ⟨rfl, -⟩
    rfl
  change _ := Keeps.lockstep fun _ ⟨fetched, counted⟩ => ⟨fetched, counted⟩
  enable := Keeps.lockstep fun _ ⟨fetched, counted⟩ => ⟨fetched, counted⟩
  disable := Keeps.lockstep fun _ ⟨fetched, counted⟩ => ⟨fetched, counted⟩
  enableLater := Keeps.lockstep fun _ ⟨fetched, counted⟩ => ⟨fetched, counted⟩
  repeatFetch := Keeps.lockstep fun _ ⟨fetched, counted⟩ => ⟨fetched, counted⟩
  enterHalt _ := Keeps.lockstep fun _ ⟨fetched, counted⟩ => ⟨fetched, counted⟩
  read8 address := Keeps.lockstep fun m ⟨fetched, counted⟩ => by
    rw [read8_eq]
    exact ⟨operation?_append fetched _, counted⟩
  write8 address value := Keeps.lockstep fun m ⟨fetched, counted⟩ => by
    rw [write8_eq]
    exact ⟨operation?_append fetched _, counted⟩

theorem tableCost_fetched {bus : List BusCycle} (fetched : operation? bus = some op)
    (regs : Registers) : tableCost regs bus = op.cycles regs := by
  unfold tableCost
  rw [fetched]
  rfl

/-- Once its opcode is on the bus, an instruction answers what its operation costs. -/
theorem execute_running (w : Wiring σ) {first : BusCycle} {m : Machine State σ}
    (bus : m.core.bus = [first]) :
    ∃ op, (execute w (decode first.value) m).1 = op.cycles m.core.regs ∧
      Running op m.core.diagnostics.waitStates (execute w (decode first.value) m).2 := by
  unfold execute
  rw [eval_ite]
  split
  next page =>
    -- the second byte of the opcode is the next bus cycle
    have read := read8_eq w m.core.regs.pc m
    have second : Running (decodeSecond (fetch8 w m).1) m.core.diagnostics.waitStates
        (fetch8 w m).2 := by
      constructor
      · show operation? (read8 w m.core.regs.pc m).2.core.bus = _
        rw [congrArg (fun read => read.2.core.bus) read, bus]
        exact (if_pos page).trans (congrArg (some <| decodeSecond ·) (congrArg Prod.fst read).symm)
      · show (read8 w m.core.regs.pc m).2.core.diagnostics.waitStates = _
        rw [read]
    refine ⟨_, ?_, ((respects_running w _ _).performCosted _).keeps _ second⟩
    rw [eval_bind, performCosted_answer]
    exact Op.cycles_congr _ (flags_fetch8 w m)
  next page =>
    have fetched : operation? m.core.bus = some (decode first.value) := by
      rw [bus, operation?_cons, if_neg page]
    exact ⟨_, performCosted_answer w _ m,
      ((respects_running w _ _).performCosted _).keeps m ⟨fetched, rfl⟩⟩

theorem retire_counts (w : Wiring σ) (pc : UInt16) (opcode : UInt8) {m : Machine State σ}
    (running : Running op counted m) (regs : Registers) :
    Counts (bill regs) counted (.ok (retire w pc opcode (op.cycles regs) m).1)
      (retire w pc opcode (op.cycles regs) m).2.core.toCoreStatus := by
  obtain ⟨fetched, rfl⟩ := running
  -- wait states are counted on the way, and a core that has halted stays halted
  have ends (cost : Nat) : ∃ waits,
      (retire w pc opcode cost m).1 = .retired pc.toUInt32 (cost + waits) ∧
      (retire w pc opcode cost m).2.core.bus = m.core.bus ∧
      (retire w pc opcode cost m).2.core.diagnostics.waitStates =
        satAdd m.core.diagnostics.waitStates waits := by
    obtain ⟨⟨⟨exec⟩⟩, world⟩ := m
    cases exec <;> exact ⟨_, rfl, rfl, rfl⟩
  obtain ⟨waits, answer, bus, counted⟩ := ends (op.cycles regs)
  rw [answer]
  refine .retired waits ?_ counted
  rw [bus]
  exact congrArg (· + waits) (tableCost_fetched fetched regs).symm

theorem runFetched_counts (w : Wiring σ) (pc : UInt16) {first : BusCycle} {m : Machine State σ}
    (bus : m.core.bus = [first]) :
    Counts (bill m.core.regs) m.core.diagnostics.waitStates (runFetched w pc first.value m).1
      (runFetched w pc first.value m).2.core.toCoreStatus := by
  unfold runFetched
  rw [eval_ite]
  split
  next illegal =>
    have fetched : operation? m.core.bus = some .illegal := by
      rw [bus, operation?_cons, illegal]
      rfl
    rw [eval_bind, eval_bind, illegal]
    cases w.config.policy with
    | fatal => exact .refused _ rfl
    | nop =>
      refine retire_counts w pc first.value (m := ⟨{ m.core with
        diagnostics := m.core.diagnostics.recordIllegal pc.toUInt32 first.value }, _⟩)
        ⟨fetched, rfl⟩ m.core.regs
  next legal =>
    obtain ⟨op, cost, running⟩ := execute_running w bus
    rw [eval_bind, cost]
    exact retire_counts w pc first.value running m.core.regs

theorem bill_congr {r r' : Registers} (flags : r.f = r'.f) : bill r = bill r' := by
  unfold bill tableCost
  simp only [Op.cycles_congr _ flags]

theorem runInstruction_counts (w : Wiring σ) {m : Machine State σ} (fresh : m.core.bus = []) :
    Counts (bill m.core.regs) m.core.diagnostics.waitStates (runInstruction w m).1
      (runInstruction w m).2.core.toCoreStatus := by
  let fetched := (fetchOpcode w (begun m)).2
  have bus := bus_fetchOpcode w (begun m)
  rw [show (begun m).core.bus = [] from fresh, List.nil_append] at bus
  have flags : fetched.core.regs.f = m.core.regs.f := by
    show (fetchOpcode w (begun m)).2.core.regs.f = _
    rw [regs_fetchOpcode]
    rfl
  have diagnostics : fetched.core.diagnostics = m.core.diagnostics := by
    show (fetchOpcode w (begun m)).2.core.diagnostics = _
    rw [fetchOpcode_eq, read8_eq, State.fetched_eq]
    rfl
  rw [← bill_congr flags, ← diagnostics]
  exact runFetched_counts w m.core.regs.pc bus

theorem service_counts (w : Wiring σ) (source : InputLine) (m : Machine State σ)
    (regs : Registers) :
    Counts (bill regs) m.core.diagnostics.waitStates (.ok (service w source m).1)
      (service w source m).2.core.toCoreStatus := by
  rw [service_handler, enterHandler_eq w source rfl]
  exact .interrupt _ rfl rfl

theorem stayHalted_counts (w : Wiring σ) (remaining : Nat) (raised : UInt8) (m : Machine State σ)
    (regs : Registers) :
    Counts (bill regs) m.core.diagnostics.waitStates (.ok (stayHalted w remaining raised m).1)
      (stayHalted w remaining raised m).2.core.toCoreStatus := by
  rw [stayHalted_eq]
  split <;> exact .idle _ rfl

theorem waitStates_reset (w : Wiring σ) (m : Machine State σ) :
    (reset w m).2.core.diagnostics.waitStates = 0 := by
  obtain ⟨outputs, log, left⟩ := reset_eq w m
  rw [left]
  rfl

/-- A core that looks at an active line clears the counter, unless the line holds it already. -/
theorem waitStates_held {m : Machine State σ} (active : ¬Released w m) :
    (sampleReset w (unobserved m)).2.core.diagnostics.waitStates =
      if m.core.inReset then m.core.diagnostics.waitStates else 0 := by
  rw [sampleReset_core (m := unobserved m) (eq_true_of_ne_false active)]
  unfold State.looked unobserved
  cases m.core.inReset with
  | true => rfl
  | false => exact waitStates_reset w _

/-- The line takes the core, which clears the counter and idles. -/
theorem advance_restarts {m : Machine State σ} (awake : m.core.exec.latchedFault? = none)
    (active : ¬Released w m) (free : m.core.inReset = false) (remaining : Nat)
    (regs : Registers) :
    Counts (bill regs) 0 (advance w remaining m).1 (advance w remaining m).2.core.toCoreStatus := by
  have counted := waitStates_held active
  rw [if_neg (ne_true_of_eq_false free)] at counted
  rw [advance_held awake active]
  exact .idle _ counted

theorem advance_counts {m : Machine State σ}
    (stays : m.core.exec.latchedFault? = none → ¬Released w m → m.core.inReset = true)
    (remaining : Nat) :
    Counts (bill m.core.regs) m.core.diagnostics.waitStates (advance w remaining m).1
      (advance w remaining m).2.core.toCoreStatus := by
  cases latched : m.core.exec.latchedFault? with
  | some fault =>
    rw [advance_eq, latched]
    exact .refused fault rfl
  | none =>
    by_cases released : Released w m
    case neg =>
      -- the line holds the core already, which is not reset again
      have counted := waitStates_held released
      rw [if_pos (stays latched released)] at counted
      rw [advance_held latched released]
      exact .idle _ counted
    case pos =>
      -- to look at the lines counts nothing and leaves the flags alone, so the bill is the same
      have core := sample_core released
      have fresh : (sample w m).2.core.bus = [] := by rw [core]
      have diagnostics : (sample w m).2.core.diagnostics = m.core.diagnostics := by rw [core]
      have flags : (sample w m).2.core.regs.f = m.core.regs.f := by rw [core]
      rw [advance_sampled latched released, eval_bind, ← diagnostics, ← bill_congr flags]
      rcases act_cases w remaining (sample w m).1 (sample w m).2 with
        ⟨-, acts⟩ | ⟨-, acts | ⟨source, -, -, -, acts⟩⟩
      · rw [acts, Prod.map_fst, Prod.map_snd, id_eq]
        exact stayHalted_counts w remaining _ _ _
      · rw [acts]
        exact runInstruction_counts w
          (m := ⟨{ (sample w m).2.core with eiDelay := false }, _⟩) fresh
      · rw [acts, Prod.map_fst, Prod.map_snd, id_eq]
        exact service_counts w source _ _

end Sm83

/-! ## §3 uCOM-4 -/

namespace Ucom4

variable {w : Wiring σ} {first : BusCycle} {counted : Nat} {skip : Bool}

/-- The first bus cycle of an instruction is known, and the counter of wait states has a reading. -/
structure Running (first : BusCycle) (counted : Nat) (m : Machine State σ) : Prop where
  begins : m.core.bus.head? = some first
  counted : m.core.diagnostics.waitStates = counted

theorem Running.observe {m : Machine State σ} (running : Running first counted m) (cycle : BusCycle)
    (world : World σ) :
    Running first counted ⟨{ m.core with bus := m.core.bus ++ [cycle] }, world⟩ := by
  obtain ⟨begins, counted⟩ := running
  exact ⟨by simp [List.head?_append, begins], counted⟩

/-- No elementary operation of an instruction touches either. -/
theorem respects_running (w : Wiring σ) (first : BusCycle) (counted : Nat) :
    Respects w w (Both (Running first counted)) where
  config := rfl
  regs := by
    rintro m _ ⟨rfl, -⟩
    exact ⟨_, rfl⟩
  lastPc := by
    rintro m _ ⟨rfl, -⟩
    rfl
  change _ := Keeps.lockstep fun _ ⟨begins, counted⟩ => ⟨begins, counted⟩
  jump _ _ := Keeps.lockstep fun _ ⟨begins, counted⟩ => ⟨begins, counted⟩
  pushPc := Keeps.lockstep fun _ ⟨begins, counted⟩ => ⟨begins, counted⟩
  popPc := Keeps.lockstep fun _ ⟨begins, counted⟩ => ⟨begins, counted⟩
  latchPort _ := Keeps.lockstep fun _ ⟨begins, counted⟩ => ⟨begins, counted⟩
  setSkip _ := Keeps.lockstep fun _ ⟨begins, counted⟩ => ⟨begins, counted⟩
  startTimer _ := Keeps.lockstep fun _ ⟨begins, counted⟩ => ⟨begins, counted⟩
  readProgram _ := Keeps.lockstep fun _ running => running.observe _ _
  readData _ := Keeps.lockstep fun _ running => running.observe _ _
  writeData _ _ := Keeps.lockstep fun _ running => running.observe _ _
  readIo _ := Keeps.lockstep fun _ running => running.observe _ _
  writeIo _ _ := Keeps.lockstep fun _ running => running.observe _ _
  record _ := Keeps.lockstep fun _ ⟨begins, counted⟩ => ⟨begins, counted⟩

theorem tickTimer_running (w : Wiring σ) (cycles : Nat) :
    Keeps (Running first counted) (tickTimer w cycles) := by
  rintro m ⟨begins, counted⟩
  obtain ⟨timer, timerFlag, log, passed⟩ := tickTimer_passes w cycles m
  rw [passed]
  exact ⟨begins, counted⟩

/-- What an instruction costs that begins on a certain bus cycle. -/
theorem tableCost_begins {family : Family} {bus : List BusCycle} (begins : bus.head? = some first) :
    tableCost family skip bus =
      if skip then (decode family first.value).length else (decode family first.value).cycles := by
  obtain ⟨rest, rfl⟩ := List.head?_eq_some_iff.mp begins
  rfl

theorem retire_counts (w : Wiring σ) (pc : UInt16) (opcode : UInt8) {cost : Nat}
    (costs : ∀ bus : List BusCycle, bus.head? = some first →
      tableCost w.geometry.family skip bus = cost) :
    Ensures (Running first counted) (retire w pc opcode cost) fun step m =>
      Counts (bill w.geometry.family skip) counted (.ok step) m.core.toCoreStatus := by
  rintro m ⟨begins, rfl⟩
  obtain ⟨log, ended⟩ := retire_eq w pc opcode cost m
  rw [ended]
  exact .retired _ (congrArg (· + _) (costs m.core.bus begins).symm) rfl

theorem runFetched_counts (w : Wiring σ) (pc : UInt16) (s : State) :
    Ensures (Running first counted)
      (runFetched w pc first.value (decode w.geometry.family first.value) s) fun answer m =>
        Counts (bill w.geometry.family s.skip) counted answer m.core.toCoreStatus := by
  have ticks (cycles : Nat) : Keeps (Running first counted) (tickTimer w cycles) :=
    tickTimer_running w cycles
  refine .ite (fun skips => ?_) fun runs => ?_
  · refine .mapped (.keepsBind (ticks _) fun _ =>
      .keepsBind (fun _ ⟨begins, counted⟩ => ⟨begins, counted⟩) fun _ => ?_)
    refine retire_counts w pc _ fun bus begins => ?_
    rw [tableCost_begins begins, if_pos skips]
  · have retires : Ensures (Running first counted)
        (retire w pc first.value (decode w.geometry.family first.value).cycles) fun step m =>
          Counts (bill w.geometry.family s.skip) counted (.ok step) m.core.toCoreStatus :=
      retire_counts w pc first.value fun bus begins =>
        (tableCost_begins begins).trans (if_neg runs)
    refine .ite (fun _ => ?_) fun _ => ?_
    · refine .keepsBind (fun _ ⟨begins, counted⟩ => ⟨begins, counted⟩) fun _ =>
        .keepsBind (fun _ ⟨begins, counted⟩ => ⟨begins, counted⟩) fun _ => ?_
      dsimp only
      cases w.config.policy with
      | fatal =>
        exact .bind (V := fun _ => Running first counted)
          (fun _ ⟨begins, counted⟩ => ⟨begins, counted⟩) fun _ =>
          .pure fun _ running => .refused _ running.counted
      | nop => exact .keepsBind (ticks _) fun _ => .mapped retires
    · obtain ⟨fits, -⟩ := decode_fits w.geometry.family first.value
      have performs : Keeps (Running first counted)
          (perform w s.argument (decode w.geometry.family first.value).operation) :=
        ((respects_running w first counted).operates.perform fits (fun _ => rfl) fun _ =>
          Keeps.lockstep fun _ ⟨begins, counted⟩ => ⟨begins, counted⟩).keeps
      exact .keepsBind (ticks _) fun _ => .keepsBind performs fun _ => .mapped retires

theorem runInstruction_counts (w : Wiring σ) {m : Machine State σ} (fresh : m.core.bus = []) :
    Counts (bill w.geometry.family m.core.skip) m.core.diagnostics.waitStates
      (runInstruction w m).1 (runInstruction w m).2.core.toCoreStatus := by
  obtain ⟨marked, skip⟩ := fetchInstruction_marked w (m := ⟨m.core.begun, m.world⟩) fresh
  have begins : (fetched w m).core.bus.head? =
      some (fetchCycle m.core.regs.pc (nextOpcode w m)) := marked.1
  have skip : (fetched w m).core.skip = m.core.skip := skip
  have diagnostics : (fetched w m).core.diagnostics = m.core.diagnostics := by
    unfold fetched
    rw [fetchInstruction_took]
    rfl
  have running : Running (fetchCycle m.core.regs.pc (nextOpcode w m))
      m.core.diagnostics.waitStates (fetched w m) := ⟨begins, by rw [diagnostics]⟩
  have counts := runFetched_counts w m.core.regs.pc (fetched w m).core (fetched w m) running
  rw [runInstruction_fetched, ← skip]
  exact counts

theorem service_counts (w : Wiring σ) (m : Machine State σ) :
    Counts (bill w.geometry.family skip) m.core.diagnostics.waitStates (.ok (service w m).1)
      (service w m).2.core.toCoreStatus := by
  rw [service_handler, enterHandler_charges]
  dsimp only
  obtain ⟨timer, timerFlag, log, passed⟩ := charge_passes w _ _
  rw [passed]
  exact .interrupt _ rfl rfl

/-- A reset starts the counter over, with the wait states that its ports have left. -/
theorem waitStates_reset (w : Wiring σ) (m : Machine State σ) :
    (reset w m).2.core.diagnostics.waitStates =
      (w.waits (w.clears w.geometry.clearedPorts m.world.devices).state).toNat := by
  obtain ⟨bus, log, left⟩ := reset_drives w m
  rw [left]
  exact waitStates_recorded _

/-- A core that looks at an active line starts the counter over, unless the line holds it
already. -/
theorem waitStates_held {m : Machine State σ} (active : ¬Released w m) :
    (sampleReset w (unobserved m)).2.core.diagnostics.waitStates =
      if m.core.inReset then m.core.diagnostics.waitStates
      else (w.waits (w.clears w.geometry.clearedPorts m.world.devices).state).toNat := by
  cases free : m.core.inReset with
  | true =>
    rw [sampleReset_core (m := unobserved m) (eq_true_of_ne_false active)]
    unfold State.looked unobserved
    rw [free]
    rfl
  | false =>
    -- to look at the line leaves the devices as they are
    obtain ⟨world, devices, taken⟩ := sampleReset_taken (m := unobserved m) free active
    have same : world.devices = m.world.devices := devices
    rw [taken, if_neg nofun, ← same]
    exact waitStates_reset w ⟨(unobserved m).core, world⟩

theorem waitStates_charged (w : Wiring σ) (cycles : Nat) (m : Machine State σ) :
    (charged w cycles m).core.diagnostics.waitStates = m.core.diagnostics.waitStates := by
  obtain ⟨timer, timerFlag, log, passed⟩ := charge_passes w cycles m
  show (charge w cycles m).2.core.diagnostics.waitStates = _
  rw [passed]

/-- The line takes the core, which idles after its reset. -/
theorem advance_restarts {m : Machine State σ} (awake : m.core.exec.latchedFault? = none)
    (active : ¬Released w m) (free : m.core.inReset = false) (remaining : Nat) :
    Counts (bill w.geometry.family skip)
      (w.waits (w.clears w.geometry.clearedPorts m.world.devices).state).toNat
      (advance w remaining m).1 (advance w remaining m).2.core.toCoreStatus := by
  have counted := waitStates_held active
  rw [if_neg (ne_true_of_eq_false free)] at counted
  rw [advance_held awake active]
  exact .idle _ ((waitStates_charged w _ _).trans counted)

theorem advance_counts {m : Machine State σ}
    (stays : m.core.exec.latchedFault? = none → ¬Released w m → m.core.inReset = true)
    (remaining : Nat) :
    Counts (bill w.geometry.family m.core.skip) m.core.diagnostics.waitStates
      (advance w remaining m).1 (advance w remaining m).2.core.toCoreStatus := by
  have way := advance_way w remaining m
  generalize advance w remaining m = after at way
  cases way with
  | faulted fault => exact .refused fault rfl
  | held awake active =>
    have counted := waitStates_held active
    rw [if_pos (stays awake active)] at counted
    exact .idle _ ((waitStates_charged w _ _).trans counted)
  | enters awake released =>
    have diagnostics : (sample w m).2.core.diagnostics = m.core.diagnostics := by
      rw [sample_core released]
    rw [← diagnostics, Prod.map_fst, Prod.map_snd, id_eq]
    exact service_counts w _
  | runs awake released =>
    have core := sample_core released
    have fresh : (sample w m).2.core.bus = [] := by rw [core]
    have diagnostics : (sample w m).2.core.diagnostics = m.core.diagnostics := by rw [core]
    have skip : (sample w m).2.core.skip = m.core.skip := by rw [core]
    rw [← diagnostics, ← skip]
    exact runInstruction_counts w fresh

end Ucom4

/-! ## §4 Actions and resets -/

namespace Core

/-- Wait states that a core meets if it is reset. -/
def waitsOfReset (m : Machine (Core σ) σ) : Nat :=
  (m.core.waitsRestarting (m.core.restarts m.world.devices).state).toNat

/-- In its next action the core finds its reset line active, and is reset. -/
def ResetDue (m : Machine (Core σ) σ) : Prop :=
  m.core.exec.latchedFault? = none ∧ resetActive m = true ∧ m.core.status.inReset = false

instance (m : Machine (Core σ) σ) : Decidable (ResetDue m) :=
  inferInstanceAs (Decidable (_ ∧ _ ∧ _))

variable {m : Machine (Core σ) σ}

theorem waitStates_reset (m : Machine (Core σ) σ) :
    (reset m).2.core.diagnostics.waitStates = waitsOfReset m := by
  obtain ⟨core, world⟩ := m
  cases core with
  | sm83 w s => exact Sm83.waitStates_reset w ⟨s, world⟩
  | ucom4 w s => exact Ucom4.waitStates_reset w ⟨s, world⟩

/-- Every action counts the wait states that it took, after those of a reset if there was one. -/
theorem advance_counts (remaining : Nat) (m : Machine (Core σ) σ) :
    Counts m.core.bill
      (if ResetDue m then waitsOfReset m else m.core.diagnostics.waitStates)
      (advance remaining m).1 (advance remaining m).2.core.status := by
  obtain ⟨core, world⟩ := m
  have active : ¬resetActive ⟨core, world⟩ = false ↔ resetActive ⟨core, world⟩ = true := by simp
  split
  next due =>
    obtain ⟨awake, held, free⟩ := due
    cases core with
    | sm83 w s =>
      exact Sm83.advance_restarts (m := ⟨s, world⟩) awake (active.mpr held) free remaining s.regs
    | ucom4 w s =>
      exact Ucom4.advance_restarts (m := ⟨s, world⟩) awake (active.mpr held) free remaining
  next other =>
    have stays (awake : core.exec.latchedFault? = none)
        (held : ¬resetActive ⟨core, world⟩ = false) : core.status.inReset = true :=
      eq_true_of_ne_false fun free => other ⟨awake, active.mp held, free⟩
    cases core with
    | sm83 w s => exact Sm83.advance_counts (m := ⟨s, world⟩) stays remaining
    | ucom4 w s => exact Ucom4.advance_counts (m := ⟨s, world⟩) stays remaining

/-! ## §5 Histories -/

/-- Wait states of a core since it was last reset or built. -/
structure Waited where
  /-- Those of the reset itself. -/
  met : Nat
  /-- Cycles by which the actions since then have exceeded the table. -/
  charged : Nat
  deriving DecidableEq

/-- What a counter shows of them. -/
def Waited.shown (waited : Waited) : Nat := min (waited.met + waited.charged) counterMax

/-- Wait states of a core that is reset. -/
def waitedInReset (m : Machine (Core σ) σ) : Waited := ⟨waitsOfReset m, 0⟩

/-- Wait states of a core after an action, in which its reset line may have reset it. -/
def waitedAfter (remaining : Nat) (m : Machine (Core σ) σ) (waited : Waited) : Waited :=
  let after := advance remaining m
  let since := if ResetDue m then waitedInReset m else waited
  { since with charged := since.charged + m.core.bill.excess after.2.core.status.bus after.1 }

/-- A core that is left to its host, and its wait states since it was last reset. It is built, gets
its sink attached, is reset and acts in whatever world surrounds it, and its host takes note of the
levels that it has driven. -/
inductive Accounted : Core σ → Waited → Prop where
  | sm83 {config : Sm83.Config} {program : Space σ} {world world' : World σ} {w : Sm83.Wiring σ}
      {s : Sm83.State} : Sm83.build config program world = .ok ((w, s), world') →
      Accounted (.sm83 w s) (waitedInReset ⟨.sm83 w {}, world⟩)
  | ucom4 {config : Ucom4.Config} {program data io : Space σ} {world world' : World σ}
      {w : Ucom4.Wiring σ} {s : Ucom4.State} :
      Ucom4.build config program data io world = .ok ((w, s), world') →
      Accounted (.ucom4 w s) (waitedInReset ⟨.ucom4 w {}, world⟩)
  | attached {core : Core σ} {waited : Waited} (sink : Sink σ) :
      Accounted core waited → Accounted (core.attach sink) waited
  | noted {core : Core σ} {waited : Waited} :
      Accounted core waited → Accounted core.noted waited
  | reset {core : Core σ} {waited : Waited} (world : World σ) :
      Accounted core waited →
      Accounted (Core.reset ⟨core, world⟩).2.core (waitedInReset ⟨core, world⟩)
  | acted {core : Core σ} {waited : Waited} (world : World σ) (remaining : Nat) :
      Accounted core waited →
      Accounted (advance remaining ⟨core, world⟩).2.core
        (waitedAfter remaining ⟨core, world⟩ waited)

/-- A reset shows the wait states that it met. -/
theorem shown_waitedInReset (m : Machine (Core σ) σ) :
    (waitedInReset m).shown = waitsOfReset m := by
  have small := (m.core.waitsRestarting (m.core.restarts m.world.devices).state).toNat_lt
  unfold waitedInReset Waited.shown waitsOfReset counterMax
  dsimp only
  omega

/-- One more action moves what is shown as it moves the counter. -/
theorem advance_shown {waited : Waited} (shows_ : m.core.diagnostics.waitStates = waited.shown)
    (remaining : Nat) :
    (advance remaining m).2.core.diagnostics.waitStates =
      (waitedAfter remaining m waited).shown := by
  have counts := advance_counts remaining m
  -- what is counted starts from the reset, if the action begins with one
  have since : (if ResetDue m then waitsOfReset m else m.core.diagnostics.waitStates) =
      (if ResetDue m then waitedInReset m else waited).shown := by
    split
    · exact (shown_waitedInReset m).symm
    · exact shows_
  rw [since] at counts
  refine (counts.waitStates (Nat.min_le_right ..)).trans ?_
  unfold waitedAfter Waited.shown satAdd
  dsimp only
  omega

theorem Accounted.shown {core : Core σ} {waited : Waited} (accounted : Accounted core waited) :
    core.diagnostics.waitStates = waited.shown := by
  induction accounted with
  | @sm83 _ _ world _ w _ built =>
    obtain rfl := build_reset built
    exact (waitStates_reset ⟨.sm83 w {}, world⟩).trans (shown_waitedInReset _).symm
  | @ucom4 _ _ _ _ world _ w _ built =>
    obtain ⟨-, rfl⟩ := Ucom4.build_reset built
    exact (waitStates_reset ⟨.ucom4 w {}, world⟩).trans (shown_waitedInReset _).symm
  | @attached core _ sink _ ih =>
    cases core <;> exact ih
  | @noted core _ _ ih =>
    cases core <;> exact ih
  | reset world _ _ => exact (waitStates_reset _).trans (shown_waitedInReset _).symm
  | acted world remaining _ ih => exact advance_shown (m := ⟨_, world⟩) ih remaining

/-- No reset makes an SM83 core wait. -/
theorem waitsOfReset_sm83 {w : Sm83.Wiring σ} (family : m.core.wiring = .inl w) :
    waitsOfReset m = 0 := by
  obtain ⟨core, world⟩ := m
  cases core with
  | sm83 => rfl
  | ucom4 => nomatch family

theorem Accounted.met_sm83 {core : Core σ} {waited : Waited} (accounted : Accounted core waited)
    {w : Sm83.Wiring σ} (family : core.wiring = .inl w) : waited.met = 0 := by
  induction accounted generalizing w with
  | sm83 => exact waitsOfReset_sm83 family
  | ucom4 => nomatch family
  | @attached core _ sink _ ih =>
    cases core with
    | sm83 => exact ih rfl
    | ucom4 => nomatch family
  | @noted core _ _ ih =>
    cases core with
    | sm83 => exact ih rfl
    | ucom4 => nomatch family
  | reset world _ _ => exact waitsOfReset_sm83 ((wiring_reset _).symm.trans family)
  | acted world remaining _ ih =>
    have before := (wiring_advance remaining ⟨_, world⟩).symm.trans family
    unfold waitedAfter
    dsimp only
    split
    · exact waitsOfReset_sm83 before
    · exact ih before

/-- A run is made of actions, so it is a history as well. -/
theorem Accounted.run {core : Core σ} {waited : Waited} (accounted : Accounted core waited)
    (world : World σ) (budget : Nat) :
    ∃ waited', Accounted (Core.run budget ⟨core, world⟩).2.core waited' := by
  have acts (remaining : Nat) :
      Keeps (fun m : Machine (Core σ) σ => ∃ waited, Accounted m.core waited)
        (advance remaining) := by
    rintro ⟨core, world⟩ ⟨waited, accounted⟩
    exact ⟨_, accounted.acted world remaining⟩
  exact run_keeps acts budget ⟨core, world⟩ ⟨waited, accounted⟩

/-- The counter of wait states shows those that the core met in its last reset, and the cycles by
which its actions have exceeded the table since then. Short of its largest reading, it shows the
latter alone exactly if the reset met none, and no reset of an SM83 core meets any. Runs are made of
such actions. -/
theorem counter_shows_met_and_charged {core : Core σ} {waited : Waited}
    (accounted : Accounted core waited) :
    core.diagnostics.waitStates = min (waited.met + waited.charged) counterMax ∧
      (waited.met + waited.charged ≤ counterMax →
        (core.diagnostics.waitStates = waited.charged ↔ waited.met = 0)) ∧
      (∀ w, core.wiring = .inl w → waited.met = 0) ∧
      ∀ world,
        (∀ remaining step, (advance remaining ⟨core, world⟩).1 = .ok step →
          core.bill.due (advance remaining ⟨core, world⟩).2.core.status.bus 0 step ≤
            step.cycles) ∧
        ∀ budget, ∃ waited', Accounted (Core.run budget ⟨core, world⟩).2.core waited' := by
  have shown : core.diagnostics.waitStates = min (waited.met + waited.charged) counterMax :=
    accounted.shown
  refine ⟨shown, fun range => ?_, fun w => accounted.met_sm83, fun world => ⟨?_, ?_⟩⟩
  · rw [shown]
    omega
  · intro remaining step answer
    have counts := advance_counts remaining ⟨core, world⟩
    rw [answer] at counts
    exact counts.due_le
  · exact accounted.run world

/-- What surrounds a part whose ports take five cycles each, and whose program is one `OE`. -/
def slowPorts : World (Board Unit) where
  devices :=
    { maps :=
        [{ config := ⟨"program", 11, 8, .little⟩, regions := [⟨0, 0, 0, .rom #[0x44]⟩] },
          { config := ⟨"data", 7, 4, .little⟩ },
          { config := ⟨"io", 4, 4, .little⟩
            regions := [⟨0, 15, 5, .ram (Array.replicate 16 0)⟩] }]
      devices := () }
  lines := {}
  log := {}

/-- A part in these surroundings. -/
def slowPart : Ucom4.Wiring (Board Unit) where
  config := { part := .upd553 }
  program := Board.space ⟨"program", 11, 8, .little⟩ 0
  data := Board.space ⟨"data", 7, 4, .little⟩ 1
  io := Board.space ⟨"io", 4, 4, .little⟩ 2
  number := 0

/-- The reset of that part drives seven ports, and its first instruction another one: the counter
shows forty wait states, five of which were charged. -/
theorem counter_shows_met_and_charged_ports :
    let w := slowPart
    ∃ s world, Ucom4.build w.config w.program w.data w.io slowPorts = .ok ((w, s), world) ∧
      let after := advance 1 ⟨.ucom4 w s, world⟩
      Accounted after.2.core ⟨35, 5⟩ ∧ after.1 = .ok (.retired 0 6) ∧
        after.2.core.diagnostics.waitStates = 40 := by
  intro w
  let built := Ucom4.reset w ⟨{}, slowPorts⟩
  let world := built.2.world.plug (Ucom4.lines w.config).length
  have made : Ucom4.build w.config w.program w.data w.io slowPorts =
      .ok ((w, built.2.core), world) := rfl
  have accounted := (Accounted.ucom4 made).acted world 1
  have waited : waitedAfter 1 ⟨.ucom4 w built.2.core, world⟩
      (waitedInReset ⟨.ucom4 w {}, slowPorts⟩) = ⟨35, 5⟩ := by
    decide +kernel
  rw [waited] at accounted
  have counter := (counter_shows_met_and_charged accounted).1
  have retires : (advance 1 ⟨.ucom4 w built.2.core, world⟩).1 = .ok (.retired 0 6) := by
    decide +kernel
  exact ⟨_, _, made, accounted, retires, counter.trans (by decide)⟩

/-- Once it is built, that part shows wait states although it has not acted yet. -/
theorem counter_shows_uncharged :
    let w := slowPart
    ∃ s world, Ucom4.build w.config w.program w.data w.io slowPorts = .ok ((w, s), world) ∧
      Accounted (.ucom4 w s) ⟨35, 0⟩ ∧ (ucom4 w s).diagnostics.waitStates = 35 := by
  intro w
  let built := Ucom4.reset w ⟨{}, slowPorts⟩
  have made : Ucom4.build w.config w.program w.data w.io slowPorts =
      .ok ((w, built.2.core), built.2.world.plug (Ucom4.lines w.config).length) := rfl
  have accounted := Accounted.ucom4 made
  have waited : waitedInReset ⟨.ucom4 w {}, slowPorts⟩ = ⟨35, 0⟩ := by decide +kernel
  rw [waited] at accounted
  exact ⟨_, _, made, accounted, by decide +kernel⟩

end Core

end Microboard
