import Microboard.Proofs.Ucom4.Holding
import Microboard.Proofs.Ucom4.Widths

/-!
# uCOM-4 interrupt entries

The family enters its interrupt only between two instructions, and not between any two: `EI` and a
run of `LI` are not cut off from what follows them, nor is a skip from what it skips. Which
instruction came last is a matter of what the core has fetched so far.

- **§1** What a core has found once it has looked at its lines.
- **§2** Entries.
- **§3** Instructions that are run instead.
- **§4** Actions: the interrupt is entered, or an instruction is run.
- **§5** Histories, told with the opcode that counts as the last one.
-/

namespace Microboard.Ucom4

variable {σ : Type} {w : Wiring σ} {m : Machine State σ}

/-! ## §1 What was found -/

/-- The interrupt flag as it is once the core has looked at its interrupt line. -/
def flagFound (w : Wiring σ) (m : Machine State σ) : Bool :=
  m.core.regs.intFlag ||
    match w.config.interruptTrigger with
    | .edge => (m.world.lines.latch w.number).hasEdge interruptLine
    | .level => ((m.world.lines.latch w.number).level interruptLine).isActive

theorem State.looked_released (s restarted : State) :
    s.looked false restarted =
      { s with exec := if s.inReset then .fetching else s.exec, inReset := false } := by
  unfold looked
  cases held : s.inReset with
  | true => rfl
  | false =>
    dsimp only
    rw [if_neg nofun, ← held]

/-- A request is moved into the flag, and its edge is taken. -/
theorem latchRequest_eq (w : Wiring σ) (m : Machine State σ) :
    latchRequest w m =
      ((), ⟨{ m.core with regs := { m.core.regs with
          intFlag := m.core.regs.intFlag || ((m.world.lines.latch w.number).sample interruptLine
            w.config.interruptTrigger).1 } },
        (m.world.onLatch w.number (·.sample interruptLine w.config.interruptTrigger)).2⟩) := by
  have found : (Machine.onLatch (κ := State) w.number
      (·.sample interruptLine w.config.interruptTrigger) m).1 =
      ((m.world.lines.latch w.number).sample interruptLine w.config.interruptTrigger).1 := rfl
  unfold latchRequest
  rw [eval_bind, eval_ite, found]
  cases ((m.world.lines.latch w.number).sample interruptLine w.config.interruptTrigger).1 with
  | true =>
    rw [Bool.or_true]
    rfl
  | false =>
    rw [Bool.or_false]
    rfl

/-- A core that finds its reset line released has left reset and looked for a request, and that is
all. -/
theorem sample_core (released : Released w m) :
    (sample w m).2.core =
      { m.core with
        exec := if m.core.inReset then .fetching else m.core.exec
        inReset := false
        bus := []
        regs := { m.core.regs with intFlag := flagFound w m } } := by
  have looked := sampleReset_core (m := unobserved m) released
  obtain ⟨-, -, -, latch⟩ := sampleReset_released (m := unobserved m) released
  rw [State.looked_released] at looked
  -- the reset line is looked at first, which leaves the interrupt line alone
  have found : flagFound w m = (m.core.regs.intFlag ||
      (((sampleReset w (unobserved m)).2.world.lines.latch w.number).sample interruptLine
        w.config.interruptTrigger).1) := by
    rw [latch, LineLatch.sample_fst, LineLatch.sample_snd, LineLatch.hasEdge_update_withoutEdge,
      LineLatch.level_update_withoutEdge, if_neg (by decide)]
    rfl
  rw [sample_eq, latchRequest_eq, found, looked]
  rfl

/-- To look at the lines moves no level and touches no device. -/
theorem sample_levels (released : Released w m) :
    (sample w m).2.world.devices = m.world.devices ∧
      (m.world.lines.latch w.number).Level ((sample w m).2.world.lines.latch w.number) := by
  obtain ⟨-, -, devices, latch⟩ := sampleReset_released (m := unobserved m) released
  rw [sample_eq, latchRequest_eq]
  refine ⟨devices, ?_⟩
  dsimp only
  rw [World.latch_onLatch_eq (·.sample interruptLine w.config.interruptTrigger)
    (by rw [LineLatch.sample_snd, LineLatch.update_empty]), latch]
  exact (LineLatch.level_sample _ resetLine .level).trans
    (LineLatch.level_sample _ interruptLine w.config.interruptTrigger)

/-! ## §2 Entries -/

/-- The pulse that tells the surroundings of an entry. -/
def Wiring.pulses (w : Wiring σ) : Access σ Unit := do
  w.sink acknowledgeOut true
  w.sink acknowledgeOut false

/-- What is left of the devices once the wait states of the three spaces are taken. -/
def Wiring.drained (w : Wiring σ) (devices : σ) : σ :=
  (w.io.takeWaitStates (w.data.takeWaitStates (w.program.takeWaitStates devices).2).2).2

/-- What the entry of the interrupt makes of a core and of its surroundings. -/
structure Entered (w : Wiring σ) (m : Machine State σ)
    (after : Except Fault StepOutcome × Machine State σ) : Prop where
  outcome : ∃ cycles, after.1 = .ok (.interrupt 0x03C cycles)
  /-- Nothing is fetched, nor is there any other bus cycle. -/
  bus : after.2.core.bus = []
  opcode : after.2.core.opcode = m.core.opcode
  /-- The surroundings are told by one pulse, and are asked for their wait states. -/
  devices : after.2.world.devices = w.drained (w.pulses m.world.devices).state
  outputs : after.2.core.outputs.toList =
    m.core.outputs.toList ++ [⟨acknowledgeOut, true⟩, ⟨acknowledgeOut, false⟩]
  /-- Of the other registers, only the flag of the timer may change, which goes on meanwhile. -/
  regs : after.2.core.regs =
    { m.core.regs with
      pc := 0x03C
      stack := m.core.regs.stack.push w.geometry.stackLevels m.core.regs.pc
      intFlag := false
      intEnable := w.geometry.family = .ucom44
      timerFlag := after.2.core.regs.timerFlag }
  top : after.2.core.regs.stack.slot 0 = m.core.regs.pc
  deeper : ∀ level, level + 1 < w.geometry.stackLevels →
    after.2.core.regs.stack.slot (level + 1) = m.core.regs.stack.slot level
  /-- A line of which nothing is requested meanwhile keeps its level, unless it is the interrupt
  line and was held. -/
  levels : ∀ line, (∀ r ∈ (w.pulses m.world.devices).requests,
      r.core = w.number → r.line ≠ line) →
    (after.2.world.lines.latch w.number).level line =
      if line = interruptLine ∧ (m.world.lines.latch w.number).level line = .hold then .clear
      else (m.world.lines.latch w.number).level line

/-- The timer sets its flag when it runs out, which is noted, and does nothing else. -/
theorem tickTimer_passes (w : Wiring σ) (cycles : Nat) (m : Machine State σ) :
    ∃ timer timerFlag log, (tickTimer w cycles m).2 =
      ⟨{ m.core with timer, regs := { m.core.regs with timerFlag } }, { m.world with log }⟩ := by
  obtain ⟨log, ticked⟩ := tickTimer_dial w cycles m
  exact ⟨_, _, log, congrArg Prod.snd ticked⟩

/-- Time that passes is put on the clock and on the timer. -/
theorem charge_passes (w : Wiring σ) (cycles : Nat) (m : Machine State σ) :
    ∃ timer timerFlag log, (charge w cycles m).2 =
      ⟨{ m.core with
          totalCycles := satAdd m.core.totalCycles cycles
          timer
          regs := { m.core.regs with timerFlag } }, { m.world with log }⟩ :=
  tickTimer_passes w cycles ⟨{ m.core with toCoreStatus := m.core.toCoreStatus.charge cycles },
    m.world⟩

/-- A part uses all of its slots. -/
theorem Geometry.used_stackLevels {g : Geometry} (valid : g.validate = .ok ()) :
    CallStack.used g.stackLevels = g.stackLevels := by
  obtain ⟨-, least, most⟩ := ranges valid
  exact CallStack.used_eq least most

/-- The core once it has gone to its handler and has told its surroundings. -/
def gone (w : Wiring σ) (m : Machine State σ) : Machine State σ :=
  ⟨{ m.core with
      regs := { m.core.regs with
        pc := handlerAddress &&& w.geometry.programMask
        stack := m.core.regs.stack.push w.geometry.stackLevels m.core.regs.pc
        intFlag := false
        intEnable := w.geometry.family = .ucom44 }
      outputs := (m.core.outputs.push ⟨acknowledgeOut, true⟩).push ⟨acknowledgeOut, false⟩ },
    (World.perform w.pulses m.world).2⟩

/-- After that the cycles of the entry pass, wait states included. -/
theorem enterHandler_charges (w : Wiring σ) (m : Machine State σ) :
    let drained := drainWaitStates w (gone w m)
    let cycles := interruptCycles + drained.1
    let passed := (charge w cycles drained.2).2
    enterHandler w m = (.interrupt passed.core.regs.pc.toUInt32 cycles,
      ⟨{ passed.core with
          diagnostics := passed.core.diagnostics.recordInterrupt, exec := .fetching },
        passed.world.record (.interruptDispatched w.name none handlerAddress)⟩) := by
  have told : (World.perform w.pulses m.world).2 = (World.perform (w.sink acknowledgeOut false)
      (World.perform (w.sink acknowledgeOut true) m.world).2).2 := by
    unfold Wiring.pulses
    rw [World.perform_bind]
  unfold gone
  rw [told]
  rfl

theorem enterHandler_eq (w : Wiring σ) (m : Machine State σ) :
    ∃ cycles totalCycles diagnostics timer timerFlag log, enterHandler w m =
      (.interrupt (gone w m).core.regs.pc.toUInt32 cycles,
        ⟨{ (gone w m).core with
            exec := .fetching
            totalCycles
            diagnostics
            timer
            regs := { (gone w m).core.regs with timerFlag } },
          { devices := w.drained (w.pulses m.world.devices).state
            lines := (World.perform w.pulses m.world).2.lines
            log }⟩) := by
  let drained := drainWaitStates w (gone w m)
  have entry := enterHandler_charges w m
  obtain ⟨timer, timerFlag, log, passed⟩ := charge_passes w (interruptCycles + drained.1) drained.2
  dsimp only at entry
  rw [passed] at entry
  exact ⟨_, _, _, timer, timerFlag, _, entry⟩

/-- A core that has found its flag set and acknowledged the line enters its interrupt. -/
theorem enterHandler_entered (valid : w.geometry.validate = .ok ()) {found : Machine State σ}
    (regs : found.core.regs = { m.core.regs with intFlag := flagFound w m })
    (bus : found.core.bus = []) (opcode : found.core.opcode = m.core.opcode)
    (outputs : found.core.outputs = m.core.outputs)
    (devices : found.world.devices = m.world.devices)
    (latch : ((m.world.lines.latch w.number).acknowledge interruptLine).Level
      (found.world.lines.latch w.number)) :
    Entered w m (Prod.map .ok id (enterHandler w found)) := by
  have used := Geometry.used_stackLevels valid
  have vector : handlerAddress &&& w.geometry.programMask = 0x03C :=
    w.geometry.reaches_low (by decide) valid
  obtain ⟨cycles, totalCycles, diagnostics, timer, timerFlag, log, entry⟩ := enterHandler_eq w found
  have pc : found.core.regs.pc = m.core.regs.pc := by rw [regs]
  have stack : found.core.regs.stack = m.core.regs.stack := by rw [regs]
  rw [entry]
  refine ⟨⟨cycles, ?outcome⟩, bus, opcode, ?devices, ?outputs, ?regs, ?top, ?deeper, ?levels⟩
  case outcome =>
    show Except.ok (StepOutcome.interrupt (handlerAddress &&& w.geometry.programMask).toUInt32
      cycles) = _
    rw [vector]
    rfl
  case devices =>
    show w.drained (w.pulses found.world.devices).state = _
    rw [devices]
  case outputs =>
    show ((found.core.outputs.push _).push _).toList = _
    rw [outputs]
    simp
  case regs =>
    show { (gone w found).core.regs with timerFlag } = _
    unfold gone
    rw [vector, regs]
    rfl
  case top =>
    show (found.core.regs.stack.push _ _).slot 0 = _
    rw [CallStack.slot_push _ _ _ (CallStack.used_pos _), if_pos rfl, pc]
  case deeper =>
    intro level below
    show (found.core.regs.stack.push _ _).slot (level + 1) = _
    rw [CallStack.slot_push _ _ _ (used.symm ▸ below), if_neg (Nat.succ_ne_zero level), stack,
      Nat.add_sub_cancel]
  case levels =>
    intro line others
    rw [← devices] at others
    show ((World.perform w.pulses found.world).2.lines.latch w.number).level line = _
    rw [World.level_perform _ _ others, ← LineLatch.level_acknowledge, (latch line).1]

theorem service_handler (w : Wiring σ) (m : Machine State σ) :
    service w m = enterHandler w
      ⟨{ m.core with exec := .servicingInterrupt },
        (m.world.onLatch w.number fun latch => ((), latch.acknowledge interruptLine)).2⟩ := rfl

/-- The core enters its interrupt once it has looked at its lines. -/
theorem service_entered (valid : w.geometry.validate = .ok ()) (released : Released w m) :
    Entered w m (Prod.map .ok id (service w (sample w m).2)) := by
  obtain ⟨devices, levels⟩ := sample_levels released
  have latch := (sample w m).2.world.latch_acknowledged w.number interruptLine
  rw [service_handler, sample_core released]
  refine enterHandler_entered valid rfl rfl rfl rfl devices ?_
  rw [latch]
  exact levels.acknowledge interruptLine

/-! ## §3 Instructions -/

/-- The cycle on which an opcode is fetched. -/
def fetchCycle (pc : UInt16) (opcode : UInt8) : BusCycle :=
  ⟨.program, .read, .byte, pc.toUInt32, opcode⟩

/-- The bus cycles of the core begin with a certain one. It keeps a certain opcode, and has driven
certain levels. -/
def Marked (first : BusCycle) (opcode : UInt8) (outputs : Array OutputEvent)
    (m : Machine State σ) : Prop :=
  m.core.bus.head? = some first ∧ m.core.opcode = opcode ∧ m.core.outputs = outputs

section Instructions

variable {first : BusCycle} {opcode : UInt8} {outputs : Array OutputEvent}

theorem Marked.observe (marked : Marked first opcode outputs m) (cycle : BusCycle)
    (world : World σ) :
    Marked first opcode outputs ⟨{ m.core with bus := m.core.bus ++ [cycle] }, world⟩ := by
  refine ⟨?_, marked.2⟩
  dsimp only
  rw [List.head?_append, marked.1]
  rfl

/-- No elementary operation of an instruction touches these marks. -/
theorem respects_marked (w : Wiring σ) (first : BusCycle) (opcode : UInt8)
    (outputs : Array OutputEvent) : Respects w w (Both (Marked first opcode outputs)) where
  config := rfl
  regs := by
    rintro m _ ⟨rfl, -⟩
    exact ⟨_, rfl⟩
  lastPc := by
    rintro m _ ⟨rfl, -⟩
    rfl
  change _ := Keeps.lockstep fun _ marked => marked
  jump _ _ := Keeps.lockstep fun _ marked => marked
  pushPc := Keeps.lockstep fun _ marked => marked
  popPc := Keeps.lockstep fun _ marked => marked
  latchPort _ := Keeps.lockstep fun _ marked => marked
  setSkip _ := Keeps.lockstep fun _ marked => marked
  startTimer _ := Keeps.lockstep fun _ marked => marked
  readProgram _ := Keeps.lockstep fun _ marked => marked.observe _ _
  readData _ := Keeps.lockstep fun _ marked => marked.observe _ _
  writeData _ _ := Keeps.lockstep fun _ marked => marked.observe _ _
  readIo _ := Keeps.lockstep fun _ marked => marked.observe _ _
  writeIo _ _ := Keeps.lockstep fun _ marked => marked.observe _ _
  record _ := Keeps.lockstep fun _ marked => marked

theorem tickTimer_marked (w : Wiring σ) (cycles : Nat) :
    Keeps (Marked first opcode outputs) (tickTimer w cycles) := by
  intro m marked
  obtain ⟨timer, timerFlag, log, passed⟩ := tickTimer_passes w cycles m
  rw [passed]
  exact marked

theorem retire_marked (w : Wiring σ) (pc : UInt16) (fetched : UInt8) (cost : Nat) :
    Keeps (Marked first opcode outputs) (retire w pc fetched cost) :=
  .bind (fun _ marked => marked) fun _ =>
    .bind (fun _ marked => marked) fun waits =>
    .bind (tickTimer_marked w waits) fun _ =>
    fun _ marked => marked

theorem runIllegal_marked (w : Wiring σ) (pc : UInt16) (fetched : UInt8) (entry : Entry) :
    Keeps (Marked first opcode outputs) (runIllegal w pc fetched entry) := by
  refine .bind (fun _ marked => marked) fun _ =>
    .bind (fun _ marked => marked) fun _ => ?_
  dsimp only
  cases w.config.policy with
  | fatal =>
    exact .bind (fun _ marked => marked) fun _ => .pure _
  | nop =>
    exact .bind (tickTimer_marked w _) fun _ => .bind (retire_marked w pc fetched _) fun _ =>
      .pure _

/-- A core that skips an instruction forgets its opcode. -/
theorem runFetched_marked (w : Wiring σ) (pc : UInt16) (fetched : UInt8) (s : State) :
    Ensures (Marked first opcode outputs)
      (runFetched w pc fetched (decode w.geometry.family fetched) s)
      fun _ => Marked first (if s.skip then 0 else opcode) outputs := by
  refine .ite (fun skips => ?_) fun runs => ?_
  · rw [if_pos skips]
    refine .mapped (.keepsBind (tickTimer_marked w _) fun _ => .bind
      (V := fun _ => Marked first 0 outputs) (fun _ marked => ⟨marked.1, rfl, marked.2.2⟩)
      fun _ => ?_)
    exact retire_marked w pc fetched _
  · rw [if_neg runs]
    refine .ite (fun _ => runIllegal_marked w pc fetched _) fun _ => ?_
    obtain ⟨fits, -⟩ := decode_fits w.geometry.family fetched
    have performs : Keeps (Marked first opcode outputs)
        (perform w s.argument (decode w.geometry.family fetched).operation) :=
      ((respects_marked w first opcode outputs).operates.perform fits (fun _ => rfl) fun _ =>
        Keeps.lockstep fun _ marked => marked).keeps
    exact .keepsBind (tickTimer_marked w _) fun _ => .keepsBind performs fun _ =>
      .mapped (retire_marked w pc fetched _)

/-- The first bus cycle of an instruction fetches its opcode. -/
theorem fetchInstruction_marked (w : Wiring σ) (fresh : m.core.bus = []) :
    Marked (fetchCycle m.core.regs.pc (fetchInstruction w m).1.1) (fetchInstruction w m).1.1
        m.core.outputs (fetchInstruction w m).2 ∧
      (fetchInstruction w m).2.core.skip = m.core.skip := by
  have first : Marked (fetchCycle m.core.regs.pc (fetch w m).1) m.core.opcode m.core.outputs
      (fetch w m).2 := by
    refine ⟨?_, rfl, rfl⟩
    show (m.core.bus ++ [fetchCycle m.core.regs.pc (fetch w m).1]).head? = _
    rw [fresh]
    rfl
  unfold fetchInstruction
  rw [eval_bind, eval_ite]
  split
  · obtain ⟨begins, -, driven⟩ := (respects_marked w _ _ _).fetch.keeps _ first
    exact ⟨⟨begins, rfl, driven⟩, rfl⟩
  · exact ⟨⟨first.1, rfl, first.2.2⟩, rfl⟩

/-- The opcode that an instruction fetches. -/
def nextOpcode (w : Wiring σ) (m : Machine State σ) : UInt8 :=
  (fetchInstruction w ⟨m.core.begun, m.world⟩).1.1

/-- The core once it has fetched an instruction. -/
def fetched (w : Wiring σ) (m : Machine State σ) : Machine State σ :=
  (fetchInstruction w ⟨m.core.begun, m.world⟩).2

theorem runInstruction_fetched (w : Wiring σ) (m : Machine State σ) :
    runInstruction w m = runFetched w m.core.regs.pc (nextOpcode w m)
      (decode w.geometry.family (nextOpcode w m)) (fetched w m).core (fetched w m) := by
  have entry := fetchInstruction_entry w ⟨m.core.begun, m.world⟩
  rw [runInstruction_eq]
  show runFetched w m.core.regs.pc (nextOpcode w m)
    (fetchInstruction w ⟨m.core.begun, m.world⟩).1.2 _ _ = _
  rw [entry]
  rfl

/-- The core keeps the opcode that it has fetched, or none if it has skipped it, and drives no
output line. -/
theorem runInstruction_marked (w : Wiring σ) (fresh : m.core.bus = []) :
    Marked (fetchCycle m.core.regs.pc (nextOpcode w m))
      (if m.core.skip then 0 else nextOpcode w m) m.core.outputs (runInstruction w m).2 := by
  obtain ⟨marked, skip⟩ := fetchInstruction_marked w (m := ⟨m.core.begun, m.world⟩) fresh
  have skip : (fetched w m).core.skip = m.core.skip := skip
  rw [runInstruction_fetched, ← skip]
  exact runFetched_marked w m.core.regs.pc (nextOpcode w m) (fetched w m).core _ marked

end Instructions

/-! ## §4 Actions -/

theorem interruptAllowed_opcodes : ∀ opcode < 256,
    (UInt8.ofNat opcode &&& 0xF0 != 0x90) =
      !decide (0x90 ≤ UInt8.ofNat opcode ∧ UInt8.ofNat opcode ≤ 0x9F) := by
  decide +kernel

/-- The interrupt is held back by `EI` and by `LI`, and by a skip. -/
theorem interruptAllowed_iff (s : State) :
    interruptAllowed s = true ↔
      s.regs.intFlag = true ∧ s.regs.intEnable = true ∧ s.skip = false ∧ s.opcode ≠ 0x31 ∧
        ¬(0x90 ≤ s.opcode ∧ s.opcode ≤ 0x9F) := by
  have loads := interruptAllowed_opcodes s.opcode.toNat s.opcode.toNat_lt
  rw [UInt8.ofNat_toNat] at loads
  unfold interruptAllowed
  rw [loads]
  simp only [Bool.and_eq_true, Bool.not_eq_true', bne_iff_ne, decide_eq_false_iff_not]
  tauto

/-- The core runs an instruction or refuses it. It drives no output line. -/
structure Attempted (m : Machine State σ)
    (after : Except Fault StepOutcome × Machine State σ) : Prop where
  place : RunsAt m.core.regs.pc after.1
  /-- The opcode is fetched first, and is kept unless it was skipped. -/
  fetches : ∃ opcode, after.2.core.bus.head? = some (fetchCycle m.core.regs.pc opcode) ∧
    after.2.core.opcode = if m.core.skip then 0 else opcode
  quiet : after.2.core.outputs = m.core.outputs

/-- What a core does that is neither faulted nor held in reset, once it has looked at its lines. -/
theorem advance_acts (awake : m.core.exec.latchedFault? = none) (released : Released w m)
    (remaining : Nat) :
    advance w remaining m =
      if interruptAllowed (sample w m).2.core then Prod.map .ok id (service w (sample w m).2)
      else runInstruction w (sample w m).2 := by
  rw [advance_sampled awake released, eval_bind]
  unfold act
  rw [eval_bind, eval_getState, eval_ite]
  rfl

/-- The four ways of an action, with what each of them makes of the core and its surroundings. -/
inductive Way (w : Wiring σ) (remaining : Nat) (m : Machine State σ) :
    Except Fault StepOutcome × Machine State σ → Prop
  /-- A fault that is latched is answered again. -/
  | faulted (fault : Fault) : m.core.exec.latchedFault? = some fault →
      Way w remaining m (.error fault, unobserved m)
  /-- The reset line holds the core, which lets time pass. -/
  | held : m.core.exec.latchedFault? = none → ¬Released w m →
      Way w remaining m (.ok (.idle (idleCycles remaining)),
        charged w (idleCycles remaining) (sampleReset w (unobserved m)).2)
  | enters : m.core.exec.latchedFault? = none → Released w m →
      interruptAllowed (sample w m).2.core = true →
      Way w remaining m (Prod.map .ok id (service w (sample w m).2))
  | runs : m.core.exec.latchedFault? = none → Released w m →
      interruptAllowed (sample w m).2.core = false →
      Way w remaining m (runInstruction w (sample w m).2)

theorem advance_way (w : Wiring σ) (remaining : Nat) (m : Machine State σ) :
    Way w remaining m (advance w remaining m) := by
  cases latched : m.core.exec.latchedFault? with
  | some fault =>
    rw [advance_eq, latched]
    exact .faulted fault latched
  | none =>
    by_cases released : Released w m
    · rw [advance_acts latched released]
      cases allowed : interruptAllowed (sample w m).2.core with
      | true => exact .enters latched released allowed
      | false => exact .runs latched released allowed
    · rw [advance_held latched released]
      exact .held latched released

/-- A core that is neither faulted nor held in reset enters its interrupt if that is allowed, and
runs an instruction otherwise. -/
theorem advance_cases (valid : w.geometry.validate = .ok ())
    (awake : m.core.exec.latchedFault? = none) (released : Released w m) (remaining : Nat) :
    interruptAllowed (sample w m).2.core = true ∧ Entered w m (advance w remaining m) ∨
      interruptAllowed (sample w m).2.core = false ∧
        advance w remaining m = runInstruction w (sample w m).2 ∧
        Attempted m (advance w remaining m) := by
  rw [advance_acts awake released]
  cases interruptAllowed (sample w m).2.core with
  | true => exact .inl ⟨rfl, service_entered valid released⟩
  | false =>
    refine .inr ⟨rfl, rfl, ?_⟩
    have fresh : (sample w m).2.core.bus = [] := by rw [sample_core released]
    have place := runInstruction_runsAt w (sample w m).2
    obtain ⟨first, kept, quiet⟩ := runInstruction_marked w fresh
    rw [sample_core released] at place first kept quiet
    exact ⟨place, ⟨_, first, kept⟩, quiet⟩

/-! ## §5 Histories -/

/-- The opcode that the bus cycles of an action have fetched. -/
def opcodeFetched : List BusCycle → Option UInt8
  | ⟨.program, .read, .byte, _, opcode⟩ :: _ => some opcode
  | _ => none

theorem opcodeFetched_of_first {bus : List BusCycle} {pc : UInt16} {opcode : UInt8}
    (first : bus.head? = some (fetchCycle pc opcode)) : opcodeFetched bus = some opcode := by
  cases bus with
  | nil => cases first
  | cons cycle rest =>
    obtain rfl := Option.some.inj first
    rfl

/-- The opcode that counts as the last one after an action: what the action has fetched, or zero if
that was skipped. A core that idles is held in reset, which leaves it without a last opcode. -/
def counted (last : UInt8) (skips : Bool) (answer : Except Fault StepOutcome)
    (bus : List BusCycle) : UInt8 :=
  match answer, opcodeFetched bus with
  | .ok (.idle _), _ => 0
  | _, some opcode => if skips then 0 else opcode
  | _, none => last

/-- A core in the hands of its host, and the opcode that counts as its last one. It is built, gets
its sink attached, is reset and advanced in whatever world surrounds it, and its host takes note of
the levels that it has driven. -/
inductive Recalled : Wiring σ → State → UInt8 → Prop where
  | built {config : Config} {program data io : Space σ} {world world' : World σ} {w : Wiring σ}
      {s : State} : build config program data io world = .ok ((w, s), world') → Recalled w s 0
  | attached {w : Wiring σ} {s : State} {last : UInt8} (sink : Sink σ) :
      Recalled w s last → Recalled { w with sink } s last
  | reset {w : Wiring σ} {s : State} {last : UInt8} (world : World σ) :
      Recalled w s last → Recalled w (reset w ⟨s, world⟩).2.core 0
  | advanced {w : Wiring σ} {s : State} {last : UInt8} (remaining : Nat) (world : World σ) :
      Recalled w s last → Recalled w (advance w remaining ⟨s, world⟩).2.core
        (counted last s.skip (advance w remaining ⟨s, world⟩).1
          (advance w remaining ⟨s, world⟩).2.core.bus)
  | noted {w : Wiring σ} {s : State} {last : UInt8} :
      Recalled w s last → Recalled w { s with outputs := #[] } last

theorem Recalled.hosted {s : State} {last : UInt8} (recalled : Recalled w s last) :
    Hosted w s := by
  induction recalled with
  | built built => exact .built built
  | attached sink _ ih => exact .attached sink ih
  | @reset w s _ world _ ih => exact @Hosted.operated _ w s _ .reset world _ ih rfl
  | advanced remaining world _ ih => exact ih.advance remaining world
  | noted _ ih => exact .noted ih

theorem Recalled.valid {s : State} {last : UInt8} (recalled : Recalled w s last) :
    w.geometry.validate = .ok () :=
  recalled.hosted.reachable.valid

/-- A core that its reset line holds has no last opcode once it has looked at the line. -/
theorem opcode_held (active : ¬Released w m) (blank : m.core.inReset = true → m.core.opcode = 0) :
    (sampleReset w m).2.core.opcode = 0 := by
  have looked := sampleReset_core (eq_true_of_ne_false active)
  obtain ⟨bus, diagnostics, restarted⟩ :=
    reset_core w ⟨m.core, (m.world.onLatch w.number (·.sample resetLine .level)).2⟩
  rw [looked, restarted]
  unfold State.looked
  cases held : m.core.inReset with
  | true => exact blank held
  | false => rfl

/-- An action keeps account of the last opcode. -/
theorem advance_recalled (valid : w.geometry.validate = .ok ())
    (blank : m.core.inReset = true → m.core.opcode = 0) (remaining : Nat) :
    let after := advance w remaining m
    after.2.core.opcode = counted m.core.opcode m.core.skip after.1 after.2.core.bus ∧
      (after.2.core.inReset = true → after.2.core.opcode = 0) := by
  intro after
  cases latched : m.core.exec.latchedFault? with
  | some fault =>
    have refused : after = (.error fault, unobserved m) := by
      unfold after
      rw [advance_eq, latched]
    rw [refused]
    exact ⟨rfl, blank⟩
  | none =>
    by_cases released : Released w m
    · have free : after.2.core.inReset = false := advance_frees latched released remaining
      refine ⟨?_, fun held => nomatch free.symm.trans held⟩
      obtain ⟨-, entered⟩ | ⟨-, -, attempted⟩ := advance_cases valid latched released remaining
      · obtain ⟨cycles, outcome⟩ := entered.outcome
        rw [show after.1 = _ from outcome, show after.2.core.bus = _ from entered.bus]
        exact entered.opcode
      · obtain ⟨opcode, first, kept⟩ := attempted.fetches
        have place : RunsAt m.core.regs.pc after.1 := attempted.place
        rw [show after.2.core.opcode = _ from kept]
        unfold counted
        rw [opcodeFetched_of_first first]
        generalize after.1 = answer at place
        cases place <;> rfl
    · have idles : after = (.ok (.idle (idleCycles remaining)),
          charged w (idleCycles remaining) (sampleReset w (unobserved m)).2) :=
        advance_held latched released remaining
      have forgotten : after.2.core.opcode = 0 := by
        obtain ⟨timer, timerFlag, log, passed⟩ :=
          charge_passes w (idleCycles remaining) (sampleReset w (unobserved m)).2
        rw [idles, charged, passed]
        exact opcode_held released blank
      rw [forgotten, show after.1 = _ from congrArg Prod.fst idles]
      exact ⟨rfl, fun _ => rfl⟩

/-- The core knows its last opcode. -/
theorem Recalled.last {s : State} {last : UInt8} (recalled : Recalled w s last) :
    s.opcode = last ∧ (s.inReset = true → s.opcode = 0) := by
  induction recalled with
  | built built =>
    obtain ⟨-, rfl⟩ := build_reset built
    obtain ⟨bus, diagnostics, restarted⟩ := reset_core _ _
    rw [restarted]
    exact ⟨rfl, fun _ => rfl⟩
  | attached _ _ ih => exact ih
  | @reset w s _ world _ ih =>
    obtain ⟨bus, diagnostics, restarted⟩ := reset_core w ⟨s, world⟩
    rw [restarted]
    exact ⟨rfl, fun _ => rfl⟩
  | @advanced w s last remaining world recalled ih =>
    obtain ⟨rfl, blank⟩ := ih
    exact advance_recalled (m := ⟨s, world⟩) recalled.valid blank remaining
  | noted _ ih => exact ih

end Microboard.Ucom4
