import Microboard.Proofs.CoreLatches
import Microboard.Proofs.Ucom4.Timer

/-!
# uCOM-4 parts of the reduced family

A part of the reduced family has the registers of the full one, timer and interrupt enable included,
but no opcodes that reach them: those of the extensions keep their length, and are refused like any
other opcode without a use.

- **§1** Opcodes of the reduced family.
- **§2** Instructions that are refused.
- **§3** Registers that the reduced family leaves alone.
- **§4** Histories of a core whose state its host does not write to.
-/

namespace Microboard.Ucom4

open Microboard.Core (Command)

variable {σ : Type} {w : Wiring σ} {m : Machine State σ}

/-! ## §1 Opcodes -/

/-- The reduced family decodes no opcode to an extension. -/
theorem isExtension_reduced (opcode : UInt8) :
    (decode .ucom44 opcode).operation.isExtension = false := by
  show (decodeOp .ucom44 opcode).isExtension = false
  unfold decodeOp
  dsimp only
  split
  -- what would be an extension has become illegal
  next extends_ => rfl
  next plain => exact eq_false_of_ne_true fun extends_ => plain ⟨rfl, extends_⟩

theorem illegal_reduced {opcode : UInt8} (extends_ : (decodeFull opcode).isExtension = true) :
    (decode .ucom44 opcode).operation = .illegal :=
  if_pos ⟨rfl, extends_⟩

/-- An opcode has its length whether or not the part has a use for it. -/
theorem length_family (family other : Family) (opcode : UInt8) :
    (decode family opcode).length = (decode other opcode).length := rfl

/-- An opcode without use takes as many cycles as bytes. -/
theorem cycles_illegal {family : Family} {opcode : UInt8}
    (illegal : (decode family opcode).operation = .illegal) :
    (decode family opcode).cycles = (decode family opcode).length := by
  have illegal : decodeOp family opcode = .illegal := illegal
  show (if decodeOp family opcode = .rt ∨ decodeOp family opcode = .rts then _ else _) = _
  rw [illegal]
  exact if_neg (by decide)

/-! ## §2 Instructions that are refused -/

/-- The core once it has refused an instruction: it has fetched it, and has noted its opcode. -/
def State.refusing (w : Wiring σ) (m : Machine State σ) (bytes : List UInt8) : State :=
  { m.core with
    regs := { m.core.regs with
      pc := w.geometry.nextAddress^[bytes.length] m.core.regs.pc
      intFlag := flagFound w m }
    opcode := bytes.headD 0
    argument := bytes.getD 1 m.core.argument
    lastPc := m.core.regs.pc
    exec := .executing
    inReset := false
    bus := w.geometry.fetchCycles m.core.regs.pc bytes
    diagnostics := m.core.diagnostics.recordIllegal m.core.regs.pc.toUInt32 (bytes.headD 0) }

/-- Answer, core and devices after an action that refuses an instruction. The strict policy stops
the core, and the tolerant one lets the cycles of the instruction pass. -/
def refusal (w : Wiring σ) (m : Machine State σ) (bytes : List UInt8) :
    Except Fault StepOutcome × State × σ :=
  let pc := m.core.regs.pc.toUInt32
  let s := State.refusing w m bytes
  let devices := (w.instruction m.core.regs.pc m.world.devices).state
  match w.config.policy with
  | .fatal =>
    let fault := Fault.illegalOpcode pc (bytes.headD 0)
    (.error fault, { s with exec := .faultLatched fault }, devices)
  | .nop =>
    let waits := w.waits devices
    let cycles := bytes.length + waits.toNat
    (.ok (.retired pc cycles),
      { s.withDial (s.dial.after cycles) with
        exec := .fetching
        totalCycles := satAdd s.totalCycles cycles
        diagnostics := (s.diagnostics.recordWaitStates waits).recordInstruction },
      w.drained devices)

theorem runIllegal_eq (w : Wiring σ) (pc : UInt16) (opcode : UInt8) (entry : Entry)
    (m : Machine State σ) :
    let s := { m.core with diagnostics := m.core.diagnostics.recordIllegal pc.toUInt32 opcode }
    let after := runIllegal w pc opcode entry m
    (after.1, after.2.core, after.2.world.devices) =
      match w.config.policy with
      | .fatal =>
        let fault := Fault.illegalOpcode pc.toUInt32 opcode
        (.error fault, { s with exec := .faultLatched fault }, m.world.devices)
      | .nop =>
        let waits := w.waits m.world.devices
        let cycles := entry.cycles + waits.toNat
        (.ok (.retired pc.toUInt32 cycles),
          { s.withDial (s.dial.after cycles) with
            exec := .fetching
            totalCycles := satAdd s.totalCycles cycles
            diagnostics := (s.diagnostics.recordWaitStates waits).recordInstruction },
          w.drained m.world.devices) := by
  intro s after
  let noted (policy : IllegalOpcodePolicy) : World σ :=
    m.world.record (.illegalOpcode w.name pc opcode policy)
  have begins : after = (match w.config.policy with
      | .fatal =>
        let fault := Fault.illegalOpcode pc.toUInt32 opcode
        (.error fault, ⟨{ s with exec := .faultLatched fault }, noted w.config.policy⟩)
      | .nop =>
        Prod.map .ok id (retire w pc opcode entry.cycles
          (tickTimer w entry.cycles ⟨s, noted w.config.policy⟩).2)) := by
    show runIllegal w pc opcode entry m = _
    unfold runIllegal
    rw [eval_bind, eval_bind]
    dsimp only
    cases w.config.policy <;> rfl
  rw [begins]
  cases w.config.policy with
  | fatal => rfl
  | nop =>
    obtain ⟨log, ticked⟩ := tickTimer_dial w entry.cycles ⟨s, noted .nop⟩
    obtain ⟨log', ended⟩ := retire_eq w pc opcode entry.cycles
      (tickTimer w entry.cycles ⟨s, noted .nop⟩).2
    dsimp only
    rw [ended, ticked, ← Dial.after_after]
    rfl

/-- A core refuses an instruction that its part has no use for. -/
theorem Executes.refuses {bytes : List UInt8} (executes : Executes w m bytes)
    (illegal : (decode w.geometry.family (bytes.headD 0)).operation = .illegal)
    (remaining : Nat) :
    let after := advance w remaining m
    (after.1, after.2.core, after.2.world.devices) = refusal w m bytes := by
  intro after
  obtain ⟨lines, log, runs⟩ := executes.advance_runs remaining
  have sized : (decode w.geometry.family (bytes.headD 0)).cycles = bytes.length := by
    rw [cycles_illegal illegal, ← executes.fetched]
    exact (length_instruction w m.core.regs.pc m.world.devices).symm
  have unskipped : ¬(State.executing w m bytes).skip = true := by
    rw [executing_eq executes.released]
    exact ne_true_of_eq_false executes.runs
  have refused : after = runIllegal w m.core.regs.pc (bytes.headD 0)
      (decode w.geometry.family (bytes.headD 0)) ⟨State.executing w m bytes,
        (w.instruction m.core.regs.pc m.world.devices).state, lines, log⟩ := by
    refine runs.trans ?_
    unfold runFetched
    rw [eval_ite, if_neg unskipped, eval_ite, if_pos illegal]
  have left := runIllegal_eq w m.core.regs.pc (bytes.headD 0)
    (decode w.geometry.family (bytes.headD 0)) ⟨State.executing w m bytes,
      (w.instruction m.core.regs.pc m.world.devices).state, lines, log⟩
  rw [← refused, sized, executing_eq executes.released] at left
  exact left

/-! ## §3 Registers -/

/-- Interrupts are enabled, and the timer neither runs nor has run out. -/
def State.Reduced (s : State) : Prop := s.regs.intEnable = true ∧ s.dial = ⟨none, false⟩

/-- A machine whose core is in such a state. -/
def Reduced (m : Machine State σ) : Prop := m.core.Reduced

theorem perform_reduced (w : Wiring σ) (argument : UInt8) {operation : Op}
    (plain : operation.isExtension = false) :
    Keeps Reduced (perform w argument operation) := by
  rintro m ⟨intEnable, dial⟩
  have same := perform_controls w argument plain m
  exact ⟨(congrArg Controls.intEnable same).trans intEnable,
    (congrArg Controls.dial same).trans dial⟩

/-- A timer that does not run is not moved by time. -/
theorem tickTimer_reduced (w : Wiring σ) (cycles : Nat) : Keeps Reduced (tickTimer w cycles) := by
  rintro m ⟨intEnable, dial⟩
  obtain ⟨log, ticked⟩ := tickTimer_dial w cycles m
  rw [ticked, dial]
  exact ⟨intEnable, rfl⟩

theorem charge_reduced (w : Wiring σ) (cycles : Nat) : Keeps Reduced (charge w cycles) :=
  .bind (fun _ reduced => reduced) fun _ => tickTimer_reduced w cycles

theorem retire_reduced (w : Wiring σ) (pc : UInt16) (opcode : UInt8) (cost : Nat) :
    Keeps Reduced (retire w pc opcode cost) :=
  .bind (fun _ reduced => reduced) fun _ =>
    .bind (fun _ reduced => reduced) fun waits =>
    .bind (tickTimer_reduced w waits) fun _ =>
    fun _ reduced => reduced

theorem runSkipped_reduced (w : Wiring σ) (pc : UInt16) (opcode : UInt8) (entry : Entry) :
    Keeps Reduced (runSkipped w pc opcode entry) :=
  .bind (tickTimer_reduced w _) fun _ =>
    .bind (fun _ reduced => reduced) fun _ =>
    retire_reduced w pc opcode _

theorem runIllegal_reduced (w : Wiring σ) (pc : UInt16) (opcode : UInt8) (entry : Entry) :
    Keeps Reduced (runIllegal w pc opcode entry) := by
  refine .bind (fun _ reduced => reduced) fun _ =>
    .bind (fun _ reduced => reduced) fun _ => ?_
  dsimp only
  cases w.config.policy with
  | fatal =>
    exact .bind (fun _ reduced => reduced) fun _ => .pure _
  | nop =>
    exact .bind (tickTimer_reduced w _) fun _ =>
      .bind (retire_reduced w pc opcode _) fun _ => .pure _

section Family

variable (family : w.geometry.family = .ucom44)
include family

theorem runInstruction_reduced : Keeps Reduced (runInstruction w) := by
  intro m reduced
  rw [runInstruction_took, family]
  dsimp only
  -- a fetch leaves these registers alone, so only what is performed counts
  refine Keeps.ite (fun _ => ?_) (fun _ => .ite (fun _ => runIllegal_reduced w _ _ _) fun _ => ?_)
    _ (show Reduced _ from reduced)
  · exact .bind (runSkipped_reduced w _ _ _) fun _ => .pure _
  · exact .bind (tickTimer_reduced w _) fun _ =>
      .bind (perform_reduced w _ (isExtension_reduced _)) fun _ =>
      .bind (retire_reduced w _ _ _) fun _ => .pure _

/-- The entry of the interrupt leaves interrupts enabled. -/
theorem service_reduced : Keeps Reduced (service w) := by
  intro m reduced
  let told := gone w ⟨{ m.core with exec := .servicingInterrupt },
    (m.world.onLatch w.number fun latch => ((), latch.acknowledge interruptLine)).2⟩
  have begins : Reduced told := ⟨decide_eq_true family, reduced.2⟩
  -- time that passes during the entry finds the timer at rest
  have passed := charge_reduced w (interruptCycles + (drainWaitStates w told).1)
    (drainWaitStates w told).2 begins
  rw [service_handler, enterHandler_charges]
  exact passed

/-- A reset enables interrupts and stops the timer, and keeps its flag. -/
theorem reset_reduced : Ensures (fun m => m.core.regs.timerFlag = false) (reset w)
    fun _ => Reduced := by
  intro m clear
  obtain ⟨bus, diagnostics, left⟩ := reset_core w m
  rw [Registers.cleared_eq] at left
  unfold Reduced
  rw [left]
  exact ⟨decide_eq_true family, congrArg (Dial.mk none) clear⟩

/-- The flag of the timer is clear when the reset line takes the core, so it stays clear. -/
theorem sampleReset_reduced : Keeps Reduced (sampleReset w) := by
  intro m reduced
  rw [sampleReset_eq]
  obtain ⟨held, world⟩ := m.world.onLatch w.number (·.sample resetLine .level)
  dsimp only
  split
  · exact reset_reduced family ⟨m.core, world⟩ (congrArg Dial.out reduced.2)
  · split
    · exact reduced
    · exact reduced

theorem advance_reduced (remaining : Nat) : Keeps Reduced (advance w remaining) := by
  intro m reduced
  rw [advance_eq]
  split
  -- a latched fault is answered again
  · exact reduced
  · have sampled := sampleReset_reduced family (unobserved m) reduced
    revert sampled
    obtain ⟨held, m⟩ := sampleReset w (unobserved m)
    intro sampled
    cases held with
    | true => exact charge_reduced w _ m sampled
    | false =>
      have requested : Reduced (latchRequest w m).2 := by
        rw [latchRequest_eq]
        exact sampled
      revert requested
      dsimp only
      obtain ⟨⟨⟩, m⟩ := latchRequest w m
      intro requested
      dsimp only
      split
      · exact service_reduced family m requested
      · exact runInstruction_reduced family m requested

end Family

/-! ## §4 Histories -/

/-- States of a uCOM-4 core whose host does not write to its state. It is built, gets its sink
attached, is reset, advanced, run and asked for levels in whatever world surrounds it, and its host
takes note of the levels that it has driven. -/
inductive Unwritten : Wiring σ → State → Prop where
  | built {config : Config} {program data io : Space σ} {world world' : World σ} {w : Wiring σ}
      {s : State} : build config program data io world = .ok ((w, s), world') → Unwritten w s
  | attached {w : Wiring σ} {s : State} (sink : Sink σ) :
      Unwritten w s → Unwritten { w with sink } s
  | operated {w : Wiring σ} {s s' : State} (command : Command) {world world' : World σ} :
      command.writes = false → Unwritten w s →
      (command.apply ⟨.ucom4 w s, world⟩).2 = ⟨.ucom4 w s', world'⟩ → Unwritten w s'
  | noted {w : Wiring σ} {s : State} : Unwritten w s → Unwritten w { s with outputs := #[] }

/-- A core of the reduced family in such a state. -/
def Reducing (w : Wiring σ) (m : Machine (Core σ) σ) : Prop :=
  ∃ s, m.core = .ucom4 w s ∧ s.Reduced

/-- Without writes to its state, a core of the reduced family leaves those registers alone. -/
theorem apply_reducing (family : w.geometry.family = .ucom44) {command : Command}
    (spares : command.writes = false) : Keeps (Reducing w) command.apply := by
  have acts (remaining : Nat) : Keeps (Reducing w) (Core.advance remaining) := by
    rintro ⟨_, world⟩ ⟨s, rfl, reduced⟩
    exact ⟨_, rfl, advance_reduced family remaining ⟨s, world⟩ reduced⟩
  cases command with
  | reset =>
    rintro ⟨_, world⟩ ⟨s, rfl, reduced⟩
    exact ⟨_, rfl, reset_reduced family ⟨s, world⟩ (congrArg Dial.out reduced.2)⟩
  | advance remaining => exact acts remaining
  | run budget => exact Core.run_keeps acts budget
  | setLine line level =>
    rintro ⟨_, world⟩ ⟨s, rfl, reduced⟩
    exact ⟨s, rfl, reduced⟩
  | stateSet index value => cases spares

theorem Unwritten.reduced {s : State} (unwritten : Unwritten w s)
    (family : w.geometry.family = .ucom44) : s.Reduced := by
  induction unwritten with
  | @built _ _ _ _ before _ w _ built =>
    obtain ⟨-, rfl⟩ := build_reset built
    exact reset_reduced family ⟨{}, before⟩ rfl
  | attached _ _ ih => exact ih family
  | @operated w s s' command before _ spares _ operates ih =>
    have kept := apply_reducing family spares ⟨.ucom4 w s, before⟩ ⟨s, rfl, ih family⟩
    rw [operates] at kept
    obtain ⟨_, same, reduced⟩ := kept
    obtain ⟨-, rfl⟩ := Core.ucom4.inj same
    exact reduced
  | noted _ ih => exact ih family

/-- What an action does with an instruction that it executes, on a part of the reduced family. -/
structure Reduces (w : Wiring σ) (m : Machine State σ) (bytes : List UInt8)
    (after : Except Fault StepOutcome × Machine State σ) : Prop where
  /-- An instruction has as many bytes as on the full family. -/
  length : bytes.length = (decode .ucom43 (bytes.headD 0)).length
  extensions : (decodeFull (bytes.headD 0)).isExtension = true →
    (decode .ucom44 (bytes.headD 0)).operation = .illegal
  /-- What is illegal is refused, past all of its bytes. -/
  refuses : (decode .ucom44 (bytes.headD 0)).operation = .illegal →
    (after.1, after.2.core, after.2.world.devices) = refusal w m bytes
  /-- Any other operation is performed, and is no extension. -/
  performs : let entry := decode .ucom44 (bytes.headD 0)
    entry.operation ≠ .illegal → entry.operation.isExtension = false ∧
      ∃ begins, after = Prod.map .ok id
        (retire w m.core.regs.pc (bytes.headD 0) entry.cycles
          (perform w (bytes.getD 1 m.core.argument) entry.operation begins).2)

theorem Executes.reduces {bytes : List UInt8} (executes : Executes w m bytes)
    (family : w.geometry.family = .ucom44) (remaining : Nat) :
    Reduces w m bytes (advance w remaining m) := by
  refine ⟨?_, illegal_reduced, fun illegal => ?_, fun legal => ⟨isExtension_reduced _, ?_⟩⟩
  · rw [← executes.fetched, length_family .ucom43 w.geometry.family]
    exact length_instruction w m.core.regs.pc m.world.devices
  · refine executes.refuses ?_ remaining
    rw [family]
    exact illegal
  · obtain ⟨lines, log, performs⟩ :=
      executes.performs (congrArg (decode · _) family) legal remaining
    rw [executing_eq executes.released] at performs
    exact ⟨_, performs⟩

/-- However a part of the reduced family is operated: its interrupts are enabled, its timer does not
run, and its flag is clear. It performs no extension, and refuses the opcodes of extensions that it
does not skip, past all of their bytes. -/
theorem reduced_hides_extensions {s : State} (unwritten : Unwritten w s)
    (family : w.geometry.family = .ucom44) :
    (s.regs.intEnable = true ∧ s.timer = none ∧ s.regs.timerFlag = false) ∧
      ∀ world bytes, Executes w ⟨s, world⟩ bytes →
        ∀ remaining, Reduces w ⟨s, world⟩ bytes (advance w remaining ⟨s, world⟩) := by
  obtain ⟨intEnable, dial⟩ := unwritten.reduced family
  exact ⟨⟨intEnable, congrArg Dial.left dial, congrArg Dial.out dial⟩,
    fun _ _ executes remaining => executes.reduces family remaining⟩

/-- A part of the reduced family that finds the opcode of `STM` at every address. Under its tolerant
policy it moves past the opcode and its argument, and its timer does not start. -/
theorem reduced_hides_extensions_timer :
    let cell : Wiring UInt8 := .cell id (fun value _ => value) 0
    let w : Wiring UInt8 :=
      { cell with
        config := { part := .upd552 }
        program := .cell ⟨"program", 10, 8, .little⟩ id fun value _ => value
        data := .cell ⟨"data", 6, 4, .little⟩ id fun value _ => value }
    let s := (reset w ⟨{}, ⟨0x14, {}, {}⟩⟩).2.core
    let found : World UInt8 := ⟨0x14, { latches := [.released 2] }, {}⟩
    let after := advance w 1 ⟨s, found⟩
    w.geometry.family = .ucom44 ∧ Executes w ⟨s, found⟩ [0x14, 0x14] ∧ decodeFull 0x14 = .stm ∧
      after.1 = .ok (.retired 0 2) ∧ after.2.core.regs.pc = 2 ∧
      after.2.core.diagnostics.illegalOpcodes = 1 ∧ after.2.core.timer = none ∧
      after.2.core.regs.intEnable = true := by
  intro cell w s found after
  obtain ⟨_, made⟩ : ∃ world', build w.config w.program w.data w.io ⟨0x14, {}, {}⟩ =
      .ok ((w, s), world') := ⟨_, rfl⟩
  have family : w.geometry.family = .ucom44 := rfl
  have unwritten : Unwritten w s := .built made
  have executes : Executes w ⟨s, found⟩ [0x14, 0x14] := by decide +kernel
  have refused := ((reduced_hides_extensions unwritten family).2 found _ executes 1).refuses
    (by decide +kernel)
  have later : Unwritten w after.2.core :=
    @Unwritten.operated _ w s _ (.advance 1) found after.2.world rfl unwritten rfl
  obtain ⟨⟨intEnable, timer, -⟩, -⟩ := reduced_hides_extensions later family
  have core := congrArg (fun left => left.2.1) refused
  refine ⟨family, executes, rfl, (congrArg Prod.fst refused).trans (by decide +kernel), ?_, ?_,
    timer, intEnable⟩
  · exact (congrArg (fun s : State => s.regs.pc) core).trans (by decide +kernel)
  · exact (congrArg (fun s : State => s.diagnostics.illegalOpcodes) core).trans (by decide +kernel)

end Microboard.Ucom4
