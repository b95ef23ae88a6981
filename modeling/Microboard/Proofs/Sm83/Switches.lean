import Microboard.Proofs.Sm83.Requests
import Microboard.Sm83.Export

/-!
# SM83 switches

Whether a core runs, halts or waits is decided by a handful of switches: its execution state, the
latches of `STOP`, `EI` and the halt bug, the master enable and the note of the reset line. Nothing
else of a core has a say in how they move, so a core moves its switches as a small machine of its
own does. The levels on the halt output are kept with them.

- **§1** Switches, and the ways in which they are thrown.
- **§2** Instructions.
- **§3** Reset, interrupt entry and halted cores.
- **§4** Whole boundary actions, by what the core finds.
- **§5** Values that a debugger writes.
-/

namespace Microboard.Sm83

variable {σ : Type}

/-! ## §1 Switches -/

/-- What decides whether a core runs, halts or waits, and the levels that it has driven on its halt
output, oldest first. -/
structure Switches where
  exec : ExecState
  stopped : Bool
  haltBug : Bool
  eiDelay : Bool
  ime : Bool
  inReset : Bool
  levels : List Bool

/-- Levels driven on the halt output, oldest first. -/
def haltLevels (outputs : List OutputEvent) : List Bool :=
  (outputs.filter (·.line == haltOut)).map (·.asserted)

def State.switches (s : State) : Switches where
  exec := s.exec
  stopped := s.stopped
  haltBug := s.haltBug
  eiDelay := s.eiDelay
  ime := s.regs.ime
  inReset := s.inReset
  levels := haltLevels s.outputs.toList

namespace Switches

/-- The core halts, by `STOP` or by `HALT`. -/
def halt (stopped : Bool) (s : Switches) : Switches :=
  { s with exec := .halted, stopped, levels := s.levels ++ [true] }

/-- A halt ends. -/
def wake (s : Switches) : Switches :=
  { s with exec := .fetching, stopped := false, levels := s.levels ++ [false] }

/-- The core is reset. -/
def restart (s : Switches) : Switches where
  exec := .fetching
  stopped := false
  haltBug := false
  eiDelay := false
  ime := false
  inReset := s.inReset
  levels := if s.exec = .halted then s.levels ++ [false] else s.levels

/-- The reset line takes the core. -/
def hold (s : Switches) : Switches := { s.restart with exec := .idle, inReset := true }

/-- The reset line lets the core go. -/
def release (s : Switches) : Switches := { s with exec := .fetching, inReset := false }

/-- The core has looked at its reset line. -/
def look (active : Bool) (s : Switches) : Switches :=
  if active && !s.inReset then s.hold else if !active && s.inReset then s.release else s

/-- A core that finds its reset line released is let go, if it was held. -/
theorem look_released (s : Switches) :
    s.look false =
      { s with exec := if s.inReset then .fetching else s.exec, inReset := false } := by
  obtain ⟨exec, stopped, haltBug, eiDelay, ime, inReset, levels⟩ := s
  cases inReset <;> rfl

/-- An instruction begins. -/
def begin (s : Switches) : Switches :=
  { s with exec := .executing, eiDelay := false, haltBug := false }

/-- An operation is performed while some enabled interrupt is requested, or none is. -/
def perform (requested : Bool) (op : Op) (s : Switches) : Switches :=
  match op with
  | .stop => s.halt true
  | .halt => if !s.ime && requested then { s with haltBug := true } else s.halt false
  | .di => { s with ime := false, eiDelay := false }
  | .ei => { s with ime := true, eiDelay := true }
  | .reti => { s with ime := true }
  | _ => s

/-- An instruction ends. -/
def retire (s : Switches) : Switches :=
  if s.exec = .executing then { s with exec := .fetching } else s

/-- An interrupt is entered. -/
def enter (s : Switches) : Switches := { s with exec := .fetching, ime := false }

/-- A fault stops the core. -/
def fail (fault : Fault) (s : Switches) : Switches := { s with exec := .faultLatched fault }

end Switches

theorem haltLevels_push (outputs : Array OutputEvent) (line : OutputLine) (asserted : Bool) :
    haltLevels (outputs.push ⟨line, asserted⟩).toList =
      if line = haltOut then haltLevels outputs.toList ++ [asserted]
      else haltLevels outputs.toList := by
  unfold haltLevels
  rw [Array.toList_push, List.filter_append, List.map_append]
  by_cases halts : line = haltOut <;> simp [halts]

/-- A level driven on the halt output is kept, one on another output is passed over. -/
theorem drive_switches (w : Wiring σ) (line : OutputLine) (asserted : Bool)
    (m : Machine State σ) :
    (drive w line asserted m).2.core.switches =
      if line = haltOut then
        { m.core.switches with levels := m.core.switches.levels ++ [asserted] }
      else m.core.switches := by
  show State.switches { m.core with outputs := m.core.outputs.push ⟨line, asserted⟩ } = _
  unfold State.switches
  rw [haltLevels_push]
  split <;> rfl

theorem enterHalt_switches (w : Wiring σ) (stopped : Bool) (m : Machine State σ) :
    (enterHalt w stopped m).2.core.switches = m.core.switches.halt stopped :=
  drive_switches w haltOut true ⟨{ m.core with exec := .halted, stopped }, m.world⟩

theorem wake_switches (w : Wiring σ) (m : Machine State σ) :
    (wake w m).2.core.switches = m.core.switches.wake :=
  drive_switches w haltOut false ⟨{ m.core with exec := .fetching, stopped := false }, m.world⟩

/-! ## §2 Instructions -/

/-- What instructions do to registers and bus throws no switch. -/
theorem moves_switches (w : Wiring σ) (s : Switches) :
    Moves w w (Both fun m => m.core.switches = s) where
  regs := by
    rintro m _ ⟨rfl, -⟩
    rfl
  change plain := Keeps.lockstep fun m same => by
    rw [← same]
    exact congrArg (fun ime => { m.core.switches with ime }) (plain.ime m.core.regs)
  read8 address := Keeps.lockstep <| by
    refine .ite (fun _ => ?_) fun _ => .ite (fun _ => ?_) fun _ => ?_
    · exact .bind (fun _ same => same) fun _ _ same => same
    · exact .bind (fun _ same => same) fun _ _ same => same
    · exact .bind (fun _ same => same) fun _ _ same => same
  write8 address value := Keeps.lockstep <| by
    refine .ite (fun _ => ?_) fun _ => .ite (fun _ => ?_) fun _ => ?_
    · exact .bind (fun _ same => same) fun _ _ same => same
    · exact .bind (fun _ same => same) fun _ _ same => same
    · exact .bind (fun _ same => same) fun _ _ same => same

/-- An operation is performed with the interrupts that are requested when it begins. -/
theorem perform_switches (w : Wiring σ) (op : Op) (m : Machine State σ) :
    (perform w op m).2.core.switches =
      m.core.switches.perform (m.core.regs.pending != 0) op := by
  have moves := moves_switches w m.core.switches
  cases op with
  | stop =>
    have fetched := moves.fetch8.keeps m rfl
    show (enterHalt w true (fetch8 w m).2).2.core.switches = _
    rw [enterHalt_switches, fetched]
    rfl
  | halt =>
    -- the halt bug takes the place of the halt if a request waits that is not served
    show ((if !m.core.regs.ime && m.core.regs.pending != 0 then
        modifyState ({ · with haltBug := true })
      else enterHalt w false : Exec σ Unit) m).2.core.switches =
      if !m.core.regs.ime && m.core.regs.pending != 0 then
        { m.core.switches with haltBug := true }
      else m.core.switches.halt false
    rw [eval_ite]
    split
    · rfl
    · exact enterHalt_switches w false m
  | di | ei => rfl
  | reti =>
    have returned : Ensures (fun m' => m'.core.switches = m.core.switches) (perform w .reti)
        fun _ m' => m'.core.switches = { m.core.switches with ime := true } := by
      refine .bind (.keepsBind moves.steady.pop16.keeps fun target =>
        .keepsBind (moves.jumpTo target).keeps fun _ => ?_) fun _ => .pure fun _ enabled => enabled
      exact fun _ same => congrArg (fun s => { s with ime := true }) same
    exact returned m rfl
  | _ => exact (moves.perform rfl).keeps m rfl

/-- No operation of the second page throws a switch. -/
theorem decodeSecond_isSwitch (opcode : UInt8) : (decodeSecond opcode).isSwitch = false := by
  unfold decodeSecond
  split <;> rfl

theorem execute_switches (w : Wiring σ) (op : Op) (m : Machine State σ) :
    (execute w op m).2.core.switches =
      m.core.switches.perform (m.core.regs.pending != 0) op := by
  unfold execute
  rw [eval_ite]
  split
  next second =>
    have moves := moves_switches w m.core.switches
    rw [second]
    have performed (opcode : UInt8) :
        Keeps (fun m' => m'.core.switches = m.core.switches)
          (performCosted w (decodeSecond opcode)) :=
      .bind (moves.perform (decodeSecond_isSwitch opcode)).keeps fun _ => .pure _
    exact Keeps.bind moves.fetch8.keeps performed m rfl
  · exact perform_switches w op m

theorem fetchOpcode_switches (w : Wiring σ) (m : Machine State σ) :
    (fetchOpcode w m).2.core.switches = { m.core.switches with haltBug := false } := by
  have read := ((moves_switches w m.core.switches).read8 m.core.regs.pc).keeps m rfl
  have fetched (s : State) (opcode : UInt8) :
      (s.fetched opcode).switches = { s.switches with haltBug := false } := by
    unfold State.fetched
    cases bug : s.haltBug <;> simp [State.switches, bug]
  rw [fetchOpcode_eq, fetched, read]

/-- The end of an instruction touches nothing but the execution state and the counters. -/
theorem retire_core (w : Wiring σ) (pc : UInt16) (opcode : UInt8) (cost : Nat)
    (m : Machine State σ) :
    ∃ totalCycles diagnostics, (retire w pc opcode cost m).2.core =
      { m.core with
        exec := if m.core.exec = .executing then .fetching else m.core.exec
        totalCycles, diagnostics } := by
  obtain ⟨⟨⟨exec⟩⟩, world⟩ := m
  cases exec <;> exact ⟨_, _, rfl⟩

theorem retire_switches (w : Wiring σ) (pc : UInt16) (opcode : UInt8) (cost : Nat)
    (m : Machine State σ) :
    (retire w pc opcode cost m).2.core.switches = m.core.switches.retire := by
  obtain ⟨totalCycles, diagnostics, core⟩ := retire_core w pc opcode cost m
  rw [core]
  unfold Switches.retire
  by_cases running : m.core.exec = .executing <;> simp [running, State.switches]

/-- The core as it fetches an opcode. -/
def begun (m : Machine State σ) : Machine State σ :=
  ⟨{ m.core with lastPc := m.core.regs.pc, exec := .executing }, m.world⟩

/-- What is left of an instruction at an address once its opcode is fetched. -/
def runFetched (w : Wiring σ) (pc : UInt16) (opcode : UInt8) :
    Exec σ (Except Fault StepOutcome) := do
  let op := decode opcode
  if op = .illegal then
    modifyStatus fun s =>
      { s with diagnostics := s.diagnostics.recordIllegal pc.toUInt32 opcode }
    let policy := w.config.policy
    Machine.record (.illegalOpcode name pc opcode policy)
    match policy with
    | .fatal =>
      let fault := Fault.illegalOpcode pc.toUInt32 opcode
      modifyStatus ({ · with exec := .faultLatched fault })
      return .error fault
    | .nop => return .ok (← retire w pc opcode op.cost.base)
  else
    let cost ← execute w op
    return .ok (← retire w pc opcode cost)

theorem runInstruction_eq (w : Wiring σ) (m : Machine State σ) :
    runInstruction w m =
      runFetched w m.core.regs.pc (fetchOpcode w (begun m)).1 (fetchOpcode w (begun m)).2 := rfl

/-- What an instruction at an address answers, and what it makes of the switches that it began with.
It is refused, or performs the operation of its opcode. -/
inductive Switches.Performs (s : Switches) (requested : Bool) (pc : UInt16) (opcode : UInt8) :
    Except Fault StepOutcome → Switches → Prop where
  | refused : decode opcode = .illegal →
      Performs s requested pc opcode (.error (.illegalOpcode pc.toUInt32 opcode))
        (s.fail (.illegalOpcode pc.toUInt32 opcode))
  | retired (cycles : Nat) :
      Performs s requested pc opcode (.ok (.retired pc.toUInt32 cycles))
        (s.perform requested (decode opcode)).retire

theorem runFetched_performs (w : Wiring σ) (pc : UInt16) (opcode : UInt8) (s : Switches)
    (requested : Bool) :
    Ensures (fun m => m.core.switches = s ∧ (m.core.regs.pending != 0) = requested)
      (runFetched w pc opcode)
      fun answer m => s.Performs requested pc opcode answer m.core.switches := by
  have retires (cost : Nat) :
      Ensures (fun m => m.core.switches = s.perform requested (decode opcode))
        (retire w pc opcode cost)
        fun step m => s.Performs requested pc opcode (.ok step) m.core.switches := by
    intro m same
    rw [retire_switches, same]
    exact .retired _
  refine .ite (fun illegal => ?_) fun _ => ?_
  · refine .keepsBind (fun _ same => same) fun _ => .keepsBind (fun _ same => same) fun _ => ?_
    dsimp only
    cases w.config.policy with
    | fatal =>
      rintro m ⟨rfl, -⟩
      exact .refused illegal
    | nop =>
      refine .mapped fun m same => retires _ m ?_
      rw [illegal]
      exact same.1
  · rintro m ⟨rfl, rfl⟩
    exact retires _ _ (execute_switches w (decode opcode) m)

/-- A fetch raises and drops no request. -/
theorem fetchOpcode_pending (w : Wiring σ) (m : Machine State σ) :
    (fetchOpcode w m).2.core.regs.pending = m.core.regs.pending := by
  have fetched (s : State) (opcode : UInt8) : (s.fetched opcode).regs.pending = s.regs.pending := by
    unfold State.fetched
    split <;> rfl
  rw [fetchOpcode_eq, fetched, regs_read8]

theorem runInstruction_performs (w : Wiring σ) {m : Machine State σ}
    (prompt : m.core.eiDelay = false) :
    m.core.switches.begin.Performs (m.core.regs.pending != 0) m.core.regs.pc
      (fetchOpcode w (begun m)).1 (runInstruction w m).1 (runInstruction w m).2.core.switches := by
  have fetched : (fetchOpcode w (begun m)).2.core.switches = m.core.switches.begin := by
    rw [fetchOpcode_switches]
    simp [State.switches, Switches.begin, begun, prompt]
  rw [runInstruction_eq]
  refine runFetched_performs w _ _ _ _ _ ⟨fetched, ?_⟩
  rw [fetchOpcode_pending]
  rfl

/-- What an instruction that began with some switches makes of them. It is refused, or performs an
operation. -/
def Switches.Ran (s after : Switches) : Prop :=
  (∃ fault, after = s.fail fault) ∨ ∃ requested op, after = (s.perform requested op).retire

theorem Switches.Performs.ran {s after : Switches} {requested : Bool} {pc : UInt16}
    {opcode : UInt8} {answer : Except Fault StepOutcome}
    (performs : s.Performs requested pc opcode answer after) : s.Ran after := by
  cases performs with
  | refused => exact .inl ⟨_, rfl⟩
  | retired => exact .inr ⟨_, _, rfl⟩

theorem runInstruction_switches (w : Wiring σ) {m : Machine State σ}
    (prompt : m.core.eiDelay = false) :
    m.core.switches.begin.Ran (runInstruction w m).2.core.switches :=
  (runInstruction_performs w prompt).ran

/-! ## §3 Reset, interrupt entry and halted cores -/

theorem reset_switches (w : Wiring σ) (m : Machine State σ) :
    (reset w m).2.core.switches = m.core.switches.restart := by
  have powered : w.config.powerOn.ime = false := by
    unfold Config.powerOn
    split <;> rfl
  unfold reset Switches.restart
  rw [eval_bind, eval_getState, eval_ite]
  split
  next halted =>
    have driven := drive_switches w haltOut false m
    rw [if_pos rfl] at driven
    show { (drive w haltOut false m).2.core.switches with
      exec := .fetching, stopped := false, haltBug := false, eiDelay := false,
      ime := w.config.powerOn.ime } = _
    rw [driven, powered, if_pos (show m.core.switches.exec = .halted from halted)]
  next running =>
    show { m.core.switches with
      exec := .fetching, stopped := false, haltBug := false, eiDelay := false,
      ime := w.config.powerOn.ime } = _
    rw [powered, if_neg (show ¬m.core.switches.exec = .halted from running)]

theorem sampleReset_switches (w : Wiring σ) (m : Machine State σ) :
    (sampleReset w m).2.core.switches = m.core.switches.look (sampleReset w m).1 := by
  rw [sampleReset_eq]
  obtain ⟨held, world⟩ := m.world.onLatch w.number (·.sample resetLine .level)
  have taken : { (reset w ⟨m.core, world⟩).2.core.switches with exec := .idle, inReset := true } =
      m.core.switches.hold := by
    rw [reset_switches]
    rfl
  unfold Switches.look
  rw [show m.core.switches.inReset = m.core.inReset from rfl]
  cases held <;> cases m.core.inReset
  · rfl
  · rfl
  · exact taken
  · rfl

theorem latchRequests_switches (w : Wiring σ) (m : Machine State σ) :
    (latchRequests w m).2.core.switches = m.core.switches := rfl

theorem enterHandler_switches (w : Wiring σ) (source : InputLine) (s : Switches) :
    Ensures (fun m => m.core.switches = s) (enterHandler w source)
      fun _ m => m.core.switches = { s with exec := .fetching } := by
  -- the pulse on the acknowledge output is none on the halt output
  have pulse (asserted : Bool) :
      Keeps (fun m => m.core.switches = s) (drive w acknowledgeOut asserted) :=
    fun m same => (drive_switches w acknowledgeOut asserted m).trans same
  refine .keepsBind ((moves_switches w s).callTo _).keeps fun _ => .keepsBind (pulse true) fun _ =>
    .keepsBind (pulse false) fun _ => .keepsBind (fun _ same => same) fun _ =>
    .keepsBind (fun _ same => same) fun _ => ?_
  exact fun m same => congrArg (fun s => { s with exec := ExecState.fetching }) same

theorem service_switches (w : Wiring σ) (source : InputLine) (m : Machine State σ) :
    (service w source m).2.core.switches = m.core.switches.enter := by
  rw [service_eq, eval_bind, eval_bind]
  exact enterHandler_switches w source (m.core.interrupted source).switches _ rfl

theorem stayHalted_switches (w : Wiring σ) (remaining : Nat) (raised : UInt8)
    (m : Machine State σ) :
    (stayHalted w remaining raised m).2.core.switches =
      if wakes m.core raised then m.core.switches.wake else m.core.switches := by
  rw [stayHalted_eq]
  split
  · exact wake_switches w m
  · rfl

/-! ## §4 Boundary actions -/

theorem charged_switches (cycles : Nat) (m : Machine State σ) :
    (charged cycles m).core.switches = m.core.switches := rfl

/-- Of the lines, only the reset line throws switches. -/
theorem sample_switches (w : Wiring σ) (m : Machine State σ) :
    (sample w m).2.core.switches =
      m.core.switches.look ((m.world.lines.latch w.number).level resetLine).isActive := by
  have sampled := sampleReset_switches w (unobserved m)
  rw [sampleReset_fst] at sampled
  rw [sample_eq, latchRequests_switches]
  exact sampled

/-- What a core that has looked at its lines does with its switches. -/
inductive Switches.Acts (s : Switches) : Switches → Prop where
  | sleeps : s.exec = .halted → Acts s s
  | wakes : s.exec = .halted → Acts s s.wake
  | enters : s.exec ≠ .halted → s.eiDelay = false → s.ime = true → Acts s s.enter
  | runs {after : Switches} : s.exec ≠ .halted → s.begin.Ran after → Acts s after

theorem act_switches (w : Wiring σ) (remaining : Nat) (raised : UInt8) (m : Machine State σ) :
    m.core.switches.Acts (act w remaining raised m).2.core.switches := by
  obtain ⟨halted, acts⟩ | ⟨running, acts | ⟨source, -, prompt, found, acts⟩⟩ :=
    act_cases w remaining raised m
  · rw [acts]
    show Switches.Acts _ (stayHalted w remaining raised m).2.core.switches
    rw [stayHalted_switches]
    split
    · exact .wakes halted
    · exact .sleeps halted
  · rw [acts]
    exact .runs running (runInstruction_switches w (m := ⟨{ m.core with eiDelay := false }, _⟩) rfl)
  · rw [acts]
    show Switches.Acts _ (service w source m).2.core.switches
    rw [service_switches]
    refine .enters running prompt ?_
    -- a source is found only while interrupts are enabled
    unfold Registers.nextInterrupt? at found
    split at found
    next enabled => exact enabled
    · cases found

/-- What one boundary action does with the switches of a core. -/
inductive Switches.Advances (s : Switches) (active : Bool) : Switches → Prop where
  | refused {fault : Fault} : s.exec = .faultLatched fault → Advances s active s
  | held : s.exec.latchedFault? = none → active = true → Advances s active (s.look true)
  | acted {after : Switches} : s.exec.latchedFault? = none → active = false →
      (s.look false).Acts after → Advances s active after

/-- A core that its reset line holds has looked at the line, and that is all. -/
theorem advance_held_switches {w : Wiring σ} {m : Machine State σ}
    (awake : m.core.exec.latchedFault? = none) (active : ¬Released w m) (remaining : Nat) :
    (advance w remaining m).2.core.switches = m.core.switches.look true := by
  have looked := sampleReset_switches w (unobserved m)
  rw [sampleReset_fst] at looked
  rw [advance_held awake active]
  dsimp only
  rw [charged_switches, looked]
  exact congrArg (m.core.switches.look ·) (eq_true_of_ne_false active)

theorem advance_switches (w : Wiring σ) (remaining : Nat) (m : Machine State σ) :
    m.core.switches.Advances ((m.world.lines.latch w.number).level resetLine).isActive
      (advance w remaining m).2.core.switches := by
  cases latched : m.core.exec.latchedFault? with
  | some fault =>
    rw [advance_eq, latched]
    exact .refused (ExecState.eq_faultLatched latched)
  | none =>
    cases active : ((m.world.lines.latch w.number).level resetLine).isActive with
    | true =>
      rw [advance_held_switches latched (by simp [Released, active])]
      exact .held latched rfl
    | false =>
      have looked := sample_switches w m
      rw [active] at looked
      rw [advance_sampled latched active, eval_bind]
      refine .acted latched rfl ?_
      rw [← looked]
      exact act_switches w remaining _ _

/-! ## §5 Written values -/

/-- What a debugger does with the switches of a core when it writes a value. It sets latches and the
master enable, halts a core that runs, or wakes one that is halted. -/
inductive Switches.Written (s : Switches) : Switches → Prop where
  | sets (stopped haltBug eiDelay ime : Bool) :
      Written s { s with stopped, haltBug, eiDelay, ime }
  | halts : s.exec ≠ .halted → Written s (s.halt s.stopped)
  | wakes : s.exec = .halted → Written s s.wake

/-- A value that is not among the switches. -/
theorem Switches.Written.refl (s : Switches) : s.Written s :=
  .sets s.stopped s.haltBug s.eiDelay s.ime

theorem write_switches (w : Wiring σ) (item : Export) (value : Nat) (m : Machine State σ) :
    m.core.switches.Written (item.write w value m).2.core.switches := by
  cases item with
  | halted =>
    show Switches.Written _ ((if (value % 2 != 0) && !decide (m.core.exec = .halted) then
        enterHalt w m.core.stopped
      else if !(value % 2 != 0) && decide (m.core.exec = .halted) then wake w
      else pure () : Exec σ Unit) m).2.core.switches
    rw [eval_ite, eval_ite]
    split
    next halts =>
      have running : m.core.exec ≠ .halted := by simpa using (Bool.and_eq_true_iff.mp halts).2
      rw [enterHalt_switches]
      exact .halts running
    · split
      next wakes =>
        have halted : m.core.exec = .halted := by simpa using (Bool.and_eq_true_iff.mp wakes).2
        rw [wake_switches]
        exact .wakes halted
      · exact .refl _
  | pc | currentPc | stopped | haltBug | eiDelay | ime => exact .sets _ _ _ _
  | _ => exact .refl _

end Microboard.Sm83
