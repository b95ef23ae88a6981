import Microboard.Proofs.Ucom4.Entering

/-!
# uCOM-4 instructions, piece by piece

What an instruction has in common with every other: it is fetched from the program space, and it ends
when the spaces have given up their wait states.

- **§1** The bytes of an instruction, fetched in one access.
- **§2** The end of an instruction.
- **§3** Actions that execute an instruction.
-/

namespace Microboard.Ucom4

variable {σ : Type}

/-! ## §1 Fetches -/

/-- The bytes of an instruction: its opcode, and the argument if one follows. -/
def Wiring.instruction (w : Wiring σ) (pc : UInt16) : Access σ (List UInt8) := do
  let opcode ← w.program.readUnit pc.toUInt32
  if hasArgument opcode then
    let argument ← w.program.readUnit (w.geometry.nextAddress pc).toUInt32
    return [opcode, argument]
  else
    return [opcode]

/-- Bus cycles on which some bytes are fetched from an address on. -/
def Geometry.fetchCycles (g : Geometry) (pc : UInt16) : List UInt8 → List BusCycle
  | [] => []
  | byte :: bytes => fetchCycle pc byte :: g.fetchCycles (g.nextAddress pc) bytes

section Fetches

variable (w : Wiring σ)

theorem instruction_apply (pc : UInt16) (devices : σ) :
    w.instruction pc devices =
      let first := w.program.readUnit pc.toUInt32 devices
      let second := w.program.readUnit (w.geometry.nextAddress pc).toUInt32 first.state
      if hasArgument first.value then
        ⟨[first.value, second.value], second.state, first.requests ++ second.requests⟩
      else
        ⟨[first.value], first.state, first.requests⟩ := by
  unfold Wiring.instruction
  rw [Access.bind_apply]
  dsimp only
  split <;> simp [Access.bind_apply, Access.pure_apply]

theorem length_decode_eq_two (family : Family) (opcode : UInt8) :
    (decode family opcode).length = 2 ↔ hasArgument opcode = true := by
  show (if hasArgument opcode = true then 2 else 1) = 2 ↔ _
  split <;> simp [*]

/-- An instruction has as many bytes as its opcode asks for. -/
theorem length_instruction (pc : UInt16) (devices : σ) :
    (w.instruction pc devices).value.length =
      (decode w.geometry.family ((w.instruction pc devices).value.headD 0)).length := by
  rw [instruction_apply]
  dsimp only
  unfold decode
  split
  next long => exact (if_pos long).symm
  next short => exact (if_neg short).symm

/-- The core once it has fetched the bytes of an instruction. -/
def State.took (g : Geometry) (bytes : List UInt8) (s : State) : State :=
  { s with
    regs := { s.regs with pc := g.nextAddress^[bytes.length] s.regs.pc }
    opcode := bytes.headD 0
    argument := bytes.getD 1 s.argument
    bus := s.bus ++ g.fetchCycles s.regs.pc bytes }

theorem fetchInstruction_took (m : Machine State σ) :
    fetchInstruction w m =
      let fetch := World.perform (w.instruction m.core.regs.pc) m.world
      let opcode := fetch.1.headD 0
      ((opcode, decode w.geometry.family opcode), ⟨m.core.took w.geometry fetch.1, fetch.2⟩) := by
  have sized := length_decode_eq_two w.geometry.family
  unfold fetchInstruction Wiring.instruction
  rw [World.perform_bind, eval_bind, eval_ite]
  have opcode : (fetch w m).1 =
      (World.perform (w.program.readUnit m.core.regs.pc.toUInt32) m.world).1 := rfl
  rw [opcode]
  by_cases long : hasArgument
      (World.perform (w.program.readUnit m.core.regs.pc.toUInt32) m.world).1 = true
  · have joined (first second : BusCycle) :
        m.core.bus ++ [first, second] = m.core.bus ++ [first] ++ [second] :=
      List.append_cons ..
    rw [if_pos ((sized _).mpr long), if_pos long, World.perform_bind, World.perform_pure]
    unfold State.took
    simp only [Geometry.fetchCycles, joined]
    rfl
  · rw [if_neg (mt (sized _).mp long), if_neg long]
    rfl

/-- What an instruction does once its bytes are there. -/
theorem runInstruction_took (m : Machine State σ) :
    runInstruction w m =
      let fetch := World.perform (w.instruction m.core.regs.pc) m.world
      let opcode := fetch.1.headD 0
      let s := m.core.begun.took w.geometry fetch.1
      runFetched w m.core.regs.pc opcode (decode w.geometry.family opcode) s ⟨s, fetch.2⟩ := by
  have took := fetchInstruction_took w ⟨m.core.begun, m.world⟩
  rw [runInstruction_fetched]
  unfold nextOpcode fetched
  rw [took]
  rfl

end Fetches

/-! ## §2 The end of an instruction -/

/-- The wait states that the three spaces give up together. -/
def Wiring.waits (w : Wiring σ) (devices : σ) : UInt32 :=
  let program := w.program.takeWaitStates devices
  let data := w.data.takeWaitStates program.2
  let io := w.io.takeWaitStates data.2
  satAdd32 (satAdd32 program.1 data.1) io.1

/-- The core once an instruction has ended that took some cycles, wait states included. -/
def State.retired (waits : UInt32) (cycles : Nat) (s : State) : State :=
  { s.withDial (s.dial.after waits.toNat) with
    exec := .fetching
    totalCycles := satAdd s.totalCycles cycles
    diagnostics := (s.diagnostics.recordWaitStates waits).recordInstruction }

theorem retire_eq (w : Wiring σ) (pc : UInt16) (opcode : UInt8) (cost : Nat)
    (m : Machine State σ) :
    ∃ log,
      let waits := w.waits m.world.devices
      let cycles := cost + waits.toNat
      retire w pc opcode cost m = (.retired pc.toUInt32 cycles,
        ⟨m.core.retired waits cycles,
          { m.world with devices := w.drained m.world.devices, log }⟩) := by
  let ended : Machine State σ :=
    ⟨{ m.core with
        exec := .fetching
        diagnostics := m.core.diagnostics.recordWaitStates (w.waits m.world.devices) },
      { m.world with devices := w.drained m.world.devices }⟩
  obtain ⟨log, ticked⟩ := tickTimer_dial w (w.waits m.world.devices).toNat ended
  have counted : retire w pc opcode cost m =
      let passed := (tickTimer w (w.waits m.world.devices).toNat ended).2
      let cycles := cost + (w.waits m.world.devices).toNat
      (.retired pc.toUInt32 cycles,
        ⟨{ passed.core with
            totalCycles := satAdd passed.core.totalCycles cycles
            diagnostics := passed.core.diagnostics.recordInstruction },
          passed.world.record (.retired w.name pc opcode cycles)⟩) := rfl
  rw [ticked] at counted
  exact ⟨_, counted⟩

/-! ## §3 Executions -/

section Executions

variable {w : Wiring σ} {m : Machine State σ} {bytes : List UInt8}

/-- To look at the lines moves no byte of an instruction. -/
theorem perform_instruction_sample (released : Released w m) (pc : UInt16) :
    (World.perform (w.instruction pc) (sample w m).2.world).1 =
        (w.instruction pc m.world.devices).value ∧
      (World.perform (w.instruction pc) (sample w m).2.world).2.devices =
        (w.instruction pc m.world.devices).state := by
  rw [← (sample_levels released).1]
  exact ⟨rfl, rfl⟩

/-- The core once it has looked at its lines and fetched an instruction. -/
def State.executing (w : Wiring σ) (m : Machine State σ) (bytes : List UInt8) : State :=
  (sample w m).2.core.begun.took w.geometry bytes

theorem executing_eq (released : Released w m) (bytes : List UInt8) :
    State.executing w m bytes =
      { m.core with
        regs := { m.core.regs with
          pc := w.geometry.nextAddress^[bytes.length] m.core.regs.pc
          intFlag := flagFound w m }
        opcode := bytes.headD 0
        argument := bytes.getD 1 m.core.argument
        lastPc := m.core.regs.pc
        exec := .executing
        inReset := false
        bus := w.geometry.fetchCycles m.core.regs.pc bytes } := by
  unfold State.executing
  rw [sample_core released]
  rfl

/-- What a core runs that has looked at its lines and enters no interrupt. -/
theorem runInstruction_sample (released : Released w m) :
    ∃ lines log,
      let fetch := w.instruction m.core.regs.pc m.world.devices
      let opcode := fetch.value.headD 0
      let s := State.executing w m fetch.value
      runInstruction w (sample w m).2 = runFetched w m.core.regs.pc opcode
        (decode w.geometry.family opcode) s ⟨s, fetch.state, lines, log⟩ := by
  have runs := runInstruction_took w (sample w m).2
  have pc : (sample w m).2.core.regs.pc = m.core.regs.pc := by rw [sample_core released]
  obtain ⟨bytes, devices⟩ := perform_instruction_sample released m.core.regs.pc
  rw [pc] at runs
  dsimp only at runs
  rw [bytes] at runs
  refine ⟨(World.perform (w.instruction m.core.regs.pc) (sample w m).2.world).2.lines,
    (World.perform (w.instruction m.core.regs.pc) (sample w m).2.world).2.log, runs.trans ?_⟩
  rw [← devices]
  rfl

/-- The next action fetches an instruction, unless a fault is latched: the reset line does not hold
the core, and no interrupt is due. -/
structure Fetches (w : Wiring σ) (m : Machine State σ) (bytes : List UInt8) : Prop where
  released : Released w m
  undue : interruptAllowed (sample w m).2.core = false
  /-- What the program counter points at. -/
  fetched : (w.instruction m.core.regs.pc m.world.devices).value = bytes

instance : Decidable (Released w m) := inferInstanceAs (Decidable (_ = false))

instance : Decidable (Fetches w m bytes) :=
  decidable_of_iff (Released w m ∧ interruptAllowed (sample w m).2.core = false ∧
    (w.instruction m.core.regs.pc m.world.devices).value = bytes)
    ⟨fun ⟨released, undue, fetched⟩ => ⟨released, undue, fetched⟩,
      fun fetches => ⟨fetches.released, fetches.undue, fetches.fetched⟩⟩

/-- The next action executes an instruction: it fetches it, and neither refuses nor skips it. -/
structure Executes (w : Wiring σ) (m : Machine State σ) (bytes : List UInt8) : Prop
    extends Fetches w m bytes where
  awake : m.core.exec.latchedFault? = none
  runs : m.core.skip = false

instance : Decidable (Executes w m bytes) :=
  decidable_of_iff (Fetches w m bytes ∧ m.core.exec.latchedFault? = none ∧ m.core.skip = false)
    ⟨fun ⟨fetches, awake, runs⟩ => ⟨fetches, awake, runs⟩,
      fun executes => ⟨executes.toFetches, executes.awake, executes.runs⟩⟩

theorem Executes.advance_runs (executes : Executes w m bytes) (remaining : Nat) :
    ∃ lines log,
      let s := State.executing w m bytes
      let devices := (w.instruction m.core.regs.pc m.world.devices).state
      advance w remaining m = runFetched w m.core.regs.pc (bytes.headD 0)
        (decode w.geometry.family (bytes.headD 0)) s ⟨s, devices, lines, log⟩ := by
  obtain ⟨⟨released, undue, rfl⟩, awake, -⟩ := executes
  rw [advance_acts awake released, undue, if_neg nofun]
  exact runInstruction_sample released

/-- The cycles of an instruction pass, then its operation runs, and it ends. -/
theorem Executes.performs (executes : Executes w m bytes) {entry : Entry}
    (decoded : decode w.geometry.family (bytes.headD 0) = entry)
    (legal : entry.operation ≠ .illegal) (remaining : Nat) :
    ∃ lines log,
      let s := State.executing w m bytes
      let devices := (w.instruction m.core.regs.pc m.world.devices).state
      let begins := ⟨s.withDial (s.dial.after entry.cycles), devices, lines, log⟩
      advance w remaining m = Prod.map .ok id (retire w m.core.regs.pc (bytes.headD 0) entry.cycles
        (perform w s.argument entry.operation begins).2) := by
  obtain ⟨lines, log, runs⟩ := executes.advance_runs remaining
  have unskipped : (State.executing w m bytes).skip = false := by
    rw [executing_eq executes.released]
    exact executes.runs
  obtain ⟨log', ticked⟩ := tickTimer_dial w entry.cycles ⟨State.executing w m bytes,
    (w.instruction m.core.regs.pc m.world.devices).state, lines, log⟩
  refine ⟨lines, log', ?_⟩
  rw [runs, decoded]
  unfold runFetched
  rw [eval_ite, if_neg (ne_true_of_eq_false unskipped), eval_ite, if_neg legal, eval_bind, ticked]
  rfl

end Executions

end Microboard.Ucom4
