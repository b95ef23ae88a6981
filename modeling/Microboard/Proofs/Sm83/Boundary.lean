import Microboard.Proofs.Sm83.Lockstep
import Microboard.Sm83.Step

/-!
# SM83 boundary actions in lockstep

- **§1** States that differ in their counters only, and the changes of state that boundary
  actions make.
- **§2** Relations that such changes and the accesses to the world carry on.
- **§3** What a core does between two looks at its lines, where the clock carries the relation on
  as well.
- **§4** Relations that follow the latch, too: reset, sampling, and whole boundary actions.
- **§5** Relations that are followed: equal cores or alike cores in coupled worlds, one core whose
  registers are sound, and one core whose clock stands still.

A core looks at its lines at the start of an action only. What comes after is in lockstep under
relations that say nothing of the latch, and these have a structure of their own.
-/

namespace Microboard.Sm83

variable {σ τ : Type}

/-! ## §1 Changes of state -/

/-- The states differ at most in what they count and have recorded: the cycle total, the event
counters and the levels driven. -/
def State.Alike (s t : State) : Prop :=
  ∃ cycles diagnostics outputs,
    t = { s with totalCycles := cycles, diagnostics := diagnostics, outputs := outputs }

/-- A change of state that does not look at the counters, leaves the clock alone and sets no
register bit that does not exist. -/
structure State.Proper (change : State → State) : Prop where
  alike : ∀ (s : State) cycles diagnostics outputs, (change s).Alike
    (change { s with totalCycles := cycles, diagnostics := diagnostics, outputs := outputs })
  clock : ∀ s, (change s).totalCycles = s.totalCycles
  sound : ∀ s, s.regs.Sound → (change s).regs.Sound

namespace State

/-- A change that leaves the registers alone. -/
theorem Proper.aside {change : State → State}
    (keeps : ∀ s, (change s).totalCycles = s.totalCycles ∧ (change s).regs = s.regs)
    (alike : ∀ (s : State) cycles diagnostics outputs, (change s).Alike
      (change { s with totalCycles := cycles, diagnostics := diagnostics, outputs := outputs })) :
    Proper change where
  alike := alike
  clock s := (keeps s).1
  sound s sound := by rw [(keeps s).2]; exact sound

/-- A change of the registers. -/
theorem Proper.onRegs {change : Registers → Registers} (sound : ∀ r, r.Sound → (change r).Sound) :
    Proper fun s => { s with regs := change s.regs } where
  alike _ _ _ _ := ⟨_, _, _, rfl⟩
  clock _ := rfl
  sound s holds := sound s.regs holds

end State

/-- A plain change keeps the registers sound. -/
theorem Registers.Plain.sound {change : Registers → Registers} (plain : Plain change)
    (r : Registers) (sound : r.Sound) : (change r).Sound where
  f := plain.f r sound.f
  iflag := by rw [plain.iflag r]; exact sound.iflag

theorem Registers.setIflag_sound (value : UInt8) (r : Registers) (sound : r.Sound) :
    (r.setIflag value).Sound where
  f := sound.f
  iflag := masked_twice _ _

theorem Registers.masked_or {a b mask : UInt8} (first : a &&& mask = a) (second : b &&& mask = b) :
    (a ||| b) &&& mask = a ||| b := by
  rw [or_and_distrib, first, second]

/-- The registers after power-on are sound. -/
theorem Config.powerOn_sound (config : Config) : config.powerOn.Sound := by
  unfold Config.powerOn
  split
  · exact ⟨rfl, rfl⟩
  · exact ⟨rfl, rfl⟩

/-- Edges of request lines only become bits of sources that exist. -/
theorem takeEdges_mask (latch : LineLatch) :
    (takeEdges latch requestLines).1 &&& interruptMask = (takeEdges latch requestLines).1 := by
  simp only [takeEdges, requestLines]
  repeat' split
  all_goals rfl

/-- A read leaves the registers alone. -/
theorem regs_read8 (w : Wiring σ) (address : UInt16) (m : Machine State σ) :
    (read8 w address m).2.core.regs = m.core.regs := by
  unfold read8
  rw [eval_ite]
  split
  · rfl
  · rw [eval_ite]
    split <;> rfl

/-- The state after an opcode has been fetched. -/
def State.fetched (opcode : UInt8) (s : State) : State :=
  if s.haltBug then { s with haltBug := false, opcode }
  else { s with regs := { s.regs with pc := s.regs.pc + 1 }, opcode }

theorem fetchOpcode_eq (w : Wiring σ) (m : Machine State σ) :
    fetchOpcode w m = ((read8 w m.core.regs.pc m).1,
      ⟨(read8 w m.core.regs.pc m).2.core.fetched (read8 w m.core.regs.pc m).1,
        (read8 w m.core.regs.pc m).2.world⟩) := rfl

/-! ## §2 Relations that are carried on -/

/-- A relation between machines that every proper change of state and every access to the world
carries on. -/
structure Carries (w : Wiring σ) (w' : Wiring τ)
    (R : Machine State σ → Machine State τ → Prop) : Prop where
  config : w.config = w'.config
  alike : ∀ {m m'}, R m m' → m.core.Alike m'.core
  modify : ∀ {change}, State.Proper change →
    Lockstep R (modifyState change) (modifyState change)
  readUnit : ∀ address, Lockstep R (Machine.readUnit w.program address)
    (Machine.readUnit w'.program address)
  writeUnit : ∀ address value, Lockstep R (Machine.writeUnit w.program address value)
    (Machine.writeUnit w'.program address value)
  takeWaitStates : Lockstep R (Machine.takeWaitStates w.program)
    (Machine.takeWaitStates w'.program)
  signal : ∀ line asserted, Lockstep R (Machine.signal w.sink line asserted)
    (Machine.signal w'.sink line asserted)
  record : ∀ event, Lockstep R (Machine.record event) (Machine.record event)

namespace Carries

variable {w : Wiring σ} {w' : Wiring τ} {R : Machine State σ → Machine State τ → Prop}

/-- A program that looks at the state sees alike states. -/
theorem look (carries : Carries w w' R) {α : Type} {f : State → Exec σ α} {f' : State → Exec τ α}
    (next : ∀ (s : State) cycles diagnostics outputs, Lockstep R (f s)
      (f' { s with totalCycles := cycles, diagnostics := diagnostics, outputs := outputs })) :
    Lockstep R (getState >>= f) (getState >>= f') := by
  intro m m' related
  obtain ⟨cycles, diagnostics, outputs, same⟩ := carries.alike related
  have inStep := next m.core cycles diagnostics outputs
  rw [← same] at inStep
  exact inStep m m' related

theorem getRegs (carries : Carries w w' R) : Lockstep R getRegs getRegs :=
  carries.look fun s _ _ _ => .pure s.regs

/-- A change that leaves the registers alone. -/
theorem aside (carries : Carries w w' R) {change : State → State}
    (keeps : ∀ s, (change s).totalCycles = s.totalCycles ∧ (change s).regs = s.regs)
    (alike : ∀ (s : State) cycles diagnostics outputs, (change s).Alike
      (change { s with totalCycles := cycles, diagnostics := diagnostics, outputs := outputs })) :
    Lockstep R (modifyState change) (modifyState change) :=
  carries.modify (.aside keeps alike)

/-- A change of the registers that keeps them sound. -/
theorem modifyRegs (carries : Carries w w' R) {change : Registers → Registers}
    (sound : ∀ r, r.Sound → (change r).Sound) :
    Lockstep R (modifyRegs change) (modifyRegs change) :=
  carries.modify (.onRegs sound)

theorem observe (carries : Carries w w' R) (role : BusRole) (direction : BusDirection)
    (address : UInt16) (value : UInt8) :
    Lockstep R (observe role direction address value) (observe role direction address value) := by
  exact carries.aside (fun _ => ⟨rfl, rfl⟩) fun _ _ _ _ => ⟨_, _, _, rfl⟩

theorem drive (carries : Carries w w' R) (line : OutputLine) (asserted : Bool) :
    Lockstep R (drive w line asserted) (drive w' line asserted) := by
  refine .bind (carries.aside (fun _ => ⟨rfl, rfl⟩) ?_) fun _ => carries.signal line asserted
  intro s cycles diagnostics outputs
  exact ⟨_, _, _, rfl⟩

theorem read8 (carries : Carries w w' R) (address : UInt16) :
    Lockstep R (read8 w address) (read8 w' address) := by
  refine .ite (fun _ => ?_) fun _ => .ite (fun _ => ?_) fun _ => ?_
  · refine .bind carries.getRegs fun regs => ?_
    exact .bind (carries.observe _ _ _ _) fun _ => .pure regs.ie
  · refine .bind carries.getRegs fun regs => ?_
    exact .bind (carries.observe _ _ _ _) fun _ => .pure (shownIf regs)
  · refine .bind (carries.readUnit _) fun value => ?_
    exact .bind (carries.observe _ _ _ _) fun _ => .pure value

theorem write8 (carries : Carries w w' R) (address : UInt16) (value : UInt8) :
    Lockstep R (write8 w address value) (write8 w' address value) := by
  refine .ite (fun _ => ?_) fun _ => .ite (fun _ => ?_) fun _ => ?_
  · refine .bind (carries.modifyRegs fun r sound => ?_) fun _ => carries.observe _ _ _ _
    exact ⟨sound.f, sound.iflag⟩
  · refine .bind (carries.modifyRegs ?_) fun _ => carries.observe _ _ _ _
    exact Registers.setIflag_sound value
  · exact .bind (carries.writeUnit _ _) fun _ => carries.observe _ _ _ _

theorem enterHalt (carries : Carries w w' R) (stopped : Bool) :
    Lockstep R (enterHalt w stopped) (enterHalt w' stopped) := by
  refine .bind (carries.aside (fun _ => ⟨rfl, rfl⟩) ?_) fun _ => ?_
  · intro s cycles diagnostics outputs
    exact ⟨_, _, _, rfl⟩
  · exact .bind (carries.drive haltOut true) fun _ =>
      .bind carries.getRegs fun _ => carries.record _

/-- What every proper change carries on is respected by every instruction. -/
theorem respects (carries : Carries w w' R) : Respects w w' R where
  regs related := by
    obtain ⟨cycles, diagnostics, outputs, same⟩ := carries.alike related
    rw [same]
  change plain := carries.modifyRegs plain.sound
  enable := carries.modifyRegs fun r sound => ⟨sound.f, sound.iflag⟩
  disable := by
    refine carries.modify ⟨?_, fun _ => rfl, fun s sound => ⟨sound.f, sound.iflag⟩⟩
    intro s cycles diagnostics outputs
    exact ⟨_, _, _, rfl⟩
  enableLater := by
    refine carries.modify ⟨?_, fun _ => rfl, fun s sound => ⟨sound.f, sound.iflag⟩⟩
    intro s cycles diagnostics outputs
    exact ⟨_, _, _, rfl⟩
  repeatFetch := by
    exact carries.aside (fun _ => ⟨rfl, rfl⟩) fun _ _ _ _ => ⟨_, _, _, rfl⟩
  enterHalt := carries.enterHalt
  read8 := carries.read8
  write8 := carries.write8

/-! ## §3 Between two looks at the lines -/

theorem wake (carries : Carries w w' R) : Lockstep R (wake w) (wake w') := by
  refine .bind (carries.aside (fun _ => ⟨rfl, rfl⟩) ?_) fun _ => ?_
  · intro s cycles diagnostics outputs
    exact ⟨_, _, _, rfl⟩
  · exact .bind (carries.drive haltOut false) fun _ =>
      .bind carries.getRegs fun _ => carries.record _

theorem drainWaitStates (carries : Carries w w' R) :
    Lockstep R (drainWaitStates w) (drainWaitStates w') := by
  refine .bind carries.takeWaitStates fun waits =>
    .bind (carries.aside (fun _ => ⟨rfl, rfl⟩) ?_) fun _ => .pure waits.toNat
  intro s cycles diagnostics outputs
  exact ⟨_, _, _, rfl⟩

theorem fetchOpcode (carries : Carries w w' R) :
    Lockstep R (fetchOpcode w) (fetchOpcode w') := by
  refine .bind carries.getRegs fun regs => .bind (carries.read8 regs.pc) fun opcode =>
    .bind (carries.modify ⟨?alike, ?clock, ?sound⟩) fun _ => .pure opcode
  case alike =>
    intro s cycles diagnostics outputs
    -- after the halt bug the program counter is not advanced
    by_cases repeated : s.haltBug
    · rw [if_pos repeated, if_pos repeated]; exact ⟨_, _, _, rfl⟩
    · rw [if_neg repeated, if_neg repeated]; exact ⟨_, _, _, rfl⟩
  case clock =>
    intro s
    dsimp only
    split <;> rfl
  case sound =>
    intro s sound
    dsimp only
    split
    · exact sound
    · exact ⟨sound.f, sound.iflag⟩

/-- The power-on of the core, for a relation that the loss of latched edges carries on. -/
theorem reset (carries : Carries w w' R)
    (edges : Lockstep R (Machine.onLatch w.number fun latch => ((), latch.discardEdges))
      (Machine.onLatch w'.number fun latch => ((), latch.discardEdges))) :
    Lockstep R (reset w) (reset w') := by
  unfold Sm83.reset
  rw [← carries.config]
  refine carries.look fun s _ _ _ => .whenFirst (carries.drive haltOut false) ?_
  refine .bind (carries.modify ⟨?_, fun _ => rfl, fun _ _ => w.config.powerOn_sound⟩) fun _ => ?_
  · intro s cycles diagnostics outputs
    exact ⟨_, _, _, rfl⟩
  · exact .bind edges fun _ => carries.record _

end Carries

/-- The state with which a core enters an interrupt. -/
def State.interrupted (source : InputLine) (s : State) : State :=
  { s with
    exec := .servicingInterrupt
    regs := { s.regs with ime := false, iflag := s.regs.iflag &&& ~~~(1 <<< source) }
    lastPc := s.regs.pc }

/-- Interrupt entry once the request is acknowledged. -/
def enterHandler (w : Wiring σ) (source : InputLine) : Exec σ StepOutcome := do
  let handler := handlerAddress source
  callTo w handler
  drive w acknowledgeOut true
  drive w acknowledgeOut false
  let cycles := interruptCycles + (← drainWaitStates w)
  charge cycles
  modifyStatus fun s =>
    { s with diagnostics := s.diagnostics.recordInterrupt, exec := .fetching }
  Machine.record (.interruptDispatched name (some source) handler)
  return .interrupt handler.toUInt32 cycles

theorem service_eq (w : Wiring σ) (source : InputLine) :
    service w source = (do
      modifyState (·.interrupted source)
      Machine.onLatch w.number fun latch => ((), latch.acknowledge source)
      enterHandler w source) := rfl

/-- Flag and line are taken care of before the first access of an entry. -/
theorem service_handler (w : Wiring σ) (source : InputLine) (m : Machine State σ) :
    service w source m = enterHandler w source
      ⟨m.core.interrupted source,
        (m.world.onLatch w.number fun latch => ((), latch.acknowledge source)).2⟩ := by
  rw [service_eq, eval_bind, eval_bind]
  rfl

/-- A relation between machines that the clock carries on as well. -/
structure Runs (w : Wiring σ) (w' : Wiring τ)
    (R : Machine State σ → Machine State τ → Prop) : Prop extends Carries w w' R where
  charge : ∀ cycles, Lockstep R (charge cycles) (charge cycles)

namespace Runs

variable {w : Wiring σ} {w' : Wiring τ} {R : Machine State σ → Machine State τ → Prop}

theorem carries (runs : Runs w w' R) : Carries w w' R := runs.toCarries

theorem idle (runs : Runs w w' R) (remaining : Nat) :
    Lockstep R (idle remaining) (idle remaining) :=
  .bind (runs.charge _) fun _ => .pure _

theorem stayHalted (runs : Runs w w' R) (remaining : Nat) (raised : UInt8) :
    Lockstep R (stayHalted w remaining raised) (stayHalted w' remaining raised) := by
  refine runs.carries.look fun s _ _ _ => ?_
  refine .ite (fun _ => ?_) fun _ => runs.idle remaining
  exact .bind runs.carries.wake fun _ => .bind (runs.charge wakeCycles) fun _ => .pure _

theorem interrupted (runs : Runs w w' R) (source : InputLine) :
    Lockstep R (modifyState (·.interrupted source)) (modifyState (·.interrupted source)) := by
  refine runs.carries.modify ⟨?_, fun _ => rfl, fun s sound => ⟨sound.f, ?_⟩⟩
  · intro s cycles diagnostics outputs
    exact ⟨_, _, _, rfl⟩
  · show s.regs.iflag &&& ~~~(1 <<< source) &&& interruptMask = s.regs.iflag &&& ~~~(1 <<< source)
    rw [UInt8.and_assoc, UInt8.and_comm _ interruptMask, ← UInt8.and_assoc, sound.iflag]

theorem enterHandler (runs : Runs w w' R) (source : InputLine) :
    Lockstep R (enterHandler w source) (enterHandler w' source) := by
  refine .bind (runs.carries.respects.callTo _) fun _ =>
    .bind (runs.carries.drive _ _) fun _ => .bind (runs.carries.drive _ _) fun _ =>
    .bind runs.carries.drainWaitStates fun waits => .bind (runs.charge _) fun _ =>
    .bind (runs.carries.aside (fun _ => ⟨rfl, rfl⟩) ?_) fun _ =>
    .bind (runs.carries.record _) fun _ => .pure _
  intro s cycles diagnostics outputs
  exact ⟨_, _, _, rfl⟩

theorem retire (runs : Runs w w' R) (pc : UInt16) (opcode : UInt8) (cost : Nat) :
    Lockstep R (retire w pc opcode cost) (retire w' pc opcode cost) := by
  refine .bind (runs.carries.aside ?_ ?_) fun _ =>
    .bind runs.carries.drainWaitStates fun waits =>
    .bind (runs.charge _) fun _ => .bind (runs.carries.aside (fun _ => ⟨rfl, rfl⟩) ?_) fun _ =>
    .bind (runs.carries.record _) fun _ => .pure _
  · intro s
    by_cases running : s.exec = .executing
    · simp only [running, if_true, and_self]
    · simp only [running, if_false, and_self]
  · intro s cycles diagnostics outputs
    by_cases running : s.exec = .executing
    · simp only [running, if_true]; exact ⟨_, _, _, rfl⟩
    · simp only [running, if_false]; exact ⟨_, _, _, rfl⟩
  · intro s cycles diagnostics outputs
    exact ⟨_, _, _, rfl⟩

theorem runInstruction (runs : Runs w w' R) :
    Lockstep R (runInstruction w) (runInstruction w') := by
  unfold Sm83.runInstruction
  rw [← runs.carries.config]
  refine .bind runs.carries.getRegs fun regs =>
    .bind (runs.carries.aside (fun _ => ⟨rfl, rfl⟩) ?_) fun _ =>
    .bind runs.carries.fetchOpcode fun opcode => .ite (fun _ => ?_) fun _ => ?_
  · intro s cycles diagnostics outputs
    exact ⟨_, _, _, rfl⟩
  · refine .bind (runs.carries.aside (fun _ => ⟨rfl, rfl⟩) ?_) fun _ =>
      .bind (runs.carries.record _) fun _ => ?_
    · intro s cycles diagnostics outputs
      exact ⟨_, _, _, rfl⟩
    · cases w.config.policy with
      | fatal =>
        refine .bind (runs.carries.aside (fun _ => ⟨rfl, rfl⟩) ?_) fun _ => .pure _
        intro s cycles diagnostics outputs
        exact ⟨_, _, _, rfl⟩
      | nop => exact .bind (runs.retire _ _ _) fun _ => .pure _
  · exact .bind (runs.carries.respects.execute _) fun cost =>
      .bind (runs.retire _ _ cost) fun _ => .pure _

/-- Interrupt entry, for a relation that the acknowledgement of the request carries on. -/
theorem service (runs : Runs w w' R) (source : InputLine)
    (acknowledges : Lockstep R
      (Machine.onLatch w.number fun latch => ((), latch.acknowledge source))
      (Machine.onLatch w'.number fun latch => ((), latch.acknowledge source))) :
    Lockstep R (service w source) (service w' source) := by
  rw [service_eq, service_eq]
  exact .bind (runs.interrupted source) fun _ => .bind acknowledges fun _ =>
    runs.enterHandler source

theorem runBoundary (runs : Runs w w' R)
    (acknowledges : ∀ source, Lockstep R
      (Machine.onLatch w.number fun latch => ((), latch.acknowledge source))
      (Machine.onLatch w'.number fun latch => ((), latch.acknowledge source))) :
    Lockstep R (runBoundary w) (runBoundary w') := by
  refine runs.carries.look fun s _ _ _ => ?_
  refine .ite (fun _ => ?_) fun _ => ?_
  · refine .bind (runs.carries.aside (fun _ => ⟨rfl, rfl⟩) ?_) fun _ => runs.runInstruction
    intro s cycles diagnostics outputs
    exact ⟨_, _, _, rfl⟩
  · dsimp only
    cases s.regs.nextInterrupt? with
    | some source => exact .bind (runs.service source (acknowledges source)) fun _ => .pure _
    | none => exact runs.runInstruction

end Runs

/-! ## §4 Relations that follow -/

/-- A relation between machines that follows the latch as well. -/
structure Follows (w : Wiring σ) (w' : Wiring τ)
    (R : Machine State σ → Machine State τ → Prop) : Prop extends Carries w w' R where
  onLatch : ∀ {α : Type} (act : LineLatch → α × LineLatch),
    Lockstep R (Machine.onLatch w.number act) (Machine.onLatch w'.number act)

namespace Follows

variable {w : Wiring σ} {w' : Wiring τ} {R : Machine State σ → Machine State τ → Prop}

/-- The relation also follows the power-on of the core. -/
theorem reset (follows : Follows w w' R) : Lockstep R (reset w) (reset w') :=
  follows.toCarries.reset (follows.onLatch _)

theorem sampleReset (follows : Follows w w' R) :
    Lockstep R (sampleReset w) (sampleReset w') := by
  refine .bind (follows.onLatch _) fun held => follows.look fun s _ _ _ => ?_
  refine .ite (fun _ => ?_) fun _ => .ite (fun _ => ?_) fun _ => .pure held
  · refine .bind follows.reset fun _ =>
      .bind (follows.aside (fun _ => ⟨rfl, rfl⟩) ?_) fun _ => .pure held
    intro s cycles diagnostics outputs
    exact ⟨_, _, _, rfl⟩
  · refine .bind (follows.aside (fun _ => ⟨rfl, rfl⟩) ?_) fun _ =>
      .bind (follows.record _) fun _ => .pure held
    intro s cycles diagnostics outputs
    exact ⟨_, _, _, rfl⟩

theorem latchRequests (follows : Follows w w' R) :
    Lockstep R (latchRequests w) (latchRequests w') := by
  -- `IF` takes up the edges found, and only lines of sources that exist are looked at
  refine .bindWith (V := fun raised => raised &&& interruptMask = raised) (follows.onLatch _)
    (fun m => takeEdges_mask _) fun raised exist => ?_
  refine .bind (follows.modifyRegs fun r sound => ⟨sound.f, ?_⟩) fun _ => .pure raised
  exact Registers.masked_or sound.iflag exist

end Follows

/-- A relation between machines that follows latch and clock. -/
structure Tracks (w : Wiring σ) (w' : Wiring τ)
    (R : Machine State σ → Machine State τ → Prop) : Prop extends Follows w w' R, Runs w w' R

namespace Tracks

variable {w : Wiring σ} {w' : Wiring τ} {R : Machine State σ → Machine State τ → Prop}

theorem follows (tracks : Tracks w w' R) : Follows w w' R := tracks.toFollows

theorem runs (tracks : Tracks w w' R) : Runs w w' R := tracks.toRuns

/-- One boundary action is in lockstep. -/
theorem advance (tracks : Tracks w w' R) (remaining : Nat) :
    Lockstep R (advance w remaining) (advance w' remaining) := by
  refine .bind (tracks.follows.aside (fun _ => ⟨rfl, rfl⟩) ?_) fun _ =>
    tracks.follows.look fun s _ _ _ => ?_
  · intro s cycles diagnostics outputs
    exact ⟨_, _, _, rfl⟩
  dsimp only
  cases s.exec.latchedFault? with
  | some fault => exact .pure _
  | none =>
    refine .bind tracks.follows.sampleReset fun held =>
      .ite (fun _ => .bind (tracks.runs.idle remaining) fun _ => .pure _) fun _ =>
      .bind tracks.follows.latchRequests fun raised => tracks.follows.look fun s _ _ _ => ?_
    exact .ite (fun _ => .bind (tracks.runs.stayHalted remaining raised) fun _ => .pure _)
      fun _ => tracks.runs.runBoundary fun _ => tracks.follows.onLatch _

end Tracks

/-! ## §5 Relations that are followed -/

/-- Two cores of one configuration whose surroundings answer alike in related worlds, whatever
their latches hold. -/
structure Wiring.Accords (Q : World σ → World τ → Prop) (w : Wiring σ) (w' : Wiring τ) : Prop
    extends OutputsCoupled Q w.sink w'.sink where
  config : w.config = w'.config
  program : Space.Coupled Q w.program w'.program

/-- Two cores of one configuration whose surroundings answer alike in related worlds. -/
structure Wiring.Coupled (Q : World σ → World τ → Prop) (w : Wiring σ) (w' : Wiring τ) : Prop
    extends Accords Q w w', PlacesCoupled Q w.number w'.number w.sink w'.sink

/-- Alike cores stay so in worlds that accord, however much more the relation between them asks, as
long as proper changes keep it. -/
theorem Wiring.Accords.carries {Q : World σ → World τ → Prop} {w : Wiring σ} {w' : Wiring τ}
    (accords : Accords Q w w') {S : State → State → Prop} (alike : ∀ s t, S s t → s.Alike t)
    (keeps : ∀ {change}, State.Proper change → ∀ s t, S s t → S (change s) (change t)) :
    Carries w w' (Across S Q) where
  config := accords.config
  alike related := alike _ _ related.1
  modify proper := .modifyCore (keeps proper)
  readUnit address := .onWorld (accords.program.read address)
  writeUnit address value := .onWorld (accords.program.write address value)
  takeWaitStates := .onWorld accords.program.waits
  signal line asserted := .onWorld (accords.sink line asserted)
  record event := .onWorld (accords.record event)

/-- The same where the latches are coupled, too. -/
theorem Wiring.Coupled.follows {Q : World σ → World τ → Prop} {w : Wiring σ} {w' : Wiring τ}
    (coupled : Coupled Q w w') {S : State → State → Prop} (alike : ∀ s t, S s t → s.Alike t)
    (keeps : ∀ {change}, State.Proper change → ∀ s t, S s t → S (change s) (change t)) :
    Follows w w' (Across S Q) where
  toCarries := coupled.toAccords.carries alike keeps
  onLatch act := .onWorld (coupled.latch act)

theorem State.Alike.refl (s : State) : s.Alike s := ⟨_, _, _, rfl⟩

/-- Equal cores stay equal in worlds that accord. -/
theorem Wiring.Accords.runs_eq {Q : World σ → World τ → Prop} {w : Wiring σ} {w' : Wiring τ}
    (accords : Accords Q w w') : Runs w w' (Across Eq Q) where
  toCarries := by
    refine accords.carries ?_ ?_
    · rintro s _ rfl
      exact .refl s
    · rintro change _ s _ rfl
      rfl
  charge cycles := .modifyCore (by rintro s _ rfl; rfl)

/-- Equal cores stay equal in coupled worlds. -/
theorem Wiring.Coupled.tracks_eq {Q : World σ → World τ → Prop} {w : Wiring σ} {w' : Wiring τ}
    (coupled : Coupled Q w w') : Tracks w w' (Across Eq Q) where
  toRuns := coupled.toAccords.runs_eq
  onLatch act := .onWorld (coupled.latch act)

/-- Alike cores stay alike in coupled worlds. -/
theorem Wiring.Coupled.tracks_alike {Q : World σ → World τ → Prop} {w : Wiring σ}
    {w' : Wiring τ} (coupled : Coupled Q w w') : Tracks w w' (Across State.Alike Q) where
  toFollows := by
    refine coupled.follows (fun _ _ alike => alike) ?_
    rintro change proper s _ ⟨cycles, diagnostics, outputs, rfl⟩
    exact proper.alike s cycles diagnostics outputs
  charge cycles := by
    refine .modifyCore ?_
    rintro s _ ⟨cycles, diagnostics, outputs, rfl⟩
    exact ⟨_, _, _, rfl⟩

/-- A core whose registers are sound. -/
def SoundCore (m : Machine State σ) : Prop := m.core.regs.Sound

theorem tracks_sound (w : Wiring σ) : Tracks w w (Both SoundCore) where
  config := rfl
  alike := by
    rintro m _ ⟨rfl, _⟩
    exact .refl m.core
  modify proper := Keeps.lockstep fun m sound => proper.sound m.core sound
  readUnit _ := Keeps.lockstep fun _ sound => sound
  writeUnit _ _ := Keeps.lockstep fun _ sound => sound
  takeWaitStates := Keeps.lockstep fun _ sound => sound
  signal _ _ := Keeps.lockstep fun _ sound => sound
  onLatch _ := Keeps.lockstep fun _ sound => sound
  record _ := Keeps.lockstep fun _ sound => sound
  charge _ := Keeps.lockstep fun _ sound => sound

/-- Nothing but charging moves the clock of a core, and its world keeps what every access to it
keeps. -/
theorem Wiring.Coupled.follows_clock {V : World σ → Prop} {w : Wiring σ}
    (coupled : Coupled (Both V) w w) (cycles : Nat) :
    Follows w w (Across (fun s t => s = t ∧ s.totalCycles = cycles) (Both V)) := by
  refine coupled.follows ?_ ?_
  · rintro s _ ⟨rfl, _⟩
    exact .refl s
  · rintro change proper s _ ⟨rfl, clock⟩
    exact ⟨rfl, (proper.clock s).trans clock⟩

end Microboard.Sm83
