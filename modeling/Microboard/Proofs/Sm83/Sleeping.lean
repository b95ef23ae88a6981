import Microboard.Proofs.Sm83.Entering

/-!
# SM83 cores that halt and wake

- **§1** Latches whose edges have been taken.
- **§2** Actions of halted cores. They sleep on, or wake.
- **§3** What `HALT` and `STOP` make of the registers.
- **§4** The instruction after the halt bug, whose opcode is fetched without moving the program
  counter.
-/

namespace Microboard

/-! ## §1 Taken edges -/

/-- A latch whose edges on some lines have been taken. -/
def LineLatch.spent (lines : List InputLine) (latch : LineLatch) : LineLatch :=
  lines.foldl (fun latch line => latch.update line LineState.withoutEdge) latch

theorem LineBank.update_update (bank : LineBank) (core : Nat)
    (first second : LineLatch → LineLatch) :
    (bank.update core first).update core second = bank.update core (second ∘ first) := by
  unfold update
  rw [List.modify_modify_eq]

/-- What is done to the latch of a core is done to it in the bank. -/
theorem World.onLatch_snd {σ α : Type} {act : LineLatch → α × LineLatch}
    {change : LineLatch → LineLatch} (acts : ∀ latch, (act latch).2 = change latch)
    (world : World σ) (core : Nat) :
    (world.onLatch core act).2 = { world with lines := world.lines.update core change } := by
  obtain ⟨devices, ⟨latches⟩, log⟩ := world
  have changes : latches.modify core (fun _ => (act (latches.getD core {})).2) =
      latches.modify core change := by
    apply List.ext_getElem?
    intro i
    -- a core that the bank does not know reads as the default latch, but nothing is put back
    rw [List.getElem?_modify, List.getElem?_modify, List.getD_eq_getElem?_getD, acts]
    by_cases here : core = i
    · subst here
      cases latches[core]? <;> rfl
    · simp only [here, if_false]
  exact congrArg (World.mk devices ⟨·⟩ log) changes

namespace Sm83

variable {σ : Type}

theorem takeEdges_snd (latch : LineLatch) (lines : List InputLine) :
    (takeEdges latch lines).2 = latch.spent lines := by
  induction lines generalizing latch with
  | nil => rfl
  | cons first rest ih => exact ih _

/-- The machine once a core that is not held has looked at its lines. Its requests are in `IF`, and
the edges are taken. -/
def looked (w : Wiring σ) (m : Machine State σ) : Machine State σ :=
  ⟨{ m.core with bus := [], regs := { m.core.regs with iflag := flagsFound w m } },
    { m.world with
      lines := m.world.lines.update w.number (·.spent (resetLine :: requestLines)) }⟩

/-- A free core whose reset line is released takes the edge of the line, and that is all. -/
theorem sampleReset_free {w : Wiring σ} {m : Machine State σ} (released : Released w m)
    (free : m.core.inReset = false) :
    sampleReset w m =
      (false, ⟨m.core, (m.world.onLatch w.number (·.sample resetLine .level)).2⟩) := by
  have low := (m.world.looked w.number resetLine).1.trans released
  rw [sampleReset_eq, free]
  revert low
  obtain ⟨held, world⟩ := m.world.onLatch w.number (·.sample resetLine .level)
  rintro rfl
  rfl

theorem sample_looked {w : Wiring σ} {m : Machine State σ} (released : Released w m)
    (free : m.core.inReset = false) :
    sample w m = (bits (waiting (m.world.lines.latch w.number)), looked w m) := by
  have raised := sample_fst released
  have stays := sampleReset_free (m := unobserved m) released free
  rw [sample_eq, stays, latchRequests_eq] at raised ⊢
  dsimp only at raised ⊢
  rw [raised, World.onLatch_snd fun latch => takeEdges_snd latch requestLines,
    World.onLatch_snd fun latch => latch.sample_snd resetLine .level, LineBank.update_update]
  rfl

/-! ## §2 Halted cores -/

/-- What wakes a halted core: a request on the joypad line if `STOP` halted it, and an enabled
interrupt otherwise. -/
def rouses (w : Wiring σ) (m : Machine State σ) : Bool :=
  if m.core.stopped then (m.world.lines.latch w.number).hasEdge joypad
  else m.core.regs.ie &&& flagsFound w m &&& interruptMask != 0

theorem wakes_looked (w : Wiring σ) (m : Machine State σ) :
    wakes (looked w m).core (bits (waiting (m.world.lines.latch w.number))) = rouses w m := by
  have raised := tests_waiting (m.world.lines.latch w.number) (show joypad ∈ requestLines by decide)
  unfold wakes rouses
  rw [raised]
  rfl

/-- A halted core sleeps on or wakes. -/
theorem advance_halted {w : Wiring σ} {m : Machine State σ} (halted : m.core.exec = .halted)
    (free : m.core.inReset = false) (released : Released w m) (remaining : Nat) :
    advance w remaining m =
      if rouses w m then (.ok (.idle 4), charged 4 (wake w (looked w m)).2)
      else (.ok (.idle (idleCycles remaining)), charged (idleCycles remaining) (looked w m)) := by
  have awake : m.core.exec.latchedFault? = none := by rw [halted]; rfl
  rw [advance_sampled awake released, eval_bind, sample_looked released free]
  obtain ⟨-, acts⟩ | ⟨running, -⟩ := act_cases w remaining
    (bits (waiting (m.world.lines.latch w.number))) (looked w m)
  · rw [acts, stayHalted_eq, wakes_looked]
    split <;> rfl
  · exact absurd halted running

/-- An action lets a halted core sleep on. Only `IF`, the clock and the edges have changed, and the
note of bus cycles is a fresh one. -/
structure Slept (w : Wiring σ) (remaining : Nat) (m : Machine State σ)
    (after : Except Fault StepOutcome × Machine State σ) : Prop where
  answer : after.1 = .ok (.idle (idleCycles remaining))
  core : after.2.core =
    { m.core with
      bus := []
      totalCycles := satAdd m.core.totalCycles (idleCycles remaining)
      regs := { m.core.regs with iflag := flagsFound w m } }
  world : after.2.world =
    { m.world with
      lines := m.world.lines.update w.number (·.spent (resetLine :: requestLines)) }

/-- An action wakes a halted core. Whatever world the next action finds, it is an interrupt if
interrupts are enabled and an enabled one is requested then, and otherwise it attempts the
instruction at the address where the core has halted. -/
structure Woken (w : Wiring σ) (m : Machine State σ)
    (after : Except Fault StepOutcome × Machine State σ) : Prop where
  answer : after.1 = .ok (.idle 4)
  exec : after.2.core.exec = .fetching
  next : ∀ (remaining : Nat) (world : World σ), Released w ⟨after.2.core, world⟩ →
    ((∃ vector cycles,
        (advance w remaining ⟨after.2.core, world⟩).1 = .ok (.interrupt vector cycles)) ↔
      m.core.regs.ime = true ∧
        m.core.regs.ie &&& flagsFound w ⟨after.2.core, world⟩ &&& interruptMask ≠ 0) ∧
    ((∀ vector cycles,
        (advance w remaining ⟨after.2.core, world⟩).1 ≠ .ok (.interrupt vector cycles)) →
      Attempted w ⟨after.2.core, world⟩ (advance w remaining ⟨after.2.core, world⟩) ∧
        RunsAt m.core.regs.pc (advance w remaining ⟨after.2.core, world⟩).1)

/-- A core is as it was when it began to sleep, but for `IF`, its clock, and what is noted of it. -/
def State.SleptSince (before s : State) : Prop :=
  s = { before with
    totalCycles := s.totalCycles
    outputs := s.outputs
    bus := s.bus
    regs := { before.regs with iflag := s.regs.iflag } }

theorem State.SleptSince.trans {first second third : State} (slept : first.SleptSince second)
    (sleeps : second.SleptSince third) : first.SleptSince third := by
  unfold SleptSince at *
  rw [sleeps, slept]

section Halted

variable {w : Wiring σ} {m : Machine State σ}

theorem advance_slept (halted : m.core.exec = .halted) (free : m.core.inReset = false)
    (released : Released w m) (calm : rouses w m = false) (remaining : Nat) :
    Slept w remaining m (advance w remaining m) := by
  rw [advance_halted halted free released, if_neg (by simp [calm])]
  exact ⟨rfl, rfl, rfl⟩

theorem Slept.since {remaining : Nat} {after : Except Fault StepOutcome × Machine State σ}
    (slept : Slept w remaining m after) : m.core.SleptSince after.2.core := by
  unfold State.SleptSince
  rw [slept.core]

theorem advance_woken (halted : m.core.exec = .halted) (free : m.core.inReset = false)
    (prompt : m.core.eiDelay = false) (released : Released w m) (roused : rouses w m = true)
    (remaining : Nat) : Woken w m (advance w remaining m) := by
  rw [advance_halted halted free released, if_pos roused]
  refine ⟨rfl, rfl, fun remaining world released => ?_⟩
  -- of the woken core, the next action only reads what `kept` tells
  generalize wakes : (charged 4 (wake w (looked w m)).2).core = core at released
  have kept : core.exec = .fetching ∧ core.eiDelay = false ∧ core.regs.ime = m.core.regs.ime ∧
      core.regs.ie = m.core.regs.ie ∧ core.regs.pc = m.core.regs.pc := by
    rw [← wakes]
    exact ⟨rfl, prompt, rfl, rfl, rfl⟩
  obtain ⟨fetching, prompt, ime, ie, pc⟩ := kept
  have running : (sample w ⟨core, world⟩).2.core.exec ≠ .halted :=
    exec_sample released (by simp [fetching])
  have awake : core.exec.latchedFault? = none := by rw [fetching]; rfl
  obtain ⟨source, -, enabled, foremost, entered⟩ | ⟨undue, attempted⟩ :=
    entered_or_attempted (m := ⟨core, world⟩) awake released running remaining
  · refine ⟨⟨fun _ => ⟨ime ▸ enabled, ie ▸ foremost.pos⟩, fun _ => ⟨_, _, entered.outcome⟩⟩,
      fun calm => absurd entered.outcome (calm _ _)⟩
  · refine ⟨⟨fun ⟨_, _, interrupted⟩ => absurd interrupted (attempted.place.calm _ _), ?_⟩,
      fun _ => ⟨attempted, pc ▸ attempted.place⟩⟩
    rintro ⟨enabled, due⟩
    rw [← ime] at enabled
    rw [← ie] at due
    simp [prompt, enabled, due] at undue

end Halted

/-! ## §3 `HALT` and `STOP` -/

/-- The registers once an opcode is fetched. After the halt bug, the program counter stays. -/
def State.opened (s : State) : Registers :=
  { s.regs with pc := if s.haltBug then s.regs.pc else s.regs.pc + 1 }

theorem regs_fetchOpcode (w : Wiring σ) (m : Machine State σ) :
    (fetchOpcode w m).2.core.regs = m.core.opened := by
  obtain ⟨-, regs, bug⟩ := read8_bus w m.core.regs.pc m
  rw [fetchOpcode_eq]
  unfold State.fetched State.opened
  rw [bug]
  split <;> dsimp only <;> rw [regs]

theorem bus_fetchOpcode (w : Wiring σ) (m : Machine State σ) :
    (fetchOpcode w m).2.core.bus =
      m.core.bus ++ [readCycle m.core.regs.pc (fetchOpcode w m).1] := by
  have fetched (s : State) (opcode : UInt8) : (s.fetched opcode).bus = s.bus := by
    unfold State.fetched
    split <;> rfl
  rw [fetchOpcode_eq, fetched]
  exact (read8_bus w m.core.regs.pc m).1

theorem regs_runFetched (w : Wiring σ) (pc : UInt16) {opcode : UInt8}
    (legal : decode opcode ≠ .illegal) (m : Machine State σ) :
    (runFetched w pc opcode m).2.core.regs = (execute w (decode opcode) m).2.core.regs := by
  unfold runFetched
  rw [eval_ite, if_neg legal, eval_bind]
  obtain ⟨totalCycles, diagnostics, core⟩ :=
    retire_core w pc opcode (execute w (decode opcode) m).1 (execute w (decode opcode) m).2
  show (retire w pc opcode _ _).2.core.regs = _
  rw [core]

/-- `HALT` leaves the registers alone, and `STOP` only takes its operand. -/
theorem regs_execute_halting (w : Wiring σ) (m : Machine State σ) :
    (execute w .halt m).2.core.regs = m.core.regs ∧
      (execute w .stop m).2.core.regs = { m.core.regs with pc := m.core.regs.pc + 1 } := by
  constructor
  · show (halt w m).2.core.regs = _
    unfold halt
    rw [eval_bind, eval_ite]
    split <;> rfl
  · show { (read8 w m.core.regs.pc m).2.core.regs with
      pc := (read8 w m.core.regs.pc m).2.core.regs.pc + 1 } = _
    rw [regs_read8]

/-- An instruction retires only in a released core that is not halted once it has looked at its
lines. -/
theorem advance_retired {w : Wiring σ} {m : Machine State σ} {remaining : Nat} {place : UInt32}
    {cycles : Nat} (retired : (advance w remaining m).1 = .ok (.retired place cycles)) :
    Released w m ∧ advance w remaining m =
      runInstruction w ⟨{ (sample w m).2.core with eiDelay := false }, (sample w m).2.world⟩ := by
  obtain ⟨released, running, -, -⟩ := (advance_answers w remaining m).retired retired
  have awake : m.core.exec.latchedFault? = none := by
    cases latched : m.core.exec.latchedFault? with
    | none => rfl
    | some fault =>
      rw [advance_eq, latched] at retired
      cases retired
  have looked := sample_switches w m
  rw [released] at looked
  rw [← looked] at running
  obtain ⟨source, -, -, -, entered⟩ | ⟨-, attempted⟩ :=
    entered_or_attempted awake released running remaining
  · cases entered.outcome.symm.trans retired
  · exact ⟨released, attempted.runs⟩

/-- What a `HALT` or a `STOP` that retires makes of the registers. -/
theorem regs_halting {w : Wiring σ} {m : Machine State σ} {remaining : Nat} {place : UInt32}
    {cycles : Nat} (retired : (advance w remaining m).1 = .ok (.retired place cycles)) :
    let after := (advance w remaining m).2.core
    let opened := { m.core.opened with iflag := flagsFound w m }
    (decode after.opcode = .halt → after.regs = opened) ∧
      (decode after.opcode = .stop → after.regs = { opened with pc := opened.pc + 1 }) := by
  obtain ⟨released, runs⟩ := advance_retired retired
  generalize looks : (⟨{ (sample w m).2.core with eiDelay := false }, (sample w m).2.world⟩ :
    Machine State σ) = begins at runs
  have opened : (begun begins).core.opened = { m.core.opened with iflag := flagsFound w m } := by
    rw [← looks, sample_core released]
    rfl
  have opcode : (runInstruction w begins).2.core.opcode = (fetchOpcode w (begun begins)).1 :=
    congrArg Marks.opcode (runInstruction_marks w begins)
  -- the core keeps the opcode that it fetched, so the operation it performed is known
  rw [← opened, ← regs_fetchOpcode w, runs]
  dsimp only
  rw [opcode, runInstruction_eq]
  constructor
  · intro halts
    rw [regs_runFetched w _ (by simp [halts]), halts]
    exact (regs_execute_halting w _).1
  · intro stops
    rw [regs_runFetched w _ (by simp [stops]), stops]
    exact (regs_execute_halting w _).2

/-- A core that runs halts only when it retires a `HALT` or a `STOP`. -/
theorem Switches.Answers.halts {s after : Switches} {active requested : Bool} {pc : UInt16}
    {opcode : UInt8} {answer : Except Fault StepOutcome}
    (answers : s.Answers active requested pc opcode answer after) (running : s.exec ≠ .halted)
    (halted : after.exec = .halted) :
    (∃ cycles, answer = .ok (.retired pc.toUInt32 cycles)) ∧
      (decode opcode = .halt ∧ after.stopped = false ∨
        decode opcode = .stop ∧ after.stopped = true) := by
  have looked : (s.look false).exec ≠ .halted := by
    rw [Switches.look_released]
    dsimp only
    split
    · exact nofun
    · exact running
  cases answers with
  | refused => exact absurd halted running
  | held =>
    unfold Switches.look at halted
    split at halted
    · cases halted
    · split at halted
      next released => cases released
      · exact absurd halted running
  | acted _ _ does =>
    cases does with
    | sleeps _ halted' | wakes _ halted' => exact absurd halted' looked
    | enters => cases halted
    | runs _ _ performs =>
      cases performs with
      | refused => cases halted
      | retired cycles =>
        refine ⟨⟨cycles, rfl⟩, ?_⟩
        -- no other operation changes the execution state
        generalize decode opcode = op at halted ⊢
        cases op with
        | stop => exact .inr ⟨rfl, rfl⟩
        | halt =>
          left
          unfold Switches.perform at halted ⊢
          dsimp only at halted ⊢
          split at halted
          · cases halted
          next sleeps =>
            rw [if_neg sleeps]
            exact ⟨rfl, rfl⟩
        | _ => cases halted

/-! ## §4 The halt bug -/

/-- The first machine has noted some bus cycles more, before all others. -/
def Behind (before : List BusCycle) (m m' : Machine State σ) : Prop :=
  m = ⟨{ m'.core with bus := before ++ m'.core.bus }, m'.world⟩

/-- No instruction looks at the bus cycles that are noted. -/
theorem respects_behind (w : Wiring σ) (before : List BusCycle) :
    Respects w w (Behind before) := by
  have regs : Lockstep (Behind (σ := σ) before) getRegs getRegs := by
    rintro _ m rfl
    exact ⟨rfl, rfl⟩
  have observes (role : BusRole) (direction : BusDirection) (address : UInt16) (value : UInt8) :
      Lockstep (Behind (σ := σ) before) (observe role direction address value)
        (observe role direction address value) := by
    rintro _ m rfl
    refine ⟨rfl, ?_⟩
    let cycle : BusCycle := ⟨role, direction, .byte, address.toUInt32, value⟩
    show Machine.mk { m.core with bus := before ++ m.core.bus ++ [cycle] } m.world =
      ⟨{ m.core with bus := before ++ (m.core.bus ++ [cycle]) }, m.world⟩
    rw [List.append_assoc]
  have changes (change : State → State)
      (aside : ∀ s, change { s with bus := before ++ s.bus } =
        { change s with bus := before ++ (change s).bus }) :
      Lockstep (Behind (σ := σ) before) (modifyState change) (modifyState change) := by
    rintro _ m rfl
    exact ⟨rfl, congrArg (Machine.mk · m.world) (aside m.core)⟩
  exact {
    regs := by
      rintro _ m rfl
      rfl
    change := fun _ => changes _ fun _ => rfl
    enable := changes _ fun _ => rfl
    disable := changes _ fun _ => rfl
    enableLater := changes _ fun _ => rfl
    repeatFetch := changes _ fun _ => rfl
    enterHalt := by
      rintro stopped _ m rfl
      exact ⟨rfl, rfl⟩
    read8 := fun address => by
      refine .ite (fun _ => ?_) fun _ => .ite (fun _ => ?_) fun _ => ?_
      · exact .bind regs fun _ => .bind (observes _ _ _ _) fun _ => .pure _
      · exact .bind regs fun _ => .bind (observes _ _ _ _) fun _ => .pure _
      · refine .bind ?_ fun _ => .bind (observes _ _ _ _) fun _ => .pure _
        rintro _ m rfl
        exact ⟨rfl, rfl⟩
    write8 := fun address value => by
      refine .ite (fun _ => ?_) fun _ => .ite (fun _ => ?_) fun _ => ?_
      · exact .bind (changes _ fun _ => rfl) fun _ => observes _ _ _ _
      · exact .bind (changes _ fun _ => rfl) fun _ => observes _ _ _ _
      · refine .bind ?_ fun _ => observes _ _ _ _
        rintro _ m rfl
        exact ⟨rfl, rfl⟩ }

/-- What an instruction has done on the bus that follows the halt bug. Its opcode was fetched at an
address, and what was fetched after it starts at that address again. -/
def Refetched (pc sp : UInt16) (opcode : UInt8) (m : Machine State σ) : Prop :=
  ∃ operand rest, (operation (opcode :: operand)).length = operand.length + 1 ∧
    m.core.bus =
      readCycle pc opcode :: (listing.fetches fetchRole pc.toUInt32 operand ++ rest) ∧
    (operation (opcode :: operand)).Ends sp (listing.advance pc.toUInt32 operand.length) rest
      m.core.regs.pc

section Refetching

variable {w : Wiring σ} {pc sp : UInt16} {opcode : UInt8}

theorem Took.refetched {op : Op} {more : List UInt8} {m m' : Machine State σ}
    (behind : Behind [readCycle pc opcode] m m') (selects : Selects opcode more op)
    (took : Took pc.toUInt32 more op.operands
      (op.Ends sp (listing.advance pc.toUInt32 (more.length + op.operands))) m') :
    Refetched pc sp opcode m := by
  obtain ⟨operand, rest, count, bus, ends⟩ := took
  have total : (more ++ operand).length = more.length + op.operands := by
    rw [List.length_append, count]
  refine ⟨more ++ operand, rest, ?_, ?_, ?_⟩
  · rw [selects.decodes, selects.length, total]
  · rw [behind]
    exact congrArg (readCycle pc opcode :: ·) bus
  · rw [selects.decodes, total, behind]
    exact ends

/-- The opcode is fetched, and the program counter is still at it. -/
structure Reopened (pc sp : UInt16) (opcode : UInt8) (m : Machine State σ) : Prop where
  bus : m.core.bus = [readCycle pc opcode]
  pc : m.core.regs.pc = pc
  sp : m.core.regs.sp = sp

/-- Without the fetch of the opcode, the core is about to take an instruction from its address. -/
theorem Reopened.fetching {m : Machine State σ} (reopened : Reopened pc sp opcode m) :
    Behind [readCycle pc opcode] m (unobserved m) ∧
      Fetching pc.toUInt32 sp [] (unobserved m) := by
  refine ⟨?_, rfl, congrArg UInt16.toUInt32 reopened.pc, reopened.sp⟩
  show m = ⟨{ m.core with bus := [readCycle pc opcode] ++ [] }, m.world⟩
  rw [List.append_nil, ← reopened.bus]

theorem runFetched_refetched (w : Wiring σ) (place : UInt16) :
    Ensures (Reopened pc sp opcode) (runFetched w place opcode)
      fun _ => Refetched pc sp opcode := by
  refine runFetched_leaves w place ?_ ?_ ?_
  · intro m m' bus regs refetched
    unfold Refetched
    rw [bus, regs]
    exact refetched
  · intro illegal m reopened
    obtain ⟨behind, fetching⟩ := reopened.fetching
    refine Took.refetched behind (selects_first (by simp [illegal])) ?_
    rw [illegal]
    exact fetching.alone id
  · intro m reopened
    obtain ⟨behind, fetching⟩ := reopened.fetching
    -- run both machines: the one that has not noted the opcode is known to take an instruction
    obtain ⟨-, behind⟩ := (respects_behind w _).execute (decode opcode) _ _ behind
    obtain ⟨more, op, selects, took⟩ := execute_took w _ fetching
    exact took.refetched behind selects

/-- The instruction after the halt bug. -/
theorem runInstruction_refetched (w : Wiring σ) {m : Machine State σ}
    (bug : m.core.haltBug = true) (bus : m.core.bus = []) :
    Refetched m.core.regs.pc m.core.regs.sp (runInstruction w m).2.core.opcode
      (runInstruction w m).2 := by
  have opcode : (runInstruction w m).2.core.opcode = (fetchOpcode w (begun m)).1 :=
    congrArg Marks.opcode (runInstruction_marks w m)
  have regs := regs_fetchOpcode w (begun m)
  unfold State.opened at regs
  rw [if_pos (show (begun m).core.haltBug = true from bug)] at regs
  rw [opcode, runInstruction_eq]
  refine runFetched_refetched w _ _ ⟨?_, ?_, ?_⟩
  · rw [bus_fetchOpcode, show (begun m).core.bus = [] from bus]
    rfl
  · rw [regs]
    rfl
  · rw [regs]
    rfl

end Refetching

/-- A `HALT` that is not obeyed has its effect on the next action. Whatever world that finds, it
attempts the instruction whose opcode it fetches without moving the program counter. -/
structure Stalled (w : Wiring σ) (m : Machine State σ)
    (after : Except Fault StepOutcome × Machine State σ) : Prop where
  exec : after.2.core.exec = .fetching
  pc : after.2.core.regs.pc = m.core.opened.pc
  next : ∀ (remaining : Nat) (world : World σ), Released w ⟨after.2.core, world⟩ →
    Attempted w ⟨after.2.core, world⟩ (advance w remaining ⟨after.2.core, world⟩) ∧
      Refetched after.2.core.regs.pc after.2.core.regs.sp
        (advance w remaining ⟨after.2.core, world⟩).2.core.opcode
        (advance w remaining ⟨after.2.core, world⟩).2

/-- A core that is about to fetch an opcode twice attempts the instruction of the second fetch. -/
theorem advance_refetched {w : Wiring σ} {m : Machine State σ} (fetching : m.core.exec = .fetching)
    (bug : m.core.haltBug = true) (disabled : m.core.regs.ime = false) (released : Released w m)
    (remaining : Nat) :
    Attempted w m (advance w remaining m) ∧
      Refetched m.core.regs.pc m.core.regs.sp (advance w remaining m).2.core.opcode
        (advance w remaining m).2 := by
  have running : (sample w m).2.core.exec ≠ .halted := exec_sample released (by simp [fetching])
  have awake : m.core.exec.latchedFault? = none := by rw [fetching]; rfl
  obtain ⟨-, -, enabled, -, -⟩ | ⟨-, attempted⟩ :=
    entered_or_attempted awake released running remaining
  · -- no interrupt comes between the `HALT` and the second fetch
    exact nomatch enabled.symm.trans disabled
  · refine ⟨attempted, ?_⟩
    have refetched := runInstruction_refetched w
      (m := ⟨{ (sample w m).2.core with eiDelay := false }, (sample w m).2.world⟩)
      (by rw [sample_core released]; exact bug) (by rw [sample_core released])
    rw [← attempted.runs] at refetched
    rw [sample_core released] at refetched
    exact refetched

/-- With interrupts disabled and an enabled one requested, `HALT` is not obeyed. -/
theorem Switches.retire_perform_halt {s : Switches} (disabled : s.ime = false) :
    (s.begin.perform true .halt).retire = { s.begin with exec := .fetching, haltBug := true } := by
  simp [perform, begin, retire, disabled]

theorem stalled_switches {w : Wiring σ} {m : Machine State σ} {remaining : Nat} {place : UInt32}
    {cycles : Nat} (retired : (advance w remaining m).1 = .ok (.retired place cycles))
    (halts : decode (advance w remaining m).2.core.opcode = .halt)
    (disabled : m.core.regs.ime = false)
    (due : m.core.regs.ie &&& flagsFound w m &&& interruptMask ≠ 0) :
    (advance w remaining m).2.core.switches =
      { (m.core.switches.look false).begin with exec := .fetching, haltBug := true } := by
  obtain ⟨-, -, -, after⟩ := (advance_answers w remaining m).retired retired
  rw [after, halts, bne_iff_ne.mpr due, Switches.look_released]
  exact Switches.retire_perform_halt disabled

theorem advance_stalled {w : Wiring σ} {m : Machine State σ} {remaining : Nat} {place : UInt32}
    {cycles : Nat} (retired : (advance w remaining m).1 = .ok (.retired place cycles))
    (halts : decode (advance w remaining m).2.core.opcode = .halt)
    (disabled : m.core.regs.ime = false)
    (due : m.core.regs.ie &&& flagsFound w m &&& interruptMask ≠ 0) :
    Stalled w m (advance w remaining m) := by
  have stalled := stalled_switches retired halts disabled due
  have exec := congrArg Switches.exec stalled
  have bug := congrArg Switches.haltBug stalled
  have ime := congrArg Switches.ime stalled
  rw [Switches.look_released] at ime
  have regs := (regs_halting retired).1 halts
  refine ⟨exec, by rw [regs], fun later world released => ?_⟩
  exact advance_refetched (m := ⟨(advance w remaining m).2.core, world⟩) exec bug
    (ime.trans disabled) released later

end Sm83

end Microboard
