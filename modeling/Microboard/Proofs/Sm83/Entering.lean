import Microboard.Proofs.Sm83.Fetching
import Microboard.Proofs.Sm83.Holding

/-!
# SM83 interrupt entries

What the entry of an interrupt does, spelled out: to the registers, to the note of bus cycles, to
the lines, and to whatever surrounds the core.

- **§1** What a core has found once it has looked at its lines.
- **§2** Writes. Those to the interrupt registers stay in the core.
- **§3** Pushed words.
- **§4** Entries.
- **§5** Instructions.
- **§6** Which source is entered.
- **§7** Actions: an interrupt is entered, or an instruction is attempted. What an action answers
  is told together with what it makes of the switches of the core.
-/

namespace Microboard.Sm83

variable {σ : Type}

/-! ## §1 What was found -/

/-- `IF` as it is once the requests that wait in the latch have been moved into it. -/
def flagsFound (w : Wiring σ) (m : Machine State σ) : UInt8 :=
  m.core.regs.iflag ||| bits (waiting (m.world.lines.latch w.number))

/-- What is pending stays so when the core looks at its lines. -/
theorem requested_of_pending {w : Wiring σ} {m : Machine State σ}
    (pending : m.core.regs.pending ≠ 0) :
    (m.core.regs.ie &&& flagsFound w m &&& interruptMask != 0) = true := by
  have split : m.core.regs.ie &&& flagsFound w m &&& interruptMask =
      m.core.regs.pending |||
        m.core.regs.ie &&& bits (waiting (m.world.lines.latch w.number)) &&& interruptMask := by
    unfold flagsFound Registers.pending
    rw [UInt8.and_comm _ (_ ||| _), or_and_distrib, or_and_distrib, UInt8.and_comm m.core.regs.ie,
      UInt8.and_comm m.core.regs.ie]
  rw [bne_iff_ne, split, Ne, UInt8.or_eq_zero_iff]
  exact fun none => pending none.1

/-- A core that finds its reset line released has left reset and moved its requests into `IF`, and
that is all. -/
theorem sample_core {w : Wiring σ} {m : Machine State σ} (released : Released w m) :
    (sample w m).2.core =
      { m.core with
        exec := if m.core.inReset then .fetching else m.core.exec
        inReset := false
        bus := []
        regs := { m.core.regs with iflag := flagsFound w m } } := by
  have looked := sampleReset_core (m := unobserved m) released
  have iflag := (sample_found released).1
  rw [State.looked_released] at looked
  rw [sample_eq, latchRequests_eq] at iflag ⊢
  dsimp only at iflag ⊢
  rw [iflag, looked]
  rfl

/-- A core that is not halted runs once it has looked at its lines. -/
theorem exec_sample {w : Wiring σ} {m : Machine State σ} (released : Released w m)
    (running : m.core.exec ≠ .halted) : (sample w m).2.core.exec ≠ .halted := by
  rw [sample_core released]
  dsimp only
  split
  · exact nofun
  · exact running

/-! ## §2 Writes -/

/-- What a write makes of the registers. -/
def Registers.store (r : Registers) (address : UInt16) (value : UInt8) : Registers :=
  if address = ieAddress then { r with ie := value }
  else if address = ifAddress then r.setIflag value
  else r

/-- What a write asks of the program space. -/
def Wiring.stores (w : Wiring σ) (address : UInt16) (value : UInt8) : Access σ Unit :=
  if address = ieAddress ∨ address = ifAddress then pure ()
  else w.program.writeUnit address.toUInt32 value

/-- The bus cycle of a write. -/
def writeCycle (address : UInt16) (value : UInt8) : BusCycle :=
  ⟨fetchRole address.toUInt32, .write, .byte, address.toUInt32, value⟩

theorem write8_eq (w : Wiring σ) (address : UInt16) (value : UInt8) (m : Machine State σ) :
    write8 w address value m =
      ((), ⟨{ m.core with
          regs := m.core.regs.store address value
          bus := m.core.bus ++ [writeCycle address value] },
        (World.perform (w.stores address value) m.world).2⟩) := by
  by_cases enable : address = ieAddress
  · subst enable
    rfl
  by_cases request : address = ifAddress
  · subst request
    rfl
  · unfold write8 Registers.store Wiring.stores writeCycle
    rw [fetchRole_program enable request, eval_ite, if_neg enable, eval_ite, if_neg request,
      if_neg enable, if_neg request, if_neg (not_or.mpr ⟨enable, request⟩)]
    rfl

/-! ## §3 Pushed words -/

/-- The registers once a word is pushed. -/
def Registers.pushed (r : Registers) (value : UInt16) : Registers :=
  { (r.store (r.sp - 1) (highByte value)).store (r.sp - 2) (lowByte value) with sp := r.sp - 2 }

/-- What pushing a word asks of the program space. -/
def Wiring.pushes (w : Wiring σ) (sp value : UInt16) : Access σ Unit := do
  w.stores (sp - 1) (highByte value)
  w.stores (sp - 2) (lowByte value)

/-- The bus cycles that push a word. -/
def pushCycles (sp value : UInt16) : List BusCycle :=
  [writeCycle (sp - 1) (highByte value), writeCycle (sp - 2) (lowByte value)]

/-- Writes neither look at the stack pointer nor move it. -/
theorem Registers.store_sp (r : Registers) (sp address : UInt16) (value : UInt8) :
    ({ r with sp } : Registers).store address value = { r.store address value with sp } := by
  unfold store
  split
  · rfl
  · split <;> rfl

/-- A word that is pushed elsewhere leaves `IF` alone. -/
theorem Registers.iflag_pushed (r : Registers) (high : r.sp - 1 ≠ ifAddress)
    (low : r.sp - 2 ≠ ifAddress) (value : UInt16) : (r.pushed value).iflag = r.iflag := by
  unfold pushed store
  rw [if_neg low, if_neg high]
  split <;> split <;> rfl

theorem Registers.ie_pushed (r : Registers) (high : r.sp - 1 ≠ ieAddress)
    (low : r.sp - 2 ≠ ieAddress) (value : UInt16) : (r.pushed value).ie = r.ie := by
  unfold pushed store
  rw [if_neg low, if_neg high]
  split <;> split <;> rfl

/-- Pushing a word moves the stack pointer, and changes none but the interrupt registers. -/
theorem Registers.pushed_eq (r : Registers) (value : UInt16) :
    r.pushed value =
      { r with sp := r.sp - 2, ie := (r.pushed value).ie, iflag := (r.pushed value).iflag } := by
  have stored (r : Registers) (address : UInt16) (value : UInt8) :
      r.store address value = { r with
        ie := (r.store address value).ie, iflag := (r.store address value).iflag } := by
    unfold store
    split
    · rfl
    · split <;> rfl
  unfold pushed
  rw [stored (r.store _ _), stored r]

theorem push16_eq (w : Wiring σ) (value : UInt16) (m : Machine State σ) :
    push16 w value m =
      ((), ⟨{ m.core with
          regs := m.core.regs.pushed value
          bus := m.core.bus ++ pushCycles m.core.regs.sp value },
        (World.perform (w.pushes m.core.regs.sp value) m.world).2⟩) := by
  have push8_eq (value : UInt8) (m : Machine State σ) : push8 w value m =
      ((), ⟨{ m.core with
          regs := { m.core.regs.store (m.core.regs.sp - 1) value with sp := m.core.regs.sp - 1 }
          bus := m.core.bus ++ [writeCycle (m.core.regs.sp - 1) value] },
        (World.perform (w.stores (m.core.regs.sp - 1) value) m.world).2⟩) := by
    rw [← Registers.store_sp]
    exact write8_eq w _ value ⟨{ m.core with regs := { m.core.regs with sp := _ } }, m.world⟩
  have twice : m.core.regs.sp - 1 - 1 = m.core.regs.sp - 2 := by grind
  unfold push16 Registers.pushed Wiring.pushes pushCycles
  rw [eval_bind, push8_eq, push8_eq, World.perform_bind]
  dsimp only
  -- the second write comes after the first has moved the stack pointer
  rw [Registers.store_sp, twice, List.append_assoc]
  rfl

/-! ## §4 Entries -/

/-- The pulse that tells the surroundings of an entry. -/
def Wiring.pulses (w : Wiring σ) : Access σ Unit := do
  w.sink acknowledgeOut true
  w.sink acknowledgeOut false

/-- What the entry of an interrupt asks of the surroundings of the core: the return address is
pushed, and the acknowledge output is pulsed. -/
def Wiring.enters (w : Wiring σ) (r : Registers) : Access σ Unit := do
  w.pushes r.sp r.pc
  w.pulses

theorem callTo_eq (w : Wiring σ) (target : UInt16) (m : Machine State σ) :
    callTo w target m =
      ((), ⟨{ m.core with
          regs := { m.core.regs.pushed m.core.regs.pc with pc := target }
          bus := m.core.bus ++ pushCycles m.core.regs.sp m.core.regs.pc },
        (World.perform (w.pushes m.core.regs.sp m.core.regs.pc) m.world).2⟩) := by
  unfold callTo
  rw [eval_bind, eval_bind, push16_eq]
  rfl

/-- Everything that an entry does once the request is acknowledged, given what surrounds the core
when the entry has asked its surroundings for everything but the wait states. -/
theorem enterHandler_eq (w : Wiring σ) (source : InputLine) {m : Machine State σ} {world : World σ}
    (asked : (World.perform (w.enters m.core.regs) m.world).2 = world) :
    enterHandler w source m =
      (.interrupt (handlerAddress source).toUInt32
        (interruptCycles + (w.program.takeWaitStates world.devices).1.toNat),
        ⟨{ m.core with
            exec := .fetching
            totalCycles := satAdd m.core.totalCycles
              (interruptCycles + (w.program.takeWaitStates world.devices).1.toNat)
            diagnostics := (m.core.diagnostics.recordWaitStates
              (w.program.takeWaitStates world.devices).1).recordInterrupt
            outputs := (m.core.outputs.push ⟨acknowledgeOut, true⟩).push ⟨acknowledgeOut, false⟩
            bus := m.core.bus ++ pushCycles m.core.regs.sp m.core.regs.pc
            regs := { m.core.regs.pushed m.core.regs.pc with pc := handlerAddress source } },
          { world with
            devices := (w.program.takeWaitStates world.devices).2
            log := world.log.record
              (.interruptDispatched name (some source) (handlerAddress source)) }⟩) := by
  unfold Wiring.enters Wiring.pulses at asked
  rw [World.perform_bind, World.perform_bind] at asked
  subst asked
  unfold enterHandler
  rw [eval_bind, callTo_eq]
  dsimp only
  generalize (World.perform (w.pushes m.core.regs.sp m.core.regs.pc) m.world).2 = world
  generalize m.core.regs.pushed m.core.regs.pc = pushed
  rfl

/-! ## §5 Instructions -/

/-- What an instruction leaves alone once its opcode is fetched: the opcode, the address that it was
fetched at, and what was driven on the acknowledge output, oldest first. -/
structure Marks where
  opcode : UInt8
  place : UInt16
  acknowledged : List OutputEvent

def State.marks (s : State) : Marks where
  opcode := s.opcode
  place := s.lastPc
  acknowledged := s.outputs.toList.filter (·.line == acknowledgeOut)

section Instructions

variable {marks : Marks}

/-- A core that halts drives the halt output only. -/
theorem enterHalt_marks (w : Wiring σ) (stopped : Bool) :
    Keeps (fun m => m.core.marks = marks) (enterHalt w stopped) := by
  rintro m rfl
  show State.marks { m.core with
    exec := .halted, stopped, outputs := m.core.outputs.push ⟨haltOut, true⟩ } = _
  simp [State.marks, haltOut, acknowledgeOut]

theorem respects_marks (w : Wiring σ) (marks : Marks) :
    Respects w w (Both fun m => m.core.marks = marks) where
  regs := by
    rintro m _ ⟨rfl, -⟩
    rfl
  change _ := Keeps.lockstep fun _ same => same
  enable := Keeps.lockstep fun _ same => same
  disable := Keeps.lockstep fun _ same => same
  enableLater := Keeps.lockstep fun _ same => same
  repeatFetch := Keeps.lockstep fun _ same => same
  enterHalt stopped := (enterHalt_marks w stopped).lockstep
  read8 address := Keeps.lockstep <| by
    refine .ite (fun _ => ?_) fun _ => .ite (fun _ => ?_) fun _ => ?_
    all_goals exact .bind (fun _ same => same) fun _ _ same => same
  write8 address value := Keeps.lockstep fun m same => by
    rw [write8_eq]
    exact same

theorem retire_marks (w : Wiring σ) (pc : UInt16) (opcode : UInt8) (cost : Nat) :
    Keeps (fun m => m.core.marks = marks) (retire w pc opcode cost) := by
  intro m same
  obtain ⟨totalCycles, diagnostics, core⟩ := retire_core w pc opcode cost m
  rw [core]
  exact same

theorem runFetched_marks (w : Wiring σ) (pc : UInt16) (opcode : UInt8) :
    Keeps (fun m => m.core.marks = marks) (runFetched w pc opcode) := by
  refine .ite (fun _ => ?_) fun _ => ?_
  · refine .bind (fun _ same => same) fun _ => .bind (fun _ same => same) fun _ => ?_
    dsimp only
    cases w.config.policy with
    | fatal => exact .bind (fun _ same => same) fun _ => .pure _
    | nop => exact .bind (retire_marks w _ _ _) fun _ => .pure _
  · exact .bind ((respects_marks w marks).execute _).keeps fun _ =>
      .bind (retire_marks w _ _ _) fun _ => .pure _

/-- After an instruction the core knows its opcode and its address. -/
theorem runInstruction_marks (w : Wiring σ) (m : Machine State σ) :
    (runInstruction w m).2.core.marks =
      { m.core.marks with opcode := (fetchOpcode w (begun m)).1, place := m.core.regs.pc } := by
  have read := ((respects_marks w (begun m).core.marks).read8 m.core.regs.pc).keeps (begun m) rfl
  have fetched (s : State) (opcode : UInt8) :
      (s.fetched opcode).marks = { s.marks with opcode } := by
    unfold State.fetched
    split <;> rfl
  rw [runInstruction_eq]
  refine runFetched_marks w _ _ _ ?_
  rw [fetchOpcode_eq]
  show ((read8 w m.core.regs.pc (begun m)).2.core.fetched _).marks = _
  rw [fetched, read]
  rfl

end Instructions

/-! ## §6 Sources -/

/-- The source is the lowest of the request lines with bits in a mask. -/
structure Foremost (mask : UInt8) (source : InputLine) : Prop where
  requested : source ∈ requestLines
  present : mask &&& 1 <<< source ≠ 0
  least : ∀ line ∈ requestLines, line < source → mask &&& 1 <<< line = 0

theorem Foremost.pos {mask : UInt8} {source : InputLine} (foremost : Foremost mask source) :
    mask ≠ 0 := by
  rintro rfl
  exact foremost.present UInt8.zero_and

/-- A mask has a bit of some lines if it has a bit of one of them. -/
theorem and_bits_eq_zero (mask : UInt8) (lines : List InputLine) :
    mask &&& bits lines = 0 ↔ ∀ line ∈ lines, mask &&& 1 <<< line = 0 := by
  induction lines with
  | nil => simp [bits]
  | cons first rest ih =>
    have split : mask &&& bits (first :: rest) = mask &&& 1 <<< first ||| mask &&& bits rest := by
      rw [UInt8.and_comm, bits, List.foldr_cons, or_and_distrib, UInt8.and_comm,
        UInt8.and_comm _ mask]
      rfl
    rw [split, UInt8.or_eq_zero_iff, ih, List.forall_mem_cons]

/-- What is pending is so on a request line. -/
theorem pending_eq_zero (r : Registers) :
    r.pending = 0 ↔ ∀ line ∈ requestLines, r.pending &&& 1 <<< line = 0 := by
  rw [← and_bits_eq_zero]
  unfold Registers.pending
  rw [UInt8.and_assoc, UInt8.and_assoc, UInt8.and_assoc]
  rfl

/-- An interrupt is found if interrupts are enabled and one is pending, and it is the first. -/
theorem nextInterrupt_spec (r : Registers) :
    match r.nextInterrupt? with
    | some source => r.ime = true ∧ Foremost r.pending source
    | none => r.ime = false ∨ r.pending = 0 := by
  unfold Registers.nextInterrupt?
  cases enabled : r.ime with
  | false => exact .inl rfl
  | true =>
    rw [if_pos rfl]
    cases found : requestLines.find? fun line : InputLine => r.pending &&& 1 <<< line != 0 with
    | none =>
      right
      rw [pending_eq_zero]
      simpa using found
    | some source =>
      obtain ⟨sets, earlier, later, lines, clear⟩ := List.find?_eq_some_iff_append.mp found
      refine ⟨rfl, List.mem_of_find?_eq_some found, by simpa using sets, fun line there low => ?_⟩
      -- the lines are listed in order, so a lower one comes earlier
      have ordered : requestLines.Pairwise (· < ·) := by decide
      rw [lines, List.pairwise_append, List.pairwise_cons] at ordered
      rw [lines, List.mem_append, List.mem_cons] at there
      have earlier : line ∈ earlier := there.resolve_right fun other => other.elim
        (fun same => UInt8.lt_irrefl _ (same ▸ low))
        fun later => UInt8.lt_irrefl _ (UInt8.lt_trans low (ordered.2.1.1 line later))
      simpa using clear line earlier

/-- Nothing is due until the delay after `EI` is over. -/
theorem dueInterrupt_spec (s : State) :
    match s.dueInterrupt? with
    | some source => s.eiDelay = false ∧ s.regs.ime = true ∧ Foremost s.regs.pending source
    | none => s.eiDelay = true ∨ s.regs.ime = false ∨ s.regs.pending = 0 := by
  unfold State.dueInterrupt?
  cases s.eiDelay with
  | true => exact .inl rfl
  | false =>
    have found := nextInterrupt_spec s.regs
    rw [if_neg nofun]
    cases next : s.regs.nextInterrupt? with
    | some source =>
      rw [next] at found
      exact ⟨rfl, found⟩
    | none =>
      rw [next] at found
      exact .inr found

/-! ## §7 Actions -/

/-- What the entry of the interrupt of a source makes of a core and of its surroundings. -/
structure Entered (w : Wiring σ) (source : InputLine) (m : Machine State σ)
    (after : Except Fault StepOutcome × Machine State σ) : Prop where
  outcome : after.1 = .ok (.interrupt (0x40 + 8 * source.toUInt32)
    (20 + (w.program.takeWaitStates (w.enters m.core.regs m.world.devices).state).1.toNat))
  devices : after.2.world.devices =
    (w.program.takeWaitStates (w.enters m.core.regs m.world.devices).state).2
  /-- Both bytes of the return address are written, the high one first. -/
  bus : after.2.core.bus =
    [writeCycle (m.core.regs.sp - 1) (highByte m.core.regs.pc),
      writeCycle (m.core.regs.sp - 2) (lowByte m.core.regs.pc)]
  /-- What is pushed on an interrupt register stays in the core. -/
  regs : after.2.core.regs =
    { ({ m.core.regs with ime := false, iflag := flagsFound w m &&& ~~~(1 <<< source) } :
        Registers).pushed m.core.regs.pc with pc := 0x40 + 8 * source.toUInt16 }
  others : after.2.core.regs =
    { m.core.regs with
      ime := false
      pc := 0x40 + 8 * source.toUInt16
      sp := m.core.regs.sp - 2
      ie := after.2.core.regs.ie
      iflag := after.2.core.regs.iflag }
  iflag : m.core.regs.sp - 1 ≠ ifAddress → m.core.regs.sp - 2 ≠ ifAddress →
    after.2.core.regs.iflag = flagsFound w m &&& ~~~(1 <<< source)
  ie : m.core.regs.sp - 1 ≠ ieAddress → m.core.regs.sp - 2 ≠ ieAddress →
    after.2.core.regs.ie = m.core.regs.ie
  /-- A line of which nothing is requested meanwhile keeps its level, unless it is that of the
  source and was held. -/
  levels : ∀ line, (∀ r ∈ (w.enters m.core.regs m.world.devices).requests,
      r.core = w.number → r.line ≠ line) →
    (after.2.world.lines.latch w.number).level line =
      if line = source ∧ (m.world.lines.latch w.number).level line = .hold then .clear
      else (m.world.lines.latch w.number).level line
  outputs : after.2.core.outputs.toList =
    m.core.outputs.toList ++ [⟨acknowledgeOut, true⟩, ⟨acknowledgeOut, false⟩]

section Actions

variable {w : Wiring σ} {m : Machine State σ}

/-- Handlers are eight bytes apart. -/
theorem handlerAddress_eq {source : InputLine} (requested : source ∈ requestLines) :
    (handlerAddress source).toUInt32 = 0x40 + 8 * source.toUInt32 := by
  have all : ∀ source ∈ requestLines,
      (handlerAddress source).toUInt32 = 0x40 + 8 * source.toUInt32 := by decide +kernel
  exact all source requested

/-- A core that has found a source and acknowledged it enters its interrupt. -/
theorem enterHandler_entered (w : Wiring σ) {m found : Machine State σ} {source : InputLine}
    (requested : source ∈ requestLines)
    (regs : found.core.regs =
      { m.core.regs with ime := false, iflag := flagsFound w m &&& ~~~(1 <<< source) })
    (bus : found.core.bus = []) (outputs : found.core.outputs = m.core.outputs)
    (devices : found.world.devices = m.world.devices)
    (latch : ((m.world.lines.latch w.number).acknowledge source).Level
      (found.world.lines.latch w.number)) :
    Entered w source m (Prod.map .ok id (enterHandler w source found)) := by
  have asks : w.enters found.core.regs = w.enters m.core.regs := by
    rw [regs]
    rfl
  generalize told : (World.perform (w.enters found.core.regs) found.world).2 = world
  have left : world.devices = (w.enters m.core.regs m.world.devices).state := by
    rw [← told, asks, ← devices]
    rfl
  -- the wait states are drained last, so they are those of the devices after the pulse
  rw [enterHandler_eq w source told, left, regs, bus, outputs]
  refine ⟨?outcome, rfl, rfl, rfl, ?others, ?iflag, ?ie, ?levels, ?outputs⟩
  case outcome =>
    rw [← handlerAddress_eq requested]
    rfl
  case others =>
    dsimp only [Prod.map]
    rw [Registers.pushed_eq]
    rfl
  case iflag =>
    intro high low
    exact Registers.iflag_pushed { m.core.regs with ime := false, iflag := _ } high low _
  case ie =>
    intro high low
    exact Registers.ie_pushed { m.core.regs with ime := false, iflag := _ } high low _
  case levels =>
    intro line others
    rw [← asks, ← devices] at others
    show (world.lines.latch w.number).level line = _
    rw [← told, World.level_perform _ _ others, ← LineLatch.level_acknowledge, (latch line).1]
  case outputs =>
    simp [Prod.map]

/-- The core enters the interrupt of a source that it has found. -/
theorem service_entered (released : Released w m) {source : InputLine}
    (requested : source ∈ requestLines) :
    Entered w source m (Prod.map .ok id (service w source (sample w m).2)) := by
  obtain ⟨-, -, devices, taken⟩ := sample_found released
  have latch := (sample w m).2.world.latch_acknowledged w.number source
  rw [service_handler]
  refine enterHandler_entered w requested ?_ ?_ ?_ devices ?_
  · rw [sample_core released]
    rfl
  · rw [sample_core released]
    rfl
  · rw [sample_core released]
    rfl
  · rw [latch]
    exact taken.level.acknowledge source

/-- What was driven on the acknowledge output, oldest first. -/
def acknowledgements (m : Machine State σ) : List OutputEvent :=
  m.core.outputs.toList.filter (·.line == acknowledgeOut)

/-- The core attempts one instruction, and its acknowledge output is not driven. -/
structure Attempted (w : Wiring σ) (m : Machine State σ)
    (after : Except Fault StepOutcome × Machine State σ) : Prop where
  runs : after =
    runInstruction w ⟨{ (sample w m).2.core with eiDelay := false }, (sample w m).2.world⟩
  place : RunsAt m.core.regs.pc after.1
  quiet : acknowledgements after.2 = acknowledgements m

theorem runInstruction_attempted (released : Released w m) :
    Attempted w m
      (runInstruction w ⟨{ (sample w m).2.core with eiDelay := false }, (sample w m).2.world⟩) := by
  have runs := runInstruction_runsAt w
    ⟨{ (sample w m).2.core with eiDelay := false }, (sample w m).2.world⟩
  have marks := runInstruction_marks w
    ⟨{ (sample w m).2.core with eiDelay := false }, (sample w m).2.world⟩
  have acknowledged := congrArg Marks.acknowledged marks
  rw [sample_core released] at runs acknowledged ⊢
  exact ⟨by rw [sample_core released], runs, acknowledged⟩

/-- The instruction is the one at the program counter, and the core keeps its opcode. -/
theorem Attempted.performs (released : Released w m)
    {after : Except Fault StepOutcome × Machine State σ} (attempted : Attempted w m after) :
    (m.core.switches.look false).begin.Performs
        (m.core.regs.ie &&& flagsFound w m &&& interruptMask != 0) m.core.regs.pc
        after.2.core.opcode after.1 after.2.core.switches ∧
      after.2.core.lastPc = m.core.regs.pc := by
  obtain ⟨rfl, -, -⟩ := attempted
  have looked := sample_switches w m
  rw [released] at looked
  have marks := runInstruction_marks w
    ⟨{ (sample w m).2.core with eiDelay := false }, (sample w m).2.world⟩
  have performs := runInstruction_performs w
    (m := ⟨{ (sample w m).2.core with eiDelay := false }, (sample w m).2.world⟩) rfl
  have begins : (State.switches { (sample w m).2.core with eiDelay := false }).begin =
      (m.core.switches.look false).begin := by
    rw [← looked]
    rfl
  have opcode := congrArg Marks.opcode marks
  have place := congrArg Marks.place marks
  dsimp only [State.marks] at opcode place
  rw [begins, ← opcode] at performs
  rw [sample_core released] at performs place ⊢
  exact ⟨performs, place⟩

/-- A core that is neither faulted nor halted nor held in reset enters an interrupt if no delay
after `EI` is pending, interrupts are enabled, and an enabled one is requested: the first such.
Otherwise it runs an instruction. -/
theorem advance_running (awake : m.core.exec.latchedFault? = none)
    (released : Released w m) (running : (sample w m).2.core.exec ≠ .halted) (remaining : Nat) :
    (∃ source, m.core.eiDelay = false ∧ m.core.regs.ime = true ∧
      Foremost (m.core.regs.ie &&& flagsFound w m &&& interruptMask) source ∧
      advance w remaining m = Prod.map .ok id (service w source (sample w m).2)) ∨
    ((m.core.eiDelay = true ∨ m.core.regs.ime = false ∨
        m.core.regs.ie &&& flagsFound w m &&& interruptMask = 0) ∧
      advance w remaining m =
        runInstruction w
          ⟨{ (sample w m).2.core with eiDelay := false }, (sample w m).2.world⟩) := by
  have core := sample_core released
  have pending : (sample w m).2.core.regs.pending =
      m.core.regs.ie &&& flagsFound w m &&& interruptMask := by
    rw [core]
    rfl
  have spec := dueInterrupt_spec (sample w m).2.core
  rw [advance_sampled awake released, eval_bind, act_running w remaining _ running]
  cases due : (sample w m).2.core.dueInterrupt? with
  | some source =>
    rw [due, pending, core] at spec
    obtain ⟨prompt, enabled, foremost⟩ := spec
    exact .inl ⟨source, prompt, enabled, foremost, rfl⟩
  | none =>
    rw [due, pending, core] at spec
    exact .inr ⟨spec, rfl⟩

/-- Of the two, the entry is that of the interrupt, and the instruction is the only one. -/
theorem entered_or_attempted (awake : m.core.exec.latchedFault? = none) (released : Released w m)
    (running : (sample w m).2.core.exec ≠ .halted) (remaining : Nat) :
    (∃ source, m.core.eiDelay = false ∧ m.core.regs.ime = true ∧
      Foremost (m.core.regs.ie &&& flagsFound w m &&& interruptMask) source ∧
      Entered w source m (advance w remaining m)) ∨
    ((m.core.eiDelay = true ∨ m.core.regs.ime = false ∨
        m.core.regs.ie &&& flagsFound w m &&& interruptMask = 0) ∧
      Attempted w m (advance w remaining m)) := by
  obtain ⟨source, prompt, enabled, foremost, serves⟩ | ⟨undue, runs⟩ :=
    advance_running awake released running remaining
  · refine .inl ⟨source, prompt, enabled, foremost, ?_⟩
    rw [serves]
    exact service_entered released foremost.requested
  · refine .inr ⟨undue, ?_⟩
    rw [runs]
    exact runInstruction_attempted released

/-- What a core that has looked at its lines answers, and what it makes of its switches. -/
inductive Switches.Does (s : Switches) (requested : Bool) (pc : UInt16) (opcode : UInt8) :
    Except Fault StepOutcome → Switches → Prop where
  | sleeps (cycles : Nat) : s.exec = .halted → Does s requested pc opcode (.ok (.idle cycles)) s
  | wakes (cycles : Nat) : s.exec = .halted →
      Does s requested pc opcode (.ok (.idle cycles)) s.wake
  | enters (vector : UInt32) (cycles : Nat) : s.exec ≠ .halted → s.eiDelay = false →
      s.ime = true → requested = true →
      Does s requested pc opcode (.ok (.interrupt vector cycles)) s.enter
  | runs {answer : Except Fault StepOutcome} {after : Switches} : s.exec ≠ .halted →
      (s.eiDelay = true ∨ s.ime = false ∨ requested = false) →
      s.begin.Performs requested pc opcode answer after → Does s requested pc opcode answer after

/-- What a boundary action answers, and what it makes of the switches of the core. -/
inductive Switches.Answers (s : Switches) (active requested : Bool) (pc : UInt16)
    (opcode : UInt8) : Except Fault StepOutcome → Switches → Prop where
  | refused {fault : Fault} : s.exec = .faultLatched fault →
      Answers s active requested pc opcode (.error fault) s
  | held (cycles : Nat) : s.exec.latchedFault? = none → active = true →
      Answers s active requested pc opcode (.ok (.idle cycles)) (s.look true)
  | acted {answer : Except Fault StepOutcome} {after : Switches} :
      s.exec.latchedFault? = none → active = false →
      (s.look false).Does requested pc opcode answer after →
      Answers s active requested pc opcode answer after

theorem acted_does (awake : m.core.exec.latchedFault? = none) (released : Released w m)
    (remaining : Nat) :
    (m.core.switches.look false).Does
      (m.core.regs.ie &&& flagsFound w m &&& interruptMask != 0) m.core.regs.pc
      (advance w remaining m).2.core.opcode (advance w remaining m).1
      (advance w remaining m).2.core.switches := by
  have looked := sample_switches w m
  rw [released] at looked
  by_cases halted : (sample w m).2.core.exec = .halted
  · have sleeping : (m.core.switches.look false).exec = .halted := looked ▸ halted
    rw [advance_sampled awake released, eval_bind]
    obtain ⟨-, acts⟩ | ⟨running, -⟩ := act_cases w remaining (sample w m).1 (sample w m).2
    · have slept := stayHalted_switches w remaining (sample w m).1 (sample w m).2
      rw [looked] at slept
      rw [acts, Prod.map_fst, Prod.map_snd, id_eq, slept, stayHalted_eq]
      split
      · exact .wakes _ sleeping
      · exact .sleeps _ sleeping
    · exact absurd halted running
  · have running : (m.core.switches.look false).exec ≠ .halted := looked ▸ halted
    have latches : (m.core.switches.look false).eiDelay = m.core.eiDelay ∧
        (m.core.switches.look false).ime = m.core.regs.ime := by
      rw [← looked, sample_core released]
      exact ⟨rfl, rfl⟩
    obtain ⟨source, prompt, enabled, foremost, serves⟩ | ⟨undue, runs⟩ :=
      advance_running awake released halted remaining
    · have entered := service_switches w source (sample w m).2
      rw [looked] at entered
      rw [serves, (service_entered released foremost.requested).outcome, Prod.map_snd, id_eq,
        entered]
      exact .enters _ _ running (latches.1.trans prompt) (latches.2.trans enabled)
        (bne_iff_ne.mpr foremost.pos)
    · have attempted := runInstruction_attempted released
      rw [← runs] at attempted
      refine .runs running ?_ (attempted.performs released).1
      rw [latches.1, latches.2]
      exact undue.imp_right (.imp_right fun none => by simp [none])

/-- Every action answers for its switches. -/
theorem advance_answers (w : Wiring σ) (remaining : Nat) (m : Machine State σ) :
    m.core.switches.Answers ((m.world.lines.latch w.number).level resetLine).isActive
      (m.core.regs.ie &&& flagsFound w m &&& interruptMask != 0) m.core.regs.pc
      (advance w remaining m).2.core.opcode (advance w remaining m).1
      (advance w remaining m).2.core.switches := by
  cases latched : m.core.exec.latchedFault? with
  | some fault =>
    rw [advance_eq, latched]
    exact .refused (ExecState.eq_faultLatched latched)
  | none =>
    cases active : ((m.world.lines.latch w.number).level resetLine).isActive with
    | false => exact .acted latched rfl (acted_does latched active remaining)
    | true =>
      have held : ¬Released w m := by simp [Released, active]
      rw [advance_held_switches latched held, advance_held latched held]
      exact .held _ latched rfl

section Answers

variable {s after : Switches} {active requested : Bool} {pc : UInt16} {opcode : UInt8}
  {answer : Except Fault StepOutcome}

/-- An instruction retires only in a released core that is not halted, and has performed the
operation of its opcode. -/
theorem Switches.Answers.retired (answers : s.Answers active requested pc opcode answer after)
    {place : UInt32} {cycles : Nat} (retired : answer = .ok (.retired place cycles)) :
    active = false ∧ (s.look false).exec ≠ .halted ∧ place = pc.toUInt32 ∧
      after = ((s.look false).begin.perform requested (decode opcode)).retire := by
  subst retired
  cases answers with
  | acted _ released does =>
    cases does with
    | runs running _ performs =>
      cases performs with
      | retired => exact ⟨released, running, rfl, rfl⟩

/-- A released core that runs enters an interrupt if no delay after `EI` is pending, interrupts are
enabled, and an enabled one is requested. -/
theorem Switches.Answers.interrupts_iff
    (answers : s.Answers false requested pc opcode answer after) (fetching : s.exec = .fetching) :
    (∃ vector cycles, answer = .ok (.interrupt vector cycles)) ↔
      s.eiDelay = false ∧ s.ime = true ∧ requested = true := by
  have looked : s.look false = { s with inReset := false } := by
    rw [Switches.look_released, fetching, ite_self, ← fetching]
  cases answers with
  | refused faulted => exact nomatch fetching.symm.trans faulted
  | held _ _ active => cases active
  | acted _ _ does =>
    rw [looked] at does
    cases does with
    | sleeps _ halted | wakes _ halted => exact nomatch fetching.symm.trans halted
    | enters vector cycles _ prompt enabled due =>
      exact ⟨fun _ => ⟨prompt, enabled, due⟩, fun _ => ⟨vector, cycles, rfl⟩⟩
    | runs _ undue performs =>
      refine ⟨?_, fun ⟨prompt, enabled, due⟩ => ?_⟩
      · rintro ⟨vector, cycles, interrupts⟩
        cases performs <;> cases interrupts
      · simp [prompt, enabled, due] at undue

end Answers

/-- When a core that is neither faulted nor halted nor held in reset looks at its lines, it enters
an interrupt exactly if no delay after `EI` is pending, interrupts are enabled and an enabled one is
requested. It enters the first such then, and attempts one instruction otherwise. -/
theorem interrupt_entered_iff (w : Wiring σ) (remaining : Nat) (m : Machine State σ)
    (awake : m.core.exec.latchedFault? = none) (running : m.core.exec ≠ .halted)
    (released : Released w m) :
    let pending := m.core.regs.ie &&& flagsFound w m &&& interruptMask
    let after := advance w remaining m
    ((∃ vector cycles, after.1 = .ok (.interrupt vector cycles)) ↔
      m.core.eiDelay = false ∧ m.core.regs.ime = true ∧ pending ≠ 0) ∧
    ((∃ vector cycles, after.1 = .ok (.interrupt vector cycles)) →
      ∃ source, Foremost pending source ∧ Entered w source m after) ∧
    ((∀ vector cycles, after.1 ≠ .ok (.interrupt vector cycles)) → Attempted w m after) := by
  intro pending after
  obtain ⟨source, prompt, enabled, foremost, entered⟩ | ⟨undue, attempted⟩ :=
    entered_or_attempted awake released (exec_sample released running) remaining
  · have interrupted : ∃ vector cycles, after.1 = .ok (.interrupt vector cycles) :=
      ⟨_, _, entered.outcome⟩
    refine ⟨⟨fun _ => ⟨prompt, enabled, foremost.pos⟩, fun _ => interrupted⟩,
      fun _ => ⟨source, foremost, entered⟩, fun calm => ?_⟩
    exact absurd entered.outcome (calm _ _)
  · have calm := attempted.place.calm
    refine ⟨⟨fun ⟨_, _, interrupted⟩ => absurd interrupted (calm _ _), ?_⟩,
      fun ⟨_, _, interrupted⟩ => absurd interrupted (calm _ _), fun _ => attempted⟩
    rintro ⟨prompt, enabled, some⟩
    rcases undue with delayed | disabled | none
    · exact nomatch prompt.symm.trans delayed
    · exact nomatch enabled.symm.trans disabled
    · exact absurd none some

end Actions

/-- Two requests wait for a core whose stack pointer is at the bottom of memory. The first one is
served, the line that was held for it is let go, and the high byte of the return address lands in
`IE`. -/
theorem interrupt_entered_iff_at_bottom :
    let w : Wiring UInt8 := .cell id (fun value _ => value) 0
    let m : Machine State UInt8 := ⟨{ regs := { pc := 0x1234, ime := true, ie := 0x05 } },
      ⟨0, { latches := [((LineLatch.released 6).set 0 .hold).set 2 .assert] }, {}⟩⟩
    let after := advance w 1 m
    (∃ source, Foremost (m.core.regs.ie &&& flagsFound w m &&& interruptMask) source ∧
      Entered w source m after) ∧
      after.1.toOption = some (.interrupt 0x40 20) ∧ after.2.core.regs.ie = 0x12 ∧
      after.2.core.regs.iflag = 0x04 ∧ after.2.world.devices = 0x34 ∧
      (after.2.world.lines.latch 0).level 0 = .clear ∧
      (after.2.world.lines.latch 0).level 2 = .assert := by
  intro w m after
  obtain ⟨enters, entered, -⟩ := interrupt_entered_iff w 1 m rfl nofun rfl
  have due : ∃ vector cycles, after.1 = .ok (.interrupt vector cycles) :=
    enters.mpr ⟨rfl, rfl, by decide⟩
  exact ⟨entered due, by decide +kernel, by decide +kernel, by decide +kernel, by decide +kernel,
    by decide +kernel, by decide +kernel⟩

end Microboard.Sm83
