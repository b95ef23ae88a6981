import Microboard.Proofs.Requests
import Microboard.Proofs.Sm83.Boundary
import Microboard.Proofs.Sm83.Idling
import Microboard.Proofs.Sm83.Watching

/-!
# SM83 interrupt requests

- **§1** The two halves of a boundary action: sampling the lines, and acting on what was found.
- **§2** What sampling finds.
- **§3** What instructions and interrupt entries make of `IF`.
- **§4** What an action makes of requests: none is lost and none is made up.
- **§5** The same of a single line, its state and its flag.

A request is an edge on one of the request lines. It waits in the latch until the core samples its
lines, then in `IF` until its interrupt is entered or the program writes `IF`.
-/

namespace Microboard.Sm83

variable {σ : Type}

/-! ## §1 Sampling and acting -/

/-- The first half of a boundary action of a core that is neither faulted nor held in reset: it
looks at its lines and answers the bits that it raised in `IF`. -/
def sample (w : Wiring σ) : Exec σ UInt8 := do
  modifyStatus ({ · with bus := [] })
  discard <| sampleReset w
  latchRequests w

theorem sample_eq (w : Wiring σ) (m : Machine State σ) :
    sample w m = latchRequests w (sampleReset w (unobserved m)).2 := rfl

/-- The second half: it acts on what it found. -/
def act (w : Wiring σ) (remaining : Nat) (raised : UInt8) :
    Exec σ (Except Fault StepOutcome) := do
  if (← getState).exec = .halted then
    return .ok (← stayHalted w remaining raised)
  else
    runBoundary w

/-- The source whose interrupt is entered at a boundary. After `EI` none is looked for. -/
def State.dueInterrupt? (s : State) : Option InputLine :=
  if s.eiDelay then none else s.regs.nextInterrupt?

/-- A running core enters the interrupt that is due, or else runs an instruction, which uses up the
delay after `EI`. -/
theorem act_running (w : Wiring σ) (remaining : Nat) (raised : UInt8) {m : Machine State σ}
    (running : m.core.exec ≠ .halted) :
    act w remaining raised m =
      match m.core.dueInterrupt? with
      | some source => Prod.map .ok id (service w source m)
      | none => runInstruction w ⟨{ m.core with eiDelay := false }, m.world⟩ := by
  unfold act runBoundary State.dueInterrupt?
  rw [eval_bind, eval_getState, eval_ite, if_neg running, eval_bind, eval_getState, eval_ite]
  cases delayed : m.core.eiDelay with
  | true => rfl
  | false =>
    have same : { m.core with eiDelay := false } = m.core := by rw [← delayed]
    cases m.core.regs.nextInterrupt? with
    | none =>
      rw [same]
      rfl
    | some source => rfl

/-- A source that is due is requested and enabled. -/
theorem dueInterrupt_some {s : State} {source : InputLine} (due : s.dueInterrupt? = some source) :
    s.eiDelay = false ∧ s.regs.nextInterrupt? = some source ∧ source ∈ requestLines := by
  unfold State.dueInterrupt? at due
  split at due
  · cases due
  next prompt =>
    have found := due
    unfold Registers.nextInterrupt? at found
    split at found
    · exact ⟨Bool.eq_false_iff.mpr prompt, due, List.mem_of_find?_eq_some found⟩
    · cases found

/-- What a core does that has looked at its lines. It stays halted or wakes, runs an instruction,
which uses up the delay after `EI`, or enters the interrupt of a request line. -/
theorem act_cases (w : Wiring σ) (remaining : Nat) (raised : UInt8) (m : Machine State σ) :
    (m.core.exec = .halted ∧
      act w remaining raised m = Prod.map .ok id (stayHalted w remaining raised m)) ∨
    (m.core.exec ≠ .halted ∧
      (act w remaining raised m = runInstruction w ⟨{ m.core with eiDelay := false }, m.world⟩ ∨
        ∃ source ∈ requestLines, m.core.eiDelay = false ∧
          m.core.regs.nextInterrupt? = some source ∧
          act w remaining raised m = Prod.map .ok id (service w source m))) := by
  by_cases halted : m.core.exec = .halted
  · left
    unfold act
    rw [eval_bind, eval_getState, eval_ite, if_pos halted]
    exact ⟨halted, rfl⟩
  · right
    refine ⟨halted, ?_⟩
    rw [act_running w remaining raised halted]
    cases due : m.core.dueInterrupt? with
    | none => exact .inl rfl
    | some source =>
      obtain ⟨prompt, found, requested⟩ := dueInterrupt_some due
      exact .inr ⟨source, requested, prompt, found, rfl⟩

/-- The reset line of the core is not active. -/
def Released (w : Wiring σ) (m : Machine State σ) : Prop :=
  ((m.world.lines.latch w.number).level resetLine).isActive = false

/-- Whether the reset line holds a core is what the line shows. -/
theorem sampleReset_fst (w : Wiring σ) (m : Machine State σ) :
    (sampleReset w m).1 = ((m.world.lines.latch w.number).level resetLine).isActive := by
  rw [sampleReset_eq, ← (m.world.looked w.number resetLine).1]
  obtain ⟨held, world⟩ := m.world.onLatch w.number (·.sample resetLine .level)
  cases held <;> cases m.core.inReset <;> rfl

/-- Such a core finds its reset line released, and to look at it has no other effect than to leave
reset. -/
theorem sampleReset_released {w : Wiring σ} {m : Machine State σ} (released : Released w m) :
    (sampleReset w m).1 = false ∧ (sampleReset w m).2.core.regs = m.core.regs ∧
      (sampleReset w m).2.core.bus = m.core.bus ∧
      (sampleReset w m).2.world.devices = m.world.devices ∧
      (sampleReset w m).2.world.lines.latch w.number =
        ((m.world.lines.latch w.number).sample resetLine .level).2 := by
  obtain ⟨active, devices, latch⟩ := m.world.looked w.number resetLine
  have low := active.trans released
  rw [sampleReset_eq]
  revert devices latch low
  obtain ⟨held, world⟩ := m.world.onLatch w.number (·.sample resetLine .level)
  rintro devices latch rfl
  cases inReset : m.core.inReset with
  | true => exact ⟨rfl, rfl, rfl, devices, latch⟩
  | false => exact ⟨rfl, rfl, rfl, devices, latch⟩

theorem advance_sampled {w : Wiring σ} {m : Machine State σ}
    (awake : m.core.exec.latchedFault? = none) (released : Released w m) (remaining : Nat) :
    advance w remaining m = (sample w >>= act w remaining) m := by
  have low : (sampleReset w (unobserved m)).1 = false :=
    (sampleReset_released (m := unobserved m) released).1
  rw [advance_eq, awake, eval_bind, sample_eq]
  revert low
  obtain ⟨held, m₁⟩ := sampleReset w (unobserved m)
  rintro rfl
  dsimp only
  unfold act
  rw [eval_bind, eval_ite]
  rfl

/-- A core that its reset line holds lets time pass, once it has looked at the line. -/
theorem advance_held {w : Wiring σ} {m : Machine State σ}
    (awake : m.core.exec.latchedFault? = none) (active : ¬Released w m) (remaining : Nat) :
    advance w remaining m = (.ok (.idle (idleCycles remaining)),
      charged (idleCycles remaining) (sampleReset w (unobserved m)).2) := by
  have held : (sampleReset w (unobserved m)).1 = true := by
    rw [sampleReset_fst]
    exact eq_true_of_ne_false active
  rw [advance_eq, awake]
  revert held
  obtain ⟨_, m₁⟩ := sampleReset w (unobserved m)
  rintro rfl
  rfl

/-! ## §2 What sampling finds -/

/-- Bits of some lines in `IF`. -/
def bits (lines : List InputLine) : UInt8 :=
  lines.foldr (fun line rest => (1 : UInt8) <<< line ||| rest) 0

/-- The bits taken are those of the lines with edges. -/
theorem takeEdges_fst (latch : LineLatch) {lines : List InputLine} (distinct : lines.Nodup) :
    (takeEdges latch lines).1 = bits (lines.filter latch.hasEdge) := by
  induction lines generalizing latch with
  | nil => rfl
  | cons line rest ih =>
    obtain ⟨apart, distinct⟩ := List.nodup_cons.mp distinct
    have others : rest.filter (latch.sample line .edge).2.hasEdge = rest.filter latch.hasEdge := by
      refine List.filter_congr fun other there => ?_
      rw [LineLatch.sample_snd, LineLatch.hasEdge_update_withoutEdge, if_neg]
      rintro rfl
      exact apart there
    show (if latch.hasEdge line then 1 <<< line ||| (takeEdges (latch.sample line .edge).2 rest).1
      else (takeEdges (latch.sample line .edge).2 rest).1) = _
    rw [ih _ distinct, others, List.filter_cons]
    split <;> rfl

theorem level_same_takeEdges (latch : LineLatch) (taken : List InputLine) :
    latch.Level (takeEdges latch taken).2 := by
  induction taken generalizing latch with
  | nil => exact fun _ => ⟨rfl, rfl⟩
  | cons first rest ih => exact (latch.level_sample first .edge).trans (ih _)

/-- The requests that a latch holds for the next boundary. -/
def waiting (latch : LineLatch) : List InputLine := requestLines.filter latch.hasEdge

/-- A latch whose requests have been taken. -/
structure Taken (before after : LineLatch) : Prop where
  level : before.Level after
  edges : ∀ line ∈ requestLines, after.hasEdge line = false

theorem taken_takeEdges (latch : LineLatch) : Taken latch (takeEdges latch requestLines).2 where
  level := level_same_takeEdges latch requestLines
  edges line requested := by rw [hasEdge_takeEdges, if_pos requested]

/-- Sampling answers the bits of the lines on which a request waits. -/
theorem sample_fst {w : Wiring σ} {m : Machine State σ} (released : Released w m) :
    (sample w m).1 = bits (waiting (m.world.lines.latch w.number)) := by
  obtain ⟨-, -, -, -, latch⟩ := sampleReset_released (m := unobserved m) released
  -- the reset line is sampled first, which leaves the request lines alone
  have apart : ∀ line ∈ requestLines,
      ((sampleReset w (unobserved m)).2.world.lines.latch w.number).hasEdge line =
        (m.world.lines.latch w.number).hasEdge line := by
    intro line requested
    rw [latch, LineLatch.sample_snd, LineLatch.hasEdge_update_withoutEdge, if_neg]
    · rfl
    · rintro rfl
      revert requested
      decide
  rw [sample_eq, latchRequests_eq]
  show (takeEdges _ requestLines).1 = _
  rw [takeEdges_fst _ (by decide), List.filter_congr apart]
  rfl

/-- Sampling moves what waits on the request lines into `IF`, starts a fresh note of bus cycles, and
touches no level and no device. -/
theorem sample_found {w : Wiring σ} {m : Machine State σ} (released : Released w m) :
    (sample w m).2.core.regs.iflag =
        m.core.regs.iflag ||| bits (waiting (m.world.lines.latch w.number)) ∧
      (sample w m).2.core.bus = [] ∧ (sample w m).2.world.devices = m.world.devices ∧
      Taken (m.world.lines.latch w.number) ((sample w m).2.world.lines.latch w.number) := by
  obtain ⟨-, regs, bus, devices, latch⟩ := sampleReset_released (m := unobserved m) released
  have same : (m.world.lines.latch w.number).Level
      ((sampleReset w (unobserved m)).2.world.lines.latch w.number) := by
    rw [latch]
    exact (m.world.lines.latch w.number).level_sample resetLine .level
  rw [← sample_fst released, sample_eq, latchRequests_eq]
  refine ⟨?_, bus, devices, ?_⟩
  · dsimp only
    rw [regs]
    rfl
  · rw [World.latch_onLatch_eq (takeEdges · requestLines) rfl]
    have taken := taken_takeEdges
      ((sampleReset w (unobserved m)).2.world.lines.latch w.number)
    exact ⟨same.trans taken.level, taken.edges⟩

/-! ## §3 Instructions and interrupt entries -/

/-- The bus cycle is a write to `IF`. -/
def WritesIf (cycle : BusCycle) : Prop :=
  cycle.direction = .write ∧ cycle.address = ifAddress.toUInt32

instance (cycle : BusCycle) : Decidable (WritesIf cycle) := inferInstanceAs (Decidable (_ ∧ _))

/-- `IF` after some bus cycles, of which only writes to it change it. -/
def written (flags : UInt8) (bus : List BusCycle) : UInt8 :=
  bus.foldl (fun flags cycle => if WritesIf cycle then cycle.value &&& interruptMask else flags)
    flags

theorem written_append (flags : UInt8) (bus : List BusCycle) (cycle : BusCycle) :
    written flags (bus ++ [cycle]) =
      if WritesIf cycle then cycle.value &&& interruptMask else written flags bus := by
  unfold written
  rw [List.foldl_append]
  rfl

/-- Without a write `IF` stays as it is. -/
theorem written_of_none {flags : UInt8} {bus : List BusCycle}
    (none : ∀ cycle ∈ bus, ¬WritesIf cycle) : written flags bus = flags := by
  induction bus with
  | nil => rfl
  | cons cycle bus ih =>
    obtain ⟨first, rest⟩ := List.forall_mem_cons.mp none
    show written (if WritesIf cycle then _ else flags) bus = flags
    rw [if_neg first, ih rest]

/-- The bus cycles noted so far account for `IF`. -/
def Flagged (flags : UInt8) (m : Machine State σ) : Prop :=
  m.core.regs.iflag = written flags m.core.bus

section Flags

variable {w : Wiring σ} {flags : UInt8}

/-- A bus cycle that is no write to `IF` is nothing to it. -/
theorem Flagged.observe {m : Machine State σ} (flagged : Flagged flags m) {role : BusRole}
    {direction : BusDirection} {address : UInt16} {value : UInt8}
    (other : direction = .read ∨ address ≠ ifAddress) :
    Flagged flags (Sm83.observe role direction address value m).2 := by
  have quiet : ¬WritesIf ⟨role, direction, .byte, address.toUInt32, value⟩ := by
    rintro ⟨writes, here⟩
    rcases other with rfl | elsewhere
    · cases writes
    · refine elsewhere (UInt16.toNat_inj.mp ?_)
      exact congrArg UInt32.toNat here
  show m.core.regs.iflag = written flags (m.core.bus ++ [_])
  rw [written_append, if_neg quiet]
  exact flagged

theorem read8_flagged (w : Wiring σ) (address : UInt16) :
    Keeps (Flagged flags) (read8 w address) := by
  refine .ite (fun _ => ?_) fun _ => .ite (fun _ => ?_) fun _ => ?_
  · exact .bind (fun _ flagged => flagged) fun _ =>
      .bind (fun _ flagged => flagged.observe (.inl rfl)) fun _ => .pure _
  · exact .bind (fun _ flagged => flagged) fun _ =>
      .bind (fun _ flagged => flagged.observe (.inl rfl)) fun _ => .pure _
  · exact .bind (fun _ flagged => flagged) fun _ =>
      .bind (fun _ flagged => flagged.observe (.inl rfl)) fun _ => .pure _

theorem write8_flagged (w : Wiring σ) (address : UInt16) (value : UInt8) :
    Keeps (Flagged flags) (write8 w address value) := by
  refine .ite (fun enable => ?_) fun _ => .ite (fun request => ?_) fun other => ?_
  · have apart : address ≠ ifAddress := by
      rw [enable]
      decide
    exact .bind (fun _ flagged => flagged) fun _ _ flagged => flagged.observe (.inr apart)
  · -- the write is noted after `IF` has taken the value
    intro m _
    show value &&& interruptMask = written flags (m.core.bus ++ [_])
    rw [written_append, if_pos ⟨rfl, congrArg UInt16.toUInt32 request⟩]
  · exact .bind (fun _ flagged => flagged) fun _ _ flagged => flagged.observe (.inr other)

/-- Whatever the core does, its note of bus cycles accounts for `IF`. -/
theorem watches_flagged (w : Wiring σ) (flags : UInt8) : Watches w (Flagged flags) where
  modify quiet m flagged := (quiet.iflag m.core).trans
    (flagged.trans (congrArg (written flags) (quiet.bus m.core).symm))
  read8 := read8_flagged w
  write8 := write8_flagged w
  takeWaitStates _ flagged := flagged
  signal _ _ _ flagged := flagged
  record _ _ flagged := flagged

end Flags

/-- An instruction runs at the program counter, or it is refused there. -/
theorem runInstruction_runsAt (w : Wiring σ) (m : Machine State σ) :
    RunsAt m.core.regs.pc (runInstruction w m).1 := by
  unfold runInstruction
  rw [eval_bind, eval_bind, eval_bind, eval_ite]
  split
  · rw [eval_bind, eval_bind]
    cases w.config.policy with
    | fatal => exact .refused _
    | nop => exact .retired _
  · exact .retired _

/-! ## §4 Actions -/

/-- The core with a note of what its surroundings request. -/
def Wiring.overheard (w : Wiring σ) : Wiring (σ × List LineRequest) where
  config := w.config
  program := w.program.overheard
  number := w.number
  sink := w.sink.overheard

/-- What is requested while the core acts, oldest first. -/
def requestsDuring (w : Wiring σ) (remaining : Nat) (m : Machine State σ) : List LineRequest :=
  (advance w.overheard remaining m.overheard).2.world.devices.2

/-- Being overheard changes nothing. -/
theorem advance_overheard (w : Wiring σ) (remaining : Nat) (m : Machine State σ) :
    (advance w remaining m).1 = (advance w.overheard remaining m.overheard).1 ∧
      Across Eq World.Overhears (advance w remaining m).2
        (advance w.overheard remaining m.overheard).2 := by
  have coupled : Wiring.Coupled World.Overhears w w.overheard :=
    { placesCoupled_overheard w.number w.sink with
      config := rfl
      program := w.program.coupled_overheard }
  exact coupled.tracks_eq.advance remaining m m.overheard ⟨rfl, World.overhears_start m⟩

/-- Between two looks at the lines, what is heard accounts for the latch. -/
theorem runs_heard (w : Wiring σ) (base : LineLatch) :
    Runs w.overheard w.overheard (Across Eq (Both (World.Heard w.number base))) :=
  Wiring.Accords.runs_eq
    { outputsCoupled_heard w.number base w.sink with
      config := rfl
      program := w.program.coupled_heard w.number base }

/-- `IF` and the latch of the core are accounted for by what was there before, by what its bus
cycles wrote and by what was heard. -/
structure Accounted (core : Nat) (flags : UInt8) (base : LineLatch)
    (m : Machine State (σ × List LineRequest)) : Prop where
  flagged : Flagged flags m
  heard : m.world.Heard core base

/-- What was pending is still so, but for a source whose interrupt was entered. -/
def Conserves (core : Nat) (flags : UInt8) (base : LineLatch)
    (answer : Except Fault StepOutcome) (m : Machine State (σ × List LineRequest)) : Prop :=
  (∃ source ∈ requestLines,
    (∃ cycles, answer = .ok (.interrupt (handlerAddress source).toUInt32 cycles)) ∧
    Accounted core (flags &&& ~~~(1 <<< source)) (base.acknowledge source) m) ∨
  ((∀ vector cycles, answer ≠ .ok (.interrupt vector cycles)) ∧ Accounted core flags base m)

/-- A core that has sampled its lines and done nothing yet. -/
structure Poised (core : Nat) (flags : UInt8) (base : LineLatch)
    (m : Machine State (σ × List LineRequest)) : Prop where
  iflag : m.core.regs.iflag = flags
  bus : m.core.bus = []
  latch : m.world.lines.latch core = base
  heard : m.world.devices.2 = []

theorem Poised.accounted {core : Nat} {flags : UInt8} {base : LineLatch}
    {m : Machine State (σ × List LineRequest)} (poised : Poised core flags base m) :
    Accounted core flags base m where
  flagged := by
    unfold Flagged
    rw [poised.bus]
    exact poised.iflag
  heard := by
    unfold World.Heard
    rw [poised.heard]
    exact poised.latch

section Actions

variable {flags : UInt8} {base : LineLatch}

theorem runInstruction_conserves (w : Wiring σ) :
    Ensures (Accounted w.number flags base) (runInstruction w.overheard)
      (Conserves w.number flags base) := by
  rintro m ⟨flagged, heard⟩
  refine .inr ⟨(runInstruction_runsAt _ m).calm, (watches_flagged _ _).runInstruction m flagged, ?_⟩
  exact (runs_heard w base).runInstruction.keepsWorld m heard

theorem stayHalted_conserves (w : Wiring σ) (remaining : Nat) (raised : UInt8) :
    Ensures (Accounted w.number flags base) (stayHalted w.overheard remaining raised)
      fun step => Conserves w.number flags base (.ok step) := by
  rintro m ⟨flagged, heard⟩
  refine .inr ⟨?_, (watches_flagged _ _).stayHalted remaining raised m flagged, ?_⟩
  · rw [stayHalted_eq]
    split <;> exact nofun
  · exact ((runs_heard w base).stayHalted remaining raised).keepsWorld m heard

/-- The source that is served loses its bit in `IF`, and its line is let go if it was held. -/
theorem service_conserves (w : Wiring σ) {source : InputLine} (requested : source ∈ requestLines) :
    Ensures (Poised w.number flags base) (service w.overheard source)
      fun step => Conserves w.number flags base (.ok step) := by
  intro m poised
  rw [service_handler]
  refine .inl ⟨source, requested, ⟨_, rfl⟩, (watches_flagged _ _).enterHandler source _ ?_,
    ((runs_heard w _).enterHandler source).keepsWorld _ ?_⟩
  · show m.core.regs.iflag &&& _ = written _ m.core.bus
    rw [poised.bus, poised.iflag]
    rfl
  · show _ = (base.acknowledge source).setAll (LineRequest.levelsFor w.number m.world.devices.2)
    rw [poised.heard, ← poised.latch]
    exact m.world.latch_acknowledged w.number source

/-- What is acted upon is conserved. -/
theorem act_conserves (w : Wiring σ) (remaining : Nat) (raised : UInt8) :
    Ensures (Poised w.number flags base) (act w.overheard remaining raised)
      (Conserves w.number flags base) := by
  intro m poised
  obtain ⟨-, acts⟩ | ⟨-, acts | ⟨source, requested, -, -, acts⟩⟩ :=
    act_cases w.overheard remaining raised m
  · rw [acts]
    exact stayHalted_conserves w remaining raised m poised.accounted
  · rw [acts]
    exact runInstruction_conserves w ⟨{ m.core with eiDelay := false }, m.world⟩
      ⟨poised.accounted.flagged, poised.accounted.heard⟩
  · rw [acts]
    exact service_conserves w requested m poised

end Actions

/-- What an action makes of `IF`, unless its bus cycles write to it, and of the edges on the request
lines: of these there are the ones that were requested meanwhile. -/
structure Conserved (core : Nat) (flags : UInt8) (before : LineLatch)
    (requests : List (InputLine × LineLevel)) (m : Machine State σ) : Prop where
  iflag : (∀ cycle ∈ m.core.bus, ¬WritesIf cycle) → m.core.regs.iflag = flags
  edges : ∀ line ∈ requestLines,
    (m.world.lines.latch core).hasEdge line = true ↔ before.Raised requests line

theorem Taken.acknowledge {before after : LineLatch} (taken : Taken before after)
    (source : InputLine) : Taken (before.acknowledge source) (after.acknowledge source) where
  level := taken.level.acknowledge source
  edges line requested := (after.hasEdge_acknowledge source line).trans (taken.edges line requested)

/-- What is accounted for is conserved, whether the core is overheard or not. -/
theorem Accounted.conserved {core : Nat} {flags : UInt8} {before after : LineLatch}
    {m : Machine State σ} {noted : Machine State (σ × List LineRequest)}
    (accounted : Accounted core flags after noted) (taken : Taken before after)
    (alike : Across Eq World.Overhears m noted) :
    Conserved core flags before (LineRequest.levelsFor core noted.world.devices.2) m where
  iflag quiet := by
    have flagged := accounted.flagged
    unfold Flagged at flagged
    rw [← alike.1, written_of_none quiet] at flagged
    exact flagged
  edges line requested := by
    have heard : noted.world.lines.latch core = _ := accounted.heard
    rw [← alike.2.lines, heard, LineLatch.hasEdge_setAll, taken.edges line requested,
      ← taken.level.raised]
    exact ⟨fun either => either.resolve_left nofun, .inr⟩

/-- An action of a core that is neither faulted nor held in reset, overheard: it begins with what it
takes from the request lines, and that is conserved. -/
theorem advance_accounted {w : Wiring σ} {m : Machine State σ}
    (awake : m.core.exec.latchedFault? = none) (released : Released w m) (remaining : Nat) :
    ∃ taken, Taken (m.world.lines.latch w.number) taken ∧
      Conserves w.number (m.core.regs.iflag ||| bits (waiting (m.world.lines.latch w.number))) taken
        (advance w remaining m).1 (advance w.overheard remaining m.overheard).2 ∧
      Across Eq World.Overhears (advance w remaining m).2
        (advance w.overheard remaining m.overheard).2 := by
  obtain ⟨iflag, bus, devices, taken⟩ := sample_found (w := w.overheard) (m := m.overheard) released
  have ran := advance_sampled (w := w.overheard) (m := m.overheard) awake released remaining
  obtain ⟨answer, alike⟩ := advance_overheard w remaining m
  refine ⟨_, taken, ?_, alike⟩
  rw [answer, ran]
  exact act_conserves w remaining _ _ ⟨iflag, bus, rfl, congrArg Prod.snd devices⟩

/-- No request is lost and none is made up. When a core acts that is neither faulted nor held in
reset, every line on which an edge waited has its bit raised in `IF`, and the bits stay, but for the
source whose interrupt is entered, unless the program writes to `IF`. Afterwards edges wait on the
lines that were raised during the action, and on no others. -/
theorem requests_conserved (w : Wiring σ) (remaining : Nat) (m : Machine State σ)
    (awake : m.core.exec.latchedFault? = none) (released : Released w m) :
    let before := m.world.lines.latch w.number
    let flags := m.core.regs.iflag ||| bits (waiting before)
    let requests := LineRequest.levelsFor w.number (requestsDuring w remaining m)
    let after := advance w remaining m
    (∃ source ∈ requestLines,
      (∃ cycles, after.1 = .ok (.interrupt (handlerAddress source).toUInt32 cycles)) ∧
      Conserved w.number (flags &&& ~~~(1 <<< source)) (before.acknowledge source) requests
        after.2) ∨
    ((∀ vector cycles, after.1 ≠ .ok (.interrupt vector cycles)) ∧
      Conserved w.number flags before requests after.2) := by
  intro before flags requests after
  obtain ⟨base, taken, conserves, alike⟩ := advance_accounted awake released remaining
  obtain ⟨source, requested, entered, accounted⟩ | ⟨calm, accounted⟩ := conserves
  · exact .inl ⟨source, requested, entered, accounted.conserved (taken.acknowledge source) alike⟩
  · exact .inr ⟨calm, accounted.conserved taken alike⟩

/-- The entry of an interrupt whose source is held, over a memory that requests it again with every
write: pushing the return address raises the line that has just been let go, and that request waits
for the next action. -/
theorem requests_conserved_entry :
    let w : Wiring UInt8 := { Wiring.cell id (fun value _ => value) 0 with
      program := { Space.cell ⟨"program", 16, 8, .little⟩ id fun value _ => value with
        write := fun _ _ value _ => ⟨(), value.toUInt8, [⟨0, 0, .hold⟩]⟩ } }
    let m : Machine State UInt8 := ⟨{ regs := { sp := 0xC000, ime := true, ie := 1 } },
      ⟨0, { latches := [(LineLatch.released 6).set 0 .hold] }, {}⟩⟩
    let before := m.world.lines.latch 0
    let flags := m.core.regs.iflag ||| bits (waiting before)
    let requests := LineRequest.levelsFor 0 (requestsDuring w 1 m)
    let after := advance w 1 m
    (∃ source ∈ requestLines,
      (∃ cycles, after.1 = .ok (.interrupt (handlerAddress source).toUInt32 cycles)) ∧
      Conserved 0 (flags &&& ~~~(1 <<< source)) (before.acknowledge source) requests after.2) ∧
      flags = 1 ∧ requests = [(0, .hold), (0, .hold)] ∧ after.2.core.regs.iflag = 0 ∧
      (after.2.world.lines.latch 0).hasEdge 0 = true := by
  intro w m
  refine ⟨(requests_conserved w 1 m rfl rfl).resolve_right fun ⟨_, conserved⟩ => ?_,
    by decide +kernel, by decide +kernel, by decide +kernel, by decide +kernel⟩
  -- without an interrupt the flag would still be set
  exact absurd (conserved.iflag (by decide +kernel)) (by decide +kernel)

/-! ## §5 One line -/

/-- Whether an answer says that the interrupt of a line was entered. -/
def enters (line : InputLine) : Except Fault StepOutcome → Bool
  | .ok (.interrupt vector _) => vector == (handlerAddress line).toUInt32
  | _ => false

/-- Sources have handlers of their own. -/
theorem enters_source {source line : InputLine} (known : source ∈ requestLines)
    (requested : line ∈ requestLines) (cycles : Nat) :
    enters line (.ok (.interrupt (handlerAddress source).toUInt32 cycles)) =
      decide (line = source) := by
  have apart : ∀ source ∈ requestLines, ∀ line ∈ requestLines,
      ((handlerAddress source).toUInt32 == (handlerAddress line).toUInt32) =
        decide (line = source) := by decide +kernel
  exact apart source known line requested

theorem enters_calm {answer : Except Fault StepOutcome}
    (calm : ∀ vector cycles, answer ≠ .ok (.interrupt vector cycles)) (line : InputLine) :
    enters line answer = false := by
  unfold enters
  split
  · exact absurd rfl (calm _ _)
  · rfl

theorem Taken.state {before after : LineLatch} (taken : Taken before after) {line : InputLine}
    (requested : line ∈ requestLines) : after.state line = (before.state line).withoutEdge := by
  have level := (taken.level line).1
  have edge := taken.edges line requested
  unfold LineLatch.level at level
  unfold LineLatch.hasEdge at edge
  unfold LineState.withoutEdge
  rw [level]
  cases kept : after.state line
  rw [kept] at edge
  exact congrArg (LineState.mk _) edge

/-- An action takes the edge of a request line, lets the line go if it was held and its interrupt is
entered, and goes on with what is requested meanwhile. -/
theorem advance_line {w : Wiring σ} {m : Machine State σ}
    (awake : m.core.exec.latchedFault? = none) (released : Released w m) (remaining : Nat)
    {line : InputLine} (requested : line ∈ requestLines) :
    ∃ base : LineLatch,
      base.state line =
        (if enters line (advance w remaining m).1 then
          ((m.world.lines.latch w.number).state line).withoutEdge.acknowledged
        else ((m.world.lines.latch w.number).state line).withoutEdge) ∧
      (advance w remaining m).2.world.lines.latch w.number =
        base.setAll (LineRequest.levelsFor w.number (requestsDuring w remaining m)) := by
  obtain ⟨taken, took, conserves, alike⟩ := advance_accounted awake released remaining
  rw [← alike.2.lines, ← took.state requested]
  obtain ⟨source, known, ⟨cycles, entered⟩, accounted⟩ | ⟨calm, accounted⟩ := conserves
  · refine ⟨taken.acknowledge source, ?_, accounted.heard⟩
    rw [entered, enters_source known requested, LineLatch.state_acknowledge]
    simp only [decide_eq_true_eq]
  · refine ⟨taken, ?_, accounted.heard⟩
    rw [enters_calm calm]
    rfl

/-- Whether the bit of a line is set in `IF`. -/
def Registers.flagged (r : Registers) (line : InputLine) : Bool := r.iflag &&& 1 <<< line != 0

theorem tests_or (a b mask : UInt8) :
    ((a ||| b) &&& mask != 0) = (a &&& mask != 0 || b &&& mask != 0) := by
  have both : (a ||| b) &&& mask = 0 ↔ a &&& mask = 0 ∧ b &&& mask = 0 := by
    rw [or_and_distrib, UInt8.or_eq_zero_iff]
  rw [Bool.eq_iff_iff, Bool.or_eq_true, bne_iff_ne, bne_iff_ne, bne_iff_ne, ne_eq, both]
  exact Decidable.not_and_iff_or_not

/-- The bits of some sources are those of the lines among them. -/
theorem tests_bits {lines : List InputLine} (known : ∀ source ∈ lines, source ∈ requestLines)
    {line : InputLine} (requested : line ∈ requestLines) :
    (bits lines &&& 1 <<< line != 0) = decide (line ∈ lines) := by
  induction lines with
  | nil =>
    show ((0 : UInt8) &&& 1 <<< line != 0) = false
    rw [UInt8.zero_and]
    rfl
  | cons first rest ih =>
    obtain ⟨first_known, known⟩ := List.forall_mem_cons.mp known
    have alone : ∀ source ∈ requestLines, ∀ line ∈ requestLines,
        ((1 : UInt8) <<< source &&& 1 <<< line != 0) = decide (line = source) := by decide +kernel
    show ((1 <<< first ||| bits rest) &&& 1 <<< line != 0) = _
    rw [tests_or, ih known, alone first first_known line requested, ← Bool.decide_or]
    simp only [List.mem_cons]

/-- What waits on a request line is its edge. -/
theorem tests_waiting (latch : LineLatch) {line : InputLine} (requested : line ∈ requestLines) :
    (bits (waiting latch) &&& 1 <<< line != 0) = latch.hasEdge line := by
  have known : ∀ source ∈ waiting latch, source ∈ requestLines :=
    fun _ there => (List.mem_filter.mp there).1
  rw [tests_bits known requested, Bool.eq_iff_iff, decide_eq_true_eq]
  exact ⟨fun there => (List.mem_filter.mp there).2,
    fun edge => List.mem_filter.mpr ⟨requested, edge⟩⟩

/-- Sampling sets the flag of a line on which an edge waits. -/
theorem flagged_sample {w : Wiring σ} {m : Machine State σ} (released : Released w m)
    {line : InputLine} (requested : line ∈ requestLines) :
    (sample w m).2.core.regs.flagged line =
      (m.core.regs.flagged line || (m.world.lines.latch w.number).hasEdge line) := by
  unfold Registers.flagged
  rw [(sample_found released).1, tests_or, tests_waiting _ requested]

/-- Only a write takes a bit out of `IF` that was there. -/
theorem tests_written {flags : UInt8} {bus : List BusCycle} {line : InputLine}
    (requested : line ∈ requestLines) (there : (flags &&& 1 <<< line != 0) = true)
    (gone : (written flags bus &&& 1 <<< line != 0) = false) :
    ∃ cycle ∈ bus, WritesIf cycle ∧ (cycle.value &&& 1 <<< line != 0) = false := by
  induction bus generalizing flags with
  | nil => exact absurd there (by rw [show flags = written flags [] from rfl, gone]; decide)
  | cons first rest ih =>
    by_cases lasting : WritesIf first ∧ (first.value &&& 1 <<< line != 0) = false
    · exact ⟨first, List.mem_cons_self, lasting⟩
    -- the first cycle leaves the bit as it is
    have still : ((if WritesIf first then first.value &&& interruptMask else flags) &&&
        1 <<< line != 0) = true := by
      split
      next writes =>
        have masked : ∀ line ∈ requestLines, interruptMask &&& 1 <<< line = 1 <<< line := by
          decide +kernel
        rw [UInt8.and_assoc, masked line requested]
        exact eq_true_of_ne_false fun clear => lasting ⟨writes, clear⟩
      · exact there
    obtain ⟨cycle, later, clears⟩ := ih still gone
    exact ⟨cycle, List.mem_cons_of_mem _ later, clears⟩

/-- A flag that an action finds set and leaves clear has gone into the entry of its interrupt, or
the program has written it. -/
theorem flag_written {w : Wiring σ} {m : Machine State σ}
    (awake : m.core.exec.latchedFault? = none) (released : Released w m) {remaining : Nat}
    {line : InputLine} (requested : line ∈ requestLines)
    (found : (sample w m).2.core.regs.flagged line = true)
    (gone : (advance w remaining m).2.core.regs.flagged line = false)
    (passed : enters line (advance w remaining m).1 = false) :
    ∃ cycle ∈ (advance w remaining m).2.core.bus,
      WritesIf cycle ∧ (cycle.value &&& 1 <<< line != 0) = false := by
  obtain ⟨_, -, conserves, alike⟩ := advance_accounted awake released remaining
  unfold Registers.flagged at found gone
  rw [(sample_found released).1] at found
  have written_after {flags : UInt8} {taken : LineLatch}
      (accounted : Accounted w.number flags taken (advance w.overheard remaining m.overheard).2) :
      (advance w remaining m).2.core.regs.iflag =
        written flags (advance w remaining m).2.core.bus := by
    rw [alike.1]
    exact accounted.flagged
  obtain ⟨source, known, ⟨cycles, entered⟩, accounted⟩ | ⟨-, accounted⟩ := conserves
  · rw [written_after accounted] at gone
    refine tests_written requested ?_ gone
    rw [entered, enters_source known requested, decide_eq_false_iff_not] at passed
    -- the bit of another source is taken away
    have apart : ∀ source ∈ requestLines, ∀ line ∈ requestLines, line ≠ source →
        ~~~((1 : UInt8) <<< source) &&& 1 <<< line = 1 <<< line := by decide +kernel
    rw [UInt8.and_assoc, apart source known line requested passed]
    exact found
  · rw [written_after accounted] at gone
    exact tests_written requested found gone

end Microboard.Sm83
