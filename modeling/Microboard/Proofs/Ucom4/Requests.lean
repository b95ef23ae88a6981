import Microboard.Proofs.Requests
import Microboard.Proofs.Ucom4.Boundary
import Microboard.Proofs.Ucom4.Idling

/-!
# uCOM-4 interrupt requests

- **§1** The two halves of a boundary action: sampling the lines, and acting on what was found.
- **§2** What sampling finds.
- **§3** What an action makes of the interrupt line.
- **§4** Where the interrupt flag goes.

The family has one interrupt line and one flag. Entering the interrupt takes the flag and
acknowledges the line. A program that polls the flag takes it as well, and tells the line nothing.
-/

namespace Microboard.Ucom4

variable {σ : Type}

/-! ## §1 Sampling and acting -/

/-- The first half of a boundary action of a core that is neither faulted nor held in reset: it
looks at its lines. -/
def sample (w : Wiring σ) : Exec σ Unit := do
  modifyStatus ({ · with bus := [] })
  discard <| sampleReset w
  latchRequest w

theorem sample_eq (w : Wiring σ) (m : Machine State σ) :
    sample w m = latchRequest w (sampleReset w (unobserved m)).2 := rfl

/-- The second half: it enters the interrupt or runs an instruction. -/
def act (w : Wiring σ) : Exec σ (Except Fault StepOutcome) := do
  if interruptAllowed (← getState) then
    return .ok (← service w)
  else
    runInstruction w

/-- The reset line of the core is not active. -/
def Released (w : Wiring σ) (m : Machine State σ) : Prop :=
  ((m.world.lines.latch w.number).level resetLine).isActive = false

/-- Whether the reset line holds a core is what the line shows. -/
theorem sampleReset_fst (w : Wiring σ) (m : Machine State σ) :
    (sampleReset w m).1 = ((m.world.lines.latch w.number).level resetLine).isActive := by
  rw [sampleReset_eq, ← (m.world.looked w.number resetLine).1]
  obtain ⟨held, world⟩ := m.world.onLatch w.number (·.sample resetLine .level)
  cases held <;> cases m.core.inReset <;> rfl

/-- Such a core finds its reset line released, and to look at it has no other effect than to leave
reset. -/
theorem sampleReset_released {w : Wiring σ} {m : Machine State σ} (released : Released w m) :
    (sampleReset w m).1 = false ∧ (sampleReset w m).2.core.regs = m.core.regs ∧
      (sampleReset w m).2.world.devices = m.world.devices ∧
      (sampleReset w m).2.world.lines.latch w.number =
        ((m.world.lines.latch w.number).sample resetLine .level).2 := by
  obtain ⟨active, devices, latch⟩ := m.world.looked w.number resetLine
  have low := active.trans released
  rw [sampleReset_eq]
  revert devices latch low
  obtain ⟨held, world⟩ := m.world.onLatch w.number (·.sample resetLine .level)
  rintro devices latch rfl
  cases inReset : m.core.inReset with
  | true => exact ⟨rfl, rfl, devices, latch⟩
  | false => exact ⟨rfl, rfl, devices, latch⟩

theorem advance_sampled {w : Wiring σ} {m : Machine State σ}
    (awake : m.core.exec.latchedFault? = none) (released : Released w m) (remaining : Nat) :
    advance w remaining m = (sample w >>= fun _ => act w) m := by
  have low : (sampleReset w (unobserved m)).1 = false :=
    (sampleReset_released (m := unobserved m) released).1
  rw [advance_eq, awake, eval_bind, sample_eq]
  revert low
  obtain ⟨held, m₁⟩ := sampleReset w (unobserved m)
  rintro rfl
  dsimp only
  unfold act
  rw [eval_bind, eval_ite]
  rfl

/-- A core that its reset line holds lets time pass, once it has looked at the line. -/
theorem advance_held {w : Wiring σ} {m : Machine State σ}
    (awake : m.core.exec.latchedFault? = none) (active : ¬Released w m) (remaining : Nat) :
    advance w remaining m = (.ok (.idle (idleCycles remaining)),
      charged w (idleCycles remaining) (sampleReset w (unobserved m)).2) := by
  have held : (sampleReset w (unobserved m)).1 = true := by
    rw [sampleReset_fst]
    exact eq_true_of_ne_false active
  rw [advance_eq, awake]
  revert held
  obtain ⟨_, m₁⟩ := sampleReset w (unobserved m)
  rintro rfl
  rfl

/-! ## §2 What sampling finds -/

theorem latchRequest_found {w : Wiring σ} (edge : w.config.interruptTrigger = .edge)
    (m : Machine State σ) :
    (latchRequest w m).2.core.regs.intFlag =
        (m.core.regs.intFlag || (m.world.lines.latch w.number).hasEdge interruptLine) ∧
      (latchRequest w m).2.world =
        (m.world.onLatch w.number (·.sample interruptLine .edge)).2 := by
  have found : (Machine.onLatch (κ := State) w.number (·.sample interruptLine .edge) m).1 =
      (m.world.lines.latch w.number).hasEdge interruptLine := rfl
  unfold latchRequest
  rw [edge, eval_bind, eval_ite, found]
  cases (m.world.lines.latch w.number).hasEdge interruptLine with
  | true => exact ⟨(Bool.or_true _).symm, rfl⟩
  | false => exact ⟨(Bool.or_false _).symm, rfl⟩

/-- Sampling an edge line moves what waits on it into the interrupt flag, and touches no level and
no device. -/
theorem sample_found {w : Wiring σ} (edge : w.config.interruptTrigger = .edge)
    {m : Machine State σ} (released : Released w m) :
    (sample w m).2.core.regs.intFlag =
        (m.core.regs.intFlag || (m.world.lines.latch w.number).hasEdge interruptLine) ∧
      (sample w m).2.world.devices = m.world.devices ∧
      ((sample w m).2.world.lines.latch w.number).state interruptLine =
        ((m.world.lines.latch w.number).state interruptLine).withoutEdge := by
  have low : Released w (unobserved m) := released
  obtain ⟨-, regs, devices, latch⟩ := sampleReset_released low
  -- the reset line is sampled first, which leaves the interrupt line alone
  have apart : ((sampleReset w (unobserved m)).2.world.lines.latch w.number).state interruptLine =
      (m.world.lines.latch w.number).state interruptLine := by
    rw [latch, LineLatch.sample_snd, LineLatch.state_update _ _ _ rfl, if_neg (by decide)]
    rfl
  obtain ⟨intFlag, taken⟩ := latchRequest_found edge (sampleReset w (unobserved m)).2
  rw [sample_eq]
  refine ⟨intFlag.trans ?_, (congrArg World.devices taken).trans devices, ?_⟩
  · unfold LineLatch.hasEdge
    rw [regs, apart]
    rfl
  · rw [taken, World.latch_onLatch_eq (·.sample interruptLine .edge) (LineLatch.update_empty ..),
      LineLatch.sample_snd,
      LineLatch.state_update _ _ _ rfl, if_pos rfl, apart]

/-! ## §3 The interrupt line -/

/-- The core with a note of what its surroundings request. -/
def Wiring.overheard (w : Wiring σ) : Wiring (σ × List LineRequest) where
  config := w.config
  program := w.program.overheard
  data := w.data.overheard
  io := w.io.overheard
  number := w.number
  sink := w.sink.overheard

/-- What is requested while the core acts, oldest first. -/
def requestsDuring (w : Wiring σ) (remaining : Nat) (m : Machine State σ) : List LineRequest :=
  (advance w.overheard remaining m.overheard).2.world.devices.2

/-- Being overheard changes nothing. -/
theorem advance_overheard (w : Wiring σ) (remaining : Nat) (m : Machine State σ) :
    (advance w remaining m).1 = (advance w.overheard remaining m.overheard).1 ∧
      Across Eq World.Overhears (advance w remaining m).2
        (advance w.overheard remaining m.overheard).2 := by
  have coupled : Wiring.Coupled World.Overhears w w.overheard :=
    { placesCoupled_overheard w.number w.sink with
      config := rfl
      program := w.program.coupled_overheard
      data := w.data.coupled_overheard
      io := w.io.coupled_overheard }
  exact coupled.tracks_eq.advance remaining m m.overheard ⟨rfl, World.overhears_start m⟩

/-- Between two looks at the lines, what is heard accounts for the latch. -/
theorem runs_heard (w : Wiring σ) (base : LineLatch) :
    Runs w.overheard w.overheard (Across Eq (Both (World.Heard w.number base))) :=
  Wiring.Accords.runs_eq
    { outputsCoupled_heard w.number base w.sink with
      config := rfl
      program := w.program.coupled_heard w.number base
      data := w.data.coupled_heard w.number base
      io := w.io.coupled_heard w.number base }

/-- Whether an answer says that the interrupt was entered. -/
def enters : Except Fault StepOutcome → Bool
  | .ok (.interrupt ..) => true
  | _ => false

/-- An instruction runs at the program counter, or it is refused there. -/
theorem runInstruction_runsAt (w : Wiring σ) (m : Machine State σ) :
    RunsAt m.core.regs.pc (runInstruction w m).1 := by
  rw [runInstruction_eq]
  show RunsAt _ (runFetched w m.core.regs.pc _ _ _ _).1
  unfold runFetched
  rw [eval_ite, eval_ite]
  split
  · exact .retired _
  · split
    · unfold runIllegal
      rw [eval_bind, eval_bind]
      cases w.config.policy with
      | fatal => exact .refused _
      | nop => exact .retired _
    · exact .retired _

theorem enters_calm {answer : Except Fault StepOutcome}
    (calm : ∀ vector cycles, answer ≠ .ok (.interrupt vector cycles)) : enters answer = false := by
  unfold enters
  split
  · exact absurd rfl (calm _ _)
  · rfl

/-- What is heard while the core acts is added to what it has found, of which the interrupt line is
let go if it was held and its interrupt is entered. -/
theorem act_heard (w : Wiring σ) {base : LineLatch} {m : Machine State (σ × List LineRequest)}
    (found : m.world.lines.latch w.number = base) (silent : m.world.devices.2 = []) :
    (act w.overheard m).2.world.Heard w.number
      (if enters (act w.overheard m).1 then base.acknowledge interruptLine else base) := by
  unfold act
  rw [eval_bind, eval_getState, eval_ite]
  split
  · have entry : service w.overheard m = enterHandler w.overheard
        ⟨{ m.core with exec := .servicingInterrupt },
          (m.world.onLatch w.number fun latch => ((), latch.acknowledge interruptLine)).2⟩ := rfl
    show (service w.overheard m).2.world.Heard w.number (base.acknowledge interruptLine)
    rw [entry]
    refine (runs_heard w _).enterHandler.keepsWorld _ ?_
    show _ = (base.acknowledge interruptLine).setAll
      (LineRequest.levelsFor w.number m.world.devices.2)
    rw [silent, ← found]
    exact m.world.latch_acknowledged w.number interruptLine
  · show (runInstruction w.overheard m).2.world.Heard w.number
      (if enters (runInstruction w.overheard m).1 then _ else base)
    rw [enters_calm (runInstruction_runsAt w.overheard m).calm]
    refine (runs_heard w base).runInstruction.keepsWorld m ?_
    show _ = base.setAll (LineRequest.levelsFor w.number m.world.devices.2)
    rw [silent]
    exact found

/-- An action takes the edge of the interrupt line, lets the line go if it was held and its
interrupt is entered, and goes on with what is requested meanwhile. -/
theorem advance_line {w : Wiring σ} (edge : w.config.interruptTrigger = .edge)
    {m : Machine State σ} (awake : m.core.exec.latchedFault? = none) (released : Released w m)
    (remaining : Nat) :
    ∃ base : LineLatch,
      base.state interruptLine =
        (if enters (advance w remaining m).1 then
          ((m.world.lines.latch w.number).state interruptLine).withoutEdge.acknowledged
        else ((m.world.lines.latch w.number).state interruptLine).withoutEdge) ∧
      (advance w remaining m).2.world.lines.latch w.number =
        base.setAll (LineRequest.levelsFor w.number (requestsDuring w remaining m)) := by
  obtain ⟨-, devices, taken⟩ := sample_found (w := w.overheard) edge (m := m.overheard) released
  have ran := advance_sampled (w := w.overheard) (m := m.overheard) awake released remaining
  have heard := act_heard w (m := (sample w.overheard m.overheard).2) rfl
    (congrArg Prod.snd devices)
  obtain ⟨answer, alike⟩ := advance_overheard w remaining m
  have acted : advance w.overheard remaining m.overheard =
    act w.overheard (sample w.overheard m.overheard).2 := ran
  rw [← acted, ← answer] at heard
  rw [← alike.2.lines]
  refine ⟨_, ?_, heard⟩
  split
  · rw [LineLatch.state_acknowledge, if_pos rfl]
    exact congrArg LineState.acknowledged taken
  · exact taken

/-! ## §4 The interrupt flag -/

theorem retire_apart (w : Wiring σ) (pc : UInt16) (opcode : UInt8) (cost : Nat)
    (Q : UInt8 → Bool → Prop) : Keeps (Apart fun _ => Q) (retire w pc opcode cost) :=
  .bind (fun _ holds => holds) fun _ => .bind (fun _ holds => holds) fun _ =>
    .bind (tickTimer_apart w _ _) fun _ => .bind (fun _ holds => holds) fun _ =>
    .bind (fun _ holds => holds) fun _ => .pure _

/-- The flag is set. -/
def Flagged : Machine State σ → Prop := Apart fun _ _ flag => flag = true

theorem runSkipped_flagged (w : Wiring σ) (pc : UInt16) (opcode : UInt8) (entry : Entry) :
    Keeps Flagged (runSkipped w pc opcode entry) :=
  .bind (tickTimer_apart w _ _) fun _ => .bind (fun _ flagged => flagged) fun _ =>
    retire_apart w pc opcode _ _

theorem runIllegal_flagged (w : Wiring σ) (pc : UInt16) (opcode : UInt8) (entry : Entry) :
    Keeps Flagged (runIllegal w pc opcode entry) := by
  refine .bind (fun _ flagged => flagged) fun _ => .bind (fun _ flagged => flagged) fun _ => ?_
  dsimp only
  cases w.config.policy with
  | fatal => exact .bind (fun _ flagged => flagged) fun _ => .pure _
  | nop =>
    exact .bind (tickTimer_apart w _ _) fun _ => .bind (retire_apart w pc opcode _ _) fun _ =>
      .pure _

/-- Every operation leaves the opcode, and all but one of them the flag. -/
theorem perform_apart (w : Wiring σ) {operation : Op} (fits : operation.fits = true)
    (argument : UInt8) :
    (∀ opcode, Keeps (Apart fun _ last _ => last = opcode) (perform w argument operation)) ∧
      (operation ≠ .tit → Keeps Flagged (perform w argument operation)) := by
  constructor
  · intro opcode
    have operates := (respects_apart w fun _ last _ => last = opcode).operates
    exact (operates.perform fits (fun _ => rfl) fun _ =>
      Keeps.lockstep fun _ holds => holds).keeps
  · intro other
    have operates := (respects_apart w fun _ _ flag => flag = true).operates
    exact (operates.perform fits (fun _ => rfl) fun is => absurd is other).keeps

/-- The flag is set, or the last instruction was the test that takes it. -/
def Tested (w : Wiring σ) (m : Machine State σ) : Prop :=
  Flagged m ∨ (decode w.geometry.family m.core.opcode).operation = .tit

theorem runFetched_tested (w : Wiring σ) (pc : UInt16) (opcode : UInt8) (s : State) :
    Ensures (fun m => Flagged m ∧ m.core.opcode = opcode)
      (runFetched w pc opcode (decode w.geometry.family opcode) s) fun _ => Tested w := by
  rintro m ⟨flagged, fetched⟩
  unfold runFetched
  rw [eval_ite, eval_ite]
  split
  · exact .inl (runSkipped_flagged w pc opcode _ m flagged)
  split
  · exact .inl (runIllegal_flagged w pc opcode _ m flagged)
  -- what ticks before the operation and retires after it touches neither opcode nor flag
  have around {Q : UInt8 → Bool → Prop} (holds : Apart (fun _ => Q) m)
      (performs : Keeps (Apart fun _ => Q)
        (perform w s.argument (decode w.geometry.family opcode).operation)) :=
    Keeps.bind (tickTimer_apart w (decode w.geometry.family opcode).cycles fun _ => Q)
      (fun _ => .bind performs fun _ => retire_apart w pc opcode
        (decode w.geometry.family opcode).cycles Q) m holds
  obtain ⟨last, flag⟩ := perform_apart w (decode_fits w.geometry.family opcode).1 s.argument
  by_cases test : (decode w.geometry.family opcode).operation = .tit
  · have still := around (Q := fun last _ => last = opcode) fetched (last opcode)
    exact .inr ((congrArg (fun last => (decode w.geometry.family last).operation) still).trans test)
  · exact .inl (around flagged (flag test))

theorem fetch_apart (w : Wiring σ) (P : ExecState → UInt8 → Bool → Prop) :
    Keeps (Apart P) (fetch w) := (respects_apart w P).fetch.keeps

theorem fetchInstruction_flagged (w : Wiring σ) :
    Ensures Flagged (fetchInstruction w) fun fetched m =>
      Flagged m ∧ m.core.opcode = fetched.1 := by
  intro m flagged
  unfold fetchInstruction
  rw [eval_bind, eval_ite]
  have first := fetch_apart w _ m flagged
  split
  · exact ⟨fetch_apart w _ _ first, rfl⟩
  · exact ⟨first, rfl⟩

theorem runInstruction_tested (w : Wiring σ) :
    Ensures Flagged (runInstruction w) fun _ => Tested w := by
  intro m flagged
  have fetched := fetchInstruction_flagged w ⟨m.core.begun, m.world⟩ flagged
  have entry := fetchInstruction_entry w ⟨m.core.begun, m.world⟩
  rw [runInstruction_eq]
  show Tested w (runFetched w _ _ (fetchInstruction w ⟨m.core.begun, m.world⟩).1.2 _ _).2
  rw [entry]
  exact runFetched_tested w _ _ _ _ fetched

/-- A flag that an action finds set and leaves clear has gone into the entry of the interrupt, or
the program has tested it. -/
theorem flag_tested {w : Wiring σ} {m : Machine State σ}
    (awake : m.core.exec.latchedFault? = none) (released : Released w m) {remaining : Nat}
    (found : (sample w m).2.core.regs.intFlag = true)
    (gone : (advance w remaining m).2.core.regs.intFlag = false)
    (passed : enters (advance w remaining m).1 = false) :
    (decode w.geometry.family (advance w remaining m).2.core.opcode).operation = .tit := by
  have acted : advance w remaining m = act w (sample w m).2 := advance_sampled awake released _
  rw [acted] at gone passed ⊢
  unfold act at gone passed ⊢
  rw [eval_bind, eval_getState, eval_ite] at gone passed ⊢
  split at passed
  · exact nomatch passed
  next allowed =>
    rw [if_neg allowed] at gone ⊢
    exact (runInstruction_tested w _ found).resolve_left fun flagged => by
      unfold Flagged Apart at flagged
      rw [gone] at flagged
      exact nomatch flagged

end Microboard.Ucom4
