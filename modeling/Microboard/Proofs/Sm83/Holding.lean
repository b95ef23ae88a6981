import Microboard.Proofs.Sm83.Privacy

/-!
# SM83 cores that their reset line holds

- **§1** What a look at the reset line makes of a core.
- **§2** Actions of a core that the line holds, and the first one after the line has let it go.
- **§3** Actions of a core that the line does not hold.
-/

namespace Microboard.Sm83

variable {σ : Type} {w : Wiring σ} {m : Machine State σ} {alone : Bool}

/-! ## §1 Looking at the reset line -/

/-- The state of a core that its reset line has taken. Its registers are those of a reset, and it is
at rest as long as its host leaves it alone. -/
structure Parked (w : Wiring σ) (alone : Bool) (s : State) : Prop where
  inReset : s.inReset = true
  exec : s.exec = if alone then .idle else .fetching
  regs : s.regs = w.config.powerOn

theorem Parked.awake {s : State} (parked : Parked w alone s) : s.exec.latchedFault? = none := by
  rw [parked.exec]
  cases alone <;> rfl

/-- What a reset makes of the registers, and of what the core keeps about its reset line. -/
theorem reset_core (w : Wiring σ) (m : Machine State σ) :
    (reset w m).2.core.regs = w.config.powerOn ∧ (reset w m).2.core.exec = .fetching ∧
      (reset w m).2.core.inReset = m.core.inReset := by
  unfold reset
  rw [eval_bind, eval_ite]
  split <;> exact ⟨rfl, rfl, rfl⟩

/-- A host that resets a core which its line holds disturbs its rest, and leaves its registers as
they are. -/
theorem Parked.disturbed (parked : Parked w alone m.core) :
    Parked w false (reset w m).2.core ∧ (reset w m).2.core.regs = m.core.regs := by
  obtain ⟨regs, exec, inReset⟩ := reset_core w m
  exact ⟨⟨inReset.trans parked.inReset, exec, regs⟩, regs.trans parked.regs.symm⟩

/-- The state of a core that has looked at its reset line. The line takes the core, in the state
that a reset leaves, lets it go, or changes nothing. -/
def State.looked (s : State) (active : Bool) (restarted : State) : State :=
  match active, s.inReset with
  | true, false => { restarted with inReset := true, exec := .idle }
  | false, true => { s with inReset := false, exec := .fetching }
  | true, true | false, false => s

theorem sampleReset_core {active : Bool}
    (shows_ : ((m.world.lines.latch w.number).level resetLine).isActive = active) :
    (sampleReset w m).2.core = m.core.looked active
      (reset w ⟨m.core, (m.world.onLatch w.number (·.sample resetLine .level)).2⟩).2.core := by
  rw [← (m.world.looked w.number resetLine).1] at shows_
  rw [sampleReset_eq]
  unfold State.looked
  revert shows_
  obtain ⟨held, world⟩ := m.world.onLatch w.number (·.sample resetLine .level)
  rintro rfl
  cases held <;> cases m.core.inReset <;> rfl

/-- A core that a released line finds is free, and runs if it was held. -/
theorem State.looked_released (s restarted : State) :
    s.looked false restarted =
      { s with exec := if s.inReset then .fetching else s.exec, inReset := false } := by
  obtain ⟨⟨exec, inReset⟩⟩ := s
  cases inReset <;> rfl

/-! ## §2 Cores that the line holds -/

/-- An active line takes a core that was free. -/
theorem advance_takes (awake : m.core.exec.latchedFault? = none) (active : ¬Released w m)
    (free : m.core.inReset = false) (remaining : Nat) :
    Parked w true (advance w remaining m).2.core := by
  have sampled := sampleReset_core (m := unobserved m) (eq_true_of_ne_false active)
  have taken (restarted : State) : (unobserved m).core.looked true restarted =
      { restarted with inReset := true, exec := .idle } := by
    unfold State.looked
    rw [show (unobserved m).core.inReset = false from free]
  rw [advance_held awake active]
  show Parked w true { (sampleReset w (unobserved m)).2.core with totalCycles := _ }
  rw [sampled, taken]
  exact ⟨rfl, rfl, (reset_core w _).1⟩

/-- A core that the line holds stays as it is. -/
theorem Parked.stays (parked : Parked w alone m.core) (active : ¬Released w m) (remaining : Nat) :
    Parked w alone (advance w remaining m).2.core ∧
      (advance w remaining m).2.core.regs = m.core.regs := by
  have sampled := sampleReset_core (m := unobserved m) (eq_true_of_ne_false active)
  have same (restarted : State) :
      (unobserved m).core.looked true restarted = (unobserved m).core := by
    unfold State.looked
    rw [show (unobserved m).core.inReset = true from parked.inReset]
  rw [advance_held parked.awake active]
  show Parked w alone { (sampleReset w (unobserved m)).2.core with totalCycles := _ } ∧
    (sampleReset w (unobserved m)).2.core.regs = m.core.regs
  rw [sampled, same]
  exact ⟨⟨parked.inReset, parked.exec, parked.regs⟩, rfl⟩

/-- A core that its line holds asks nothing of its program space. -/
theorem advance_silent {m : Machine State (σ × Tape)} (active : ¬Released w.taped m)
    (remaining : Nat) : (advance w.taped remaining m).2.world.tape = m.world.tape :=
  (advance_still w remaining fun serving => active serving.released).tape

theorem ime_powerOn (config : Config) : config.powerOn.ime = false := by
  unfold Config.powerOn
  split <;> rfl

/-- Once the line lets the core go, it looks for no interrupt and runs the instruction at which a
reset leaves it. -/
theorem Parked.released (parked : Parked w alone m.core) (released : Released w m)
    (remaining : Nat) : RunsAt w.config.powerOn.pc (advance w remaining m).1 := by
  have sampled := sampleReset_core (m := unobserved m) released
  have left (restarted : State) : (unobserved m).core.looked false restarted =
      { (unobserved m).core with inReset := false, exec := .fetching } := by
    unfold State.looked
    rw [show (unobserved m).core.inReset = true from parked.inReset]
  have found : (sample w m).2.core.exec = .fetching ∧
      (sample w m).2.core.regs.pc = w.config.powerOn.pc ∧
      (sample w m).2.core.regs.ime = false := by
    rw [sample_eq, latchRequests_eq]
    dsimp only
    rw [sampled, left]
    exact ⟨rfl, congrArg Registers.pc parked.regs,
      (congrArg Registers.ime parked.regs).trans (ime_powerOn _)⟩
  obtain ⟨exec, pc, ime⟩ := found
  rw [advance_sampled parked.awake released, ← pc]
  show RunsAt _ (act w remaining (sample w m).1 (sample w m).2).1
  have none : (sample w m).2.core.regs.nextInterrupt? = none := by
    unfold Registers.nextInterrupt?
    rw [ime]
    rfl
  obtain ⟨halted, -⟩ | ⟨-, acts | ⟨source, -, -, found, -⟩⟩ :=
    act_cases w remaining (sample w m).1 (sample w m).2
  · exact nomatch exec.symm.trans halted
  · rw [acts]
    exact runInstruction_runsAt w ⟨{ (sample w m).2.core with eiDelay := false }, _⟩
  · exact nomatch none.symm.trans found

/-! ## §3 Cores that the line does not hold -/

/-- The core does not take itself for held. -/
def Free (m : Machine State σ) : Prop := m.core.inReset = false

theorem watches_free (w : Wiring σ) : Watches w Free where
  modify quiet m free := (quiet.inReset m.core).trans free
  read8 _ := .ite (fun _ => .bind (fun _ free => free) fun _ _ free => free) fun _ =>
    .ite (fun _ => .bind (fun _ free => free) fun _ _ free => free) fun _ _ free => free
  write8 _ _ := .ite (fun _ _ free => free) fun _ =>
    .ite (fun _ _ free => free) fun _ _ free => free
  takeWaitStates _ free := free
  signal _ _ _ free := free
  record _ _ free := free

theorem service_free (w : Wiring σ) (source : InputLine) : Keeps Free (service w source) := by
  rw [service_eq]
  exact .bind (fun _ free => free) fun _ => .bind (fun _ free => free) fun _ =>
    (watches_free w).enterHandler source

theorem act_free (w : Wiring σ) (remaining : Nat) (raised : UInt8) :
    Keeps Free (act w remaining raised) := by
  intro m free
  have watches := watches_free w
  obtain ⟨-, acts⟩ | ⟨-, acts | ⟨source, -, -, -, acts⟩⟩ := act_cases w remaining raised m
  · rw [acts]
    exact watches.stayHalted remaining raised m free
  · rw [acts]
    exact watches.runInstruction ⟨{ m.core with eiDelay := false }, m.world⟩ free
  · rw [acts]
    exact service_free w source m free

/-- A core that looks at a released line is free, whatever it does then. -/
theorem advance_frees (awake : m.core.exec.latchedFault? = none) (released : Released w m)
    (remaining : Nat) : Free (advance w remaining m).2 := by
  rw [advance_sampled awake released]
  refine act_free w remaining _ _ ?_
  show (sampleReset w (unobserved m)).2.core.inReset = false
  rw [sampleReset_core (m := unobserved m) released, State.looked_released]

end Microboard.Sm83
