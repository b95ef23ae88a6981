import Microboard.Proofs.Sm83.Boundary

/-!
# What SM83 accesses do to the interrupt registers

Between two looks at its lines, a core touches `IE`, `IF` and its note of bus cycles only through
the accesses that it makes, and it does not touch its note of the reset line at all. A property of
these four is therefore kept by everything that the core does, once every access keeps it.

- **§1** Properties that are watched from access to access.
- **§2** Instructions, interrupt entries and halted cores.
-/

namespace Microboard.Sm83

variable {σ : Type}

/-! ## §1 Watching -/

/-- A change of state that leaves the interrupt registers, the note of bus cycles and the note of
the reset line alone. -/
structure State.Quiet (change : State → State) : Prop where
  ie : ∀ s, (change s).regs.ie = s.regs.ie
  iflag : ∀ s, (change s).regs.iflag = s.regs.iflag
  bus : ∀ s, (change s).bus = s.bus
  inReset : ∀ s, (change s).inReset = s.inReset

/-- A property of machines that quiet changes of state keep, and every access to the world. -/
structure Watches (w : Wiring σ) (P : Machine State σ → Prop) : Prop where
  modify : ∀ {change}, State.Quiet change → Keeps P (modifyState change)
  read8 : ∀ address, Keeps P (read8 w address)
  write8 : ∀ address value, Keeps P (write8 w address value)
  takeWaitStates : Keeps P (Machine.takeWaitStates w.program)
  signal : ∀ line asserted, Keeps P (Machine.signal w.sink line asserted)
  record : ∀ event, Keeps P (Machine.record event)

namespace Watches

variable {w : Wiring σ} {P : Machine State σ → Prop}

/-- A change of the state in which interrupt registers and notes are visibly the same. -/
theorem settle (watches : Watches w P) {change : State → State}
    (same : ∀ s, (change s).regs.ie = s.regs.ie ∧ (change s).regs.iflag = s.regs.iflag ∧
      (change s).bus = s.bus ∧ (change s).inReset = s.inReset) : Keeps P (modifyState change) :=
  watches.modify ⟨fun s => (same s).1, fun s => (same s).2.1, fun s => (same s).2.2.1,
    fun s => (same s).2.2.2⟩

theorem drive (watches : Watches w P) (line : OutputLine) (asserted : Bool) :
    Keeps P (drive w line asserted) :=
  .bind (watches.settle fun _ => ⟨rfl, rfl, rfl, rfl⟩) fun _ => watches.signal line asserted

theorem enterHalt (watches : Watches w P) (stopped : Bool) : Keeps P (enterHalt w stopped) :=
  .bind (watches.settle fun _ => ⟨rfl, rfl, rfl, rfl⟩) fun _ => .bind (watches.drive haltOut true)
    fun _ => .bind (fun _ holds => holds) fun _ => watches.record _

/-- What is watched, instructions keep. -/
theorem respects (watches : Watches w P) : Respects w w (Both P) where
  regs := by
    rintro m _ ⟨rfl, -⟩
    rfl
  change plain := Keeps.lockstep (watches.modify
    ⟨fun s => plain.ie s.regs, fun s => plain.iflag s.regs, fun _ => rfl, fun _ => rfl⟩)
  enable := Keeps.lockstep (watches.settle fun _ => ⟨rfl, rfl, rfl, rfl⟩)
  disable := Keeps.lockstep (watches.settle fun _ => ⟨rfl, rfl, rfl, rfl⟩)
  enableLater := Keeps.lockstep (watches.settle fun _ => ⟨rfl, rfl, rfl, rfl⟩)
  repeatFetch := Keeps.lockstep (watches.settle fun _ => ⟨rfl, rfl, rfl, rfl⟩)
  enterHalt stopped := (watches.enterHalt stopped).lockstep
  read8 address := (watches.read8 address).lockstep
  write8 address value := (watches.write8 address value).lockstep

/-! ## §2 Between two looks at the lines -/

theorem drainWaitStates (watches : Watches w P) : Keeps P (drainWaitStates w) :=
  .bind watches.takeWaitStates fun _ => .bind (watches.settle fun _ => ⟨rfl, rfl, rfl, rfl⟩)
    fun _ => .pure _

theorem charge (watches : Watches w P) (cycles : Nat) : Keeps P (charge cycles) :=
  watches.settle fun _ => ⟨rfl, rfl, rfl, rfl⟩

theorem wake (watches : Watches w P) : Keeps P (wake w) :=
  .bind (watches.settle fun _ => ⟨rfl, rfl, rfl, rfl⟩) fun _ => .bind (watches.drive haltOut false)
    fun _ => .bind (fun _ holds => holds) fun _ => watches.record _

theorem fetchOpcode (watches : Watches w P) : Keeps P (fetchOpcode w) := by
  refine .bind (fun _ holds => holds) fun regs => .bind (watches.read8 _) fun opcode =>
    .bind (watches.settle fun s => ?_) fun _ => .pure opcode
  -- whether the program counter moves is nothing to the interrupt registers
  dsimp only
  split <;> exact ⟨rfl, rfl, rfl, rfl⟩

theorem retire (watches : Watches w P) (pc : UInt16) (opcode : UInt8) (cost : Nat) :
    Keeps P (retire w pc opcode cost) := by
  refine .bind (watches.settle fun s => ?_) fun _ => .bind watches.drainWaitStates fun _ =>
    .bind (watches.charge _) fun _ => .bind (watches.settle fun _ => ⟨rfl, rfl, rfl, rfl⟩) fun _ =>
    .bind (watches.record _) fun _ => .pure _
  exact ⟨rfl, rfl, by dsimp only; split <;> rfl, by dsimp only; split <;> rfl⟩

theorem runInstruction (watches : Watches w P) : Keeps P (runInstruction w) := by
  refine .bind (fun _ holds => holds) fun regs =>
    .bind (watches.settle fun _ => ⟨rfl, rfl, rfl, rfl⟩) fun _ =>
    .bind watches.fetchOpcode fun opcode => .ite (fun _ => ?_) fun _ => ?_
  · refine .bind (watches.settle fun _ => ⟨rfl, rfl, rfl, rfl⟩) fun _ =>
      .bind (watches.record _) fun _ => ?_
    dsimp only
    cases w.config.policy with
    | fatal => exact .bind (watches.settle fun _ => ⟨rfl, rfl, rfl, rfl⟩) fun _ => .pure _
    | nop => exact .bind (watches.retire _ _ _) fun _ => .pure _
  · exact .bind (watches.respects.execute _).keeps fun _ =>
      .bind (watches.retire _ _ _) fun _ => .pure _

theorem enterHandler (watches : Watches w P) (source : InputLine) :
    Keeps P (enterHandler w source) :=
  .bind (watches.respects.callTo _).keeps fun _ => .bind (watches.drive _ _) fun _ =>
    .bind (watches.drive _ _) fun _ => .bind watches.drainWaitStates fun _ =>
    .bind (watches.charge _) fun _ => .bind (watches.settle fun _ => ⟨rfl, rfl, rfl, rfl⟩) fun _ =>
    .bind (watches.record _) fun _ => .pure _

theorem idle (watches : Watches w P) (remaining : Nat) : Keeps P (idle remaining) :=
  .bind (watches.charge _) fun _ => .pure _

theorem stayHalted (watches : Watches w P) (remaining : Nat) (raised : UInt8) :
    Keeps P (stayHalted w remaining raised) :=
  .bind (fun _ holds => holds) fun _ => .ite (fun _ => .bind watches.wake fun _ =>
    .bind (watches.charge _) fun _ => .pure _) fun _ => watches.idle remaining

end Watches

end Microboard.Sm83
