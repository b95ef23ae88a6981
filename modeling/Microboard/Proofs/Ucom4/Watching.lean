import Microboard.Proofs.Ucom4.Boundary

/-!
# What uCOM-4 accesses do to the port latches

A core touches its port latches only when it drives a port, and its note of the reset line only when
it looks at its lines, and it keeps its program counter inside the program space. A property of
these and of the spaces is therefore kept by everything that the core does, once every access keeps
it.

- **§1** Properties that are watched from access to access.
- **§2** Instructions and interrupt entries.
- **§3** Reset and whole boundary actions.
-/

namespace Microboard.Ucom4

variable {σ : Type}

/-! ## §1 Watching -/

/-- A change of state that leaves the program counter inside the program space if it is there, and
the port latches and the note of the reset line alone. -/
structure State.Quiet (g : Geometry) (change : State → State) : Prop where
  pc : ∀ s, g.Reaches s.regs.pc → g.Reaches (change s).regs.pc
  ports : ∀ s, (change s).regs.portOut = s.regs.portOut
  inReset : ∀ s, (change s).inReset = s.inReset

/-- A property of machines that quiet changes of state keep, and every access to the world. -/
structure Watches (w : Wiring σ) (P : Machine State σ → Prop) : Prop where
  modify : ∀ {change}, State.Quiet w.geometry change → Keeps P (modifyState change)
  fetch : Keeps P (fetch w)
  readRam : Keeps P (readRam w)
  writeRam : ∀ value, Keeps P (writeRam w value)
  readRamRegister : ∀ register, Keeps P (readRamRegister w register)
  writeRamRegister : ∀ register value, Keeps P (writeRamRegister w register value)
  input : ∀ port, Keeps P (input w port)
  output : ∀ port value, Keeps P (output w port value)
  drainWaitStates : Keeps P (drainWaitStates w)
  signal : ∀ line asserted, Keeps P (Machine.signal w.sink line asserted)
  onLatch : ∀ {α : Type} (act : LineLatch → α × LineLatch), Keeps P (Machine.onLatch w.number act)
  record : ∀ event, Keeps P (Machine.record event)

namespace Watches

variable {w : Wiring σ} {P : Machine State σ → Prop}

/-- A change of the state in which all of these are visibly the same. -/
theorem settle (watches : Watches w P) {change : State → State}
    (same : ∀ s, (change s).regs.pc = s.regs.pc ∧ (change s).regs.portOut = s.regs.portOut ∧
      (change s).inReset = s.inReset) :
    Keeps P (modifyState change) :=
  watches.modify ⟨fun s inside => (same s).1 ▸ inside, fun s => (same s).2.1, fun s => (same s).2.2⟩

/-- What is watched, the operations of instructions keep. -/
theorem operates (watches : Watches w P) : Operates w w (Both P) where
  config := rfl
  regs := by
    rintro m _ ⟨rfl, -⟩
    exact ⟨_, rfl⟩
  lastPc := by
    rintro m _ ⟨rfl, -⟩
    rfl
  change plain := Keeps.lockstep (watches.settle fun s =>
    ⟨(plain.keeps s.regs).1, (plain.keeps s.regs).2.1, rfl⟩)
  jump _ reaches :=
    Keeps.lockstep (watches.modify ⟨fun s _ => reaches s.regs, fun _ => rfl, fun _ => rfl⟩)
  pushPc := Keeps.lockstep (watches.settle fun _ => ⟨rfl, rfl, rfl⟩)
  popPc := Keeps.lockstep (watches.modify
    ⟨fun _ _ => w.geometry.reaches_masked _, fun _ => rfl, fun _ => rfl⟩)
  setSkip _ := Keeps.lockstep (watches.settle fun _ => ⟨rfl, rfl, rfl⟩)
  startTimer _ := Keeps.lockstep (watches.settle fun _ => ⟨rfl, rfl, rfl⟩)
  record event := (watches.record event).lockstep
  readRam := watches.readRam.lockstep
  writeRam value := (watches.writeRam value).lockstep
  readRamRegister register := (watches.readRamRegister register).lockstep
  writeRamRegister register value := (watches.writeRamRegister register value).lockstep
  input port := (watches.input port).lockstep
  output port value := (watches.output port value).lockstep

/-! ## §2 Instructions and interrupt entries -/

theorem tickTimer (watches : Watches w P) (cycles : Nat) : Keeps P (tickTimer w cycles) := by
  rw [tickTimer_eq]
  refine .bind (fun _ holds => holds) fun s => .bind (watches.settle fun s => ?_) fun _ =>
    .ite (fun _ => watches.record _) fun _ => .pure _
  rw [State.ticked_eq]
  exact ⟨rfl, rfl, rfl⟩

theorem charge (watches : Watches w P) (cycles : Nat) : Keeps P (charge w cycles) :=
  .bind (watches.settle fun _ => ⟨rfl, rfl, rfl⟩) fun _ => watches.tickTimer cycles

theorem drive (watches : Watches w P) (line : OutputLine) (asserted : Bool) :
    Keeps P (drive w line asserted) :=
  .bind (watches.settle fun _ => ⟨rfl, rfl, rfl⟩) fun _ => watches.signal line asserted

theorem fetchInstruction (watches : Watches w P) : Keeps P (fetchInstruction w) := by
  have settles (opcode : UInt8) (entry : Entry) :
      Keeps P (do modifyState ({ · with opcode }); return (opcode, entry) :
        Exec σ (UInt8 × Entry)) :=
    .bind (watches.settle fun _ => ⟨rfl, rfl, rfl⟩) fun _ => .pure _
  exact .bind watches.fetch fun opcode => .ite
    (fun _ => .bind watches.fetch fun _ => .bind (watches.settle fun _ => ⟨rfl, rfl, rfl⟩) fun _ =>
      settles opcode _)
    fun _ => settles opcode _

theorem retire (watches : Watches w P) (pc : UInt16) (opcode : UInt8) (cost : Nat) :
    Keeps P (retire w pc opcode cost) :=
  .bind (watches.settle fun _ => ⟨rfl, rfl, rfl⟩) fun _ =>
    .bind watches.drainWaitStates fun waits => .bind (watches.tickTimer waits) fun _ =>
    .bind (watches.settle fun _ => ⟨rfl, rfl, rfl⟩) fun _ => .bind (watches.record _) fun _ =>
    .pure _

theorem runSkipped (watches : Watches w P) (pc : UInt16) (opcode : UInt8) (entry : Entry) :
    Keeps P (runSkipped w pc opcode entry) :=
  .bind (watches.tickTimer _) fun _ => .bind (watches.settle fun _ => ⟨rfl, rfl, rfl⟩) fun _ =>
    watches.retire pc opcode _

theorem runIllegal (watches : Watches w P) (pc : UInt16) (opcode : UInt8) (entry : Entry) :
    Keeps P (runIllegal w pc opcode entry) := by
  refine .bind (watches.settle fun _ => ⟨rfl, rfl, rfl⟩) fun _ =>
    .bind (watches.record _) fun _ => ?_
  dsimp only
  cases w.config.policy with
  | fatal => exact .bind (watches.settle fun _ => ⟨rfl, rfl, rfl⟩) fun _ => .pure _
  | nop =>
    exact .bind (watches.tickTimer _) fun _ => .bind (watches.retire pc opcode _) fun _ => .pure _

theorem runFetched (watches : Watches w P) (pc : UInt16) (opcode : UInt8) (s : State) :
    Keeps P (runFetched w pc opcode (decode w.geometry.family opcode) s) := by
  refine .ite (fun _ => ?_) fun _ => .ite (fun _ => watches.runIllegal pc opcode _) fun _ => ?_
  · exact .bind (watches.runSkipped pc opcode _) fun _ => .pure _
  · obtain ⟨fits, -⟩ := decode_fits w.geometry.family opcode
    have performs : Lockstep (Both P) (perform w s.argument _) (perform w s.argument _) :=
      watches.operates.perform fits (fun _ => rfl) fun _ =>
        Keeps.lockstep (watches.settle fun _ => ⟨rfl, rfl, rfl⟩)
    exact .bind (watches.tickTimer _) fun _ => .bind performs.keeps fun _ =>
      .bind (watches.retire pc opcode _) fun _ => .pure _

theorem runInstruction (watches : Watches w P) : Keeps P (runInstruction w) := by
  rw [runInstruction_eq]
  refine .bind (fun _ holds => holds) fun regs =>
    .bind (watches.settle fun _ => ⟨rfl, rfl, rfl⟩) fun _ m holds => ?_
  have fetched := watches.fetchInstruction m holds
  have decoded := fetchInstruction_entry w m
  rw [eval_bind]
  revert fetched decoded
  obtain ⟨⟨opcode, entry⟩, m⟩ := Ucom4.fetchInstruction w m
  dsimp only
  rintro fetched rfl
  exact watches.runFetched _ _ _ m fetched

theorem enterHandler (watches : Watches w P) : Keeps P (enterHandler w) := by
  refine .bind (watches.settle fun _ => ⟨rfl, rfl, rfl⟩) fun _ =>
    .bind (watches.modify
      ⟨fun _ _ => w.geometry.reaches_masked _, fun _ => rfl, fun _ => rfl⟩) fun _ =>
    .bind (watches.drive _ _) fun _ => .bind (watches.drive _ _) fun _ =>
    .bind watches.drainWaitStates fun _ => .bind (watches.charge _) fun _ =>
    .bind (watches.settle fun _ => ⟨rfl, rfl, rfl⟩) fun _ => .bind (watches.record _) fun _ => ?_
  exact fun _ holds => holds

theorem service (watches : Watches w P) : Keeps P (service w) := by
  rw [service_eq]
  exact .bind (watches.settle fun _ => ⟨rfl, rfl, rfl⟩) fun _ => .bind (watches.onLatch _) fun _ =>
    watches.enterHandler

/-! ## §3 Reset and boundary actions -/

theorem reset (watches : Watches w P) : Keeps P (reset w) := by
  have zero : w.geometry.Reaches 0 := w.geometry.reaches_low (by decide)
  exact .bind (watches.modify ⟨fun _ _ => zero, fun _ => rfl, fun _ => rfl⟩) fun _ =>
    .bind (watches.onLatch _) fun _ => .bind (watches.operates.clearPorts _).keeps fun _ =>
    .bind (fun m holds => watches.drainWaitStates m holds) fun _ => watches.record _

/-- A look at the reset line, for a property that has nothing to do with the note of it. -/
theorem sampleReset (watches : Watches w P)
    (notes : ∀ inReset exec, Keeps P (modifyState ({ · with inReset, exec }))) :
    Keeps P (sampleReset w) := by
  refine .bind (watches.onLatch _) fun held => .bind (fun _ holds => holds) fun s =>
    .ite (fun _ => ?_) fun _ => .ite (fun _ => ?_) fun _ => .pure held
  · exact .bind watches.reset fun _ => .bind (notes true .idle) fun _ => .pure held
  · exact .bind (notes false .fetching) fun _ => .bind (watches.record _) fun _ => .pure held

theorem latchRequest (watches : Watches w P) : Keeps P (latchRequest w) :=
  .bind (watches.onLatch _) fun _ =>
    .ite (fun _ => watches.settle fun _ => ⟨rfl, rfl, rfl⟩) fun _ => .pure _

theorem advance (watches : Watches w P)
    (notes : ∀ inReset exec, Keeps P (modifyState ({ · with inReset, exec }))) (remaining : Nat) :
    Keeps P (advance w remaining) := by
  refine .bind (watches.settle fun _ => ⟨rfl, rfl, rfl⟩) fun _ =>
    .bind (fun _ holds => holds) fun s => ?_
  cases s.exec.latchedFault? with
  | some fault => exact .pure _
  | none =>
    exact .bind (watches.sampleReset notes) fun held =>
      .ite (fun _ => .bind (watches.charge _) fun _ => .pure _) fun _ =>
      .bind watches.latchRequest fun _ => .bind (fun _ holds => holds) fun s =>
      .ite (fun _ => .bind watches.service fun _ => .pure _) fun _ => watches.runInstruction

end Watches

end Microboard.Ucom4
