import Microboard.Proofs.Ucom4.Ledger
import Microboard.Proofs.Ucom4.Twins

/-!
# Widths of uCOM-4 registers

- **§1** Where a core is in its cycle once an operation is over.
- **§2** What every operation of a host keeps: the widths of registers, call stack, ports and timer.
- **§3** Histories of a core that is left to its host.

A debugger may set registers as it likes, so histories are without one here: what is left can only
reach the registers through instructions, resets and exported entries.
-/

namespace Microboard.Ucom4

open Microboard.Core (Command)

variable {σ : Type} {w : Wiring σ}

/-! ## §1 Rest -/

/-- The core is between two operations. -/
def Between (m : Machine State σ) : Prop :=
  m.core.exec ≠ .executing ∧ m.core.exec ≠ .servicingInterrupt

/-- The core is at some point of its cycle. -/
def At (exec : ExecState) (m : Machine State σ) : Prop := m.core.exec = exec

theorem At.between {exec : ExecState} {m : Machine State σ} (here : At exec m)
    (first : exec ≠ .executing) (second : exec ≠ .servicingInterrupt) : Between m :=
  ⟨here ▸ first, here ▸ second⟩

/-- No elementary operation of an instruction moves the core in its cycle. -/
theorem respects_at (w : Wiring σ) (exec : ExecState) : Respects w w (Both (At exec)) :=
  respects_apart w fun here _ _ => here = exec

theorem tickTimer_at (w : Wiring σ) (cycles : Nat) (exec : ExecState) :
    Keeps (At exec) (tickTimer w cycles) :=
  tickTimer_apart w cycles fun here _ _ => here = exec

theorem charge_between (w : Wiring σ) (cycles : Nat) : Keeps Between (charge w cycles) := by
  intro m between
  have same : (charge w cycles m).2.core.exec = m.core.exec := by
    rw [(charge_aside w cycles m).1]
    rfl
  unfold Between
  rw [same]
  exact between

theorem retire_at (w : Wiring σ) (pc : UInt16) (opcode : UInt8) (cost : Nat) :
    Ensures (fun _ => True) (retire w pc opcode cost) fun _ => At .fetching :=
  .bind (V := fun _ => At .fetching) (fun _ _ => rfl) fun _ =>
    .keepsBind (fun _ here => here) fun waits => .keepsBind (tickTimer_at w waits _) fun _ =>
    fun _ here => here

theorem reset_at (w : Wiring σ) : Ensures (fun _ => True) (reset w) fun _ => At .fetching :=
  .bind (V := fun _ => At .fetching) (fun _ _ => rfl) fun _ =>
    .keepsBind (fun _ here => here) fun _ =>
    .keepsBind ((respects_at w .fetching).operates.clearPorts resetPorts).keeps fun _ =>
    fun _ here => here

theorem sampleReset_between (w : Wiring σ) : Keeps Between (sampleReset w) := by
  intro m between
  rw [sampleReset_eq]
  split
  next held world _ =>
    split
    · exact ⟨nofun, nofun⟩
    · split
      · exact ⟨nofun, nofun⟩
      · exact between

theorem latchRequest_between (w : Wiring σ) : Keeps Between (latchRequest w) :=
  .bind (fun _ between => between) fun _ => .ite (fun _ _ between => between) fun _ => .pure ()

theorem service_between (w : Wiring σ) :
    Ensures (fun _ => True) (service w) fun _ => Between := by
  intro m _
  exact ⟨nofun, nofun⟩

/-- An instruction ends at a boundary or with a fault that is latched. -/
theorem runFetched_between (w : Wiring σ) (pc : UInt16) (opcode : UInt8) (entry : Entry)
    (s : State) : Ensures (fun _ => True) (runFetched w pc opcode entry s) fun _ => Between := by
  have retires {cost : Nat} : Ensures (fun _ => True) (retire w pc opcode cost) fun _ => Between :=
    (retire_at w pc opcode cost).weaken fun _ _ here => here.between nofun nofun
  refine .ite (fun _ => ?_) fun _ => .ite (fun _ => ?_) fun _ => ?_
  · exact .mapped (.keepsBind (fun _ _ => trivial) fun _ => .keepsBind (fun _ _ => trivial)
      fun _ => retires)
  · refine .keepsBind (fun _ _ => trivial) fun _ => .keepsBind (fun _ _ => trivial) fun _ => ?_
    dsimp only
    cases w.config.policy with
    | fatal =>
      exact .bind (V := fun _ => Between) (fun _ _ => ⟨nofun, nofun⟩) fun _ =>
        .pure fun _ between => between
    | nop => exact .keepsBind (fun _ _ => trivial) fun _ => .mapped retires
  · exact .keepsBind (fun _ _ => trivial) fun _ => .keepsBind (fun _ _ => trivial) fun _ =>
      .mapped retires

theorem advance_between (w : Wiring σ) (remaining : Nat) : Keeps Between (advance w remaining) := by
  refine .bind (fun _ between => between) fun _ => .bind (fun _ between => between) fun s => ?_
  cases s.exec.latchedFault? with
  | some fault => exact .pure _
  | none =>
    refine .bind (sampleReset_between w) fun held => .ite (fun _ => ?_) fun _ =>
      .bind (latchRequest_between w) fun _ => .bind (fun _ between => between) fun s =>
      .ite (fun _ => ?_) fun _ => ?_
    · exact .bind (charge_between w _) fun _ => .pure _
    · exact fun m _ => Ensures.mapped (W := fun _ => Between) (service_between w) m trivial
    · rw [runInstruction_eq]
      exact fun m _ => runFetched_between w _ _ _ _ _ trivial

/-! ## §2 Operations of a host -/

/-- A core between two operations whose registers, call stack, ports and timer are no wider than
they are. -/
structure State.Fits (g : Geometry) (s : State) : Prop where
  sound : s.Sound g
  tidy : s.regs.Tidy g
  between : s.exec ≠ .executing ∧ s.exec ≠ .servicingInterrupt

theorem tracks_tidy (w : Wiring σ) :
    Tracks w w (Both fun m : Machine State σ =>
      m.core.Sound w.geometry ∧ m.core.regs.Tidy w.geometry) :=
  tracks_kept w (P := fun s => s.Sound w.geometry ∧ s.regs.Tidy w.geometry)
    fun proper s holds => ⟨proper.sound s holds.1, proper.tidy s holds.1 holds.2⟩

theorem advance_fits (w : Wiring σ) (remaining : Nat) :
    Keeps (fun m : Machine State σ => m.core.Fits w.geometry) (advance w remaining) := by
  intro m fits
  obtain ⟨sound, tidy⟩ := ((tracks_tidy w).advance remaining).keeps m ⟨fits.sound, fits.tidy⟩
  exact ⟨sound, tidy, advance_between w remaining m fits.between⟩

theorem reset_fits (w : Wiring σ) :
    Keeps (fun m : Machine State σ => m.core.Sound w.geometry ∧ m.core.regs.Tidy w.geometry)
      (reset w) :=
  (tracks_tidy w).follows.reset.keeps

/-- No write to an exported entry puts anything into the call stack that does not fit. -/
theorem Export.write_tidy {g : Geometry} (valid : g.validate = .ok ()) {item : Export}
    (exported : item ∈ all g) (value : Nat) {s : State} (tidy : s.regs.Tidy g) :
    (item.write g value s).regs.Tidy g := by
  cases item with
  | stack level =>
    rw [all_eq] at exported
    have used : level ∈ g.exportedLevels := by simpa using exported
    have below := (Geometry.mem_exportedLevels valid level).mp used
    have slot (other : Nat) : ((Export.stack level).write g value s).regs.stack.slot other =
        if other = level then UInt16.ofNat (((Export.stack level).entry g).truncate value)
        else s.regs.stack.slot other :=
      CallStack.slot_setSlot _ level.isLt _ _
    refine ⟨fun other within => ?_, fun other beyond => ?_, tidy.ports⟩
    · rw [slot]
      split
      · exact reaches_truncated (by rfl) value
      · exact tidy.used other within
    · rw [slot, if_neg (by omega)]
      exact tidy.unused other beyond
  | pc | dpl | dph | acc | carry | carrySave | timerFlag | intFlag | intEnable | currentPc | lastPc
  | flags | timer | opcode | skip => exact ⟨tidy.used, tidy.unused, tidy.ports⟩

theorem Export.write_fits {g : Geometry} (valid : g.validate = .ok ()) {item : Export}
    (exported : item ∈ all g) (value : Nat) {s : State} (fits : s.Fits g) :
    (item.write g value s).Fits g where
  sound := item.write_sound value fits.sound
  tidy := write_tidy valid exported value fits.tidy
  between := by
    have same : (item.write g value s).exec = s.exec := by cases item <;> rfl
    rw [same]
    exact fits.between

/-- A uCOM-4 core that fits. -/
def Fitting (w : Wiring σ) (m : Machine (Core σ) σ) : Prop :=
  ∃ s, m.core = .ucom4 w s ∧ s.Fits w.geometry

/-- Whatever a host does to a core that fits, it fits again. -/
theorem apply_fitting (valid : w.geometry.validate = .ok ()) (command : Command) :
    Keeps (Fitting w) command.apply := by
  refine Core.apply_keeps ?resets ?acts ?requests ?writes command
  case resets =>
    rintro ⟨_, world⟩ ⟨s, rfl, fits⟩
    obtain ⟨sound, tidy⟩ := reset_fits w ⟨s, world⟩ ⟨fits.sound, fits.tidy⟩
    exact ⟨_, rfl, sound, tidy, (reset_at w ⟨s, world⟩ trivial).between nofun nofun⟩
  case acts =>
    rintro remaining ⟨_, world⟩ ⟨s, rfl, fits⟩
    exact ⟨_, rfl, advance_fits w remaining ⟨s, world⟩ fits⟩
  case requests =>
    rintro line level ⟨_, world⟩ ⟨s, rfl, fits⟩
    exact ⟨s, rfl, fits⟩
  case writes =>
    rintro index value ⟨_, world⟩ ⟨s, rfl, fits⟩
    unfold Core.stateSet
    dsimp only
    cases found : Export.find? w.geometry index with
    | none => exact ⟨s, rfl, fits⟩
    | some item =>
      have exported : item ∈ Export.all w.geometry := List.mem_of_find?_eq_some found
      exact ⟨_, rfl, Export.write_fits valid exported value fits⟩

/-! ## §3 Histories -/

/-- States that a uCOM-4 core is brought into by its host alone: it is built, gets its sink
attached, is operated in whatever world surrounds it, and its host takes note of the levels that it
has driven. -/
inductive Hosted : Wiring σ → State → Prop where
  | built {config : Config} {program data io : Space σ} {world world' : World σ} {w : Wiring σ}
      {s : State} : build config program data io world = .ok ((w, s), world') → Hosted w s
  | attached {w : Wiring σ} {s : State} (sink : Sink σ) : Hosted w s → Hosted { w with sink } s
  | operated {w : Wiring σ} {s s' : State} (command : Command) {world world' : World σ} :
      Hosted w s → (command.apply ⟨.ucom4 w s, world⟩).2 = ⟨.ucom4 w s', world'⟩ → Hosted w s'
  | noted {w : Wiring σ} {s : State} : Hosted w s → Hosted w { s with outputs := #[] }

theorem Hosted.reachable {w : Wiring σ} {s : State} (hosted : Hosted w s) : Reachable w s := by
  induction hosted with
  | built built => exact .built built
  | attached sink _ ih => exact .attached sink ih
  | operated command _ operates ih => exact .operated command ih operates
  | noted _ ih => exact .noted ih

theorem Hosted.advance {w : Wiring σ} {s : State} (hosted : Hosted w s) (remaining : Nat)
    (world : World σ) : Hosted w (advance w remaining ⟨s, world⟩).2.core :=
  @Hosted.operated _ w s _ (.advance remaining) world _ hosted rfl

theorem fits_powerOn (g : Geometry) : State.Fits g {} where
  sound := sound_powerOn g
  tidy := by
    have blank (level : Nat) : ({} : CallStack).slot level = 0 := by
      unfold CallStack.slot maxStackLevels
      rcases level with _ | _ | _ | _ <;> rfl
    refine ⟨fun level _ => ?_, fun level _ => blank level, fun port _ => ?_⟩
    · rw [show ({} : State).regs.stack.slot level = 0 from blank level]
      exact g.reaches_low (by decide)
    · have dark : ({} : State).regs.port port = 0 := Vector.getElem_replicate _
      rw [dark]
      exact ⟨by decide, UInt8.zero_and, fun _ => rfl⟩
  between := ⟨nofun, nofun⟩

theorem build_fits {config : Config} {program data io : Space σ} {world world' : World σ}
    {s : State} (built : build config program data io world = .ok ((w, s), world')) :
    s.Fits w.geometry := by
  obtain ⟨-, rfl⟩ := build_reset built
  have start := fits_powerOn w.geometry
  obtain ⟨sound, tidy⟩ := reset_fits w ⟨{}, world⟩ ⟨start.sound, start.tidy⟩
  exact ⟨sound, tidy, (reset_at w ⟨{}, world⟩ trivial).between nofun nofun⟩

theorem Hosted.fits {w : Wiring σ} {s : State} (hosted : Hosted w s) : s.Fits w.geometry := by
  induction hosted with
  | built built => exact build_fits built
  | attached sink _ ih => exact ih
  | @operated w s s' command world world' hosted operates ih =>
    obtain ⟨_, same, fits⟩ :=
      apply_fitting hosted.reachable.valid command ⟨.ucom4 w s, world⟩ ⟨s, rfl, ih⟩
    rw [operates] at same
    obtain ⟨-, rfl⟩ := Core.ucom4.inj same
    exact fits
  | noted _ ih => exact ⟨⟨ih.sound.regs, ih.sound.pc, ih.sound.lastPc, ih.sound.timer⟩, ih.tidy,
      ih.between⟩

/-- An address in the program space is no greater than its mask. -/
theorem Geometry.Reaches.le {g : Geometry} {address : UInt16} (reaches : g.Reaches address)
    (valid : g.validate = .ok ()) : address ≤ g.programMask := by
  rw [UInt16.le_iff_toNat_le, ← reaches valid, UInt16.toNat_and]
  exact Nat.and_le_right

/-- Between two operations of its host, no register of a core is wider than on the part. -/
theorem widths_hosted {w : Wiring σ} {s : State} (hosted : Hosted w s) :
    s.regs.pc ≤ w.geometry.programMask ∧
      (∀ level < w.geometry.stackLevels, s.regs.stack.slot level ≤ w.geometry.programMask) ∧
      (∀ level, w.geometry.stackLevels ≤ level → s.regs.stack.slot level = 0) ∧
      s.regs.acc ≤ 15 ∧ s.regs.dpl ≤ 15 ∧ s.regs.dph ≤ 15 ∧
      (∀ port < 16, s.regs.port port ≤ 15 ∧
        s.regs.port port &&& w.geometry.ports.outputMask port = s.regs.port port ∧
        (w.geometry.ports.writable port = false → s.regs.port port = 0)) ∧
      (∀ left, s.timer = some left → 1 ≤ left ∧ left ≤ 4095) ∧
      s.exec ≠ .executing ∧ s.exec ≠ .servicingInterrupt := by
  have valid := hosted.reachable.valid
  obtain ⟨sound, tidy, between⟩ := hosted.fits
  have used : CallStack.used w.geometry.stackLevels = w.geometry.stackLevels := by
    obtain ⟨-, least, most⟩ := Geometry.ranges valid
    unfold CallStack.used maxStackLevels
    omega
  have narrow {value : UInt8} (narrow : Narrow value) : value ≤ 15 :=
    UInt8.le_iff_toNat_le.mpr (Nat.le_of_lt_succ narrow)
  refine ⟨sound.pc.le valid, fun level below => ?_, fun level beyond => ?_, narrow sound.regs.acc,
    narrow sound.regs.dpl, narrow sound.regs.dph, fun port below => ?_, fun left runs => ?_,
    between⟩
  · exact (tidy.used level (used.symm ▸ below)).le valid
  · exact tidy.unused level (used.symm ▸ beyond)
  · have latches := tidy.ports port (UInt8.lt_iff_toNat_lt.mp below)
    exact ⟨narrow latches.narrow, latches.masked, latches.unwired⟩
  · obtain ⟨pos, most⟩ := sound.timer left runs
    exact ⟨pos, Nat.le_of_lt_succ most⟩

/-- A part with a program space of 256 bytes, one level of calls and a port of two bits, once it
has driven its port, started its timer and called a handler. -/
theorem widths_hosted_narrow :
    let config : Config :=
      { part := .custom ⟨.ucom43, 8, 4, 1, { PortLayout.standard with
          outputs := 0b100
          outputMasks := portMasks [(2, 0x3)] }⟩ }
    let program : Space Unit :=
      { config := ⟨"program", 8, 8, .little⟩
        -- accumulator and column, out, timer, call
        read := fun _ address devices =>
          ⟨[0x9F, 0x82, 0x0E, 0x14, 0xBF, 0xB1].getD address.toNat 0, devices, []⟩
        write := fun _ _ _ devices => ⟨(), devices, []⟩ }
    let nibbles (name : String) : Space Unit :=
      .cell ⟨name, 4, 4, .little⟩ (fun _ => 0) fun _ devices => devices
    let w : Wiring Unit :=
      { config, program, data := nibbles "data", io := nibbles "io", number := 0 }
    let step (m : Machine State Unit) : Machine State Unit := (advance w 1 m).2
    let start : Machine State Unit := ⟨(reset w ⟨{}, ⟨(), {}, {}⟩⟩).2.core, ⟨(), {}, {}⟩⟩
    let s := (step (step (step (step (step start))))).core
    (s.regs.acc = 15 ∧ s.regs.port portC = 3 ∧ s.timer = some 4031 ∧ s.regs.stack.slot 0 = 6) ∧
      s.regs.port portC &&& 0x3 = s.regs.port portC ∧ s.regs.stack.slot 1 = 0 ∧
      s.regs.stack.slot 0 ≤ 0xFF := by
  intro config program nibbles w step start s
  obtain ⟨_, made⟩ : ∃ world', build config program (nibbles "data") (nibbles "io") ⟨(), {}, {}⟩ =
      .ok ((w, start.core), world') := ⟨_, rfl⟩
  have hosted : Hosted w s :=
    (((((Hosted.built made).advance 1 _).advance 1 _).advance 1 _).advance 1 _).advance 1 _
  obtain ⟨-, used, unused, -, -, -, ports, -⟩ := widths_hosted hosted
  exact ⟨by decide +kernel, (ports portC (by decide)).2.1, unused 1 (by decide), used 0 (by decide)⟩

end Microboard.Ucom4
