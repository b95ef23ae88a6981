import Microboard.Proofs.CoreRestoring
import Microboard.Proofs.Sm83.Switches

/-!
# Latches of SM83 cores

What the switches of an SM83 core can look like between two calls of its host. As long as the host
does not write to the state itself, the latches of `STOP`, `EI` and the halt bug agree with the
execution state and the master enable. A debugger that writes to the state can set them as it likes,
but not what is beyond its reach: the bits that do not exist, and the states inside an action.

- **§1** Switches of a core at rest.
- **§2** Switches that agree with each other, and how a boundary action keeps them so.
- **§3** From switches to cores.
- **§4** Histories.
-/

namespace Microboard

namespace Sm83.Switches

/-! ## §1 At rest -/

/-- The core is neither inside an instruction nor inside an interrupt entry. -/
structure Rests (s : Switches) : Prop where
  executing : s.exec ≠ .executing
  servicing : s.exec ≠ .servicingInterrupt

theorem Rests.cases {s : Switches} (rests : s.Rests) :
    s.exec = .fetching ∨ s.exec = .halted ∨ s.exec = .idle ∨ ∃ fault, s.exec = .faultLatched fault := by
  obtain ⟨executing, servicing⟩ := rests
  cases exec : s.exec <;> simp_all

theorem Rests.look {s : Switches} (rests : s.Rests) (active : Bool) : (s.look active).Rests := by
  unfold Switches.look
  split
  · exact ⟨nofun, nofun⟩
  · split
    · exact ⟨nofun, nofun⟩
    · exact rests

/-- An operation leaves the core inside its instruction, or halts it. -/
theorem exec_perform (s : Switches) (requested : Bool) (op : Op) :
    (s.perform requested op).exec = s.exec ∨ (s.perform requested op).exec = .halted := by
  cases op with
  | stop => exact .inr rfl
  | halt =>
    unfold perform
    dsimp only
    split
    · exact .inl rfl
    · exact .inr rfl
  | _ => exact .inl rfl

theorem Ran.rests {s after : Switches} (ran : s.begin.Ran after) : after.Rests := by
  obtain ⟨fault, rfl⟩ | ⟨requested, op, rfl⟩ := ran
  · exact ⟨nofun, nofun⟩
  · have exec : (s.begin.perform requested op).exec = .executing ∨ _ :=
      exec_perform s.begin requested op
    -- retiring ends what is still inside the instruction
    unfold retire
    rcases exec with inside | halted
    · rw [if_pos inside]
      exact ⟨nofun, nofun⟩
    · constructor <;> simp [halted]

theorem Rests.advances {s after : Switches} {active : Bool} (rests : s.Rests)
    (advances : s.Advances active after) : after.Rests := by
  cases advances with
  | refused => exact rests
  | held => exact rests.look true
  | acted _ _ acts =>
    cases acts with
    | sleeps => exact rests.look false
    | wakes | enters => exact ⟨nofun, nofun⟩
    | runs _ ran => exact ran.rests

theorem Rests.written {s after : Switches} (rests : s.Rests) (written : s.Written after) :
    after.Rests := by
  cases written with
  | sets => exact ⟨rests.executing, rests.servicing⟩
  | halts | wakes => exact ⟨nofun, nofun⟩

/-! ## §2 Agreement -/

/-- The latches agree with the execution state and the master enable. The last field says that the
reset line does not hold a halted core, without which a released core could come out stopped. -/
structure Coherent (s : Switches) : Prop where
  stopped : s.stopped = true → s.exec = .halted
  eiDelay : s.eiDelay = true → s.ime = true
  haltBug : s.haltBug = true → s.ime = false
  halted : s.exec = .halted → s.eiDelay = false ∧ s.haltBug = false
  held : s.inReset = true → s.exec ≠ .halted

/-- A reset clears all latches. -/
theorem coherent_restart (s : Switches) : s.restart.Coherent where
  stopped := nofun
  eiDelay := nofun
  haltBug := nofun
  halted := nofun
  held _ := nofun

theorem coherent_hold (s : Switches) : s.hold.Coherent where
  stopped := nofun
  eiDelay := nofun
  haltBug := nofun
  halted := nofun
  held _ := nofun

theorem Coherent.release {s : Switches} (coherent : s.Coherent) (held : s.inReset = true) :
    s.release.Coherent where
  stopped stopped := absurd (coherent.stopped stopped) (coherent.held held)
  eiDelay := coherent.eiDelay
  haltBug := coherent.haltBug
  halted := nofun
  held := nofun

theorem Coherent.look {s : Switches} (coherent : s.Coherent) (active : Bool) :
    (s.look active).Coherent := by
  unfold Switches.look
  split
  · exact coherent_hold s
  · split
    next released => exact coherent.release (Bool.and_eq_true_iff.mp released).2
    · exact coherent

/-- A core that has found its reset line released is not held. -/
theorem inReset_look (s : Switches) : (s.look false).inReset = false := by
  rw [look_released]

/-- An instruction begins with clear latches, so what it leaves set is its own doing. -/
theorem coherent_performed {s : Switches} (clear : s.stopped = false) (free : s.inReset = false)
    (requested : Bool) (op : Op) : (s.begin.perform requested op).retire.Coherent := by
  cases op with
  | stop | di | ei | reti => constructor <;> simp [perform, begin, retire, halt, clear, free]
  | halt =>
    cases enabled : s.ime <;> cases requested <;>
      constructor <;> simp [perform, begin, retire, halt, clear, free, enabled]
  | _ => constructor <;> simp [perform, begin, retire, clear, free]

theorem Coherent.acts {s after : Switches} (coherent : s.Coherent) (free : s.inReset = false)
    (acts : s.Acts after) : after.Coherent := by
  have awake (running : s.exec ≠ .halted) : s.stopped = false :=
    Bool.eq_false_iff.mpr fun stopped => running (coherent.stopped stopped)
  cases acts with
  | sleeps => exact coherent
  | wakes halted =>
    obtain ⟨eiDelay, haltBug⟩ := coherent.halted halted
    constructor <;> simp [wake, eiDelay, haltBug, free]
  | enters running prompt enabled =>
    -- interrupts are enabled, so no halt bug is pending
    have haltBug : s.haltBug = false :=
      Bool.eq_false_iff.mpr fun bug => nomatch enabled.symm.trans (coherent.haltBug bug)
    constructor <;> simp [enter, awake running, prompt, haltBug, free]
  | runs running ran =>
    obtain ⟨fault, rfl⟩ | ⟨requested, op, rfl⟩ := ran
    · constructor <;> simp [fail, begin, awake running, free]
    · exact coherent_performed (awake running) free requested op

theorem Coherent.advances {s after : Switches} {active : Bool} (coherent : s.Coherent)
    (advances : s.Advances active after) : after.Coherent := by
  cases advances with
  | refused => exact coherent
  | held => exact coherent.look true
  | acted _ _ acts => exact (coherent.look false).acts (inReset_look s) acts

end Sm83.Switches

namespace Core

variable {σ : Type}

/-! ## §3 Cores -/

/-- The switches of the core, if it is an SM83 core, have a property. -/
def Switched (P : Sm83.Switches → Prop) : Core σ → Prop
  | .sm83 _ s => P s.switches
  | .ucom4 .. => True

variable {P : Sm83.Switches → Prop}

theorem reset_switched (restarts : ∀ s, P s → P s.restart) :
    Keeps (fun m : Machine (Core σ) σ => m.core.Switched P) reset := by
  rintro ⟨core, world⟩ holds
  cases core with
  | sm83 w s =>
    show P (Sm83.reset w ⟨s, world⟩).2.core.switches
    rw [Sm83.reset_switches]
    exact restarts _ holds
  | ucom4 w s => trivial

theorem advance_switched (advances : ∀ s active after, P s → s.Advances active after → P after)
    (remaining : Nat) :
    Keeps (fun m : Machine (Core σ) σ => m.core.Switched P) (advance remaining) := by
  rintro ⟨core, world⟩ holds
  cases core with
  | sm83 w s => exact advances _ _ _ holds (Sm83.advance_switches w remaining ⟨s, world⟩)
  | ucom4 w s => trivial

theorem stateSet_switched (written : ∀ s after, P s → s.Written after → P after) (index : Int)
    (value : Nat) :
    Keeps (fun m : Machine (Core σ) σ => m.core.Switched P) (stateSet index value) := by
  rintro ⟨core, world⟩ holds
  cases core with
  | sm83 w s =>
    unfold stateSet
    dsimp only
    cases Sm83.Export.find? index with
    | none => exact holds
    | some item => exact written _ _ holds (Sm83.write_switches w item value ⟨s, world⟩)
  | ucom4 w s =>
    unfold stateSet
    dsimp only
    cases Ucom4.Export.find? w.geometry index <;> trivial

theorem Command.apply_rests (command : Command) :
    Keeps (fun m : Machine (Core σ) σ => m.core.Switched Sm83.Switches.Rests) command.apply :=
  apply_keeps (reset_switched fun _ _ => ⟨nofun, nofun⟩)
    (advance_switched fun _ _ _ rests advances => rests.advances advances)
    (fun _ _ _ rests => rests) (stateSet_switched fun _ _ rests written => rests.written written)
    command

/-- The command writes to the state of the core. -/
def Command.writes : Command → Bool
  | .stateSet .. => true
  | .reset | .advance _ | .run _ | .setLine .. => false

/-- Without writes to its state, a core keeps its latches in agreement. -/
theorem Command.apply_coherent {command : Command} (spares : command.writes = false) :
    Keeps (fun m : Machine (Core σ) σ => m.core.Switched Sm83.Switches.Coherent) command.apply := by
  have acts := advance_switched (σ := σ) fun _ _ _ coherent advances =>
    Sm83.Switches.Coherent.advances coherent advances
  cases command with
  | reset => exact reset_switched fun s _ => s.coherent_restart
  | advance remaining => exact acts remaining
  | run budget => exact run_keeps acts budget
  | setLine line level => exact fun _ coherent => coherent
  | stateSet index value => cases spares

/-! ## §4 Histories -/

/-- What a host can set a register, or a pair of registers, to. -/
inductive Setting where
  | a (value : UInt8)
  | f (value : UInt8)
  | b (value : UInt8)
  | c (value : UInt8)
  | d (value : UInt8)
  | e (value : UInt8)
  | h (value : UInt8)
  | l (value : UInt8)
  | sp (value : UInt16)
  | pc (value : UInt16)
  | ime (value : Bool)
  | ie (value : UInt8)
  | iflag (value : UInt8)
  | af (value : UInt16)
  | bc (value : UInt16)
  | de (value : UInt16)
  | hl (value : UInt16)

def Setting.apply (r : Sm83.Registers) : Setting → Sm83.Registers
  | .a value => { r with a := value }
  | .f value => r.setF value
  | .b value => { r with b := value }
  | .c value => { r with c := value }
  | .d value => { r with d := value }
  | .e value => { r with e := value }
  | .h value => { r with h := value }
  | .l value => { r with l := value }
  | .sp value => { r with sp := value }
  | .pc value => { r with pc := value }
  | .ime value => { r with ime := value }
  | .ie value => { r with ie := value }
  | .iflag value => r.setIflag value
  | .af value => r.setAf value
  | .bc value => r.setBc value
  | .de value => r.setDe value
  | .hl value => r.setHl value

theorem Setting.apply_sound {r : Sm83.Registers} (sound : r.Sound) (setting : Setting) :
    (setting.apply r).Sound := by
  cases setting with
  | f | af => exact ⟨Sm83.Registers.masked_twice _ _, sound.iflag⟩
  | iflag => exact Sm83.Registers.setIflag_sound _ r sound
  | _ => exact ⟨sound.f, sound.iflag⟩

/-- An SM83 core in the hands of its host, and whether the host has left its state alone. It is
built, gets its sink attached, is operated in whatever world surrounds it, has its registers set,
and its host takes note of the levels that it has driven. -/
inductive Handled : Sm83.Wiring σ → Sm83.State → Bool → Prop where
  | built {config : Sm83.Config} {program : Space σ} {world world' : World σ}
      {w : Sm83.Wiring σ} {s : Sm83.State} :
      Sm83.build config program world = .ok ((w, s), world') → Handled w s true
  | attached {w : Sm83.Wiring σ} {s : Sm83.State} {alone : Bool} (sink : Sink σ) :
      Handled w s alone → Handled { w with sink } s alone
  | operated {w : Sm83.Wiring σ} {s s' : Sm83.State} {alone : Bool} (command : Command)
      {world world' : World σ} : Handled w s alone →
      (command.apply ⟨.sm83 w s, world⟩).2 = ⟨.sm83 w s', world'⟩ →
      Handled w s' (alone && !command.writes)
  | set {w : Sm83.Wiring σ} {s : Sm83.State} {alone : Bool} (setting : Setting) :
      Handled w s alone → Handled w { s with regs := setting.apply s.regs } false
  | noted {w : Sm83.Wiring σ} {s : Sm83.State} {alone : Bool} :
      Handled w s alone → Handled w { s with outputs := #[] } alone

variable {w : Sm83.Wiring σ} {s : Sm83.State} {alone : Bool}

/-- A core that acts in one world after another stays in the hands of its host. -/
theorem Handled.acts (handled : Handled w s true) (worlds : List (World σ)) :
    Handled w (worlds.foldl (fun s world => (Sm83.advance w 1 ⟨s, world⟩).2.core) s) true := by
  induction worlds generalizing s with
  | nil => exact handled
  | cons first rest ih => exact ih (handled.operated (.advance 1) rfl)

theorem Handled.sound (handled : Handled w s alone) : s.regs.Sound := by
  induction handled with
  | built built => exact build_sound built
  | attached _ _ ih => exact ih
  | @operated w s s' _ command world world' _ operates ih =>
    have sound := command.apply_sound ⟨.sm83 w s, world⟩ ih
    rw [operates] at sound
    exact sound
  | set setting _ ih => exact setting.apply_sound ih
  | noted _ ih => exact ih

/-- A core that has been built is as a reset leaves it. -/
theorem build_switches {config : Sm83.Config} {program : Space σ} {world world' : World σ}
    (built : Sm83.build config program world = .ok ((w, s), world')) :
    s.switches = (Sm83.State.switches {}).restart := by
  obtain rfl := build_reset built
  exact Sm83.reset_switches w ⟨{}, world⟩

theorem Handled.rests (handled : Handled w s alone) : s.switches.Rests := by
  induction handled with
  | built built =>
    rw [build_switches built]
    exact ⟨nofun, nofun⟩
  | attached _ _ ih => exact ih
  | @operated w s s' _ command world world' _ operates ih =>
    have rests := command.apply_rests ⟨.sm83 w s, world⟩ ih
    rw [operates] at rests
    exact rests
  | set _ _ ih => exact ⟨ih.executing, ih.servicing⟩
  | noted _ ih => exact ⟨ih.executing, ih.servicing⟩

theorem Handled.coherent (handled : Handled w s alone) (untouched : alone = true) :
    s.switches.Coherent := by
  induction handled with
  | built built =>
    rw [build_switches built]
    exact Sm83.Switches.coherent_restart _
  | attached _ _ ih => exact ih untouched
  | @operated w s s' _ command world world' _ operates ih =>
    obtain ⟨before, spares⟩ := Bool.and_eq_true_iff.mp untouched
    have coherent := command.apply_coherent (by simpa using spares) ⟨.sm83 w s, world⟩ (ih before)
    rw [operates] at coherent
    exact coherent
  | set => cases untouched
  | noted _ ih =>
    obtain ⟨stopped, eiDelay, haltBug, halted, held⟩ := ih untouched
    exact ⟨stopped, eiDelay, haltBug, halted, held⟩

/-- Whatever program an SM83 core runs and whatever its host does with it, between two calls the
register bits that do not exist are clear, and the core is at an instruction boundary, halted, held
in reset or stopped by a fault. As long as the host writes neither to the state nor to the
registers, a stopped core is halted, the delay after `EI` is pending only while interrupts are
enabled and the halt bug only while they are disabled, and neither is pending while the core is
halted. -/
theorem state_consistent (handled : Handled w s alone) :
    s.regs.f &&& 0x0F = 0 ∧ s.regs.iflag &&& 0xE0 = 0 ∧
      (s.exec = .fetching ∨ s.exec = .halted ∨ s.exec = .idle ∨
        ∃ fault, s.exec = .faultLatched fault) ∧
      (alone = true →
        (s.stopped = true → s.exec = .halted) ∧ (s.eiDelay = true → s.regs.ime = true) ∧
        (s.haltBug = true → s.regs.ime = false) ∧
        (s.exec = .halted → s.eiDelay = false ∧ s.haltBug = false)) := by
  have sound := handled.sound
  refine ⟨?_, ?_, handled.rests.cases, fun untouched => ?_⟩
  · rw [← sound.f, UInt8.and_assoc]
    exact UInt8.and_zero
  · rw [← sound.iflag, UInt8.and_assoc]
    exact UInt8.and_zero
  · have coherent := handled.coherent untouched
    exact ⟨coherent.stopped, coherent.eiDelay, coherent.haltBug, coherent.halted⟩

/-- A core that has run `EI`, and whose host then sets `AF` to a value with bits that do not exist.
-/
theorem state_consistent_enabled :
    let w : Sm83.Wiring UInt8 := .cell id (fun value _ => value) 0
    let world : World UInt8 := ⟨0xFB, { latches := [.released 6] }, {}⟩
    let begun := (Sm83.reset w ⟨{}, ⟨0xFB, {}, {}⟩⟩).2.core
    let enabled := (Sm83.advance w 1 ⟨begun, world⟩).2.core
    let altered := { enabled with regs := (Setting.af 0x12FF).apply enabled.regs }
    enabled.eiDelay = true ∧ enabled.regs.ime = true ∧ altered.regs.f = 0xF0 ∧
      altered.regs.f &&& 0x0F = 0 := by
  intro w world begun enabled altered
  obtain ⟨_, made⟩ : ∃ world', Sm83.build {} w.program ⟨0xFB, {}, {}⟩ =
      .ok ((w, begun), world') := ⟨_, rfl⟩
  have operates : ((Command.advance 1).apply ⟨.sm83 w begun, world⟩).2 =
      ⟨.sm83 w enabled, (Sm83.advance w 1 ⟨begun, world⟩).2.world⟩ := rfl
  have handled : Handled w enabled true := (Handled.built made).operated (.advance 1) operates
  have pending : enabled.eiDelay = true := by decide +kernel
  obtain ⟨-, -, -, agrees⟩ := state_consistent handled
  obtain ⟨clear, -⟩ := state_consistent (handled.set (.af 0x12FF))
  exact ⟨pending, (agrees rfl).2.1 pending, by decide +kernel, clear⟩

end Core

end Microboard
