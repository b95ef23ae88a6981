import Microboard.Proofs.CoreTapes
import Microboard.Proofs.Sm83.Holding
import Microboard.Proofs.Ucom4.Holding
import Microboard.Proofs.Ucom4.Twins

/-!
# Cores that their reset line holds

A core keeps two things about its reset line: whether the line held it when it last looked, and
whether it is at rest. The line moves both together. A host that resets the core in between moves
only one of them, so what the core shows depends on how the line and the host have taken turns.

- **§1** The turns of line and host.
- **§2** What a core keeps of them.
- **§3** Actions under an active line, and the first one after it is released.
- **§4** Histories, in which an active line holds the core.
-/

namespace Microboard

/-! ## §1 Turns -/

/-- The registers of a core of either family. -/
abbrev RegisterFile : Type := Sm83.Registers ⊕ Ucom4.Registers

/-- How a reset line stands to its core. -/
inductive Hold where
  /-- The line did not hold the core when the core last looked. -/
  | free
  /-- The line holds the core. Kept are the registers with which it was taken, and whether its host
  has left it alone since. -/
  | held (taken : RegisterFile) (alone : Bool)

namespace Hold

/-- The host resets the core. -/
def reset : Hold → Hold
  | free => free
  | held taken _ => held taken false

/-- The core looks at the line, which takes it, with the given registers, or keeps it, or lets it
go. -/
def look (active : Bool) (registers : RegisterFile) : Hold → Hold
  | free => if active then held registers true else free
  | held taken alone => if active then held taken alone else free

/-- Where a core is that an active line holds. -/
def exec : Hold → ExecState
  | free | held _ true => .idle
  | held _ false => .fetching

end Hold

namespace Core

variable {σ : Type}

def registers : Core σ → RegisterFile
  | .sm83 _ s => .inl s.regs
  | .ucom4 _ s => .inr s.regs

/-- Reset input of the core. -/
def resetLine : Core σ → InputLine
  | .sm83 .. => Sm83.resetLine
  | .ucom4 .. => Ucom4.resetLine

/-- Whether the reset line of the core is active. -/
def resetActive (m : Machine (Core σ) σ) : Bool :=
  ((m.world.lines.latch m.core.number).level m.core.resetLine).isActive

/-- How the line stands to the core after an action. A core with a latched fault does not look. -/
def holdAfter (remaining : Nat) (m : Machine (Core σ) σ) (hold : Hold) : Hold :=
  if m.core.exec.latchedFault? = none then
    hold.look (resetActive m) (advance remaining m).2.core.registers
  else hold

/-! ## §2 What a core keeps -/

/-- What the core keeps about its reset line is how the line stands to it. -/
def Stands : Hold → Core σ → Prop
  | .free, core => core.status.inReset = false
  | .held taken alone, .sm83 w s => Sm83.Parked w alone s ∧ .inl s.regs = taken
  | .held taken alone, .ucom4 w s => Ucom4.Parked w alone s ∧ .inr s.regs = taken

variable {m : Machine (Core σ) σ} {hold : Hold}

theorem reset_stands (stands : Stands hold m.core) : Stands hold.reset (reset m).2.core := by
  obtain ⟨core, world⟩ := m
  cases core with
  | sm83 w s =>
    cases hold with
    | free => exact (Sm83.reset_core w ⟨s, world⟩).2.2.trans stands
    | held taken alone =>
      obtain ⟨parked, rfl⟩ := stands
      obtain ⟨parked, regs⟩ := parked.disturbed (m := ⟨s, world⟩)
      exact ⟨parked, congrArg Sum.inl regs⟩
  | ucom4 w s =>
    cases hold with
    | free =>
      obtain ⟨_, _, left⟩ := Ucom4.reset_core w ⟨s, world⟩
      exact (congrArg (fun left : Ucom4.State => left.inReset) left).trans stands
    | held taken alone =>
      obtain ⟨parked, rfl⟩ := stands
      obtain ⟨parked, regs⟩ := parked.disturbed (m := ⟨s, world⟩)
      exact ⟨parked, congrArg Sum.inr regs⟩

theorem Stands.awake {taken : RegisterFile} {alone : Bool} {core : Core σ}
    (stands : Stands (.held taken alone) core) : core.exec.latchedFault? = none := by
  cases core with
  | sm83 w s => exact stands.1.awake
  | ucom4 w s => exact stands.1.awake

/-- A core that acts while its line is released is free. -/
theorem advance_released (awake : m.core.exec.latchedFault? = none)
    (released : resetActive m = false) (remaining : Nat) :
    Stands .free (advance remaining m).2.core := by
  obtain ⟨core, world⟩ := m
  cases core with
  | sm83 w s => exact Sm83.advance_frees (m := ⟨s, world⟩) awake released remaining
  | ucom4 w s => exact Ucom4.advance_frees (m := ⟨s, world⟩) awake released remaining

/-- A core that acts while its line is active is held, with the registers that it has then. -/
theorem advance_taken (stands : Stands .free m.core) (awake : m.core.exec.latchedFault? = none)
    (active : resetActive m = true) (remaining : Nat) :
    Stands (.held (advance remaining m).2.core.registers true) (advance remaining m).2.core := by
  obtain ⟨core, world⟩ := m
  have unreleased : ¬resetActive ⟨core, world⟩ = false := fun released =>
    nomatch active.symm.trans released
  cases core with
  | sm83 w s =>
    exact ⟨Sm83.advance_takes (m := ⟨s, world⟩) awake unreleased stands remaining, rfl⟩
  | ucom4 w s =>
    exact ⟨Ucom4.advance_takes (m := ⟨s, world⟩) awake unreleased stands remaining, rfl⟩

/-- A core that is held stays so while its line is active. -/
theorem Stands.stays {taken : RegisterFile} {alone : Bool}
    (stands : Stands (.held taken alone) m.core) (active : resetActive m = true) (remaining : Nat) :
    Stands (.held taken alone) (advance remaining m).2.core := by
  obtain ⟨core, world⟩ := m
  have unreleased : ¬resetActive ⟨core, world⟩ = false := fun released =>
    nomatch active.symm.trans released
  cases core with
  | sm83 w s =>
    obtain ⟨parked, rfl⟩ := stands
    obtain ⟨parked, regs⟩ := parked.stays (m := ⟨s, world⟩) unreleased remaining
    exact ⟨parked, congrArg Sum.inl regs⟩
  | ucom4 w s =>
    obtain ⟨parked, rfl⟩ := stands
    obtain ⟨parked, regs⟩ := parked.stays (m := ⟨s, world⟩) unreleased remaining
    exact ⟨parked, congrArg Sum.inr regs⟩

theorem advance_stands (stands : Stands hold m.core) (remaining : Nat) :
    Stands (holdAfter remaining m hold) (advance remaining m).2.core := by
  unfold holdAfter
  split
  next awake =>
    cases active : resetActive m with
    | false =>
      rw [show hold.look false _ = .free by cases hold <;> rfl]
      exact advance_released awake active remaining
    | true =>
      cases hold with
      | free => exact advance_taken stands awake active remaining
      | held taken alone => exact stands.stays active remaining
  next latched =>
    obtain ⟨fault, latched⟩ := Option.ne_none_iff_exists'.mp latched
    rw [advance_latched (ExecState.eq_faultLatched latched)]
    cases hold with
    | free =>
      obtain ⟨core, world⟩ := m
      cases core <;> exact stands
    | held taken alone => exact nomatch latched.symm.trans stands.awake

/-- The core once its host has attached a sink to it. -/
def attach (sink : Sink σ) : Core σ → Core σ
  | .sm83 w s => .sm83 { w with sink } s
  | .ucom4 w s => .ucom4 { w with sink } s

theorem Stands.attach {core : Core σ} (stands : Stands hold core) (sink : Sink σ) :
    Stands hold (core.attach sink) := by
  cases hold with
  | free => cases core <;> exact stands
  | held taken alone =>
    cases core with
    | sm83 w s =>
      obtain ⟨parked, same⟩ := stands
      exact ⟨⟨parked.inReset, parked.exec, parked.regs⟩, same⟩
    | ucom4 w s =>
      obtain ⟨parked, same⟩ := stands
      exact ⟨⟨parked.inReset, parked.exec, parked.settled, parked.timer⟩, same⟩

/-- The core once its host has taken note of the levels that it has driven. -/
def noted (core : Core σ) : Core σ := core.modifyStatus ({ · with outputs := #[] })

theorem Stands.noted {core : Core σ} (stands : Stands hold core) : Stands hold core.noted := by
  cases hold with
  | free => cases core <;> exact stands
  | held taken alone =>
    cases core with
    | sm83 w s =>
      obtain ⟨parked, same⟩ := stands
      exact ⟨⟨parked.inReset, parked.exec, parked.regs⟩, same⟩
    | ucom4 w s =>
      obtain ⟨parked, same⟩ := stands
      exact ⟨⟨parked.inReset, parked.exec, parked.settled, parked.timer⟩, same⟩

theorem Stands.registers {taken : RegisterFile} {alone : Bool} {core : Core σ}
    (stands : Stands (.held taken alone) core) : core.registers = taken := by
  cases core <;> exact stands.2

theorem Stands.exec {taken : RegisterFile} {alone : Bool} {core : Core σ}
    (stands : Stands (.held taken alone) core) : core.exec = (Hold.held taken alone).exec := by
  cases core with
  | sm83 w s => cases alone <;> exact stands.1.exec
  | ucom4 w s => cases alone <;> exact stands.1.exec

/-- Where a core is after an action under an active line. -/
theorem exec_advance (stands : Stands hold m.core) (awake : m.core.exec.latchedFault? = none)
    (active : resetActive m = true) (remaining : Nat) :
    (advance remaining m).2.core.exec = hold.exec := by
  cases hold with
  | free => exact (advance_taken stands awake active remaining).exec
  | held taken alone => exact (stands.stays active remaining).exec

/-! ## §3 Actions -/

/-- The core has acted from the address at which a reset leaves it: it has run or refused the
instruction there, or it has entered its interrupt, which returns there. -/
def ActsFromReset (answer : Except Fault StepOutcome) : Core σ → Prop
  | .sm83 w _ => RunsAt w.config.powerOn.pc answer
  | .ucom4 _ s => Ucom4.ActsFrom 0 answer s

/-- A core that its line holds lets time pass and asks nothing of its program space. -/
theorem advance_idles (awake : m.core.exec.latchedFault? = none) (active : resetActive m = true)
    (remaining : Nat) :
    (∃ cycles, (advance remaining m).1 = .ok (.idle cycles)) ∧
      ∀ transfer ∈ asked (.advance remaining) m, transfer.role ≠ .program := by
  obtain ⟨core, world⟩ := m
  have unreleased : ¬resetActive ⟨core, world⟩ = false := fun released =>
    nomatch active.symm.trans released
  cases core with
  | sm83 w s =>
    have idles := Sm83.advance_held (m := ⟨s, world⟩) awake unreleased remaining
    have silent := Sm83.advance_silent (w := w) (m := ⟨s, world.taped⟩) unreleased remaining
    refine ⟨⟨_, congrArg Prod.fst idles⟩, ?_⟩
    show ∀ transfer ∈ (Sm83.advance w.taped remaining ⟨s, world.taped⟩).2.world.tape, _
    rw [silent]
    exact nofun
  | ucom4 w s =>
    have idles := Ucom4.advance_held (m := ⟨s, world⟩) awake unreleased remaining
    have unfetched : Ucom4.Unfetched ⟨s, world.taped⟩ := nofun
    exact ⟨⟨_, congrArg Prod.fst idles⟩,
      Ucom4.advance_unfetched (w := w) unfetched awake unreleased remaining⟩

/-- The first action after the release. -/
theorem Stands.released {taken : RegisterFile} {alone : Bool}
    (stands : Stands (.held taken alone) m.core) (released : resetActive m = false)
    (remaining : Nat) :
    ActsFromReset (advance remaining m).1 (advance remaining m).2.core := by
  obtain ⟨core, world⟩ := m
  cases core with
  | sm83 w s => exact stands.1.released (m := ⟨s, world⟩) released remaining
  | ucom4 w s => exact stands.1.released (m := ⟨s, world⟩) released remaining

/-! ## §4 Histories -/

/-- A core that is left to its host, and how its reset line stands to it. It is built, gets its sink
attached, is reset and acts in whatever world surrounds it, and its host takes note of the levels
that it has driven. -/
inductive Attended : Core σ → Hold → Prop where
  | sm83 {config : Sm83.Config} {program : Space σ} {world world' : World σ} {w : Sm83.Wiring σ}
      {s : Sm83.State} : Sm83.build config program world = .ok ((w, s), world') →
      Attended (.sm83 w s) .free
  | ucom4 {config : Ucom4.Config} {program data io : Space σ} {world world' : World σ}
      {w : Ucom4.Wiring σ} {s : Ucom4.State} :
      Ucom4.build config program data io world = .ok ((w, s), world') → Attended (.ucom4 w s) .free
  | attached {core : Core σ} {hold : Hold} (sink : Sink σ) :
      Attended core hold → Attended (core.attach sink) hold
  | noted {core : Core σ} {hold : Hold} :
      Attended core hold → Attended core.noted hold
  | reset {core : Core σ} {hold : Hold} (world : World σ) :
      Attended core hold → Attended (Core.reset ⟨core, world⟩).2.core hold.reset
  | acted {core : Core σ} {hold : Hold} (world : World σ) (remaining : Nat) :
      Attended core hold →
      Attended (advance remaining ⟨core, world⟩).2.core (holdAfter remaining ⟨core, world⟩ hold)

theorem Attended.stands {core : Core σ} {hold : Hold} (attended : Attended core hold) :
    Stands hold core := by
  induction attended with
  | @sm83 _ _ world _ w _ built =>
    obtain rfl := build_reset built
    exact (Sm83.reset_core w ⟨{}, world⟩).2.2
  | @ucom4 _ _ _ _ world _ w _ built =>
    obtain ⟨-, rfl⟩ := Ucom4.build_reset built
    obtain ⟨_, _, left⟩ := Ucom4.reset_core w ⟨{}, world⟩
    exact congrArg (fun left : Ucom4.State => left.inReset) left
  | attached sink _ ih => exact ih.attach sink
  | noted _ ih => exact ih.noted
  | reset world _ ih => exact reset_stands (m := ⟨_, world⟩) ih
  | acted world remaining _ ih => exact advance_stands (m := ⟨_, world⟩) ih remaining

/-- A run is made of actions, so it is a history as well. -/
theorem Attended.run {core : Core σ} {hold : Hold} (attended : Attended core hold)
    (world : World σ) (budget : Nat) :
    ∃ hold', Attended (Core.run budget ⟨core, world⟩).2.core hold' := by
  have acts (remaining : Nat) :
      Keeps (fun m : Machine (Core σ) σ => ∃ hold, Attended m.core hold) (advance remaining) := by
    rintro ⟨core, world⟩ ⟨hold, attended⟩
    exact ⟨_, attended.acted world remaining⟩
  exact run_keeps acts budget ⟨core, world⟩ ⟨hold, attended⟩

/-- While its reset line is active, a core that is left to its host and has no fault latched lets
time pass in every action, and fetches nothing. It is at rest then, unless the host has reset it
since the line took it: the reset leaves it as if it were at an instruction boundary, and no action
puts it back to rest before the line has let it go. Its registers are those with which it was taken,
through resets and actions alike, until it acts from the address at which a reset leaves it, in the
first action after the release. Runs are made of such actions. -/
theorem reset_line_holds {core : Core σ} {hold : Hold} (attended : Attended core hold)
    (world : World σ) (awake : core.exec.latchedFault? = none) :
    let m : Machine (Core σ) σ := ⟨core, world⟩
    (∀ remaining, resetActive m = true →
      (∃ cycles, (advance remaining m).1 = .ok (.idle cycles)) ∧
      (∀ transfer ∈ asked (.advance remaining) m, transfer.role ≠ .program) ∧
      (advance remaining m).2.core.exec = hold.exec) ∧
    (∀ taken alone, hold = .held taken alone →
      core.registers = taken ∧ (Core.reset m).2.core.registers = taken ∧
      ∀ remaining,
        (resetActive m = true → (advance remaining m).2.core.registers = taken) ∧
        (resetActive m = false →
          ActsFromReset (advance remaining m).1 (advance remaining m).2.core)) ∧
    ∀ budget, ∃ hold', Attended (Core.run budget m).2.core hold' := by
  intro m
  have stands : Stands hold m.core := attended.stands
  refine ⟨fun remaining active => ?_, ?_, attended.run world⟩
  · obtain ⟨idles, silent⟩ := advance_idles (m := m) awake active remaining
    exact ⟨idles, silent, exec_advance stands awake active remaining⟩
  · rintro taken alone rfl
    refine ⟨stands.registers, (reset_stands stands).registers, fun remaining => ⟨?_, ?_⟩⟩
    · exact fun active => (stands.stays active remaining).registers
    · exact fun released => stands.released released remaining

/-- A core that its line has taken and its host has reset: it stays as it was taken, is not put back
to rest, and runs its first instruction once the line is released. -/
theorem reset_line_holds_disturbed :
    let w : Sm83.Wiring UInt8 := .cell id (fun value _ => value) 0
    let world (level : LineLevel) : World UInt8 :=
      ⟨0, { latches := [(LineLatch.released 6).set Sm83.resetLine level] }, {}⟩
    let built : Core UInt8 := .sm83 w (Sm83.reset w ⟨{}, ⟨0, {}, {}⟩⟩).2.core
    let taken := (advance 4 ⟨built, world .assert⟩).2.core
    let disturbed := (Core.reset ⟨taken, world .assert⟩).2.core
    Attended disturbed (.held (.inl {}) false) ∧
      taken.exec = .idle ∧ (advance 4 ⟨disturbed, world .assert⟩).2.core.exec = .fetching ∧
      (advance 4 ⟨disturbed, world .assert⟩).2.core.registers = .inl {} ∧
      RunsAt 0 (advance 4 ⟨disturbed, world .clear⟩).1 := by
  intro w world built taken disturbed
  obtain ⟨_, made⟩ : ∃ world', Sm83.build {} w.program ⟨0, {}, {}⟩ =
      .ok ((w, (Sm83.reset w ⟨{}, ⟨0, {}, {}⟩⟩).2.core), world') := ⟨_, rfl⟩
  have attended : Attended disturbed (.held (.inl {}) false) :=
    ((Attended.sm83 made).acted (world .assert) 4).reset (world .assert)
  obtain ⟨held, -, -⟩ := reset_line_holds attended (world .assert) (by decide +kernel)
  obtain ⟨-, kept, -⟩ := reset_line_holds attended (world .assert) (by decide +kernel)
  obtain ⟨-, released, -⟩ := reset_line_holds attended (world .clear) (by decide +kernel)
  obtain ⟨-, -, keeps⟩ := kept _ _ rfl
  obtain ⟨-, -, goes⟩ := released _ _ rfl
  exact ⟨attended, by decide +kernel, (held 4 (by decide +kernel)).2.2,
    (keeps 4).1 (by decide +kernel), (goes 4).2 (by decide +kernel)⟩

/-- A core that is at an instruction boundary, to go by its execution state, while its reset line is
active and it lets time pass. -/
theorem held_core_left_fetching :
    let start : Machine (Core UInt8) UInt8 :=
      ⟨.sm83 (.cell id (fun value _ => value) 0) {}, ⟨0, { latches := [.released 6] }, {}⟩⟩
    let m := (operate [.setLine Sm83.resetLine .assert, .advance 1, .reset] start).2
    resetActive m = true ∧ m.core.exec.latchedFault? = none ∧ (step m).1 = .ok (.idle 4) ∧
      (step m).2.core.exec = .fetching := by
  decide +kernel

end Core

end Microboard
