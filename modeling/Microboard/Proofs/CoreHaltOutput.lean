import Mathlib.Data.List.Chain
import Microboard.Proofs.CoreHolding
import Microboard.Proofs.CoreLatches

/-!
# The halt output of SM83 cores

A core asserts its halt output when it halts and clears it when the halt ends. There is one way out
of a halt on which it does not: a debugger halts a core that its reset line holds, and the line is
released. The core runs then with its halt output asserted.

- **§1** Levels, and whether they follow the halts.
- **§2** Turns of the switches that keep the output in step, and the one that does not.
- **§3** Operations of a host.
- **§4** Histories, in which the output is in step exactly if no halted core was let go.
-/

namespace Microboard

namespace Sm83.Switches

/-! ## §1 Levels -/

/-- Level of the halt output. It is clear until the core drives it. -/
def output (s : Switches) : Bool := s.levels.getLastD false

/-- Each level driven is another one than the output showed. -/
def Alternates (s : Switches) : Prop := (false :: s.levels).IsChain (· ≠ ·)

/-- The halt output follows the halts of the core. -/
structure Tracks (s : Switches) : Prop where
  output : s.output = decide (s.exec = .halted)
  alternates : s.Alternates

/-- The halt output of a halted core is asserted. -/
def Marked (s : Switches) : Prop := s.exec = .halted → s.output = true

theorem isChain_driven (levels : List Bool) (level : Bool) :
    (false :: (levels ++ [level])).IsChain (· ≠ ·) ↔
      (false :: levels).IsChain (· ≠ ·) ∧ levels.getLastD false ≠ level := by
  rw [← List.cons_append, List.isChain_append, List.getLast?_cons, List.getLastD_eq_getLast?]
  simp

/-! ## §2 Turns -/

/-- A turn of the switches on which the halt output is driven as it should be: the core goes on as
it is, halts, or ends a halt. -/
inductive Turns (s : Switches) : Switches → Prop where
  | quiet {after : Switches} : (after.exec = .halted ↔ s.exec = .halted) →
      after.levels = s.levels → Turns s after
  | halts {after : Switches} : s.exec ≠ .halted → after.exec = .halted →
      after.levels = s.levels ++ [true] → Turns s after
  | wakes {after : Switches} : s.exec = .halted → after.exec ≠ .halted →
      after.levels = s.levels ++ [false] → Turns s after

/-- On such a turn the output neither falls out of step nor back into it. -/
theorem Turns.tracks {s after : Switches} (turns : s.Turns after) : after.Tracks ↔ s.Tracks := by
  have parts (t : Switches) : t.Tracks ↔ t.output = decide (t.exec = .halted) ∧ t.Alternates :=
    ⟨fun ⟨output, alternates⟩ => ⟨output, alternates⟩,
      fun ⟨output, alternates⟩ => ⟨output, alternates⟩⟩
  rw [parts, parts]
  unfold output Alternates
  cases turns with
  | quiet same levels => simp only [levels, same]
  | halts running halted levels =>
    rw [levels, List.getLastD_concat, isChain_driven]
    simp [running, halted, and_comm]
  | wakes halted running levels =>
    rw [levels, List.getLastD_concat, isChain_driven]
    simp [running, halted, and_comm]

theorem Turns.marked {s after : Switches} (turns : s.Turns after) (marked : s.Marked) :
    after.Marked := by
  unfold Marked output at marked ⊢
  cases turns with
  | quiet same levels => rwa [levels, same]
  | halts _ _ levels => simp [levels]
  | wakes _ running => exact fun halted => absurd halted running

/-- The released reset line lets a halted core go. -/
def Drops (s : Switches) (active : Bool) : Prop :=
  active = false ∧ s.inReset = true ∧ s.exec = .halted

theorem turns_restart (s : Switches) : s.Turns s.restart := by
  by_cases halted : s.exec = .halted
  · exact .wakes halted nofun (if_pos halted)
  · exact .quiet ⟨nofun, fun same => absurd same halted⟩ (if_neg halted)

theorem turns_hold (s : Switches) : s.Turns s.hold := by
  by_cases halted : s.exec = .halted
  · exact .wakes halted nofun (if_pos halted)
  · exact .quiet ⟨nofun, fun same => absurd same halted⟩ (if_neg halted)

theorem turns_look {s : Switches} {active : Bool} (kept : ¬s.Drops active) :
    s.Turns (s.look active) := by
  unfold look
  split
  · exact turns_hold s
  · split
    next released =>
      obtain ⟨low, held⟩ := Bool.and_eq_true_iff.mp released
      have running : s.exec ≠ .halted := fun halted => kept ⟨by simpa using low, held, halted⟩
      exact .quiet ⟨nofun, fun halted => absurd halted running⟩ rfl
    · exact .quiet .rfl rfl

/-- Once a halted core is let go, its output is out of step. -/
theorem Drops.look {s : Switches} {active : Bool} (drops : s.Drops active) (marked : s.Marked) :
    (s.look active).Marked ∧ ¬(s.look active).Tracks := by
  obtain ⟨rfl, held, halted⟩ := drops
  have released : s.look false = s.release := by
    unfold Switches.look
    simp [held]
  rw [released]
  refine ⟨nofun, fun tracks => ?_⟩
  have asserted : s.release.output = true := marked halted
  exact nomatch asserted.symm.trans tracks.output

theorem turns_perform {s : Switches} (inside : s.exec = .executing) (requested : Bool) (op : Op) :
    s.Turns (s.perform requested op) := by
  have running : s.exec ≠ .halted := by simp [inside]
  cases op with
  | stop => exact .halts running rfl rfl
  | halt =>
    unfold perform
    dsimp only
    split
    · exact .quiet .rfl rfl
    · exact .halts running rfl rfl
  | _ => exact .quiet .rfl rfl

theorem Turns.retire {s after : Switches} (turns : s.Turns after) : s.Turns after.retire := by
  unfold Switches.retire
  split
  next inside =>
    have running : after.exec ≠ .halted := by simp [inside]
    cases turns with
    | quiet same levels =>
      exact .quiet ⟨nofun, fun halted => absurd (same.mpr halted) running⟩ levels
    | halts _ halted => exact absurd halted running
    | wakes halted _ levels => exact .wakes halted nofun levels
  · exact turns

theorem Acts.turns {s after : Switches} (acts : s.Acts after) : s.Turns after := by
  cases acts with
  | sleeps => exact .quiet .rfl rfl
  | wakes halted => exact .wakes halted nofun rfl
  | enters running => exact .quiet ⟨nofun, fun halted => absurd halted running⟩ rfl
  | runs running ran =>
    obtain ⟨fault, rfl⟩ | ⟨requested, op, rfl⟩ := ran
    · exact .quiet ⟨nofun, fun halted => absurd halted running⟩ rfl
    · -- before the operation the core is inside its instruction, and was not halted either
      cases (turns_perform (s := s.begin) rfl requested op).retire with
      | quiet same levels =>
        exact .quiet (same.trans ⟨nofun, fun halted => absurd halted running⟩) levels
      | halts _ halted levels => exact .halts running halted levels
      | wakes halted => cases halted

theorem Written.turns {s after : Switches} (written : s.Written after) : s.Turns after := by
  cases written with
  | sets => exact .quiet .rfl rfl
  | halts running => exact .halts running rfl rfl
  | wakes halted => exact .wakes halted nofun rfl

/-- A boundary action brings the output out of step exactly if the reset line lets a halted core
go, and never back into it. -/
theorem Advances.tracks {s after : Switches} {active : Bool} (advances : s.Advances active after)
    (marked : s.Marked) : after.Marked ∧ (after.Tracks ↔ s.Tracks ∧ ¬s.Drops active) := by
  cases advances with
  | refused latched =>
    have kept : ¬s.Drops active := fun drops => nomatch latched.symm.trans drops.2.2
    exact ⟨marked, by simp [kept]⟩
  | held _ active =>
    have kept : ¬s.Drops true := fun drops => nomatch drops.1
    subst active
    exact ⟨(turns_look kept).marked marked, by simp [kept, (turns_look kept).tracks]⟩
  | acted _ released acts =>
    subst released
    by_cases drops : s.Drops false
    · obtain ⟨marked, lost⟩ := drops.look marked
      exact ⟨acts.turns.marked marked, by simp [drops, lost, acts.turns.tracks]⟩
    · have looked := turns_look drops
      exact ⟨acts.turns.marked (looked.marked marked),
        by simp [drops, acts.turns.tracks, looked.tracks]⟩

end Sm83.Switches

namespace Sm83

variable {σ : Type} {w : Wiring σ} {m : Machine State σ}

/-! ## §3 Operations -/

/-- The reset line has been released, while it has been holding a halted core. -/
def Dropping (w : Wiring σ) (m : Machine State σ) : Prop :=
  m.core.switches.Drops ((m.world.lines.latch w.number).level resetLine).isActive

instance (w : Wiring σ) (m : Machine State σ) : Decidable (Dropping w m) :=
  inferInstanceAs (Decidable (_ ∧ _ ∧ _))

/-- A core that its reset line holds only looks at the line. -/
theorem sampleReset_kept (active : ¬Released w m) (held : m.core.inReset = true) :
    (sampleReset w m).2.world = (m.world.onLatch w.number (·.sample resetLine .level)).2 := by
  have found := (m.world.looked w.number resetLine).1.trans (eq_true_of_ne_false active)
  rw [sampleReset_eq]
  revert found
  obtain ⟨_, world⟩ := m.world.onLatch w.number (·.sample resetLine .level)
  rintro rfl
  rw [held]
  rfl

/-- An active line stays so while it holds a core that it has already taken. -/
theorem stays_active (awake : m.core.exec.latchedFault? = none) (active : ¬Released w m)
    (held : m.core.inReset = true) (remaining : Nat) : ¬Released w (advance w remaining m).2 := by
  have kept := sampleReset_kept (m := unobserved m) active held
  obtain ⟨-, -, latch⟩ := m.world.looked w.number resetLine
  unfold Released
  rw [advance_held awake active]
  show ¬((((sampleReset w (unobserved m)).2.world).lines.latch w.number).level
    resetLine).isActive = false
  rw [kept, show (unobserved m).world = m.world from rfl, latch, LineLatch.sample_snd,
    LineLatch.level_update_withoutEdge]
  exact active

/-- A halted core is let go by the first action after its line has been released, or not at all. -/
theorem not_dropping_advance (w : Wiring σ) (remaining : Nat) (m : Machine State σ) :
    ¬Dropping w (advance w remaining m).2 := by
  rintro ⟨released', held', halted'⟩
  cases latched : m.core.exec.latchedFault? with
  | some fault =>
    rw [advance_eq, latched] at halted'
    have halted : m.core.exec = .halted := halted'
    rw [halted] at latched
    cases latched
  | none =>
    by_cases released : Released w m
    · exact nomatch (advance_frees latched released remaining).symm.trans held'
    · cases held : m.core.inReset with
      | false =>
        have parked := advance_takes latched released held remaining
        exact nomatch parked.exec.symm.trans halted'
      | true => exact stays_active latched released held remaining released'

/-- The halt output of the core is asserted while it is halted, no halted core is about to be let
go, and whether the output is in step is decided. -/
structure Settled (inStep : Prop) (w : Wiring σ) (m : Machine State σ) : Prop where
  marked : m.core.switches.Marked
  tracks : m.core.switches.Tracks ↔ inStep
  kept : ¬Dropping w m

theorem settled_advance (marked : m.core.switches.Marked) (remaining : Nat) :
    Settled (m.core.switches.Tracks ∧ ¬Dropping w m) w (advance w remaining m).2 where
  marked := ((advance_switches w remaining m).tracks marked).1
  tracks := ((advance_switches w remaining m).tracks marked).2
  kept := not_dropping_advance w remaining m

theorem Settled.advance {inStep : Prop} (settled : Settled inStep w m) (remaining : Nat) :
    Settled inStep w (advance w remaining m).2 := by
  have after := settled_advance (w := w) settled.marked remaining
  exact ⟨after.marked, after.tracks.trans (by simp [settled.kept, settled.tracks]), after.kept⟩

end Sm83

namespace Core

open Sm83 (haltLevels)

variable {σ : Type}

/-- The operation makes the core act while its reset line lets it go from a halt. -/
def Command.drops (w : Sm83.Wiring σ) (m : Machine Sm83.State σ) : Command → Bool
  | .advance _ => decide (Sm83.Dropping w m)
  | .run budget => decide (0 < budget) && decide (Sm83.Dropping w m)
  | .reset | .setLine .. | .stateSet .. => false

/-- An SM83 core whose halt output is settled. -/
def Settled (inStep : Prop) (w : Sm83.Wiring σ) (m : Machine (Core σ) σ) : Prop :=
  ∃ s, m.core = .sm83 w s ∧ Sm83.Settled inStep w ⟨s, m.world⟩

theorem Settled.advance (inStep : Prop) (w : Sm83.Wiring σ) (remaining : Nat) :
    Keeps (Settled inStep w) (advance remaining) := by
  rintro ⟨_, world⟩ ⟨s, rfl, settled⟩
  exact ⟨_, rfl, settled.advance remaining⟩

/-- What an operation makes of the halt output. -/
theorem Command.apply_tracks (command : Command) {w : Sm83.Wiring σ} {s s' : Sm83.State}
    {world world' : World σ} (marked : s.switches.Marked)
    (operates : (command.apply ⟨.sm83 w s, world⟩).2 = ⟨.sm83 w s', world'⟩) :
    s'.switches.Marked ∧
      (s'.switches.Tracks ↔ s.switches.Tracks ∧ command.drops w ⟨s, world⟩ = false) := by
  have turned (drops : command.drops w ⟨s, world⟩ = false) (turns : s.switches.Turns s'.switches) :
      s'.switches.Marked ∧
        (s'.switches.Tracks ↔ s.switches.Tracks ∧ command.drops w ⟨s, world⟩ = false) :=
    ⟨turns.marked marked, by simp [turns.tracks, drops]⟩
  have cores := congrArg Machine.core operates
  cases command with
  | reset =>
    have same : (Sm83.reset w ⟨s, world⟩).2.core = s' := (Core.sm83.inj cores).2
    refine turned rfl ?_
    rw [← same, Sm83.reset_switches]
    exact s.switches.turns_restart
  | advance remaining =>
    have same : (Sm83.advance w remaining ⟨s, world⟩).2.core = s' := (Core.sm83.inj cores).2
    obtain ⟨marked, tracks, -⟩ := Sm83.settled_advance (w := w) (m := ⟨s, world⟩) marked remaining
    rw [← same]
    exact ⟨marked, tracks.trans (by simp [drops])⟩
  | run budget =>
    rcases Nat.eq_zero_or_pos budget with rfl | pos
    · have same : s = s' :=
        (Core.sm83.inj ((congrArg Machine.core (run_zero _).2).symm.trans cores)).2
      rw [← same]
      exact ⟨marked, by simp [drops]⟩
    · -- the first action decides, and the later ones leave it at that
      have first (remaining : Nat) : Settled (s.switches.Tracks ∧ ¬Sm83.Dropping w ⟨s, world⟩) w
          (Core.advance remaining ⟨.sm83 w s, world⟩).2 :=
        ⟨(Sm83.advance w remaining ⟨s, world⟩).2.core, rfl,
          Sm83.settled_advance (m := ⟨s, world⟩) marked remaining⟩
      obtain ⟨t, core, settled⟩ := run_acted (Settled.advance _ w) first pos
      have same : t = s' := (Core.sm83.inj (core.symm.trans cores)).2
      rw [← same]
      exact ⟨settled.marked, settled.tracks.trans (by simp [drops, pos])⟩
  | setLine line level =>
    have same : s = s' := (Core.sm83.inj cores).2
    rw [← same]
    exact ⟨marked, by simp [drops]⟩
  | stateSet index value =>
    refine turned rfl ?_
    have written : (Core.stateSet index value ⟨.sm83 w s, world⟩).2.core = .sm83 w s' := cores
    unfold Core.stateSet at written
    dsimp only at written
    cases found : Sm83.Export.find? index with
    | none =>
      rw [found] at written
      rw [← (Core.sm83.inj written).2]
      exact .quiet .rfl rfl
    | some item =>
      rw [found] at written
      rw [← (Core.sm83.inj written).2]
      exact (Sm83.write_switches w item value ⟨s, world⟩).turns

/-! ## §4 Histories -/

/-- An SM83 core whose outputs are watched from the start, and whether its reset line has ever let
it go from a halt. It is built, gets its sink attached, and is operated in whatever world surrounds
it from then on. -/
inductive Watched : Sm83.Wiring σ → Sm83.State → Bool → Prop where
  | attached {config : Sm83.Config} {program : Space σ} {world world' : World σ}
      {w : Sm83.Wiring σ} {s : Sm83.State} (sink : Sink σ) :
      Sm83.build config program world = .ok ((w, s), world') → Watched { w with sink } s false
  | operated {w : Sm83.Wiring σ} {s s' : Sm83.State} {dropped : Bool} (command : Command)
      {world world' : World σ} : Watched w s dropped →
      (command.apply ⟨.sm83 w s, world⟩).2 = ⟨.sm83 w s', world'⟩ →
      Watched w s' (dropped || command.drops w ⟨s, world⟩)

variable {w : Sm83.Wiring σ} {s : Sm83.State} {dropped : Bool}

theorem Watched.tracks (watched : Watched w s dropped) :
    s.switches.Marked ∧ (s.switches.Tracks ↔ dropped = false) := by
  induction watched with
  | attached _ built =>
    rw [build_switches built]
    exact ⟨nofun, iff_of_true ⟨rfl, .singleton false⟩ rfl⟩
  | operated command _ operates ih =>
    obtain ⟨marked, inStep⟩ := ih
    obtain ⟨marked, tracks⟩ := command.apply_tracks marked operates
    exact ⟨marked, by simp [tracks, inStep]⟩

/-- Only a debugger halts a core that its reset line holds. -/
theorem Handled.not_dropping (handled : Handled w s true) (world : World σ) :
    ¬Sm83.Dropping w ⟨s, world⟩ :=
  fun drops => (handled.coherent rfl).held drops.2.1 drops.2.2

/-- The halt output of a halted core is asserted. Its level says whether the core is halted, and
each level driven is another one than the last, exactly as long as the reset line has not let the
core go from a halt. Once it has, the output stays out of step for good. -/
theorem halt_output_tracks_iff (watched : Watched w s dropped) :
    let levels := haltLevels s.outputs.toList
    (s.exec = .halted → levels.getLastD false = true) ∧
      (levels.getLastD false = decide (s.exec = .halted) ∧ (false :: levels).IsChain (· ≠ ·) ↔
        dropped = false) := by
  obtain ⟨marked, inStep⟩ := watched.tracks
  refine ⟨marked, ?_⟩
  rw [← inStep]
  exact ⟨fun ⟨output, alternates⟩ => ⟨output, alternates⟩,
    fun ⟨output, alternates⟩ => ⟨output, alternates⟩⟩

/-- A core that halts by `HALT` and whose halt ends with a reset. -/
theorem halt_output_tracks_iff_restarted :
    let w : Sm83.Wiring UInt8 := .cell id (fun value _ => value) 0
    let world : World UInt8 := ⟨0x76, { latches := [.released 6] }, {}⟩
    let start := (Sm83.reset w ⟨{}, ⟨0x76, {}, {}⟩⟩).2.core
    let halted := (Sm83.advance w 1 ⟨start, world⟩).2.core
    let restarted := (Sm83.reset w ⟨halted, world⟩).2.core
    halted.exec = .halted ∧ (haltLevels halted.outputs.toList).getLastD false = true ∧
      restarted.exec = .fetching ∧ haltLevels restarted.outputs.toList = [true, false] ∧
      (haltLevels restarted.outputs.toList).getLastD false = decide (restarted.exec = .halted) := by
  intro w world start halted restarted
  obtain ⟨_, made⟩ : ∃ world', Sm83.build {} w.program ⟨0x76, {}, {}⟩ = .ok ((w, start), world') :=
    ⟨_, rfl⟩
  have halts : ((Command.advance 1).apply ⟨.sm83 w start, world⟩).2 =
      ⟨.sm83 w halted, (Sm83.advance w 1 ⟨start, world⟩).2.world⟩ := rfl
  have restarts : (Command.reset.apply ⟨.sm83 w halted, world⟩).2 =
      ⟨.sm83 w restarted, (Sm83.reset w ⟨halted, world⟩).2.world⟩ := rfl
  have watched := (Watched.attached .ignore made).operated (.advance 1) halts
  have exec : halted.exec = .halted := by decide +kernel
  obtain ⟨tracks, -⟩ := (halt_output_tracks_iff (watched.operated .reset restarts)).2.mpr
    (by decide +kernel)
  exact ⟨exec, (halt_output_tracks_iff watched).1 exec, by decide +kernel, by decide +kernel, tracks⟩

/-- A core that is halted while its reset line holds it, and is then let go: it runs, and the last
level that it has driven on its halt output says that it is halted. -/
theorem halt_output_left_asserted :
    let w : Sm83.Wiring UInt8 := .cell id (fun value _ => value) 0
    let start := (Sm83.reset w ⟨{}, ⟨0, {}, {}⟩⟩).2.core
    let m := (operate [.setLine Sm83.resetLine .assert, .advance 1, .stateSet 19 1,
      .setLine Sm83.resetLine .clear, .advance 1]
      ⟨.sm83 w start, ⟨0, { latches := [.released 6] }, {}⟩⟩).2
    (∃ world, Sm83.build {} w.program ⟨0, {}, {}⟩ = .ok ((w, start), world)) ∧
      m.core.exec = .fetching ∧ haltLevels m.core.status.outputs.toList = [true] := by
  exact ⟨⟨_, rfl⟩, by decide +kernel, by decide +kernel⟩

end Core

end Microboard
