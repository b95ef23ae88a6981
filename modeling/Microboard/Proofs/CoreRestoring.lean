import Microboard.Proofs.CoreLockstep
import Microboard.Proofs.Ucom4.Restoring

/-!
# Restoring cores

The exported values of an SM83 core are all that decides what it goes on to do.

- **§1** States that a host can bring a core into.
- **§2** What a host sees of a core.
- **§3** Twins: cores that differ in what is not exported only.
- **§4** A restored core is a twin of the core whose values it was given.
-/

namespace Microboard.Core

variable {σ τ ρ : Type}

/-! ## §1 Reachable states -/

/-- States that an SM83 core can be brought into: it is built, gets its sink attached, is operated
in whatever world surrounds it, has its registers set by a debugger, and its host takes note of
the levels that it has driven. -/
inductive Reachable : Sm83.Wiring σ → Sm83.State → Prop where
  | built {config : Sm83.Config} {program : Space σ} {world world' : World σ}
      {w : Sm83.Wiring σ} {s : Sm83.State} :
      Sm83.build config program world = .ok ((w, s), world') → Reachable w s
  | attached {w : Sm83.Wiring σ} {s : Sm83.State} (sink : Sink σ) :
      Reachable w s → Reachable { w with sink } s
  | operated {w : Sm83.Wiring σ} {s s' : Sm83.State} (command : Command)
      {world world' : World σ} : Reachable w s →
      (command.apply ⟨.sm83 w s, world⟩).2 = ⟨.sm83 w s', world'⟩ → Reachable w s'
  | poked {w : Sm83.Wiring σ} {s : Sm83.State} {regs : Sm83.Registers} (sound : regs.Sound) :
      Reachable w s → Reachable w { s with regs }
  | noted {w : Sm83.Wiring σ} {s : Sm83.State} :
      Reachable w s → Reachable w { s with outputs := #[] }

/-- Register bits that do not exist are clear; on a uCOM-4 core, a timer that runs has cycles left
and fits its entry. -/
def Sound : Core σ → Prop
  | sm83 _ s => s.regs.Sound
  | ucom4 w s => s.Sound w.geometry

theorem advance_sound (remaining : Nat) :
    Keeps (fun m : Machine (Core σ) σ => m.core.Sound) (advance remaining) := by
  rintro ⟨core, world⟩ sound
  cases core with
  | sm83 w s => exact ((Sm83.tracks_sound w).advance remaining).keeps ⟨s, world⟩ sound
  | ucom4 w s => exact ((Ucom4.tracks_sound w).advance remaining).keeps ⟨s, world⟩ sound

theorem stateSet_sound (index : Int) (value : Nat) :
    Keeps (fun m : Machine (Core σ) σ => m.core.Sound) (stateSet index value) := by
  rintro ⟨core, world⟩ sound
  cases core with
  | sm83 w s =>
    unfold stateSet
    dsimp only
    cases Sm83.Export.find? index with
    | none => exact sound
    | some item => exact ((Sm83.tracks_sound w).follows.write item value).keeps ⟨s, world⟩ sound
  | ucom4 w s =>
    unfold stateSet
    dsimp only
    cases Ucom4.Export.find? w.geometry index with
    | none => exact sound
    | some item => exact item.write_sound value sound

theorem reset_sound : Keeps (fun m : Machine (Core σ) σ => m.core.Sound) reset := by
  rintro ⟨core, world⟩ sound
  cases core with
  | sm83 w s => exact (Sm83.tracks_sound w).follows.reset.keeps ⟨s, world⟩ sound
  | ucom4 w s => exact (Ucom4.tracks_sound w).follows.reset.keeps ⟨s, world⟩ sound

/-- No operation sets a register bit that does not exist. -/
theorem Command.apply_sound (command : Command) :
    Keeps (fun m : Machine (Core σ) σ => m.core.Sound) command.apply :=
  apply_keeps reset_sound advance_sound (fun _ _ _ sound => sound) stateSet_sound command

/-- The state of a core that has been built is the one that its reset left. -/
theorem build_reset {config : Sm83.Config} {program : Space σ} {world world' : World σ}
    {w : Sm83.Wiring σ} {s : Sm83.State}
    (built : Sm83.build config program world = .ok ((w, s), world')) :
    s = (Sm83.reset w ⟨{}, world⟩).2.core := by
  unfold Sm83.build at built
  obtain ⟨-, -, built⟩ := ok_of_bind built
  obtain ⟨-, -, built⟩ := ok_of_bind built
  obtain ⟨made, -⟩ := Prod.mk.inj (Except.ok.inj built)
  obtain ⟨rfl, rfl⟩ := Prod.mk.inj made
  rfl

/-- A core that has been built holds the registers of its power-on. -/
theorem build_sound {config : Sm83.Config} {program : Space σ} {world world' : World σ}
    {w : Sm83.Wiring σ} {s : Sm83.State}
    (built : Sm83.build config program world = .ok ((w, s), world')) : s.regs.Sound := by
  obtain rfl := build_reset built
  exact w.config.powerOn_sound

/-- The bits that do not exist are clear in every reachable state. -/
theorem Reachable.sound {w : Sm83.Wiring σ} {s : Sm83.State} (reachable : Reachable w s) :
    s.regs.Sound := by
  induction reachable with
  | built built => exact build_sound built
  | attached sink _ ih => exact ih
  | @operated w s s' command world world' _ operates ih =>
    have sound := command.apply_sound ⟨.sm83 w s, world⟩ ih
    rw [operates] at sound
    exact sound
  | poked sound _ _ => exact sound
  | noted _ ih => exact ih

/-! ## §2 Observations -/

/-- What a host does to a core while it watches it. -/
inductive Stimulus where
  | advance (remaining : Nat)
  | setLine (line : InputLine) (level : LineLevel)

/-- What a host sees of a core: the outcome of an action and the bus cycles that it made, if it
made one, and the exported values. -/
structure Sight where
  /-- Outcome and bus cycles of an action. -/
  action : Option (Except Fault StepOutcome × List BusCycle)
  /-- Exported values, in the order of the entries. -/
  values : List Nat

/-- Does something to a core and looks at it. -/
def Stimulus.apply : Stimulus → Exec σ Sight
  | .advance remaining => do
    let answer ← Core.advance remaining
    let core ← Machine.getCore
    return ⟨some (answer, core.status.bus), core.stateValues⟩
  | .setLine line level => do
    Core.setLine line level
    return ⟨none, (← Machine.getCore).stateValues⟩

/-- Watches a core through a list of stimuli. -/
def watch : List Stimulus → Exec σ (List Sight)
  | [] => return []
  | stimulus :: stimuli => do
    let sight ← stimulus.apply
    return sight :: (← watch stimuli)

/-- Machines that show the same and stay related under every stimulus show the same throughout. -/
theorem watch_lockstep {R : Machine (Core σ) σ → Machine (Core τ) τ → Prop}
    (each : ∀ stimulus : Stimulus, Lockstep R (stimulus.apply : Exec σ Sight) stimulus.apply)
    (stimuli : List Stimulus) : Lockstep R (watch stimuli : Exec σ (List Sight)) (watch stimuli) := by
  induction stimuli with
  | nil => exact .pure []
  | cons stimulus stimuli ih =>
    exact .bind (each stimulus) fun sight => .bind ih fun sights => .pure (sight :: sights)

/-! ## §3 Twins -/

/-- The surroundings of two SM83 cores of one configuration answer alike, as far as the parts of
the devices that they see look the same. -/
structure Alike (view : σ → ρ) (view' : τ → ρ) (w : Sm83.Wiring σ) (w' : Sm83.Wiring τ) :
    Prop where
  config : w.config = w'.config
  program : w.program.Matches ⟨view, w.number⟩ ⟨view', w'.number⟩ w'.program
  sink : ∀ line asserted, (w.sink line asserted).Matches ⟨view, w.number⟩ ⟨view', w'.number⟩
    (w'.sink line asserted)

theorem Alike.coupled {view : σ → ρ} {view' : τ → ρ} {w : Sm83.Wiring σ} {w' : Sm83.Wiring τ}
    (alike : Alike view view' w w') :
    Sm83.Wiring.Coupled (Vantage.Same ⟨view, w.number⟩ ⟨view', w'.number⟩) w w' :=
  { Vantage.placesCoupled alike.sink with
    config := alike.config
    program := alike.program.coupled }

/-- SM83 cores that differ at most in their counters, the levels that they have driven and the
note of their last bus cycles, in related worlds. -/
def Twins (Q : World σ → World τ → Prop) (w : Sm83.Wiring σ) (w' : Sm83.Wiring τ)
    (m : Machine (Core σ) σ) (m' : Machine (Core τ) τ) : Prop :=
  ∃ s t, m.core = .sm83 w s ∧ m'.core = .sm83 w' t ∧
    Sm83.State.Alike { s with bus := [] } { t with bus := [] } ∧ Q m.world m'.world

/-- Such cores show the same values. -/
theorem read_alike {s t : Sm83.State}
    (alike : Sm83.State.Alike { s with bus := [] } { t with bus := [] }) (item : Sm83.Export) :
    item.read t = item.read s := by
  obtain ⟨cycles, diagnostics, outputs, same⟩ := alike
  have shown : item.read { t with bus := [] } = item.read { s with bus := [] } := by
    rw [same]
    cases item <;> rfl
  have left : item.read t = item.read { t with bus := [] } := by cases item <;> rfl
  have right : item.read { s with bus := [] } = item.read s := by cases item <;> rfl
  exact left.trans (shown.trans right)

theorem stateValues_alike {s t : Sm83.State}
    (alike : Sm83.State.Alike { s with bus := [] } { t with bus := [] }) (w : Sm83.Wiring σ)
    (w' : Sm83.Wiring τ) : (sm83 w s).stateValues = (sm83 w' t).stateValues :=
  List.map_congr_left fun item _ => (read_alike alike item).symm

variable {view : σ → ρ} {view' : τ → ρ} {w : Sm83.Wiring σ} {w' : Sm83.Wiring τ}

/-- An action starts with a fresh note of its bus cycles, whatever the last one left. -/
theorem Stimulus.eval_advance (remaining : Nat) (w : Sm83.Wiring σ) (s : Sm83.State)
    (world : World σ) :
    (Stimulus.advance remaining).apply ⟨.sm83 w s, world⟩ =
      match Sm83.advance w remaining ⟨{ s with bus := [] }, world⟩ with
      | (answer, ⟨s, world⟩) =>
        (⟨some (answer, s.bus), (sm83 w s).stateValues⟩, ⟨.sm83 w s, world⟩) := rfl

/-- Twins stay twins and look the same. -/
theorem Stimulus.apply_twins (alike : Alike view view' w w') (stimulus : Stimulus) :
    Lockstep (Twins (Vantage.Same ⟨view, w.number⟩ ⟨view', w'.number⟩) w w')
      (stimulus.apply : Exec σ Sight) stimulus.apply := by
  rintro ⟨_, world⟩ ⟨_, world'⟩ ⟨s, t, rfl, rfl, near, same⟩
  cases stimulus with
  | advance remaining =>
    -- with the old note cleared on both sides, the states are alike and so are their actions
    have inStep := alike.coupled.tracks_alike.advance remaining ⟨{ s with bus := [] }, world⟩
      ⟨{ t with bus := [] }, world'⟩ ⟨near, same⟩
    rw [eval_advance, eval_advance]
    revert inStep
    obtain ⟨answer, s', world₁⟩ := Sm83.advance w remaining ⟨{ s with bus := [] }, world⟩
    obtain ⟨answer', t', world₁'⟩ := Sm83.advance w' remaining ⟨{ t with bus := [] }, world'⟩
    rintro ⟨rfl, ⟨cycles, diagnostics, outputs, rfl⟩, same⟩
    have near : Sm83.State.Alike { s' with bus := [] } { s' with
        totalCycles := cycles
        diagnostics := diagnostics
        outputs := outputs
        bus := [] } := ⟨cycles, diagnostics, outputs, rfl⟩
    refine ⟨?_, s', _, rfl, rfl, near, same⟩
    exact congrArg (Sight.mk (some (answer, s'.bus))) (stateValues_alike near w w')
  | setLine line level =>
    refine ⟨?_, s, t, rfl, rfl, near, same.request line level⟩
    exact congrArg (Sight.mk none) (stateValues_alike near w w')

/-! ## §4 Restored cores -/

/-- Every entry is found under its own index. -/
theorem find_entry : ∀ item ∈ Sm83.Export.all, Sm83.Export.find? item.entry.index = some item := by
  decide

/-- Restoring the values of another core is writing what its state shows. -/
theorem restore_eq (w : Sm83.Wiring σ) (s : Sm83.State) {items : List Sm83.Export}
    (known : ∀ item ∈ items, Sm83.Export.find? item.entry.index = some item)
    (m : Machine Sm83.State σ) :
    (restore ((items.map (·.entry)).zip (items.map (·.read s))) (ofSm83 w m)).2 =
      ofSm83 w (Sm83.writeAll w s items m).2 := by
  induction items generalizing m with
  | nil => rfl
  | cons item items ih =>
    obtain ⟨first, rest⟩ := List.forall_mem_cons.mp known
    have written : (stateSet item.entry.index (item.read s) (ofSm83 w m)).2 =
        ofSm83 w (item.write w (item.read s) m).2 := by
      unfold stateSet ofSm83
      dsimp only
      rw [first]
      rfl
    show (restore ((items.map (·.entry)).zip (items.map (·.read s)))
      (stateSet item.entry.index (item.read s) (ofSm83 w m)).2).2 = _
    rw [written, ih rest]
    rfl

/-- The exported values of a resting SM83 core are all that decides what it goes on to do. Written
to another resting core, in the order of the entries, they make it show the same values; and from
then on, whatever the host does to both cores, the two show the same outcomes, bus cycles and
values, once they are in worlds that look the same to them. -/
theorem restored_is_twin {w : Sm83.Wiring σ} {s : Sm83.State} (reachable : Reachable w s)
    (rests : s.Resting) {w' : Sm83.Wiring τ} {t : Sm83.State} (rests' : t.Resting)
    (between : World τ) :
    let source : Core σ := .sm83 w s
    let target : Core τ := (restore (source.stateEntries.zip source.stateValues)
      ⟨.sm83 w' t, between⟩).2.core
    (∀ index, target.stateGet index = source.stateGet index) ∧
      ∀ {ρ : Type} (view : σ → ρ) (view' : τ → ρ), Alike view view' w w' →
        ∀ world world',
          Vantage.Same ⟨view, w.number⟩ ⟨view', w'.number⟩ world world' →
          ∀ stimuli, (watch stimuli ⟨source, world⟩).1 = (watch stimuli ⟨target, world'⟩).1 := by
  intro source target
  -- restoring is writing entry by entry, and writing leaves a state alike to the source
  have restored := restore_eq w' s find_entry ⟨t, between⟩
  have near := Sm83.writeAll_alike w' reachable.sound rests rests' between
  obtain ⟨t', written⟩ : ∃ t', t' = (Sm83.writeAll w' s Sm83.Export.all ⟨t, between⟩).2.core :=
    ⟨_, rfl⟩
  have target_eq : target = .sm83 w' t' := by
    rw [written]
    exact congrArg Machine.core restored
  have twin : Sm83.State.Alike { s with bus := [] } { t' with bus := [] } := by
    rw [← written] at near
    obtain ⟨cycles, diagnostics, outputs, same⟩ := near
    rw [same]
    exact ⟨cycles, diagnostics, outputs, rfl⟩
  rw [target_eq]
  refine ⟨fun index => ?_, fun view view' alike world world' same stimuli => ?_⟩
  · show (Sm83.Export.find? index).map (Sm83.Export.read t') =
      (Sm83.Export.find? index).map (Sm83.Export.read s)
    rw [funext (read_alike twin)]
  -- from here on the two machines are twins, and twins show the same
  · exact (watch_lockstep (Stimulus.apply_twins alike) stimuli _ _
      ⟨s, t', rfl, rfl, twin, same⟩).1

/-- A core that fetches, restored into one that is stopped. -/
theorem restored_is_twin_stopped :
    let w : Sm83.Wiring UInt8 := .cell id (fun value _ => value) 0
    let world : World UInt8 := ⟨0x76, { latches := [.released 6] }, {}⟩
    let source : Core UInt8 := .sm83 w { regs := { a := 1, f := 0x80, pc := 0xC000, ie := 4 } }
    let target : Core UInt8 := (restore (source.stateEntries.zip source.stateValues)
      ⟨.sm83 w { exec := .halted, stopped := true, totalCycles := 20 }, world⟩).2.core
    (∀ index, target.stateGet index = source.stateGet index) ∧
      ∀ stimuli, (watch stimuli ⟨source, world⟩).1 = (watch stimuli ⟨target, world⟩).1 := by
  intro w world source target
  obtain ⟨_, made⟩ : ∃ world', Sm83.build {} w.program ⟨0x76, {}, {}⟩ = .ok ((w, {}), world') :=
    ⟨_, rfl⟩
  have poked : Reachable w { regs := { a := 1, f := 0x80, pc := 0xC000, ie := 4 } } :=
    .poked ⟨rfl, rfl⟩ (.built made)
  have cell : w.program.Matches ⟨id, 0⟩ ⟨id, 0⟩ w.program :=
    Space.cell_matches _ id (fun value _ => value) (fun _ _ => rfl) 0
  have stopped : Sm83.State.Resting { exec := .halted, stopped := true, totalCycles := 20 } :=
    ⟨.inr rfl, rfl⟩
  have twin := @restored_is_twin UInt8 UInt8 w _ poked ⟨.inl rfl, rfl⟩ w _ stopped world
  obtain ⟨shows_, watched⟩ := twin
  exact ⟨shows_, watched id id ⟨rfl, cell, Sink.ignore_matches _ _⟩ world world (.refl _ _)⟩

end Microboard.Core
