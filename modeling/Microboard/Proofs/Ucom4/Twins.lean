import Microboard.Proofs.CoreRestoring

/-!
# Restored uCOM-4 cores

The exported values of a uCOM-4 core and the values that its I/O ports are driven with are all
that decides what it goes on to do. The latter have no entry: a core that is restored keeps its
own, and reads them back together with the pins.

- **§1** States that a host can bring a core into.
- **§2** Twins: cores that differ in what does not count only.
- **§3** A restored core is a twin of the core whose values it was given, if its ports are driven
  alike.
-/

namespace Microboard.Ucom4

open Microboard.Core (Command Stimulus Sight watch restore stateSet)

variable {σ τ ρ : Type}

/-! ## §1 Reachable states -/

/-- States that a uCOM-4 core can be brought into: it is built, gets its sink attached, is operated
in whatever world surrounds it, has its registers set by a debugger, and its host takes note of
the levels that it has driven. -/
inductive Reachable : Wiring σ → State → Prop where
  | built {config : Config} {program data io : Space σ} {world world' : World σ} {w : Wiring σ}
      {s : State} : build config program data io world = .ok ((w, s), world') → Reachable w s
  | attached {w : Wiring σ} {s : State} (sink : Sink σ) :
      Reachable w s → Reachable { w with sink } s
  | operated {w : Wiring σ} {s s' : State} (command : Command) {world world' : World σ} :
      Reachable w s → (command.apply ⟨.ucom4 w s, world⟩).2 = ⟨.ucom4 w s', world'⟩ →
      Reachable w s'
  | poked {w : Wiring σ} {s : State} {regs : Registers} (narrow : regs.Narrow)
      (reaches : w.geometry.Reaches regs.pc) : Reachable w s → Reachable w { s with regs }
  | noted {w : Wiring σ} {s : State} : Reachable w s → Reachable w { s with outputs := #[] }

theorem sound_powerOn (g : Geometry) : State.Sound g {} where
  regs := ⟨by decide, by decide, by decide⟩
  pc := g.reaches_low (by decide)
  lastPc := g.reaches_low (by decide)
  timer _ runs := nomatch runs

/-- A core that has been built has a valid layout, and its state is the one that its reset left. -/
theorem build_reset {config : Config} {program data io : Space σ} {world world' : World σ}
    {w : Wiring σ} {s : State} (built : build config program data io world = .ok ((w, s), world')) :
    w.geometry.validate = .ok () ∧ s = (reset w ⟨{}, world⟩).2.core := by
  unfold build at built
  obtain ⟨-, -, built⟩ := ok_of_bind built
  obtain ⟨⟨⟩, valid, built⟩ := ok_of_bind built
  obtain ⟨-, -, built⟩ := ok_of_bind built
  obtain ⟨-, -, built⟩ := ok_of_bind built
  obtain ⟨-, -, built⟩ := ok_of_bind built
  obtain ⟨made, -⟩ := Prod.mk.inj (Except.ok.inj built)
  obtain ⟨rfl, rfl⟩ := Prod.mk.inj made
  exact ⟨valid, rfl⟩

theorem build_sound {config : Config} {program data io : Space σ} {world world' : World σ}
    {w : Wiring σ} {s : State} (built : build config program data io world = .ok ((w, s), world')) :
    w.geometry.validate = .ok () ∧ s.Sound w.geometry := by
  obtain ⟨valid, rfl⟩ := build_reset built
  exact ⟨valid, (tracks_sound w).follows.reset.keeps ⟨{}, world⟩ (sound_powerOn _)⟩

theorem Reachable.valid {w : Wiring σ} {s : State} (reachable : Reachable w s) :
    w.geometry.validate = .ok () := by
  induction reachable with
  | built built => exact (build_sound built).1
  | attached _ _ ih | operated _ _ _ ih | poked _ _ _ ih | noted _ ih => exact ih

theorem Reachable.sound {w : Wiring σ} {s : State} (reachable : Reachable w s) :
    s.Sound w.geometry := by
  induction reachable with
  | built built => exact (build_sound built).2
  | attached sink _ ih => exact ih
  | @operated w s s' command world world' _ operates ih =>
    have sound := command.apply_sound ⟨.ucom4 w s, world⟩ ih
    rw [operates] at sound
    exact sound
  | poked narrow reaches _ ih => exact ⟨narrow, reaches, ih.lastPc, ih.timer⟩
  | noted _ ih => exact ⟨ih.regs, ih.pc, ih.lastPc, ih.timer⟩

/-! ## §2 Twins -/

/-- The surroundings of two uCOM-4 cores of one configuration answer alike, as far as the parts of
the devices that they see look the same. -/
structure Alike (view : σ → ρ) (view' : τ → ρ) (w : Wiring σ) (w' : Wiring τ) : Prop where
  config : w.config = w'.config
  program : w.program.Matches ⟨view, w.number⟩ ⟨view', w'.number⟩ w'.program
  data : w.data.Matches ⟨view, w.number⟩ ⟨view', w'.number⟩ w'.data
  io : w.io.Matches ⟨view, w.number⟩ ⟨view', w'.number⟩ w'.io
  sink : ∀ line asserted, (w.sink line asserted).Matches ⟨view, w.number⟩ ⟨view', w'.number⟩
    (w'.sink line asserted)

theorem Alike.coupled {view : σ → ρ} {view' : τ → ρ} {w : Wiring σ} {w' : Wiring τ}
    (alike : Alike view view' w w') :
    Wiring.Coupled (Vantage.Same ⟨view, w.number⟩ ⟨view', w'.number⟩) w w' :=
  { Vantage.placesCoupled alike.sink with
    config := alike.config
    program := alike.program.coupled
    data := alike.data.coupled
    io := alike.io.coupled }

/-- Near states, whatever note they have of their last bus cycles. -/
def State.Twin (g : Geometry) (s t : State) : Prop :=
  State.Near g { s with bus := [] } { t with bus := [] }

/-- uCOM-4 cores in such states, in related worlds. -/
def Twins (Q : World σ → World τ → Prop) (w : Wiring σ) (w' : Wiring τ)
    (m : Machine (Core σ) σ) (m' : Machine (Core τ) τ) : Prop :=
  ∃ s t, m.core = .ucom4 w s ∧ m'.core = .ucom4 w' t ∧ s.Twin w.geometry t ∧ Q m.world m'.world

/-- The values that a part exports do not show where near states differ. -/
theorem Export.read_near {g : Geometry} (valid : g.validate = .ok ()) {s t : State}
    (near : s.Near g t) {item : Export} (exported : item ∈ all g) :
    item.read g t = item.read g s := by
  obtain ⟨cycles, diagnostics, outputs, argument, stack, agrees, rfl⟩ := near
  cases item with
  | stack level =>
    rw [all_eq] at exported
    have used : level ∈ g.exportedLevels := by simpa using exported
    have below := (Geometry.mem_exportedLevels valid level).mp used
    show ((Export.stack level).entry g).truncate _ = ((Export.stack level).entry g).truncate _
    unfold raw
    rw [truncate_toNat valid rfl, truncate_toNat valid rfl, agrees level below]
  | pc | dpl | dph | acc | carry | carrySave | timerFlag | intFlag | intEnable | currentPc | lastPc
  | flags | timer | opcode | skip => rfl

/-- Twins show the same values. -/
theorem Export.read_twin {g : Geometry} (valid : g.validate = .ok ()) {s t : State}
    (twin : s.Twin g t) {item : Export} (exported : item ∈ all g) :
    item.read g t = item.read g s := by
  have shown := read_near valid twin exported
  have left : item.read g t = item.read g { t with bus := [] } := by cases item <;> rfl
  have right : item.read g { s with bus := [] } = item.read g s := by cases item <;> rfl
  exact left.trans (shown.trans right)

theorem stateValues_twin {w : Wiring σ} {w' : Wiring τ} (config : w.config = w'.config)
    (valid : w.geometry.validate = .ok ()) {s t : State} (twin : s.Twin w.geometry t) :
    (Core.ucom4 w s).stateValues = (Core.ucom4 w' t).stateValues := by
  have geometry : w'.geometry = w.geometry := congrArg Config.geometry config.symm
  unfold Core.stateValues
  dsimp only
  rw [geometry]
  exact List.map_congr_left fun item exported => (Export.read_twin valid twin exported).symm

/-- An action starts with a fresh note of its bus cycles, whatever the last one left. -/
theorem eval_advance (remaining : Nat) (w : Wiring σ) (s : State) (world : World σ) :
    (Stimulus.advance remaining).apply ⟨.ucom4 w s, world⟩ =
      match advance w remaining ⟨{ s with bus := [] }, world⟩ with
      | (answer, ⟨s, world⟩) =>
        (⟨some (answer, s.bus), (Core.ucom4 w s).stateValues⟩, ⟨.ucom4 w s, world⟩) := rfl

variable {view : σ → ρ} {view' : τ → ρ} {w : Wiring σ} {w' : Wiring τ}

/-- Twins stay twins and look the same. -/
theorem apply_twins (alike : Alike view view' w w') (valid : w.geometry.validate = .ok ())
    (stimulus : Stimulus) :
    Lockstep (Twins (Vantage.Same ⟨view, w.number⟩ ⟨view', w'.number⟩) w w')
      (stimulus.apply : Core.Exec σ Sight) stimulus.apply := by
  rintro ⟨_, world⟩ ⟨_, world'⟩ ⟨s, t, rfl, rfl, twin, same⟩
  cases stimulus with
  | advance remaining =>
    -- with the old note cleared on both sides, the states are near and so are their actions
    have inStep := alike.coupled.tracks_near.advance remaining ⟨{ s with bus := [] }, world⟩
      ⟨{ t with bus := [] }, world'⟩ ⟨twin, same⟩
    rw [eval_advance, eval_advance]
    revert inStep
    obtain ⟨answer, s', world₁⟩ := advance w remaining ⟨{ s with bus := [] }, world⟩
    obtain ⟨answer', t', world₁'⟩ := advance w' remaining ⟨{ t with bus := [] }, world'⟩
    rintro ⟨rfl, ⟨cycles, diagnostics, outputs, argument, stack, agrees, rfl⟩, same⟩
    have twin : s'.Twin w.geometry { s' with
        totalCycles := cycles
        diagnostics := diagnostics
        outputs := outputs
        argument := argument
        regs := { s'.regs with stack } } :=
      ⟨cycles, diagnostics, outputs, argument, stack, agrees, rfl⟩
    refine ⟨?_, s', _, rfl, rfl, twin, same⟩
    exact congrArg (Sight.mk (some (answer, s'.bus))) (stateValues_twin alike.config valid twin)
  | setLine line level =>
    refine ⟨?_, s, t, rfl, rfl, twin, same.request line level⟩
    exact congrArg (Sight.mk none) (stateValues_twin alike.config valid twin)

/-! ## §3 Restored cores -/

/-- Every entry of a part is found under its own index. -/
theorem Export.find_entry {g : Geometry} (valid : g.validate = .ok ()) :
    ∀ item ∈ all g, find? g (item.entry g).index = some item := by
  obtain ⟨-, least, most⟩ := Geometry.ranges valid
  -- the layout of a part says how wide an entry is, but not how it is numbered
  have index (item : Export) :
      (item.entry g).index = (item.entry (Part.geometry .upd553)).index := by
    cases item <;> rfl
  have levels : g.stackLevels = 1 ∨ g.stackLevels = 2 ∨ g.stackLevels = 3 := by omega
  unfold find? all
  simp only [index]
  rcases levels with levels | levels | levels <;> rw [levels] <;> decide

/-- Restoring the values of another core is writing what its state shows. -/
theorem restore_eq {w : Wiring τ} {g : Geometry} (geometry : w.geometry = g) (s : State)
    {items : List Export} (known : ∀ item ∈ items, Export.find? g (item.entry g).index = some item)
    (t : State) (world : World τ) :
    (restore ((items.map (·.entry g)).zip (items.map (·.read g s))) ⟨.ucom4 w t, world⟩).2 =
      ⟨.ucom4 w (writeAll g s items t), world⟩ := by
  subst geometry
  induction items generalizing t with
  | nil => rfl
  | cons item items ih =>
    obtain ⟨first, rest⟩ := List.forall_mem_cons.mp known
    have written : (stateSet (item.entry w.geometry).index (item.read w.geometry s)
        ⟨.ucom4 w t, world⟩).2 =
        ⟨.ucom4 w (item.write w.geometry (item.read w.geometry s) t), world⟩ := by
      unfold Core.stateSet
      dsimp only
      rw [first]
    show (restore ((items.map (·.entry w.geometry)).zip (items.map (·.read w.geometry s)))
      (stateSet (item.entry w.geometry).index (item.read w.geometry s) ⟨.ucom4 w t, world⟩).2).2 = _
    rw [written, ih _ rest]
    rfl

/-- The exported values of a resting uCOM-4 core and the values that its ports are driven with are
all that decides what it goes on to do. Written to another resting core of its configuration, in
the order of the entries, the exported values make it show the same; and if that core drives its
ports alike, then from then on, whatever the host does to both cores, the two show the same
outcomes, bus cycles and values, once they are in worlds that look the same to them. -/
theorem restored_is_twin_at_ports {w : Wiring σ} {s : State} (reachable : Reachable w s)
    (rests : s.Resting) {w' : Wiring τ} {t : State} (rests' : t.Resting)
    (config : w.config = w'.config) (between : World τ) :
    let source : Core σ := .ucom4 w s
    let target : Core τ := (restore (source.stateEntries.zip source.stateValues)
      ⟨.ucom4 w' t, between⟩).2.core
    (∀ index, target.stateGet index = source.stateGet index) ∧
      (t.regs.portOut = s.regs.portOut →
        ∀ {ρ : Type} (view : σ → ρ) (view' : τ → ρ), Alike view view' w w' →
          ∀ world world',
            Vantage.Same ⟨view, w.number⟩ ⟨view', w'.number⟩ world world' →
            ∀ stimuli, (watch stimuli ⟨source, world⟩).1 = (watch stimuli ⟨target, world'⟩).1) := by
  intro source target
  have valid := reachable.valid
  have geometry : w'.geometry = w.geometry := congrArg Config.geometry config.symm
  -- restoring is writing entry by entry, and writing leaves a state near the source, but for ports
  obtain ⟨t', written⟩ : ∃ t', t' = writeAll w.geometry s (Export.all w.geometry) t := ⟨_, rfl⟩
  have near := writeAll_near valid reachable.sound rests rests'
  have target_eq : target = .ucom4 w' t' := by
    rw [written]
    exact congrArg Machine.core (restore_eq geometry s (Export.find_entry valid) t between)
  rw [← written] at near
  rw [target_eq]
  refine ⟨fun index => ?_, fun ports ρ view view' alike world world' same stimuli => ?_⟩
  · show (Export.find? w'.geometry index).map (Export.read w'.geometry t') =
      (Export.find? w.geometry index).map (Export.read w.geometry s)
    rw [geometry]
    cases found : Export.find? w.geometry index with
    | none => rfl
    | some item =>
      have exported : item ∈ Export.all w.geometry := List.mem_of_find?_eq_some found
      have shown := Export.read_near valid near exported
      have unseen : item.read w.geometry
          { s with bus := t.bus, regs := { s.regs with portOut := t.regs.portOut } } =
            item.read w.geometry s := by cases item <;> rfl
      exact congrArg some (shown.trans unseen)
  · have twin : s.Twin w.geometry t' := by
      rw [ports] at near
      obtain ⟨cycles, diagnostics, outputs, argument, stack, agrees, rfl⟩ := near
      exact ⟨cycles, diagnostics, outputs, argument, stack, agrees, rfl⟩
    -- from here on the two machines are twins, and twins show the same
    exact (Core.watch_lockstep (apply_twins alike valid) stimuli _ _
      ⟨s, t', rfl, rfl, twin, same⟩).1

/-- A core whose timer runs, restored into one that has just been built. -/
theorem restored_is_twin_at_ports_timed :
    let w : Wiring UInt8 := .cell id (fun value _ => value) 0
    let world : World UInt8 := ⟨0x32, { latches := [.released 2] }, {}⟩
    let fresh : State := (reset w ⟨{}, ⟨0x32, {}, {}⟩⟩).2.core
    let source : Core UInt8 :=
      .ucom4 w { fresh with regs := { acc := 1, pc := 0x55, carry := true }, timer := some 9 }
    let target : Core UInt8 := (restore (source.stateEntries.zip source.stateValues)
      ⟨.ucom4 w fresh, world⟩).2.core
    (∀ index, target.stateGet index = source.stateGet index) ∧
      ∀ stimuli, (watch stimuli ⟨source, world⟩).1 = (watch stimuli ⟨target, world⟩).1 := by
  intro w world fresh source target
  obtain ⟨_, made⟩ : ∃ world', build w.config w.program w.data w.io ⟨0x32, {}, {}⟩ =
      .ok ((w, fresh), world') := ⟨_, rfl⟩
  have poked : Reachable w { fresh with regs := { acc := 1, pc := 0x55, carry := true } } :=
    .poked ⟨by decide, by decide, by decide⟩ (w.geometry.reaches_low (by decide)) (.built made)
  have timed : Reachable w { fresh with
      regs := { acc := 1, pc := 0x55, carry := true }
      timer := some 9 } :=
    @Reachable.operated _ _ _ _ (.stateSet 14 9) world world poked rfl
  have cell (config : SpaceConfig) : (Space.cell config id fun value _ => value).Matches ⟨id, 0⟩
      ⟨id, 0⟩ (.cell config id fun value _ => value) :=
    Space.cell_matches config id (fun value _ => value) (fun _ _ => rfl) 0
  have rests : fresh.Resting := ⟨by decide, by decide⟩
  obtain ⟨shows_, watched⟩ := @restored_is_twin_at_ports UInt8 UInt8 w _ timed
    ⟨rests.exec, rests.released⟩ w fresh rests rfl world
  have ports : fresh.regs.portOut = Vector.replicate 16 0 := by decide
  exact ⟨shows_, watched ports id id ⟨rfl, cell _, cell _, cell _, Sink.ignore_matches _ _⟩ world
    world (.refl _ _)⟩

/-- A port that one core drives and the other does not: the restored core shows the same values and
then reads something else from the same pins. -/
theorem driven_port_not_restored :
    let w : Wiring Unit :=
      { Wiring.cell (fun _ => 0) (fun _ devices => devices) 0 with
        program :=
          { config := ⟨"program", 11, 8, .little⟩
            -- data pointer to port C, fifteen to the accumulator, out, in
            read := fun _ address devices =>
              ⟨[0x82, 0x9F, 0x0E, 0x32].getD address.toNat 0, devices, []⟩
            write := fun _ _ _ devices => ⟨(), devices, []⟩ } }
    let world : World Unit := ⟨(), { latches := [.released 2] }, {}⟩
    let fresh : State := (reset w ⟨{}, ⟨(), {}, {}⟩⟩).2.core
    let source : Core Unit :=
      (watch [.advance 1, .advance 1, .advance 1] ⟨.ucom4 w fresh, world⟩).2.core
    let target : Core Unit := (restore (source.stateEntries.zip source.stateValues)
      ⟨.ucom4 w fresh, world⟩).2.core
    target.stateValues = source.stateValues ∧
      (Core.step ⟨source, world⟩).2.core.stateGet 3 = some 15 ∧
      (Core.step ⟨target, world⟩).2.core.stateGet 3 = some 0 := by
  decide +kernel

end Microboard.Ucom4
