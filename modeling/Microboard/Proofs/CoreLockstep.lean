import Microboard.Proofs.Accesses
import Microboard.Proofs.CoreCycles
import Microboard.Proofs.CoreSlicing

/-!
# Cores in lockstep

- **§1** Runs whose actions go in lockstep.
- **§2** What every operation of a host keeps.
- **§3** Cores that are the same up to the note of their last bus cycles.
- **§4** What a core sees of the world, and what it does out of sight.
-/

namespace Microboard

/-! ## §1 Runs -/

section Runs

variable {μ ν : Type} {R : μ → ν → Prop} {advance : Nat → StateM μ (Except Fault StepOutcome)}
  {advance' : Nat → StateM ν (Except Fault StepOutcome)}

theorem Lockstep.runUntilExhausted
    (actions : ∀ remaining, Lockstep R (advance remaining) (advance' remaining))
    (counter : CycleCounter) (outcome : RunOutcome) :
    Lockstep R (Microboard.runUntilExhausted advance counter outcome)
      (Microboard.runUntilExhausted advance' counter outcome) := by
  intro m m' related
  -- both runs charge the same cycles, so the induction is on what one counter has left
  induction left : counter.remaining using Nat.strongRecOn generalizing counter outcome m m' with
  | ind left ih =>
  subst left
  rw [Microboard.runUntilExhausted, Microboard.runUntilExhausted]
  by_cases open_ : counter.exhausted = false
  · rw [dif_pos open_, dif_pos open_]
    have action := actions counter.remaining m m' related
    revert action
    obtain ⟨answer, m₁⟩ := advance counter.remaining m
    obtain ⟨answer', m₁'⟩ := advance' counter.remaining m'
    rintro ⟨rfl, related⟩
    cases answer with
    | error fault => exact ⟨rfl, related⟩
    | ok step =>
      have less := counter.remaining_charge_lt (max 1 step.cycles) open_ (by omega)
      exact ih _ less _ _ m₁ m₁' related rfl
  · rw [dif_neg open_, dif_neg open_]
    exact ⟨rfl, related⟩

/-- Runs go in lockstep when their actions do and related machines rest in the same state. -/
theorem Lockstep.run {exec : μ → ExecState} {exec' : ν → ExecState}
    (actions : ∀ remaining, Lockstep R (advance remaining) (advance' remaining))
    (rests : ∀ m m', R m m' → exec m = exec' m') (budget : Nat) :
    Lockstep R (Microboard.run advance exec budget) (Microboard.run advance' exec' budget) := by
  intro m m' related
  have spent := Lockstep.runUntilExhausted actions (.start budget) {} m m' related
  unfold Microboard.run
  revert spent
  obtain ⟨answer, m₁⟩ := Microboard.runUntilExhausted advance (.start budget) {} m
  obtain ⟨answer', m₁'⟩ := Microboard.runUntilExhausted advance' (.start budget) {} m'
  rintro ⟨rfl, related⟩
  cases answer with
  | error fault => exact ⟨rfl, related⟩
  | ok outcome =>
    dsimp only
    rw [rests m₁ m₁' related]
    exact ⟨rfl, related⟩

end Runs

namespace Core

variable {σ ρ : Type}

/-! ## §2 What operations keep -/

section Keeping

variable {P : Machine (Core σ) σ → Prop}

/-- What every action keeps, runs keep. -/
theorem run_keeps (acts : ∀ remaining, Keeps P (advance remaining)) (budget : Nat) :
    Keeps P (run budget) := by
  -- a run is in lockstep with itself
  have runs : Lockstep (Both P) (run budget) (run budget) :=
    .run (fun remaining => (acts remaining).lockstep)
      (fun _ _ same => congrArg (·.core.exec) same.1) budget
  exact runs.keeps

/-- What the first action brings about and every action keeps, there is after a run that makes an
action at all. -/
theorem run_acted (acts : ∀ remaining, Keeps P (advance remaining)) {m : Machine (Core σ) σ}
    (first : ∀ remaining, P (advance remaining m).2) {budget : Nat} (pos : 0 < budget) :
    P (run budget m).2 := by
  have open_ : (CycleCounter.start budget).exhausted = false := by
    rw [CycleCounter.exhausted_eq_false, CycleCounter.remaining_start]
    unfold counterMax
    omega
  unfold run Microboard.run
  rw [runUntilExhausted, dif_pos open_]
  have begun := first (CycleCounter.start budget).remaining
  revert begun
  obtain ⟨answer, m₁⟩ := advance (CycleCounter.start budget).remaining m
  intro begun
  cases answer with
  | error fault => exact begun
  | ok step =>
    -- what is left of the run is in lockstep with itself
    have rest := (Lockstep.runUntilExhausted (fun remaining => (acts remaining).lockstep)
      ((CycleCounter.start budget).charge (max 1 step.cycles))
      (RunOutcome.tally {} step)).keeps m₁ begun
    revert rest
    dsimp only
    obtain ⟨answer, m₂⟩ := runUntilExhausted advance _ _ m₁
    intro rest
    cases answer <;> exact rest

/-- What resets, actions, requested levels and written values keep, every command keeps. -/
theorem apply_keeps (resets : Keeps P reset) (acts : ∀ remaining, Keeps P (advance remaining))
    (requests : ∀ line level, Keeps P (setLine line level))
    (writes : ∀ index value, Keeps P (stateSet index value)) (command : Command) :
    Keeps P command.apply := by
  cases command with
  | reset => exact resets
  | advance remaining => exact acts remaining
  | run budget => exact run_keeps acts budget
  | setLine line level => exact requests line level
  | stateSet index value => exact writes index value

end Keeping

/-! ## §3 Same cores -/

@[simp]
theorem wiring_cleared (core : Core σ) : core.cleared.wiring = core.wiring := by
  cases core <;> rfl

/-- Spaces, sinks and latches of a core answer alike in related worlds. -/
def Coupled (Q : World σ → World σ → Prop) : Wiring σ → Prop
  | .inl w => Sm83.Wiring.Coupled Q w w
  | .inr w => Ucom4.Wiring.Coupled Q w w

/-- The machines hold the same core, up to the note of its last bus cycles, in related worlds. -/
structure Level (Q : World σ → World σ → Prop) (w : Wiring σ) (m m' : Machine (Core σ) σ) :
    Prop where
  wired : m.core.wiring = w
  cores : m.core.cleared = m'.core.cleared
  worlds : Q m.world m'.world

variable {Q : World σ → World σ → Prop} {w : Wiring σ}

theorem Level.clock {m m' : Machine (Core σ) σ} (level : Level Q w m m') :
    m.core.totalCycles = m'.core.totalCycles := by
  have clocks := congrArg totalCycles level.cores
  simpa using clocks

/-- Equal cores do the same in related worlds. -/
theorem advance_same (coupled : Coupled Q w) (remaining : Nat) {core : Core σ}
    (wired : core.wiring = w) {world world' : World σ} (worlds : Q world world') :
    (advance remaining ⟨core, world⟩).1 = (advance remaining ⟨core, world'⟩).1 ∧
      (advance remaining ⟨core, world⟩).2.core.wiring = w ∧
      (advance remaining ⟨core, world⟩).2.core = (advance remaining ⟨core, world'⟩).2.core ∧
      Q (advance remaining ⟨core, world⟩).2.world (advance remaining ⟨core, world'⟩).2.world := by
  subst wired
  cases core with
  | sm83 w s =>
    obtain ⟨answer, cores, worlds⟩ :=
      (Sm83.Wiring.Coupled.tracks_eq coupled).advance remaining ⟨s, world⟩ ⟨s, world'⟩ ⟨rfl, worlds⟩
    exact ⟨answer, rfl, congrArg (Core.sm83 w) cores, worlds⟩
  | ucom4 w s =>
    obtain ⟨answer, cores, worlds⟩ :=
      (Ucom4.Wiring.Coupled.tracks_eq coupled).advance remaining ⟨s, world⟩ ⟨s, world'⟩
        ⟨rfl, worlds⟩
    exact ⟨answer, rfl, congrArg (Core.ucom4 w) cores, worlds⟩

theorem advance_level (coupled : Coupled Q w) (remaining : Nat) :
    Lockstep (Level Q w) (advance remaining) (advance remaining) := by
  intro m m' level
  -- an action starts with a fresh note, so it cannot tell the two cores apart
  rw [← advance_unobserved, ← advance_unobserved remaining m', unobserved, unobserved,
    ← level.cores]
  obtain ⟨answer, wired, cores, worlds⟩ := advance_same coupled remaining
    ((wiring_cleared m.core).trans level.wired) level.worlds
  exact ⟨answer, wired, congrArg cleared cores, worlds⟩

/-- The same core runs the same way in related worlds. -/
theorem run_level (coupled : Coupled Q w) (budget : Nat) :
    Lockstep (Level Q w) (run budget) (run budget) := by
  -- only the state in which the two cores rest is left to compare
  refine .run (advance_level coupled) ?_ budget
  intro m m' level
  have states := congrArg exec level.cores
  simpa using states

/-! ## §4 In sight and out of sight -/

/-- Vantage point of a core that sees a part of the devices. -/
def vantage (view : σ → ρ) : Wiring σ → Vantage σ ρ
  | .inl w => ⟨view, w.number⟩
  | .inr w => ⟨view, w.number⟩

/-- What the core reaches of the devices is what it sees of them. -/
def Within (view : σ → ρ) : Wiring σ → Prop
  | .inl w =>
    let p : Vantage σ ρ := ⟨view, w.number⟩
    w.program.Matches p p w.program ∧
      ∀ line asserted, (w.sink line asserted).Matches p p (w.sink line asserted)
  | .inr w =>
    let p : Vantage σ ρ := ⟨view, w.number⟩
    (w.program.Matches p p w.program ∧ w.data.Matches p p w.data ∧ w.io.Matches p p w.io) ∧
      ∀ line asserted, (w.sink line asserted).Matches p p (w.sink line asserted)

/-- What the core reaches is out of sight of a vantage point, and its latch is another one. -/
def Outside (p : Vantage σ ρ) : Wiring σ → Prop
  | .inl w => w.number ≠ p.core ∧ w.program.Misses p ∧
      ∀ line asserted, (w.sink line asserted).Misses p
  | .inr w => w.number ≠ p.core ∧ (w.program.Misses p ∧ w.data.Misses p ∧ w.io.Misses p) ∧
      ∀ line asserted, (w.sink line asserted).Misses p

/-- A core does the same in worlds that look the same to it. -/
theorem Within.coupled {view : σ → ρ} (within : Within view w) :
    Coupled ((vantage view w).Same (vantage view w)) w := by
  cases w with
  | inl w =>
    obtain ⟨program, sink⟩ := within
    exact { Vantage.placesCoupled sink with
      config := rfl
      program := program.coupled }
  | inr w =>
    obtain ⟨⟨program, data, io⟩, sink⟩ := within
    exact { Vantage.placesCoupled sink with
      config := rfl
      program := program.coupled
      data := data.coupled
      io := io.coupled }

theorem waits_le (space : Space σ) (world : World σ) :
    (World.takeWaitStates space world).1.toNat ≤ waitMax := by
  have range := (World.takeWaitStates space world).1.toNat_lt
  unfold waitMax
  omega

/-- What a core does out of sight keeps a world looking as it did. -/
theorem Outside.calm {p : Vantage σ ρ} (outside : Outside p w) (world' : World σ) :
    Calm (p.Same p · world') waitMax w := by
  cases w with
  | inl w =>
    obtain ⟨other, program, sink⟩ := outside
    exact ⟨{ Vantage.placesUnseen other sink world' with
      config := rfl
      program := program.coupled world' }, fun world _ => waits_le w.program world⟩
  | inr w =>
    obtain ⟨other, ⟨program, data, io⟩, sink⟩ := outside
    exact ⟨{ Vantage.placesUnseen other sink world' with
      config := rfl
      program := program.coupled world'
      data := data.coupled world'
      io := io.coupled world' },
      ⟨fun world _ => waits_le w.program world, fun world _ => waits_le w.data world,
        fun world _ => waits_le w.io world⟩⟩

/-- Every core works in a world of which nothing is asked. -/
theorem calm_anywhere (w : Wiring σ) : Calm (fun _ => True) waitMax w := by
  -- nothing is asked, so whatever a core reaches keeps it
  have places (number : Nat) (sink : Sink σ) :
      PlacesCoupled (Both fun _ : World σ => True) number number sink sink :=
    ⟨⟨fun _ _ => Keeps.lockstep fun _ _ => trivial, fun _ => Keeps.lockstep fun _ _ => trivial⟩,
      fun _ => Keeps.lockstep fun _ _ => trivial⟩
  have spaces (space : Space σ) : Space.Coupled (Both fun _ : World σ => True) space space :=
    ⟨fun _ => Keeps.lockstep fun _ _ => trivial, fun _ _ => Keeps.lockstep fun _ _ => trivial,
      Keeps.lockstep fun _ _ => trivial⟩
  cases w with
  | inl w =>
    exact ⟨{ places w.number w.sink with
      config := rfl
      program := spaces w.program }, fun world _ => waits_le w.program world⟩
  | inr w =>
    exact ⟨{ places w.number w.sink with
      config := rfl
      program := spaces w.program
      data := spaces w.data
      io := spaces w.io },
      ⟨fun world _ => waits_le w.program world, fun world _ => waits_le w.data world,
        fun world _ => waits_le w.io world⟩⟩

/-! ### Cores over a single cell -/

section Cell

variable (get : σ → UInt8) (put : UInt8 → σ → σ)

theorem within_sm83_cell (stores : ∀ value devices, get (put value devices) = value)
    (number : Nat) : Within get (.inl (.cell get put number)) :=
  ⟨Space.cell_matches _ get put stores number, Sink.ignore_matches _ _⟩

theorem within_ucom4_cell (stores : ∀ value devices, get (put value devices) = value)
    (number : Nat) : Within get (.inr (.cell get put number)) :=
  ⟨⟨Space.cell_matches _ get put stores number, Space.cell_matches _ get put stores number,
    Space.cell_matches _ get put stores number⟩, Sink.ignore_matches _ _⟩

variable {p : Vantage σ ρ}

theorem outside_sm83_cell (apart : ∀ value devices, p.view (put value devices) = p.view devices)
    {number : Nat} (other : number ≠ p.core) : Outside p (.inl (.cell get put number)) :=
  ⟨other, Space.cell_misses _ get put p apart, Sink.ignore_misses p⟩

theorem outside_ucom4_cell (apart : ∀ value devices, p.view (put value devices) = p.view devices)
    {number : Nat} (other : number ≠ p.core) : Outside p (.inr (.cell get put number)) :=
  ⟨other, ⟨Space.cell_misses _ get put p apart, Space.cell_misses _ get put p apart,
    Space.cell_misses _ get put p apart⟩, Sink.ignore_misses p⟩

end Cell

end Core

end Microboard
