import Microboard.Proofs.CoreFaults
import Microboard.Proofs.CoreLockstep
import Microboard.Proofs.Tapes

/-!
# Cores whose spaces are taped

- **§1** Wirings and cores with a tape.
- **§2** Whatever a host does to such a core, it does to the core without a tape.
-/

namespace Microboard

variable {σ : Type}

/-! ## §1 Cores with a tape -/

namespace Sm83

/-- The wiring over a taped program space. -/
def Wiring.taped (w : Wiring σ) : Wiring (σ × Tape) where
  config := w.config
  program := w.program.taped .program
  number := w.number
  sink := w.sink.taped

theorem Wiring.coupled_taped (w : Wiring σ) : Coupled World.Tapes w w.taped :=
  { placesCoupled_taped w.number w.sink with
    config := rfl
    program := w.program.coupled_taped .program }

end Sm83

namespace Ucom4

/-- The wiring over three taped spaces. -/
def Wiring.taped (w : Wiring σ) : Wiring (σ × Tape) where
  config := w.config
  program := w.program.taped .program
  data := w.data.taped .data
  io := w.io.taped .io
  number := w.number
  sink := w.sink.taped

theorem Wiring.coupled_taped (w : Wiring σ) : Coupled World.Tapes w w.taped :=
  { placesCoupled_taped w.number w.sink with
    config := rfl
    program := w.program.coupled_taped .program
    data := w.data.coupled_taped .data
    io := w.io.coupled_taped .io }

end Ucom4

/-- The core over taped spaces. -/
def Core.taped : Core σ → Core (σ × Tape)
  | .sm83 w s => .sm83 w.taped s
  | .ucom4 w s => .ucom4 w.taped s

/-- The machine over taped spaces, with nothing on the tape yet. -/
def Machine.taped (m : Machine (Core σ) σ) : Machine (Core (σ × Tape)) (σ × Tape) :=
  ⟨m.core.taped, m.world.taped⟩

/-! ## §2 Operations -/

namespace Core

/-- The second machine is the first one with a tape. -/
structure Taped (m : Machine (Core σ) σ) (taped : Machine (Core (σ × Tape)) (σ × Tape)) :
    Prop where
  core : taped.core = m.core.taped
  world : m.world.Tapes taped.world

theorem taped_start (m : Machine (Core σ) σ) : Taped m m.taped := ⟨rfl, m.world.tapes_taped⟩

theorem Taped.exec {m : Machine (Core σ) σ} {taped : Machine (Core (σ × Tape)) (σ × Tape)}
    (same : Taped m taped) : m.core.exec = taped.core.exec := by
  rw [same.core]
  cases m.core <;> rfl

theorem reset_taped : Lockstep Taped (reset (σ := σ)) reset := by
  rintro ⟨core, world⟩ ⟨_, world'⟩ ⟨rfl, worlds⟩
  cases core with
  | sm83 w s =>
    obtain ⟨-, cores, worlds⟩ :=
      w.coupled_taped.tracks_eq.follows.reset ⟨s, world⟩ ⟨s, world'⟩ ⟨rfl, worlds⟩
    exact ⟨rfl, congrArg (Core.sm83 w.taped) cores.symm, worlds⟩
  | ucom4 w s =>
    obtain ⟨-, cores, worlds⟩ :=
      w.coupled_taped.tracks_eq.follows.reset ⟨s, world⟩ ⟨s, world'⟩ ⟨rfl, worlds⟩
    exact ⟨rfl, congrArg (Core.ucom4 w.taped) cores.symm, worlds⟩

theorem advance_taped (remaining : Nat) :
    Lockstep Taped (advance (σ := σ) remaining) (advance remaining) := by
  rintro ⟨core, world⟩ ⟨_, world'⟩ ⟨rfl, worlds⟩
  cases core with
  | sm83 w s =>
    obtain ⟨answer, cores, worlds⟩ :=
      w.coupled_taped.tracks_eq.advance remaining ⟨s, world⟩ ⟨s, world'⟩ ⟨rfl, worlds⟩
    exact ⟨answer, congrArg (Core.sm83 w.taped) cores.symm, worlds⟩
  | ucom4 w s =>
    obtain ⟨answer, cores, worlds⟩ :=
      w.coupled_taped.tracks_eq.advance remaining ⟨s, world⟩ ⟨s, world'⟩ ⟨rfl, worlds⟩
    exact ⟨answer, congrArg (Core.ucom4 w.taped) cores.symm, worlds⟩

theorem stateSet_taped (index : Int) (value : Nat) :
    Lockstep Taped (stateSet (σ := σ) index value) (stateSet index value) := by
  rintro ⟨core, world⟩ ⟨_, world'⟩ ⟨rfl, worlds⟩
  cases core with
  | sm83 w s =>
    unfold stateSet taped
    dsimp only
    cases Sm83.Export.find? index with
    | none => exact ⟨rfl, rfl, worlds⟩
    | some item =>
      obtain ⟨-, cores, worlds⟩ :=
        w.coupled_taped.tracks_eq.follows.write item value ⟨s, world⟩ ⟨s, world'⟩ ⟨rfl, worlds⟩
      exact ⟨rfl, congrArg (Core.sm83 w.taped) cores.symm, worlds⟩
  | ucom4 w s =>
    unfold stateSet taped
    dsimp only
    have same : Ucom4.Export.find? w.taped.geometry index = Ucom4.Export.find? w.geometry index :=
      rfl
    rw [same]
    cases Ucom4.Export.find? w.geometry index with
    | none => exact ⟨rfl, rfl, worlds⟩
    | some item => exact ⟨rfl, rfl, worlds⟩

/-- The taped core carries out every command as the core without a tape does. -/
theorem Command.apply_taped (command : Command) :
    Lockstep Taped (command.apply (σ := σ)) command.apply := by
  cases command with
  | reset => exact reset_taped
  | advance remaining => exact .discard (advance_taped remaining)
  | run budget => exact .discard (.run advance_taped (fun _ _ same => same.exec) budget)
  | setLine line level =>
    rintro ⟨core, world⟩ ⟨_, ⟨devices, lines, log⟩⟩ ⟨rfl, same, rfl, rfl⟩
    have number : core.taped.number = core.number := by cases core <;> rfl
    refine ⟨rfl, rfl, same, ?_, ?_⟩
    · show (LineBank.request _ _ ⟨core.taped.number, line, level⟩).1 = _
      rw [number]
      rfl
    · show (LineBank.request _ _ ⟨core.taped.number, line, level⟩).2 = _
      rw [number]
      rfl
  | stateSet index value => exact .discard (stateSet_taped index value)

theorem operate_taped (commands : List Command) :
    Lockstep Taped (operate (σ := σ) commands) (operate commands) := by
  induction commands with
  | nil => exact .pure ()
  | cons command commands ih => exact .bind command.apply_taped fun _ => ih

/-- What a command asks of the spaces of a core. -/
def asked (command : Command) (m : Machine (Core σ) σ) : Tape :=
  (command.apply m.taped).2.world.tape

end Core

end Microboard
