import Microboard.Core
import Microboard.Proofs.Sm83.Cycles
import Microboard.Proofs.Sm83.Restoring
import Microboard.Proofs.Ucom4.Cycles

/-!
# Cycles of cores

- **§1** What a core is connected to, which no operation changes.
- **§2** Worlds with few wait states.
- **§3** Every operation of a host keeps such a world and moves the clock forward.
-/

namespace Microboard.Core

variable {σ : Type}

/-! ## §1 Wiring -/

/-- What a core of either family is connected to. -/
abbrev Wiring (σ : Type) : Type := Sm83.Wiring σ ⊕ Ucom4.Wiring σ

/-- What the core is connected to. -/
def wiring : Core σ → Wiring σ
  | sm83 w _ => .inl w
  | ucom4 w _ => .inr w

theorem clockHz_congr {core core' : Core σ} (same : core.wiring = core'.wiring) :
    core.clockHz = core'.clockHz := by
  cases core <;> cases core' <;> cases same <;> rfl

theorem clocksPerCycle_congr {core core' : Core σ} (same : core.wiring = core'.wiring) :
    core.clocksPerCycle = core'.clocksPerCycle := by
  cases core <;> cases core' <;> cases same <;> rfl

/-! ## §2 Worlds with few wait states -/

/-- Accesses and signals of a core keep a property of its world, and in such a world each of its
spaces has at most so many wait states pending. -/
def Calm (V : World σ → Prop) (limit : Nat) : Wiring σ → Prop
  | .inl w => Sm83.Wiring.Coupled (Both V) w w ∧
      ∀ world, V world → (World.takeWaitStates w.program world).1.toNat ≤ limit
  | .inr w => Ucom4.Wiring.Coupled (Both V) w w ∧ w.Within V limit

/-- Cycles by which a run may pass its budget. -/
def slack (limit : Nat) : Wiring σ → Nat
  | .inl _ => 23 + limit
  | .inr _ => 1 + 3 * limit

variable {V : World σ → Prop} {limit : Nat} {w : Wiring σ}

/-- A core at work in a world with a property. -/
def Works (V : World σ → Prop) (w : Wiring σ) (m : Machine (Core σ) σ) : Prop :=
  V m.world ∧ m.core.wiring = w

/-- Every boundary action accounts for its cycles. -/
theorem metered (calm : Calm V limit w) :
    Metered advance (Works V w) (fun m => m.core.totalCycles) (slack limit w) := by
  rintro reading remaining ⟨core, world⟩ ⟨⟨kept, rfl⟩, clock⟩
  cases core with
  | sm83 w s =>
    obtain ⟨kept, accounts⟩ := Sm83.metered calm.1 calm.2 reading remaining ⟨s, world⟩ ⟨kept, clock⟩
    exact ⟨⟨kept, rfl⟩, accounts⟩
  | ucom4 w s =>
    obtain ⟨kept, accounts⟩ :=
      Ucom4.metered calm.1 calm.2 reading remaining ⟨s, world⟩ ⟨kept, clock⟩
    exact ⟨⟨kept, rfl⟩, accounts⟩

/-- A run accounts for its cycles. -/
theorem run_accounts (calm : Calm V limit w) {budget : Nat} (range : budget ≤ counterMax)
    (reading : Nat) :
    Ensures (fun m => Works V w m ∧ m.core.totalCycles = reading) (run budget)
      fun answer m => Works V w m ∧
        AccountsRun (slack limit w) budget reading answer m.core.totalCycles :=
  (metered calm).run (fun m => m.core.exec) range reading

/-! ## §3 Operations of a host -/

/-- What a host can do with a core. -/
inductive Command where
  | reset
  | advance (remaining : Nat)
  | run (budget : Nat)
  | setLine (line : InputLine) (level : LineLevel)
  | stateSet (index : Int) (value : Nat)

/-- Carries a command out. -/
def Command.apply : Command → Exec σ Unit
  | .reset => Core.reset
  | .advance remaining => do discard <| Core.advance remaining
  | .run budget => do discard <| Core.run budget
  | .setLine line level => Core.setLine line level
  | .stateSet index value => do discard <| Core.stateSet index value

/-- A core at work whose clock shows a reading, or a later one. -/
def WorksSince (V : World σ → Prop) (w : Wiring σ) (reading : Nat) (m : Machine (Core σ) σ) :
    Prop :=
  Works V w m ∧ Later reading m.core.totalCycles

theorem reset_since (calm : Calm V limit w) (reading : Nat) :
    Keeps (WorksSince V w reading) reset := by
  rintro ⟨core, world⟩ ⟨⟨kept, rfl⟩, since⟩
  cases core with
  | sm83 w s =>
    obtain ⟨kept, clock⟩ :=
      (calm.1.follows_clock s.totalCycles).reset.standing ⟨s, world⟩ ⟨kept, rfl⟩
    exact ⟨⟨kept, rfl⟩, since.of_eq clock⟩
  | ucom4 w s =>
    obtain ⟨kept, clock⟩ :=
      (calm.1.follows_clock s.totalCycles).reset.standing ⟨s, world⟩ ⟨kept, rfl⟩
    exact ⟨⟨kept, rfl⟩, since.of_eq clock⟩

theorem stateSet_since (calm : Calm V limit w) (reading : Nat) (index : Int) (value : Nat) :
    Keeps (WorksSince V w reading) (stateSet index value) := by
  rintro ⟨core, world⟩ ⟨⟨kept, rfl⟩, since⟩
  cases core with
  | sm83 w s =>
    unfold stateSet
    dsimp only
    cases Sm83.Export.find? index with
    | none => exact ⟨⟨kept, rfl⟩, since⟩
    | some item =>
      obtain ⟨kept, clock⟩ :=
        ((calm.1.follows_clock s.totalCycles).write item value).standing ⟨s, world⟩ ⟨kept, rfl⟩
      exact ⟨⟨kept, rfl⟩, since.of_eq clock⟩
  | ucom4 w s =>
    unfold stateSet
    dsimp only
    cases Ucom4.Export.find? w.geometry index with
    | none => exact ⟨⟨kept, rfl⟩, since⟩
    | some item =>
      -- none of the entries is the clock
      refine ⟨⟨kept, rfl⟩, ?_⟩
      cases item <;> exact since

/-- Every command keeps such a world and never turns the clock back. -/
theorem Command.apply_since (calm : Calm V limit w)
    (requests : ∀ world request, V world → V (world.request request)) (reading : Nat)
    (command : Command) : Keeps (WorksSince V w reading) command.apply := by
  cases command with
  | reset => exact reset_since calm reading
  | advance remaining =>
    rintro m ⟨works, since⟩
    obtain ⟨works, accounts⟩ := metered calm m.core.totalCycles remaining m ⟨works, rfl⟩
    exact ⟨works, since.trans accounts.later⟩
  | run budget =>
    rintro m ⟨works, since⟩
    obtain ⟨works, accounts⟩ :=
      run_accounts calm (Nat.min_le_right budget counterMax) m.core.totalCycles m ⟨works, rfl⟩
    -- a budget beyond the range of the clock is cut to it
    have cut : Core.run budget m = Core.run (min budget counterMax) m := by
      unfold Core.run
      rw [run_min]
    show WorksSince V w reading (Core.run budget m).2
    rw [cut]
    exact ⟨works, since.trans accounts.later⟩
  | setLine line level =>
    rintro m ⟨⟨kept, wired⟩, since⟩
    exact ⟨⟨requests _ _ kept, wired⟩, since⟩
  | stateSet index value => exact stateSet_since calm reading index value

end Microboard.Core
