import Microboard.Proofs.CoreCycles
import Microboard.Proofs.Sm83.Ledger
import Microboard.Proofs.Ucom4.Ledger

/-!
# What the actions of a core are billed

- **§1** What a core charges, and the seats behind its buses.
- **§2** Every action is billed, and a reset leaves nothing behind that was not there.
-/

namespace Microboard.Core

variable {σ : Type} {meter : Meter σ} {seating : Seating}

/-! ## §1 Bills and seats -/

/-- What a core in its present state charges. -/
def bill : Core σ → Bill
  | sm83 _ s => Sm83.bill s.regs
  | ucom4 w s => Ucom4.bill w.geometry.family s.skip

/-- The spaces of a core have their seats. -/
def Seated (meter : Meter σ) (seating : Seating) : Wiring σ → Prop
  | .inl w => w.Metered meter seating
  | .inr w => w.Metered meter seating

/-! ## §2 Actions and resets -/

@[simp]
theorem wiring_advance (remaining : Nat) (m : Machine (Core σ) σ) :
    (advance remaining m).2.core.wiring = m.core.wiring := by
  obtain ⟨core, world⟩ := m
  cases core <;> rfl

@[simp]
theorem wiring_reset (m : Machine (Core σ) σ) : (reset m).2.core.wiring = m.core.wiring := by
  obtain ⟨core, world⟩ := m
  cases core <;> rfl

/-- Every action of a core is billed. -/
theorem advance_billed {m : Machine (Core σ) σ} (seated : Seated meter seating m.core.wiring)
    (fits : meter.fits m.world.devices) (remaining : Nat) :
    meter.Answers seating m.core.bill (meter.pending · m.world.devices) m.core.status.tally
      m.core.status.inReset (advance remaining m).1 (advance remaining m).2.core.status
      (advance remaining m).2.world.devices := by
  obtain ⟨core, world⟩ := m
  cases core with
  | sm83 w s => exact Sm83.advance_paid seated remaining ⟨s, world⟩ fits
  | ucom4 w s => exact Ucom4.advance_paid seated remaining ⟨s, world⟩ fits

/-- A reset leaves no more pending at any seat than there was. -/
theorem reset_settled {m : Machine (Core σ) σ} (seated : Seated meter seating m.core.wiring)
    (fits : meter.fits m.world.devices) :
    meter.Settled (meter.pending · m.world.devices) (reset m).2.world.devices := by
  obtain ⟨core, world⟩ := m
  have start : meter.Settled (meter.pending · world.devices) world.devices :=
    ⟨fits, fun _ => Nat.le_refl _⟩
  cases core with
  | sm83 w s => exact (Sm83.reset_settled seated s.totalCycles ⟨s, world⟩ ⟨start, rfl⟩).1
  | ucom4 w s => exact (Ucom4.reset_settled seated s.totalCycles ⟨s, world⟩ ⟨start, rfl⟩).1

end Microboard.Core
