import Microboard.Proofs.Lines
import Microboard.Proofs.Slicing
import Microboard.Ucom4.Step

/-!
# uCOM-4 cores at rest

- **§1** Boundary actions, spelled out up to the point where the remaining budget is looked at.
- **§2** Held cores, on which an action only lets time pass and the timer run.
- **§3** Every action either pays no heed to the remaining budget or brings the core to rest.
-/

namespace Microboard.Ucom4

variable {σ : Type}

/-! ## §1 Boundary actions -/

/-- The machine without the bus cycles of its last action. -/
def unobserved (m : Machine State σ) : Machine State σ := ⟨{ m.core with bus := [] }, m.world⟩

/-- The machine once some cycles have passed. -/
def charged (w : Wiring σ) (cycles : Nat) (m : Machine State σ) : Machine State σ :=
  (charge w cycles m).2

theorem eval_begin (m : Machine State σ) :
    modifyStatus ({ · with bus := [] }) m = ((), unobserved m) := rfl

theorem eval_getState (m : Machine State σ) : getState m = (m.core, m) := rfl

theorem advance_eq (w : Wiring σ) (remaining : Nat) (m : Machine State σ) :
    advance w remaining m =
      match m.core.exec.latchedFault? with
      | some fault => (.error fault, unobserved m)
      | none =>
        match sampleReset w (unobserved m) with
        | (true, m) => (.ok (.idle (idleCycles remaining)), charged w (idleCycles remaining) m)
        | (false, m) =>
          match latchRequest w m with
          | (_, m) =>
            if interruptAllowed m.core then Prod.map .ok id (service w m)
            else runInstruction w m := by
  unfold advance
  rw [eval_bind, eval_bind, eval_begin, eval_getState]
  have exec : (unobserved m).core.exec = m.core.exec := rfl
  dsimp only
  rw [exec]
  cases m.core.exec.latchedFault? with
  | some fault => rfl
  | none =>
    dsimp only
    rw [eval_bind]
    obtain ⟨held, m₁⟩ := sampleReset w (unobserved m)
    cases held with
    | true => rfl
    | false =>
      show (latchRequest w >>= _) m₁ = _
      rw [eval_bind, eval_bind, eval_ite]
      rfl

theorem sampleReset_eq (w : Wiring σ) (m : Machine State σ) :
    sampleReset w m =
      match m.world.onLatch w.number (·.sample resetLine .level) with
      | (held, world) =>
        if held && !m.core.inReset then
          match reset w ⟨m.core, world⟩ with
          | (_, m) => (held, ⟨{ m.core with inReset := true, exec := .idle }, m.world⟩)
        else if !held && m.core.inReset then
          (held, ⟨{ m.core with inReset := false, exec := .fetching },
            world.record (.resetReleased w.name)⟩)
        else (held, ⟨m.core, world⟩) := by
  unfold sampleReset
  rw [eval_bind, eval_bind, eval_ite, eval_ite]
  rfl

/-- The clock and the timer once some cycles have passed. -/
theorem charged_eq (w : Wiring σ) (cycles : Nat) (m : Machine State σ) :
    charged w cycles m =
      match m.core.timer with
      | none => ⟨{ m.core with totalCycles := satAdd m.core.totalCycles cycles }, m.world⟩
      | some left =>
        if left ≤ cycles then
          ⟨{ m.core with
              totalCycles := satAdd m.core.totalCycles cycles
              timer := none
              regs := { m.core.regs with timerFlag := true } },
            m.world.record (.timerExpired w.name)⟩
        else
          ⟨{ m.core with
              totalCycles := satAdd m.core.totalCycles cycles
              timer := some (left - cycles) }, m.world⟩ := by
  unfold charged charge tickTimer
  rw [eval_bind, eval_bind]
  show ((match m.core.timer with
    | none => pure ()
    | some left => if left ≤ cycles then _ else _ : Exec σ Unit) _).2 = _
  cases m.core.timer with
  | none => rfl
  | some left =>
    dsimp only
    rw [eval_ite]
    split <;> rfl

/-! ## §2 Cores at rest -/

/-- Idle portions end with the budget. -/
def pace : Pace where
  portion := idleCycles
  whole remaining := remaining
  portion_pos remaining := by
    unfold idleCycles
    omega
  whole_zero := rfl
  whole_step remaining pos := by
    unfold idleCycles
    omega
  whole_cut first second := by omega

/-- The reset line holds the core, and the core has noticed. -/
structure Held (w : Wiring σ) (m : Machine State σ) : Prop where
  awake : m.core.exec.latchedFault? = none
  inReset : m.core.inReset = true
  reset : m.world.Shows w.number resetLine true

theorem Held.advance {w : Wiring σ} {m : Machine State σ} (held : Held w m) (remaining : Nat) :
    advance w remaining m =
      (.ok (.idle (idleCycles remaining)), charged w (idleCycles remaining) (unobserved m)) := by
  have sampled : sampleReset w (unobserved m) = (true, unobserved m) := by
    have same : (unobserved m).world.onLatch w.number (·.sample resetLine .level) =
        (true, m.world) := held.reset.sample
    have inReset : (unobserved m).core.inReset = true := held.inReset
    rw [sampleReset_eq, same, inReset]
    rfl
  rw [advance_eq, held.awake, sampled]

/-- Letting time pass changes clock, timer and log only. -/
theorem charged_held {w : Wiring σ} {m : Machine State σ} (held : Held w m) (cycles : Nat) :
    Held w (charged w cycles m) := by
  obtain ⟨awake, inReset, reset⟩ := held
  rw [charged_eq]
  cases m.core.timer with
  | none => exact ⟨awake, inReset, reset⟩
  | some left =>
    dsimp only
    split
    · exact ⟨awake, inReset, reset⟩
    · exact ⟨awake, inReset, reset⟩

/-- The timer expires once, however the time until then is divided. -/
theorem charged_charged (w : Wiring σ) (a b : Nat) (m : Machine State σ) :
    charged w b (charged w a m) = charged w (a + b) m := by
  rw [charged_eq w a, charged_eq w (a + b)]
  cases timer : m.core.timer with
  | none =>
    rw [charged_eq]
    dsimp only
    rw [timer, satAdd_satAdd]
  -- the timer expires in the first portion, in the second one, or in neither
  | some left =>
    dsimp only
    by_cases first : left ≤ a
    · have both : left ≤ a + b := by omega
      rw [if_pos first, if_pos both, charged_eq]
      dsimp only
      rw [satAdd_satAdd]
    · rw [if_neg first, charged_eq]
      dsimp only
      by_cases second : left - a ≤ b
      · have both : left ≤ a + b := by omega
        rw [if_pos second, if_pos both, satAdd_satAdd]
      · have both : ¬left ≤ a + b := by omega
        rw [if_neg second, if_neg both, satAdd_satAdd, Nat.sub_sub]

theorem unobserved_charged (w : Wiring σ) (cycles : Nat) (m : Machine State σ) :
    unobserved (charged w cycles m) = charged w cycles (unobserved m) := by
  rw [charged_eq, charged_eq]
  show _ = match m.core.timer with | none => _ | some left => if left ≤ cycles then _ else _
  cases m.core.timer with
  | none => rfl
  | some left =>
    dsimp only
    split <;> rfl

/-- A core that is held stays so while time passes. -/
theorem restful (w : Wiring σ) : Restful (advance w) unobserved pace (charged w) (Held w) where
  idles held remaining := held.advance remaining
  rest_charge cycles held := charged_held held cycles
  rest_clear held := ⟨held.awake, held.inReset, held.reset⟩
  charge_charge := charged_charged w
  clear_charge := unobserved_charged w
  clear_clear _ := rfl

/-! ## §3 Coming to rest -/

/-- Driving a port of a core with such I/O keeps what the reset line shows. -/
theorem output_shows {w : Wiring σ}
    (spares : ∀ address value, (w.io.writeUnit address value).Spares w.number resetLine)
    (active : Bool) (port value : UInt8) :
    Keeps (fun m => m.world.Shows w.number resetLine active) (output w port value) := by
  refine .ite (fun _ => ?_) fun _ => ?_
  · refine .bind (.bind ((spares _ _).keeps active) fun _ _ shows_ => shows_) fun _ => ?_
    exact fun _ shows_ => shows_
  · exact .bind (fun _ shows_ => shows_) fun _ _ shows_ => shows_

theorem clearPorts_shows {w : Wiring σ}
    (spares : ∀ address value, (w.io.writeUnit address value).Spares w.number resetLine)
    (active : Bool) (ports : List UInt8) :
    Keeps (fun m => m.world.Shows w.number resetLine active) (clearPorts w ports) := by
  induction ports with
  | nil => exact .pure ()
  | cons port ports ih =>
    exact .ite (fun _ => .bind (output_shows spares active port 0) fun _ => ih) fun _ => ih

/-- A core that is reset drives its ports at most. -/
theorem reset_shows {w : Wiring σ}
    (spares : ∀ address value, (w.io.writeUnit address value).Spares w.number resetLine)
    (active : Bool) :
    Keeps (fun m => m.world.Shows w.number resetLine active) (reset w) := by
  refine .bind (fun _ shows_ => shows_) fun _ => .bind (fun _ shows_ => shows_.discardEdges)
    fun _ => .bind (clearPorts_shows spares active _) fun _ => ?_
  exact fun _ shows_ => shows_

/-- What the core has noticed of its reset line once it has sampled it, and that sampling it does
not latch a fault. -/
theorem sampleReset_spec {w : Wiring σ} {m : Machine State σ}
    (spares : ∀ address value, (w.io.writeUnit address value).Spares w.number resetLine)
    (awake : m.core.exec.latchedFault? = none) :
    (sampleReset w m).2.core.exec.latchedFault? = none ∧
      (sampleReset w m).2.core.inReset = (sampleReset w m).1 ∧
      (sampleReset w m).2.world.Shows w.number resetLine (sampleReset w m).1 := by
  rw [sampleReset_eq]
  have shown := World.shows_sampled m.world w.number resetLine
  rcases sampled : m.world.onLatch w.number (·.sample resetLine .level) with ⟨held, world⟩
  rw [sampled] at shown
  -- the core enters reset, leaves it, or stays as it is
  cases held with
  | true =>
    cases entered : m.core.inReset with
    | false => exact ⟨rfl, rfl, reset_shows spares true ⟨m.core, world⟩ shown⟩
    | true => exact ⟨awake, entered, shown⟩
  | false =>
    cases entered : m.core.inReset with
    | false => exact ⟨awake, entered, shown⟩
    | true => exact ⟨rfl, rfl, shown⟩

/-- An action of the core either pays no heed to the remaining budget or lets time pass, and then
so do the following ones. -/
theorem heedless_or_dozes {w : Wiring σ}
    (spares : ∀ address value, (w.io.writeUnit address value).Spares w.number resetLine)
    (m : Machine State σ) :
    Heedless (tidied unobserved (advance w)) m ∨
      ∃ pace passed, Dozes (tidied unobserved (advance w)) pace passed m := by
  cases fault : m.core.exec.latchedFault? with
  | some _ =>
    left
    intro remaining remaining'
    unfold tidied
    rw [advance_eq, advance_eq, fault]
  | none =>
    have noticed := sampleReset_spec (m := unobserved m) spares fault
    rcases sampled : sampleReset w (unobserved m) with ⟨held, m₁⟩
    rw [sampled] at noticed
    obtain ⟨awake, inReset, reset⟩ := noticed
    cases held with
    | true =>
      refine .inr ⟨pace, _, (restful w).dozes ⟨awake, inReset, reset⟩ fun remaining => ?_⟩
      rw [advance_eq, fault, sampled]
      rfl
    | false =>
      left
      intro remaining remaining'
      unfold tidied
      rw [advance_eq, advance_eq, fault, sampled]

end Microboard.Ucom4
