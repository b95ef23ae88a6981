import Microboard.Proofs.Lines
import Microboard.Proofs.Slicing
import Microboard.Sm83.Step

/-!
# SM83 cores at rest

- **§1** Request lines without edges.
- **§2** Boundary actions, spelled out up to the point where the remaining budget is looked at.
- **§3** Held and sleeping cores, on which an action only lets time pass.
- **§4** Every action either pays no heed to the remaining budget or brings the core to rest.
-/

namespace Microboard.Sm83

variable {σ : Type}

/-! ## §1 Request lines -/

theorem level_takeEdges (latch : LineLatch) (taken : List InputLine) (line : InputLine) :
    (takeEdges latch taken).2.level line = latch.level line := by
  induction taken generalizing latch with
  | nil => rfl
  | cons first rest ih =>
    show (takeEdges (latch.sample first .edge).2 rest).2.level line = _
    rw [ih, LineLatch.sample_snd, LineLatch.level_update_withoutEdge]

theorem hasEdge_takeEdges (latch : LineLatch) (taken : List InputLine) (line : InputLine) :
    (takeEdges latch taken).2.hasEdge line =
      if line ∈ taken then false else latch.hasEdge line := by
  induction taken generalizing latch with
  | nil => rfl
  | cons first rest ih =>
    show (takeEdges (latch.sample first .edge).2 rest).2.hasEdge line = _
    rw [ih, LineLatch.sample_snd, LineLatch.hasEdge_update_withoutEdge]
    by_cases later : line ∈ rest
    · rw [if_pos later, if_pos (List.mem_cons_of_mem _ later)]
    · by_cases now : line = first
      · rw [if_neg later, if_pos now, if_pos (now ▸ List.mem_cons_self)]
      · rw [if_neg later, if_neg now, if_neg]
        rw [List.mem_cons, not_or]
        exact ⟨now, later⟩

/-- Lines without edges have none to take. -/
theorem takeEdges_settled (latch : LineLatch) (taken : List InputLine)
    (settled : ∀ line ∈ taken, latch.hasEdge line = false) :
    takeEdges latch taken = (0, latch) := by
  induction taken with
  | nil => rfl
  | cons first rest ih =>
    have here := settled first List.mem_cons_self
    have sampled : latch.sample first .edge = (false, latch) :=
      Prod.ext here (LineLatch.sample_settled latch first .edge here)
    unfold takeEdges
    rw [sampled]
    dsimp only
    rw [ih fun line later => settled line (List.mem_cons_of_mem _ later)]
    rfl

/-! ## §2 Boundary actions -/

/-- The machine without the bus cycles of its last action. -/
def unobserved (m : Machine State σ) : Machine State σ := ⟨{ m.core with bus := [] }, m.world⟩

/-- The machine with some cycles more on its clock. -/
def charged (cycles : Nat) (m : Machine State σ) : Machine State σ :=
  ⟨{ m.core with totalCycles := satAdd m.core.totalCycles cycles }, m.world⟩

theorem eval_begin (m : Machine State σ) :
    modifyStatus ({ · with bus := [] }) m = ((), unobserved m) := rfl

theorem eval_getState (m : Machine State σ) : getState m = (m.core, m) := rfl

theorem advance_eq (w : Wiring σ) (remaining : Nat) (m : Machine State σ) :
    advance w remaining m =
      match m.core.exec.latchedFault? with
      | some fault => (.error fault, unobserved m)
      | none =>
        match sampleReset w (unobserved m) with
        | (true, m) => (.ok (.idle (idleCycles remaining)), charged (idleCycles remaining) m)
        | (false, m) =>
          match latchRequests w m with
          | (raised, m) =>
            if m.core.exec = .halted then Prod.map .ok id (stayHalted w remaining raised m)
            else runBoundary w m := by
  unfold advance
  rw [eval_bind, eval_bind, eval_begin, eval_getState]
  have exec : (unobserved m).core.exec = m.core.exec := rfl
  dsimp only
  rw [exec]
  cases m.core.exec.latchedFault? with
  | some fault => rfl
  | none =>
    dsimp only
    rw [eval_bind]
    obtain ⟨held, m₁⟩ := sampleReset w (unobserved m)
    cases held with
    | true => rfl
    | false =>
      show (latchRequests w >>= _) m₁ = _
      rw [eval_bind, eval_bind, eval_ite]
      rfl

theorem stayHalted_eq (w : Wiring σ) (remaining : Nat) (raised : UInt8) (m : Machine State σ) :
    stayHalted w remaining raised m =
      if wakes m.core raised then (.idle wakeCycles, charged wakeCycles (wake w m).2)
      else (.idle (idleCycles remaining), charged (idleCycles remaining) m) := by
  unfold stayHalted
  rw [eval_bind, eval_ite]
  rfl

theorem sampleReset_eq (w : Wiring σ) (m : Machine State σ) :
    sampleReset w m =
      match m.world.onLatch w.number (·.sample resetLine .level) with
      | (held, world) =>
        if held && !m.core.inReset then
          match reset w ⟨m.core, world⟩ with
          | (_, m) => (held, ⟨{ m.core with inReset := true, exec := .idle }, m.world⟩)
        else if !held && m.core.inReset then
          (held, ⟨{ m.core with inReset := false, exec := .fetching },
            world.record (.resetReleased name)⟩)
        else (held, ⟨m.core, world⟩) := by
  unfold sampleReset
  rw [eval_bind, eval_bind, eval_ite, eval_ite]
  rfl

theorem latchRequests_eq (w : Wiring σ) (m : Machine State σ) :
    latchRequests w m =
      ((m.world.onLatch w.number (takeEdges · requestLines)).1,
        ⟨{ m.core with
            regs := { m.core.regs with
              iflag := m.core.regs.iflag |||
                (m.world.onLatch w.number (takeEdges · requestLines)).1 } },
          (m.world.onLatch w.number (takeEdges · requestLines)).2⟩) := rfl

/-! ## §3 Cores at rest -/

/-- Idle portions are whole machine cycles, and so is what they add up to. -/
def pace : Pace where
  portion := idleCycles
  whole remaining := 4 * ((remaining + 3) / 4)
  portion_pos remaining := by
    unfold idleCycles
    omega
  whole_zero := rfl
  whole_step remaining pos := by
    unfold idleCycles
    omega
  whole_cut first second := by omega

/-- The reset line holds the core, and the core has noticed. -/
structure Held (w : Wiring σ) (m : Machine State σ) : Prop where
  awake : m.core.exec.latchedFault? = none
  inReset : m.core.inReset = true
  reset : m.world.Shows w.number resetLine true

/-- The core is halted and nothing is there to wake it. -/
structure Asleep (w : Wiring σ) (m : Machine State σ) : Prop where
  halted : m.core.exec = .halted
  inReset : m.core.inReset = false
  reset : m.world.Shows w.number resetLine false
  settled : ∀ line ∈ requestLines, (m.world.lines.latch w.number).hasEdge line = false
  undisturbed : wakes m.core 0 = false

/-- A core whose reset line shows what it showed before samples it without effect. -/
theorem sampleReset_settled {w : Wiring σ} {m : Machine State σ} {active : Bool}
    (shows_ : m.world.Shows w.number resetLine active) (same : m.core.inReset = active) :
    sampleReset w m = (active, m) := by
  rw [sampleReset_eq, shows_.sample, same]
  cases active <;> rfl

/-- Request lines without edges are latched without effect. -/
theorem latchRequests_settled {w : Wiring σ} {m : Machine State σ}
    (settled : ∀ line ∈ requestLines, (m.world.lines.latch w.number).hasEdge line = false) :
    latchRequests w m = (0, m) := by
  -- no edge is taken, so `IF` gains nothing and the latch stays as it is
  have taken := takeEdges_settled _ requestLines settled
  have same : m.world.onLatch w.number (takeEdges · requestLines) = (0, m.world) := by
    rw [World.onLatch_same _ _ (by rw [taken]), taken]
  rw [latchRequests_eq, same]
  dsimp only
  rw [UInt8.or_zero]

theorem Held.advance {w : Wiring σ} {m : Machine State σ} (held : Held w m) (remaining : Nat) :
    advance w remaining m =
      (.ok (.idle (idleCycles remaining)), charged (idleCycles remaining) (unobserved m)) := by
  have sampled : sampleReset w (unobserved m) = (true, unobserved m) :=
    sampleReset_settled held.reset held.inReset
  rw [advance_eq, held.awake, sampled]

theorem Asleep.advance {w : Wiring σ} {m : Machine State σ} (asleep : Asleep w m)
    (remaining : Nat) :
    advance w remaining m =
      (.ok (.idle (idleCycles remaining)), charged (idleCycles remaining) (unobserved m)) := by
  have awake : m.core.exec.latchedFault? = none := by rw [asleep.halted]; rfl
  have sampled : sampleReset w (unobserved m) = (false, unobserved m) :=
    sampleReset_settled asleep.reset asleep.inReset
  have latched : latchRequests w (unobserved m) = (0, unobserved m) :=
    latchRequests_settled asleep.settled
  have halted : (unobserved m).core.exec = .halted := asleep.halted
  have undisturbed : wakes (unobserved m).core 0 = false := asleep.undisturbed
  rw [advance_eq, awake, sampled]
  dsimp only
  rw [latched]
  dsimp only
  rw [if_pos halted, stayHalted_eq, undisturbed]
  rfl

/-- A core that is held or asleep stays so while time passes. -/
theorem restful (w : Wiring σ) :
    Restful (advance w) unobserved pace charged fun m => Held w m ∨ Asleep w m where
  idles rest remaining := by
    rcases rest with held | asleep
    · exact held.advance remaining
    · exact asleep.advance remaining
  rest_charge _ rest := by
    rcases rest with ⟨awake, inReset, reset⟩ | ⟨halted, inReset, reset, settled, undisturbed⟩
    · exact .inl ⟨awake, inReset, reset⟩
    · exact .inr ⟨halted, inReset, reset, settled, undisturbed⟩
  rest_clear rest := by
    rcases rest with ⟨awake, inReset, reset⟩ | ⟨halted, inReset, reset, settled, undisturbed⟩
    · exact .inl ⟨awake, inReset, reset⟩
    · exact .inr ⟨halted, inReset, reset, settled, undisturbed⟩
  charge_charge a b m := by
    unfold charged
    rw [satAdd_satAdd]
  clear_charge _ _ := rfl
  clear_clear _ := rfl

/-! ## §4 Coming to rest -/

/-- A core that is reset drives its output lines at most. -/
theorem reset_shows {w : Wiring σ}
    (spares : ∀ line asserted, (w.sink line asserted).Spares w.number resetLine) (active : Bool) :
    Keeps (fun m => m.world.Shows w.number resetLine active) (reset w) := by
  refine .bind (fun _ shows_ => shows_) fun s => .whenFirst ?_ ?_
  · exact .bind (fun _ shows_ => shows_) fun _ => (spares haltOut false).keeps active
  · refine .bind (fun _ shows_ => shows_) fun _ => .bind (fun _ shows_ => shows_.discardEdges) ?_
    exact fun _ _ shows_ => shows_

/-- What the core has noticed of its reset line once it has sampled it, and that sampling it does
not latch a fault. -/
theorem sampleReset_spec {w : Wiring σ} {m : Machine State σ}
    (spares : ∀ line asserted, (w.sink line asserted).Spares w.number resetLine)
    (awake : m.core.exec.latchedFault? = none) :
    (sampleReset w m).2.core.exec.latchedFault? = none ∧
      (sampleReset w m).2.core.inReset = (sampleReset w m).1 ∧
      (sampleReset w m).2.world.Shows w.number resetLine (sampleReset w m).1 := by
  rw [sampleReset_eq]
  have shown := World.shows_sampled m.world w.number resetLine
  rcases sampled : m.world.onLatch w.number (·.sample resetLine .level) with ⟨held, world⟩
  rw [sampled] at shown
  -- the core enters reset, leaves it, or stays as it is
  cases held with
  | true =>
    cases entered : m.core.inReset with
    | false => exact ⟨rfl, rfl, reset_shows spares true ⟨m.core, world⟩ shown⟩
    | true => exact ⟨awake, entered, shown⟩
  | false =>
    cases entered : m.core.inReset with
    | false => exact ⟨awake, entered, shown⟩
    | true => exact ⟨rfl, rfl, shown⟩

/-- Once its requests are latched, a core that was released is asleep if it is halted and does not
wake. -/
theorem asleep_of_latchRequests {w : Wiring σ} {m m₂ : Machine State σ} {raised : UInt8}
    (inReset : m.core.inReset = false) (released : m.world.Shows w.number resetLine false)
    (latched : latchRequests w m = (raised, m₂)) (halted : m₂.core.exec = .halted)
    (undisturbed : wakes m₂.core raised = false) : Asleep w m₂ := by
  rw [latchRequests_eq] at latched
  obtain ⟨rfl, rfl⟩ := Prod.mk.inj latched
  refine ⟨halted, inReset, ?reset, ?settled, ?wake⟩
  case reset =>
    show (m.world.onLatch w.number (takeEdges · requestLines)).2.Shows w.number resetLine false
    refine released.onLatch fun latch => ?_
    rw [level_takeEdges, hasEdge_takeEdges]
    exact ⟨rfl, fun clear => clear⟩
  case settled =>
    show ∀ line ∈ requestLines, ((m.world.onLatch w.number
      (takeEdges · requestLines)).2.lines.latch w.number).hasEdge line = false
    refine World.latch_onLatch (Q := fun _ after => ∀ line ∈ requestLines,
      after.hasEdge line = false) (fun _ _ => rfl) ?_ m.world w.number
    intro latch line requested
    rw [hasEdge_takeEdges, if_pos requested]
  case wake =>
    -- without fresh edges a stopped core has nothing to wake it, and any other looks at `IF` alone
    unfold wakes at undisturbed ⊢
    by_cases stopped : m.core.stopped
    · rw [if_pos stopped, UInt8.zero_and]
      rfl
    · rw [if_neg stopped] at undisturbed ⊢
      exact undisturbed

/-- An action of the core either pays no heed to the remaining budget or lets time pass, and then
so do the following ones. -/
theorem heedless_or_dozes {w : Wiring σ}
    (spares : ∀ line asserted, (w.sink line asserted).Spares w.number resetLine)
    (m : Machine State σ) :
    Heedless (tidied unobserved (advance w)) m ∨
      ∃ pace passed, Dozes (tidied unobserved (advance w)) pace passed m := by
  cases fault : m.core.exec.latchedFault? with
  | some _ =>
    left
    intro remaining remaining'
    unfold tidied
    rw [advance_eq, advance_eq, fault]
  | none =>
    have noticed := sampleReset_spec (m := unobserved m) spares fault
    rcases sampled : sampleReset w (unobserved m) with ⟨held, m₁⟩
    rw [sampled] at noticed
    obtain ⟨awake, inReset, reset⟩ := noticed
    cases held with
    | true =>
      refine .inr ⟨pace, _, (restful w).dozes (.inl ⟨awake, inReset, reset⟩) fun remaining => ?_⟩
      rw [advance_eq, fault, sampled]
      rfl
    | false =>
      rcases latched : latchRequests w m₁ with ⟨raised, m₂⟩
      -- only a halted core that nothing wakes looks at the remaining budget
      by_cases asleep : m₂.core.exec = .halted ∧ wakes m₂.core raised = false
      · obtain ⟨halted, undisturbed⟩ := asleep
        have rest := asleep_of_latchRequests inReset reset latched halted undisturbed
        refine .inr ⟨pace, _, (restful w).dozes (.inr rest) fun remaining => ?_⟩
        rw [advance_eq, fault, sampled]
        dsimp only
        rw [latched]
        dsimp only
        rw [if_pos halted, stayHalted_eq, undisturbed]
        rfl
      · left
        intro remaining remaining'
        unfold tidied
        rw [advance_eq, advance_eq, fault, sampled]
        dsimp only
        rw [latched]
        dsimp only
        by_cases halted : m₂.core.exec = .halted
        · have disturbed : wakes m₂.core raised = true := by
            rw [← Bool.not_eq_false]
            exact fun undisturbed => asleep ⟨halted, undisturbed⟩
          rw [if_pos halted, if_pos halted, stayHalted_eq, stayHalted_eq, disturbed]
          rfl
        · rw [if_neg halted, if_neg halted]

end Microboard.Sm83
