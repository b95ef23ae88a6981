import Microboard.Proofs.Programs

/-!
# Sampling lines

- **§1** What sampling leaves of a latch, and latches on which it finds nothing to take.
- **§2** The latch of one core in its world.
- **§3** Accesses that leave a line of a core alone.
-/

namespace Microboard

/-! ## §1 One latch -/

namespace LineLatch

/-- A change that keeps a released line released changes the line that it is made on. -/
theorem state_update (latch : LineLatch) (line other : InputLine)
    {change : LineState → LineState} (released : change {} = {}) :
    (latch.update line change).state other =
      if other = line then change (latch.state other) else latch.state other := by
  unfold update state
  rw [List.getD_eq_getElem?_getD, List.getD_eq_getElem?_getD, List.getElem?_modify]
  by_cases same : other = line
  · subst same
    rw [if_pos rfl]
    cases latch.lines[other.toNat]? with
    -- a line that does not exist reads as released
    | none => exact released.symm
    | some held => simp only [if_true, Functor.map, Option.map_some, Option.getD_some]
  · have apart : line.toNat ≠ other.toNat := fun eq => same (UInt8.toNat_inj.mp eq.symm)
    rw [if_neg same]
    simp only [apart, if_false, id_map']

/-- There is nothing to change on a latch without lines. -/
theorem update_empty (line : InputLine) (change : LineState → LineState) :
    ({} : LineLatch).update line change = {} := by
  unfold update
  rw [List.modify_nil]

/-- Sampling takes the latched edge in either mode. -/
@[simp]
theorem sample_snd (latch : LineLatch) (line : InputLine) (trigger : Trigger) :
    (latch.sample line trigger).2 = latch.update line LineState.withoutEdge := by
  cases trigger <;> rfl

@[simp]
theorem level_update_withoutEdge (latch : LineLatch) (line other : InputLine) :
    (latch.update line LineState.withoutEdge).level other = latch.level other := by
  unfold level
  rw [state_update _ _ _ rfl]
  split <;> rfl

@[simp]
theorem hasEdge_update_withoutEdge (latch : LineLatch) (line other : InputLine) :
    (latch.update line LineState.withoutEdge).hasEdge other =
      if other = line then false else latch.hasEdge other := by
  unfold hasEdge
  rw [state_update _ _ _ rfl]
  split <;> rfl

/-- A level line is answered by its level, an edge line by its edge. -/
theorem sample_fst (latch : LineLatch) (line : InputLine) (trigger : Trigger) :
    (latch.sample line trigger).1 =
      match trigger with
      | .edge => latch.hasEdge line
      | .level => (latch.level line).isActive := by
  cases trigger with
  | edge => rfl
  | level =>
    show ((latch.update line LineState.withoutEdge).level line).isActive = _
    simp

/-- Dropping an edge that is not there changes nothing. -/
theorem update_withoutEdge (latch : LineLatch) (line : InputLine)
    (settled : latch.hasEdge line = false) :
    latch.update line LineState.withoutEdge = latch := by
  obtain ⟨lines⟩ := latch
  simp only [update, LineLatch.mk.injEq]
  apply List.ext_getElem?
  intro i
  rw [List.getElem?_modify]
  by_cases same : line.toNat = i
  · subst same
    simp only [hasEdge, state, List.getD_eq_getElem?_getD] at settled
    cases held : lines[line.toNat]? with
    | none => rfl
    | some line =>
      -- the edge is clear already, so clearing it gives the line back
      obtain ⟨level, edge⟩ := line
      rw [held, Option.getD_some] at settled
      subst settled
      simp only [if_true, Functor.map, Option.map_some]
      rfl
  · simp only [same, if_false, id_map']

theorem sample_settled (latch : LineLatch) (line : InputLine) (trigger : Trigger)
    (settled : latch.hasEdge line = false) : (latch.sample line trigger).2 = latch := by
  rw [sample_snd, update_withoutEdge latch line settled]

@[simp]
theorem state_discardEdges (latch : LineLatch) (line : InputLine) :
    latch.discardEdges.state line = (latch.state line).withoutEdge := by
  unfold discardEdges state
  rw [List.getD_eq_getElem?_getD, List.getD_eq_getElem?_getD, List.getElem?_map]
  cases latch.lines[line.toNat]? with
  | none => rfl
  | some held => rfl

end LineLatch

/-! ## §2 The latch of one core -/

namespace World

variable {σ α : Type}

/-- What an action says of every latch that it works on, and of a core that is not there, it says
of the latch of the core. -/
theorem latch_onLatch {Q : LineLatch → LineLatch → Prop} {act : LineLatch → α × LineLatch}
    (absent : Q {} {}) (acts : ∀ latch, Q latch (act latch).2) (world : World σ) (core : Nat) :
    Q (world.lines.latch core) ((world.onLatch core act).2.lines.latch core) := by
  obtain ⟨devices, ⟨latches⟩, log⟩ := world
  simp only [onLatch, LineBank.latch, LineBank.update, List.getD_eq_getElem?_getD,
    List.getElem?_modify, if_true]
  cases held : latches[core]? with
  | none => exact absent
  | some latch => exact acts latch

/-- The latch of the core is what the action leaves, if it leaves nothing of a core that is not
there. -/
theorem latch_onLatch_eq (act : LineLatch → α × LineLatch) (absent : (act {}).2 = {})
    (world : World σ) (core : Nat) :
    (world.onLatch core act).2.lines.latch core = (act (world.lines.latch core)).2 :=
  latch_onLatch (Q := fun before after => after = (act before).2) absent.symm (fun _ => rfl) world
    core

/-- An action that leaves the latch of the core as it is leaves the world as it is. -/
theorem onLatch_same {act : LineLatch → α × LineLatch} (world : World σ) (core : Nat)
    (same : (act (world.lines.latch core)).2 = world.lines.latch core) :
    world.onLatch core act = ((act (world.lines.latch core)).1, world) := by
  obtain ⟨devices, ⟨latches⟩, log⟩ := world
  -- writing back what was read changes nothing, nor does writing where there is no latch
  have kept : (LineBank.mk latches).update core (fun _ => (LineBank.mk latches).latch core) =
      ⟨latches⟩ := by
    simp only [LineBank.update, LineBank.latch, LineBank.mk.injEq]
    apply List.ext_getElem?
    intro i
    rw [List.getElem?_modify, List.getD_eq_getElem?_getD]
    by_cases here : core = i
    · subst here
      cases latches[core]? <;> simp
    · simp only [here, if_false, id_map']
  simp only [onLatch]
  rw [same, kept]

theorem onLatch_fst (act : LineLatch → α × LineLatch) (world : World σ) (core : Nat) :
    (world.onLatch core act).1 = (act (world.lines.latch core)).1 := rfl

theorem latch_acknowledged (world : World σ) (core : Nat) (line : InputLine) :
    (world.onLatch core fun latch => ((), latch.acknowledge line)).2.lines.latch core =
      (world.lines.latch core).acknowledge line :=
  latch_onLatch_eq (fun latch => ((), latch.acknowledge line)) (LineLatch.update_empty ..) world
    core

/-- A look at a level line finds its level, and touches no device. -/
theorem looked (world : World σ) (core : Nat) (line : InputLine) :
    (world.onLatch core (·.sample line .level)).1 =
        ((world.lines.latch core).level line).isActive ∧
      (world.onLatch core (·.sample line .level)).2.devices = world.devices ∧
      (world.onLatch core (·.sample line .level)).2.lines.latch core =
        ((world.lines.latch core).sample line .level).2 := by
  refine ⟨?_, rfl, latch_onLatch_eq (·.sample line .level) (LineLatch.update_empty ..) world core⟩
  rw [onLatch_fst, LineLatch.sample_fst]

/-- A line of the core that is active or not and holds no edge. -/
def Shows (world : World σ) (core : Nat) (line : InputLine) (active : Bool) : Prop :=
  ((world.lines.latch core).level line).isActive = active ∧
    (world.lines.latch core).hasEdge line = false

/-- Sampling a level line leaves it without an edge and answers what it shows. -/
theorem shows_sampled (world : World σ) (core : Nat) (line : InputLine) :
    (world.onLatch core (·.sample line .level)).2.Shows core line
      (world.onLatch core (·.sample line .level)).1 := by
  rw [onLatch_fst, LineLatch.sample_fst]
  -- a core without a latch reads a released line, so it needs no case of its own
  refine latch_onLatch (Q := fun before after => (after.level line).isActive =
    (before.level line).isActive ∧ after.hasEdge line = false) ⟨rfl, rfl⟩ ?_ world core
  intro latch
  constructor
  · simp
  · simp

/-- Sampling a level line that holds no edge changes nothing. -/
theorem Shows.sample {world : World σ} {core : Nat} {line : InputLine} {active : Bool}
    (shows_ : world.Shows core line active) :
    world.onLatch core (·.sample line .level) = (active, world) := by
  rw [onLatch_same world core (LineLatch.sample_settled _ line .level shows_.2),
    LineLatch.sample_fst, ← shows_.1]

/-- A line shows the same once an access has left it alone. -/
theorem Shows.of_state {world world' : World σ} {core : Nat} {line : InputLine} {active : Bool}
    (shows_ : world.Shows core line active)
    (same : (world'.lines.latch core).state line = (world.lines.latch core).state line) :
    world'.Shows core line active := by
  unfold Shows LineLatch.level LineLatch.hasEdge at *
  rw [same]
  exact shows_

/-- An action that keeps the level of a line and latches no edge on it keeps what it shows. -/
theorem Shows.onLatch {world : World σ} {core : Nat} {line : InputLine} {active : Bool}
    (shows_ : world.Shows core line active) {act : LineLatch → α × LineLatch}
    (keeps : ∀ latch, (act latch).2.level line = latch.level line ∧
      (latch.hasEdge line = false → (act latch).2.hasEdge line = false)) :
    (world.onLatch core act).2.Shows core line active := by
  obtain ⟨level, edge⟩ := latch_onLatch (Q := fun before after =>
    after.level line = before.level line ∧
      (before.hasEdge line = false → after.hasEdge line = false))
    ⟨rfl, fun _ => rfl⟩ keeps world core
  exact ⟨(congrArg LineLevel.isActive level).trans shows_.1, edge shows_.2⟩

/-- Dropping all edges does not change what a line shows. -/
theorem Shows.discardEdges {world : World σ} {core : Nat} {line : InputLine} {active : Bool}
    (shows_ : world.Shows core line active) :
    (world.onLatch core fun latch => ((), latch.discardEdges)).2.Shows core line active := by
  refine shows_.onLatch fun latch => ?_
  constructor
  · simp [LineLatch.level, LineState.withoutEdge]
  · simp [LineLatch.hasEdge, LineState.withoutEdge]

end World

/-! ## §3 Accesses and lines -/

/-- The access leaves a line of a core as it is. -/
def Access.Spares {σ α : Type} (core : Nat) (line : InputLine) (access : Access σ α) : Prop :=
  ∀ world : World σ, ((World.perform access world).2.lines.latch core).state line =
    (world.lines.latch core).state line

/-- Such an access keeps what the line shows. -/
theorem Access.Spares.keeps {κ σ α : Type} {core : Nat} {line : InputLine} {access : Access σ α}
    (spares : access.Spares core line) (active : Bool) :
    Keeps (fun m : Machine κ σ => m.world.Shows core line active)
      (Machine.onWorld (World.perform access)) :=
  fun m shows_ => shows_.of_state (spares m.world)

/-- An access that requests no level leaves every line alone. -/
theorem Access.spares_of_requests {σ α : Type} {core : Nat} {line : InputLine}
    {access : Access σ α} (silent : ∀ devices, (access devices).requests = []) :
    access.Spares core line := by
  intro world
  simp only [World.perform, silent, LineBank.deliver, List.foldl_nil]

end Microboard
