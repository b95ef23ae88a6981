import Microboard.Proofs.Accesses
import Microboard.Proofs.Accounting
import Microboard.Proofs.Lines

/-!
# Requests

What levels are requested of a core during an action is nowhere kept: the latch remembers the last
level of a line and whether an edge waits on it. To speak of the requests themselves, a core is
given surroundings that do the same and take note of what they request.

- **§1** A latch of which levels are requested, one after the other.
- **§2** Accesses that are overheard, and that they do the same.
- **§3** What is overheard accounts for the latch.
-/

namespace Microboard

variable {σ α : Type}

/-! ## §1 Requests of one latch -/

namespace LineLatch

theorem setAll_append (latch : LineLatch) (earlier later : List (InputLine × LineLevel)) :
    latch.setAll (earlier ++ later) = (latch.setAll earlier).setAll later :=
  List.foldl_append ..

/-- A latch without lines keeps nothing. -/
theorem setAll_empty (requests : List (InputLine × LineLevel)) :
    ({} : LineLatch).setAll requests = {} := by
  induction requests with
  | nil => rfl
  | cons r requests ih =>
    show (({} : LineLatch).set r.1 r.2).setAll requests = {}
    unfold set
    rw [update_empty, ih]

theorem has_update (latch : LineLatch) (line other : InputLine) (change : LineState → LineState) :
    (latch.update line change).has other = latch.has other := by
  unfold has size update
  rw [List.length_modify]

/-- A request reaches the line that it names, if the latch has one. -/
theorem state_set (latch : LineLatch) (line other : InputLine) (level : LineLevel) :
    (latch.set line level).state other =
      if other = line ∧ latch.has line then (latch.state other).request level
      else latch.state other := by
  unfold set update state has size
  rw [List.getD_eq_getElem?_getD, List.getD_eq_getElem?_getD, List.getElem?_modify]
  by_cases same : other = line
  · subst same
    by_cases there : other.toNat < latch.lines.length
    · rw [if_pos ⟨rfl, by simpa using there⟩, List.getElem?_eq_getElem there]
      simp only [if_true, Functor.map, Option.map_some, Option.getD_some]
    · rw [if_neg (by simpa using there), List.getElem?_eq_none (by omega)]
      rfl
  · have apart : line.toNat ≠ other.toNat := fun eq => same (UInt8.toNat_inj.mp eq.symm)
    rw [if_neg fun both => same both.1]
    simp only [apart, if_false, id_map']

/-- Some request finds the line inactive and makes it active. -/
def Raised (latch : LineLatch) (requests : List (InputLine × LineLevel)) (line : InputLine) :
    Prop :=
  latch.has line = true ∧ ∃ earlier level later, requests = earlier ++ (line, level) :: later ∧
    ((latch.setAll earlier).level line).isActive = false ∧ level.isActive = true

theorem not_raised_nil (latch : LineLatch) (line : InputLine) : ¬latch.Raised [] line := by
  rintro ⟨-, earlier, level, later, split, -⟩
  cases earlier <;> cases split

/-- The first request raises the line, or one of those after it does. -/
theorem raised_cons (latch : LineLatch) (first : InputLine × LineLevel)
    (rest : List (InputLine × LineLevel)) (line : InputLine) :
    latch.Raised (first :: rest) line ↔
      (latch.has line = true ∧ first.1 = line ∧ (latch.level line).isActive = false ∧
        first.2.isActive = true) ∨ (latch.set first.1 first.2).Raised rest line := by
  have there : (latch.set first.1 first.2).has line = latch.has line := has_update ..
  constructor
  · rintro ⟨has, earlier, level, later, split, rises⟩
    cases earlier with
    | nil =>
      obtain ⟨rfl, rfl⟩ := List.cons.inj split
      exact .inl ⟨has, rfl, rises⟩
    | cons r earlier =>
      obtain ⟨rfl, rfl⟩ := List.cons.inj split
      exact .inr ⟨there.trans has, earlier, level, later, rfl, rises⟩
  · rintro (⟨has, rfl, rises⟩ | ⟨has, earlier, level, later, rfl, rises⟩)
    · exact ⟨has, [], first.2, rest, rfl, rises⟩
    · exact ⟨there.symm.trans has, first :: earlier, level, later, rfl, rises⟩

/-- An edge waits on a line after some requests if one waited before them or one of them raised the
line. -/
theorem hasEdge_setAll (latch : LineLatch) (requests : List (InputLine × LineLevel))
    (line : InputLine) :
    (latch.setAll requests).hasEdge line = true ↔
      latch.hasEdge line = true ∨ latch.Raised requests line := by
  induction requests generalizing latch with
  | nil => exact ⟨.inl, fun edge => edge.resolve_right (not_raised_nil latch line)⟩
  | cons first rest ih =>
    have step : (latch.set first.1 first.2).hasEdge line = true ↔
        latch.hasEdge line = true ∨ (latch.has line = true ∧ first.1 = line ∧
          (latch.level line).isActive = false ∧ first.2.isActive = true) := by
      unfold hasEdge level
      rw [state_set]
      by_cases named : line = first.1 ∧ latch.has first.1 = true
      · obtain ⟨rfl, has⟩ := named
        rw [if_pos ⟨rfl, has⟩]
        unfold LineState.request
        simp only [Bool.or_eq_true, Bool.and_eq_true, Bool.not_eq_true', has, true_and]
      · rw [if_neg named]
        refine ⟨.inl, fun edge => edge.resolve_right ?_⟩
        rintro ⟨has, rfl, -⟩
        exact named ⟨rfl, has⟩
    show ((latch.set first.1 first.2).setAll rest).hasEdge line = true ↔ _
    rw [ih, step, raised_cons, or_assoc]

/-- The two latches have the same lines at the same levels. -/
def Level (a b : LineLatch) : Prop := ∀ line, a.level line = b.level line ∧ a.has line = b.has line

theorem Level.trans {a b c : LineLatch} (first : a.Level b) (second : b.Level c) : a.Level c :=
  fun line => ⟨(first line).1.trans (second line).1, (first line).2.trans (second line).2⟩

theorem Level.set {a b : LineLatch} (same : a.Level b) (line : InputLine) (level : LineLevel) :
    (a.set line level).Level (b.set line level) := by
  intro other
  refine ⟨?_, ?_⟩
  · have kept := (same other).1
    unfold LineLatch.level at kept ⊢
    rw [state_set, state_set, (same line).2]
    split
    · rfl
    · exact kept
  · exact (has_update ..).trans ((same other).2.trans (has_update ..).symm)

theorem Level.setAll {a b : LineLatch} (same : a.Level b)
    (requests : List (InputLine × LineLevel)) : (a.setAll requests).Level (b.setAll requests) := by
  induction requests generalizing a b with
  | nil => exact same
  | cons first rest ih => exact ih (same.set first.1 first.2)

/-- Sampling a line moves no level. -/
theorem level_sample (latch : LineLatch) (line : InputLine) (trigger : Trigger) :
    latch.Level (latch.sample line trigger).2 := by
  intro other
  rw [sample_snd, level_update_withoutEdge, has_update]
  exact ⟨rfl, rfl⟩

/-- Acknowledging a line touches no other. -/
theorem state_acknowledge (latch : LineLatch) (line other : InputLine) :
    (latch.acknowledge line).state other =
      if other = line then (latch.state other).acknowledged else latch.state other :=
  state_update latch line other rfl

/-- A held line that is acknowledged drops. -/
theorem level_acknowledge (latch : LineLatch) (line other : InputLine) :
    (latch.acknowledge line).level other =
      if other = line ∧ latch.level other = .hold then .clear else latch.level other := by
  unfold level
  rw [state_acknowledge]
  unfold LineState.acknowledged
  split
  next same =>
    split
    next held => rw [if_pos ⟨same, held⟩]
    next free => rw [if_neg fun both => free both.2]
  next apart => rw [if_neg fun both => apart both.1]

theorem hasEdge_acknowledge (latch : LineLatch) (line other : InputLine) :
    (latch.acknowledge line).hasEdge other = latch.hasEdge other := by
  unfold hasEdge
  rw [state_acknowledge]
  unfold LineState.acknowledged
  split
  · split <;> rfl
  · rfl

/-- The level that an acknowledged line drops to depends on its level. -/
theorem Level.acknowledge {a b : LineLatch} (same : a.Level b) (line : InputLine) :
    (a.acknowledge line).Level (b.acknowledge line) := by
  intro other
  refine ⟨?_, (has_update ..).trans ((same other).2.trans (has_update ..).symm)⟩
  have kept := (same other).1
  unfold level at kept ⊢
  rw [state_acknowledge, state_acknowledge]
  unfold LineState.acknowledged
  rw [kept]
  split
  · split
    · rfl
    · exact kept
  · exact kept

/-- Whether a line is raised depends on levels only. -/
theorem Level.raised {a b : LineLatch} (same : a.Level b)
    (requests : List (InputLine × LineLevel)) (line : InputLine) :
    a.Raised requests line ↔ b.Raised requests line := by
  unfold Raised
  rw [(same line).2]
  have before (earlier : List (InputLine × LineLevel)) :
      (a.setAll earlier).level line = (b.setAll earlier).level line := (same.setAll earlier line).1
  simp only [before]

/-- Requests on other lines leave a line as it is. -/
theorem state_setAll_other {latch : LineLatch} {requests : List (InputLine × LineLevel)}
    {line : InputLine} (others : ∀ r ∈ requests, r.1 ≠ line) :
    (latch.setAll requests).state line = latch.state line := by
  induction requests generalizing latch with
  | nil => rfl
  | cons first rest ih =>
    obtain ⟨other, others⟩ := List.forall_mem_cons.mp others
    have kept : (latch.set first.1 first.2).state line = latch.state line := by
      rw [state_set, if_neg fun named => other named.1.symm]
    exact (ih others).trans kept

/-- Requests that hold a line and ask nothing else of it come to one such request, or to none. -/
theorem state_setAll_hold {latch : LineLatch} {requests : List (InputLine × LineLevel)}
    {line : InputLine} (holds : ∀ r ∈ requests, r.1 = line → r.2 = .hold) :
    (latch.setAll requests).state line = latch.state line ∨
      (latch.setAll requests).state line = (latch.state line).request .hold := by
  induction requests generalizing latch with
  | nil => exact .inl rfl
  | cons first rest ih =>
    obtain ⟨here, later⟩ := List.forall_mem_cons.mp holds
    have step : (latch.set first.1 first.2).state line = latch.state line ∨
        (latch.set first.1 first.2).state line = (latch.state line).request .hold := by
      rw [state_set]
      split
      next named =>
        rw [here named.1.symm]
        exact .inr rfl
      · exact .inl rfl
    -- to hold a line twice is to hold it once
    have twice (state : LineState) : (state.request .hold).request .hold = state.request .hold := by
      obtain ⟨level, edge⟩ := state
      cases level <;> cases edge <;> rfl
    rcases @ih (latch.set first.1 first.2) later with same | held
    · exact step.imp same.trans same.trans
    · refine .inr (held.trans ?_)
      rcases step with same | same
      · rw [same]
      · rw [same, twice]

end LineLatch

/-! ## §2 Overhearing -/

/-- The access, with a note of what it requests. -/
def Access.overheard (access : Access σ α) : Access (σ × List LineRequest) α := fun noted =>
  match access noted.1 with
  | ⟨value, state, requests⟩ => ⟨value, (state, noted.2 ++ requests), requests⟩

/-- The space, with a note of what accesses through it request. -/
def Space.overheard (space : Space σ) : Space (σ × List LineRequest) where
  config := space.config
  read width address := (space.read width address).overheard
  write width address value := (space.write width address value).overheard
  takeWaitStates noted :=
    ((space.takeWaitStates noted.1).1, ((space.takeWaitStates noted.1).2, noted.2))

/-- The sink, with a note of what it requests. -/
def Sink.overheard (sink : Sink σ) : Sink (σ × List LineRequest) := fun line asserted =>
  (sink line asserted).overheard

/-- The machine, with nothing on the note yet. -/
def Machine.overheard {κ : Type} (m : Machine κ σ) : Machine κ (σ × List LineRequest) :=
  ⟨m.core, ⟨(m.world.devices, []), m.world.lines, m.world.log⟩⟩

/-- The second world is the first one with a note. -/
structure World.Overhears (world : World σ) (noted : World (σ × List LineRequest)) : Prop where
  devices : noted.devices.1 = world.devices
  lines : noted.lines = world.lines
  log : noted.log = world.log

theorem World.overhears_start {κ : Type} (m : Machine κ σ) :
    m.world.Overhears m.overheard.world := ⟨rfl, rfl, rfl⟩

/-- Reading a unit is overheard like any other access. -/
theorem Space.readUnit_overheard (space : Space σ) (address : UInt32) :
    space.overheard.readUnit address = (space.readUnit address).overheard := by
  funext noted
  unfold Space.readUnit
  rw [Access.bind_apply]
  unfold Access.overheard
  rw [Access.bind_apply]
  show Reply.mk _ _ _ =
    Reply.mk _ (_, noted.2 ++ ((space.read .byte address noted.1).requests ++ [])) _
  rw [List.append_nil]
  rfl

/-- Being overheard changes nothing. -/
theorem Access.lockstep_overheard (access : Access σ α) :
    Lockstep World.Overhears (World.perform access) (World.perform access.overheard) := by
  rintro ⟨devices, lines, log⟩ ⟨⟨_, heard⟩, _, _⟩ ⟨rfl, rfl, rfl⟩
  exact ⟨rfl, rfl, rfl, rfl⟩

theorem Space.coupled_overheard (space : Space σ) :
    Space.Coupled World.Overhears space space.overheard where
  read address := by
    rw [space.readUnit_overheard]
    exact Access.lockstep_overheard _
  write address value := Access.lockstep_overheard (space.writeUnit address value)
  waits := by
    rintro ⟨devices, lines, log⟩ ⟨⟨_, heard⟩, _, _⟩ ⟨rfl, rfl, rfl⟩
    exact ⟨rfl, rfl, rfl, rfl⟩

theorem placesCoupled_overheard (number : Nat) (sink : Sink σ) :
    PlacesCoupled World.Overhears number number sink sink.overheard where
  sink line asserted := Access.lockstep_overheard (sink line asserted)
  record event := by
    rintro ⟨devices, lines, log⟩ ⟨⟨_, heard⟩, _, _⟩ ⟨rfl, rfl, rfl⟩
    exact ⟨rfl, rfl, rfl, rfl⟩
  latch act := by
    rintro ⟨devices, lines, log⟩ ⟨⟨_, heard⟩, _, _⟩ ⟨rfl, rfl, rfl⟩
    exact ⟨rfl, rfl, rfl, rfl⟩

/-! ## §3 What was heard -/

theorem LineRequest.levelsFor_append (core : Nat) (earlier later : List LineRequest) :
    LineRequest.levelsFor core (earlier ++ later) =
      LineRequest.levelsFor core earlier ++ LineRequest.levelsFor core later :=
  List.filterMap_append

/-- What is requested of a core reaches its latch. -/
theorem LineBank.latch_deliver (bank : LineBank) (log : EventLog) (requests : List LineRequest)
    (core : Nat) :
    (bank.deliver log requests).1.latch core =
      (bank.latch core).setAll (LineRequest.levelsFor core requests) := by
  unfold LineBank.latch
  rw [List.getD_eq_getElem?_getD, List.getD_eq_getElem?_getD, getElem?_deliver]
  cases bank.latches[core]? with
  | none => exact (LineLatch.setAll_empty _).symm
  | some latch => rfl

/-- What an access requests of a core reaches its latch. -/
theorem World.latch_perform (access : Access σ α) (world : World σ) (core : Nat) :
    (World.perform access world).2.lines.latch core =
      (world.lines.latch core).setAll
        (LineRequest.levelsFor core (access world.devices).requests) :=
  LineBank.latch_deliver ..

/-- A line of which an access requests nothing keeps its level. -/
theorem World.level_perform (access : Access σ α) (world : World σ) {core : Nat} {line : InputLine}
    (others : ∀ r ∈ (access world.devices).requests, r.core = core → r.line ≠ line) :
    ((World.perform access world).2.lines.latch core).level line =
      (world.lines.latch core).level line := by
  have spared : ∀ r ∈ LineRequest.levelsFor core (access world.devices).requests, r.1 ≠ line := by
    intro r there
    obtain ⟨request, asks, named⟩ := List.mem_filterMap.mp there
    split at named
    next own =>
      obtain rfl := Option.some.inj named
      exact others request asks own
    · cases named
  rw [latch_perform]
  exact congrArg LineState.level (LineLatch.state_setAll_other spared)

theorem World.perform_pure (value : α) (world : World σ) :
    World.perform (pure value) world = (value, world) := rfl

/-- Two accesses in a row are performed one after the other. -/
theorem World.perform_bind {β : Type} (first : Access σ α) (next : α → Access σ β)
    (world : World σ) :
    World.perform (first >>= next) world =
      World.perform (next (World.perform first world).1) (World.perform first world).2 := by
  obtain ⟨devices, lines, log⟩ := world
  simp [World.perform, Access.bind_apply, LineBank.deliver, List.foldl_append]

/-- What has been heard so far accounts for the latch of a core. -/
def World.Heard (core : Nat) (base : LineLatch) (world : World (σ × List LineRequest)) : Prop :=
  world.lines.latch core = base.setAll (LineRequest.levelsFor core world.devices.2)

theorem Access.heard_overheard (core : Nat) (base : LineLatch) (access : Access σ α) :
    Keeps (World.Heard core base) (World.perform access.overheard) := by
  rintro ⟨⟨devices, heard⟩, lines, log⟩ accounts
  show (lines.deliver log _).1.latch core =
    base.setAll (LineRequest.levelsFor core (heard ++ (access devices).requests))
  rw [LineBank.latch_deliver, LineRequest.levelsFor_append, LineLatch.setAll_append]
  exact congrArg (LineLatch.setAll · (LineRequest.levelsFor core (access devices).requests))
    accounts

theorem Space.coupled_heard (core : Nat) (base : LineLatch) (space : Space σ) :
    Space.Coupled (Both (World.Heard core base)) space.overheard space.overheard where
  read address := by
    rw [space.readUnit_overheard]
    exact (Access.heard_overheard core base _).lockstep
  write address value := (Access.heard_overheard core base (space.writeUnit address value)).lockstep
  waits := Keeps.lockstep fun _ accounts => accounts

theorem outputsCoupled_heard (core : Nat) (base : LineLatch) (sink : Sink σ) :
    OutputsCoupled (Both (World.Heard core base)) sink.overheard sink.overheard where
  sink line asserted := (Access.heard_overheard core base (sink line asserted)).lockstep
  record _ := Keeps.lockstep fun _ accounts => accounts

end Microboard
