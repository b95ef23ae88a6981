import Microboard.Proofs.Lockstep
import Microboard.Sm83.State
import Microboard.Ucom4.State

/-!
# What accesses reach

- **§1** Vantage points: what can be seen of a world from one latch.
- **§2** Accesses that agree as far as can be seen, and accesses out of sight.
- **§3** The same of spaces, and of what a core reaches of its world.
- **§4** A space of a single cell, the least that a core can be connected to.

Cores that share no space and no latch live in one world without seeing each other. What one of
them sees is its view of the devices and its latch; what another does is out of its sight.
-/

namespace Microboard

variable {σ τ ρ α : Type}

/-! ## §1 Vantage points -/

/-- Levels that requests ask for on the lines of a core, oldest first. -/
def LineRequest.levelsFor (core : Nat) (requests : List LineRequest) :
    List (InputLine × LineLevel) :=
  requests.filterMap fun r => if r.core = core then some (r.line, r.level) else none

theorem LineRequest.levelsFor_own (r : LineRequest) :
    LineRequest.levelsFor r.core [r] = [(r.line, r.level)] := by
  simp only [LineRequest.levelsFor, List.filterMap_cons, if_true, List.filterMap_nil]

theorem LineRequest.levelsFor_other {r : LineRequest} {core : Nat} (other : r.core ≠ core) :
    LineRequest.levelsFor core [r] = [] := by
  simp only [LineRequest.levelsFor, List.filterMap_cons, other, if_false, List.filterMap_nil]

/-- Records requested levels, in order. -/
def LineLatch.setAll (latch : LineLatch) (levels : List (InputLine × LineLevel)) : LineLatch :=
  levels.foldl (fun latch (line, level) => latch.set line level) latch

namespace LineBank

theorem getElem?_update (bank : LineBank) (core other : Nat) (change : LineLatch → LineLatch) :
    (bank.update core change).latches[other]? =
      if core = other then bank.latches[other]?.map change else bank.latches[other]? := by
  unfold update
  rw [List.getElem?_modify]
  split
  · rfl
  · exact congrFun Option.map_id _

/-- One request sets a line of the core that it names. -/
theorem getElem?_request (bank : LineBank) (log : EventLog) (r : LineRequest) (core : Nat) :
    (bank.request log r).1.latches[core]? =
      bank.latches[core]?.map (·.setAll (LineRequest.levelsFor core [r])) := by
  unfold request
  by_cases same : r.core = core
  · subst same
    rw [LineRequest.levelsFor_own]
    -- a request for a core that is not there is dropped
    by_cases there : r.core < bank.latches.length
    · have held : bank.latch r.core = bank.latches[r.core] := by
        unfold latch
        rw [List.getD_eq_getElem?_getD, List.getElem?_eq_getElem there]
        rfl
      rw [if_pos there, held]
      show (bank.update r.core _).latches[r.core]? = _
      rw [getElem?_update, if_pos rfl, List.getElem?_eq_getElem there]
      rfl
    · have absent : bank.latches[r.core]? = none := List.getElem?_eq_none (by omega)
      rw [if_neg there, absent]
      rfl
  · rw [LineRequest.levelsFor_other same]
    refine Eq.trans ?_ (congrFun Option.map_id _).symm
    split
    · show (bank.update r.core _).latches[core]? = _
      rw [getElem?_update, if_neg same]
      rfl
    · rfl

/-- Requests set the lines of a core as far as they name it. -/
theorem getElem?_deliver (bank : LineBank) (log : EventLog) (requests : List LineRequest)
    (core : Nat) :
    (bank.deliver log requests).1.latches[core]? =
      bank.latches[core]?.map (·.setAll (LineRequest.levelsFor core requests)) := by
  induction requests generalizing bank log with
  | nil => exact (congrFun Option.map_id _).symm
  | cons r requests ih =>
    have split : LineRequest.levelsFor core (r :: requests) =
        LineRequest.levelsFor core [r] ++ LineRequest.levelsFor core requests := by
      simp only [LineRequest.levelsFor, ← List.filterMap_append, List.singleton_append]
    show ((bank.request log r).1.deliver (bank.request log r).2 requests).1.latches[core]? = _
    -- levels are recorded in the order of the requests, so those of the first come first
    rw [ih, getElem?_request, split, Option.map_map]
    congr 1
    funext latch
    exact (List.foldl_append ..).symm

end LineBank

/-- A vantage point in worlds: what can be seen of the devices from there, and the number of the
latch that belongs to it. -/
structure Vantage (σ ρ : Type) where
  /-- Part of the devices that can be seen. -/
  view : σ → ρ
  /-- Number of the latch. -/
  core : Nat

namespace Vantage

/-- Two worlds look the same from two vantage points. -/
def Same (p : Vantage σ ρ) (p' : Vantage τ ρ) (world : World σ) (world' : World τ) : Prop :=
  p.view world.devices = p'.view world'.devices ∧
    world.lines.latches[p.core]? = world'.lines.latches[p'.core]?

variable {p : Vantage σ ρ} {p' : Vantage τ ρ}

theorem Same.refl (p : Vantage σ ρ) (world : World σ) : p.Same p world world := ⟨rfl, rfl⟩

/-- The latches of both vantage points are asked for the same. -/
theorem Same.request {world : World σ} {world' : World τ} (same : p.Same p' world world')
    (line : InputLine) (level : LineLevel) :
    p.Same p' (world.request ⟨p.core, line, level⟩) (world'.request ⟨p'.core, line, level⟩) := by
  obtain ⟨devices, latches⟩ := same
  refine ⟨devices, ?_⟩
  show (LineBank.request _ _ _).1.latches[p.core]? = (LineBank.request _ _ _).1.latches[p'.core]?
  rw [LineBank.getElem?_request, LineBank.getElem?_request, latches]
  rw [LineRequest.levelsFor_own ⟨p.core, line, level⟩,
    LineRequest.levelsFor_own ⟨p'.core, line, level⟩]

/-- A latch acts the same on what is the same. -/
theorem lockstep_onLatch (act : LineLatch → α × LineLatch) :
    Lockstep (p.Same p') (World.onLatch p.core act) (World.onLatch p'.core act) := by
  rintro ⟨devices, ⟨latches⟩, log⟩ ⟨devices', ⟨latches'⟩, log'⟩ ⟨views, held⟩
  -- the same latch, or none, is found at both numbers
  have latch : LineBank.latch ⟨latches⟩ p.core = LineBank.latch ⟨latches'⟩ p'.core := by
    unfold LineBank.latch
    rw [List.getD_eq_getElem?_getD, List.getD_eq_getElem?_getD]
    exact congrArg (·.getD {}) held
  simp only [World.onLatch]
  rw [latch]
  refine ⟨rfl, views, ?_⟩
  rw [LineBank.getElem?_update, LineBank.getElem?_update, if_pos rfl, if_pos rfl]
  exact congrArg _ held

/-- Another latch that acts is out of sight. -/
theorem keeps_onLatch {number : Nat} (other : number ≠ p.core) (act : LineLatch → α × LineLatch)
    (world' : World τ) : Keeps (p.Same p' · world') (World.onLatch number act) := by
  rintro ⟨devices, lines, log⟩ ⟨views, held⟩
  refine ⟨views, ?_⟩
  show (lines.update number _).latches[p.core]? = _
  rw [LineBank.getElem?_update, if_neg other]
  exact held

end Vantage

/-! ## §2 Accesses -/

namespace Access

/-- Where two devices look the same, the accesses answer the same, leave the devices looking the
same and ask for the same levels on the latches of the two vantage points. -/
def Matches (p : Vantage σ ρ) (p' : Vantage τ ρ) (access : Access σ α) (access' : Access τ α) :
    Prop :=
  ∀ devices devices', p.view devices = p'.view devices' →
    (access devices).value = (access' devices').value ∧
    p.view (access devices).state = p'.view (access' devices').state ∧
    LineRequest.levelsFor p.core (access devices).requests =
      LineRequest.levelsFor p'.core (access' devices').requests

/-- The access changes nothing that can be seen from the vantage point and asks for no level on
its latch. -/
def Misses (p : Vantage σ ρ) (access : Access σ α) : Prop :=
  ∀ devices, p.view (access devices).state = p.view devices ∧
    LineRequest.levelsFor p.core (access devices).requests = []

variable {p : Vantage σ ρ} {p' : Vantage τ ρ} {access : Access σ α} {access' : Access τ α}

theorem Matches.lockstep (matching : access.Matches p p' access') :
    Lockstep (p.Same p') (World.perform access) (World.perform access') := by
  rintro ⟨devices, lines, log⟩ ⟨devices', lines', log'⟩ ⟨views, held⟩
  obtain ⟨value, state, levels⟩ := matching devices devices' views
  refine ⟨value, state, ?_⟩
  show (lines.deliver log _).1.latches[p.core]? = (lines'.deliver log' _).1.latches[p'.core]?
  rw [LineBank.getElem?_deliver, LineBank.getElem?_deliver, levels]
  exact congrArg _ held

theorem Misses.keeps (misses : access.Misses p) (world' : World τ) :
    Keeps (p.Same p' · world') (World.perform access) := by
  rintro ⟨devices, lines, log⟩ ⟨views, held⟩
  obtain ⟨state, levels⟩ := misses devices
  refine ⟨state.trans views, ?_⟩
  show (lines.deliver log _).1.latches[p.core]? = _
  rw [LineBank.getElem?_deliver, levels]
  exact (congrFun Option.map_id _).trans held

end Access

/-! ## §3 Spaces and surroundings -/

namespace Space

/-- Accesses through the two spaces match, and so do the wait states that they pile up. -/
structure Matches (p : Vantage σ ρ) (p' : Vantage τ ρ) (space : Space σ) (space' : Space τ) :
    Prop where
  read : ∀ address, (space.readUnit address).Matches p p' (space'.readUnit address)
  write : ∀ address value,
    (space.writeUnit address value).Matches p p' (space'.writeUnit address value)
  takes : ∀ devices devices', p.view devices = p'.view devices' →
    (space.takeWaitStates devices).1 = (space'.takeWaitStates devices').1 ∧
    p.view (space.takeWaitStates devices).2 = p'.view (space'.takeWaitStates devices').2

/-- Accesses through the space are out of sight. -/
structure Misses (p : Vantage σ ρ) (space : Space σ) : Prop where
  read : ∀ address, (space.readUnit address).Misses p
  write : ∀ address value, (space.writeUnit address value).Misses p
  takes : ∀ devices, p.view (space.takeWaitStates devices).2 = p.view devices

variable {p : Vantage σ ρ} {p' : Vantage τ ρ} {space : Space σ} {space' : Space τ}

theorem Matches.coupled (matching : space.Matches p p' space') :
    Space.Coupled (p.Same p') space space' where
  read address := (matching.read address).lockstep
  write address value := (matching.write address value).lockstep
  waits := by
    rintro world world' ⟨views, held⟩
    obtain ⟨waits, state⟩ := matching.takes world.devices world'.devices views
    exact ⟨waits, state, held⟩

theorem Misses.coupled (misses : space.Misses p) (world' : World τ) :
    Space.Coupled (Both (p.Same p' · world')) space space where
  read address := ((misses.read address).keeps world').lockstep
  write address value := ((misses.write address value).keeps world').lockstep
  waits := Keeps.lockstep fun world same => ⟨(misses.takes world.devices).trans same.1, same.2⟩

end Space

namespace Vantage

variable {p : Vantage σ ρ} {p' : Vantage τ ρ}

/-- What a core reaches from its own vantage point. -/
theorem placesCoupled {sink : Sink σ} {sink' : Sink τ}
    (matching : ∀ line asserted, (sink line asserted).Matches p p' (sink' line asserted)) :
    PlacesCoupled (p.Same p') p.core p'.core sink sink' where
  latch := lockstep_onLatch
  sink line asserted := (matching line asserted).lockstep
  record _ _ _ same := ⟨rfl, same⟩

/-- What a core reaches out of sight. -/
theorem placesUnseen {number : Nat} (other : number ≠ p.core) {sink : Sink σ}
    (misses : ∀ line asserted, (sink line asserted).Misses p) (world' : World τ) :
    PlacesCoupled (Both (p.Same p' · world')) number number sink sink where
  latch act := (keeps_onLatch other act world').lockstep
  sink line asserted := ((misses line asserted).keeps world').lockstep
  record _ := Keeps.lockstep fun _ same => same

end Vantage

/-! ## §4 A single cell -/

theorem Sink.ignore_matches (p : Vantage σ ρ) (p' : Vantage τ ρ) (line : OutputLine)
    (asserted : Bool) :
    ((Sink.ignore : Sink σ) line asserted).Matches p p' ((Sink.ignore : Sink τ) line asserted) :=
  fun _ _ views => ⟨rfl, views, rfl⟩

theorem Sink.ignore_misses (p : Vantage σ ρ) (line : OutputLine) (asserted : Bool) :
    ((Sink.ignore : Sink σ) line asserted).Misses p :=
  fun _ => ⟨rfl, rfl⟩

/-- A space of a single cell, found at every address. -/
def Space.cell (config : SpaceConfig) (get : σ → UInt8) (put : UInt8 → σ → σ) : Space σ where
  config := config
  read _ _ := fun devices => ⟨(get devices).toUInt32, devices, []⟩
  write _ _ value := fun devices => ⟨(), put value.toUInt8 devices, []⟩

/-- Who sees the cell sees all that the space does. -/
theorem Space.cell_matches (config : SpaceConfig) (get : σ → UInt8) (put : UInt8 → σ → σ)
    (stores : ∀ value devices, get (put value devices) = value) (core : Nat) :
    (Space.cell config get put).Matches ⟨get, core⟩ ⟨get, core⟩ (Space.cell config get put) where
  read _ _ _ views :=
    ⟨congrArg (fun cell : UInt8 => cell.toUInt32.toUInt8) views, views, rfl⟩
  write _ _ _ _ _ := ⟨rfl, (stores _ _).trans (stores _ _).symm, rfl⟩
  takes _ _ views := ⟨rfl, views⟩

/-- Who sees nothing of the cell sees nothing of what the space does. -/
theorem Space.cell_misses (config : SpaceConfig) (get : σ → UInt8) (put : UInt8 → σ → σ)
    (p : Vantage σ ρ) (apart : ∀ value devices, p.view (put value devices) = p.view devices) :
    (Space.cell config get put).Misses p where
  read _ _ := ⟨rfl, rfl⟩
  write _ _ _ := ⟨apart _ _, rfl⟩
  takes _ := rfl

/-- An SM83 core whose memory is a single cell. -/
def Sm83.Wiring.cell (get : σ → UInt8) (put : UInt8 → σ → σ) (number : Nat) : Sm83.Wiring σ where
  config := {}
  program := .cell ⟨"program", 16, 8, .little⟩ get put
  number := number

/-- A uCOM-4 core whose spaces are all the same cell. -/
def Ucom4.Wiring.cell (get : σ → UInt8) (put : UInt8 → σ → σ) (number : Nat) :
    Ucom4.Wiring σ where
  config := { part := .upd553 }
  program := .cell ⟨"program", 11, 8, .little⟩ get put
  data := .cell ⟨"data", 7, 4, .little⟩ get put
  io := .cell ⟨"io", 4, 4, .little⟩ get put
  number := number

end Microboard
