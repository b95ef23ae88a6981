import Microboard.Proofs.Requests
import Microboard.Proofs.Ucom4.Clearing
import Microboard.Proofs.Ucom4.Retiring

/-!
# Cores that are reset

A reset is meant to be a power-on. On an SM83 core it is one. A uCOM-4 core goes through a reset
with part of its registers as they were, and counts the wait states that it meets while it drives
its ports low.

- **§1** What a reset leaves of the latch.
- **§2** What a reset of an SM83 core leaves.
- **§3** What a reset of a uCOM-4 core leaves.
- **§4** What a reset leaves of the exported values.
- **§5** Cores of either family, compared with cores that were just built.
-/

namespace Microboard

variable {σ τ : Type}

/-! ## §1 Latches -/

/-- The world once the latch of a core has lost its edges. -/
def World.unlatched (world : World σ) (core : Nat) : World σ :=
  (world.onLatch core fun latch => ((), latch.discardEdges)).2

theorem World.latch_unlatched (world : World σ) (core : Nat) :
    (world.unlatched core).lines.latch core = (world.lines.latch core).discardEdges :=
  World.latch_onLatch_eq (fun latch => ((), latch.discardEdges)) rfl world core

namespace LineLatch

theorem hasEdge_discardEdges (latch : LineLatch) (line : InputLine) :
    latch.discardEdges.hasEdge line = false :=
  congrArg LineState.edge (latch.state_discardEdges line)

theorem level_discardEdges (latch : LineLatch) : latch.discardEdges.Level latch := by
  intro line
  constructor
  · unfold level
    rw [state_discardEdges]
    rfl
  · unfold has size discardEdges
    rw [List.length_map]

/-- What a latch is after a reset during which some levels are requested of it: the levels are those
requested, and no edge waits but for a line that these requests have raised. -/
structure Restarted (before : LineLatch) (requests : List (InputLine × LineLevel))
    (after : LineLatch) : Prop where
  level : ∀ line, after.level line = (before.setAll requests).level line
  edge : ∀ line, after.hasEdge line = true → before.Raised requests line

/-- A line of which nothing is requested during the reset keeps its level and loses its edge. -/
theorem Restarted.spared {before after : LineLatch} {requests : List (InputLine × LineLevel)}
    (restarted : Restarted before requests after) (line : InputLine)
    (others : ∀ r ∈ requests, r.1 ≠ line) :
    after.level line = before.level line ∧ after.hasEdge line = false := by
  constructor
  · rw [restarted.level]
    exact congrArg LineState.level (state_setAll_other others)
  · refine eq_false_of_ne_true fun edge => ?_
    obtain ⟨-, earlier, level, later, rfl, -⟩ := restarted.edge line edge
    exact others (line, level) (by simp) rfl

/-- Edges that are dropped last are gone. -/
theorem restarted_late (latch : LineLatch) (requests : List (InputLine × LineLevel)) :
    latch.Restarted requests (latch.setAll requests).discardEdges where
  level line := (level_discardEdges (latch.setAll requests) line).1
  edge line edge := by
    rw [hasEdge_discardEdges] at edge
    cases edge

/-- Edges that are dropped first may be followed by others. -/
theorem restarted_early (latch : LineLatch) (requests : List (InputLine × LineLevel)) :
    latch.Restarted requests (latch.discardEdges.setAll requests) where
  level line := (latch.level_discardEdges.setAll requests line).1
  edge line edge := by
    rw [hasEdge_setAll, hasEdge_discardEdges] at edge
    exact (latch.level_discardEdges.raised requests line).mp (edge.resolve_left nofun)

end LineLatch

/-! ## §2 SM83 -/

namespace Sm83

/-- What a reset asks of what hangs on the output lines: to let go of the halt output, if the core
has asserted it. -/
def restarts (w : Wiring σ) (s : State) : Access σ Unit :=
  if s.exec = .halted then w.sink haltOut false else pure ()

/-- The state that a reset leaves, but for the levels that were driven. -/
def State.restarted (config : Config) (s : State) : State :=
  { s with
    regs := config.powerOn
    exec := .fetching
    stopped := false
    haltBug := false
    eiDelay := false
    lastPc := config.powerOn.pc
    opcode := 0
    diagnostics := {} }

/-- A reset lets go of the halt output, drops the edges and starts the registers over. -/
theorem reset_eq (w : Wiring σ) (m : Machine State σ) : ∃ outputs log,
    let released := (World.perform (restarts w m.core) m.world).2
    reset w m = ((), ⟨{ m.core.restarted w.config with outputs },
      { released.unlatched w.number with log }⟩) := by
  unfold reset restarts
  rw [eval_bind, eval_ite]
  by_cases halted : m.core.exec = .halted
  · rw [if_pos (show (getState m).1.exec = .halted from halted), if_pos halted]
    exact ⟨_, _, rfl⟩
  · rw [if_neg (show ¬(getState m).1.exec = .halted from halted), if_neg halted]
    exact ⟨_, _, rfl⟩

/-- The halt output is let go before the edges are dropped. -/
theorem reset_latch (w : Wiring σ) (m : Machine State σ) :
    (m.world.lines.latch w.number).Restarted
      (LineRequest.levelsFor w.number (restarts w m.core m.world.devices).requests)
      ((reset w m).2.world.lines.latch w.number) := by
  obtain ⟨outputs, log, left⟩ := reset_eq w m
  have lines : (reset w m).2.world.lines =
      ((World.perform (restarts w m.core) m.world).2.unlatched w.number).lines := by rw [left]
  rw [lines, World.latch_unlatched, World.latch_perform]
  exact LineLatch.restarted_late _ _

end Sm83

/-! ## §3 uCOM-4 -/

namespace Ucom4

/-- A reset drops the edges, drives the ports low, and counts what these make the core wait. -/
theorem reset_drives (w : Wiring σ) (m : Machine State σ) : ∃ bus log,
    let driven := (World.perform (w.clears w.geometry.clearedPorts) (m.world.unlatched w.number)).2
    reset w m = ((), ⟨{ m.core.restarted w.geometry with
        regs := (m.core.regs.restarted w.geometry).cleared w.geometry resetPorts
        bus
        diagnostics := ({} : Diagnostics).recordWaitStates (w.waits driven.devices) },
      { driven with devices := w.drained driven.devices, log }⟩) := by
  let begun : Machine State σ := ⟨m.core.restarted w.geometry, m.world.unlatched w.number⟩
  have known : ∀ port ∈ resetPorts, nibble port = port :=
    fun port among => (resetPorts_known port among).1
  obtain ⟨bus, core⟩ := clearPorts_core (w := w) known begun
  have world := clearPorts_world (w := w) known begun
  -- the wait states that the ports have left are counted before the log is written
  have waited : reset w m =
      let cleared := (clearPorts w resetPorts begun).2
      ((), ⟨{ cleared.core with
          diagnostics :=
            cleared.core.diagnostics.recordWaitStates (w.waits cleared.world.devices) },
        { cleared.world with
          devices := w.drained cleared.world.devices
          log := cleared.world.log.record (.reset w.name none) }⟩) := rfl
  dsimp only at waited
  rw [core, world] at waited
  exact ⟨bus, _, waited⟩

/-- The edges are dropped before the ports are driven. -/
theorem reset_latch (w : Wiring σ) (m : Machine State σ) :
    (m.world.lines.latch w.number).Restarted
      (LineRequest.levelsFor w.number (w.clears w.geometry.clearedPorts m.world.devices).requests)
      ((reset w m).2.world.lines.latch w.number) := by
  obtain ⟨bus, log, left⟩ := reset_drives w m
  have lines : (reset w m).2.world.lines = (World.perform (w.clears w.geometry.clearedPorts)
      (m.world.unlatched w.number)).2.lines := by rw [left]
  rw [lines, World.latch_perform, World.latch_unlatched]
  exact LineLatch.restarted_early _ _

end Ucom4

/-! ## §4 Exported values -/

/-- What becomes of an exported value in a reset. -/
inductive Fate where
  /-- It stays as it was. -/
  | kept
  /-- It is the one that a core has once it is built. -/
  | renewed
  /-- Some of its bits are kept, and the others are renewed. -/
  | mixed
  deriving DecidableEq, Repr

/-- Whatever a core has done, what it exports after a reset is what its configuration says. -/
theorem Sm83.Export.read_reset {w : Wiring σ} {w' : Wiring τ} (config : w.config = w'.config)
    (m : Machine State σ) (m' : Machine State τ) (item : Export) :
    item.read (reset w m).2.core = item.read (reset w' m').2.core := by
  obtain ⟨outputs, log, left⟩ := reset_eq w m
  obtain ⟨outputs', log', left'⟩ := reset_eq w' m'
  rw [left, left', config]
  cases item <;> rfl

namespace Ucom4.Export

/-- The packed flags show some flags that are renewed and some that are kept. -/
def fate : Export → Fate
  | .dpl | .dph | .acc | .carry | .carrySave | .timerFlag | .stack _ => .kept
  | .pc | .intFlag | .intEnable | .currentPc | .lastPc | .timer | .opcode | .skip => .renewed
  | .flags => .mixed

variable {w : Wiring σ} {w' : Wiring τ} {item : Export}

theorem read_kept (kept : item.fate = .kept) (g : Geometry) (m : Machine State σ) :
    item.read g (reset w m).2.core = item.read g m.core := by
  obtain ⟨bus, log, left⟩ := reset_drives w m
  rw [left, Registers.cleared_eq]
  cases item with
  | dpl | dph | acc | carry | carrySave | timerFlag | stack => rfl
  | pc | intFlag | intEnable | currentPc | lastPc | timer | opcode | skip | flags =>
    exact nomatch kept

theorem read_renewed (renewed : item.fate = .renewed) (config : w.config = w'.config)
    (g : Geometry) (m : Machine State σ) (m' : Machine State τ) :
    item.read g (reset w m).2.core = item.read g (reset w' m').2.core := by
  obtain ⟨bus, log, left⟩ := reset_drives w m
  obtain ⟨bus', log', left'⟩ := reset_drives w' m'
  have geometry : w.geometry = w'.geometry := congrArg Config.geometry config
  rw [left, left', Registers.cleared_eq, Registers.cleared_eq _ (m'.core.regs.restarted _),
    geometry]
  cases item with
  | pc | intFlag | intEnable | currentPc | lastPc | timer | opcode | skip => rfl
  | dpl | dph | acc | carry | carrySave | timerFlag | stack | flags => exact nomatch renewed

theorem bit_read {entry : StateEntry} (width : entry.width = 1) {a b : Bool}
    (same : entry.truncate a.toNat = entry.truncate b.toNat) : a = b := by
  rw [← StateEntry.bit_truncated width a, same, StateEntry.bit_truncated width b]

/-- The packed flags agree once the flags agree that a reset keeps. -/
theorem read_flags (config : w.config = w'.config) (g : Geometry) (m : Machine State σ)
    (m' : Machine State τ)
    (agree : ∀ item ∈ [carry, carrySave, timerFlag], item.read g m.core = item.read g m'.core) :
    flags.read g (reset w m).2.core = flags.read g (reset w' m').2.core := by
  have carry : m.core.regs.carry = m'.core.regs.carry := bit_read rfl (agree carry (by decide))
  have carrySave : m.core.regs.carrySave = m'.core.regs.carrySave :=
    bit_read rfl (agree carrySave (by decide))
  have timerFlag : m.core.regs.timerFlag = m'.core.regs.timerFlag :=
    bit_read rfl (agree timerFlag (by decide))
  obtain ⟨bus, log, left⟩ := reset_drives w m
  obtain ⟨bus', log', left'⟩ := reset_drives w' m'
  have geometry : w.geometry = w'.geometry := congrArg Config.geometry config
  rw [left, left', Registers.cleared_eq, Registers.cleared_eq _ (m'.core.regs.restarted _),
    geometry]
  unfold read raw Registers.packedFlags packedFlagLayout Registers.restarted
  simp only [List.foldl_cons, List.foldl_nil, carry, carrySave, timerFlag]

end Ucom4.Export

/-! ## §5 Cores that were just built -/

theorem Sm83.build_config {config : Config} {program : Space σ} {world world' : World σ}
    {w : Wiring σ} {s : State} (built : build config program world = .ok ((w, s), world')) :
    w.config = config := by
  unfold build at built
  obtain ⟨-, -, built⟩ := ok_of_bind built
  obtain ⟨-, -, built⟩ := ok_of_bind built
  obtain ⟨made, -⟩ := Prod.mk.inj (Except.ok.inj built)
  obtain ⟨rfl, rfl⟩ := Prod.mk.inj made
  rfl

theorem Ucom4.build_config {config : Config} {program data io : Space σ} {world world' : World σ}
    {w : Wiring σ} {s : State} (built : build config program data io world = .ok ((w, s), world')) :
    w.config = config := by
  unfold build at built
  obtain ⟨-, -, built⟩ := ok_of_bind built
  obtain ⟨-, -, built⟩ := ok_of_bind built
  obtain ⟨-, -, built⟩ := ok_of_bind built
  obtain ⟨-, -, built⟩ := ok_of_bind built
  obtain ⟨-, -, built⟩ := ok_of_bind built
  obtain ⟨made, -⟩ := Prod.mk.inj (Except.ok.inj built)
  obtain ⟨rfl, rfl⟩ := Prod.mk.inj made
  rfl

namespace Core

/-- What becomes of the exported value with an index in a reset. -/
def fate : Core σ → Int → Fate
  | sm83 .., _ => .renewed
  | ucom4 w _, index => ((Ucom4.Export.find? w.geometry index).map (·.fate)).getD .renewed

/-- What a reset asks of the surroundings of a core. -/
def restarts : Core σ → Access σ Unit
  | sm83 w s => Sm83.restarts w s
  | ucom4 w _ => w.clears w.geometry.clearedPorts

/-- Wait states that a core counts in a reset, which has left its devices so. -/
def waitsRestarting : Core σ → σ → UInt32
  | sm83 .., _ => 0
  | ucom4 w _, devices => w.waits devices

/-- The second core has the configuration of the first one, and was just built. -/
inductive Newly : Core σ → Core τ → Prop where
  | sm83 {w : Sm83.Wiring σ} {w' : Sm83.Wiring τ} {s fresh : Sm83.State} {program : Space τ}
      {world world' : World τ} :
      Sm83.build w.config program world = .ok ((w', fresh), world') →
      Newly (.sm83 w s) (.sm83 w' fresh)
  | ucom4 {w : Ucom4.Wiring σ} {w' : Ucom4.Wiring τ} {s fresh : Ucom4.State}
      {program data io : Space τ} {world world' : World τ} :
      Ucom4.build w.config program data io world = .ok ((w', fresh), world') →
      Newly (.ucom4 w s) (.ucom4 w' fresh)

/-- What a reset of a core leaves, compared with what it found and with a core that was just
built. -/
structure PowersOn (m after : Machine (Core σ) σ) (fresh : Core τ) : Prop where
  exec : after.core.exec = .fetching
  totalCycles : after.core.totalCycles = m.core.totalCycles
  kept : ∀ index, m.core.fate index = .kept →
    after.core.stateGet index = m.core.stateGet index
  renewed : ∀ index, m.core.fate index = .renewed →
    after.core.stateGet index = fresh.stateGet index
  /-- All values are those of the core that was built, exactly if those were so that the reset
  keeps. -/
  all : (∀ index, after.core.stateGet index = fresh.stateGet index) ↔
    ∀ index, m.core.fate index = .kept → m.core.stateGet index = fresh.stateGet index
  /-- The counters start over, and count what the devices make the core wait in the reset. -/
  diagnostics : after.core.diagnostics = ({} : Diagnostics).recordWaitStates
    (m.core.waitsRestarting (m.core.restarts m.world.devices).state)
  latch : (m.world.lines.latch m.core.number).Restarted
    (LineRequest.levelsFor m.core.number (m.core.restarts m.world.devices).requests)
    (after.world.lines.latch m.core.number)

/-- An SM83 core goes through a power-on. -/
theorem powersOn_sm83 {w : Sm83.Wiring σ} {w' : Sm83.Wiring τ} {s fresh : Sm83.State}
    {program : Space τ} {world₀ world₁ : World τ}
    (built : Sm83.build w.config program world₀ = .ok ((w', fresh), world₁)) (world : World σ) :
    PowersOn ⟨.sm83 w s, world⟩ (reset ⟨.sm83 w s, world⟩).2 (.sm83 w' fresh) := by
  obtain rfl := build_reset built
  have config := Sm83.build_config built
  have renewed (index : Int) : (reset ⟨.sm83 w s, world⟩).2.core.stateGet index =
      (sm83 w' (Sm83.reset w' ⟨{}, world₀⟩).2.core).stateGet index :=
    congrArg (Option.map · (Sm83.Export.find? index))
      (funext (Sm83.Export.read_reset config.symm ⟨s, world⟩ ⟨{}, world₀⟩))
  obtain ⟨outputs, log, left⟩ := Sm83.reset_eq w ⟨s, world⟩
  have core : (reset ⟨.sm83 w s, world⟩).2.core =
      .sm83 w { s.restarted w.config with outputs } :=
    congrArg (fun after : Unit × Machine Sm83.State σ => Core.sm83 w after.2.core) left
  refine ⟨?_, ?_, nofun, fun index _ => renewed index, ⟨fun _ => nofun, fun _ => renewed⟩, ?_,
    Sm83.reset_latch w ⟨s, world⟩⟩
  · rw [core]
    rfl
  · rw [core]
    rfl
  · rw [core]
    rfl

section Ucom4

variable {w : Ucom4.Wiring σ} {w' : Ucom4.Wiring τ} {index : Int} {item : Ucom4.Export}

theorem stateGet_found (found : Ucom4.Export.find? w.geometry index = some item)
    (s : Ucom4.State) : (ucom4 w s).stateGet index = some (item.read w.geometry s) := by
  unfold stateGet
  dsimp only
  rw [found]
  rfl

theorem fate_ucom4 (s : Ucom4.State) : (ucom4 w s).fate index =
    ((Ucom4.Export.find? w.geometry index).map (·.fate)).getD .renewed := rfl

theorem fate_found (found : Ucom4.Export.find? w.geometry index = some item) (s : Ucom4.State) :
    (ucom4 w s).fate index = item.fate := by
  rw [fate_ucom4, found]
  rfl

/-- What a reset does not renew is exported. -/
theorem found_of_fate {s : Ucom4.State} {fate : Fate} (met : (ucom4 w s).fate index = fate)
    (lasts : fate ≠ .renewed) :
    ∃ item, Ucom4.Export.find? w.geometry index = some item ∧ item.fate = fate := by
  cases found : Ucom4.Export.find? w.geometry index with
  | none =>
    have missing : (ucom4 w s).fate index = .renewed := by
      rw [fate_ucom4, found]
      rfl
    exact absurd (met.symm.trans missing) lasts
  | some item => exact ⟨item, rfl, (fate_found found s).symm.trans met⟩

theorem stateGet_kept {m : Machine Ucom4.State σ} (kept : (ucom4 w m.core).fate index = .kept) :
    (ucom4 w (Ucom4.reset w m).2.core).stateGet index = (ucom4 w m.core).stateGet index := by
  obtain ⟨item, found, kept⟩ := found_of_fate kept nofun
  rw [stateGet_found found, stateGet_found found, Ucom4.Export.read_kept kept]

theorem stateGet_renewed (config : w.config = w'.config) {m : Machine Ucom4.State σ}
    (m' : Machine Ucom4.State τ) (renewed : (ucom4 w m.core).fate index = .renewed) :
    (ucom4 w (Ucom4.reset w m).2.core).stateGet index =
      (ucom4 w' (Ucom4.reset w' m').2.core).stateGet index := by
  have geometry : w'.geometry = w.geometry := congrArg Ucom4.Config.geometry config.symm
  cases found : Ucom4.Export.find? w.geometry index with
  | none =>
    unfold stateGet
    dsimp only
    rw [geometry, found]
    rfl
  | some item =>
    rw [fate_found found] at renewed
    rw [stateGet_found found, stateGet_found (geometry ▸ found), geometry,
      Ucom4.Export.read_renewed renewed config]

/-- Once the kept values agree, the packed flags do. -/
theorem stateGet_mixed (valid : w.geometry.validate = .ok ()) (config : w.config = w'.config)
    (m : Machine Ucom4.State σ) (m' : Machine Ucom4.State τ)
    (agree : ∀ index, (ucom4 w m.core).fate index = .kept →
      (ucom4 w m.core).stateGet index = (ucom4 w' m'.core).stateGet index)
    (mixed : (ucom4 w m.core).fate index = .mixed) :
    (ucom4 w (Ucom4.reset w m).2.core).stateGet index =
      (ucom4 w' (Ucom4.reset w' m').2.core).stateGet index := by
  have geometry : w.geometry = w'.geometry := congrArg Ucom4.Config.geometry config
  obtain ⟨item, found, mixed⟩ := found_of_fate mixed nofun
  obtain rfl : item = .flags := by cases item <;> first | rfl | cases mixed
  have found' : Ucom4.Export.find? w'.geometry index = some .flags := geometry ▸ found
  rw [stateGet_found found, stateGet_found found', ← geometry]
  refine congrArg some (Ucom4.Export.read_flags config w.geometry m m' fun item among => ?_)
  have exported : item ∈ Ucom4.Export.all w.geometry ∧ item.fate = .kept := by
    unfold Ucom4.Export.all
    simp only [List.mem_cons, List.not_mem_nil, or_false] at among
    rcases among with rfl | rfl | rfl <;> exact ⟨by simp, rfl⟩
  have own := Ucom4.Export.find_entry valid item exported.1
  have own' : Ucom4.Export.find? w'.geometry (item.entry w.geometry).index = some item :=
    (congrArg (Ucom4.Export.find? · _) geometry.symm).trans own
  have shown := agree (item.entry w.geometry).index ((fate_found own m.core).trans exported.2)
  rw [stateGet_found own, stateGet_found own', ← geometry] at shown
  exact Option.some.inj shown

end Ucom4

/-- A uCOM-4 core goes through part of a power-on. -/
theorem powersOn_ucom4 {w : Ucom4.Wiring σ} {w' : Ucom4.Wiring τ} {s fresh : Ucom4.State}
    {program data io : Space τ} {world₀ world₁ : World τ}
    (built : Ucom4.build w.config program data io world₀ = .ok ((w', fresh), world₁))
    (world : World σ) :
    PowersOn ⟨.ucom4 w s, world⟩ (reset ⟨.ucom4 w s, world⟩).2 (.ucom4 w' fresh) := by
  obtain ⟨valid, rfl⟩ := Ucom4.build_reset built
  have config := (Ucom4.build_config built).symm
  have geometry : w'.geometry = w.geometry := congrArg Ucom4.Config.geometry config.symm
  let fresh := (Ucom4.reset w' ⟨{}, world₀⟩).2.core
  -- what a core that was just built shows is what a reset keeps of the state it starts from
  have starts {index : Int} (kept : (ucom4 w s).fate index = .kept) :
      (ucom4 w' fresh).stateGet index = (ucom4 w' ({} : Ucom4.State)).stateGet index := by
    obtain ⟨item, found, kept⟩ := found_of_fate kept nofun
    have found' : Ucom4.Export.find? w'.geometry index = some item := geometry ▸ found
    exact stateGet_kept (m := ⟨{}, world₀⟩) ((fate_found found' {}).trans kept)
  obtain ⟨bus, log, left⟩ := Ucom4.reset_drives w ⟨s, world⟩
  have status : (reset ⟨.ucom4 w s, world⟩).2.core.status =
      (Ucom4.reset w ⟨s, world⟩).2.core.toCoreStatus := rfl
  rw [left] at status
  have total := congrArg CoreStatus.totalCycles status
  refine ⟨congrArg CoreStatus.exec status, total, fun index => stateGet_kept (m := ⟨s, world⟩),
    fun index => stateGet_renewed config (m := ⟨s, world⟩) ⟨{}, world₀⟩,
    ⟨fun all index kept => ?_, fun agree index => ?_⟩, congrArg CoreStatus.diagnostics status,
    Ucom4.reset_latch w ⟨s, world⟩⟩
  · exact (stateGet_kept (m := ⟨s, world⟩) kept).symm.trans (all index)
  · cases fate : (ucom4 w s).fate index with
    | kept => exact (stateGet_kept (m := ⟨s, world⟩) fate).trans (agree index fate)
    | renewed => exact stateGet_renewed config (m := ⟨s, world⟩) ⟨{}, world₀⟩ fate
    | mixed =>
      exact stateGet_mixed (geometry ▸ valid) config ⟨s, world⟩ ⟨{}, world₀⟩
        (fun index kept => (agree index kept).trans (starts kept)) fate

/-- Whatever the core has done and wherever it is, a reset of an SM83 core leaves it as a core that
was just built. On a uCOM-4 core this holds of what a reset renews, and of all values only if those
that it keeps happened to be those of a core that was just built. -/
theorem reset_powers_on {m : Machine (Core σ) σ} {fresh : Core τ} (newly : Newly m.core fresh) :
    PowersOn m (reset m).2 fresh := by
  obtain ⟨core, world⟩ := m
  cases newly with
  | sm83 built => exact powersOn_sm83 built world
  | ucom4 built => exact powersOn_ucom4 built world

/-- A core that has left the start of its program is reset while its interrupt line is asserted. It
goes back to the start, and finds the line asserted, but no edge on it. -/
theorem reset_powers_on_asserted :
    let w : Ucom4.Wiring UInt8 := .cell id (fun value _ => value) 0
    let fresh := (Ucom4.reset w ⟨{}, ⟨0, {}, {}⟩⟩).2.core
    let lines : LineBank := { latches := [(LineLatch.released 2).set Ucom4.interruptLine .assert] }
    let m : Machine (Core UInt8) UInt8 :=
      ⟨.ucom4 w { fresh with regs := { fresh.regs with pc := 5 }, totalCycles := 9 },
        ⟨0, lines, {}⟩⟩
    Newly m.core (.ucom4 w fresh : Core UInt8) ∧
      (reset m).2.core.totalCycles = 9 ∧ (reset m).2.core.stateGet 0 = some 0 ∧
      ((reset m).2.world.lines.latch 0).level Ucom4.interruptLine = .assert ∧
      (m.world.lines.latch 0).hasEdge Ucom4.interruptLine = true ∧
      ((reset m).2.world.lines.latch 0).hasEdge Ucom4.interruptLine = false := by
  intro w fresh lines m
  have newly : Newly m.core (.ucom4 w fresh : Core UInt8) := by
    have built : ∃ world', Ucom4.build w.config w.program w.data w.io ⟨0, {}, {}⟩ =
        .ok ((w, fresh), world') := ⟨_, rfl⟩
    exact .ucom4 built.choose_spec
  have powers := reset_powers_on newly
  obtain ⟨level, edge⟩ := powers.latch.spared Ucom4.interruptLine (by decide +kernel)
  have pc := (powers.renewed 0 rfl).trans (show _ = some 0 by decide +kernel)
  exact ⟨newly, powers.totalCycles, pc, level, rfl, edge⟩

/-- A core that has loaded seven into its accumulator still has it after a reset. Its ports made it
wait, which is counted. -/
theorem reset_keeps_accumulator :
    let cell : Ucom4.Wiring UInt8 := .cell id (fun value _ => value) 0
    let w : Ucom4.Wiring UInt8 :=
      { cell with io := { cell.io with takeWaitStates := fun value => (5, value) } }
    let fresh := (Ucom4.reset w ⟨{}, ⟨0, {}, {}⟩⟩).2.core
    let s := (Ucom4.advance w 1 ⟨fresh, ⟨0x97, { latches := [.released 2] }, {}⟩⟩).2.core
    let after := (reset ⟨.ucom4 w s, ⟨0, { latches := [.released 2] }, {}⟩⟩).2.core
    (∃ world', Ucom4.build w.config w.program w.data w.io ⟨0, {}, {}⟩ =
        .ok ((w, fresh), world')) ∧
      after.stateGet 3 = some 7 ∧ (ucom4 w fresh).stateGet 3 = some 0 ∧
      after.diagnostics.waitStates = 5 ∧
      ¬((∀ index, after.stateGet index = (ucom4 w fresh).stateGet index) ∧
        after.diagnostics = {}) := by
  intro cell w fresh s after
  have kept : after.stateGet 3 = some 7 := by decide +kernel
  have started : (ucom4 w fresh).stateGet 3 = some 0 := by decide +kernel
  refine ⟨⟨_, rfl⟩, kept, started, by decide +kernel, fun same => ?_⟩
  exact nomatch kept.symm.trans ((same.1 3).trans started)

end Core

end Microboard
