import Microboard.Proofs.Boards
import Microboard.Proofs.CoreClocks
import Microboard.Proofs.CoreListings
import Microboard.Proofs.Sm83.Refusing
import Microboard.Proofs.Ucom4.Refusing

/-!
# Illegal opcodes that stop a core

Under the strict policy an instruction is refused halfway: its bytes are fetched, the core has
looked at its lines and has taken note of both. Nothing of what instructions compute with has changed
by then, nor has the clock.

- **§1** Reading from a board leaves its memory alone.
- **§2** Cores of either family that refuse an instruction.
- **§3** What the action leaves, item by item.
- **§4** A core fails in no other way.
- **§5** Actions and runs.
-/

namespace Microboard

variable {σ δ : Type}

/-! ## §1 Boards -/

theorem AddressMap.regions_readUnit (map : AddressMap δ) (address : UInt32) (devices : δ) :
    (map.readUnit address devices).value.2.regions = map.regions := by
  unfold readUnit
  cases map.target? (map.decode address) with
  | none => rfl
  | some target =>
    obtain ⟨waits, device⟩ := target
    cases device <;> rfl

namespace Board

/-- Everything that is stored on a board. -/
def memory (board : Board δ) : List (List (Region δ)) := board.maps.map (·.regions)

/-- A read stores nothing, whatever it does to a device. -/
theorem memory_readUnit (config : SpaceConfig) (slot : Nat) (address : UInt32) (board : Board δ) :
    ((space config slot).readUnit address board).state.memory = board.memory := by
  -- of all maps only that in the slot is touched, and reading it leaves its regions alone
  have maps : ((space config slot).readUnit address board).state.maps =
      board.maps.modify slot fun map => (map.readUnit address board.devices).value.2 :=
    maps_access slot board
  unfold memory
  rw [maps]
  apply List.ext_getElem?
  intro i
  rw [List.getElem?_map, List.getElem?_map, List.getElem?_modify]
  cases board.maps[i]? with
  | none => rfl
  | some map =>
    refine congrArg some ?_
    dsimp only
    split
    · exact map.regions_readUnit address board.devices
    · rfl

end Board

namespace Core

/-! ## §2 Refused instructions -/

/-- What leads from the address of a byte to that of the next one. -/
def nextAddress : Core σ → UInt16 → UInt16
  | .sm83 .. => (· + 1)
  | .ucom4 w _ => w.geometry.nextAddress

/-- Whether an opcode is fetched without moving the program counter. -/
def repeats : Core σ → Bool
  | .sm83 _ s => s.haltBug
  | .ucom4 .. => false

/-- Where the program counter is once some bytes are fetched. -/
def past (count : Nat) (core : Core σ) : UInt16 :=
  if core.repeats then core.pc else core.nextAddress^[count] core.pc

/-- Bytes of the instruction with an opcode. -/
def size (opcode : UInt8) : Core σ → Nat
  | .sm83 .. => (Sm83.decode opcode).length
  | .ucom4 w _ => (Ucom4.decode w.geometry.family opcode).length

/-- Space from which the core fetches. -/
def program : Core σ → Space σ
  | .sm83 w _ => w.program
  | .ucom4 w _ => w.program

/-- The bytes that the next action fetches if it refuses them. An SM83 core has no need of more
than the opcode for that. -/
def instruction : Machine (Core σ) σ → Access σ (List UInt8)
  | ⟨.sm83 w s, world⟩ => do return [← w.finds ⟨s, world⟩]
  | ⟨.ucom4 w s, _⟩ => w.instruction s.regs.pc

/-- The next action begins an instruction that the core does not skip, the opcode is illegal, and
the policy is the strict one. -/
def Refuses : Machine (Core σ) σ → List UInt8 → Prop
  | ⟨.sm83 w s, world⟩, bytes => ∃ opcode, bytes = [opcode] ∧ Sm83.Begins w ⟨s, world⟩ opcode ∧
      Sm83.decode opcode = .illegal ∧ w.config.policy = .fatal
  | ⟨.ucom4 w s, world⟩, bytes => Ucom4.Executes w ⟨s, world⟩ bytes ∧
      (Ucom4.decode w.geometry.family (bytes.headD 0)).operation = .illegal ∧
      w.config.policy = .fatal

/-- The fault of a core that refuses some bytes. -/
def refusal (bytes : List UInt8) (core : Core σ) : Fault :=
  .illegalOpcode core.pc.toUInt32 (bytes.headD 0)

/-- The core once it has refused some bytes. -/
def refusing : Machine (Core σ) σ → List UInt8 → Core σ
  | ⟨.sm83 w s, world⟩, bytes => .sm83 w (.refusing w ⟨s, world⟩ (bytes.headD 0))
  | ⟨.ucom4 w s, world⟩, bytes => .ucom4 w
      { Ucom4.State.refusing w ⟨s, world⟩ bytes with
        exec := .faultLatched (.illegalOpcode s.regs.pc.toUInt32 (bytes.headD 0)) }

/-- Everything that instructions compute with is as it was: the registers but for the program
counter and the requests that wait in them, with stack pointer or call stack, flags, master enable
and port latches, and what `STOP` has left; and of a part of the uCOM-4 family, the skip and the
timer. -/
def Intact : Core σ → Core σ → Prop
  | .sm83 w s, .sm83 w' s' => w' = w ∧ s'.stopped = s.stopped ∧
      s'.regs = { s.regs with pc := s'.regs.pc, iflag := s'.regs.iflag }
  | .ucom4 w s, .ucom4 w' s' => w' = w ∧ s'.skip = s.skip ∧ s'.timer = s.timer ∧
      s'.regs = { s.regs with pc := s'.regs.pc, intFlag := s'.regs.intFlag }
  | _, _ => False

/-- What an action makes of a core that refuses some bytes, and of its surroundings. -/
structure Stopped (m : Machine (Core σ) σ) (bytes : List UInt8)
    (after : Except Fault StepOutcome × Machine (Core σ) σ) : Prop where
  answer : after.1 = .error (m.core.refusal bytes)
  /-- The whole of the core. -/
  core : after.2.core = refusing m bytes
  latched : after.2.core.exec = .faultLatched (m.core.refusal bytes)
  intact : m.core.Intact after.2.core
  size : bytes.length = m.core.size (bytes.headD 0)
  pc : after.2.core.pc = m.core.past bytes.length
  clock : after.2.core.totalCycles = m.core.totalCycles
  outputs : after.2.core.status.outputs = m.core.status.outputs
  diagnostics : after.2.core.diagnostics =
    { m.core.diagnostics with
      illegalOpcodes := satAdd m.core.diagnostics.illegalOpcodes 1
      lastIllegal := some ⟨m.core.pc.toUInt32, bytes.headD 0⟩ }
  /-- The devices have seen the fetch of the bytes, and no other access. -/
  devices : after.2.world.devices = (instruction m m.world.devices).state
  /-- What a read leaves alone is as it was: on a board, everything that is stored. -/
  view : ∀ (α : Type) (view : σ → α),
    (∀ address devices, view (m.core.program.readUnit address devices).state = view devices) →
    view after.2.world.devices = view m.world.devices

/-! ## §3 What is left -/

variable {m : Machine (Core σ) σ} {bytes : List UInt8}

/-- Answer, core and devices after an action that refuses some bytes. -/
theorem Refuses.advance_eq (refuses : Refuses m bytes) (remaining : Nat) :
    let after := advance remaining m
    (after.1, after.2.core, after.2.world.devices) =
      (.error (m.core.refusal bytes), refusing m bytes, (instruction m m.world.devices).state) := by
  obtain ⟨core, world⟩ := m
  cases core with
  | sm83 w s =>
    obtain ⟨opcode, rfl, begins, illegal, fatal⟩ := refuses
    have refused := begins.refuses illegal fatal remaining
    exact congrArg (fun (answer, s, devices) => (answer, Core.sm83 w s, devices)) refused
  | ucom4 w s =>
    obtain ⟨executes, illegal, fatal⟩ := refuses
    have refused := executes.refuses illegal remaining
    unfold Ucom4.refusal at refused
    rw [fatal] at refused
    exact congrArg (fun (answer, s, devices) => (answer, Core.ucom4 w s, devices)) refused

theorem refusing_exec (m : Machine (Core σ) σ) (bytes : List UInt8) :
    (refusing m bytes).exec = .faultLatched (m.core.refusal bytes) := by
  obtain ⟨core, world⟩ := m
  cases core <;> rfl

theorem refusing_intact (m : Machine (Core σ) σ) (bytes : List UInt8) :
    m.core.Intact (refusing m bytes) := by
  obtain ⟨core, world⟩ := m
  cases core with
  | sm83 w s => exact ⟨rfl, rfl, rfl⟩
  | ucom4 w s => exact ⟨rfl, rfl, rfl, rfl⟩

/-- The part of the state that all families share. -/
theorem refusing_status (m : Machine (Core σ) σ) (bytes : List UInt8) :
    (refusing m bytes).status =
      { m.core.status with
        exec := .faultLatched (m.core.refusal bytes)
        inReset := false
        bus := (refusing m bytes).status.bus
        diagnostics := m.core.diagnostics.recordIllegal m.core.pc.toUInt32 (bytes.headD 0) } := by
  obtain ⟨core, world⟩ := m
  cases core <;> rfl

/-- An illegal opcode is as long as the table says. -/
theorem Refuses.size (refuses : Refuses m bytes) :
    bytes.length = m.core.size (bytes.headD 0) := by
  obtain ⟨core, world⟩ := m
  cases core with
  | sm83 w s =>
    obtain ⟨opcode, rfl, -, illegal, -⟩ := refuses
    show 1 = (Sm83.decode opcode).length
    rw [illegal]
    rfl
  | ucom4 w s =>
    obtain ⟨executes, -, -⟩ := refuses
    rw [← executes.fetched]
    exact Ucom4.length_instruction w s.regs.pc world.devices

theorem Refuses.pc (refuses : Refuses m bytes) :
    (refusing m bytes).pc = m.core.past bytes.length := by
  obtain ⟨core, world⟩ := m
  cases core with
  | sm83 w s =>
    obtain ⟨opcode, rfl, -, -, -⟩ := refuses
    rfl
  | ucom4 w s => rfl

/-- The fetch of an instruction is made of reads of the program space. -/
theorem instruction_view {α : Type} {view : σ → α}
    (traceless : ∀ address devices,
      view (m.core.program.readUnit address devices).state = view devices) (devices : σ) :
    view (instruction m devices).state = view devices := by
  obtain ⟨core, world⟩ := m
  cases core with
  | sm83 w s => exact Sm83.Wiring.loads_view traceless _ _ devices
  | ucom4 w s => exact Ucom4.Wiring.instruction_view traceless _ devices

theorem Refuses.stopped (refuses : Refuses m bytes) (remaining : Nat) :
    Stopped m bytes (advance remaining m) := by
  obtain ⟨answer, left⟩ := Prod.mk.inj (refuses.advance_eq remaining)
  obtain ⟨core, devices⟩ := Prod.mk.inj left
  have status := refusing_status m bytes
  have clock := congrArg CoreStatus.totalCycles status
  have outputs := congrArg CoreStatus.outputs status
  have diagnostics := congrArg CoreStatus.diagnostics status
  exact
    { answer := answer
      core := core
      latched := core ▸ refusing_exec m bytes
      intact := core ▸ refusing_intact m bytes
      size := refuses.size
      pc := core ▸ refuses.pc
      clock := core ▸ clock
      outputs := core ▸ outputs
      diagnostics := core ▸ diagnostics
      devices := devices
      view := fun α view traceless => by
        rw [devices]
        exact instruction_view traceless m.world.devices }

/-! ## §4 Failing actions -/

/-- A core that has no fault latched fails only when it refuses an instruction. -/
theorem refuses_of_error (awake : m.core.exec.latchedFault? = none) {remaining : Nat}
    {fault : Fault} (fails : (advance remaining m).1 = .error fault) :
    ∃ bytes, Refuses m bytes := by
  obtain ⟨core, world⟩ := m
  cases core with
  | sm83 w s =>
    obtain ⟨opcode, begins, illegal, fatal⟩ :=
      Sm83.begins_of_error (w := w) (m := ⟨s, world⟩) awake fails
    exact ⟨[opcode], opcode, rfl, begins, illegal, fatal⟩
  | ucom4 w s =>
    obtain ⟨bytes, executes, illegal, fatal⟩ :=
      Ucom4.executes_of_error (w := w) (m := ⟨s, world⟩) awake fails
    exact ⟨bytes, executes, illegal, fatal⟩

/-- An action that succeeds leaves no fault latched. -/
theorem advance_awake (remaining : Nat) (m : Machine (Core σ) σ) (step : StepOutcome)
    (awake : m.core.exec.latchedFault? = none) (succeeds : (advance remaining m).1 = .ok step) :
    (advance remaining m).2.core.exec.latchedFault? = none := by
  obtain ⟨core, world⟩ := m
  cases core with
  | sm83 w s =>
    exact (Sm83.advance_answers w remaining ⟨s, world⟩).awake awake succeeds
  | ucom4 w s => exact Ucom4.advance_awake (m := ⟨s, world⟩) awake succeeds

/-! ## §5 Actions and runs -/

/-- Whatever the state of a core that is about to run an instruction and of its surroundings: an
illegal opcode that is not skipped stops it under the strict policy, with the effects that `Stopped`
tells and no others. Nothing else makes a core fail that has no fault latched, so a run that ends
with a fault ends so. The clock has moved on by the cycles of the actions before then. -/
theorem illegal_opcode_stops (m : Machine (Core σ) σ) :
    (∀ bytes, Refuses m bytes → ∀ remaining, Stopped m bytes (advance remaining m)) ∧
    ∀ budget fault m', run budget m = (.error fault, m') → m.core.exec.latchedFault? = none →
      ∃ steps left before bytes, Passes (min budget counterMax) m steps left before ∧
        advance left before = (.error fault, m') ∧ Refuses before bytes ∧
        Stopped before bytes (.error fault, m') ∧
        (m.core.totalCycles ≤ counterMax →
          m'.core.totalCycles = satAdd m.core.totalCycles (steps.map (·.cycles)).sum) := by
  refine ⟨fun bytes refuses => refuses.stopped, fun budget fault m' ends awake => ?_⟩
  obtain ⟨steps, left, before, passes, fails⟩ := run_faults ends
  -- no action before the last has latched a fault, so the last one refuses an opcode
  have still := passes.keeps (P := fun m => m.core.exec.latchedFault? = none)
    (fun remaining m step awake succeeds => advance_awake remaining m step awake succeeds) awake
  obtain ⟨bytes, refuses⟩ := refuses_of_error still (congrArg Prod.fst fails)
  have stopped := refuses.stopped left
  rw [fails] at stopped
  refine ⟨steps, left, before, bytes, passes, fails, refuses, stopped, fun range => ?_⟩
  rw [← passes.clock range]
  exact stopped.clock

/-- An opcode that an SM83 core fetches for the second time after the halt bug, and a run of a
uCOM-4 part over a board: it starts its timer with `STM`, and stops at an opcode without a use. -/
theorem illegal_opcode_stops_hole :
    let cell : Sm83.Wiring UInt8 := .cell id (fun value _ => value) 0
    let repeated : Machine (Core UInt8) UInt8 :=
      ⟨.sm83 cell { regs := { pc := 5 }, haltBug := true },
        ⟨0xD3, { latches := [.released 6] }, {}⟩⟩
    let rom : AddressMap Unit :=
      { config := ⟨"program", 11, 8, .little⟩, regions := [⟨0, 2, 0, .rom #[0x14, 0x80, 0x1C]⟩] }
    let part : Ucom4.Wiring (Board Unit) :=
      { config := { core := { clockHz := 400000, illegalOpcodes := some .fatal }, part := .upd553 }
        program := Board.space rom.config 0, data := Board.space ⟨"data", 7, 4, .little⟩ 1
        io := Board.space ⟨"io", 4, 4, .little⟩ 2, number := 0 }
    let m : Machine (Core (Board Unit)) (Board Unit) :=
      ⟨.ucom4 part {}, ⟨{ maps := [rom], devices := () }, { latches := [.released 2] }, {}⟩⟩
    let after := (run 10 m).2
    ((advance 1 repeated).1 = .error (.illegalOpcode 5 0xD3) ∧
      (advance 1 repeated).2.core.pc = 5) ∧
    ∃ fault steps left before bytes, (run 10 m).1 = .error fault ∧ Passes 10 m steps left before ∧
      Stopped before bytes (.error fault, after) ∧
      after.core.totalCycles = satAdd 0 (steps.map (·.cycles)).sum ∧
      after.world.devices.memory = before.world.devices.memory := by
  intro cell repeated rom part m after
  have refuses : Refuses repeated [0xD3] := ⟨0xD3, rfl, ⟨rfl, rfl, nofun, rfl, rfl⟩, rfl, rfl⟩
  have stopped := (illegal_opcode_stops repeated).1 [0xD3] refuses 1
  refine ⟨⟨stopped.answer, stopped.pc⟩, ?_⟩
  have failed : (run 10 m).1.toOption = none := by decide +kernel
  obtain ⟨fault, ends⟩ : ∃ fault, (run 10 m).1 = .error fault := by
    cases answer : (run 10 m).1 with
    | error fault => exact ⟨fault, rfl⟩
    | ok outcome =>
      rw [answer] at failed
      nomatch failed
  obtain ⟨steps, left, before, bytes, passes, -, -, stopped, clock⟩ :=
    (illegal_opcode_stops m).2 10 fault after (Prod.ext ends rfl) rfl
  refine ⟨fault, steps, left, before, bytes, ends, passes, stopped, clock (Nat.zero_le _), ?_⟩
  refine stopped.view _ Board.memory fun address board => ?_
  -- the core is still over the spaces that it was over at first
  have wired := passes.wiring
  obtain ⟨core, world⟩ := before
  cases core with
  | sm83 w s => nomatch wired
  | ucom4 w s =>
    obtain rfl := Sum.inr.inj wired
    exact Board.memory_readUnit _ _ address board

end Core

end Microboard
