import Microboard.Proofs.CoreTapes
import Microboard.Proofs.Sm83.Requests
import Microboard.Proofs.Sm83.Watching

/-!
# The interrupt registers are private

- **§1** Bus cycles, and the interrupt registers that they find.
- **§2** What the accesses of a core note, and what of it reaches the program space.
- **§3** Boundary actions.
- **§4** Everything that a host does.

`IE` and `IF` share their addresses with the program space, and the space must not notice. What it
is asked is on its tape, what the core did on its buses is in the note, and the two are compared.
-/

namespace Microboard.Sm83

open Microboard.Core (Command)

variable {σ : Type}

/-! ## §1 Bus cycles -/

/-- What the interrupt registers hold. -/
structure Interrupts where
  enable : UInt8
  request : UInt8

def Registers.interrupts (r : Registers) : Interrupts := ⟨r.ie, r.iflag⟩

/-- An address that leads to the program space: it has sixteen bits, and no interrupt register is
there. -/
structure Outside (address : UInt32) : Prop where
  fits : address < 0x10000
  enable : address ≠ 0xFFFF
  request : address ≠ 0xFF0F

/-- The bus cycle finds the interrupt registers as given first and leaves them as given last. -/
inductive Meets (held : Interrupts) : BusCycle → Interrupts → Prop where
  | program {direction : BusDirection} {address : UInt32} {value : UInt8}
      (outside : Outside address) : Meets held ⟨.program, direction, .byte, address, value⟩ held
  | readEnable : Meets held ⟨.internal, .read, .byte, 0xFFFF, held.enable⟩ held
  /-- The bits of `IF` that do not exist read as set. -/
  | readRequest : Meets held ⟨.internal, .read, .byte, 0xFF0F, held.request ||| 0xE0⟩ held
  | writeEnable {value : UInt8} :
      Meets held ⟨.internal, .write, .byte, 0xFFFF, value⟩ { held with enable := value }
  | writeRequest {value : UInt8} :
      Meets held ⟨.internal, .write, .byte, 0xFF0F, value⟩
        { held with request := value &&& 0x1F }

/-- Bus cycles of which each finds the interrupt registers as the one before left them. -/
inductive Chronicle (first : Interrupts) : List BusCycle → Interrupts → Prop where
  | start : Chronicle first [] first
  | next {bus : List BusCycle} {held after : Interrupts} {cycle : BusCycle} :
      Chronicle first bus held → Meets held cycle after → Chronicle first (bus ++ [cycle]) after

/-- Whether a bus cycle is one of the program space. -/
def onProgram (cycle : BusCycle) : Bool := cycle.role = .program

/-- Cycles of the program space are of one unit and lead there. -/
theorem Chronicle.outside {first last : Interrupts} {bus : List BusCycle}
    (chronicle : Chronicle first bus last) :
    ∀ cycle ∈ bus.filter onProgram, cycle.width = .byte ∧ Outside cycle.address := by
  induction chronicle with
  | start => exact nofun
  | @next bus _ _ cycle _ meets ih =>
    rw [List.filter_append]
    intro other there
    rcases List.mem_append.mp there with earlier | now
    · exact ih other earlier
    obtain ⟨only, program⟩ := List.mem_filter.mp now
    obtain rfl := List.mem_singleton.mp only
    cases meets with
    | program outside => exact ⟨rfl, outside⟩
    | readEnable | readRequest | writeEnable | writeRequest => exact nomatch program

/-! ## §2 Accesses -/

/-- An address of the core other than those of the interrupt registers leads to the program
space. -/
theorem outside_address {address : UInt16} (enable : address ≠ ieAddress)
    (request : address ≠ ifAddress) : Outside address.toUInt32 where
  fits := UInt32.lt_iff_toNat_lt.mpr address.toNat_lt
  enable same := enable (UInt16.toNat_inj.mp (congrArg UInt32.toNat same))
  request same := request (UInt16.toNat_inj.mp (congrArg UInt32.toNat same))

/-- The note of bus cycles accounts for the interrupt registers, and those of its cycles that are
the program space's are what has come onto the tape. -/
structure Private (first : Interrupts) (base : Tape) (m : Machine State (σ × Tape)) : Prop where
  chronicle : Chronicle first m.core.bus m.core.regs.interrupts
  tape : ∃ added, m.world.tape = base ++ added ∧
    added.map Transfer.cycle = m.core.bus.filter onProgram

section Accesses

variable {first : Interrupts} {base : Tape}

/-- A bus cycle that only the core sees. -/
theorem Private.internal {m : Machine State (σ × Tape)} (kept : Private first base m)
    {direction : BusDirection} {address : UInt32} {value : UInt8} (change : Registers → Registers)
    (meets : Meets m.core.regs.interrupts ⟨.internal, direction, .byte, address, value⟩
      (change m.core.regs).interrupts) :
    Private first base ⟨{ m.core with
      regs := change m.core.regs
      bus := m.core.bus ++ [⟨.internal, direction, .byte, address, value⟩] }, m.world⟩ where
  chronicle := kept.chronicle.next meets
  tape := by
    obtain ⟨added, tape, same⟩ := kept.tape
    refine ⟨added, tape, same.trans ?_⟩
    rw [List.filter_append]
    exact (List.append_nil _).symm

/-- A bus cycle of the program space, which has it on the tape. -/
theorem Private.outside {m : Machine State (σ × Tape)} (kept : Private first base m)
    {direction : BusDirection} {address value : UInt32} (outside : Outside address)
    {world : World (σ × Tape)}
    (taped : world.tape = m.world.tape ++ [⟨.program, direction, .byte, address, value⟩]) :
    Private first base ⟨{ m.core with
      bus := m.core.bus ++ [⟨.program, direction, .byte, address, value.toUInt8⟩] }, world⟩ where
  chronicle := kept.chronicle.next (.program outside)
  tape := by
    obtain ⟨added, tape, same⟩ := kept.tape
    refine ⟨added ++ [⟨.program, direction, .byte, address, value⟩], ?_, ?_⟩
    · show world.tape = _
      rw [taped, tape, List.append_assoc]
    · rw [List.map_append, List.filter_append, same]
      rfl

theorem read8_private (w : Wiring σ) (address : UInt16) :
    Keeps (Private first base) (read8 w.taped address) := by
  intro m kept
  unfold read8
  rw [eval_ite, eval_ite]
  by_cases enable : address = ieAddress
  · rw [if_pos enable, enable]
    exact kept.internal id .readEnable
  by_cases request : address = ifAddress
  · rw [if_neg enable, if_pos request, request]
    exact kept.internal id .readRequest
  rw [if_neg enable, if_neg request]
  obtain ⟨value, read, taped⟩ := m.world.tape_readUnit .program w.program address.toUInt32
  have noted := kept.outside (outside_address enable request) taped
  rw [← read] at noted
  exact noted

theorem write8_private (w : Wiring σ) (address : UInt16) (value : UInt8) :
    Keeps (Private first base) (write8 w.taped address value) := by
  intro m kept
  unfold write8
  rw [eval_ite, eval_ite]
  by_cases enable : address = ieAddress
  · rw [if_pos enable, enable]
    exact kept.internal ({ · with ie := value }) .writeEnable
  by_cases request : address = ifAddress
  · rw [if_neg enable, if_pos request, request]
    exact kept.internal (·.setIflag value) .writeRequest
  rw [if_neg enable, if_neg request]
  have taped := m.world.tape_writeUnit .program w.program address.toUInt32 value
  have noted := kept.outside (outside_address enable request) taped
  rw [UInt8.toUInt8_toUInt32] at noted
  exact noted

/-- Note and registers are as the core left them, whatever the rest of it and its world do without
the program space. -/
theorem Private.of_same {m m' : Machine State (σ × Tape)} (kept : Private first base m)
    (interrupts : m'.core.regs.interrupts = m.core.regs.interrupts)
    (bus : m'.core.bus = m.core.bus) (tape : m'.world.tape = m.world.tape) :
    Private first base m' where
  chronicle := by
    rw [interrupts, bus]
    exact kept.chronicle
  tape := by
    rw [bus, tape]
    exact kept.tape

theorem watches_private (w : Wiring σ) (first : Interrupts) (base : Tape) :
    Watches w.taped (Private first base) where
  modify quiet m kept := by
    refine kept.of_same ?_ (quiet.bus m.core) rfl
    exact congrArg₂ Interrupts.mk (quiet.ie m.core) (quiet.iflag m.core)
  read8 := read8_private w
  write8 := write8_private w
  takeWaitStates _ kept := kept.of_same rfl rfl rfl
  signal _ _ _ kept := kept.of_same rfl rfl rfl
  record _ _ kept := kept.of_same rfl rfl rfl

end Accesses

/-- Note and tape are as given. -/
structure Still (bus : List BusCycle) (tape : Tape) (m : Machine State (σ × Tape)) : Prop where
  bus : m.core.bus = bus
  tape : m.world.tape = tape

section Stillness

variable {bus : List BusCycle} {tape : Tape}

theorem enterHalt_still (w : Wiring σ) (stopped : Bool) :
    Keeps (Still bus tape) (enterHalt w.taped stopped) :=
  fun _ still => ⟨still.bus, still.tape⟩

theorem wake_still (w : Wiring σ) : Keeps (Still bus tape) (wake w.taped) :=
  fun _ still => ⟨still.bus, still.tape⟩

theorem reset_still (w : Wiring σ) : Keeps (Still bus tape) (reset w.taped) := by
  refine .bind (fun _ still => still) fun s => .whenFirst (fun _ still => ?_) fun _ still => ?_
  · exact ⟨still.bus, still.tape⟩
  · exact ⟨still.bus, still.tape⟩

theorem sampleReset_still (w : Wiring σ) : Keeps (Still bus tape) (sampleReset w.taped) := by
  refine .bind (fun _ still => ⟨still.bus, still.tape⟩) fun held =>
    .bind (fun _ still => still) fun s => .ite (fun _ => ?_) fun _ => .ite (fun _ => ?_) fun _ => ?_
  · exact .bind (reset_still w) fun _ => .bind (fun _ still => ⟨still.bus, still.tape⟩)
      fun _ => .pure held
  · exact fun _ still => ⟨still.bus, still.tape⟩
  · exact .pure held

/-- A debugger has no way to the buses. -/
theorem write_still (w : Wiring σ) (item : Export) (value : Nat) :
    Keeps (Still bus tape) (item.write w.taped value) := by
  cases item with
  | halted =>
    refine .bind (fun _ still => still) fun s => .ite (fun _ => enterHalt_still w s.stopped)
      fun _ => .ite (fun _ => wake_still w) fun _ => .pure ()
  | pc | sp | a | f | b | c | d | e | h | l | ime | ie | iflag | opcode | eiDelay =>
    exact fun _ still => ⟨still.bus, still.tape⟩
  | af | bc | de | hl | stopped | haltBug | currentPc | lastPc | stackPointer | flags =>
    exact fun _ still => ⟨still.bus, still.tape⟩

end Stillness

/-! ## §3 Actions -/

/-- The interrupt registers once the request has been taken that an action answers. -/
def Interrupts.entering (held : Interrupts) (answer : Except Fault StepOutcome) : Interrupts :=
  { held with request := held.request &&& ~~~bits (requestLines.filter (enters · answer)) }

theorem Interrupts.entering_calm {answer : Except Fault StepOutcome}
    (calm : ∀ vector cycles, answer ≠ .ok (.interrupt vector cycles)) (held : Interrupts) :
    held.entering answer = held := by
  have none : requestLines.filter (enters · answer) = [] :=
    List.filter_eq_nil_iff.mpr fun line _ => by rw [enters_calm calm]; exact Bool.false_ne_true
  have whole : ~~~bits [] = -1 := rfl
  unfold entering
  rw [none, whole, UInt8.and_neg_one]

theorem Interrupts.entering_source {source : InputLine} (known : source ∈ requestLines)
    (cycles : Nat) (held : Interrupts) :
    held.entering (.ok (.interrupt (handlerAddress source).toUInt32 cycles)) =
      { held with request := held.request &&& ~~~(1 <<< source) } := by
  have alone : ∀ source ∈ requestLines,
      bits (requestLines.filter fun line => decide (line = source)) = 1 <<< source := by
    decide +kernel
  unfold entering
  rw [List.filter_congr fun line requested => enters_source known requested cycles,
    alone source known]

section Acting

variable {first : Interrupts} {base : Tape}

/-- An answer, and a machine in which the accesses are accounted for that led to it. -/
def Accessed (first : Interrupts) (base : Tape) (answer : Except Fault StepOutcome)
    (m : Machine State (σ × Tape)) : Prop := Private (first.entering answer) base m

theorem runInstruction_accessed (w : Wiring σ) :
    Ensures (Private first base) (runInstruction w.taped) (Accessed first base) := by
  intro m kept
  have calm := (runInstruction_runsAt w.taped m).calm
  unfold Accessed
  rw [first.entering_calm calm]
  exact (watches_private w first base).runInstruction m kept

theorem stayHalted_accessed (w : Wiring σ) (remaining : Nat) (raised : UInt8) :
    Ensures (Private first base) (stayHalted w.taped remaining raised)
      fun step => Accessed first base (.ok step) := by
  intro m kept
  have calm : ∀ vector cycles, (Except.ok (stayHalted w.taped remaining raised m).1 :
      Except Fault StepOutcome) ≠ .ok (.interrupt vector cycles) := by
    rw [stayHalted_eq]
    split <;> exact nofun
  unfold Accessed
  rw [first.entering_calm calm]
  exact (watches_private w first base).stayHalted remaining raised m kept

/-- A core that has made no access yet. -/
theorem Still.kept {m : Machine State (σ × Tape)} (still : Still [] base m) :
    Private m.core.regs.interrupts base m where
  chronicle := by
    rw [still.bus]
    exact .start
  tape := ⟨[], still.tape.trans (List.append_nil base).symm, by rw [still.bus]; rfl⟩

theorem service_accessed (w : Wiring σ) {source : InputLine} (requested : source ∈ requestLines)
    {m : Machine State (σ × Tape)} (still : Still [] base m) :
    Accessed m.core.regs.interrupts base (.ok (service w.taped source m).1)
      (service w.taped source m).2 := by
  obtain ⟨cycles, answer⟩ : ∃ cycles, (service w.taped source m).1 =
      .interrupt (handlerAddress source).toUInt32 cycles := ⟨_, rfl⟩
  have taken : Still [] base ⟨m.core.interrupted source,
      (m.world.onLatch w.number fun latch => ((), latch.acknowledge source)).2⟩ :=
    ⟨still.bus, still.tape⟩
  unfold Accessed
  rw [answer, Interrupts.entering_source requested, service_handler]
  exact (watches_private w _ base).enterHandler source _ taken.kept

/-- Whatever a core does that has looked at its lines, its accesses are accounted for. -/
theorem act_accessed (w : Wiring σ) (remaining : Nat) (raised : UInt8)
    {m : Machine State (σ × Tape)} (still : Still [] base m) :
    Accessed m.core.regs.interrupts base (act w.taped remaining raised m).1
      (act w.taped remaining raised m).2 := by
  obtain ⟨-, acts⟩ | ⟨-, acts | ⟨source, requested, -, -, acts⟩⟩ :=
    act_cases w.taped remaining raised m
  · rw [acts]
    exact stayHalted_accessed w remaining raised m still.kept
  · rw [acts]
    exact runInstruction_accessed w ⟨{ m.core with eiDelay := false }, m.world⟩
      (still.kept.of_same rfl rfl rfl)
  · rw [acts]
    exact service_accessed w requested still

end Acting

/-- A core that acts: no fault is latched, and the reset line does not hold it. -/
structure Serving (w : Wiring σ) (m : Machine State σ) : Prop where
  awake : m.core.exec.latchedFault? = none
  released : Released w m

/-- The interrupt registers of such a core once it has sampled its lines. -/
def sampled (w : Wiring σ) (m : Machine State σ) : Interrupts :=
  ⟨m.core.regs.ie, m.core.regs.iflag ||| bits (waiting (m.world.lines.latch w.number))⟩

theorem sample_interrupts {w : Wiring σ} {m : Machine State σ} (released : Released w m) :
    (sample w m).2.core.regs.interrupts = sampled w m := by
  have regs := (sampleReset_released (m := unobserved m) released).2.1
  have enable : (sample w m).2.core.regs.ie = m.core.regs.ie := by
    have same := congrArg Registers.ie regs
    rw [sample_eq, latchRequests_eq]
    exact same
  exact congrArg₂ Interrupts.mk enable (sample_found released).1

/-- The accesses of an action are accounted for from the moment at which the lines were sampled. -/
theorem advance_accessed (w : Wiring σ) (remaining : Nat) {m : Machine State (σ × Tape)}
    (serving : Serving w.taped m) :
    Accessed (sampled w.taped m) m.world.tape (advance w.taped remaining m).1
      (advance w.taped remaining m).2 := by
  obtain ⟨-, bus, devices, -⟩ := sample_found serving.released
  have still : Still [] m.world.tape (sample w.taped m).2 := ⟨bus, congrArg Prod.snd devices⟩
  rw [← sample_interrupts serving.released,
    advance_sampled serving.awake serving.released remaining]
  exact act_accessed w remaining _ still

/-- A core that does not act makes no access. -/
theorem advance_still (w : Wiring σ) (remaining : Nat) {m : Machine State (σ × Tape)}
    (resting : ¬Serving w.taped m) :
    Still [] m.world.tape (advance w.taped remaining m).2 := by
  have cleared : Still [] m.world.tape (unobserved m) := ⟨rfl, rfl⟩
  cases fault : m.core.exec.latchedFault? with
  | some _ =>
    rw [advance_eq, fault]
    exact cleared
  | none =>
    rw [advance_held fault fun released => resting ⟨fault, released⟩]
    have still := sampleReset_still w (unobserved m) cleared
    exact ⟨still.bus, still.tape⟩

/-! ## §4 Operations -/

/-- What may be asked of the program space: one unit at an address that leads there. -/
structure Asked (transfer : Transfer) : Prop where
  unit : transfer.width = .byte
  outside : Outside transfer.address

theorem Private.asked {first : Interrupts} {base : Tape} {m : Machine State (σ × Tape)}
    (kept : Private first base m) (before : ∀ transfer ∈ base, Asked transfer) :
    ∀ transfer ∈ m.world.tape, Asked transfer := by
  obtain ⟨added, tape, same⟩ := kept.tape
  rw [tape]
  intro transfer there
  rcases List.mem_append.mp there with earlier | since
  · exact before transfer earlier
  · have noted : transfer.cycle ∈ m.core.bus.filter onProgram :=
      same ▸ List.mem_map_of_mem since
    obtain ⟨unit, outside⟩ := kept.chronicle.outside _ noted
    exact ⟨unit, outside⟩

/-- A core over a taped program space that has been asked for nothing else. -/
structure Discreet (w : Wiring σ) (m : Machine (Core (σ × Tape)) (σ × Tape)) : Prop where
  core : ∃ s, m.core = .sm83 w.taped s
  asked : ∀ transfer ∈ m.world.tape, Asked transfer

theorem apply_discreet (w : Wiring σ) (command : Command) :
    Keeps (Discreet w) command.apply := by
  refine Core.apply_keeps ?resets ?acts ?requests ?writes command
  case resets =>
    rintro ⟨_, world⟩ ⟨⟨s, rfl⟩, asked⟩
    have still := reset_still w ⟨s, world⟩ ⟨rfl, rfl⟩
    refine ⟨⟨_, rfl⟩, ?_⟩
    show ∀ transfer ∈ (reset w.taped ⟨s, world⟩).2.world.tape, _
    rw [still.tape]
    exact asked
  case acts =>
    rintro remaining ⟨_, world⟩ ⟨⟨s, rfl⟩, asked⟩
    refine ⟨⟨_, rfl⟩, ?_⟩
    show ∀ transfer ∈ (advance w.taped remaining ⟨s, world⟩).2.world.tape, _
    by_cases serving : Serving w.taped ⟨s, world⟩
    · exact (advance_accessed w remaining serving).asked asked
    · rw [(advance_still w remaining serving).tape]
      exact asked
  case requests =>
    rintro line level ⟨_, world⟩ ⟨⟨s, rfl⟩, asked⟩
    exact ⟨⟨s, rfl⟩, asked⟩
  case writes =>
    rintro index value ⟨_, world⟩ ⟨⟨s, rfl⟩, asked⟩
    unfold Core.stateSet
    dsimp only
    cases Export.find? index with
    | none => exact ⟨⟨s, rfl⟩, asked⟩
    | some item =>
      have still := write_still w item value ⟨s, world⟩ ⟨rfl, rfl⟩
      refine ⟨⟨_, rfl⟩, ?_⟩
      show ∀ transfer ∈ (item.write w.taped value ⟨s, world⟩).2.world.tape, _
      rw [still.tape]
      exact asked

/-- The machine with one more bus cycle in the note of its core. -/
def noted (cycle : BusCycle) (m : Machine State σ) : Machine State σ :=
  ⟨{ m.core with bus := m.core.bus ++ [cycle] }, m.world⟩

/-- The machine with other values in the registers of its core. -/
def rewritten (change : Registers → Registers) (m : Machine State σ) : Machine State σ :=
  ⟨{ m.core with regs := change m.core.regs }, m.world⟩

/-- The interrupt registers are private. Whatever a host does, the program space is asked for one
unit at a time, below 0x10000, and neither for `IE` nor for `IF`; to put what it is asked on a tape
changes nothing. In every action each bus cycle at an interrupt register finds and leaves it as it
should, in view of all the cycles before, and the others are those that the space gets to see. A
read touches nothing but the note of bus cycles, and a write nothing but that and the register. -/
theorem interrupt_registers_private (w : Wiring σ) :
    (∀ (s : State) (world : World σ) (commands : List Command),
      let m : Machine (Core σ) σ := ⟨.sm83 w s, world⟩
      let taped := (Core.operate commands m.taped).2
      Core.Taped (Core.operate commands m).2 taped ∧
        ∀ transfer ∈ taped.world.tape, Asked transfer) ∧
    (∀ (m : Machine State (σ × Tape)) (remaining : Nat),
      let after := advance w.taped remaining m
      (Serving w.taped m →
        Private ((sampled w.taped m).entering after.1) m.world.tape after.2) ∧
      (¬Serving w.taped m → Still [] m.world.tape after.2)) ∧
    (∀ m : Machine State σ,
      read8 w 0xFFFF m =
        (m.core.regs.ie, noted ⟨.internal, .read, .byte, 0xFFFF, m.core.regs.ie⟩ m) ∧
      read8 w 0xFF0F m = (m.core.regs.iflag ||| 0xE0,
        noted ⟨.internal, .read, .byte, 0xFF0F, m.core.regs.iflag ||| 0xE0⟩ m)) ∧
    (∀ (m : Machine State σ) (value : UInt8),
      write8 w 0xFFFF value m =
        ((), noted ⟨.internal, .write, .byte, 0xFFFF, value⟩
          (rewritten ({ · with ie := value }) m)) ∧
      write8 w 0xFF0F value m =
        ((), noted ⟨.internal, .write, .byte, 0xFF0F, value⟩
          (rewritten ({ · with iflag := value &&& 0x1F }) m))) := by
  refine ⟨fun s world commands => ⟨?_, ?_⟩, fun m remaining => ⟨?_, ?_⟩,
    fun m => ⟨rfl, rfl⟩, fun m value => ⟨rfl, rfl⟩⟩
  · exact (Core.operate_taped commands _ _ (Core.taped_start _)).2
  · have start : Discreet w (Machine.taped ⟨.sm83 w s, world⟩) := ⟨⟨s, rfl⟩, nofun⟩
    exact (Core.operate_keeps (apply_discreet w) commands _ start).asked
  · exact advance_accessed w remaining
  · exact advance_still w remaining

/-- The entry of an interrupt with the stack at the bottom of memory: half of the return address is
pushed into `IE`, and the program space gets to see the other half only. -/
theorem interrupt_registers_private_entry :
    let w : Wiring UInt8 := .cell id (fun value _ => value) 0
    let m : Machine State (UInt8 × Tape) :=
      ⟨{ regs := { sp := 0, pc := 0x1234, ime := true, ie := 1, iflag := 1 } },
        ⟨(0, []), { latches := [.released 6] }, {}⟩⟩
    let after := advance w.taped 1 m
    Private ((sampled w.taped m).entering after.1) [] after.2 ∧ after.2.core.regs.ie = 0x12 ∧
      after.2.core.bus = [⟨.internal, .write, .byte, 0xFFFF, 0x12⟩,
        ⟨.program, .write, .byte, 0xFFFE, 0x34⟩] ∧
      after.2.world.tape = [⟨.program, .write, .byte, 0xFFFE, 0x34⟩] := by
  intro w m after
  exact ⟨((interrupt_registers_private w).2.1 m 1).1 ⟨rfl, rfl⟩, by decide +kernel,
    by decide +kernel, by decide +kernel⟩

end Microboard.Sm83
