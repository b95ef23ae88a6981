import Microboard.Sm83.Execute

/-!
# SM83 boundary actions

What a core does between two instruction boundaries: reset, latching of interrupt requests,
idling, waking, interrupt dispatch, or one instruction. Input lines are looked at only here, at
the start of an action.
-/

namespace Microboard.Sm83

variable {σ : Type}

/-! ## §1 Reset -/

/-- Power-on state. Requested line levels and the cycle total are kept; latched edges are not. -/
def reset (w : Wiring σ) : Exec σ Unit := do
  -- a halted core has its halt output asserted
  if (← getState).exec = .halted then
    drive w haltOut false
  let regs := w.config.powerOn
  modifyState fun s =>
    { s with
      regs
      exec := .fetching
      stopped := false
      haltBug := false
      eiDelay := false
      lastPc := regs.pc
      opcode := 0
      diagnostics := {} }
  Machine.onLatch w.number fun latch => ((), latch.discardEdges)
  Machine.record (.reset name (some regs.pc))

/-- Builds a core in a world, resets it and plugs its lines in. A core that drives lines of its
own while it is being built drives nothing. -/
def build (config : Config) (program : Space σ) (world : World σ) :
    Except SetupError ((Wiring σ × State) × World σ) := do
  config.core.validate
  program.config.require "program" 16 8
  let w : Wiring σ := { config, program, number := world.lines.latches.length }
  -- the number is that of the latch that is plugged in last
  let ((), ⟨state, world⟩) := (reset w).run ⟨{}, world⟩
  return ((w, state), world.plug lines.length)

/-! ## §2 Boundary sampling -/

/-- Tracks the reset line and says whether it holds the core. -/
def sampleReset (w : Wiring σ) : Exec σ Bool := do
  let held ← Machine.onLatch w.number (·.sample resetLine .level)
  let inReset := (← getState).inReset
  if held && !inReset then
    reset w
    modifyState fun s => { s with inReset := true, exec := .idle }
  else if !held && inReset then
    modifyState fun s => { s with inReset := false, exec := .fetching }
    Machine.record (.resetReleased name)
  return held

/-- Takes the edges of the given lines and answers them as bits. -/
def takeEdges (latch : LineLatch) : List InputLine → UInt8 × LineLatch
  | [] => (0, latch)
  | line :: rest =>
    let (raised, latch) := latch.sample line .edge
    let (bits, latch) := takeEdges latch rest
    (if raised then 1 <<< line ||| bits else bits, latch)

/-- Moves latched request edges into `IF` and answers the newly raised bits. -/
def latchRequests (w : Wiring σ) : Exec σ UInt8 := do
  let raised ← Machine.onLatch w.number (takeEdges · requestLines)
  modifyRegs fun r => { r with iflag := r.iflag ||| raised }
  return raised

/-! ## §3 Actions -/

/-- Cycles of one idle step: the remaining budget in whole machine cycles of four clocks, at
least one and at most 1024 of them. -/
def idleCycles (remaining : Nat) : Nat := 4 * max 1 (min ((remaining + 3) / 4) 1024)

/-- Lets time pass. -/
def idle (remaining : Nat) : Exec σ StepOutcome := do
  let cycles := idleCycles remaining
  charge cycles
  return .idle cycles

def interruptCycles : Nat := 20

def wakeCycles : Nat := 4

/-- The pending source of highest priority, if interrupts are enabled. -/
def Registers.nextInterrupt? (regs : Registers) : Option InputLine :=
  if regs.ime then requestLines.find? fun line => regs.pending &&& 1 <<< line != 0 else none

/-- Address of the handler of a source. -/
def handlerAddress (source : InputLine) : UInt16 := 0x40 + 8 * source.toUInt16

/-- Interrupt entry sequence. -/
def service (w : Wiring σ) (source : InputLine) : Exec σ StepOutcome := do
  modifyState fun s =>
    { s with
      exec := .servicingInterrupt
      regs := { s.regs with ime := false, iflag := s.regs.iflag &&& ~~~(1 <<< source) }
      lastPc := s.regs.pc }
  Machine.onLatch w.number fun latch => ((), latch.acknowledge source)
  let handler := handlerAddress source
  callTo w handler
  drive w acknowledgeOut true
  drive w acknowledgeOut false
  let cycles := interruptCycles + (← drainWaitStates w)
  charge cycles
  modifyStatus fun s =>
    { s with diagnostics := s.diagnostics.recordInterrupt, exec := .fetching }
  Machine.record (.interruptDispatched name (some source) handler)
  return .interrupt handler.toUInt32 cycles

/-- Reads the opcode at the program counter. -/
def fetchOpcode (w : Wiring σ) : Exec σ UInt8 := do
  let opcode ← read8 w (← getRegs).pc
  modifyState fun s =>
    -- after the halt bug the same byte is fetched once more
    if s.haltBug then { s with haltBug := false, opcode }
    else { s with regs := { s.regs with pc := s.regs.pc + 1 }, opcode }
  return opcode

/-- Ends an instruction: takes wait states, counts, and answers the outcome. -/
def retire (w : Wiring σ) (pc : UInt16) (opcode : UInt8) (cost : Nat) : Exec σ StepOutcome := do
  -- `HALT` and `STOP` have already left the core halted
  modifyStatus fun s => if s.exec = .executing then { s with exec := .fetching } else s
  let cycles := cost + (← drainWaitStates w)
  charge cycles
  modifyStatus fun s => { s with diagnostics := s.diagnostics.recordInstruction }
  Machine.record (.retired name pc opcode cycles)
  return .retired pc.toUInt32 cycles

def runInstruction (w : Wiring σ) : Exec σ (Except Fault StepOutcome) := do
  let pc := (← getRegs).pc
  modifyState fun s => { s with lastPc := pc, exec := .executing }
  let opcode ← fetchOpcode w
  let op := decode opcode
  if op = .illegal then
    modifyStatus fun s =>
      { s with diagnostics := s.diagnostics.recordIllegal pc.toUInt32 opcode }
    let policy := w.config.policy
    Machine.record (.illegalOpcode name pc opcode policy)
    match policy with
    | .fatal =>
      let fault := Fault.illegalOpcode pc.toUInt32 opcode
      modifyStatus ({ · with exec := .faultLatched fault })
      return .error fault
    | .nop => return .ok (← retire w pc opcode op.cost.base)
  else
    let cost ← execute w op
    return .ok (← retire w pc opcode cost)

/-- A halted core resumes on a pending interrupt; a stopped one only on a joypad request. -/
def wakes (s : State) (raised : UInt8) : Bool :=
  if s.stopped then raised &&& 1 <<< joypad != 0 else s.regs.pending != 0

/-- Boundary action of a halted core. -/
def stayHalted (w : Wiring σ) (remaining : Nat) (raised : UInt8) : Exec σ StepOutcome := do
  if wakes (← getState) raised then
    wake w
    charge wakeCycles
    return .idle wakeCycles
  else
    idle remaining

/-- Boundary action of a running core. -/
def runBoundary (w : Wiring σ) : Exec σ (Except Fault StepOutcome) := do
  let s ← getState
  -- the instruction after `EI` runs before any interrupt
  if s.eiDelay then
    modifyState ({ · with eiDelay := false })
    runInstruction w
  else
    match s.regs.nextInterrupt? with
    | some source => return .ok (← service w source)
    | none => runInstruction w

/-- One boundary action. A core that is halted or held in reset lets at most the remaining
budget pass, rounded up to whole machine cycles. -/
def advance (w : Wiring σ) (remaining : Nat) : Exec σ (Except Fault StepOutcome) := do
  modifyStatus ({ · with bus := [] })
  match (← getState).exec.latchedFault? with
  -- a latched fault is answered again, whatever the lines say
  | some fault => return .error fault
  | none =>
    if ← sampleReset w then
      return .ok (← idle remaining)
    let raised ← latchRequests w
    if (← getState).exec = .halted then
      return .ok (← stayHalted w remaining raised)
    else
      runBoundary w

end Microboard.Sm83
