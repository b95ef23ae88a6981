import Microboard.Ucom4.Execute

/-!
# uCOM-4 boundary actions

What a core does between two instruction boundaries: reset, idling, interrupt entry, or one
instruction. Input lines are looked at only here, at the start of an action.
-/

namespace Microboard.Ucom4

variable {σ : Type}

/-! ## §1 Reset -/

/-- Ports that a reset drives low, where the part can write them. -/
def resetPorts : List UInt8 := [2, 3, 4, 5, 6, 7, 8]

def clearPorts (w : Wiring σ) : List UInt8 → Exec σ Unit
  | [] => return ()
  | port :: ports => do
    if w.geometry.ports.writable port then
      output w port 0
    clearPorts w ports

/-- Power-on state. Data pointer, accumulator, carries, timer flag and call stack keep their
values, as do requested line levels and the cycle total; latched edges are dropped. -/
def reset (w : Wiring σ) : Exec σ Unit := do
  modifyState fun s =>
    { s with
      regs := { s.regs with
        pc := 0
        intFlag := false
        intEnable := w.geometry.family = .ucom44 }
      opcode := 0
      lastPc := 0
      skip := false
      timer := none
      exec := .fetching
      diagnostics := {} }
  Machine.onLatch w.number fun latch => ((), latch.discardEdges)
  clearPorts w resetPorts
  discard <| drainWaitStates w
  Machine.record (.reset w.name none)

/-- Builds a core in a world, resets it and plugs its lines in. A device that drives lines of the
core while it is being built drives nothing. -/
def build (config : Config) (program data io : Space σ) (world : World σ) :
    Except SetupError ((Wiring σ × State) × World σ) := do
  config.core.validate
  let g := config.geometry
  g.validate
  program.config.require "program" g.programWidth 8
  data.config.require "data" g.dataWidth 4
  io.config.require "io" 4 4
  let w : Wiring σ := { config, program, data, io, number := world.lines.latches.length }
  let ((), ⟨state, world⟩) := (reset w).run ⟨{}, world⟩
  return ((w, state), world.plug (lines config).length)

/-! ## §2 Boundary sampling -/

/-- Tracks the reset line and says whether it holds the core. -/
def sampleReset (w : Wiring σ) : Exec σ Bool := do
  let held ← Machine.onLatch w.number (·.sample resetLine .level)
  let inReset := (← getState).inReset
  if held && !inReset then
    reset w
    modifyState fun s => { s with inReset := true, exec := .idle }
  else if !held && inReset then
    modifyState fun s => { s with inReset := false, exec := .fetching }
    Machine.record (.resetReleased w.name)
  return held

/-- Moves a request on the interrupt line into the interrupt flag. -/
def latchRequest (w : Wiring σ) : Exec σ Unit := do
  if ← Machine.onLatch w.number (·.sample interruptLine w.config.interruptTrigger) then
    modifyRegs ({ · with intFlag := true })

/-! ## §3 Actions -/

/-- Cycles of one idle step: the remaining budget, at least one and at most 1024 cycles. -/
def idleCycles (remaining : Nat) : Nat := max 1 (min remaining 1024)

def handlerAddress : UInt16 := 0x03C

def interruptCycles : Nat := 1

/-- Whether an interrupt can be entered at this boundary. A skip has to be served first, and
neither `EI` nor a run of `LI` is cut off from what follows it. -/
def interruptAllowed (s : State) : Bool :=
  s.regs.intFlag && s.regs.intEnable && s.opcode &&& 0xF0 != 0x90 && s.opcode != 0x31 && !s.skip

/-- Interrupt entry sequence. -/
def service (w : Wiring σ) : Exec σ StepOutcome := do
  modifyStatus ({ · with exec := .servicingInterrupt })
  Machine.onLatch w.number fun latch => ((), latch.acknowledge interruptLine)
  pushPc w
  modifyRegs fun r =>
    { r with
      pc := handlerAddress &&& w.geometry.programMask
      intFlag := false
      -- the reduced set cannot enable interrupts again
      intEnable := w.geometry.family = .ucom44 }
  drive w acknowledgeOut true
  drive w acknowledgeOut false
  let cycles := interruptCycles + (← drainWaitStates w)
  charge w cycles
  modifyStatus fun s =>
    { s with diagnostics := s.diagnostics.recordInterrupt, exec := .fetching }
  Machine.record (.interruptDispatched w.name none handlerAddress)
  return .interrupt (← getRegs).pc.toUInt32 cycles

/-- Fetches the opcode and, if one follows, its argument. -/
def fetchInstruction (w : Wiring σ) : Exec σ (UInt8 × Entry) := do
  let opcode ← fetch w
  let entry := decode w.geometry.family opcode
  if entry.length = 2 then
    let argument ← fetch w
    modifyState ({ · with argument })
  modifyState ({ · with opcode })
  return (opcode, entry)

/-- Ends an instruction: takes wait states, counts, and answers the outcome. -/
def retire (w : Wiring σ) (pc : UInt16) (opcode : UInt8) (cost : Nat) : Exec σ StepOutcome := do
  modifyStatus ({ · with exec := .fetching })
  let waits ← drainWaitStates w
  tickTimer w waits
  let cycles := cost + waits
  modifyStatus fun s =>
    { s.charge cycles with diagnostics := s.diagnostics.recordInstruction }
  Machine.record (.retired w.name pc opcode cycles)
  return .retired pc.toUInt32 cycles

/-- Drops the instruction that was fetched. Its cycles pass all the same. -/
def runSkipped (w : Wiring σ) (pc : UInt16) (opcode : UInt8) (entry : Entry) :
    Exec σ StepOutcome := do
  tickTimer w entry.length
  modifyState ({ · with skip := false, opcode := 0 })
  retire w pc opcode entry.length

/-- Counts and reports an illegal opcode, and stops the core or goes on as the policy says. -/
def runIllegal (w : Wiring σ) (pc : UInt16) (opcode : UInt8) (entry : Entry) :
    Exec σ (Except Fault StepOutcome) := do
  modifyStatus fun s => { s with diagnostics := s.diagnostics.recordIllegal pc.toUInt32 opcode }
  let policy := w.config.policy
  Machine.record (.illegalOpcode w.name pc opcode policy)
  match policy with
  | .fatal =>
    let fault := Fault.illegalOpcode pc.toUInt32 opcode
    modifyStatus ({ · with exec := .faultLatched fault })
    return .error fault
  | .nop =>
    tickTimer w entry.cycles
    return .ok (← retire w pc opcode entry.cycles)

/-- Runs one instruction. The cycles of its fetches pass before its operation. -/
def runInstruction (w : Wiring σ) : Exec σ (Except Fault StepOutcome) := do
  let pc := (← getRegs).pc
  modifyState fun s => { s with lastPc := pc, exec := .executing }
  let (opcode, entry) ← fetchInstruction w
  let s ← getState
  -- the flag was set by an earlier instruction, so this one is fetched in any case
  if s.skip then
    return .ok (← runSkipped w pc opcode entry)
  else if entry.operation = .illegal then
    runIllegal w pc opcode entry
  else
    tickTimer w entry.cycles
    perform w s.argument entry.operation
    return .ok (← retire w pc opcode entry.cycles)

/-- One boundary action. A core that is held in reset lets at most the remaining budget pass. -/
def advance (w : Wiring σ) (remaining : Nat) : Exec σ (Except Fault StepOutcome) := do
  modifyStatus ({ · with bus := [] })
  match (← getState).exec.latchedFault? with
  -- a latched fault is answered again, whatever the lines say
  | some fault => return .error fault
  | none =>
    if ← sampleReset w then
      let cycles := idleCycles remaining
      charge w cycles
      return .ok (.idle cycles)
    latchRequest w
    if interruptAllowed (← getState) then
      return .ok (← service w)
    else
      runInstruction w

end Microboard.Ucom4
