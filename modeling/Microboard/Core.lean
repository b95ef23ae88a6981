import Microboard.Run
import Microboard.Sm83.Disassembly
import Microboard.Sm83.Export
import Microboard.Ucom4.Disassembly
import Microboard.Ucom4.Export

/-!
# Cores

A core of either family behind one interface: a host resets it, steps it or runs it for a budget
of cycles, drives its input lines, and reads and writes its exported state. What happens between
two instruction boundaries is atomic to the host.
-/

namespace Microboard

/-- A core: its wiring and its state. -/
inductive Core (σ : Type) where
  | sm83 (wiring : Sm83.Wiring σ) (state : Sm83.State)
  | ucom4 (wiring : Ucom4.Wiring σ) (state : Ucom4.State)

namespace Core

variable {σ α : Type}

/-! ## §1 Description -/

def name : Core σ → String
  | sm83 .. => Sm83.name
  | ucom4 w _ => w.name

/-- Number of the core in the line bank. -/
def number : Core σ → Nat
  | sm83 w _ => w.number
  | ucom4 w _ => w.number

def config : Core σ → CoreConfig
  | sm83 w _ => w.config.core
  | ucom4 w _ => w.config.core

def clockHz (core : Core σ) : Nat := core.config.clockHz

def clocksPerCycle : Core σ → Nat
  | sm83 .. => 1
  | ucom4 .. => 4

def policy : Core σ → IllegalOpcodePolicy
  | sm83 w _ => w.config.policy
  | ucom4 w _ => w.config.policy

/-- Instruction layout. -/
def listing : Core σ → Listing
  | sm83 .. => Sm83.listing
  | ucom4 w _ => Ucom4.listing w.geometry

def inputLines : Core σ → List LineDescriptor
  | sm83 .. => Sm83.lines
  | ucom4 w _ => Ucom4.lines w.config

def resolveInputLine (core : Core σ) (line : String) : Except SetupError InputLine :=
  resolveLine core.name core.inputLines line

/-- The state that all families share. -/
def status : Core σ → CoreStatus
  | sm83 _ s => s.toCoreStatus
  | ucom4 _ s => s.toCoreStatus

/-- Changes the state that all families share. -/
def modifyStatus (change : CoreStatus → CoreStatus) : Core σ → Core σ
  | sm83 w s => .sm83 w { s with toCoreStatus := change s.toCoreStatus }
  | ucom4 w s => .ucom4 w { s with toCoreStatus := change s.toCoreStatus }

/-- Where the core is in its cycle. -/
def exec (core : Core σ) : ExecState := core.status.exec

def totalCycles (core : Core σ) : Nat := core.status.totalCycles

def diagnostics (core : Core σ) : Diagnostics := core.status.diagnostics

/-- Space over which a core uses one of its buses. -/
def space? : Core σ → BusRole → Option (Space σ)
  | sm83 w _, .program => some w.program
  | ucom4 w _, .program => some w.program
  | ucom4 w _, .data => some w.data
  | ucom4 w _, .io => some w.io
  | _, _ => none

def describe : Core σ → String
  | sm83 w s =>
    Text.record "Sm83"
      [("regs", s.regs.describe), ("exec", s.exec.describe),
        ("policy", w.config.policy.describe), ("total_cycles", toString s.totalCycles)] true
  | ucom4 w s =>
    Text.record "Ucom4"
      [("name", Text.quoted w.name), ("regs", s.regs.describe), ("exec", s.exec.describe),
        ("skip", toString s.skip), ("total_cycles", toString s.totalCycles)] true

/-! ## §2 Exported state -/

/-- Exported entries, in the order in which they are restored. -/
def stateEntries : Core σ → List StateEntry
  | sm83 .. => Sm83.Export.all.map (·.entry)
  | ucom4 w _ => (Ucom4.Export.all w.geometry).map (·.entry w.geometry)

def stateGet (core : Core σ) (index : Int) : Option Nat :=
  match core with
  | sm83 _ s => (Sm83.Export.find? index).map (Sm83.Export.read s)
  | ucom4 w s => (Ucom4.Export.find? w.geometry index).map (Ucom4.Export.read w.geometry s)

/-- All exported values, in the order of the entries. -/
def stateValues : Core σ → List Nat
  | sm83 _ s => Sm83.Export.all.map (Sm83.Export.read s)
  | ucom4 w s => (Ucom4.Export.all w.geometry).map (Ucom4.Export.read w.geometry s)

/-! ## §3 Operation -/

/-- A core of either family at work. -/
abbrev Exec (σ : Type) : Type → Type := StateM (Machine (Core σ) σ)

/-- Lets the core work as a member of its family. -/
@[inline] def dispatch (onSm83 : Sm83.Wiring σ → Sm83.Exec σ α)
    (onUcom4 : Ucom4.Wiring σ → Ucom4.Exec σ α) : Exec σ α
  | ⟨sm83 w s, world⟩ =>
    match onSm83 w ⟨s, world⟩ with
    | (value, ⟨s, world⟩) => (value, ⟨.sm83 w s, world⟩)
  | ⟨ucom4 w s, world⟩ =>
    match onUcom4 w ⟨s, world⟩ with
    | (value, ⟨s, world⟩) => (value, ⟨.ucom4 w s, world⟩)

/-- Puts the core in its power-on state. -/
def reset : Exec σ Unit := dispatch Sm83.reset Ucom4.reset

/-- One boundary action, told the remaining budget. -/
def advance (remaining : Nat) : Exec σ (Except Fault StepOutcome) :=
  dispatch (Sm83.advance · remaining) (Ucom4.advance · remaining)

/-- One boundary action with a budget of one cycle. -/
def step : Exec σ (Except Fault StepOutcome) := advance 1

/-- Runs for at least a budget of cycles. -/
def run (budget : Nat) : Exec σ (Except Fault RunOutcome) :=
  Microboard.run advance (·.core.exec) budget

/-- Requests a level on an input line; it takes effect at the next boundary. -/
def setLine (line : InputLine) (level : LineLevel) : Exec σ Unit := do
  Machine.request ⟨(← Machine.getCore).number, line, level⟩

def stateSet (index : Int) (value : Nat) : Exec σ (Except SetupError Unit)
  | ⟨sm83 w s, world⟩ =>
    match Sm83.Export.find? index with
    | none => (.error (.unknownStateEntry Sm83.name index), ⟨.sm83 w s, world⟩)
    | some item =>
      match item.write w value ⟨s, world⟩ with
      | ((), ⟨s, world⟩) => (.ok (), ⟨.sm83 w s, world⟩)
  | ⟨ucom4 w s, world⟩ =>
    match Ucom4.Export.find? w.geometry index with
    | none => (.error (.unknownStateEntry w.name index), ⟨.ucom4 w s, world⟩)
    | some item => (.ok (), ⟨.ucom4 w (item.write w.geometry value s), world⟩)

/-- Writes values under the indices of the entries they belong to; an index that the core does
not export is passed over. -/
def restore : List (StateEntry × Nat) → Exec σ Unit
  | [] => return ()
  | (entry, value) :: rest => do
    discard <| stateSet entry.index value
    restore rest

end Core

end Microboard
