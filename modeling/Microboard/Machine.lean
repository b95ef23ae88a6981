import Microboard.Bus.Space
import Microboard.Execution

/-!
# Machines

A core at work is a pair: its own state, and the world around it, which is the state behind the
address spaces, the latches of all cores and the event log. Cores, and the scheduler that holds
several, act on such pairs in the state monad.
-/

namespace Microboard

/-- Whatever hangs on the output lines of a core and reacts to the levels driven on them. -/
abbrev Sink (σ : Type) : Type := OutputLine → Bool → Access σ Unit

/-- A sink that takes no notice. -/
def Sink.ignore {σ : Type} : Sink σ := fun _ _ => pure ()

/-- Everything outside a core. -/
structure World (σ : Type) where
  /-- State behind the address spaces. -/
  devices : σ
  lines : LineBank := {}
  log : EventLog := {}

namespace World

variable {σ α : Type}

/-- Performs an access and serves the line requests that it makes. -/
def perform (access : Access σ α) : World σ → α × World σ
  | ⟨devices, lines, log⟩ =>
    match access devices with
    | ⟨value, devices, requests⟩ =>
      match lines.deliver log requests with
      | (lines, log) => (value, ⟨devices, lines, log⟩)

/-- Takes the pending wait states of a space. -/
def takeWaitStates (space : Space σ) : World σ → UInt32 × World σ
  | ⟨devices, lines, log⟩ =>
    match space.takeWaitStates devices with
    | (waitStates, devices) => (waitStates, ⟨devices, lines, log⟩)

def record (event : Event) : World σ → World σ
  | ⟨devices, lines, log⟩ => ⟨devices, lines, log.record event⟩

/-- Requests a level on a line of a core. -/
def request (r : LineRequest) : World σ → World σ
  | ⟨devices, lines, log⟩ =>
    match lines.request log r with
    | (lines, log) => ⟨devices, lines, log⟩

/-- Lets the latch of one core act, if that core is there. -/
def onLatch (core : Nat) (act : LineLatch → α × LineLatch) : World σ → α × World σ
  | ⟨devices, lines, log⟩ =>
    match act (lines.latch core) with
    | (value, latch) => (value, ⟨devices, lines.update core fun _ => latch, log⟩)

/-- Adds the input lines of a further core. -/
def plug (count : Nat) : World σ → World σ
  | ⟨devices, lines, log⟩ => ⟨devices, lines.plug (.released count), log⟩

end World

/-- A core, or whatever else acts, in its world. -/
structure Machine (κ σ : Type) where
  core : κ
  world : World σ

namespace Machine

variable {κ σ α : Type}

@[inline] def getCore : StateM (Machine κ σ) κ := fun machine => (machine.core, machine)

@[inline] def modifyCore (change : κ → κ) : StateM (Machine κ σ) Unit
  | ⟨core, world⟩ => ((), ⟨change core, world⟩)

/-- Lets the world act. -/
@[inline] def onWorld (act : World σ → α × World σ) : StateM (Machine κ σ) α
  | ⟨core, world⟩ =>
    match act world with
    | (value, world) => (value, ⟨core, world⟩)

def readUnit (space : Space σ) (address : UInt32) : StateM (Machine κ σ) UInt8 :=
  onWorld (World.perform (space.readUnit address))

def writeUnit (space : Space σ) (address : UInt32) (value : UInt8) : StateM (Machine κ σ) Unit :=
  onWorld (World.perform (space.writeUnit address value))

/-- Takes the pending wait states of a space. -/
def takeWaitStates (space : Space σ) : StateM (Machine κ σ) UInt32 :=
  onWorld (World.takeWaitStates space)

/-- Lets a sink react to a level driven on an output line. -/
def signal (sink : Sink σ) (line : OutputLine) (asserted : Bool) : StateM (Machine κ σ) Unit :=
  onWorld (World.perform (sink line asserted))

def record (event : Event) : StateM (Machine κ σ) Unit :=
  onWorld fun world => ((), world.record event)

/-- Requests a level on a line of a core. -/
def request (r : LineRequest) : StateM (Machine κ σ) Unit :=
  onWorld fun world => ((), world.request r)

/-- Lets the latch of one core act, if that core is there. -/
def onLatch (core : Nat) (act : LineLatch → α × LineLatch) : StateM (Machine κ σ) α :=
  onWorld (World.onLatch core act)

/-- Lets a part of the core work in the same world. -/
@[inline] def focus {ι : Type} (part : κ → ι) (restore : κ → ι → κ)
    (work : StateM (Machine ι σ) α) : StateM (Machine κ σ) α
  | ⟨core, world⟩ =>
    match work ⟨part core, world⟩ with
    | (value, ⟨inner, world⟩) => (value, ⟨restore core inner, world⟩)

end Machine

end Microboard
