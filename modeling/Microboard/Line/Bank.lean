import Microboard.Line.Latch
import Microboard.Log

/-!
# Line bank

The latches of all cores of a system, by core number. A device names the core and the line that
it drives; a request to a core that is not there is lost, and a request on a line that the core
does not have is reported.
-/

namespace Microboard

/-- A level requested by a device or a host. -/
structure LineRequest where
  core : Nat
  line : InputLine
  level : LineLevel
  deriving DecidableEq, Repr

/-- Records a requested level, reporting a line that the latch does not have. -/
def LineLatch.request (latch : LineLatch) (line : InputLine) (level : LineLevel)
    (log : EventLog) : LineLatch × EventLog :=
  (latch.set line level, if latch.has line then log else log.record (.unknownLine line))

structure LineBank where
  latches : List LineLatch := []
  deriving DecidableEq, Repr

namespace LineBank

/-- Latch of a core; a core that is not there has no lines. -/
def latch (bank : LineBank) (core : Nat) : LineLatch := bank.latches.getD core {}

def update (bank : LineBank) (core : Nat) (change : LineLatch → LineLatch) : LineBank :=
  ⟨bank.latches.modify core change⟩

/-- Adds the latch of a further core. -/
def plug (bank : LineBank) (latch : LineLatch) : LineBank := ⟨bank.latches ++ [latch]⟩

def request (bank : LineBank) (log : EventLog) (r : LineRequest) : LineBank × EventLog :=
  if r.core < bank.latches.length then
    -- the latch itself reports a line that it does not have
    let (latch, log) := (bank.latch r.core).request r.line r.level log
    (bank.update r.core fun _ => latch, log)
  else
    (bank, log)

def deliver (bank : LineBank) (log : EventLog) (requests : List LineRequest) :
    LineBank × EventLog :=
  requests.foldl (fun (bank, log) r => bank.request log r) (bank, log)

end LineBank

end Microboard
