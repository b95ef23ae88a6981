import Microboard.Policy

/-!
# Event log

Latches, cores and the scheduler report what they do to one log, in the order in which it
happens. The log keeps the events that are at least as severe as its threshold. How an event is
worded, and which fields it carries, is said in one place.
-/

namespace Microboard

/-- How serious an event is. -/
inductive Severity where
  | warn
  | debug
  | trace
  deriving DecidableEq, Repr

namespace Severity

/-- Position in the order from most to least serious. -/
def rank : Severity → Nat
  | .warn => 0
  | .debug => 1
  | .trace => 2

def name : Severity → String
  | .warn => "warn"
  | .debug => "debug"
  | .trace => "trace"

end Severity

/-! ## §1 Events -/

/-- Something that a latch, a core or the scheduler reports. -/
inductive Event where
  /-- A level was requested on a line that the latch does not have. -/
  | unknownLine (line : UInt8)
  /-- A core was reset; a family that can start at several addresses reports which. -/
  | reset (core : String) (pc : Option UInt16)
  /-- The reset line of a core was released. -/
  | resetReleased (core : String)
  | halted (core : String) (pc : UInt16) (stopped : Bool)
  | wokeUp (core : String) (pc : UInt16)
  /-- A core entered an interrupt; a family with several sources reports which. -/
  | interruptDispatched (core : String) (source : Option UInt8) (vector : UInt16)
  /-- A core fetched an opcode without defined behaviour. -/
  | illegalOpcode (core : String) (pc : UInt16) (opcode : UInt8) (policy : IllegalOpcodePolicy)
  | retired (core : String) (pc : UInt16) (opcode : UInt8) (cycles : Nat)
  | timerExpired (core : String)
  /-- A program read an I/O port that cannot be read. -/
  | unknownPortRead (core : String) (port : Char) (pc : UInt16)
  /-- A program wrote an I/O port that cannot be written. -/
  | unknownPortWrite (core : String) (port : Char) (value : UInt8) (pc : UInt16)
  /-- The argument of an instruction lacks the fixed bits of its encoding. -/
  | unexpectedArgument (core mnemonic : String) (argument : UInt8) (pc : UInt16)
  /-- The scheduler gave a core its share of a quantum. -/
  | sliceComplete (core : String) (index cycles instructions : Nat)
  /-- The scheduler took a faulted core out of rotation. -/
  | coreParked (core : String) (index : Nat) (fault : Fault)
  deriving DecidableEq, Repr

/-- Value of one field of an event. -/
inductive EventField where
  | number (value : Nat)
  | flag (value : Bool)
  | text (value : String)
  deriving DecidableEq, Repr

namespace Event

def severity : Event → Severity
  | .unknownLine _ | .illegalOpcode .. | .unknownPortRead .. | .unknownPortWrite ..
  | .unexpectedArgument .. | .coreParked .. => .warn
  | .reset .. | .resetReleased _ | .halted .. | .wokeUp .. | .interruptDispatched ..
  | .sliceComplete .. => .debug
  | .retired .. | .timerExpired _ => .trace

def message : Event → String
  | .unknownLine _ => "ignoring level change on unknown input line"
  | .reset .. => "reset"
  | .resetReleased _ => "reset released"
  | .halted .. => "halted"
  | .wokeUp .. => "woke up"
  | .interruptDispatched .. => "interrupt dispatched"
  | .illegalOpcode .. => "illegal opcode"
  | .retired .. => "retired"
  | .timerExpired _ => "timer expired"
  | .unknownPortRead .. => "read from unknown port"
  | .unknownPortWrite .. => "write to unknown port"
  | .unexpectedArgument _ mnemonic .. => mnemonic ++ " with unexpected argument"
  | .sliceComplete .. => "slice complete"
  | .coreParked .. => "core faulted, parking it"

/-- Name of the core that the event is about. -/
def core? : Event → Option String
  | .unknownLine _ => none
  | .reset core _ | .resetReleased core | .halted core .. | .wokeUp core _
  | .interruptDispatched core .. | .illegalOpcode core .. | .retired core .. | .timerExpired core
  | .unknownPortRead core .. | .unknownPortWrite core .. | .unexpectedArgument core ..
  | .sliceComplete core .. | .coreParked core .. => some core

/-- Fields beside the name of the core. -/
def details : Event → List (String × EventField)
  | .unknownLine line => [("line", .number line.toNat)]
  | .reset _ pc => (pc.map fun pc => ("pc", .number pc.toNat)).toList
  | .resetReleased _ | .timerExpired _ => []
  | .halted _ pc stopped => [("pc", .number pc.toNat), ("stopped", .flag stopped)]
  | .wokeUp _ pc => [("pc", .number pc.toNat)]
  | .interruptDispatched _ source vector =>
    (source.map fun bit => ("bit", .number bit.toNat)).toList ++ [("vector", .number vector.toNat)]
  | .illegalOpcode _ pc opcode policy =>
    [("pc", .number pc.toNat), ("opcode", .number opcode.toNat), ("policy", .text policy.describe)]
  | .retired _ pc opcode cycles =>
    [("pc", .number pc.toNat), ("opcode", .number opcode.toNat), ("cycles", .number cycles)]
  | .unknownPortRead _ port pc =>
    [("port", .text (String.singleton port)), ("pc", .number pc.toNat)]
  | .unknownPortWrite _ port value pc =>
    [("port", .text (String.singleton port)), ("value", .number value.toNat),
      ("pc", .number pc.toNat)]
  | .unexpectedArgument _ _ argument pc =>
    [("arg", .number argument.toNat), ("pc", .number pc.toNat)]
  | .sliceComplete _ index cycles instructions =>
    [("index", .number index), ("cycles", .number cycles), ("instructions", .number instructions)]
  | .coreParked _ index fault => [("index", .number index), ("fault", .text fault.message)]

/-- Every field under its name. -/
def fields (event : Event) : List (String × EventField) :=
  (event.core?.map fun core => ("core", .text core)).toList ++ event.details

end Event

/-! ## §2 The log -/

/-- Events recorded so far, oldest first, and the least serious severity that is recorded. -/
structure EventLog where
  /-- Nothing is recorded without a threshold. -/
  threshold : Option Severity := none
  events : Array Event := #[]
  deriving Repr

namespace EventLog

/-- Whether events of a severity are recorded. -/
def admits (log : EventLog) (severity : Severity) : Bool :=
  match log.threshold with
  | none => false
  | some threshold => severity.rank ≤ threshold.rank

/-- Records an event that the threshold admits. -/
def record (log : EventLog) (event : Event) : EventLog :=
  if log.admits event.severity then { log with events := log.events.push event } else log

end EventLog

end Microboard
