/-!
# Input lines

Devices and hosts request levels on the input lines of a core at any time. A latch keeps the
requested levels and remembers rising edges, so that the core can look at them only between
instructions and still miss no pulse.
-/

namespace Microboard

/-- Number of an input line on a core. -/
abbrev InputLine := UInt8

/-- Level requested on an input line. -/
inductive LineLevel where
  /-- Released. -/
  | clear
  /-- Asserted until it is cleared. -/
  | assert
  /-- Asserted until the core acknowledges the interrupt that it raised. -/
  | hold
  deriving DecidableEq, Repr

def LineLevel.isActive : LineLevel → Bool
  | .clear => false
  | .assert | .hold => true

/-- How a core reacts to an input line. -/
inductive Trigger where
  /-- A change from clear to active is latched once. -/
  | edge
  /-- The line requests service at every boundary while it is active. -/
  | level
  deriving DecidableEq, Repr

/-! ## §1 One line -/

/-- Requested level of one line and its latched rising edge. -/
structure LineState where
  level : LineLevel := .clear
  /-- Whether a rising edge waits to be taken. -/
  edge : Bool := false
  deriving DecidableEq, Repr

namespace LineState

/-- Records a requested level; a change from clear to active latches an edge. -/
def request (state : LineState) (level : LineLevel) : LineState where
  level := level
  -- a second assertion of an active line is no edge
  edge := state.edge || (!state.level.isActive && level.isActive)

def withoutEdge (state : LineState) : LineState := { state with edge := false }

/-- Acknowledges service: a held line drops back to clear. -/
def acknowledged (state : LineState) : LineState :=
  if state.level = .hold then { state with level := .clear } else state

end LineState

/-! ## §2 The lines of one core -/

/-- Input lines of one core, by line number. -/
structure LineLatch where
  lines : List LineState := []
  deriving DecidableEq, Repr

namespace LineLatch

/-- A latch with `count` lines, all clear. -/
def released (count : Nat) : LineLatch := ⟨List.replicate count {}⟩

def size (latch : LineLatch) : Nat := latch.lines.length

/-- Whether the latch has such a line. -/
def has (latch : LineLatch) (line : InputLine) : Bool := line.toNat < latch.size

/-- State of a line; a line that the latch does not have reads as released. -/
def state (latch : LineLatch) (line : InputLine) : LineState := latch.lines.getD line.toNat {}

def level (latch : LineLatch) (line : InputLine) : LineLevel := (latch.state line).level

/-- Whether an edge is latched on a line. -/
def hasEdge (latch : LineLatch) (line : InputLine) : Bool := (latch.state line).edge

/-- Changes the state of one line; a line that the latch does not have is left alone. -/
def update (latch : LineLatch) (line : InputLine) (change : LineState → LineState) : LineLatch :=
  ⟨latch.lines.modify line.toNat change⟩

def set (latch : LineLatch) (line : InputLine) (level : LineLevel) : LineLatch :=
  latch.update line (·.request level)

/-- Takes the latched edge of a line. -/
def takeEdge (latch : LineLatch) (line : InputLine) : Bool × LineLatch :=
  (latch.hasEdge line, latch.update line LineState.withoutEdge)

/-- Samples a line the way its trigger asks; the latched edge is taken in either mode. -/
def sample (latch : LineLatch) (line : InputLine) (trigger : Trigger) : Bool × LineLatch :=
  let (edge, rest) := latch.takeEdge line
  match trigger with
  | .edge => (edge, rest)
  | .level => ((rest.level line).isActive, rest)

def acknowledge (latch : LineLatch) (line : InputLine) : LineLatch :=
  latch.update line LineState.acknowledged

/-- Drops every latched edge and keeps the requested levels. -/
def discardEdges (latch : LineLatch) : LineLatch := ⟨latch.lines.map LineState.withoutEdge⟩

end LineLatch

end Microboard
