import Microboard.Core
import Microboard.Proofs.Sm83.Requests
import Microboard.Proofs.Ucom4.Requests

/-!
# Lines that are held

To hold a line asks for one interrupt: the line drops back once the interrupt is entered, and the
next request finds it released. Between the two the request waits in three places, one after the
other: on the line as an edge, in the interrupt flag, and in the level of the line itself.

- **§1** A line and its flag.
- **§2** Actions of a core, as seen from one of its lines.
- **§3** Histories in which a line is held and asked nothing else: the next request is found, unless
  the program has cleared the flag of the one before without serving it.
-/

namespace Microboard

variable {σ : Type}

/-! ## §1 A line and its flag -/

namespace LineState

/-- What a line owes that is only ever held. Its request waits as an edge, in the flag, or was
dropped, and a request that was dropped still holds the line. -/
structure Owed (state : LineState) (flag dropped : Bool) : Prop where
  unasserted : state.level ≠ .assert
  waits : state.level = .hold → state.edge = true ∨ flag = true ∨ dropped = true
  holds : dropped = true → state.level = .hold

variable {state : LineState} {flag dropped : Bool}

theorem owed_released (released : state.level = .clear) : state.Owed flag false where
  unasserted := by rw [released]; exact nofun
  waits held := by rw [released] at held; exact nomatch held
  holds := nofun

/-- Another request changes nothing about the first. -/
theorem Owed.request (owed : state.Owed flag dropped) :
    (state.request .hold).Owed flag dropped where
  unasserted := nofun
  waits _ := by
    cases level : state.level with
    | clear => exact .inl (by simp [LineState.request, level, LineLevel.isActive])
    | assert => exact absurd level owed.unasserted
    | hold =>
      exact (owed.waits level).imp_left fun edge => by simp [LineState.request, edge]
  holds _ := rfl

/-- Once the interrupt is entered nothing is owed, whatever has become of the flag. -/
theorem owed_entered (owed : state.Owed flag dropped) (flag' : Bool) :
    state.withoutEdge.acknowledged.Owed flag' false := by
  unfold acknowledged withoutEdge
  split
  · exact owed_released rfl
  next other =>
    exact ⟨owed.unasserted, fun held => absurd held other, nofun⟩

/-- A request that was taken into the flag is owed there, or it was dropped. -/
theorem Owed.passed (owed : state.Owed flag dropped) (flag' : Bool) :
    state.withoutEdge.Owed flag'
      (dropped || (decide (state.level = .hold) && (flag || state.edge) && !flag')) where
  unasserted := owed.unasserted
  waits held := by
    have level : state.level = .hold := held
    -- an edge or a flag is found, so a flag that is clear afterwards is one that was dropped
    rcases owed.waits level with waits | waits | waits <;> cases flag' <;> simp [level, waits]
  holds dropped' := by
    rcases Bool.or_eq_true_iff.mp dropped' with earlier | now
    · exact owed.holds earlier
    · simp only [Bool.and_eq_true, decide_eq_true_eq] at now
      exact now.1.1

/-- A request finds the line released exactly if none was dropped. -/
theorem Owed.found_iff (owed : state.Owed false dropped) (taken : state.edge = false) :
    (state.request .hold).edge = true ↔ dropped = false := by
  cases level : state.level with
  | assert => exact absurd level owed.unasserted
  | hold =>
    have lost : dropped = true := by
      rcases owed.waits level with waits | waits | waits
      · exact nomatch taken.symm.trans waits
      · exact nomatch waits
      · exact waits
    simp [LineState.request, level, taken, lost, LineLevel.isActive]
  | clear =>
    have kept : dropped = false := by
      cases dropped with
      | false => rfl
      | true => exact nomatch level.symm.trans (owed.holds rfl)
    simp [LineState.request, level, kept, LineLevel.isActive]

end LineState

/-! ## §2 One line of a core -/

namespace LineRequest

/-- The request asks nothing of a line of a core, or it holds that line. -/
def HoldsAtMost (core : Nat) (line : InputLine) (r : LineRequest) : Prop :=
  r.core = core → r.line = line → r.level = .hold

instance (core : Nat) (line : InputLine) (r : LineRequest) : Decidable (r.HoldsAtMost core line) :=
  inferInstanceAs (Decidable (_ → _ → _))

theorem HoldsAtMost.levelsFor {core : Nat} {line : InputLine} {requests : List LineRequest}
    (holds : ∀ r ∈ requests, r.HoldsAtMost core line) :
    ∀ r ∈ LineRequest.levelsFor core requests, r.1 = line → r.2 = .hold := by
  intro r listed named
  obtain ⟨request, there, names⟩ := List.mem_filterMap.mp listed
  split at names
  next own =>
    obtain rfl := Option.some.inj names
    exact holds request there own named
  · exact nomatch names

end LineRequest

namespace Core

/-- The first half of a boundary action of a core that is neither faulted nor held in reset: it
looks at its lines, and answers the bits newly raised in a register of such bits, if it has one. -/
def sample : Exec σ UInt8 := dispatch Sm83.sample fun w => do Ucom4.sample w; return 0

/-- The second half: it acts on what it found. -/
def act (remaining : Nat) (raised : UInt8) : Exec σ (Except Fault StepOutcome) :=
  dispatch (fun w => Sm83.act w remaining raised) Ucom4.act

/-- The core is neither faulted nor held in reset. -/
def Running : Machine (Core σ) σ → Prop
  | ⟨.sm83 w s, world⟩ => s.exec.latchedFault? = none ∧ Sm83.Released w ⟨s, world⟩
  | ⟨.ucom4 w s, world⟩ => s.exec.latchedFault? = none ∧ Ucom4.Released w ⟨s, world⟩

instance (m : Machine (Core σ) σ) : Decidable (Running m) :=
  match m with
  | ⟨.sm83 w _, world⟩ =>
    inferInstanceAs (Decidable (_ ∧ ((world.lines.latch w.number).level _).isActive = false))
  | ⟨.ucom4 w _, world⟩ =>
    inferInstanceAs (Decidable (_ ∧ ((world.lines.latch w.number).level _).isActive = false))

/-- The line is one of the core that is triggered by edges. -/
def EdgeLine (core : Core σ) (line : InputLine) : Prop :=
  ∃ descriptor ∈ core.inputLines, descriptor.line = line ∧ descriptor.trigger = .edge

/-- The flag in which a request on a line waits for its interrupt. -/
def flag (line : InputLine) : Core σ → Bool
  | .sm83 _ s => s.regs.flagged line
  | .ucom4 _ s => s.regs.intFlag

/-- Whether an answer of the core says that the interrupt of a line was entered. -/
def enters (line : InputLine) : Core σ → Except Fault StepOutcome → Bool
  | .sm83 .. => Sm83.enters line
  | .ucom4 .. => Ucom4.enters

/-- What is requested while the core acts, oldest first. -/
def requestsDuring (remaining : Nat) : Machine (Core σ) σ → List LineRequest
  | ⟨.sm83 w s, world⟩ => Sm83.requestsDuring w remaining ⟨s, world⟩
  | ⟨.ucom4 w s, world⟩ => Ucom4.requestsDuring w remaining ⟨s, world⟩

/-- State of a line of the core. -/
def lineState (m : Machine (Core σ) σ) (line : InputLine) : LineState :=
  (m.world.lines.latch m.core.number).state line

theorem edgeLine_sm83 {w : Sm83.Wiring σ} {s : Sm83.State} {line : InputLine}
    (edge : EdgeLine (.sm83 w s) line) : line ∈ Sm83.requestLines := by
  obtain ⟨descriptor, listed, rfl, trigger⟩ := edge
  revert descriptor
  show ∀ descriptor ∈ Sm83.lines, descriptor.trigger = .edge → descriptor.line ∈ Sm83.requestLines
  decide

theorem edgeLine_ucom4 {w : Ucom4.Wiring σ} {s : Ucom4.State} {line : InputLine}
    (edge : EdgeLine (.ucom4 w s) line) :
    line = Ucom4.interruptLine ∧ w.config.interruptTrigger = .edge := by
  obtain ⟨descriptor, listed, rfl, trigger⟩ := edge
  rcases List.mem_cons.mp listed with rfl | listed
  · exact ⟨rfl, trigger⟩
  · obtain rfl := List.mem_singleton.mp listed
    exact nomatch trigger

variable {m : Machine (Core σ) σ} {line : InputLine}

theorem advance_sampled (running : Running m) (remaining : Nat) :
    advance remaining m = (sample >>= act remaining) m := by
  obtain ⟨core, world⟩ := m
  cases core with
  | sm83 w s =>
    obtain ⟨awake, released⟩ := running
    unfold advance dispatch
    dsimp only
    rw [Sm83.advance_sampled awake released]
    rfl
  | ucom4 w s =>
    obtain ⟨awake, released⟩ := running
    unfold advance dispatch
    dsimp only
    rw [Ucom4.advance_sampled awake released]
    rfl

/-- Sampling sets the flag of a line on which an edge waits. -/
theorem flag_sample (edge : m.core.EdgeLine line) (running : Running m) :
    (sample m).2.core.flag line = (m.core.flag line || (lineState m line).edge) := by
  obtain ⟨core, world⟩ := m
  cases core with
  | sm83 w s => exact Sm83.flagged_sample running.2 (edgeLine_sm83 edge)
  | ucom4 w s =>
    obtain ⟨rfl, trigger⟩ := edgeLine_ucom4 edge
    exact (Ucom4.sample_found trigger running.2).1

/-- An action takes the edge of a line and lets the line go if it was held and its interrupt is
entered. If the line is held at most meanwhile, it ends so or held. -/
theorem advance_line (edge : m.core.EdgeLine line) (running : Running m) {remaining : Nat}
    (holds : ∀ r ∈ requestsDuring remaining m, r.HoldsAtMost m.core.number line) :
    let left := if m.core.enters line (advance remaining m).1 then
        (lineState m line).withoutEdge.acknowledged
      else (lineState m line).withoutEdge
    lineState (advance remaining m).2 line = left ∨
      lineState (advance remaining m).2 line = left.request .hold := by
  -- requests that hold the line at most come on top of what the action leaves of it
  have goes {latch base : LineLatch} {requests : List LineRequest} {left : LineState}
      (starts : base.state line = left)
      (after : latch = base.setAll (LineRequest.levelsFor m.core.number requests))
      (holds : ∀ r ∈ requests, r.HoldsAtMost m.core.number line) :
      latch.state line = left ∨ latch.state line = left.request .hold := by
    rw [after, ← starts]
    exact LineLatch.state_setAll_hold (LineRequest.HoldsAtMost.levelsFor holds)
  obtain ⟨core, world⟩ := m
  cases core with
  | sm83 w s =>
    obtain ⟨base, starts, after⟩ :=
      Sm83.advance_line running.1 running.2 remaining (edgeLine_sm83 edge)
    exact goes starts after holds
  | ucom4 w s =>
    obtain ⟨rfl, trigger⟩ := edgeLine_ucom4 edge
    obtain ⟨base, starts, after⟩ := Ucom4.advance_line trigger running.1 running.2 remaining
    exact goes starts after holds

/-- An action leaves the core what it is and where it is. -/
theorem advance_keeps (m : Machine (Core σ) σ) (remaining : Nat) :
    (advance remaining m).2.core.number = m.core.number ∧
      (advance remaining m).2.core.inputLines = m.core.inputLines := by
  obtain ⟨core, world⟩ := m
  cases core <;> exact ⟨rfl, rfl⟩

/-! ## §3 Histories -/

/-- The action finds the flag of a held line set and leaves it clear. -/
def drops (line : InputLine) (remaining : Nat) (m : Machine (Core σ) σ) : Bool :=
  decide ((lineState m line).level = .hold) && (sample m).2.core.flag line &&
    !(advance remaining m).2.core.flag line

/-- In its last action the core has written to the register of the flags without that of the line,
or it has tested the flag. -/
def TookFlag (line : InputLine) : Core σ → Prop
  | .sm83 _ s => ∃ cycle ∈ s.bus, Sm83.WritesIf cycle ∧ (cycle.value &&& 1 <<< line != 0) = false
  | .ucom4 w s => (Ucom4.decode w.geometry.family s.opcode).operation = .tit

/-- Requests are dropped by the program. -/
theorem drops_tookFlag (edge : m.core.EdgeLine line) (running : Running m) {remaining : Nat}
    (passed : m.core.enters line (advance remaining m).1 = false)
    (dropped : drops line remaining m = true) : (advance remaining m).2.core.TookFlag line := by
  unfold drops at dropped
  simp only [Bool.and_eq_true, Bool.not_eq_true'] at dropped
  obtain ⟨⟨-, found⟩, gone⟩ := dropped
  obtain ⟨core, world⟩ := m
  cases core with
  | sm83 w s =>
    exact Sm83.flag_written running.1 running.2 (edgeLine_sm83 edge) found gone passed
  | ucom4 w s => exact Ucom4.flag_tested running.1 running.2 found gone passed

/-- The core comes out of a history in which a line, released at first, has at most been held, by
hosts between the actions and by devices during them. It is noted whether, since the interrupt was
last entered, an action has dropped a request: the flag is clear, but the line is still held. -/
inductive Holding (line : InputLine) : Machine (Core σ) σ → Bool → Prop
  | start {m : Machine (Core σ) σ} (edge : m.core.EdgeLine line)
      (released : (lineState m line).level = .clear) : Holding line m false
  | request {m : Machine (Core σ) σ} {dropped : Bool} (holding : Holding line m dropped)
      (r : LineRequest) (holds : r.HoldsAtMost m.core.number line) :
      Holding line (Machine.request r m).2 dropped
  | advance {m : Machine (Core σ) σ} {dropped : Bool} (holding : Holding line m dropped)
      (running : Running m) (remaining : Nat)
      (holds : ∀ r ∈ requestsDuring remaining m, r.HoldsAtMost m.core.number line) :
      Holding line (Core.advance remaining m).2
        (!m.core.enters line (Core.advance remaining m).1 &&
          (dropped || drops line remaining m))

/-- Once the interrupt is entered nothing is dropped. -/
theorem Holding.entered {dropped : Bool} (holding : Holding line m dropped) (running : Running m)
    {remaining : Nat} (holds : ∀ r ∈ requestsDuring remaining m, r.HoldsAtMost m.core.number line)
    (entered : m.core.enters line (Core.advance remaining m).1 = true) :
    Holding line (Core.advance remaining m).2 false := by
  have after := holding.advance running remaining holds
  rw [entered] at after
  exact after

/-- A request that is dropped is so until the interrupt is entered. -/
theorem Holding.dropping {dropped : Bool} (holding : Holding line m dropped) (running : Running m)
    {remaining : Nat} (holds : ∀ r ∈ requestsDuring remaining m, r.HoldsAtMost m.core.number line)
    (passed : m.core.enters line (Core.advance remaining m).1 = false)
    (drops : Core.drops line remaining m = true) :
    Holding line (Core.advance remaining m).2 true := by
  have after := holding.advance running remaining holds
  rw [passed, drops, Bool.or_true] at after
  exact after

/-- A request reaches the latch of the core that it names. -/
theorem latch_request (m : Machine (Core σ) σ) (r : LineRequest) :
    (Machine.request r m).2.world.lines.latch m.core.number =
      (m.world.lines.latch m.core.number).setAll
        (LineRequest.levelsFor m.core.number [r]) := by
  obtain ⟨core, devices, lines, log⟩ := m
  exact lines.latch_deliver log [r] core.number

theorem latch_setLine (m : Machine (Core σ) σ) (line : InputLine) (level : LineLevel) :
    (setLine line level m).2.world.lines.latch m.core.number =
      (m.world.lines.latch m.core.number).set line level := by
  have request := latch_request m ⟨m.core.number, line, level⟩
  rw [LineRequest.levelsFor_own ⟨m.core.number, line, level⟩] at request
  exact request

/-- A request on an edge line does not stop a core. -/
theorem running_setLine (edge : m.core.EdgeLine line) (running : Running m) (level : LineLevel) :
    Running (setLine line level m).2 := by
  have apart {reset : InputLine} (other : reset ≠ line)
      (released : ((m.world.lines.latch m.core.number).level reset).isActive = false) :
      (((setLine line level m).2.world.lines.latch m.core.number).level reset).isActive =
        false := by
    unfold LineLatch.level at released ⊢
    rw [latch_setLine, LineLatch.state_set, if_neg fun both => other both.1]
    exact released
  obtain ⟨core, world⟩ := m
  cases core with
  | sm83 w s =>
    have other : ∀ line ∈ Sm83.requestLines, Sm83.resetLine ≠ line := by decide +kernel
    exact ⟨running.1, apart (other line (edgeLine_sm83 edge)) running.2⟩
  | ucom4 w s =>
    have other : Ucom4.resetLine ≠ line := by
      rw [(edgeLine_ucom4 edge).1]
      decide
    exact ⟨running.1, apart other running.2⟩

/-- What a history of holding a line comes to. -/
theorem Holding.owed {dropped : Bool} (holding : Holding line m dropped) :
    m.core.EdgeLine line ∧ (lineState m line).Owed (m.core.flag line) dropped := by
  induction holding with
  | start edge released => exact ⟨edge, LineState.owed_released released⟩
  | @request m dropped _ r holds ih =>
    obtain ⟨edge, owed⟩ := ih
    refine ⟨edge, ?_⟩
    have reached : lineState (Machine.request r m).2 line =
        ((m.world.lines.latch m.core.number).setAll
          (LineRequest.levelsFor m.core.number [r])).state line :=
      congrArg (LineLatch.state · line) (latch_request m r)
    have state : lineState (Machine.request r m).2 line = lineState m line ∨
        lineState (Machine.request r m).2 line = (lineState m line).request .hold := by
      rw [reached]
      refine LineLatch.state_setAll_hold (LineRequest.HoldsAtMost.levelsFor ?_)
      rintro _ (_ | ⟨_, ⟨⟩⟩)
      exact holds
    show (lineState _ line).Owed (m.core.flag line) dropped
    rcases state with same | held
    · rw [same]
      exact owed
    · rw [held]
      exact owed.request
  | @advance m dropped _ running remaining holds ih =>
    obtain ⟨edge, owed⟩ := ih
    refine ⟨?_, ?_⟩
    · unfold EdgeLine
      rw [(advance_keeps m remaining).2]
      exact edge
    -- first what the action itself leaves, then what is requested meanwhile
    have left : (if m.core.enters line (Core.advance remaining m).1 then
          (lineState m line).withoutEdge.acknowledged
        else (lineState m line).withoutEdge).Owed ((Core.advance remaining m).2.core.flag line)
          (!m.core.enters line (Core.advance remaining m).1 &&
            (dropped || drops line remaining m)) := by
      unfold drops
      rw [flag_sample edge running]
      split
      next entered =>
        rw [entered]
        exact LineState.owed_entered owed _
      next passed =>
        rw [Bool.eq_false_iff.mpr passed]
        exact owed.passed _
    rcases advance_line edge running holds with same | held
    · rw [same]
      exact left
    · rw [held]
      exact left.request

/-- A core that finds its line released or held at most, and is asked for an interrupt once the
request before has been taken, finds that request exactly if none was dropped: before it acts, the
flag of the line is set. -/
theorem hold_found_iff {dropped : Bool} (holding : Holding line m dropped) (running : Running m)
    (there : (m.world.lines.latch m.core.number).has line = true)
    (taken : (lineState m line).edge = false) (clear : m.core.flag line = false)
    (remaining : Nat) :
    let asked := (setLine line .hold m).2
    advance remaining asked = (sample >>= act remaining) asked ∧
      ((sample asked).2.core.flag line = true ↔ dropped = false) := by
  intro asked
  obtain ⟨edge, owed⟩ := holding.owed
  have still : Running asked := running_setLine edge running .hold
  have held : lineState asked line = (lineState m line).request .hold := by
    unfold lineState
    show (LineLatch.state (asked.world.lines.latch m.core.number) line) = _
    rw [latch_setLine, LineLatch.state_set, if_pos ⟨rfl, there⟩]
  refine ⟨advance_sampled still remaining, ?_⟩
  rw [flag_sample (m := asked) edge still, held]
  show ((m.core.flag line || _) = true) ↔ _
  rw [clear, Bool.false_or]
  rw [clear] at owed
  exact owed.found_iff taken

/-- A core that has entered its interrupt finds the next request. -/
theorem hold_found_iff_served :
    let w : Sm83.Wiring UInt8 := .cell id (fun value _ => value) 0
    let before : Machine (Core UInt8) UInt8 :=
      ⟨.sm83 w { regs := { sp := 0xC000, ime := true, ie := 1 } },
        ⟨0, { latches := [.released 6] }, {}⟩⟩
    let m := (advance 4 (setLine 0 .hold before).2).2
    let asked := (setLine 0 .hold m).2
    (advance 4 asked = (sample >>= act 4) asked ∧
      ((sample asked).2.core.flag 0 = true ↔ false = false)) ∧
      m.core.flag 0 = false ∧ (sample asked).2.core.flag 0 = true := by
  intro w before
  have edge : before.core.EdgeLine 0 := ⟨⟨"VBLANK", 0, .edge⟩, List.mem_cons_self, rfl, rfl⟩
  have begun : Holding 0 before false := .start edge rfl
  have asked : Holding 0 (setLine 0 .hold before).2 false :=
    begun.request ⟨0, 0, .hold⟩ fun _ _ => rfl
  have served : Holding 0 (advance 4 (setLine 0 .hold before).2).2 false :=
    asked.entered (by decide +kernel) (by decide +kernel) (by decide +kernel)
  exact ⟨hold_found_iff served (by decide +kernel) (by decide +kernel) (by decide +kernel)
    (by decide +kernel) 4, by decide +kernel, by decide +kernel⟩

/-- A program that polls the interrupt flag takes a request out of it and leaves the line held, so
that the next request is not found. -/
theorem polled_request_not_found :
    -- every fetch reads a test of the interrupt flag
    let w : Ucom4.Wiring UInt8 := .cell id (fun value _ => value) 0
    let before : Machine (Core UInt8) UInt8 :=
      ⟨.ucom4 w {}, ⟨0x03, { latches := [.released 2] }, {}⟩⟩
    let m := (advance 1 (setLine 0 .hold before).2).2
    let asked := (setLine 0 .hold m).2
    Holding 0 m true ∧ Running m ∧ (lineState m 0).edge = false ∧ m.core.flag 0 = false ∧
      advance 1 asked = (sample >>= act 1) asked ∧ (sample asked).2.core.flag 0 = false := by
  intro w before
  have edge : before.core.EdgeLine 0 := ⟨⟨"INT", 0, .edge⟩, List.mem_cons_self, rfl, rfl⟩
  have begun : Holding 0 before false := .start edge rfl
  have asked : Holding 0 (setLine 0 .hold before).2 false :=
    begun.request ⟨0, 0, .hold⟩ fun _ _ => rfl
  have polled : Holding 0 (advance 1 (setLine 0 .hold before).2).2 true :=
    asked.dropping (by decide +kernel) (by decide +kernel) (by decide +kernel) (by decide +kernel)
  exact ⟨polled, by decide +kernel, by decide +kernel, by decide +kernel,
    advance_sampled (by decide +kernel) 1, by decide +kernel⟩

end Core

end Microboard
