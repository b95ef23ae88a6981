import Microboard.Proofs.Ucom4.Skipping

/-!
# uCOM-4 timer

`STM` starts the timer, and every machine cycle that passes after it counts: those of instructions,
executed, skipped or tolerated, those of interrupt entries, and all wait states. The operations
themselves leave the timer alone.

- **§1** Operations.
- **§2** Actions: what they charge runs on the timer.
- **§3** Runs since an `STM`.
-/

namespace Microboard.Ucom4

variable {σ : Type} {w : Wiring σ} {m : Machine State σ}

/-! ## §1 Operations -/

/-- What operations reach by extensions only: whether interrupts are enabled, and the timer. -/
structure Controls where
  intEnable : Bool
  dial : Dial

def State.controls (s : State) : Controls := ⟨s.regs.intEnable, s.dial⟩

theorem input_core (w : Wiring σ) (port : UInt8) (m : Machine State σ) :
    ∃ bus, (input w port m).2.core = { m.core with bus } := by
  unfold input
  rw [eval_ite]
  split
  · rw [eval_bind, eval_ite]
    split <;> exact ⟨_, rfl⟩
  · exact ⟨_, rfl⟩

theorem output_core (w : Wiring σ) (port value : UInt8) (m : Machine State σ) :
    ∃ portOut bus, (output w port value m).2.core =
      { m.core with regs := { m.core.regs with portOut }, bus } := by
  unfold output
  rw [eval_ite]
  split <;> exact ⟨_, _, rfl⟩

/-- An argument that is not the expected one is noted in the log. -/
theorem checkArgument_core (w : Wiring σ) (mnemonic : String) (argument mask fixed : UInt8)
    (m : Machine State σ) : (checkArgument w mnemonic argument mask fixed m).2.core = m.core := by
  unfold checkArgument
  rw [eval_ite]
  split <;> rfl

/-- Operations that use a port, and comparisons that check their argument. -/
def Op.isGuarded : Op → Bool
  | .reb _ | .seb _ | .rpb _ | .spb _ | .oe | .op | .ocd | .tpa _ | .tpb _ | .ia | .ip | .ci
  | .cli => true
  | _ => false

/-- What such an operation may change of a core, whether the part has the port or not. -/
theorem perform_guarded (w : Wiring σ) (argument : UInt8) {operation : Op}
    (guarded : operation.isGuarded = true) (m : Machine State σ) :
    ∃ acc portOut skip bus, (perform w argument operation m).2.core =
      { m.core with regs := { m.core.regs with acc, portOut }, skip, bus } := by
  have drives {port value : UInt8} : ∃ acc portOut skip bus, (output w port value m).2.core =
      { m.core with regs := { m.core.regs with acc, portOut }, skip, bus } := by
    obtain ⟨portOut, bus, core⟩ := output_core w port value m
    exact ⟨_, portOut, _, bus, core⟩
  have tests (port bit : UInt8) : ∃ acc portOut skip bus,
      { (input w port m).2.core with skip := hasBit (input w port m).1 bit } =
        { m.core with regs := { m.core.regs with acc, portOut }, skip, bus } := by
    obtain ⟨bus, core⟩ := input_core w port m
    rw [core]
    exact ⟨_, _, _, bus, rfl⟩
  have loads (port : UInt8) : ∃ acc portOut skip bus,
      { (input w port m).2.core with
        regs := { (input w port m).2.core.regs with acc := (input w port m).1 } } =
        { m.core with regs := { m.core.regs with acc, portOut }, skip, bus } := by
    obtain ⟨bus, core⟩ := input_core w port m
    rw [core]
    exact ⟨_, _, _, bus, rfl⟩
  have compares (mnemonic : String) (mask fixed : UInt8) (equal : Bool) : ∃ acc portOut skip bus,
      (checkArgument w mnemonic argument mask fixed
        ⟨{ m.core with skip := equal }, m.world⟩).2.core =
        { m.core with regs := { m.core.regs with acc, portOut }, skip, bus } :=
    ⟨_, _, _, _, checkArgument_core ..⟩
  cases operation with
  | reb | seb | rpb | spb | oe | op => exact drives
  | ocd =>
    obtain ⟨_, _, first⟩ := output_core w portD (argument >>> 4) m
    obtain ⟨portOut, bus, second⟩ :=
      output_core w portC (nibble argument) (output w portD (argument >>> 4) m).2
    rw [first] at second
    exact ⟨_, portOut, _, bus, second⟩
  | tpa bit => exact tests portA bit
  | tpb bit => exact tests m.core.regs.dpl bit
  | ia => exact loads portA
  | ip => exact loads m.core.regs.dpl
  | ci => exact compares "CI" 0xF0 0xC0 _
  | cli => exact compares "CLI" 0xF0 0xE0 _
  | _ => nomatch guarded

theorem perform_controls (w : Wiring σ) (argument : UInt8) {operation : Op}
    (plain : operation.isExtension = false) (m : Machine State σ) :
    (perform w argument operation m).2.core.controls = m.core.controls := by
  have spared (guarded : operation.isGuarded = true) :
      (perform w argument operation m).2.core.controls = m.core.controls := by
    obtain ⟨_, _, _, _, core⟩ := perform_guarded w argument guarded m
    rw [core]
    rfl
  cases operation with
  | ei | di | stm => cases plain
  | reb | seb | rpb | spb | oe | op | ocd | tpa | tpb | ia | ip | ci | cli => exact spared rfl
  | _ => rfl

/-- No operation but `STM` looks after the timer. -/
theorem perform_dial (w : Wiring σ) (argument : UInt8) {operation : Op} (other : operation ≠ .stm)
    (m : Machine State σ) : (perform w argument operation m).2.core.dial = m.core.dial := by
  cases extends_ : operation.isExtension with
  | false => exact congrArg Controls.dial (perform_controls w argument extends_ m)
  | true =>
    -- the other extensions decide about interrupts and skips, or reach RAM
    cases operation with
    | stm => exact absurd rfl other
    | ei | di | ttm | taw | taz | thx | tly | xaw | xaz | xhr | xhx | xls | xly => rfl
    | sfb | rfb | fbt | fbf => rfl
    | _ => cases extends_

theorem perform_stm (w : Wiring σ) (argument : UInt8) (m : Machine State σ) :
    (perform w argument .stm m).2.core.dial = ⟨some (timerCycles argument), false⟩ :=
  congrArg State.dial (checkArgument_core w "STM" argument 0xC0 0x80 _)

/-! ## §2 Actions -/

/-- Cycles that an action charges; a fault takes no time. -/
def lapsed : Except Fault StepOutcome → Nat
  | .ok step => step.cycles
  | .error _ => 0

/-- The timer after an action that charges its cycles and does nothing else to it. -/
def Dial.lapse (dial : Dial) : Except Fault StepOutcome → Dial
  | .ok step => dial.after step.cycles
  | .error _ => dial

theorem Dial.lapse_after (dial : Dial) (cycles : Nat) (answer : Except Fault StepOutcome) :
    (dial.after cycles).lapse answer = dial.after (cycles + lapsed answer) := by
  cases answer with
  | ok step => exact after_after cycles step.cycles dial
  | error fault => rfl

/-- What an action charges has passed on the timer. -/
def Lapses (dial : Dial) (after : Except Fault StepOutcome × Machine State σ) : Prop :=
  after.2.core.dial = dial.lapse after.1

section Actions

variable {dial : Dial} {pc : UInt16} {opcode : UInt8} {entry : Entry} {s : State}

theorem dial_tickTimer (w : Wiring σ) (cycles : Nat) (m : Machine State σ) :
    (tickTimer w cycles m).2.core.dial = m.core.dial.after cycles := by
  obtain ⟨log, ticked⟩ := tickTimer_dial w cycles m
  rw [ticked]
  rfl

/-- The end of an instruction whose own cycles have passed. -/
theorem retire_lapses {cost : Nat} (passed : m.core.dial = dial.after cost) :
    Lapses dial (Prod.map .ok id (retire w pc opcode cost m)) := by
  obtain ⟨log, ended⟩ := retire_eq w pc opcode cost m
  rw [ended]
  show m.core.dial.after (w.waits m.world.devices).toNat = _
  rw [passed, Dial.after_after]
  rfl

theorem runSkipped_lapses :
    Lapses m.core.dial (Prod.map .ok id (runSkipped w pc opcode entry m)) := by
  obtain ⟨log, dropped⟩ := runSkipped_eq w pc opcode entry m
  rw [dropped]
  rfl

/-- An illegal opcode that stops the core charges nothing. -/
theorem runIllegal_lapses : Lapses m.core.dial (runIllegal w pc opcode entry m) := by
  unfold runIllegal
  rw [eval_bind, eval_bind]
  dsimp only
  cases w.config.policy with
  | fatal => rfl
  | nop => exact retire_lapses (dial_tickTimer w entry.cycles _)

theorem runFetched_lapses (other : s.skip = false → entry.operation ≠ .stm) :
    Lapses m.core.dial (runFetched w pc opcode entry s m) := by
  unfold runFetched
  rw [eval_ite, eval_ite]
  split
  · exact runSkipped_lapses
  · next runs =>
    split
    · exact runIllegal_lapses
    · have kept := perform_dial w s.argument (other (eq_false_of_ne_true runs))
      exact retire_lapses ((kept _).trans (dial_tickTimer w entry.cycles m))

/-- The entry of the interrupt charges its cycles, wait states included. -/
theorem service_lapses : Lapses m.core.dial (Prod.map .ok id (service w m)) := by
  rw [service_handler, enterHandler_charges]
  exact dial_tickTimer w _ _

/-- The opcode of `STM`. -/
theorem decodeFull_stm : ∀ opcode < 256,
    decodeFull (UInt8.ofNat opcode) = .stm → UInt8.ofNat opcode = 0x14 := by
  decide +kernel

theorem decode_stm {family : Family} (stm : (decode family opcode).operation = .stm) :
    opcode = 0x14 := by
  have full := decodeFull_stm opcode.toNat opcode.toNat_lt
  rw [UInt8.ofNat_toNat] at full
  unfold decode decodeOp at stm
  dsimp only at stm
  split at stm
  · cases stm
  · exact full stm

/-- `STM` is fetched with its argument. -/
theorem instruction_stm {devices : σ}
    (stm : (w.instruction pc devices).value.headD 0 = 0x14) :
    ∃ argument, (w.instruction pc devices).value = [0x14, argument] := by
  rw [instruction_apply] at stm ⊢
  dsimp only at stm ⊢
  split
  · next long =>
    rw [if_pos long] at stm
    exact ⟨_, congrArg (fun opcode => [opcode, _]) stm⟩
  · next short =>
    rw [if_neg short] at stm
    -- this opcode has an argument
    exact absurd ((congrArg hasArgument stm).trans (by decide)) short

/-- Whatever an action does, its cycles have passed on the timer, unless it executes `STM`. -/
theorem advance_lapses (free : m.core.exec.latchedFault? = none → Released w m)
    (other : ∀ argument, ¬Executes w m [0x14, argument]) (remaining : Nat) :
    Lapses m.core.dial (advance w remaining m) := by
  cases latched : m.core.exec.latchedFault? with
  | some fault =>
    -- a latched fault is answered again and charges nothing
    rw [advance_eq, latched]
    rfl
  | none =>
    have released := free latched
    have sampled : (sample w m).2.core.dial = m.core.dial := by
      rw [sample_core released]
      rfl
    rw [advance_acts latched released]
    cases due : interruptAllowed (sample w m).2.core with
    | true =>
      rw [if_pos rfl, ← sampled]
      exact service_lapses
    | false =>
      -- whatever is fetched now is no `STM`, or it is skipped
      rw [if_neg nofun, ← sampled]
      obtain ⟨lines, log, runs⟩ := runInstruction_sample released
      rw [runs]
      refine runFetched_lapses fun unskipped stm => ?_
      obtain ⟨argument, fetched⟩ := instruction_stm (decode_stm stm)
      rw [executing_eq released] at unskipped
      exact other argument ⟨⟨released, due, fetched⟩, latched, unskipped⟩

/-- `STM` starts the timer anew, and of its own cycles only the wait states pass on it. -/
theorem advance_stm (full : w.geometry.family = .ucom43) {argument : UInt8}
    (executes : Executes w m [0x14, argument]) (remaining : Nat) :
    ∃ waits,
      let after := advance w remaining m
      after.1 = .ok (.retired m.core.regs.pc.toUInt32 (2 + waits)) ∧
        after.2.core.dial = Dial.after waits ⟨some (timerCycles argument), false⟩ := by
  let entry : Entry := ⟨.stm, 2, 2⟩
  have decoded : decode w.geometry.family 0x14 = entry := by
    rw [full]
    rfl
  obtain ⟨lines, log, performs⟩ := executes.performs decoded nofun remaining
  let s := State.executing w m [0x14, argument]
  let begins : Machine State σ := ⟨s.withDial (s.dial.after 2),
    (w.instruction m.core.regs.pc m.world.devices).state, lines, log⟩
  let started := (perform w s.argument .stm begins).2
  have given : s.argument = argument := by
    unfold s
    rw [executing_eq executes.released]
    rfl
  -- the operation makes up for what its two cycles have done to the timer
  have dial : started.core.dial = ⟨some (timerCycles argument), false⟩ := by
    rw [← given]
    exact perform_stm w s.argument begins
  obtain ⟨log', ended⟩ := retire_eq w m.core.regs.pc 0x14 2 started
  have retires : advance w remaining m =
    Prod.map .ok id (retire w m.core.regs.pc 0x14 2 started) := performs
  refine ⟨(w.waits started.world.devices).toNat, ?_⟩
  rw [retires, ended, ← dial]
  exact ⟨rfl, rfl⟩

end Actions

/-! ## §3 Runs -/

/-- A core that has executed `STM` with an argument, without wait states, and the cycles that it has
charged since. It has acted in whatever worlds surrounded it, but has executed no other `STM` and has
not been reset, and its host has taken note of the levels that it has driven. -/
inductive Counting (w : Wiring σ) (argument : UInt8) : State → Nat → Prop where
  | started {s : State} {world : World σ} {remaining : Nat} :
      Executes w ⟨s, world⟩ [0x14, argument] →
      (advance w remaining ⟨s, world⟩).1 = .ok (.retired s.regs.pc.toUInt32 2) →
      Counting w argument (advance w remaining ⟨s, world⟩).2.core 0
  | acted {s : State} {elapsed : Nat} (remaining : Nat) (world : World σ) :
      Counting w argument s elapsed →
      -- a latched fault is answered again, whatever the reset line says
      (s.exec.latchedFault? = none → Released w ⟨s, world⟩) →
      (∀ other, ¬Executes w ⟨s, world⟩ [0x14, other]) →
      Counting w argument (advance w remaining ⟨s, world⟩).2.core
        (elapsed + lapsed (advance w remaining ⟨s, world⟩).1)
  | noted {s : State} {elapsed : Nat} :
      Counting w argument s elapsed → Counting w argument { s with outputs := #[] } elapsed

/-- The timer has counted all cycles, in whatever pieces they came. -/
theorem Counting.dial (full : w.geometry.family = .ucom43) {argument : UInt8} {s : State}
    {elapsed : Nat} (counting : Counting w argument s elapsed) :
    s.dial = Dial.after elapsed ⟨some (timerCycles argument), false⟩ := by
  induction counting with
  | @started s world remaining executes retired =>
    obtain ⟨waits, answer, dial⟩ := advance_stm full executes remaining
    rw [retired] at answer
    injection answer with answer
    injection answer with _ cycles
    obtain rfl : waits = 0 := by omega
    exact dial
  | @acted s elapsed remaining world _ free other ih =>
    have lapses := advance_lapses (m := ⟨s, world⟩) free other remaining
    unfold Lapses at lapses
    rw [lapses, ih, Dial.lapse_after]
  | noted _ ih => exact ih

/-- The timer that `STM` starts counts every cycle once: it shows what is left of its 63 to 4032
cycles until they have all been charged, and is then out, with its flag set. -/
theorem timer_counts (full : w.geometry.family = .ucom43) {argument : UInt8} {s : State}
    {elapsed : Nat} (counting : Counting w argument s elapsed) :
    let duration := ((argument &&& 0x3F).toNat + 1) * 63
    s.timer = (if elapsed < duration then some (duration - elapsed) else none) ∧
      (s.regs.timerFlag = true ↔ duration ≤ elapsed) := by
  intro duration
  have dial := counting.dial full
  have left : s.timer = _ := congrArg Dial.left dial
  have out : s.regs.timerFlag = _ := congrArg Dial.out dial
  rw [left, out, show timerCycles argument = duration from rfl]
  unfold Dial.after
  dsimp only
  by_cases passed : duration ≤ elapsed
  · simp [passed]
  · simp [passed, Nat.lt_of_not_le passed]

/-- The shortest time runs out inside an instruction of many wait states, after another such
instruction and an interrupt entry. -/
theorem timer_counts_expiring :
    let program : Space Nat :=
      { config := ⟨"program", 11, 8, .little⟩
        -- all that follows the `STM` takes wait states
        read := fun _ address owed =>
          ⟨if address = 0 then 0x14 else if address = 1 then 0x80 else 0x00,
            if address < 2 then owed else owed + 30, []⟩
        write := fun _ _ _ owed => ⟨(), owed, []⟩
        takeWaitStates := fun owed => (UInt32.ofNat owed, 0) }
    let nibbles (name : String) : Space Nat :=
      .cell ⟨name, 7, 4, .little⟩ (fun _ => 0) fun _ owed => owed
    let w : Wiring Nat :=
      { config := { part := .upd553 }, program, data := nibbles "data", io := nibbles "io",
        number := 0 }
    let world (latch : LineLatch) : World Nat := ⟨0, { latches := [latch] }, {}⟩
    let quiet := LineLatch.released 2
    let requested := quiet.set interruptLine .assert
    let step (s : State) (latch : LineLatch) : State := (advance w 1 ⟨s, world latch⟩).2.core
    let started := step { regs := { intEnable := true } } quiet
    let nearly := step (step started quiet) requested
    let expired := step (step nearly quiet) quiet
    w.geometry.family = .ucom43 ∧ Counting w 0x80 nearly 32 ∧ Counting w 0x80 expired 94 ∧
      nearly.timer = some 31 ∧ nearly.regs.timerFlag = false ∧
      expired.timer = none ∧ expired.regs.timerFlag = true := by
  intro program nibbles w world quiet requested step started nearly expired
  have acts {s : State} {elapsed : Nat} (counting : Counting w 0x80 s elapsed)
      (latch : LineLatch) (cycles : Nat) (released : Released w ⟨s, world latch⟩)
      (bytes : (w.instruction s.regs.pc 0).value = [0])
      (lasts : lapsed (advance w 1 ⟨s, world latch⟩).1 = cycles) :
      Counting w 0x80 (step s latch) (elapsed + cycles) := by
    rw [← lasts]
    exact counting.acted 1 (world latch) (fun _ => released)
      fun other executes => nomatch bytes.symm.trans executes.fetched
  have counting : Counting w 0x80 started 0 :=
    .started (by decide +kernel) (by decide +kernel)
  have first := acts counting quiet 31 rfl (by decide +kernel) (by decide +kernel)
  have second : Counting w 0x80 nearly 32 :=
    acts first requested 1 rfl (by decide +kernel) (by decide +kernel)
  have third := acts second quiet 31 rfl (by decide +kernel) (by decide +kernel)
  have fourth : Counting w 0x80 expired 94 :=
    acts third quiet 31 rfl (by decide +kernel) (by decide +kernel)
  have full : w.geometry.family = .ucom43 := rfl
  obtain ⟨left, flag⟩ := timer_counts full second
  obtain ⟨left', flag'⟩ := timer_counts full fourth
  exact ⟨full, second, fourth, left, by simpa using flag, left', flag'.mpr (by decide)⟩

end Microboard.Ucom4
