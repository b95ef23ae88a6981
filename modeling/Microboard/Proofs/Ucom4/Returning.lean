import Microboard.Proofs.Ucom4.Entering

/-!
# Returns from uCOM-4 interrupts

An interrupt leaves its return address on the call stack, where calls, and further interrupts, are
put on top of it. It is found again by the return that matches it, as long as it has not fallen off
the deep end meanwhile.

- **§1** What an action does with the call stack.
- **§2** Operations.
- **§3** Instructions and actions.
- **§4** Handlers: what is outstanding since an interrupt was entered.
- **§5** When the interrupt is entered, and where its handler returns to.
-/

namespace Microboard.Ucom4

variable {σ : Type} {w : Wiring σ} {m : Machine State σ}

/-! ## §1 The call stack -/

/-- What an action does with the call stack. -/
inductive Turn where
  | stays
  /-- An address is pushed. -/
  | calls
  /-- The core goes on at the address that was pushed last. -/
  | returns
  deriving DecidableEq, Repr

/-- What an operation does with the call stack. -/
def Op.turn : Op → Turn
  | .cal _ | .czp _ => .calls
  | .rt | .rts => .returns
  | _ => .stays

namespace Turn

/-- Addresses on top of a certain one, given how many there were. There is no telling once that one
is taken. -/
def depth : Turn → Nat → Option Nat
  | .stays, depth => some depth
  | .calls, depth => some (depth + 1)
  | .returns, depth + 1 => some depth
  | .returns, 0 => none

/-- What an action makes of a call stack, and where it leaves the program counter. -/
def Moves (g : Geometry) (stack : CallStack) : Turn → CallStack → UInt16 → Prop
  | .stays, after, _ => after = stack
  | .calls, after, _ => ∃ address, after = stack.push g.stackLevels address
  | .returns, after, pc => after = stack.drop g.stackLevels ∧ pc = stack.top &&& g.programMask

/-- An address stays on the stack as long as it is inside it. -/
theorem Moves.slot {g : Geometry} {stack after : CallStack} {turn : Turn} {pc : UInt16}
    (moves : turn.Moves g stack after pc) {before later : Nat}
    (deeper : turn.depth before = some later) (inside : before < CallStack.used g.stackLevels)
    (stays : later < CallStack.used g.stackLevels) : after.slot later = stack.slot before := by
  cases turn with
  | stays =>
    obtain rfl : after = stack := moves
    obtain rfl := Option.some.inj deeper
    rfl
  | calls =>
    obtain ⟨address, rfl⟩ := moves
    obtain rfl := Option.some.inj deeper
    rw [CallStack.slot_push _ _ _ stays, if_neg (Nat.succ_ne_zero before), Nat.add_sub_cancel]
  | returns =>
    obtain ⟨rfl, -⟩ := moves
    cases before with
    | zero => cases deeper
    | succ before =>
      obtain rfl := Option.some.inj deeper
      rw [CallStack.slot_drop _ _ stays, if_pos inside]

end Turn

/-! ## §2 Operations -/

/-- Something said of call stack and program counter. -/
def Poised (Q : CallStack → UInt16 → Prop) (m : Machine State σ) : Prop :=
  Q m.core.regs.stack m.core.regs.pc

section Operations

variable {Q : CallStack → UInt16 → Prop}

theorem touches_poised (w : Wiring σ) (Q : CallStack → UInt16 → Prop) :
    Touches w w (Both (Poised Q)) where
  config := rfl
  regs := by
    rintro m _ ⟨rfl, -⟩
    exact ⟨_, rfl⟩
  lastPc := by
    rintro m _ ⟨rfl, -⟩
    rfl
  change {change} plain := Keeps.lockstep fun m poised => by
    show Q (change m.core.regs).stack (change m.core.regs).pc
    rw [State.stack_plain plain, (plain.keeps m.core.regs).1]
    exact poised
  setSkip _ := Keeps.lockstep fun _ poised => poised
  startTimer _ := Keeps.lockstep fun _ poised => poised
  record _ := Keeps.lockstep fun _ poised => poised
  latchPort _ := Keeps.lockstep fun _ poised => poised
  readData _ := Keeps.lockstep fun _ poised => poised
  writeData _ _ := Keeps.lockstep fun _ poised => poised
  readIo _ := Keeps.lockstep fun _ poised => poised
  writeIo _ _ := Keeps.lockstep fun _ poised => poised

/-- Only calls and returns touch the call stack. -/
theorem perform_moves (w : Wiring σ) {operation : Op} (fits : operation.fits = true)
    (argument : UInt8) (stack : CallStack) :
    Ensures (Poised fun held _ => held = stack) (perform w argument operation)
      fun _ => Poised (operation.turn.Moves w.geometry stack) := by
  cases operation with
  | jmp | jcp | jpa => exact fun _ same => same
  | cal | czp =>
    rintro m rfl
    exact ⟨_, rfl⟩
  | rt | rts =>
    rintro m rfl
    exact ⟨rfl, rfl⟩
  | _ =>
    exact ((touches_poised w fun held _ => held = stack).steady.perform rfl fits (fun _ => rfl)
      fun _ => Keeps.lockstep fun _ same => same).keeps

theorem tickTimer_poised (w : Wiring σ) (cycles : Nat) : Keeps (Poised Q) (tickTimer w cycles) := by
  intro m poised
  obtain ⟨timer, timerFlag, log, passed⟩ := tickTimer_passes w cycles m
  rw [passed]
  exact poised

end Operations

/-! ## §3 Actions -/

/-- What an action does with the call stack, to go by what it answers and what it fetches. -/
def turned (g : Geometry) (skips : Bool) (answer : Except Fault StepOutcome)
    (bus : List BusCycle) : Turn :=
  match answer, opcodeFetched bus with
  | .ok (.interrupt ..), _ => .calls
  | _, some opcode => if skips then .stays else (decode g.family opcode).operation.turn
  | _, none => .stays

section Instructions

variable {Q : CallStack → UInt16 → Prop}

theorem retire_poised (w : Wiring σ) (pc : UInt16) (opcode : UInt8) (cost : Nat) :
    Keeps (Poised Q) (retire w pc opcode cost) :=
  .bind (fun _ poised => poised) fun _ => .bind (fun _ poised => poised) fun waits =>
    .bind (tickTimer_poised w waits) fun _ => fun _ poised => poised

theorem runIllegal_poised (w : Wiring σ) (pc : UInt16) (opcode : UInt8) (entry : Entry) :
    Keeps (Poised Q) (runIllegal w pc opcode entry) := by
  refine .bind (fun _ poised => poised) fun _ => .bind (fun _ poised => poised) fun _ => ?_
  dsimp only
  cases w.config.policy with
  | fatal => exact .bind (fun _ poised => poised) fun _ => .pure _
  | nop =>
    exact .bind (tickTimer_poised w _) fun _ => .bind (retire_poised w pc opcode _) fun _ =>
      .pure _

/-- An instruction that is skipped or illegal leaves the call stack alone. -/
theorem runFetched_moves (w : Wiring σ) (pc : UInt16) (opcode : UInt8) (s : State)
    (stack : CallStack) :
    let entry := decode w.geometry.family opcode
    Ensures (Poised fun held _ => held = stack) (runFetched w pc opcode entry s)
      fun _ => Poised ((if s.skip then Turn.stays else entry.operation.turn).Moves w.geometry
        stack) := by
  intro entry
  refine .ite (fun skips => ?_) fun runs => ?_
  · rw [if_pos skips]
    exact .mapped (.keepsBind (tickTimer_poised w _) fun _ => .keepsBind (fun _ same => same)
      fun _ => retire_poised w pc opcode _)
  rw [if_neg runs]
  refine .ite (fun illegal => ?_) fun _ => ?_
  · rw [illegal]
    exact runIllegal_poised w pc opcode entry
  · obtain ⟨fits, -⟩ := decode_fits w.geometry.family opcode
    exact .keepsBind (tickTimer_poised w _) fun _ =>
      .bind (perform_moves w fits s.argument stack) fun _ => .mapped (retire_poised w pc opcode _)

/-- To fetch an instruction does not touch the call stack. -/
theorem fetched_stack (w : Wiring σ) (m : Machine State σ) :
    (fetched w m).core.regs.stack = m.core.regs.stack ∧
      (fetched w m).core.skip = m.core.skip := by
  unfold fetched fetchInstruction
  rw [eval_bind, eval_ite]
  split <;> exact ⟨rfl, rfl⟩

theorem runInstruction_moves (w : Wiring σ) (m : Machine State σ) :
    (if m.core.skip then Turn.stays
      else (decode w.geometry.family (nextOpcode w m)).operation.turn).Moves w.geometry
        m.core.regs.stack (runInstruction w m).2.core.regs.stack
        (runInstruction w m).2.core.regs.pc := by
  obtain ⟨stack, skip⟩ := fetched_stack w m
  rw [runInstruction_fetched, ← skip]
  exact runFetched_moves w m.core.regs.pc (nextOpcode w m) (fetched w m).core _ _ stack

end Instructions

/-- What an action does with the call stack is told by what it answers and fetches. -/
theorem advance_moves (valid : w.geometry.validate = .ok ())
    (awake : m.core.exec.latchedFault? = none) (released : Released w m) (remaining : Nat) :
    let after := advance w remaining m
    (turned w.geometry m.core.skip after.1 after.2.core.bus).Moves w.geometry m.core.regs.stack
      after.2.core.regs.stack after.2.core.regs.pc := by
  intro after
  obtain ⟨-, entered⟩ | ⟨-, runs, attempted⟩ := advance_cases valid awake released remaining
  · obtain ⟨cycles, outcome⟩ := entered.outcome
    rw [show after.1 = _ from outcome]
    exact ⟨m.core.regs.pc, congrArg Registers.stack entered.regs⟩
  · have fresh : (sample w m).2.core.bus = [] := by rw [sample_core released]
    obtain ⟨first, -, -⟩ := runInstruction_marked w fresh
    have moves := runInstruction_moves w (sample w m).2
    have place : RunsAt m.core.regs.pc after.1 := attempted.place
    rw [← runs] at first moves
    have fetches : opcodeFetched after.2.core.bus = some (nextOpcode w (sample w m).2) :=
      opcodeFetched_of_first first
    unfold turned
    rw [fetches]
    have same : (sample w m).2.core.skip = m.core.skip ∧
        (sample w m).2.core.regs.stack = m.core.regs.stack := by
      rw [sample_core released]
      exact ⟨rfl, rfl⟩
    rw [same.1, same.2] at moves
    generalize after.1 = answer at place
    cases place <;> exact moves

/-! ## §4 Handlers -/

/-- A core has gone on from a state, without a reset or a fault, and so many addresses have been put
on top of its call stack since that have not been taken yet. There were always fewer than the part
has levels. -/
inductive Handling (w : Wiring σ) (s : State) : State → Nat → Prop where
  | entered : Handling w s s 0
  | acted {t : State} {before later : Nat} (remaining : Nat) (world : World σ) :
      Handling w s t before → t.exec.latchedFault? = none → Released w ⟨t, world⟩ →
      (turned w.geometry t.skip (advance w remaining ⟨t, world⟩).1
        (advance w remaining ⟨t, world⟩).2.core.bus).depth before = some later →
      later < w.geometry.stackLevels →
      Handling w s (advance w remaining ⟨t, world⟩).2.core later
  | noted {t : State} {outstanding : Nat} :
      Handling w s t outstanding → Handling w s { t with outputs := #[] } outstanding

/-- The address that was last on the call stack lies under those that are outstanding. -/
theorem Handling.kept (valid : w.geometry.validate = .ok ()) {s t : State} {outstanding : Nat}
    (handling : Handling w s t outstanding) :
    outstanding < w.geometry.stackLevels ∧ t.regs.stack.slot outstanding = s.regs.stack.top := by
  have used := Geometry.used_stackLevels valid
  induction handling with
  | entered => exact ⟨(Geometry.ranges valid).2.1, (CallStack.top_eq _).symm⟩
  | @acted t before later remaining world _ awake released deeper below ih =>
    obtain ⟨inside, kept⟩ := ih
    have moves := advance_moves (m := ⟨t, world⟩) valid awake released remaining
    rw [← used] at inside
    exact ⟨below, (moves.slot deeper inside (used.symm ▸ below)).trans kept⟩
  | noted _ ih => exact ih

/-- When nothing is outstanding, a return takes that address. -/
theorem Handling.resumes (valid : w.geometry.validate = .ok ()) {s t : State}
    (handling : Handling w s t 0) {world : World σ} (awake : t.exec.latchedFault? = none)
    (released : Released w ⟨t, world⟩) {remaining : Nat}
    (returns : turned w.geometry t.skip (advance w remaining ⟨t, world⟩).1
      (advance w remaining ⟨t, world⟩).2.core.bus = .returns) :
    (advance w remaining ⟨t, world⟩).2.core.regs.pc =
      s.regs.stack.top &&& w.geometry.programMask := by
  obtain ⟨-, kept⟩ := handling.kept valid
  have moves := advance_moves (m := ⟨t, world⟩) valid awake released remaining
  dsimp only at moves
  rw [returns] at moves
  rw [moves.2, CallStack.top_eq, kept]

/-! ## §5 Interrupts -/

/-- A core that is neither faulted nor held in reset enters its interrupt exactly if it is requested
and enabled, no skip is pending and neither `EI` nor an `LI` was the last instruction. Nothing is
fetched then. The matching return goes back to where the core was, if the call stack could hold
everything that was put on top of that address. -/
theorem interrupt_taken_iff {s : State} {last : UInt8} (recalled : Recalled w s last)
    (world : World σ) (awake : s.exec.latchedFault? = none) (released : Released w ⟨s, world⟩)
    (remaining : Nat) :
    let m : Machine State σ := ⟨s, world⟩
    let after := advance w remaining m
    ((∃ vector cycles, after.1 = .ok (.interrupt vector cycles)) ↔
      flagFound w m = true ∧ s.regs.intEnable = true ∧ s.skip = false ∧ last ≠ 0x31 ∧
        ¬(0x90 ≤ last ∧ last ≤ 0x9F)) ∧
    ((∃ vector cycles, after.1 = .ok (.interrupt vector cycles)) → Entered w m after ∧
      ∀ t, Handling w after.2.core t 0 → ∀ world', t.exec.latchedFault? = none →
        Released w ⟨t, world'⟩ → ∀ remaining',
        let back := advance w remaining' ⟨t, world'⟩
        turned w.geometry t.skip back.1 back.2.core.bus = .returns →
          back.2.core.regs.pc = s.regs.pc) ∧
    ((∀ vector cycles, after.1 ≠ .ok (.interrupt vector cycles)) → Attempted m after) := by
  intro m after
  have valid := recalled.valid
  obtain ⟨rfl, -⟩ := recalled.last
  have allowed : interruptAllowed (sample w m).2.core = true ↔
      flagFound w m = true ∧ s.regs.intEnable = true ∧ s.skip = false ∧ s.opcode ≠ 0x31 ∧
        ¬(0x90 ≤ s.opcode ∧ s.opcode ≤ 0x9F) := by
    rw [interruptAllowed_iff, sample_core released]
  rw [← allowed]
  obtain ⟨due, entered⟩ | ⟨undue, -, attempted⟩ := advance_cases valid awake released remaining
  · obtain ⟨cycles, outcome⟩ := entered.outcome
    refine ⟨⟨fun _ => due, fun _ => ⟨_, cycles, outcome⟩⟩, fun _ => ⟨entered, ?_⟩,
      fun calm => absurd outcome (calm _ _)⟩
    intro t handling world' awake' released' remaining' back returns
    have inside : s.regs.pc &&& w.geometry.programMask = s.regs.pc :=
      recalled.hosted.fits.sound.pc valid
    have top : after.2.core.regs.stack.top = s.regs.pc :=
      (CallStack.top_eq _).trans entered.top
    have resumes := handling.resumes valid awake' released' returns
    rw [top, inside] at resumes
    exact resumes
  · have calm := attempted.place.calm
    refine ⟨⟨fun ⟨_, _, interrupts⟩ => absurd interrupts (calm _ _), fun due => ?_⟩,
      fun ⟨_, _, interrupts⟩ => absurd interrupts (calm _ _), fun _ => attempted⟩
    exact nomatch undue.symm.trans due

/-- An interrupt that is requested from the start waits for `EI` and for what follows it, and for
what follows `LI`. Its handler calls a subroutine before it returns, for which a call stack of two
levels has room. -/
theorem interrupt_taken_iff_nested :
    let config : Config := { part := .custom ⟨.ucom43, 8, 4, 2, .standard⟩ }
    let program : Space Unit :=
      { config := ⟨"program", 8, 8, .little⟩
        -- enable, load, wait; a return; in the handler, call it and return
        read := fun _ address devices =>
          ⟨if address < 5 then [0x31, 0x91, 0x00, 0x00, 0x48].getD address.toNat 0
            else if address = 0x3C then 0xB1 else 0x48, devices, []⟩
        write := fun _ _ _ devices => ⟨(), devices, []⟩ }
    let nibbles (name : String) : Space Unit :=
      .cell ⟨name, 4, 4, .little⟩ (fun _ => 0) fun _ devices => devices
    let w : Wiring Unit :=
      { config, program, data := nibbles "data", io := nibbles "io", number := 0 }
    let held : World Unit :=
      ⟨(), { latches := [(LineLatch.released 2).set interruptLine .hold] }, {}⟩
    let step (m : Machine State Unit) : Machine State Unit := (advance w 1 m).2
    let built : Machine State Unit := ⟨(reset w ⟨{}, ⟨(), {}, {}⟩⟩).2.core, held⟩
    let enabled := step built
    let loaded := step enabled
    let waited := step loaded
    let interrupted := step waited
    let nested := step interrupted
    let unnested := step nested
    [built, enabled, loaded, waited].map (fun m => enters (advance w 1 m).1) =
        [false, false, false, true] ∧
      Recalled w loaded.core 0x91 ∧ Attempted loaded (advance w 1 loaded) ∧
      Recalled w waited.core 0x00 ∧ Entered w waited (advance w 1 waited) ∧
      [waited, interrupted, nested, unnested].map (·.core.regs.pc) = [0x03, 0x3C, 0x04, 0x3D] ∧
      (step unnested).core.regs.pc = 0x03 := by
  intro config program nibbles w held step built enabled loaded waited interrupted nested unnested
  obtain ⟨_, made⟩ : ∃ world', build config program (nibbles "data") (nibbles "io") ⟨(), {}, {}⟩ =
      .ok ((w, built.core), world') := ⟨_, rfl⟩
  have free : ∀ m ∈ [loaded, waited, interrupted, nested, unnested],
      m.core.exec.latchedFault? = none ∧
        ((m.world.lines.latch w.number).level resetLine).isActive = false := by
    decide +kernel
  have steps {m : Machine State Unit} {last next : UInt8} (recalled : Recalled w m.core last)
      (counts : counted last m.core.skip (advance w 1 m).1 (step m).core.bus = next) :
      Recalled w (step m).core next := counts ▸ recalled.advanced 1 m.world
  have first : Recalled w enabled.core 0x31 := steps (.built made) (by decide +kernel)
  have second : Recalled w loaded.core 0x91 := steps first (by decide +kernel)
  have third : Recalled w waited.core 0x00 := steps second (by decide +kernel)
  have decides {m : Machine State Unit} {last : UInt8} (recalled : Recalled w m.core last)
      (free : m.core.exec.latchedFault? = none ∧ Released w m) :=
    interrupt_taken_iff recalled m.world free.1 free.2 1
  obtain ⟨undue, -, waits⟩ := decides second (free loaded (by simp))
  obtain ⟨due, enters, -⟩ := decides third (free waited (by simp))
  have early : ∀ vector cycles, (advance w 1 loaded).1 ≠ .ok (.interrupt vector cycles) :=
    fun _ _ taken => absurd (undue.mp ⟨_, _, taken⟩) (by decide +kernel)
  obtain ⟨entered, resumes⟩ := enters (due.mpr (by decide +kernel))
  have handles {m : Machine State Unit} {before later : Nat}
      (handling : Handling w interrupted.core m.core before)
      (free : m.core.exec.latchedFault? = none ∧ Released w m)
      (deeper : (turned w.geometry m.core.skip (advance w 1 m).1 (step m).core.bus).depth before =
        some later) (below : later < 2) : Handling w interrupted.core (step m).core later :=
    handling.acted 1 m.world free.1 free.2 deeper below
  have calls : Handling w interrupted.core nested.core 1 :=
    handles .entered (free interrupted (by simp)) (by decide +kernel) (by decide)
  have returns : Handling w interrupted.core unnested.core 0 :=
    handles calls (free nested (by simp)) (by decide +kernel) (by decide)
  have back {m : Machine State Unit} (handling : Handling w interrupted.core m.core 0)
      (free : m.core.exec.latchedFault? = none ∧ Released w m)
      (returns : turned w.geometry m.core.skip (advance w 1 m).1 (step m).core.bus = .returns) :
      (step m).core.regs.pc = waited.core.regs.pc :=
    resumes m.core handling m.world free.1 free.2 1 returns
  have resumed := back returns (free unnested (by simp)) (by decide +kernel)
  exact ⟨by decide +kernel, second, waits early, third, entered, by decide +kernel,
    resumed.trans (by decide +kernel)⟩

end Microboard.Ucom4
