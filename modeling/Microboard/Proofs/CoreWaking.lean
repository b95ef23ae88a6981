import Microboard.Proofs.CoreLatches
import Microboard.Proofs.Sm83.Sleeping

/-!
# Halted SM83 cores

A core halts at the end of a `HALT` or a `STOP`, sleeps through any number of actions, and is woken
by what the instruction lets it wait for. That it resumes behind that instruction is a matter of
its whole history: nothing that happens to a sleeping core may move its program counter.

- **§1** The halt bug. It is pending only while the interrupt that caused it is.
- **§2** What halted the core.
- **§3** Sleeping, waking, and what comes next.
-/

namespace Microboard

namespace Sm83

variable {σ : Type} {w : Wiring σ} {m : Machine State σ}

/-! ## §1 The halt bug -/

/-- An opcode is to be fetched twice only in a core that runs with interrupts disabled, and that
would have an interrupt to enter. -/
def State.Repeats (s : State) : Prop :=
  s.haltBug = true →
    s.exec = .fetching ∧ s.inReset = false ∧ s.regs.ime = false ∧ s.regs.pending ≠ 0

/-- What an instruction leaves of the halt bug is its own doing. -/
theorem Switches.haltBug_perform {s : Switches} {requested : Bool} {op : Op}
    (bug : (s.begin.perform requested op).retire.haltBug = true) :
    op = .halt ∧ s.ime = false ∧ requested = true := by
  cases op with
  | halt =>
    cases ime : s.ime <;> cases requested <;> simp_all [perform, begin, retire, halt]
  | _ => simp [perform, begin, retire, halt] at bug

/-- After every action, the halt bug is that of a `HALT` which has just retired. -/
theorem Switches.Answers.haltBug {s after : Switches} {active requested : Bool} {pc : UInt16}
    {opcode : UInt8} {answer : Except Fault StepOutcome}
    (answers : s.Answers active requested pc opcode answer after)
    (before : s.haltBug = true → s.exec = .fetching ∧ s.inReset = false ∧ s.ime = false)
    (bug : after.haltBug = true) :
    (∃ place cycles, answer = .ok (.retired place cycles)) ∧ decode opcode = .halt ∧
      s.ime = false ∧ requested = true := by
  have looked : (s.look false).haltBug = s.haltBug ∧ (s.look false).ime = s.ime := by
    rw [Switches.look_released]
    exact ⟨rfl, rfl⟩
  cases answers with
  | refused faulted => exact nomatch faulted.symm.trans (before bug).1
  | held =>
    unfold Switches.look at bug
    cases held : s.inReset <;> simp [held, hold, restart] at bug
    exact nomatch held.symm.trans (before bug).2.1
  | acted _ _ does =>
    have fetching (bug : (s.look false).haltBug = true) : (s.look false).exec = .fetching := by
      rw [Switches.look_released] at bug ⊢
      rw [(before bug).1, ite_self]
    cases does with
    | sleeps _ halted => exact nomatch halted.symm.trans (fetching bug)
    | wakes _ halted => exact nomatch halted.symm.trans (fetching bug)
    | enters _ _ _ _ enabled =>
      exact nomatch (looked.2.symm.trans enabled).symm.trans (before (looked.1 ▸ bug)).2.2
    | runs _ _ performs =>
      cases performs with
      | refused => cases bug
      | retired cycles =>
        obtain ⟨halts, disabled, requested⟩ := Switches.haltBug_perform bug
        exact ⟨⟨_, cycles, rfl⟩, halts, looked.2.symm.trans disabled, requested⟩

theorem State.Repeats.advance (repeats : m.core.Repeats) (remaining : Nat) :
    (advance w remaining m).2.core.Repeats := by
  intro bug
  obtain ⟨⟨place, cycles, retired⟩, halts, disabled, requested⟩ :=
    (advance_answers w remaining m).haltBug
      (fun bug => ⟨(repeats bug).1, (repeats bug).2.1, (repeats bug).2.2.1⟩) bug
  have due := bne_iff_ne.mp requested
  -- the `HALT` leaves its cause behind: what was requested is in `IF` now
  have stalled := stalled_switches retired halts disabled due
  have exec := congrArg Switches.exec stalled
  have inReset := congrArg Switches.inReset stalled
  have ime := congrArg Switches.ime stalled
  rw [Switches.look_released] at inReset ime
  refine ⟨exec, inReset, ime.trans disabled, ?_⟩
  rw [(regs_halting retired).1 halts]
  exact due

/-! ## §2 What halted a core -/

/-- A core has slept since a `HALT` or a `STOP` retired that it ran as a machine. It has halted
behind that instruction. A `STOP` that is fetched twice has the byte of its opcode for an operand.
-/
structure HaltedBy (w : Wiring σ) (m : Machine State σ) (s : State) : Prop where
  retired : ∃ remaining place cycles,
    (Sm83.advance w remaining m).1 = .ok (.retired place cycles) ∧
      (Sm83.advance w remaining m).2.core.SleptSince s
  behind : decode s.opcode = .halt ∧ s.stopped = false ∧ s.regs.pc = m.core.regs.pc + 1 ∨
    decode s.opcode = .stop ∧ s.stopped = true ∧
      s.regs.pc = m.core.regs.pc + if m.core.haltBug then 1 else 2

theorem HaltedBy.sleeps {s s' : State} (halted : HaltedBy w m s) (slept : s.SleptSince s') :
    HaltedBy w m s' := by
  obtain ⟨⟨remaining, place, cycles, retired, since⟩, behind⟩ := halted
  refine ⟨⟨remaining, place, cycles, retired, since.trans slept⟩, ?_⟩
  unfold State.SleptSince at slept
  rw [slept]
  exact behind

/-- A core that halts now was halted by the instruction that it has just run. -/
theorem advance_haltedBy (repeats : m.core.Repeats) (running : m.core.exec ≠ .halted)
    {remaining : Nat} (halted : (advance w remaining m).2.core.exec = .halted) :
    HaltedBy w m (advance w remaining m).2.core := by
  obtain ⟨⟨cycles, retired⟩, kind⟩ := (advance_answers w remaining m).halts running halted
  refine ⟨⟨remaining, _, cycles, retired, rfl⟩, ?_⟩
  obtain ⟨ofHalt, ofStop⟩ := regs_halting retired
  rcases kind with ⟨halts, woken⟩ | ⟨stops, stopped⟩
  · refine .inl ⟨halts, woken, ?_⟩
    rw [ofHalt halts]
    cases bug : m.core.haltBug with
    | false =>
      unfold State.opened
      rw [bug]
      rfl
    | true =>
      -- the core would not have halted
      obtain ⟨-, -, disabled, pending⟩ := repeats bug
      have stalled := stalled_switches retired halts disabled
        (bne_iff_ne.mp (requested_of_pending pending))
      exact nomatch halted.symm.trans (congrArg Switches.exec stalled)
  · refine .inr ⟨stops, stopped, ?_⟩
    rw [ofStop stops]
    unfold State.opened
    cases m.core.haltBug with
    | false => exact UInt16.add_assoc m.core.regs.pc 1 1
    | true => rfl

/-- A halted core stays so only if it sleeps on. -/
theorem advance_sleeps (coherent : m.core.switches.Coherent) (halted : m.core.exec = .halted)
    {remaining : Nat} (sleeps : (advance w remaining m).2.core.exec = .halted) :
    Slept w remaining m (advance w remaining m) := by
  have free : m.core.inReset = false := by
    cases inReset : m.core.inReset with
    | false => rfl
    | true => exact absurd halted (coherent.held inReset)
  by_cases released : Released w m
  · cases roused : rouses w m with
    | false => exact advance_slept halted free released roused remaining
    | true =>
      have woken := advance_woken halted free (coherent.halted halted).1 released roused remaining
      exact nomatch sleeps.symm.trans woken.exec
  · -- the reset line takes the core
    have taken := advance_held_switches (by rw [halted]; rfl) released remaining
    unfold Switches.look at taken
    rw [show m.core.switches.inReset = false from free] at taken
    exact nomatch sleeps.symm.trans (congrArg Switches.exec taken)

end Sm83

namespace Core

open Sm83 (HaltedBy)

variable {σ : Type} {w : Sm83.Wiring σ} {s : Sm83.State} {alone : Bool}

/-- A core whose host has left its state alone. If it is halted, it was halted by an instruction
that it ran as a core whose host had left its state alone. -/
structure Explained (w : Sm83.Wiring σ) (s : Sm83.State) : Prop where
  handled : Handled w s true
  repeats : s.Repeats
  halted : s.exec = .halted → ∃ (w' : Sm83.Wiring σ) (m : Machine Sm83.State σ),
    Handled w' m.core true ∧ HaltedBy w' m s

/-- Cores that are explained stay so. -/
theorem advance_explained (remaining : Nat) :
    Keeps (fun m : Machine (Core σ) σ => ∃ w s, m.core = .sm83 w s ∧ Explained w s)
      (advance remaining) := by
  rintro ⟨_, world⟩ ⟨w, s, rfl, handled, repeats, halted⟩
  refine ⟨w, (Sm83.advance w remaining ⟨s, world⟩).2.core, rfl,
    handled.operated (.advance remaining) rfl, Sm83.State.Repeats.advance repeats remaining,
    fun sleeps => ?_⟩
  -- a core that slept before was halted where it had been, and another one was halted just now
  by_cases before : s.exec = .halted
  · obtain ⟨w', m, origin, since⟩ := halted before
    have slept := Sm83.advance_sleeps (m := ⟨s, world⟩) (handled.coherent rfl) before sleeps
    exact ⟨w', m, origin, since.sleeps slept.since⟩
  · exact ⟨w, ⟨s, world⟩, handled, Sm83.advance_haltedBy repeats before sleeps⟩

theorem Command.apply_explained {command : Command} (spares : command.writes = false) :
    Keeps (fun m : Machine (Core σ) σ => ∃ w s, m.core = .sm83 w s ∧ Explained w s)
      command.apply := by
  cases command with
  | reset =>
    rintro ⟨_, world⟩ ⟨w, s, rfl, handled, -, -⟩
    have restarted := Sm83.reset_switches w ⟨s, world⟩
    refine ⟨w, (Sm83.reset w ⟨s, world⟩).2.core, rfl, handled.operated .reset rfl, ?_, ?_⟩
    · intro bug
      exact nomatch bug.symm.trans (congrArg Sm83.Switches.haltBug restarted)
    · intro halted
      exact nomatch halted.symm.trans (congrArg Sm83.Switches.exec restarted)
  | advance remaining => exact advance_explained remaining
  | run budget => exact run_keeps advance_explained budget
  | setLine line level => exact fun _ explained => explained
  | stateSet index value => cases spares

theorem Handled.explained (handled : Handled w s alone) (untouched : alone = true) :
    Explained w s := by
  induction handled with
  | @built _ _ _ _ w s built =>
    have restarted := build_switches built
    refine ⟨.built built, ?_, ?_⟩
    · intro bug
      exact nomatch bug.symm.trans (congrArg Sm83.Switches.haltBug restarted)
    · intro halted
      exact nomatch halted.symm.trans (congrArg Sm83.Switches.exec restarted)
  | attached sink _ ih =>
    obtain ⟨handled, repeats, halted⟩ := ih untouched
    exact ⟨handled.attached sink, repeats, halted⟩
  | @operated w s s' _ command world world' _ operates ih =>
    obtain ⟨before, spares⟩ := Bool.and_eq_true_iff.mp untouched
    obtain ⟨w₁, s₁, core, explained⟩ := Command.apply_explained (by simpa using spares)
      ⟨.sm83 w s, world⟩ ⟨w, s, rfl, ih before⟩
    rw [operates] at core
    obtain ⟨rfl, rfl⟩ := Core.sm83.inj core
    exact explained
  | set => cases untouched
  | noted _ ih =>
    obtain ⟨handled, repeats, halted⟩ := ih untouched
    refine ⟨handled.noted, repeats, fun sleeps => ?_⟩
    obtain ⟨w', m, origin, since⟩ := halted sleeps
    exact ⟨w', m, origin, since.sleeps rfl⟩

/-! ## §3 Sleeping and waking -/

/-- The core of a host that leaves its state and registers alone is found with its reset line
released. If it is halted, it has halted behind a `HALT` or a `STOP`. Halted by `HALT`, it sleeps on
as long as no enabled interrupt is requested; halted by `STOP`, as long as no edge waits on the
joypad line. What it does when it wakes, and next, is told by `Woken`. A `HALT` that it runs while
interrupts are disabled and an enabled one is requested does not halt it, but makes it fetch the
next opcode twice. -/
theorem sleeps_until_roused (handled : Handled w s true) (world : World σ)
    (released : Sm83.Released w ⟨s, world⟩) (remaining : Nat) :
    let m : Machine Sm83.State σ := ⟨s, world⟩
    let due := s.regs.ie &&& Sm83.flagsFound w m &&& Sm83.interruptMask
    let after := Sm83.advance w remaining m
    (s.exec = .halted →
      (∃ (w' : Sm83.Wiring σ) (origin : Machine Sm83.State σ),
        Handled w' origin.core true ∧ HaltedBy w' origin s) ∧
      (s.stopped = false → (after.2.core.exec = .halted ↔ due = 0)) ∧
      (s.stopped = true → (after.2.core.exec = .halted ↔
        (world.lines.latch w.number).hasEdge Sm83.joypad = false)) ∧
      (after.2.core.exec = .halted → Sm83.Slept w remaining m after) ∧
      (after.2.core.exec ≠ .halted → Sm83.Woken w m after)) ∧
    (∀ place cycles, after.1 = .ok (.retired place cycles) →
      Sm83.decode after.2.core.opcode = .halt → s.regs.ime = false → due ≠ 0 →
      Sm83.Stalled w m after) := by
  intro m due after
  refine ⟨fun halted => ?_, fun place cycles retired halts disabled due =>
    Sm83.advance_stalled retired halts disabled due⟩
  have coherent := handled.coherent rfl
  have free : s.inReset = false :=
    Bool.eq_false_iff.mpr fun held => coherent.held held halted
  have prompt := (coherent.halted halted).1
  -- the core is roused or not, and the two exclude each other
  have decides : (Sm83.rouses w m = false ∧ Sm83.Slept w remaining m after) ∨
      (Sm83.rouses w m = true ∧ Sm83.Woken w m after) := by
    cases roused : Sm83.rouses w m with
    | false => exact .inl ⟨rfl, Sm83.advance_slept halted free released roused remaining⟩
    | true => exact .inr ⟨rfl, Sm83.advance_woken halted free prompt released roused remaining⟩
  have stays : after.2.core.exec = .halted ↔ Sm83.rouses w m = false := by
    rcases decides with ⟨calm, slept⟩ | ⟨roused, woken⟩
    · rw [slept.core]
      exact ⟨fun _ => calm, fun _ => halted⟩
    · rw [woken.exec, roused]
      exact ⟨nofun, nofun⟩
  unfold Sm83.rouses at stays
  refine ⟨(handled.explained rfl).halted halted, fun byHalt => ?_, fun byStop => ?_,
    fun sleeps => ?_, fun wakes => ?_⟩
  · rw [stays, if_neg (by simp [m, byHalt]), bne_eq_false_iff_eq]
  · rw [stays, if_pos byStop]
  · exact Sm83.advance_sleeps (m := m) coherent halted sleeps
  · rcases decides with ⟨-, slept⟩ | ⟨-, woken⟩
    · exact absurd (slept.core ▸ halted) wakes
    · exact woken

/-- A `STOP` that a request on the joypad line ends, and a `HALT` that is not obeyed. -/
theorem sleeps_until_roused_joypad :
    let w : Sm83.Wiring UInt8 := .cell id (fun value _ => value) 0
    let quiet := LineLatch.released 6
    let found (value : UInt8) (latch : LineLatch) : World UInt8 :=
      ⟨value, { latches := [latch] }, {}⟩
    let act (s : Sm83.State) (world : World UInt8) : Sm83.State :=
      (Sm83.advance w 1 ⟨s, world⟩).2.core
    let start := (Sm83.reset w ⟨{}, ⟨0, {}, {}⟩⟩).2.core
    let stopped := [found 0x10 quiet].foldl act start
    let enabled := [found 0x2B quiet, found 0x3C quiet, found 0x77 quiet].foldl act start
    let pressed := found 0x10 (quiet.set Sm83.joypad .assert)
    let raised := found 0x76 (quiet.set 0 .assert)
    (∃ (w' : Sm83.Wiring UInt8) (origin : Machine Sm83.State UInt8),
        Handled w' origin.core true ∧ HaltedBy w' origin stopped) ∧
      Sm83.Woken w ⟨stopped, pressed⟩ (Sm83.advance w 1 ⟨stopped, pressed⟩) ∧
      Sm83.Stalled w ⟨enabled, raised⟩ (Sm83.advance w 1 ⟨enabled, raised⟩) := by
  intro w quiet found act start stopped enabled pressed raised
  obtain ⟨_, made⟩ : ∃ world', Sm83.build {} w.program ⟨0, {}, {}⟩ = .ok ((w, start), world') :=
    ⟨_, rfl⟩
  have handled : Handled w stopped true := (Handled.built made).acts _
  have handled' : Handled w enabled true := (Handled.built made).acts _
  obtain ⟨origin, -, -, -, wakes⟩ :=
    (sleeps_until_roused handled pressed rfl 1).1 (by decide +kernel)
  obtain ⟨answered, halts⟩ : (Sm83.advance w 1 ⟨enabled, raised⟩).1.toOption =
        some (.retired 3 4) ∧
      Sm83.decode (Sm83.advance w 1 ⟨enabled, raised⟩).2.core.opcode = .halt := by decide +kernel
  exact ⟨origin, wakes (by decide +kernel), (sleeps_until_roused handled' raised rfl 1).2 3 4
    (ok_of_toOption answered) halts (by decide +kernel) (by decide +kernel)⟩

end Core

end Microboard
