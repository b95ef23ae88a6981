import Microboard.Proofs.CoreLatches
import Microboard.Proofs.Sm83.Entering

/-!
# What enables the interrupts of SM83 cores

A core comes out of its construction with its interrupts disabled, and only `EI` and `RETI` enable
them. Every interrupt that is entered therefore has such an instruction behind it, and nothing that
disables interrupts in between.

- **§1** What happens to a core, as its host sees it.
- **§2** What a past of such occurrences says of the switches.
- **§3** Histories.
- **§4** The instruction after `EI`.
-/

namespace Microboard

namespace Sm83

/-! ## §1 Occurrences -/

/-- What a host sees happen to a core. An action is seen with whether the reset line was active,
with the opcode that the core keeps afterwards, and with what it answered. -/
inductive Occurrence where
  | acted (active : Bool) (opcode : UInt8) (answer : Except Fault StepOutcome)
  | reset
  | lineSet (line : InputLine) (level : LineLevel)

namespace Occurrence

/-- The operation of the instruction that retired, if one did. -/
def retired? : Occurrence → Option Op
  | acted _ opcode (.ok (.retired _ _)) => some (decode opcode)
  | _ => none

/-- An action of the core. -/
def acts : Occurrence → Bool
  | acted .. => true
  | _ => false

/-- The core entered an interrupt. -/
def interrupts : Occurrence → Bool
  | acted _ _ (.ok (.interrupt _ _)) => true
  | _ => false

/-- The core was reset by its host, or its reset line held it. -/
def resets : Occurrence → Bool
  | acted true _ (.ok _) | reset => true
  | _ => false

/-- An `EI` or a `RETI` retired. -/
def enables (o : Occurrence) : Prop := o.retired? = some .ei ∨ o.retired? = some .reti

/-- Interrupts are disabled afterwards. -/
def disables (o : Occurrence) : Prop :=
  o.interrupts = true ∨ o.retired? = some .di ∨ o.resets = true

end Occurrence

/-! ## §2 Pasts -/

/-- In a past that is told from its latest occurrence on, interrupts were enabled and have not been
disabled since. -/
def Armed (past : List Occurrence) : Prop :=
  ∃ since enabling before, past = since ++ enabling :: before ∧ enabling.enables ∧
    ∀ o ∈ since, ¬o.disables

/-- The last action retired an `EI`. -/
def Delaying (past : List Occurrence) : Prop :=
  ∃ since enabling before, past = since ++ enabling :: before ∧
    enabling.retired? = some .ei ∧ ∀ o ∈ since, o.acts = false

/-- Every interrupt in a past came while interrupts were enabled, and not right after an `EI`. -/
def Justified (past : List Occurrence) : Prop :=
  ∀ later o earlier, past = later ++ o :: earlier → o.interrupts = true →
    Armed earlier ∧ ¬Delaying earlier

theorem Justified.nil : Justified [] := fun later _ _ split => by cases later <;> cases split

theorem Justified.cons {o : Occurrence} {past : List Occurrence} (justified : Justified past)
    (enabled : o.interrupts = true → Armed past ∧ ¬Delaying past) : Justified (o :: past) := by
  intro later o' earlier split interrupts
  cases later with
  | nil =>
    obtain ⟨rfl, rfl⟩ := List.cons.inj split
    exact enabled interrupts
  | cons last later => exact justified later o' earlier (List.cons.inj split).2 interrupts

theorem Armed.enabled {o : Occurrence} (enables : o.enables) (past : List Occurrence) :
    Armed (o :: past) :=
  ⟨[], o, past, rfl, enables, nofun⟩

theorem Armed.cons {o : Occurrence} {past : List Occurrence} (armed : Armed past)
    (spares : ¬o.disables) : Armed (o :: past) := by
  obtain ⟨since, enabling, before, rfl, enables, kept⟩ := armed
  exact ⟨o :: since, enabling, before, rfl, enables, List.forall_mem_cons.mpr ⟨spares, kept⟩⟩

/-- After an action, it is the last one. -/
theorem Delaying.latest {o : Occurrence} {past : List Occurrence} (delaying : Delaying (o :: past))
    (acts : o.acts = true) : o.retired? = some .ei := by
  obtain ⟨since, enabling, before, past, retired, passive⟩ := delaying
  cases since with
  | nil => exact (List.cons.inj past).1 ▸ retired
  | cons first since =>
    obtain ⟨rfl, -⟩ := List.cons.inj past
    exact nomatch acts.symm.trans (passive _ List.mem_cons_self)

theorem Delaying.tail {o : Occurrence} {past : List Occurrence} (delaying : Delaying (o :: past))
    (passive : o.acts = false) : Delaying past := by
  obtain ⟨since, enabling, before, split, retired, others⟩ := delaying
  cases since with
  | nil =>
    obtain ⟨rfl, -⟩ := List.cons.inj split
    cases o with
    | acted => cases passive
    | reset | lineSet => cases retired
  | cons first since =>
    exact ⟨since, enabling, before, (List.cons.inj split).2, retired,
      (List.forall_mem_cons.mp others).2⟩

/-- What the past of a core says of its switches. -/
structure Switches.Recalls (s : Switches) (past : List Occurrence) : Prop where
  armed : s.ime = true → Armed past
  delaying : Delaying past → s.eiDelay = true ∨ s.ime = false
  held : s.inReset = true → s.ime = false

namespace Switches

/-- Only three operations set or clear the master enable, and `EI` sets its latch. -/
theorem retire_perform (s : Switches) (requested : Bool) (op : Op) :
    let after := (s.perform requested op).retire
    after.inReset = s.inReset ∧ (op = .di → after.ime = false) ∧
      (op = .ei ∨ op = .reti → after.ime = true) ∧ (op = .ei → after.eiDelay = true) ∧
      (op ≠ .di → ¬(op = .ei ∨ op = .reti) → after.ime = s.ime) := by
  intro after
  -- the end of an instruction touches none of the three
  have retires (t : Switches) :
      t.retire.ime = t.ime ∧ t.retire.eiDelay = t.eiDelay ∧ t.retire.inReset = t.inReset := by
    unfold retire
    split <;> exact ⟨rfl, rfl, rfl⟩
  obtain ⟨ime, eiDelay, inReset⟩ := retires (s.perform requested op)
  rw [show after.ime = _ from ime, show after.eiDelay = _ from eiDelay,
    show after.inReset = _ from inReset]
  cases op with
  | halt =>
    unfold perform
    dsimp only
    split <;> simp [halt]
  | _ => simp [perform, halt]

variable {s after : Switches} {past : List Occurrence} {o : Occurrence}

/-- What neither enables nor disables interrupts leaves what is known of them. -/
theorem Recalls.passed (armed : s.ime = true → Armed past)
    (held : s.inReset = true → s.ime = false) (acts : o.acts = true)
    (prompt : o.retired? ≠ some .ei) (spares : ¬o.disables) (ime : after.ime = s.ime)
    (inReset : after.inReset = s.inReset) : after.Recalls (o :: past) where
  armed enabled := (armed (ime ▸ enabled)).cons spares
  delaying delaying := absurd (delaying.latest acts) prompt
  held taken := ime.trans (held (inReset ▸ taken))

/-- Of a core whose interrupts are disabled, there is nothing to tell. -/
theorem Recalls.disabled (disabled : s.ime = false) : s.Recalls past where
  armed enabled := nomatch disabled.symm.trans enabled
  delaying _ := .inr disabled
  held _ := disabled

/-- A released reset line has no part in this. -/
theorem Recalls.look (recalls : s.Recalls past) : (s.look false).Recalls past := by
  obtain ⟨armed, delaying, -⟩ := recalls
  rw [look_released]
  exact ⟨armed, delaying, nofun⟩

/-- Interrupts are disabled in a core that its reset line holds. -/
theorem Recalls.ime_look (recalls : s.Recalls past) : (s.look true).ime = false := by
  unfold Switches.look
  cases held : s.inReset with
  | false => rfl
  | true => exact recalls.held held

/-- What an instruction does to the switches is told by its operation. -/
theorem Recalls.performs (armed : s.ime = true → Armed past) (free : s.inReset = false)
    {requested : Bool} {pc : UInt16} {opcode : UInt8} {answer : Except Fault StepOutcome}
    (performs : s.Performs requested pc opcode answer after) :
    after.Recalls (.acted false opcode answer :: past) := by
  have held (taken : s.inReset = true) : s.ime = false := nomatch free.symm.trans taken
  cases performs with
  | refused => exact .passed armed held rfl nofun (by rintro (h | h | h) <;> cases h) rfl rfl
  | retired cycles =>
    obtain ⟨inReset, di, enabling, ei, others⟩ := s.retire_perform requested (decode opcode)
    generalize (s.perform requested (decode opcode)).retire = after at *
    -- a `DI` also ends a delay, but no delay is told of while interrupts are disabled
    by_cases disables : decode opcode = .di
    · exact .disabled (di disables)
    by_cases enables : decode opcode = .ei ∨ decode opcode = .reti
    · refine ⟨fun _ => .enabled (enables.imp (congrArg some) (congrArg some)) past,
        fun delaying => .inl ?_, fun taken => nomatch (inReset.trans free).symm.trans taken⟩
      exact ei (Option.some.inj (delaying.latest rfl))
    · refine .passed armed held rfl (fun retired => enables (.inl (Option.some.inj retired))) ?_
        (others disables enables) inReset
      rintro (interrupts | retired | resets)
      · cases interrupts
      · exact disables (Option.some.inj retired)
      · cases resets

/-- An action keeps what is known of the switches, and enters an interrupt only if interrupts were
enabled and that was not the last thing to happen. -/
theorem Recalls.answers (recalls : s.Recalls past) {active requested : Bool} {pc : UInt16}
    {opcode : UInt8} {answer : Except Fault StepOutcome}
    (answers : s.Answers active requested pc opcode answer after) :
    ((Occurrence.acted active opcode answer).interrupts = true →
      Armed past ∧ ¬Delaying past) ∧ after.Recalls (.acted active opcode answer :: past) := by
  have idle (cycles : Nat) :
      ¬(Occurrence.acted false opcode (.ok (.idle cycles))).disables := by
    rintro (h | h | h) <;> cases h
  cases answers with
  | refused =>
    refine ⟨nofun, .passed recalls.armed recalls.held rfl nofun ?_ rfl rfl⟩
    rintro (h | h | h)
    all_goals cases active <;> cases h
  | held _ _ holds =>
    subst holds
    exact ⟨nofun, .disabled recalls.ime_look⟩
  | acted awake released does =>
    subst released
    have looked := recalls.look
    have free := s.inReset_look
    cases does with
    | sleeps => exact ⟨nofun, .passed looked.armed looked.held rfl nofun (idle _) rfl rfl⟩
    | wakes => exact ⟨nofun, .passed looked.armed looked.held rfl nofun (idle _) rfl rfl⟩
    | enters _ _ _ prompt enabled =>
      -- after an `EI` the delay would still be pending
      refine ⟨fun _ => ⟨looked.armed enabled, fun delaying => ?_⟩, .disabled rfl⟩
      rcases looked.delaying delaying with delayed | disabled
      · exact nomatch prompt.symm.trans delayed
      · exact nomatch enabled.symm.trans disabled
    | runs _ _ performs =>
      refine ⟨fun interrupts => ?_,
        .performs (s := (s.look false).begin) looked.armed free performs⟩
      cases performs <;> cases interrupts

theorem Recalls.restart (s : Switches) (past : List Occurrence) : s.restart.Recalls past :=
  .disabled rfl

/-- A request on a line changes nothing yet. -/
theorem Recalls.lineSet (recalls : s.Recalls past) (line : InputLine) (level : LineLevel) :
    s.Recalls (.lineSet line level :: past) where
  armed enabled := (recalls.armed enabled).cons (by rintro (h | h | h) <;> cases h)
  delaying delaying := recalls.delaying (delaying.tail rfl)
  held := recalls.held

end Switches

end Sm83

namespace Core

variable {σ : Type}

/-! ## §3 Histories -/

/-- An SM83 core in the hands of its host, and what has happened to it, from the latest occurrence
on. It is built, gets its sink attached, and is operated in whatever world surrounds it; its host
takes note of the levels that it has driven. -/
inductive Lived : Sm83.Wiring σ → Sm83.State → List Sm83.Occurrence → Prop where
  | built {config : Sm83.Config} {program : Space σ} {world world' : World σ}
      {w : Sm83.Wiring σ} {s : Sm83.State} :
      Sm83.build config program world = .ok ((w, s), world') → Lived w s []
  | attached {w : Sm83.Wiring σ} {s : Sm83.State} {past : List Sm83.Occurrence} (sink : Sink σ) :
      Lived w s past → Lived { w with sink } s past
  | acted {w : Sm83.Wiring σ} {s s' : Sm83.State} {past : List Sm83.Occurrence} (remaining : Nat)
      {world world' : World σ} {answer : Except Fault StepOutcome} : Lived w s past →
      Core.advance remaining ⟨.sm83 w s, world⟩ = (answer, ⟨.sm83 w s', world'⟩) →
      Lived w s' (.acted ((world.lines.latch w.number).level Sm83.resetLine).isActive s'.opcode
        answer :: past)
  | reset {w : Sm83.Wiring σ} {s s' : Sm83.State} {past : List Sm83.Occurrence}
      {world world' : World σ} : Lived w s past →
      Core.reset ⟨.sm83 w s, world⟩ = ((), ⟨.sm83 w s', world'⟩) → Lived w s' (.reset :: past)
  | lineSet {w : Sm83.Wiring σ} {s s' : Sm83.State} {past : List Sm83.Occurrence}
      (line : InputLine) (level : LineLevel) {world world' : World σ} : Lived w s past →
      Core.setLine line level ⟨.sm83 w s, world⟩ = ((), ⟨.sm83 w s', world'⟩) →
      Lived w s' (.lineSet line level :: past)
  | noted {w : Sm83.Wiring σ} {s : Sm83.State} {past : List Sm83.Occurrence} :
      Lived w s past → Lived w { s with outputs := #[] } past

variable {w : Sm83.Wiring σ} {s : Sm83.State} {past : List Sm83.Occurrence}

/-- The past of a core tells of its switches, and of every interrupt in it that it was enabled. -/
theorem Lived.recalls (lived : Lived w s past) :
    s.switches.Recalls past ∧ Sm83.Justified past := by
  -- the switches carry the induction: an interrupt is judged by those it is entered with
  induction lived with
  | built built =>
    rw [build_switches built]
    exact ⟨.restart _ _, .nil⟩
  | attached _ _ ih => exact ih
  | @acted w s s' past remaining world world' answer _ acts ih =>
    obtain ⟨recalls, justified⟩ := ih
    have answered : (Sm83.advance w remaining ⟨s, world⟩).1 = answer := congrArg (·.1) acts
    have same : (Sm83.advance w remaining ⟨s, world⟩).2.core = s' :=
      (Core.sm83.inj (congrArg (·.2.core) acts)).2
    rw [← answered, ← same]
    obtain ⟨enabled, after⟩ := recalls.answers (Sm83.advance_answers w remaining ⟨s, world⟩)
    exact ⟨after, justified.cons enabled⟩
  | @reset w s s' past world world' _ resets ih =>
    have same : (Sm83.reset w ⟨s, world⟩).2.core = s' :=
      (Core.sm83.inj (congrArg (·.2.core) resets)).2
    rw [← same, Sm83.reset_switches]
    exact ⟨.restart _ _, ih.2.cons nofun⟩
  | @lineSet w s s' past line level world world' _ sets ih =>
    have same : s = s' := (Core.sm83.inj (congrArg (·.2.core) sets)).2
    exact ⟨same ▸ ih.1.lineSet line level, ih.2.cons nofun⟩
  | noted _ ih =>
    obtain ⟨⟨armed, delaying, held⟩, justified⟩ := ih
    exact ⟨⟨armed, delaying, held⟩, justified⟩

/-- However an SM83 core is operated after its construction, without writes to its state or
registers: before every interrupt that it enters, an `EI` or a `RETI` retired, and since then no
`DI` did, no other interrupt was entered and the core was not reset; and no interrupt is what the
core does next after an `EI`. -/
theorem interrupts_justified (lived : Lived w s past) : Sm83.Justified past :=
  lived.recalls.2

/-- A core writes `IE`, runs `EI` and one more instruction, and enters the interrupt that its host
has requested meanwhile. -/
theorem interrupts_justified_after_enabling :
    let w : Sm83.Wiring UInt8 := .cell id (fun value _ => value) 0
    let quiet := LineLatch.released 6
    let act (lived : Sm83.State × List Sm83.Occurrence) (found : UInt8 × LineLatch) :
        Sm83.State × List Sm83.Occurrence :=
      let world : World UInt8 := ⟨found.1, { latches := [found.2] }, {}⟩
      let after := Sm83.advance w 1 ⟨lived.1, world⟩
      (after.2.core, .acted ((world.lines.latch w.number).level Sm83.resetLine).isActive
        after.2.core.opcode after.1 :: lived.2)
    let past := ([(0x2B, quiet), (0x3C, quiet), (0x77, quiet), (0xFB, quiet), (0x00, quiet),
        (0x00, quiet.set 0 .assert)].foldl act ((Sm83.reset w ⟨{}, ⟨0, {}, {}⟩⟩).2.core, [])).2
    past.map (·.interrupts) = [true, false, false, false, false, false] ∧
      past.map (·.retired?) = [none, some .nop, some .ei, some (.load .atHl .a), some (.inc .a),
        some (.decPair .hl)] ∧ Sm83.Justified past := by
  intro w quiet act past
  have acts (found : List (UInt8 × LineLatch)) : ∀ lived : Sm83.State × List Sm83.Occurrence,
      Lived w lived.1 lived.2 → Lived w (found.foldl act lived).1 (found.foldl act lived).2 := by
    induction found with
    | nil => exact fun _ lived => lived
    | cons first rest ih => exact fun _ lived => ih _ (lived.acted 1 rfl)
  obtain ⟨_, made⟩ : ∃ world', Sm83.build {} w.program ⟨0, {}, {}⟩ =
      .ok ((w, (Sm83.reset w ⟨{}, ⟨0, {}, {}⟩⟩).2.core), world') := ⟨_, rfl⟩
  exact ⟨by decide +kernel, by decide +kernel, interrupts_justified (acts _ (_, []) (.built made))⟩

end Core

namespace Sm83

/-! ## §4 After `EI` -/

/-- An instruction other than `HALT` and `STOP` leaves the core running, with a delay pending only
after `EI`. -/
theorem Switches.retire_perform_running (s : Switches) (requested : Bool) {op : Op}
    (notHalt : op ≠ .halt) (notStop : op ≠ .stop) :
    (s.begin.perform requested op).retire.exec = .fetching ∧
      ((s.begin.perform requested op).retire.eiDelay = false ↔ op ≠ .ei) := by
  cases op with
  | halt | stop => contradiction
  | _ => simp [perform, begin, retire]

variable {σ : Type} {w : Wiring σ} {m : Machine State σ}

/-- An action retires an instruction with an operation, and leaves the core in a state. -/
def Retires (w : Wiring σ) (m : Machine State σ) (op : Op) (s : State) : Prop :=
  ∃ remaining pc cycles, (advance w remaining m).1 = .ok (.retired pc cycles) ∧
    decode (advance w remaining m).2.core.opcode = op ∧ (advance w remaining m).2.core = s

theorem Retires.switches {op : Op} {s : State} (retires : Retires w m op s) :
    Released w m ∧ ∃ requested,
      s.switches = ((m.core.switches.look false).begin.perform requested op).retire := by
  obtain ⟨remaining, pc, cycles, retired, rfl, rfl⟩ := retires
  obtain ⟨released, -, -, after⟩ := (advance_answers w remaining m).retired retired
  exact ⟨released, _, after⟩

/-- An instruction follows an `EI`, and is none that disables interrupts or halts the core. The next
thing to happen in a released core is an interrupt, if one is still pending, unless the instruction
was an `EI` as well: that one starts the delay anew. -/
theorem interrupt_after_delay_iff {slot next : Machine State σ} {op : Op} (remaining : Nat)
    (enables : Retires w m .ei slot.core) (follows : Retires w slot op next.core)
    (notDi : op ≠ .di) (notHalt : op ≠ .halt) (notStop : op ≠ .stop) (released : Released w next)
    (pending : next.core.regs.pending ≠ 0) :
    (∃ vector cycles, (advance w remaining next).1 = .ok (.interrupt vector cycles)) ↔
      op ≠ .ei := by
  obtain ⟨-, requested, enabled⟩ := enables.switches
  obtain ⟨-, requested', followed⟩ := follows.switches
  have ime : slot.core.switches.ime = true := by
    obtain ⟨-, -, enables, -⟩ := (m.core.switches.look false).begin.retire_perform requested .ei
    rw [enabled]
    exact enables (.inl rfl)
  -- `EI` and `RETI` enable interrupts again, and the others leave them enabled
  have ime' : next.core.switches.ime = true := by
    obtain ⟨-, -, enables, -, others⟩ :=
      (slot.core.switches.look false).begin.retire_perform requested' op
    rw [followed]
    by_cases enabling : op = .ei ∨ op = .reti
    · exact enables enabling
    · rw [others notDi enabling, Switches.look_released]
      exact ime
  obtain ⟨fetching, prompt⟩ :=
    (slot.core.switches.look false).retire_perform_running requested' notHalt notStop
  rw [← followed] at fetching prompt
  have answers := advance_answers w remaining next
  rw [show ((next.world.lines.latch w.number).level resetLine).isActive = false from released,
    requested_of_pending pending] at answers
  rw [answers.interrupts_iff fetching, prompt]
  exact ⟨And.left, fun plain => ⟨plain, ime', rfl⟩⟩

/-- An interrupt is pending while a core runs `EI` and a `NOP`, and is entered then. -/
theorem interrupt_after_delay_iff_nop :
    let w : Wiring UInt8 := .cell id (fun value _ => value) 0
    let found (value : UInt8) : World UInt8 := ⟨value, { latches := [.released 6] }, {}⟩
    let m : Machine State UInt8 := ⟨{ regs := { ie := 1, iflag := 1 } }, found 0xFB⟩
    let enabled := (advance w 1 m).2.core
    let slot : Machine State UInt8 := ⟨enabled, found 0x00⟩
    let delayed := (advance w 1 slot).2.core
    let next : Machine State UInt8 := ⟨delayed, found 0x00⟩
    Retires w m .ei enabled ∧ Retires w slot .nop delayed ∧
      ∃ vector cycles, (advance w 1 next).1 = .ok (.interrupt vector cycles) := by
  intro w found m enabled slot delayed next
  have answers : (advance w 1 m).1.toOption = some (.retired 0 4) ∧
      decode (advance w 1 m).2.core.opcode = .ei := by decide +kernel
  have answers' : (advance w 1 slot).1.toOption = some (.retired 1 4) ∧
      decode (advance w 1 slot).2.core.opcode = .nop := by decide +kernel
  have enables : Retires w m .ei slot.core :=
    ⟨1, _, _, ok_of_toOption answers.1, answers.2, rfl⟩
  have follows : Retires w slot .nop next.core :=
    ⟨1, _, _, ok_of_toOption answers'.1, answers'.2, rfl⟩
  exact ⟨enables, follows, (interrupt_after_delay_iff 1 enables follows nofun nofun nofun rfl
    (by decide +kernel)).mpr nofun⟩

/-- A core whose host has not touched its registers runs two `EI` while an interrupt is pending. It
is not entered after the second one. -/
theorem delay_started_anew :
    let w : Wiring UInt8 := .cell id (fun value _ => value) 0
    let quiet := LineLatch.released 6
    let found (value : UInt8) (latch : LineLatch) : World UInt8 :=
      ⟨value, { latches := [latch] }, {}⟩
    let act (s : State) (world : World UInt8) : State := (advance w 1 ⟨s, world⟩).2.core
    let start := [found 0x2B quiet, found 0x3C quiet, found 0x77 quiet,
      found 0x00 (quiet.set 0 .assert)].foldl act (reset w ⟨{}, ⟨0, {}, {}⟩⟩).2.core
    let m : Machine State UInt8 := ⟨start, found 0xFB quiet⟩
    let once := (advance w 1 m).2.core
    let slot : Machine State UInt8 := ⟨once, found 0xFB quiet⟩
    let twice := (advance w 1 slot).2.core
    let next : Machine State UInt8 := ⟨twice, found 0x00 quiet⟩
    Core.Handled w start true ∧ start.regs.ime = false ∧ start.regs.pending ≠ 0 ∧
      Retires w m .ei once ∧ Retires w slot .ei twice ∧ twice.regs.pending ≠ 0 ∧
      (Released w m ∧ Released w slot ∧ Released w next) ∧
      (advance w 1 next).1.toOption = some (.retired 6 4) := by
  intro w quiet found act start m once slot twice next
  obtain ⟨_, made⟩ : ∃ world', build {} w.program ⟨0, {}, {}⟩ =
      .ok ((w, (reset w ⟨{}, ⟨0, {}, {}⟩⟩).2.core), world') := ⟨_, rfl⟩
  have answers : (advance w 1 m).1.toOption = some (.retired 4 4) ∧
      decode (advance w 1 m).2.core.opcode = .ei := by decide +kernel
  have answers' : (advance w 1 slot).1.toOption = some (.retired 5 4) ∧
      decode (advance w 1 slot).2.core.opcode = .ei := by decide +kernel
  have enables : Retires w m .ei once :=
    ⟨1, _, _, ok_of_toOption answers.1, answers.2, rfl⟩
  have follows : Retires w slot .ei twice :=
    ⟨1, _, _, ok_of_toOption answers'.1, answers'.2, rfl⟩
  exact ⟨(Core.Handled.built made).acts _, by decide +kernel, by decide +kernel, enables, follows,
    by decide +kernel, ⟨rfl, rfl, rfl⟩, by decide +kernel⟩

end Sm83

end Microboard
