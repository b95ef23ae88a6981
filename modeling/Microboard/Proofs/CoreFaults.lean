import Microboard.Proofs.CoreCycles
import Microboard.Proofs.CoreSlicing

/-!
# Latched faults

A fault stops a core until the core is reset. One operation gets past the latch: a debugger that
halts a faulted SM83 core takes its fault away.

- **§1** Actions and runs of a core with a latched fault.
- **§2** What the operations of a host do to a latched fault.
- **§3** Histories of operations.
-/

namespace Microboard.Core

variable {σ : Type} {m : Machine (Core σ) σ} {fault : Fault}

/-! ## §1 Actions and runs -/

/-- A core with a latched fault answers it again and touches nothing but its note of bus cycles. -/
theorem advance_latched (latched : m.core.exec = .faultLatched fault) (remaining : Nat) :
    advance remaining m = (.error fault, unobserved m) := by
  obtain ⟨core, world⟩ := m
  cases core with
  | sm83 w s =>
    have exec : s.exec = .faultLatched fault := latched
    unfold advance dispatch
    dsimp only
    rw [Sm83.advance_eq, exec]
    rfl
  | ucom4 w s =>
    have exec : s.exec = .faultLatched fault := latched
    unfold advance dispatch
    dsimp only
    rw [Ucom4.advance_eq, exec]
    rfl

/-- So does a run that is asked for any cycle at all. -/
theorem run_latched (latched : m.core.exec = .faultLatched fault) {budget : Nat}
    (pos : 0 < budget) : run budget m = (.error fault, unobserved m) := by
  have least : 0 < min budget counterMax := by
    unfold counterMax
    omega
  unfold run
  rw [run_min, run_eq, spend_step m least (Nat.min_le_right ..), advance_latched latched]
  rfl

/-! ## §2 Operations -/

/-- A write that halts an SM83 core: any odd value under the index of the halt entry. -/
def Command.Halts : Wiring σ → Command → Prop
  | .inl _, .stateSet index value =>
    Sm83.Export.find? index = some .halted ∧ value % 2 = 1
  | _, _ => False

instance (w : Wiring σ) (command : Command) : Decidable (command.Halts w) :=
  match w, command with
  | .inl _, .stateSet .. => inferInstanceAs (Decidable (_ ∧ _))
  | .inl _, .reset | .inl _, .advance _ | .inl _, .run _ | .inl _, .setLine .. => .isFalse id
  | .inr _, _ => .isFalse id

/-- The halt entry is the only one that reaches the execution state, and it looks at nothing but
whether the core is halted. -/
theorem write_latched (w : Sm83.Wiring σ) {s : Sm83.State} (world : World σ)
    (latched : s.exec = .faultLatched fault) (item : Sm83.Export) (value : Nat) :
    (item.write w value ⟨s, world⟩).2.core.exec =
      if item = .halted ∧ value % 2 = 1 then .halted else .faultLatched fault := by
  by_cases halt : item = .halted
  · subst halt
    have written : Sm83.Export.halted.write w value =
        Sm83.Export.writeHalted w (value % 2 != 0) := rfl
    rw [written]
    show ((if (value % 2 != 0) && !decide (s.exec = .halted) then Sm83.enterHalt w s.stopped
      else if !(value % 2 != 0) && decide (s.exec = .halted) then Sm83.wake w
      else pure () : Sm83.Exec σ Unit) ⟨s, world⟩).2.core.exec = _
    rw [latched]
    rcases Nat.mod_two_eq_zero_or_one value with even | odd
    · rw [even]
      exact latched
    · rw [odd]
      rfl
  · rw [if_neg fun both => halt both.1]
    cases item with
    | halted => exact absurd rfl halt
    | pc | sp | a | f | b | c | d | e | h | l | ime | ie | iflag | opcode | eiDelay => exact latched
    | af | bc | de | hl | stopped | haltBug => exact latched
    | currentPc | lastPc | stackPointer | flags => exact latched

/-- Writing an exported value leaves a latched fault alone unless it halts the core. -/
theorem stateSet_latched (latched : m.core.exec = .faultLatched fault) (index : Int)
    (value : Nat) :
    (stateSet index value m).2.core.wiring = m.core.wiring ∧
      (¬(Command.stateSet index value).Halts m.core.wiring →
        (stateSet index value m).2.core.exec = .faultLatched fault) ∧
      ((Command.stateSet index value).Halts m.core.wiring →
        (stateSet index value m).2.core.exec = .halted) := by
  obtain ⟨core, world⟩ := m
  cases core with
  | sm83 w s =>
    show _ ∧ (¬(_ ∧ _) → _) ∧ (_ ∧ _ → _)
    unfold stateSet
    dsimp only
    cases found : Sm83.Export.find? index with
    | none => exact ⟨rfl, fun _ => latched, fun halts => nomatch halts.1⟩
    | some item =>
      have exec := write_latched w world latched item value
      refine ⟨rfl, fun spares => ?_, fun halts => ?_⟩
      · rw [if_neg fun both => spares ⟨congrArg some both.1, both.2⟩] at exec
        exact exec
      · rw [if_pos ⟨Option.some.inj halts.1, halts.2⟩] at exec
        exact exec
  | ucom4 w s =>
    unfold stateSet
    dsimp only
    cases Ucom4.Export.find? w.geometry index with
    | none => exact ⟨rfl, fun _ => latched, False.elim⟩
    | some item =>
      -- the family has no entry for the execution state
      refine ⟨rfl, fun _ => ?_, False.elim⟩
      cases item <;> exact latched

/-- A command other than a reset leaves a latched fault alone unless it halts the core. -/
theorem Command.apply_latched (latched : m.core.exec = .faultLatched fault) {command : Command}
    (spares : command ≠ .reset) :
    (command.apply m).2.core.wiring = m.core.wiring ∧
      (¬command.Halts m.core.wiring → (command.apply m).2.core.exec = .faultLatched fault) ∧
      (command.Halts m.core.wiring → (command.apply m).2.core.exec = .halted) := by
  -- a command that is no write at most clears the note of bus cycles
  have quiet {after : Core σ} (harmless : ¬command.Halts m.core.wiring)
      (same : after = m.core ∨ after = m.core.cleared) :
      after.wiring = m.core.wiring ∧
        (¬command.Halts m.core.wiring → after.exec = .faultLatched fault) ∧
        (command.Halts m.core.wiring → after.exec = .halted) := by
    refine ⟨?_, fun _ => ?_, fun halts => absurd halts harmless⟩
    · rcases same with rfl | rfl
      · rfl
      · cases m.core <;> rfl
    · rcases same with rfl | rfl
      · exact latched
      · exact (exec_cleared m.core).trans latched
  cases command with
  | reset => exact absurd rfl spares
  | advance remaining =>
    have acts := congrArg Prod.snd (advance_latched latched remaining)
    exact quiet (by cases m.core.wiring <;> exact id) (.inr (congrArg Machine.core acts))
  | run budget =>
    refine quiet (by cases m.core.wiring <;> exact id) ?_
    rcases Nat.eq_zero_or_pos budget with rfl | pos
    · exact .inl (congrArg Machine.core (run_zero m).2)
    · have acts := congrArg Prod.snd (run_latched latched pos)
      exact .inr (congrArg Machine.core acts)
  | setLine line level => exact quiet (by cases m.core.wiring <;> exact id) (.inl rfl)
  | stateSet index value => exact stateSet_latched latched index value

/-! ## §3 Histories -/

/-- Carries commands out, one after the other. -/
def operate : List Command → Exec σ Unit
  | [] => return ()
  | command :: commands => do
    command.apply
    operate commands

theorem operate_keeps {P : Machine (Core σ) σ → Prop}
    (each : ∀ command : Command, Keeps P command.apply) (commands : List Command) :
    Keeps P (operate commands) := by
  induction commands with
  | nil => exact .pure ()
  | cons command commands ih => exact .bind (each command) fun _ => ih

theorem exec_operate (latched : m.core.exec = .faultLatched fault) {commands : List Command}
    (spared : .reset ∉ commands) :
    (∀ before, before <+: commands → (operate before m).2.core.exec = .faultLatched fault) ↔
      ∀ command ∈ commands, ¬command.Halts m.core.wiring := by
  induction commands generalizing m with
  | nil =>
    constructor
    · exact fun _ command member => nomatch member
    · intro _ before begins
      rw [List.prefix_nil.mp begins]
      exact latched
  | cons command commands ih =>
    obtain ⟨first, rest⟩ := not_or.mp fun either => spared (List.mem_cons.mpr either)
    obtain ⟨wired, kept, lost⟩ := Command.apply_latched latched (Ne.symm first)
    rw [List.forall_mem_cons, ← wired]
    constructor
    · intro throughout
      -- the first command has not halted the core, and what follows it starts from a latched fault
      have still := throughout [command] (List.prefix_append [command] commands)
      have harmless : ¬command.Halts m.core.wiring :=
        fun halts => nomatch still.symm.trans (lost halts)
      refine ⟨wired.symm ▸ harmless, (ih (kept harmless) rest).mp fun before begins => ?_⟩
      exact throughout (command :: before) (List.cons_prefix_cons.mpr ⟨rfl, begins⟩)
    · rintro ⟨harmless, others⟩ before begins
      cases before with
      | nil => exact latched
      | cons next before =>
        obtain ⟨rfl, further⟩ := List.cons_prefix_cons.mp begins
        exact (ih (kept (wired ▸ harmless)) rest).mpr others before further

/-- A fault stays latched throughout a history without resets, and every action and run answers it
without touching the world or anything of the core but its note of bus cycles, exactly if the
history contains no write that halts the core. -/
theorem latched_iff_never_halted (latched : m.core.exec = .faultLatched fault)
    {commands : List Command} (spared : .reset ∉ commands) :
    (∀ before, before <+: commands →
        (operate before m).2.core.exec = .faultLatched fault ∧
          (∀ remaining, advance remaining (operate before m).2 =
            (.error fault, unobserved (operate before m).2)) ∧
          ∀ budget, 0 < budget → run budget (operate before m).2 =
            (.error fault, unobserved (operate before m).2)) ↔
      ∀ command ∈ commands, ¬command.Halts m.core.wiring := by
  rw [← exec_operate latched spared]
  constructor
  · exact fun throughout before begins => (throughout before begins).1
  · intro throughout before begins
    have still := throughout before begins
    exact ⟨still, advance_latched still, fun budget pos => run_latched still pos⟩

/-- A core with an illegal opcode latched, to which its host does all that it may. -/
theorem latched_iff_never_halted_busy :
    let m : Machine (Core UInt8) UInt8 := (step
      ⟨.sm83 (.cell id (fun value _ => value) 0) {}, ⟨0xD3, { latches := [.released 6] }, {}⟩⟩).2
    ∀ before, before <+: [.setLine 5 .assert, .advance 4, .stateSet 19 2, .stateSet 0 7, .run 9] →
      (operate before m).2.core.exec = .faultLatched (.illegalOpcode 0 0xD3) := by
  intro m before begins
  refine ((latched_iff_never_halted rfl (by simp)).mpr ?_ before begins).1
  decide

/-- A fault that is gone once a debugger has halted the core. -/
theorem halting_ends_fault :
    let m : Machine (Core UInt8) UInt8 := (step
      ⟨.sm83 (.cell id (fun value _ => value) 0) {}, ⟨0xD3, { latches := [.released 6] }, {}⟩⟩).2
    m.core.exec = .faultLatched (.illegalOpcode 0 0xD3) ∧
      (operate [.stateSet 19 1] m).2.core.exec = .halted ∧
      (step (operate [.stateSet 19 1] m).2).1 = .ok (.idle 4) := by
  exact ⟨rfl, rfl, rfl⟩

end Microboard.Core
