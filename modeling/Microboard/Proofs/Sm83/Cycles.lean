import Microboard.Proofs.Accounting
import Microboard.Proofs.Sm83.Boundary

/-!
# SM83 cycles

- **§1** What instructions cost.
- **§2** Every boundary action puts on the clock what it says it took, and takes at most as long as
  the longest instruction and the wait states of its world, or as the budget that it idles away.
-/

namespace Microboard.Sm83

variable {σ : Type}

/-! ## §1 Costs -/

/-- Cycles of an instruction: whole machine cycles, from one to six of them. -/
def Timed (cycles : Nat) : Prop := cycles % 4 = 0 ∧ 0 < cycles ∧ cycles ≤ 24

instance (cycles : Nat) : Decidable (Timed cycles) := inferInstanceAs (Decidable (_ ∧ _))

/-- Both costs of an operation. -/
def Cost.Timed (cost : Cost) : Prop := Sm83.Timed cost.base ∧ Sm83.Timed cost.taken

theorem timed_fixed {cycles : Nat} (timed : Timed cycles) : (Cost.fixed cycles).Timed :=
  ⟨timed, timed⟩

theorem timed_branch {base taken : Nat} (passed : Timed base) (followed : Timed taken) :
    Cost.Timed ⟨base, taken⟩ := ⟨passed, followed⟩

theorem timed_choose {register memory : Nat} (inRegister : Timed register)
    (inMemory : Timed memory) (operand : Operand) : Timed (operand.choose register memory) := by
  cases operand with
  | atHl => exact inMemory
  | a | b | c | d | e | h | l => exact inRegister

/-- Every operation but the change of page takes from one to six machine cycles. -/
theorem cost_timed (op : Op) (first : op ≠ .secondPage) : op.cost.Timed := by
  cases op with
  | secondPage => exact absurd rfl first
  | storeSp => exact timed_fixed (by decide)
  | call => exact timed_fixed (by decide)
  | jr => exact timed_fixed (by decide)
  | jrIf condition => exact timed_branch (by decide) (by decide)
  | loadPair | storeHigh | loadHigh | loadHlSp | pop => exact timed_fixed (by decide)
  | addHl | storeA | loadA | incPair | decPair => exact timed_fixed (by decide)
  | loadSpHl | storeHighC | loadHighC | aluImmediate => exact timed_fixed (by decide)
  | inc target | dec target => exact timed_fixed (timed_choose (by decide) (by decide) target)
  | loadImmediate target => exact timed_fixed (timed_choose (by decide) (by decide) target)
  | load target source =>
    refine timed_fixed ?_
    split
    · decide
    · decide
  | alu op source => exact timed_fixed (timed_choose (by decide) (by decide) source)
  | retIf condition => exact timed_branch (by decide) (by decide)
  | jpIf condition => exact timed_branch (by decide) (by decide)
  | callIf condition => exact timed_branch (by decide) (by decide)
  | addSp | ret | reti | jp => exact timed_fixed (by decide)
  | storeAbsolute | loadAbsolute | push | rst => exact timed_fixed (by decide)
  | rotate op target => exact timed_fixed (timed_choose (by decide) (by decide) target)
  | res index target => exact timed_fixed (timed_choose (by decide) (by decide) target)
  | set index target => exact timed_fixed (timed_choose (by decide) (by decide) target)
  | bit index source => exact timed_fixed (timed_choose (by decide) (by decide) source)
  | nop | stop | halt | di | ei => exact timed_fixed (by decide)
  | rlca | rrca | rla | rra | daa | cpl | scf | ccf => exact timed_fixed (by decide)
  | jpHl | illegal => exact timed_fixed (by decide)

/-- The second page leads to no further page. -/
theorem decodeSecond_ne (opcode : UInt8) : decodeSecond opcode ≠ .secondPage := by
  unfold decodeSecond
  dsimp only
  split <;> exact Op.noConfusion

/-! ## §2 Actions -/

section Actions

variable {V : World σ → Prop} {w : Wiring σ}

/-- The reading of the clock. -/
abbrev clock (s : State) : Nat := s.totalCycles

theorem performCosted_timed (coupled : Wiring.Coupled (Both V) w w) (reading : Nat) (op : Op)
    (first : op ≠ .secondPage) :
    Ensures (Reads V clock reading) (performCosted w op)
      fun cost m => Reads V clock reading m ∧ Timed cost := by
  have timed := cost_timed op first
  refine .keepsBind ((coupled.follows_clock reading).respects.perform op).standing fun taken => ?_
  refine .pure fun m holds => ⟨holds, ?_⟩
  split
  · exact timed.2
  · exact timed.1

theorem execute_timed (coupled : Wiring.Coupled (Both V) w w) (reading : Nat) (op : Op) :
    Ensures (Reads V clock reading) (execute w op)
      fun cost m => Reads V clock reading m ∧ Timed cost := by
  refine .ite (fun _ => ?_) fun first => performCosted_timed coupled reading op first
  refine .keepsBind (coupled.follows_clock reading).respects.fetch8.standing fun opcode => ?_
  exact performCosted_timed coupled reading _ (decodeSecond_ne opcode)

theorem charge_reads (reading cycles : Nat) :
    Ensures (Reads V clock reading) (charge cycles)
      fun _ => Reads V clock (satAdd reading cycles) :=
  fun _ holds => ⟨holds.1, congrArg (satAdd · cycles) holds.2⟩

theorem idle_answered (reading remaining : Nat) :
    Ensures (Reads V clock reading) (idle remaining)
      fun step => Answered V clock reading (max 1 remaining + 23) (.ok step) := by
  refine .bind (charge_reads reading (idleCycles remaining)) fun _ => .pure fun m reads => ?_
  refine answered_of_reads reads ?_ ?_
  · show 0 < idleCycles remaining
    unfold idleCycles
    omega
  · show idleCycles remaining ≤ _
    unfold idleCycles
    omega

theorem stayHalted_answered (coupled : Wiring.Coupled (Both V) w w) (reading remaining : Nat)
    (raised : UInt8) :
    Ensures (Reads V clock reading) (stayHalted w remaining raised)
      fun step => Answered V clock reading (max 1 remaining + 23) (.ok step) := by
  refine .keepsBind (fun _ holds => holds) fun s => .ite (fun _ => ?_) fun _ => ?_
  · refine .keepsBind (coupled.follows_clock reading).wake.standing fun _ =>
      .bind (charge_reads reading wakeCycles) fun _ => .pure fun m reads => ?_
    refine answered_of_reads reads ?_ ?_
    · show 0 < wakeCycles
      decide
    · show wakeCycles ≤ _
      unfold wakeCycles
      omega
  · exact idle_answered reading remaining

variable {limit : Nat}

theorem drainWaitStates_reads (coupled : Wiring.Coupled (Both V) w w)
    (waits : ∀ world, V world → (World.takeWaitStates w.program world).1.toNat ≤ limit)
    (reading : Nat) :
    Ensures (Reads V clock reading) (drainWaitStates w)
      fun cycles m => Reads V clock reading m ∧ cycles ≤ limit := by
  intro m holds
  have kept := (coupled.follows_clock reading).drainWaitStates.standing m holds
  exact ⟨kept, waits m.world holds.1⟩

theorem retire_answered (coupled : Wiring.Coupled (Both V) w w)
    (waits : ∀ world, V world → (World.takeWaitStates w.program world).1.toNat ≤ limit)
    (reading : Nat) (pc : UInt16) (opcode : UInt8) {cost : Nat} (timed : Timed cost) :
    Ensures (Reads V clock reading) (retire w pc opcode cost)
      fun step => Answered V clock reading (24 + limit) (.ok step) := by
  obtain ⟨-, pos, most⟩ := timed
  refine .keepsBind (fun m holds => ⟨holds.1, ?_⟩) fun _ =>
    .bindAnd (drainWaitStates_reads coupled waits reading) fun cycles bound => ?_
  · show (if m.core.exec = .executing then _ else m.core.toCoreStatus).totalCycles = reading
    split <;> exact holds.2
  -- from here on the clock shows what the instruction and its wait states took
  · have after := coupled.follows_clock (satAdd reading (cost + cycles))
    refine .bind (charge_reads reading (cost + cycles)) fun _ => .keepsBind (fun _ holds => holds)
      fun _ => .keepsBind (after.record _).standing fun _ =>
      .pure fun _ reads => answered_of_reads reads ?_ ?_
    · show 0 < cost + cycles
      omega
    · show cost + cycles ≤ 24 + limit
      omega

theorem service_answered (coupled : Wiring.Coupled (Both V) w w)
    (waits : ∀ world, V world → (World.takeWaitStates w.program world).1.toNat ≤ limit)
    (reading : Nat) (source : InputLine) :
    Ensures (Reads V clock reading) (service w source)
      fun step => Answered V clock reading (24 + limit) (.ok step) := by
  have follows := coupled.follows_clock reading
  refine .keepsBind (fun _ holds => holds) fun _ => .keepsBind (follows.onLatch _).standing fun _ =>
    .keepsBind (follows.respects.callTo _).standing fun _ =>
    .keepsBind (follows.drive _ _).standing fun _ =>
    .keepsBind (follows.drive _ _).standing fun _ =>
    .bindAnd (drainWaitStates_reads coupled waits reading) fun cycles bound => ?_
  -- from here on the clock shows what the dispatch and its wait states took
  have after := coupled.follows_clock (satAdd reading (interruptCycles + cycles))
  refine .bind (charge_reads reading (interruptCycles + cycles)) fun _ =>
    .keepsBind (fun _ holds => holds) fun _ => .keepsBind (after.record _).standing fun _ =>
    .pure fun _ reads => answered_of_reads reads ?_ ?_
  · show 0 < interruptCycles + cycles
    unfold interruptCycles
    omega
  · show interruptCycles + cycles ≤ 24 + limit
    unfold interruptCycles
    omega

theorem runInstruction_answered (coupled : Wiring.Coupled (Both V) w w)
    (waits : ∀ world, V world → (World.takeWaitStates w.program world).1.toNat ≤ limit)
    (reading : Nat) :
    Ensures (Reads V clock reading) (runInstruction w)
      (Answered V clock reading (24 + limit)) := by
  have follows := coupled.follows_clock reading
  refine .keepsBind (fun _ holds => holds) fun regs => .keepsBind (fun _ holds => holds) fun _ =>
    .keepsBind follows.fetchOpcode.standing fun opcode => .ite (fun illegal => ?_) fun _ => ?_
  · refine .keepsBind (fun _ holds => holds) fun _ => .keepsBind (follows.record _).standing
      fun _ => ?_
    dsimp only
    cases w.config.policy with
    | fatal => exact .keepsBind (fun _ holds => holds) fun _ => .pure fun _ holds => holds
    | nop =>
      have cost : Timed (decode opcode).cost.base := by rw [illegal]; decide
      exact (retire_answered coupled waits reading _ _ cost).answered (Nat.le_refl _)
  · refine .bindAnd (execute_timed coupled reading _) fun cost timed => ?_
    exact (retire_answered coupled waits reading _ _ timed).answered (Nat.le_refl _)

theorem runBoundary_answered (coupled : Wiring.Coupled (Both V) w w)
    (waits : ∀ world, V world → (World.takeWaitStates w.program world).1.toNat ≤ limit)
    (reading : Nat) :
    Ensures (Reads V clock reading) (runBoundary w) (Answered V clock reading (24 + limit)) := by
  have run := runInstruction_answered coupled waits reading
  refine .keepsBind (fun _ holds => holds) fun s => .ite (fun _ => ?_) fun _ => ?_
  · exact .keepsBind (fun _ holds => holds) fun _ => run
  · cases s.regs.nextInterrupt? with
    | some source => exact (service_answered coupled waits reading source).answered (Nat.le_refl _)
    | none => exact run

/-- Every boundary action accounts for its cycles. -/
theorem metered (coupled : Wiring.Coupled (Both V) w w)
    (waits : ∀ world, V world → (World.takeWaitStates w.program world).1.toNat ≤ limit) :
    Metered (advance w) (fun m => V m.world) (fun m => clock m.core) (23 + limit) := by
  intro reading remaining
  have follows := coupled.follows_clock reading
  refine .keepsBind (P := Reads V clock reading) (fun _ holds => holds) fun _ =>
    .keepsBind (fun _ holds => holds) fun s => ?_
  dsimp only
  cases s.exec.latchedFault? with
  | some fault => exact .pure fun _ holds => holds
  | none =>
    refine .keepsBind follows.sampleReset.standing fun held => .ite (fun _ => ?_) fun _ => ?_
    · exact (idle_answered reading remaining).answered (by omega)
    refine .keepsBind follows.latchRequests.standing fun raised =>
      .keepsBind (fun _ holds => holds) fun s => .ite (fun _ => ?_) fun _ => ?_
    · exact (stayHalted_answered coupled reading remaining raised).answered (by omega)
    · refine (runBoundary_answered coupled waits reading).weaken fun answer m holds => ?_
      exact holds.within (by omega)

end Actions

end Microboard.Sm83
