import Microboard.Proofs.Accounting
import Microboard.Proofs.Ucom4.Boundary

/-!
# uCOM-4 cycles

- **§1** What instructions cost.
- **§2** Every boundary action puts on the clock what it says it took, and takes at most as long as
  the longest instruction and the wait states of its world, or as the budget that it idles away.
-/

namespace Microboard.Ucom4

variable {σ : Type}

/-! ## §1 Costs -/

/-- Machine cycles of an instruction: one or two. -/
def Timed (cycles : Nat) : Prop := 0 < cycles ∧ cycles ≤ 2

/-- A return has no argument. -/
theorem decodeFull_of_hasArgument : ∀ opcode < 256, hasArgument (UInt8.ofNat opcode) = true →
    decodeFull (UInt8.ofNat opcode) ≠ .rt ∧ decodeFull (UInt8.ofNat opcode) ≠ .rts := by
  decide +kernel

theorem decode_length (family : Family) (opcode : UInt8) : Timed (decode family opcode).length := by
  show Timed (if hasArgument opcode then 2 else 1)
  unfold Timed
  split <;> omega

/-- Every instruction takes one or two machine cycles. -/
theorem decode_cycles (family : Family) (opcode : UInt8) : Timed (decode family opcode).cycles := by
  have argument := decodeFull_of_hasArgument opcode.toNat opcode.toNat_lt
  rw [UInt8.ofNat_toNat] at argument
  show Timed (if decodeOp family opcode = .rt ∨ decodeOp family opcode = .rts then
    (if hasArgument opcode then 2 else 1) + 1 else if hasArgument opcode then 2 else 1)
  unfold Timed
  -- returns take a cycle more, but none of them has an argument
  by_cases long : hasArgument opcode
  · obtain ⟨notRt, notRts⟩ := argument long
    have plain : ¬(decodeOp family opcode = .rt ∨ decodeOp family opcode = .rts) := by
      unfold decodeOp
      dsimp only
      split
      · rintro (return_ | return_) <;> exact Op.noConfusion return_
      · rintro (return_ | return_)
        · exact notRt return_
        · exact notRts return_
    rw [if_neg plain, if_pos long]
    omega
  · rw [if_neg long]
    split <;> omega

/-! ## §2 Actions -/

section Actions

variable {V : World σ → Prop} {w : Wiring σ}

/-- The reading of the clock. -/
abbrev clock (s : State) : Nat := s.totalCycles

theorem charge_reads (coupled : Wiring.Coupled (Both V) w w) (reading cycles : Nat) :
    Ensures (Reads V clock reading) (charge w cycles)
      fun _ => Reads V clock (satAdd reading cycles) := by
  have after := coupled.follows_clock (satAdd reading cycles)
  refine .bind (V := fun _ => Reads V clock (satAdd reading cycles)) ?_ fun _ =>
    (after.tickTimer cycles).standing
  exact fun _ holds => ⟨holds.1, congrArg (satAdd · cycles) holds.2⟩

/-- None of the spaces has more wait states pending than the limit. -/
structure Wiring.Within (V : World σ → Prop) (limit : Nat) (w : Wiring σ) : Prop where
  program : ∀ world, V world → (World.takeWaitStates w.program world).1.toNat ≤ limit
  data : ∀ world, V world → (World.takeWaitStates w.data world).1.toNat ≤ limit
  io : ∀ world, V world → (World.takeWaitStates w.io world).1.toNat ≤ limit

variable {limit : Nat}

theorem drainWaitStates_reads (coupled : Wiring.Coupled (Both V) w w) (waits : w.Within V limit)
    (reading : Nat) :
    Ensures (Reads V clock reading) (drainWaitStates w)
      fun cycles m => Reads V clock reading m ∧ cycles ≤ 3 * limit := by
  have follows := coupled.follows_clock reading
  have program : Ensures (Reads V clock reading) (Machine.takeWaitStates w.program)
      fun cycles m => Reads V clock reading m ∧ cycles.toNat ≤ limit :=
    fun m holds => ⟨follows.waitProgram.standing m holds, waits.program m.world holds.1⟩
  have data : Ensures (Reads V clock reading) (Machine.takeWaitStates w.data)
      fun cycles m => Reads V clock reading m ∧ cycles.toNat ≤ limit :=
    fun m holds => ⟨follows.waitData.standing m holds, waits.data m.world holds.1⟩
  have io : Ensures (Reads V clock reading) (Machine.takeWaitStates w.io)
      fun cycles m => Reads V clock reading m ∧ cycles.toNat ≤ limit :=
    fun m holds => ⟨follows.waitIo.standing m holds, waits.io m.world holds.1⟩
  refine .bindAnd program fun first le₁ => .bindAnd data fun second le₂ =>
    .bindAnd io fun third le₃ => .keepsBind (fun _ holds => holds) fun _ =>
    .pure fun _ holds => ⟨holds, ?_⟩
  rw [toNat_satAdd32, toNat_satAdd32]
  omega

theorem retire_answered (coupled : Wiring.Coupled (Both V) w w) (waits : w.Within V limit)
    (reading : Nat) (pc : UInt16) (opcode : UInt8) {cost : Nat} (timed : Timed cost) :
    Ensures (Reads V clock reading) (retire w pc opcode cost)
      fun step => Answered V clock reading (2 + 3 * limit) (.ok step) := by
  obtain ⟨pos, most⟩ := timed
  refine .keepsBind (fun _ holds => holds) fun _ =>
    .bindAnd (drainWaitStates_reads coupled waits reading) fun cycles bound => ?_
  have before := coupled.follows_clock reading
  have after := coupled.follows_clock (satAdd reading (cost + cycles))
  refine .keepsBind (before.tickTimer cycles).standing fun _ =>
    .bind (V := fun _ => Reads V clock (satAdd reading (cost + cycles)))
      (fun _ holds => ⟨holds.1, congrArg (satAdd · (cost + cycles)) holds.2⟩) fun _ =>
    .keepsBind (after.record _).standing fun _ => .pure fun _ reads => answered_of_reads reads ?_ ?_
  · show 0 < cost + cycles
    omega
  · show cost + cycles ≤ 2 + 3 * limit
    omega

theorem service_answered (coupled : Wiring.Coupled (Both V) w w) (waits : w.Within V limit)
    (reading : Nat) :
    Ensures (Reads V clock reading) (service w)
      fun step => Answered V clock reading (2 + 3 * limit) (.ok step) := by
  have follows := coupled.follows_clock reading
  refine .keepsBind (fun _ holds => holds) fun _ => .keepsBind (follows.onLatch _).standing fun _ =>
    .keepsBind follows.respects.pushPc.standing fun _ => .keepsBind (fun _ holds => holds) fun _ =>
    .keepsBind (follows.drive _ _).standing fun _ =>
    .keepsBind (follows.drive _ _).standing fun _ =>
    .bindAnd (drainWaitStates_reads coupled waits reading) fun cycles bound => ?_
  -- from here on the clock shows what the entry and its wait states took
  have after := coupled.follows_clock (satAdd reading (interruptCycles + cycles))
  refine .bind (charge_reads coupled reading (interruptCycles + cycles)) fun _ =>
    .keepsBind (fun _ holds => holds) fun _ => .keepsBind (after.record _).standing fun _ =>
    .keepsBind (fun _ holds => holds) fun _ => .pure fun _ reads => answered_of_reads reads ?_ ?_
  · show 0 < interruptCycles + cycles
    unfold interruptCycles
    omega
  · show interruptCycles + cycles ≤ 2 + 3 * limit
    unfold interruptCycles
    omega

theorem fetchInstruction_reads (coupled : Wiring.Coupled (Both V) w w) (reading : Nat) :
    Ensures (Reads V clock reading) (fetchInstruction w) fun fetched m =>
      Reads V clock reading m ∧ fetched.2 = decode w.geometry.family fetched.1 := by
  have fetch := (coupled.follows_clock reading).respects.fetch.standing
  refine .keepsBind fetch fun opcode => .ite (fun _ => ?_) fun _ => ?_
  · exact .keepsBind fetch fun _ => .keepsBind (fun _ holds => holds) fun _ =>
      .keepsBind (fun _ holds => holds) fun _ => .pure fun _ holds => ⟨holds, rfl⟩
  · exact .keepsBind (fun _ holds => holds) fun _ => .pure fun _ holds => ⟨holds, rfl⟩

theorem runIllegal_answered (coupled : Wiring.Coupled (Both V) w w) (waits : w.Within V limit)
    (reading : Nat) (pc : UInt16) (opcode : UInt8) {entry : Entry} (timed : Timed entry.cycles) :
    Ensures (Reads V clock reading) (runIllegal w pc opcode entry)
      (Answered V clock reading (2 + 3 * limit)) := by
  have follows := coupled.follows_clock reading
  refine .keepsBind (fun _ holds => holds) fun _ => .keepsBind (follows.record _).standing
    fun _ => ?_
  dsimp only
  cases w.config.policy with
  | fatal => exact .keepsBind (fun _ holds => holds) fun _ => .pure fun _ holds => holds
  | nop =>
    refine .keepsBind (follows.tickTimer _).standing fun _ => ?_
    exact (retire_answered coupled waits reading pc opcode timed).answered (Nat.le_refl _)

theorem runInstruction_answered (coupled : Wiring.Coupled (Both V) w w)
    (waits : w.Within V limit) (reading : Nat) :
    Ensures (Reads V clock reading) (runInstruction w)
      (Answered V clock reading (2 + 3 * limit)) := by
  have follows := coupled.follows_clock reading
  refine .keepsBind (fun _ holds => holds) fun regs => .keepsBind (fun _ holds => holds) fun _ =>
    .bindAnd (fetchInstruction_reads coupled reading) fun fetched entry => ?_
  obtain ⟨fits, -⟩ := decode_fits w.geometry.family fetched.1
  have length := decode_length w.geometry.family fetched.1
  have cycles := decode_cycles w.geometry.family fetched.1
  rw [← entry] at fits length cycles
  refine .keepsBind (fun _ holds => holds) fun s => .ite (fun _ => ?_) fun _ => ?_
  · refine Ensures.answered (.keepsBind (follows.tickTimer _).standing fun _ => ?_) (Nat.le_refl _)
    exact .keepsBind (fun _ holds => holds) fun _ =>
      retire_answered coupled waits reading _ _ length
  · refine .ite (fun _ => runIllegal_answered coupled waits reading _ _ cycles) fun _ => ?_
    exact .keepsBind (follows.tickTimer _).standing fun _ =>
      .keepsBind (follows.perform fits fun _ => rfl).standing fun _ =>
      (retire_answered coupled waits reading _ _ cycles).answered (Nat.le_refl _)

/-- Every boundary action accounts for its cycles. -/
theorem metered (coupled : Wiring.Coupled (Both V) w w) (waits : w.Within V limit) :
    Metered (advance w) (fun m => V m.world) (fun m => clock m.core) (1 + 3 * limit) := by
  intro reading remaining
  have follows := coupled.follows_clock reading
  refine .keepsBind (P := Reads V clock reading) (fun _ holds => holds) fun _ =>
    .keepsBind (fun _ holds => holds) fun s => ?_
  dsimp only
  cases s.exec.latchedFault? with
  | some fault => exact .pure fun _ holds => holds
  | none =>
    refine .keepsBind follows.sampleReset.standing fun held => .ite (fun _ => ?_) fun _ => ?_
    · refine .bind (charge_reads coupled reading (idleCycles remaining)) fun _ =>
        .pure fun _ reads => answered_of_reads reads ?_ ?_
      · show 0 < idleCycles remaining
        unfold idleCycles
        omega
      · show idleCycles remaining ≤ _
        unfold idleCycles
        omega
    refine .keepsBind follows.latchRequest.standing fun _ =>
      .keepsBind (fun _ holds => holds) fun s => .ite (fun _ => ?_) fun _ => ?_
    · exact (service_answered coupled waits reading).answered (by omega)
    · refine (runInstruction_answered coupled waits reading).weaken fun answer m holds => ?_
      exact holds.within (by omega)

end Actions

end Microboard.Ucom4
