import Microboard.Proofs.Scheduling.Drift
import Microboard.Proofs.Sm83.Sleeping

/-!
# The bus cycles that SM83 instructions pay for

What an instruction costs is written down in a table, apart from what its operation does on the bus.
A bus cycle takes four clock cycles, so the table has to have four for each bus cycle that the
operation makes. It does for all operations but one: `STOP` takes a byte after its opcode, which
nobody has paid for.

- **§1** Bus cycles of operations, beside their costs.
- **§2** Bus cycles made while an operation is performed.
- **§3** Whole instructions, and actions that run one.
-/

namespace Microboard.Sm83

variable {σ : Type}

/-! ## §1 The table -/

/-- Bus cycles that it takes to reach an operand. -/
def Operand.cells : Operand → Nat := choose 0 1

theorem Operand.cells_eq (operand : Operand) :
    operand.cells = if operand = .atHl then 1 else 0 := by
  cases operand <;> rfl

/-- Bus cycles that an operation makes once it has the bytes that follow its opcode. -/
def Op.transfers (taken : Bool) : Op → Nat
  | .storeA _ | .loadA _ | .storeHigh | .loadHigh | .storeHighC | .loadHighC | .storeAbsolute
  | .loadAbsolute => 1
  | .storeSp | .ret | .reti | .pop _ | .push _ | .call | .rst _ => 2
  | .retIf _ | .callIf _ => if taken then 2 else 0
  | .inc target | .dec target | .rotate _ target | .res _ target | .set _ target =>
    target.cells + target.cells
  | .load target source => source.cells + target.cells
  | .loadImmediate target => target.cells
  | .alu _ source | .bit _ source => source.cells
  | _ => 0

/-- Cycles of an operation that may be a branch that is taken. -/
def Cost.when (cost : Cost) (taken : Bool) : Nat := if taken then cost.taken else cost.base

@[simp] theorem Cost.when_fixed (cycles : Nat) (taken : Bool) :
    (Cost.fixed cycles).when taken = cycles := by
  cases taken <;> rfl

/-- An operation pays for its bus cycles if it has so many opcodes. -/
def Op.Paid (opcodes : Nat) (op : Op) : Prop :=
  ∀ taken, 4 * (opcodes + op.operands + op.transfers taken) ≤ op.cost.when taken

/-- On the first page all operations but `STOP` pay. There is no transfer from cell to cell. -/
theorem Op.paid_first {op : Op} (runs : op ≠ .stop) (page : op ≠ .secondPage)
    (apart : op ≠ .load .atHl .atHl) : op.Paid 1 := by
  intro taken
  cases op with
  | stop => exact absurd rfl runs
  | secondPage => exact absurd rfl page
  | load target source =>
    simp only [operands, transfers, cost, Cost.when_fixed, Operand.cells_eq]
    by_cases into : target = .atHl
    · have out : source ≠ .atHl := by
        rintro rfl
        exact apart (by rw [into])
      simp [into, out]
    · by_cases out : source = .atHl <;> simp [into, out]
  | jrIf | jpIf | retIf | callIf =>
    cases taken <;> simp [operands, transfers, cost, Cost.when]
  | inc operand | dec operand | loadImmediate operand | alu _ operand | rotate _ operand
  | res _ operand | set _ operand | bit _ operand =>
    cases operand <;> simp [operands, transfers, cost, Operand.cells, Operand.choose]
  | _ => simp [operands, transfers, cost]

/-- On the second page all operations pay. -/
theorem paid_second (opcode : UInt8) : (decodeSecond opcode).Paid 2 := by
  intro taken
  unfold decodeSecond
  generalize Operand.ofField (fieldZ opcode) = operand
  dsimp only
  split <;> cases operand <;>
    simp [Op.operands, Op.transfers, Op.cost, Operand.cells, Operand.choose]

theorem decode_corners : ∀ opcode < 256,
    (decode (UInt8.ofNat opcode) = .stop ↔ UInt8.ofNat opcode = 0x10) ∧
      decode (UInt8.ofNat opcode) ≠ .load .atHl .atHl := by
  decide +kernel

theorem decode_stop_iff (opcode : UInt8) : decode opcode = .stop ↔ opcode = 0x10 := by
  have corner := (decode_corners opcode.toNat opcode.toNat_lt).1
  rwa [UInt8.ofNat_toNat] at corner

/-- Where a load from cell to cell would be, there is `HALT`. -/
theorem decode_ne_cells (opcode : UInt8) : decode opcode ≠ .load .atHl .atHl := by
  have corner := (decode_corners opcode.toNat opcode.toNat_lt).2
  rwa [UInt8.ofNat_toNat] at corner

/-! ## §2 Operations -/

/-- The action has made so many bus cycles. -/
abbrev Made (count : Nat) (m : Machine State σ) : Prop := m.core.bus.length = count

section Operations

variable {w : Wiring σ} {count : Nat}

theorem read8_made (address : UInt16) :
    Ensures (Made count) (read8 w address) fun _ => Made (count + 1) := by
  intro m made
  unfold Made
  rw [(read8_bus w address m).1, List.length_append, made, List.length_singleton]

theorem write8_made (address : UInt16) (value : UInt8) :
    Ensures (Made count) (write8 w address value) fun _ => Made (count + 1) := by
  intro m made
  obtain ⟨⟨role, bus⟩, -⟩ := write8_bus w address value m
  unfold Made
  rw [bus, List.length_append, made, List.length_singleton]

/-- What changes only the core makes no bus cycle. -/
theorem modifyRegs_made (change : Registers → Registers) :
    Keeps (Made (σ := σ) count) (modifyRegs change) := fun _ made => made

theorem fetch8_made : Ensures (Made count) (fetch8 w) fun _ => Made (count + 1) :=
  .keepsBind (fun _ made => made) fun _ => .bind (read8_made _) fun _ =>
    .keepsBind (modifyRegs_made _) fun _ => .pure fun _ made => made

theorem fetch16_made : Ensures (Made count) (fetch16 w) fun _ => Made (count + 2) :=
  .bind fetch8_made fun _ => .bind fetch8_made fun _ => .pure fun _ made => made

theorem push16_made (value : UInt16) :
    Ensures (Made count) (push16 w value) fun _ => Made (count + 2) := by
  have push {count : Nat} (value : UInt8) :
      Ensures (Made count) (push8 w value) fun _ => Made (count + 1) :=
    .keepsBind (modifyRegs_made _) fun _ => .keepsBind (fun _ made => made) fun _ =>
      write8_made _ _
  exact .bind (push _) fun _ => push _

theorem pop16_made : Ensures (Made count) (pop16 w) fun _ => Made (count + 2) := by
  have pop {count : Nat} : Ensures (Made count) (pop8 w) fun _ => Made (count + 1) :=
    .keepsBind (fun _ made => made) fun _ => .bind (read8_made _) fun _ =>
      .keepsBind (modifyRegs_made _) fun _ => .pure fun _ made => made
  exact .bind pop fun _ => .bind pop fun _ => .pure fun _ made => made

theorem getOperand_made (operand : Operand) :
    Ensures (Made count) (getOperand w operand) fun _ => Made (count + operand.cells) := by
  cases operand with
  | atHl => exact .keepsBind (fun _ made => made) fun _ => read8_made _
  | _ => exact fun _ made => made

theorem setOperand_made (operand : Operand) (value : UInt8) :
    Ensures (Made count) (setOperand w operand value) fun _ => Made (count + operand.cells) := by
  cases operand with
  | atHl => exact .keepsBind (fun _ made => made) fun _ => write8_made _ _
  | _ => exact fun _ made => made

theorem updateOperand_made (operand : Operand) (op : UInt8 → UInt8 → UInt8 × UInt8) :
    Ensures (Made count) (updateOperand w operand op)
      fun _ => Made (count + (operand.cells + operand.cells)) := by
  rw [← Nat.add_assoc]
  exact .bind (getOperand_made operand) fun _ => .keepsBind (fun _ made => made) fun _ =>
    .bind (setOperand_made operand _) fun _ => modifyRegs_made _

theorem moveOperand_made (source target : Operand) (change : UInt8 → UInt8) :
    Ensures (Made count) (getOperand w source >>= fun value => setOperand w target (change value))
      fun _ => Made (count + (source.cells + target.cells)) := by
  rw [← Nat.add_assoc]
  exact .bind (getOperand_made source) fun _ => setOperand_made target _

theorem callTo_made (target : UInt16) :
    Ensures (Made count) (callTo w target) fun _ => Made (count + 2) :=
  .keepsBind (fun _ made => made) fun _ => .bind (push16_made _) fun _ => modifyRegs_made _

theorem enterHalt_made (stopped : Bool) : Keeps (Made count) (enterHalt w stopped) :=
  .bind (fun _ made => made) fun _ => .bind (fun _ made => made) fun _ =>
    .bind (fun _ made => made) fun _ _ made => made

/-- A branch makes its bus cycles if it is taken. -/
theorem branchIf_made {branch : Exec σ Unit} {cycles : Nat} (condition : Condition)
    (made : Ensures (Made count) branch fun _ => Made (count + cycles)) :
    Ensures (Made count) (branchIf condition branch)
      fun taken => Made (count + if taken then cycles else 0) :=
  .keepsBind (fun _ made => made) fun _ =>
    .ite (fun _ => .bind made fun _ => .pure fun _ made => made) fun _ => .pure fun _ made => made

/-- An operation makes the bus cycles that it takes to fetch its operand, and those of its
transfers. -/
theorem perform_made (w : Wiring σ) (op : Op) :
    Ensures (Made count) (perform w op)
      fun taken => Made (count + op.operands + op.transfers taken) := by
  cases op with
  | nop | illegal | secondPage => exact .pure fun _ made => made
  -- switches
  | stop => exact always_took (.bind fetch8_made fun _ => enterHalt_made true)
  | halt =>
    refine always_took (Q := Made count) (.keepsBind (fun _ made => made) fun _ =>
      .ite (fun _ _ made => made) fun _ => enterHalt_made false)
  -- branches
  | jr => exact always_took (.bind fetch8_made fun _ => modifyRegs_made _)
  | jrIf condition =>
    exact .bind fetch8_made fun _ =>
      branchIf_took condition (modifyRegs_made _) fun _ made => made
  | jp => exact always_took (.bind fetch16_made fun _ => modifyRegs_made _)
  | jpIf condition =>
    exact .bind fetch16_made fun _ =>
      branchIf_took condition (modifyRegs_made _) fun _ made => made
  | call => exact always_took (.bind fetch16_made fun _ => callTo_made _)
  | callIf condition =>
    exact .bind fetch16_made fun _ => branchIf_made condition (callTo_made _)
  | rst vector => exact always_took (callTo_made _)
  | ret => exact always_took (.bind pop16_made fun _ => modifyRegs_made _)
  | retIf condition =>
    exact branchIf_made condition (.bind pop16_made fun _ => modifyRegs_made _)
  | reti =>
    exact always_took (.bind pop16_made fun _ => .keepsBind (modifyRegs_made _) fun _ =>
      modifyRegs_made _)
  -- operands
  | inc target | dec target | rotate _ target => exact always_took (updateOperand_made target _)
  | res _ target | set _ target => exact always_took (moveOperand_made target target _)
  | load target source => exact always_took (moveOperand_made source target id)
  | loadImmediate target => exact always_took (.bind fetch8_made fun _ => setOperand_made target _)
  | alu _ source =>
    exact always_took (.bind (getOperand_made source) fun _ => .keepsBind (fun _ made => made)
      fun _ => modifyRegs_made _)
  | bit _ source => exact always_took (.bind (getOperand_made source) fun _ => modifyRegs_made _)
  -- memory and the stack
  | pop target => exact always_took (.bind pop16_made fun _ => modifyRegs_made _)
  | push source => exact always_took (.keepsBind (fun _ made => made) fun _ => push16_made _)
  | storeA pointer =>
    exact always_took (.keepsBind (fun _ made => made) fun _ => .keepsBind (fun _ made => made)
      fun _ => write8_made _ _)
  | loadA pointer =>
    exact always_took (.keepsBind (fun _ made => made) fun _ => .bind (read8_made _) fun _ =>
      modifyRegs_made _)
  | storeSp =>
    exact always_took (.bind fetch16_made fun _ => .keepsBind (fun _ made => made) fun _ =>
      .bind (write8_made _ _) fun _ => write8_made _ _)
  | storeHigh =>
    exact always_took (.bind fetch8_made fun _ => .keepsBind (fun _ made => made) fun _ =>
      write8_made _ _)
  | storeAbsolute =>
    exact always_took (.bind fetch16_made fun _ => .keepsBind (fun _ made => made) fun _ =>
      write8_made _ _)
  | loadHigh =>
    exact always_took (.bind fetch8_made fun _ => .bind (read8_made _) fun _ => modifyRegs_made _)
  | loadAbsolute =>
    exact always_took (.bind fetch16_made fun _ => .bind (read8_made _) fun _ => modifyRegs_made _)
  | storeHighC => exact always_took (.keepsBind (fun _ made => made) fun _ => write8_made _ _)
  | loadHighC =>
    exact always_took (.keepsBind (fun _ made => made) fun _ => .bind (read8_made _) fun _ =>
      modifyRegs_made _)
  | loadPair target => exact always_took (.bind fetch16_made fun _ => modifyRegs_made _)
  | aluImmediate _ =>
    exact always_took (.bind fetch8_made fun _ => .keepsBind (fun _ made => made) fun _ =>
      modifyRegs_made _)
  | addSp | loadHlSp => exact always_took (.bind fetch8_made fun _ => modifyRegs_made _)
  -- the rest stays in the core
  | _ => exact fun _ made => made

theorem performCosted_made (w : Wiring σ) (op : Op) :
    Ensures (Made count) (performCosted w op) fun cost m => ∃ taken, cost = op.cost.when taken ∧
      Made (count + op.operands + op.transfers taken) m :=
  .bind (perform_made w op) fun taken => .pure fun _ made => ⟨taken, rfl, made⟩

/-- What the bus cycles of an instruction cost. -/
structure Covers (opcode : UInt8) (cycles count : Nat) : Prop where
  covered : opcode ≠ 0x10 → 4 * count ≤ cycles
  stops : opcode = 0x10 → count = 2 ∧ cycles = 4

/-- An operation whose opcode is fetched pays for its bus cycles, unless it is `STOP`. -/
theorem execute_covers (w : Wiring σ) (opcode : UInt8) :
    Ensures (Made 1) (execute w (decode opcode))
      fun cost m => Covers opcode cost m.core.bus.length := by
  have paid {opcodes : Nat} {op : Op} (runs : opcode ≠ 0x10) (paid : op.Paid opcodes) :
      Ensures (Made opcodes) (performCosted w op)
        fun cost m => Covers opcode cost m.core.bus.length :=
    (performCosted_made w op).weaken fun _ _ ⟨taken, cost, made⟩ =>
      ⟨fun _ => by rw [cost, made]; exact paid taken, fun stops => absurd stops runs⟩
  refine .ite (fun page => ?_) fun first => ?_
  · have runs : opcode ≠ 0x10 := by
      rintro rfl
      cases page
    exact .bind fetch8_made fun second => paid runs (paid_second second)
  · by_cases stops : opcode = 0x10
    · subst stops
      exact (performCosted_made w .stop).weaken fun _ _ ⟨taken, cost, made⟩ =>
        ⟨fun runs => absurd rfl runs, fun _ => ⟨made, by simpa [Op.cost] using cost⟩⟩
    · exact paid stops (Op.paid_first (mt (decode_stop_iff opcode).mp stops) first
        (decode_ne_cells opcode))

end Operations

/-! ## §3 Instructions -/

section Instructions

variable {P : σ → Prop} {w : Wiring σ}

/-- Without wait states, a retired instruction takes what it costs. -/
theorem retire_covers (free : Core.WaitFree P (.inl w)) (pc : UInt16) {opcode : UInt8} {cost : Nat}
    {m : Machine State σ} (holds : P m.world.devices)
    (covers : Covers opcode cost m.core.bus.length) {place : UInt32} {cycles : Nat}
    (retired : (retire w pc opcode cost m).1 = .retired place cycles) :
    Covers opcode cycles (retire w pc opcode cost m).2.core.bus.length := by
  have none := free.1.none m.world.devices holds
  have answer : StepOutcome.retired pc.toUInt32
      (cost + (w.program.takeWaitStates m.world.devices).1.toNat) = .retired place cycles := retired
  rw [none] at answer
  obtain ⟨-, rfl⟩ := StepOutcome.retired.inj answer
  obtain ⟨totalCycles, diagnostics, core⟩ := retire_core w pc opcode cost m
  rw [core]
  exact covers

theorem execute_keeps (free : Core.WaitFree P (.inl w)) (op : Op) :
    Keeps (fun m => P m.world.devices) (execute w op) := by
  intro m holds
  have follows := free.calm.1.follows_clock m.core.totalCycles
  exact ((follows.respects.execute op).standing m ⟨holds, rfl⟩).1

theorem runFetched_covers (free : Core.WaitFree P (.inl w)) (pc : UInt16) {opcode : UInt8}
    {m : Machine State σ} (made : Made 1 m) (holds : P m.world.devices) {place : UInt32}
    {cycles : Nat} (retired : (runFetched w pc opcode m).1 = .ok (.retired place cycles)) :
    Covers opcode cycles (runFetched w pc opcode m).2.core.bus.length := by
  by_cases illegal : decode opcode = .illegal
  · have runs : opcode ≠ 0x10 := by
      rintro rfl
      cases illegal
    unfold runFetched at retired ⊢
    rw [eval_ite, if_pos illegal, eval_bind, eval_bind] at retired ⊢
    dsimp only at retired ⊢
    cases policy : w.config.policy with
    | fatal =>
      rw [policy] at retired
      cases retired
    | nop =>
      -- an opcode that is passed over costs as much as its fetch
      rw [policy, illegal] at retired
      rw [illegal]
      let noted : Machine State σ :=
        ⟨{ m.core with diagnostics := m.core.diagnostics.recordIllegal pc.toUInt32 opcode },
          m.world.record (.illegalOpcode name pc opcode .nop)⟩
      have covers : Covers opcode Op.illegal.cost.base noted.core.bus.length :=
        ⟨fun _ => by rw [show noted.core.bus.length = 1 from made]; decide,
          fun stops => absurd stops runs⟩
      exact retire_covers free pc (m := noted) holds covers (Except.ok.inj retired)
  · unfold runFetched at retired ⊢
    rw [eval_ite, if_neg illegal, eval_bind] at retired ⊢
    exact retire_covers free pc (execute_keeps free _ m holds) (execute_covers w opcode m made)
      (Except.ok.inj retired)

/-- A retired instruction that meets no wait states takes at least four clock cycles for each of its
bus cycles, unless it is `STOP`, which takes four for two. -/
theorem bus_cycles_covered (free : Core.WaitFree P (.inl w)) {m : Machine State σ}
    (holds : P m.world.devices) {remaining : Nat} {place : UInt32} {cycles : Nat}
    (retired : (advance w remaining m).1 = .ok (.retired place cycles)) :
    Covers (advance w remaining m).2.core.opcode cycles
      (advance w remaining m).2.core.bus.length := by
  obtain ⟨released, runs⟩ := advance_retired retired
  obtain ⟨-, bus, devices, -⟩ := sample_found released
  obtain ⟨begins, looks⟩ : ∃ begins : Machine State σ,
      begins = ⟨{ (sample w m).2.core with eiDelay := false }, (sample w m).2.world⟩ := ⟨_, rfl⟩
  rw [← looks] at runs
  have made : Made 1 (fetchOpcode w (begun begins)).2 := by
    have fresh : (begun begins).core.bus = [] := by
      rw [looks]
      exact bus
    unfold Made
    rw [bus_fetchOpcode, fresh]
    rfl
  have held : P (fetchOpcode w (begun begins)).2.world.devices := by
    have found : P (begun begins).world.devices := by
      rw [looks]
      exact devices ▸ holds
    have follows := free.calm.1.follows_clock (begun begins).core.totalCycles
    exact (follows.fetchOpcode.standing (begun begins) ⟨found, rfl⟩).1
  have opcode : (runInstruction w begins).2.core.opcode = (fetchOpcode w (begun begins)).1 :=
    congrArg Marks.opcode (runInstruction_marks w begins)
  rw [runs] at retired ⊢
  rw [opcode]
  exact runFetched_covers free _ made held retired

end Instructions

/-- A new core over a single cell calls a subroutine: three fetches and two writes in 24 cycles. -/
theorem bus_cycles_covered_call :
    let w : Wiring UInt8 := .cell id (fun value _ => value) 0
    let after := advance w 1 ⟨{}, ⟨0xCD, { latches := [.released 6] }, {}⟩⟩
    after.1.toOption = some (.retired 0 24) ∧ after.2.core.bus.length = 5 ∧
      4 * after.2.core.bus.length ≤ 24 := by
  intro w after
  have free : Core.WaitFree (fun _ => True) (.inl w) :=
    ⟨⟨fun _ _ _ => trivial, fun _ _ _ _ => trivial, fun _ _ => rfl, fun _ _ => trivial⟩,
      fun _ _ _ _ => trivial⟩
  have answers : after.1.toOption = some (.retired 0 24) := by decide +kernel
  have covers := bus_cycles_covered free (m := ⟨{}, ⟨0xCD, { latches := [.released 6] }, {}⟩⟩)
    trivial (ok_of_toOption answers)
  exact ⟨answers, by decide +kernel, covers.covered (by decide +kernel)⟩

/-- A new core over a cell without wait states retires a `STOP`. Its two bus cycles take eight clock
cycles, of which four are counted. -/
theorem stop_not_covered :
    let w : Wiring UInt8 := .cell id (fun value _ => value) 0
    let world : World UInt8 := ⟨0x10, { latches := [.released 6] }, {}⟩
    let start := (reset w ⟨{}, ⟨0x10, {}, {}⟩⟩).2.core
    let after := advance w 1 ⟨start, world⟩
    (∃ world', build {} w.program ⟨0x10, {}, {}⟩ = .ok ((w, start), world')) ∧
      Core.WaitFree (fun _ => True) (.inl w) ∧
      after.1.toOption = some (.retired 0 4) ∧ after.2.core.bus.length = 2 ∧
      ¬4 * after.2.core.bus.length ≤ 4 := by
  intro w world start after
  refine ⟨⟨_, rfl⟩, ⟨⟨fun _ _ _ => trivial, fun _ _ _ _ => trivial, fun _ _ => rfl,
    fun _ _ => trivial⟩, fun _ _ _ _ => trivial⟩, ?_⟩
  decide +kernel

end Microboard.Sm83
