import Microboard.Proofs.Maps.Cells
import Microboard.Proofs.Sm83.Sleeping

/-!
# SM83 stacks

A word that is pushed is there to be popped, as long as the two bytes of it lie in memory: not in
the registers that the core answers for itself, and not in a device that keeps something else than
what was written. So pushes are undone by pops, calls by returns, and interrupt entries by `RETI`.

- **§1** Words in memory, and pairs of registers.
- **§2** Accesses, told by what they do to the registers and the cells.
- **§3** Operations that push a word, and operations that pop one.
- **§4** Actions that perform a known operation.
- **§5** An action that pushes and a later one that pops.
-/

namespace Microboard.Sm83

variable {σ : Type}

/-! ## §1 Words -/

/-- What memory holds once a word is pushed. -/
def stacked (values : UInt16 → UInt8) (sp word : UInt16) : UInt16 → UInt8 :=
  Function.update (Function.update values (sp - 1) (highByte word)) (sp - 2) (lowByte word)

/-- The word on top of the stack is the one that was pushed last. -/
theorem joinBytes_stacked (values : UInt16 → UInt8) (sp word : UInt16) :
    joinBytes (stacked values sp word (sp - 1)) (stacked values sp word (sp - 2)) = word := by
  have apart : sp - 1 ≠ sp - 2 := by grind
  unfold stacked
  rw [Function.update_self, Function.update_of_ne apart, Function.update_self,
    joinBytes_highByte_lowByte]

namespace Registers

/-- A pair that is set to its own value does not change, as long as the flags are real ones. -/
theorem setStackPair_stackPair {r : Registers} (whole : r.f &&& 0x0F = 0) (pair : StackPair) :
    r.setStackPair (r.stackPair pair) pair = r := by
  have flags : r.f &&& flagsMask = r.f := by
    have split := or_and_distrib flagsMask 0x0F r.f
    rw [UInt8.and_comm 0x0F, whole, UInt8.or_zero, UInt8.and_comm flagsMask] at split
    exact split.symm.trans UInt8.neg_one_and
  cases pair with
  | bc | de | hl =>
    simp only [setStackPair, stackPair, setBc, setDe, setHl, bc, de, hl, highByte_joinBytes,
      lowByte_joinBytes]
  | af =>
    simp only [setStackPair, stackPair, setAf, af, highByte_joinBytes, lowByte_joinBytes, flags]

/-- A pair has the value that it was set to, but for flags that do not exist. -/
theorem stackPair_setStackPair (r : Registers) (value : UInt16) (pair : StackPair) :
    (r.setStackPair value pair).stackPair pair =
      if pair = .af then value &&& 0xFFF0 else value := by
  cases pair with
  | bc | de | hl => exact joinBytes_highByte_lowByte value
  | af =>
    show joinBytes (highByte value) (lowByte value &&& flagsMask) = value &&& joinBytes 0xFF 0xF0
    calc joinBytes (highByte value) (lowByte value &&& flagsMask)
        = joinBytes (highByte value &&& 0xFF) (lowByte value &&& 0xF0) :=
          congrArg (joinBytes · _) UInt8.and_neg_one.symm
      _ = joinBytes (highByte value) (lowByte value) &&& joinBytes 0xFF 0xF0 :=
          (joinBytes_and ..).symm
      _ = value &&& joinBytes 0xFF 0xF0 := by rw [joinBytes_highByte_lowByte]

end Registers

/-- The cell at an address, where none of the core's own registers is in front of it. -/
structure Seen (cells : Cells σ) (address : UInt16) : Prop where
  there : cells.has address
  enable : address ≠ ieAddress
  request : address ≠ ifAddress

/-- Both bytes below the stack pointer are seen. -/
structure Room (cells : Cells σ) (sp : UInt16) : Prop where
  high : Seen cells (sp - 1)
  low : Seen cells (sp - 2)

theorem Registers.pushed_room {cells : Cells σ} {r : Registers} (room : Room cells r.sp)
    (word : UInt16) : r.pushed word = { r with sp := r.sp - 2 } := by
  unfold Registers.pushed Registers.store
  rw [if_neg room.high.enable, if_neg room.high.request, if_neg room.low.enable,
    if_neg room.low.request]

/-- What a push asks of the program space stacks the word in the cells. -/
theorem pushes_hold {w : Wiring σ} {cells : Cells σ} (behind : cells.Behind w.program)
    {sp : UInt16} (room : Room cells sp) (word : UInt16) {values : UInt16 → UInt8} {devices : σ}
    (hold : cells.Hold values devices) :
    cells.Hold (stacked values sp word) (w.pushes sp word devices).state := by
  have stores {address : UInt16} (seen : Seen cells address) (value : UInt8) :
      w.stores address value = w.program.writeUnit address.toUInt32 value :=
    if_neg (not_or.mpr ⟨seen.enable, seen.request⟩)
  unfold Wiring.pushes
  rw [stores room.high, stores room.low]
  exact behind.write _ _ _ _ (behind.write _ _ _ _ hold)

/-! ## §2 Accesses -/

/-- Where a core stands: its registers, and what the cells around it hold. -/
structure Stands (cells : Cells σ) (r : Registers) (values : UInt16 → UInt8)
    (m : Machine State σ) : Prop where
  regs : m.core.regs = r
  hold : cells.Hold values m.world.devices

section Accesses

variable {w : Wiring σ} {cells : Cells σ} {r : Registers} {values : UInt16 → UInt8}

theorem modifyRegs_stands (change : Registers → Registers) :
    Ensures (Stands (σ := σ) cells r values) (modifyRegs change)
      fun _ => Stands cells (change r) values :=
  fun _ stands => ⟨congrArg change stands.regs, stands.hold⟩

theorem read8_stands (behind : cells.Behind w.program) (address : UInt16) :
    Ensures (Stands cells r values) (read8 w address) fun value m =>
      Stands cells r values m ∧ (Seen cells address → value = values address) := by
  refine .ite (fun enable => ?_) fun _ => .ite (fun request => ?_) fun _ => ?_
  all_goals rintro m ⟨regs, hold⟩
  · exact ⟨⟨regs, hold⟩, fun seen => absurd enable seen.enable⟩
  · exact ⟨⟨regs, hold⟩, fun seen => absurd request seen.request⟩
  · exact ⟨⟨regs, behind.read _ _ _ hold⟩, fun seen => behind.finds _ _ _ hold seen.there⟩

theorem fetch8_stands (behind : cells.Behind w.program) :
    Ensures (Stands cells r values) (fetch8 w)
      fun _ => Stands cells { r with pc := r.pc + 1 } values := by
  refine .keepsBind (fun _ stands => stands) fun regs => ?_
  refine .bind ((read8_stands behind regs.pc).weaken fun _ _ read => read.1) fun value => ?_
  exact .bind (modifyRegs_stands fun r => { r with pc := r.pc + 1 }) fun _ =>
    .pure fun _ stands => stands

theorem fetch16_stands (behind : cells.Behind w.program) :
    Ensures (Stands cells r values) (fetch16 w)
      fun _ => Stands cells { r with pc := r.pc + 2 } values := by
  refine .bind (fetch8_stands behind) fun _ => .bind (fetch8_stands behind) fun _ => .pure ?_
  rintro m ⟨regs, hold⟩
  refine ⟨regs.trans ?_, hold⟩
  dsimp only
  rw [UInt16.add_assoc]
  rfl

theorem push16_stands (behind : cells.Behind w.program) (room : Room cells r.sp) (word : UInt16) :
    Ensures (Stands cells r values) (push16 w word)
      fun _ => Stands cells { r with sp := r.sp - 2 } (stacked values r.sp word) := by
  rintro m ⟨rfl, hold⟩
  rw [push16_eq]
  exact ⟨Registers.pushed_room room word, pushes_hold behind room word hold⟩

theorem pop8_stands (behind : cells.Behind w.program) (seen : Seen cells r.sp) :
    Ensures (Stands cells r values) (pop8 w) fun value m =>
      Stands cells { r with sp := r.sp + 1 } values m ∧ value = values r.sp := by
  rintro m ⟨rfl, hold⟩
  obtain ⟨⟨regs, hold⟩, finds⟩ := read8_stands behind m.core.regs.sp m ⟨rfl, hold⟩
  exact ⟨⟨congrArg (fun r : Registers => { r with sp := r.sp + 1 }) regs, hold⟩, finds seen⟩

/-- A word that is stacked is the one that is popped. -/
theorem pop16_stands (behind : cells.Behind w.program) {sp : UInt16} (room : Room cells sp)
    (word : UInt16) (below : r.sp = sp - 2) :
    Ensures (Stands cells r (stacked values sp word)) (pop16 w) fun value m =>
      Stands cells { r with sp } (stacked values sp word) m ∧ value = word := by
  have next : r.sp + 1 = sp - 1 := by grind
  have last : r.sp + 1 + 1 = sp := by grind
  refine .bindAnd (pop8_stands behind (below ▸ room.low)) fun low found =>
    .bindAnd (pop8_stands behind (next.symm ▸ room.high)) fun high found' =>
    .pure fun m stands => ?_
  dsimp only at stands found'
  rw [last] at stands
  rw [next] at found'
  rw [found, found', below]
  exact ⟨stands, joinBytes_stacked values sp word⟩

end Accesses

/-! ## §3 Operations -/

/-- A call that is taken: how long it is, and where it goes if this operand follows it. -/
inductive Calls (r : Registers) (operand : UInt16) : Op → (length target : UInt16) → Prop where
  | call : Calls r operand .call 3 operand
  | callIf {condition : Condition} : r.holds condition = true →
      Calls r operand (.callIf condition) 3 operand
  | rst (vector : UInt8) : Calls r operand (.rst vector) 1 vector.toUInt16

/-- A return that is taken, and leaves interrupts as they are. -/
inductive Resumes (r : Registers) : Op → Prop where
  | ret : Resumes r .ret
  | retIf {condition : Condition} : r.holds condition = true → Resumes r (.retIf condition)

section Operations

variable {w : Wiring σ} {cells : Cells σ} {r : Registers} {values : UInt16 → UInt8}

theorem branchIf_stands {condition : Condition} (taken : r.holds condition = true)
    {branch : Exec σ Unit} {Q : Machine State σ → Prop}
    (ends : Ensures (Stands cells r values) branch fun _ => Q) :
    Ensures (Stands cells r values) (branchIf condition branch) fun _ => Q := by
  rintro m ⟨rfl, hold⟩
  have branches : branchIf condition branch m = (branch >>= fun _ => pure true) m := by
    unfold branchIf
    rw [eval_bind]
    exact (eval_ite ..).trans (if_pos taken)
  rw [branches]
  exact ends m ⟨rfl, hold⟩

theorem perform_push_stands (behind : cells.Behind w.program) (room : Room cells r.sp)
    (source : StackPair) :
    Ensures (Stands cells r values) (perform w (.push source)) fun _ =>
      Stands cells { r with sp := r.sp - 2 } (stacked values r.sp (r.stackPair source)) := by
  rintro m ⟨rfl, hold⟩
  exact push16_stands behind room _ m ⟨rfl, hold⟩

/-- A call pushes the address of the instruction after it. -/
theorem callTo_stands (behind : cells.Behind w.program) (room : Room cells r.sp)
    (target : UInt16) :
    Ensures (Stands cells r values) (callTo w target) fun _ =>
      Stands cells { r with pc := target, sp := r.sp - 2 } (stacked values r.sp r.pc) := by
  rintro m ⟨rfl, hold⟩
  rw [callTo_eq]
  exact ⟨congrArg (fun r : Registers => { r with pc := target })
    (Registers.pushed_room room _), pushes_hold behind room _ hold⟩

/-- A call pushes the address after it, which is one less away once its opcode is fetched. -/
theorem perform_calls_stands (behind : cells.Behind w.program) {m : Machine State σ}
    (stands : Stands cells r values m) (room : Room cells r.sp) {op : Op} {length target : UInt16}
    (calls : Calls r (fetch16 w m).1 op length target) :
    Stands cells { r with pc := target, sp := r.sp - 2 }
      (stacked values r.sp (r.pc + (length - 1))) (perform w op m).2 := by
  have fetches : Ensures (· = m) (fetch16 w) fun operand m' =>
      Stands cells { r with pc := r.pc + 2 } values m' ∧ operand = (fetch16 w m).1 := by
    intro m' same
    rw [same]
    exact ⟨fetch16_stands behind m stands, rfl⟩
  have called : Ensures (Stands cells { r with pc := r.pc + 2 } values)
      (callTo w (fetch16 w m).1) fun _ => Stands cells
        { r with pc := (fetch16 w m).1, sp := r.sp - 2 } (stacked values r.sp (r.pc + 2)) :=
    callTo_stands (r := { r with pc := r.pc + 2 }) behind room (fetch16 w m).1
  cases calls with
  | call =>
    have performs : Ensures (· = m) (perform w .call) fun _ => Stands cells
        { r with pc := (fetch16 w m).1, sp := r.sp - 2 } (stacked values r.sp (r.pc + 2)) := by
      refine .bind (.bindAnd fetches ?_) fun _ => .pure fun _ => id
      rintro _ rfl
      exact called
    exact performs m rfl
  | @callIf condition taken =>
    have performs : Ensures (· = m) (perform w (.callIf condition)) fun _ => Stands cells
        { r with pc := (fetch16 w m).1, sp := r.sp - 2 } (stacked values r.sp (r.pc + 2)) := by
      refine .bindAnd fetches ?_
      rintro _ rfl
      exact branchIf_stands (r := { r with pc := r.pc + 2 }) taken called
    exact performs m rfl
  | rst vector =>
    rw [show r.pc + (1 - 1) = r.pc from UInt16.add_zero _]
    exact callTo_stands behind room _ m stands

variable {sp word : UInt16}

theorem perform_pop_stands (behind : cells.Behind w.program) (room : Room cells sp)
    (below : r.sp = sp - 2) (target : StackPair) :
    Ensures (Stands cells r (stacked values sp word)) (perform w (.pop target)) fun _ =>
      Stands cells ({ r with sp }.setStackPair word target) (stacked values sp word) := by
  refine .bind (.bindAnd (pop16_stands behind room word below) ?_) fun _ => .pure fun _ => id
  rintro _ rfl
  exact modifyRegs_stands _

theorem perform_resumes_stands (behind : cells.Behind w.program) (room : Room cells sp)
    (below : r.sp = sp - 2) {op : Op} (resumes : Resumes r op) :
    Ensures (Stands cells r (stacked values sp word)) (perform w op) fun _ =>
      Stands cells { r with pc := word, sp } (stacked values sp word) := by
  have returns : Ensures (Stands cells r (stacked values sp word)) (do jumpTo (← pop16 w))
      fun _ => Stands cells { r with pc := word, sp } (stacked values sp word) := by
    refine .bindAnd (pop16_stands behind room word below) ?_
    rintro _ rfl
    exact modifyRegs_stands _
  cases resumes with
  | ret => exact .bind returns fun _ => .pure fun _ => id
  | retIf taken => exact branchIf_stands taken returns

theorem perform_reti_stands (behind : cells.Behind w.program) (room : Room cells sp)
    (below : r.sp = sp - 2) :
    Ensures (Stands cells r (stacked values sp word)) (perform w .reti) fun _ =>
      Stands cells { r with pc := word, sp, ime := true } (stacked values sp word) := by
  refine .bind (.bindAnd (pop16_stands behind room word below) ?_) fun _ => .pure fun _ => id
  rintro _ rfl
  exact .bind (modifyRegs_stands _) fun _ => modifyRegs_stands _

end Operations

/-! ## §4 Actions -/

/-- A core that may run an instruction. It is neither faulted nor halted, and its next fetch moves
the program counter. -/
structure State.Ready (s : State) : Prop where
  awake : s.exec.latchedFault? = none
  running : s.exec ≠ .halted
  moves : s.haltBug = false

/-- At this boundary the core is about to perform an operation. Its reset line is released, no
interrupt comes first, and the opcode at the program counter is one of the operation. -/
structure AboutTo (w : Wiring σ) (op : Op) (m : Machine State σ) : Prop where
  released : Released w m
  undisturbed : m.core.eiDelay = true ∨ m.core.regs.ime = false ∨
    m.core.regs.ie &&& flagsFound w m &&& interruptMask = 0
  opcode : decode (read8 w m.core.regs.pc (sample w m).2).1 = op

instance (w : Wiring σ) (m : Machine State σ) : Decidable (Released w m) :=
  inferInstanceAs (Decidable (_ = _))

instance (w : Wiring σ) (op : Op) (m : Machine State σ) : Decidable (AboutTo w op m) :=
  decidable_of_iff (Released w m ∧
      (m.core.eiDelay = true ∨ m.core.regs.ime = false ∨
        m.core.regs.ie &&& flagsFound w m &&& interruptMask = 0) ∧
      decode (read8 w m.core.regs.pc (sample w m).2).1 = op)
    ⟨fun ⟨released, undisturbed, opcode⟩ => ⟨released, undisturbed, opcode⟩,
      fun ⟨released, undisturbed, opcode⟩ => ⟨released, undisturbed, opcode⟩⟩

/-- The machine once the core has looked at its lines and fetched an opcode. -/
def atOperand (w : Wiring σ) (m : Machine State σ) : Machine State σ :=
  (fetchOpcode w (begun ⟨{ (sample w m).2.core with eiDelay := false }, (sample w m).2.world⟩)).2

/-- The word after the opcode at the program counter. -/
def operandWord (w : Wiring σ) (m : Machine State σ) : UInt16 := (fetch16 w (atOperand w m)).1

/-- The instruction at an address retires. -/
def RetiresAt (pc : UInt16) (answer : Except Fault StepOutcome) : Prop :=
  ∃ cycles, answer = .ok (.retired pc.toUInt32 cycles)

section Actions

variable {w : Wiring σ} {cells : Cells σ} {r : Registers} {values : UInt16 → UInt8}
  {m : Machine State σ} {op : Op}

/-- What is read does not depend on what the core is doing. -/
theorem read8_begun (w : Wiring σ) (address : UInt16) (m : Machine State σ) :
    (read8 w address (begun ⟨{ m.core with eiDelay := false }, m.world⟩)).1 =
      (read8 w address m).1 := by
  by_cases enable : address = ieAddress
  · subst enable
    rfl
  by_cases request : address = ifAddress
  · subst request
    rfl
  · unfold read8
    rw [eval_ite, if_neg enable, eval_ite, if_neg request, eval_ite, if_neg enable, eval_ite,
      if_neg request]
    rfl

theorem atOperand_stands (behind : cells.Behind w.program) (ready : m.core.Ready)
    (released : Released w m) (hold : cells.Hold values m.world.devices) :
    Stands cells { m.core.regs with pc := m.core.regs.pc + 1, iflag := flagsFound w m } values
      (atOperand w m) := by
  have devices := (sample_found released).2.2.1
  refine ⟨?_, ?_⟩
  · have opened : m.core.opened = { m.core.regs with pc := m.core.regs.pc + 1 } := by
      unfold State.opened
      rw [ready.moves]
      rfl
    unfold atOperand
    rw [regs_fetchOpcode, sample_core released]
    exact congrArg (fun r : Registers => { r with iflag := flagsFound w m }) opened
  · refine (read8_stands behind _ _ ⟨rfl, ?_⟩).1.hold
    show cells.Hold values (sample w m).2.world.devices
    rw [devices]
    exact hold

/-- Operations that are no switches leave a core ready. -/
theorem Switches.retire_perform_plain {op : Op} (plain : op.isSwitch = false) (s : Switches)
    (requested : Bool) :
    (s.begin.perform requested op).retire = { s.begin with exec := .fetching } := by
  cases op with
  | stop | halt | di | ei | reti => cases plain
  | _ => rfl

/-- An instruction that retires has performed the operation of its opcode. -/
theorem Switches.Performs.of_retired {s after : Switches} {requested : Bool} {pc : UInt16}
    {opcode : UInt8} {answer : Except Fault StepOutcome}
    (performs : s.Performs requested pc opcode answer after) {place : UInt32} {cycles : Nat}
    (retired : answer = .ok (.retired place cycles)) :
    after = (s.perform requested (decode opcode)).retire := by
  cases performs with
  | refused => cases retired
  | retired => rfl

/-- The machine that a retired instruction leaves. -/
theorem runFetched_retires (w : Wiring σ) (pc : UInt16) {opcode : UInt8}
    (legal : decode opcode ≠ .illegal) (first : decode opcode ≠ .secondPage)
    (m : Machine State σ) :
    RetiresAt pc (runFetched w pc opcode m).1 ∧
      (runFetched w pc opcode m).2.core.regs = (perform w (decode opcode) m).2.core.regs ∧
      (runFetched w pc opcode m).2.world.devices =
        (w.program.takeWaitStates (perform w (decode opcode) m).2.world.devices).2 := by
  have executes : (execute w (decode opcode) m).2 = (perform w (decode opcode) m).2 := by
    unfold execute
    rw [eval_ite, if_neg first]
    rfl
  rw [regs_runFetched w pc legal, ← executes]
  unfold runFetched
  rw [eval_ite, if_neg legal]
  exact ⟨⟨_, rfl⟩, rfl, rfl⟩

/-- A core that is about to perform an operation performs it, which leaves it ready unless the
operation is a switch. -/
theorem advance_aboutTo (behind : cells.Behind w.program) (ready : m.core.Ready)
    (aboutTo : AboutTo w op m) (legal : op ≠ .illegal) (first : op ≠ .secondPage) (remaining : Nat)
    (performs : Stands cells r values (perform w op (atOperand w m)).2) :
    RetiresAt m.core.regs.pc (advance w remaining m).1 ∧
      Stands cells r values (advance w remaining m).2 ∧
      (op.isSwitch = false → (advance w remaining m).2.core.Ready) := by
  obtain ⟨released, undisturbed, opcode⟩ := aboutTo
  have running := exec_sample released ready.running
  obtain ⟨source, prompt, enabled, foremost, -⟩ | ⟨-, runs⟩ :=
    advance_running ready.awake released running remaining
  · -- an interrupt would come first
    have due := foremost.pos
    simp [prompt, enabled, due] at undisturbed
  · have performed := runInstruction_performs w
      (m := ⟨{ (sample w m).2.core with eiDelay := false }, (sample w m).2.world⟩) rfl
    have pc : (sample w m).2.core.regs.pc = m.core.regs.pc := by rw [sample_core released]
    have fetched : decode (fetchOpcode w (begun
        ⟨{ (sample w m).2.core with eiDelay := false }, (sample w m).2.world⟩)).1 = op := by
      rw [fetchOpcode_eq, ← opcode, ← pc]
      exact congrArg decode (read8_begun w _ _)
    rw [runInstruction_eq] at runs performed
    dsimp only at runs performed
    rw [pc] at runs performed
    rw [← fetched] at legal first performs
    obtain ⟨⟨cycles, retired⟩, regs, devices⟩ := runFetched_retires w m.core.regs.pc legal first
      (atOperand w m)
    rw [← fetched, runs]
    refine ⟨⟨cycles, retired⟩, ⟨regs.trans performs.regs, ?_⟩, fun plain => ?_⟩
    · show cells.Hold values (runFetched w _ _ (atOperand w m)).2.world.devices
      rw [devices]
      exact behind.takes _ _ performs.hold
    · have switches := performed.of_retired retired
      rw [Switches.retire_perform_plain plain] at switches
      have exec := congrArg Switches.exec switches
      have moves := congrArg Switches.haltBug switches
      exact ⟨congrArg ExecState.latchedFault? exec, (nomatch exec.symm.trans ·), moves⟩

end Actions

/-! ## §5 Pushed and popped -/

/-- A later moment, at which the core is as an action has left it. Around it anything may have
happened, but the cells hold what they held. -/
structure Since (cells : Cells σ) (m next : Machine State σ) : Prop where
  core : next.core = m.core
  kept : cells.Kept m.world.devices next.world.devices

theorem Stands.since {cells : Cells σ} {r : Registers} {values : UInt16 → UInt8}
    {m next : Machine State σ} (stands : Stands cells r values m) (since : Since cells m next) :
    Stands cells r values next :=
  ⟨(congrArg State.regs since.core).trans stands.regs, since.kept _ stands.hold⟩

/-- A core that is ready has pushed a word onto a stack, and its registers are now these. -/
structure Pushed (cells : Cells σ) (sp word : UInt16) (r : Registers) (m : Machine State σ) :
    Prop where
  ready : m.core.Ready
  stands : ∃ values, Stands cells r (stacked values sp word) m

section Pairs

variable {w : Wiring σ} {cells : Cells σ} {values : UInt16 → UInt8} {m : Machine State σ}

theorem advance_push (behind : cells.Behind w.program) (hold : cells.Hold values m.world.devices)
    (ready : m.core.Ready) (room : Room cells m.core.regs.sp) {source : StackPair}
    (pushes : AboutTo w (.push source) m) (remaining : Nat) :
    RetiresAt m.core.regs.pc (advance w remaining m).1 ∧
      Pushed cells m.core.regs.sp (m.core.regs.stackPair source)
        { m.core.regs with
          pc := m.core.regs.pc + 1, sp := m.core.regs.sp - 2, iflag := flagsFound w m }
        (advance w remaining m).2 := by
  have opened := atOperand_stands behind ready pushes.released hold
  have performs := perform_push_stands behind (by exact room) source _ opened
  obtain ⟨retires, stands, plain⟩ :=
    advance_aboutTo behind ready pushes nofun nofun remaining performs
  have value : Registers.stackPair { m.core.regs with
      pc := m.core.regs.pc + 1, iflag := flagsFound w m } source =
        m.core.regs.stackPair source := by
    cases source <;> rfl
  rw [value] at stands
  exact ⟨retires, plain rfl, _, stands⟩

theorem advance_calls (behind : cells.Behind w.program) (hold : cells.Hold values m.world.devices)
    (ready : m.core.Ready) (room : Room cells m.core.regs.sp) {op : Op} {length target : UInt16}
    (calls : AboutTo w op m) (taken : Calls m.core.regs (operandWord w m) op length target)
    (remaining : Nat) :
    RetiresAt m.core.regs.pc (advance w remaining m).1 ∧
      Pushed cells m.core.regs.sp (m.core.regs.pc + length)
        { m.core.regs with
          pc := target, sp := m.core.regs.sp - 2, iflag := flagsFound w m }
        (advance w remaining m).2 := by
  have opened := atOperand_stands behind ready calls.released hold
  have taken' : Calls { m.core.regs with
      pc := m.core.regs.pc + 1, iflag := flagsFound w m } (fetch16 w (atOperand w m)).1 op length
      target := by
    cases taken with
    | call => exact .call
    | callIf holds => exact .callIf holds
    | rst vector => exact .rst vector
  have performs := perform_calls_stands behind opened (by exact room) taken'
  have after : m.core.regs.pc + 1 + (length - 1) = m.core.regs.pc + length := by grind
  dsimp only at performs
  rw [after] at performs
  obtain ⟨legal, first, plain⟩ : op ≠ .illegal ∧ op ≠ .secondPage ∧ op.isSwitch = false := by
    cases taken <;> exact ⟨nofun, nofun, rfl⟩
  obtain ⟨retires, stands, ready⟩ :=
    advance_aboutTo behind ready calls legal first remaining performs
  exact ⟨retires, ready plain, _, stands⟩

/-- An interrupt that is entered pushes the address of the instruction that it came before. -/
theorem advance_enters (behind : cells.Behind w.program)
    (spares : ∀ line asserted, cells.Spares (w.sink line asserted))
    (hold : cells.Hold values m.world.devices) (ready : m.core.Ready)
    (room : Room cells m.core.regs.sp) (released : Released w m)
    (prompt : m.core.eiDelay = false) (enabled : m.core.regs.ime = true)
    (due : m.core.regs.ie &&& flagsFound w m &&& interruptMask ≠ 0) (remaining : Nat) :
    ∃ (source : InputLine) (cycles : Nat),
      (advance w remaining m).1 = .ok (.interrupt (0x40 + 8 * source.toUInt32) cycles) ∧
      Pushed cells m.core.regs.sp m.core.regs.pc
        { m.core.regs with
          ime := false
          pc := 0x40 + 8 * source.toUInt16
          sp := m.core.regs.sp - 2
          iflag := flagsFound w m &&& ~~~(1 <<< source) }
        (advance w remaining m).2 := by
  obtain ⟨source, -, -, foremost, serves⟩ | ⟨undue, -⟩ :=
    advance_running ready.awake released (exec_sample released ready.running) remaining
  · have entered := service_entered released foremost.requested
    have switches := service_switches w source (sample w m).2
    rw [sample_switches, released, Switches.look_released] at switches
    rw [serves]
    -- from here on, the entry is what these say of it
    generalize service w source (sample w m).2 = served at entered switches ⊢
    refine ⟨source, _, entered.outcome, ⟨?awake, ?running, ?moves⟩, values, ?regs, ?hold⟩
    case awake => exact congrArg (ExecState.latchedFault? ∘ Switches.exec) switches
    case running => exact (nomatch (congrArg Switches.exec switches).symm.trans ·)
    case moves => exact (congrArg Switches.haltBug switches).trans ready.moves
    case regs =>
      have others := entered.others
      rw [entered.ie room.high.enable room.low.enable,
        entered.iflag room.high.request room.low.request] at others
      exact others
    case hold =>
      rw [entered.devices]
      refine behind.takes _ _ (spares _ _ _ _ (spares _ _ _ _ ?_))
      exact pushes_hold behind room _ hold
  · -- nothing keeps the interrupt from being entered
    simp [prompt, enabled, due] at undue

/-- What a pop finds on the stack is the word that was pushed, whenever it comes. -/
theorem Pushed.popped (behind : cells.Behind w.program) {sp word : UInt16} {r after : Registers}
    (pushed : Pushed cells sp word r m) {next : Machine State σ} (since : Since cells m next)
    {op : Op} (pops : AboutTo w op next) (legal : op ≠ .illegal) (first : op ≠ .secondPage)
    (performs : ∀ values, Ensures
      (Stands cells { r with pc := r.pc + 1, iflag := flagsFound w next } (stacked values sp word))
      (perform w op) fun _ => Stands cells after (stacked values sp word)) (later : Nat) :
    RetiresAt r.pc (advance w later next).1 ∧ (advance w later next).2.core.regs = after := by
  obtain ⟨ready, values, stands⟩ := pushed
  obtain ⟨regs, hold⟩ := stands.since since
  have opened := atOperand_stands behind (since.core ▸ ready) pops.released hold
  rw [regs] at opened
  obtain ⟨retires, stands, -⟩ := advance_aboutTo behind (since.core ▸ ready) pops legal first later
    (performs values _ opened)
  rw [regs] at retires
  exact ⟨retires, stands.regs⟩

section Undone

variable (behind : cells.Behind w.program) (hold : cells.Hold values m.world.devices)
  (ready : m.core.Ready) (room : Room cells m.core.regs.sp) {next : Machine State σ}
  (remaining : Nat) (since : Since cells (advance w remaining m).2 next) (later : Nat)
include behind hold ready room since

theorem pop_push {source target : StackPair} (pushes : AboutTo w (.push source) m)
    (pops : AboutTo w (.pop target) next) :
    RetiresAt m.core.regs.pc (advance w remaining m).1 ∧
      RetiresAt (m.core.regs.pc + 1) (advance w later next).1 ∧
      (advance w later next).2.core.regs = Registers.setStackPair
        { m.core.regs with pc := m.core.regs.pc + 2, iflag := flagsFound w next }
        (m.core.regs.stackPair source) target := by
  have after : m.core.regs.pc + 1 + 1 = m.core.regs.pc + 2 := by grind
  obtain ⟨retires, pushed⟩ := advance_push behind hold ready room pushes remaining
  obtain ⟨retires', regs⟩ := pushed.popped behind since pops nofun nofun
    (fun _ => perform_pop_stands behind room rfl target) later
  dsimp only at regs
  rw [after] at regs
  exact ⟨retires, retires', regs⟩

theorem return_call {op back : Op} {length target : UInt16} (calls : AboutTo w op m)
    (taken : Calls m.core.regs (operandWord w m) op length target)
    (returns : AboutTo w back next) (taken' : Resumes next.core.regs back) :
    RetiresAt m.core.regs.pc (advance w remaining m).1 ∧
      RetiresAt target (advance w later next).1 ∧
      (advance w later next).2.core.regs =
        { m.core.regs with pc := m.core.regs.pc + length, iflag := flagsFound w next } := by
  obtain ⟨retires, pushed⟩ := advance_calls behind hold ready room calls taken remaining
  obtain ⟨_, _, stands⟩ := id pushed
  rw [(stands.since since).regs] at taken'
  obtain ⟨legal, first⟩ : back ≠ .illegal ∧ back ≠ .secondPage := by
    cases taken' <;> exact ⟨nofun, nofun⟩
  obtain ⟨retires', regs⟩ := pushed.popped behind since returns legal first
    (fun _ => perform_resumes_stands behind room rfl
      (by cases taken' with
        | ret => exact .ret
        | retIf holds => exact .retIf holds)) later
  exact ⟨retires, retires', regs⟩

theorem reti_enter (spares : ∀ line asserted, cells.Spares (w.sink line asserted))
    (released : Released w m) (prompt : m.core.eiDelay = false) (enabled : m.core.regs.ime = true)
    (due : m.core.regs.ie &&& flagsFound w m &&& interruptMask ≠ 0)
    (returns : AboutTo w .reti next) :
    ∃ (source : InputLine) (cycles : Nat),
      (advance w remaining m).1 = .ok (.interrupt (0x40 + 8 * source.toUInt32) cycles) ∧
      RetiresAt (0x40 + 8 * source.toUInt16) (advance w later next).1 ∧
      (advance w later next).2.core.regs =
        { m.core.regs with ime := true, iflag := flagsFound w next } := by
  obtain ⟨source, cycles, enters, pushed⟩ :=
    advance_enters behind spares hold ready room released prompt enabled due remaining
  obtain ⟨retires, regs⟩ := pushed.popped behind since returns nofun nofun
    (fun _ => perform_reti_stands behind room rfl) later
  exact ⟨source, cycles, enters, retires, regs⟩

end Undone

end Pairs

/-- Whatever lies behind the program space, and wherever its code is: what a core pushes onto cells
of memory, it pops again. A pair is copied by way of the stack, and restored if it is popped into
itself. A call is resumed from after it, and an interrupted program where it was interrupted, with
interrupts enabled. The stack pointer and all other registers are as they were, but for `IF`, into
which requests are moved at each boundary. -/
theorem stack_round_trips {w : Wiring σ} {cells : Cells σ} (behind : cells.Behind w.program)
    (spares : ∀ line asserted, cells.Spares (w.sink line asserted)) {values : UInt16 → UInt8}
    {m next : Machine State σ} (hold : cells.Hold values m.world.devices) (ready : m.core.Ready)
    (whole : m.core.regs.f &&& 0x0F = 0) (room : Room cells m.core.regs.sp) (remaining : Nat)
    (since : Since cells (advance w remaining m).2 next) (later : Nat) :
    let before := m.core.regs
    let first := advance w remaining m
    let second := advance w later next
    let found := { before with iflag := flagsFound w next }
    (∀ source target, AboutTo w (.push source) m → AboutTo w (.pop target) next →
      RetiresAt before.pc first.1 ∧ RetiresAt (before.pc + 1) second.1 ∧
      second.2.core.regs =
        Registers.setStackPair { found with pc := before.pc + 2 } (before.stackPair source) target ∧
      second.2.core.regs.stackPair target =
        (if target = .af then before.stackPair source &&& 0xFFF0 else before.stackPair source) ∧
      (source = target → second.2.core.regs = { found with pc := before.pc + 2 })) ∧
    (∀ op length target back, AboutTo w op m → Calls before (operandWord w m) op length target →
      AboutTo w back next → Resumes next.core.regs back →
      RetiresAt before.pc first.1 ∧ RetiresAt target second.1 ∧
      second.2.core.regs = { found with pc := before.pc + length }) ∧
    (Released w m → m.core.eiDelay = false → before.ime = true →
      before.ie &&& flagsFound w m &&& interruptMask ≠ 0 → AboutTo w .reti next →
      ∃ (source : InputLine) (cycles : Nat),
        first.1 = .ok (.interrupt (0x40 + 8 * source.toUInt32) cycles) ∧
        RetiresAt (0x40 + 8 * source.toUInt16) second.1 ∧
        second.2.core.regs = { found with ime := true }) := by
  intro before first second found
  refine ⟨fun source target pushes pops => ?_, fun op length target back calls taken returns => ?_,
    fun released prompt enabled due returns => ?_⟩
  · obtain ⟨retires, retires', regs⟩ :=
      pop_push behind hold ready room remaining since later pushes pops
    refine ⟨retires, retires', regs, ?_, ?_⟩
    · rw [show second.2.core.regs = _ from regs, Registers.stackPair_setStackPair]
    · rintro rfl
      have same : before.stackPair source =
          Registers.stackPair { found with pc := before.pc + 2 } source := by
        cases source <;> rfl
      refine regs.trans ?_
      rw [show m.core.regs.stackPair source = _ from same]
      exact Registers.setStackPair_stackPair (r := { found with pc := before.pc + 2 }) whole source
  · exact return_call behind hold ready room remaining since later calls taken returns
  · exact reti_enter behind hold ready room remaining since later spares released prompt enabled due
      returns

/-- Sixteen bytes of RAM at 0xC000, and a program at 0x40: `RETI`, `PUSH DE`, `POP AF`, a call of
0x46, and `RET Z` there. -/
def workbench : AddressMap Unit :=
  let map : AddressMap Unit :=
    { config := { name := "program", addressWidth := 16, dataWidth := 8 } }
  let map := (map.attempt (map.mapRam 0xC000 0xC00F)).2
  (map.attempt (map.mapRom 0x40 [0xD9, 0xD5, 0xF1, 0xCD, 0x46, 0x00, 0xC8])).2

/-- The two topmost bytes of the RAM are cells. -/
theorem workbench_hold :
    (Board.cells 0 (· ∈ [0xC00E, 0xC00F])).Hold (fun _ => 0) ⟨[workbench], ()⟩ := by
  let config : SpaceConfig := { name := "program", addressWidth := 16, dataWidth := 8 }
  have created : AddressMap.create (δ := Unit) config = .ok { config } := rfl
  have represents := ((AddressMap.create_represents created).mapRam 0xC000 0xC00F).represents.mapRom
    0x40 [0xD9, 0xD5, 0xF1, 0xCD, 0x46, 0x00, 0xC8]
  refine ⟨workbench, _, rfl, represents.represents, by decide +kernel, by decide +kernel, ?_⟩
  intro address there
  have top : address = 0xC00E ∨ address = 0xC00F := by simpa using there
  rcases top with rfl | rfl
  · rfl
  · rfl

/-- The pair `DE` goes to `AF`, where half of `E` is lost, the call comes back, and so does the
handler of an interrupt. -/
theorem stack_round_trips_on_workbench :
    let w : Wiring (Board Unit) :=
      { config := {}, program := Board.space workbench.config 0, number := 0 }
    let start (pc : UInt16) (ime : Bool) : Machine State (Board Unit) :=
      ⟨{ regs := { pc, sp := 0xC010, d := 0x12, e := 0x3F, f := 0x80, ime, ie := 1, iflag := 1 } },
        ⟨⟨[workbench], ()⟩, {}, {}⟩⟩
    let twice (m : Machine State (Board Unit)) := (advance w 4 (advance w 4 m).2).2.core.regs
    twice (start 0x41 false) =
        { (start 0x43 false).core.regs with a := 0x12, f := 0x30 } ∧
      twice (start 0x43 false) = (start 0x46 false).core.regs ∧
      twice (start 0x1234 true) = { (start 0x1234 true).core.regs with iflag := 0 } := by
  intro w start twice
  have room : Room (Board.cells (δ := Unit) 0 (· ∈ [0xC00E, 0xC00F])) 0xC010 :=
    ⟨⟨List.mem_of_elem_eq_true rfl, by decide, by decide⟩,
      ⟨List.mem_of_elem_eq_true rfl, by decide, by decide⟩⟩
  have spares (line : OutputLine) (asserted : Bool) :
      (Board.cells (δ := Unit) 0 (· ∈ [0xC00E, 0xC00F])).Spares (w.sink line asserted) :=
    Board.cells_spare fun _ => rfl
  have trips (pc : UInt16) (ime : Bool) := stack_round_trips (m := start pc ime)
    (Board.cells_behind 0 _ workbench.config) spares workbench_hold ⟨rfl, nofun, rfl⟩
    (show (0x80 : UInt8) &&& 0x0F = 0 by decide) room 4 ⟨rfl, fun _ => id⟩ 4
  obtain ⟨copies, -, -⟩ := trips 0x41 false
  obtain ⟨-, comes_back, -⟩ := trips 0x43 false
  obtain ⟨-, -, resumes⟩ := trips 0x1234 true
  have target : operandWord w (start 0x43 false) = 0x46 := by decide +kernel
  obtain ⟨-, -, copied, -⟩ := copies .de .af (by decide +kernel) (by decide +kernel)
  obtain ⟨-, -, back⟩ := comes_back .call 3 0x46 (.retIf .zero) (by decide +kernel)
    (target ▸ .call) (by decide +kernel) (.retIf (by decide +kernel))
  obtain ⟨_, _, -, -, resumed⟩ := resumes rfl rfl rfl (by decide +kernel) (by decide +kernel)
  exact ⟨copied.trans (by decide +kernel), back.trans (by decide +kernel),
    resumed.trans (by decide +kernel)⟩

end Microboard.Sm83
