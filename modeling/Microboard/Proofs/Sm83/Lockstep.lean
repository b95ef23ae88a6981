import Microboard.Proofs.Lockstep
import Microboard.Sm83.Execute

/-!
# SM83 instructions in lockstep

- **§1** What instructions do to the registers apart from the interrupt registers.
- **§2** Relations that are respected as long as the program counter stays where it is.
- **§3** Relations that are respected wherever it moves, and those that are also respected when the
  core halts or switches its interrupts.
- **§4** Every instruction respects what the elementary operations respect.
-/

namespace Microboard.Sm83

variable {σ τ : Type}

/-! ## §1 Changes of the registers -/

/-- The bits of `F` and `IF` that do not exist are clear. -/
structure Registers.Sound (r : Registers) : Prop where
  f : r.f &&& flagsMask = r.f
  iflag : r.iflag &&& interruptMask = r.iflag

/-- A change that leaves `IE`, `IF` and the master enable alone and sets no bit of `F` that does
not exist. -/
structure Registers.Plain (change : Registers → Registers) : Prop where
  ie : ∀ r, (change r).ie = r.ie
  iflag : ∀ r, (change r).iflag = r.iflag
  ime : ∀ r, (change r).ime = r.ime
  f : ∀ r, r.f &&& flagsMask = r.f → (change r).f &&& flagsMask = (change r).f

namespace Registers

theorem masked_twice (value mask : UInt8) : value &&& mask &&& mask = value &&& mask := by
  rw [UInt8.and_assoc, UInt8.and_self]

/-- A change of registers that none of the special ones depends on. -/
theorem Plain.keeping {change : Registers → Registers}
    (keeps : ∀ r, (change r).f = r.f ∧ (change r).ie = r.ie ∧ (change r).iflag = r.iflag ∧
      (change r).ime = r.ime) : Plain change where
  ie r := (keeps r).2.1
  iflag r := (keeps r).2.2.1
  ime r := (keeps r).2.2.2
  f r sound := by rw [(keeps r).1]; exact sound

/-- A change that ends by setting the flags. -/
theorem Plain.flagging {change : Registers → Registers} {flags : Registers → UInt8}
    (keeps : ∀ r, (change r).ie = r.ie ∧ (change r).iflag = r.iflag ∧ (change r).ime = r.ime) :
    Plain fun r => (change r).setF (flags r) where
  ie r := (keeps r).1
  iflag r := (keeps r).2.1
  ime r := (keeps r).2.2
  f _ _ := masked_twice _ _

theorem plain_setPair (value : Registers → UInt16) (target : Pair) :
    Plain fun r => r.setPair (value r) target := by
  apply Plain.keeping
  intro r
  cases target <;> exact ⟨rfl, rfl, rfl, rfl⟩

theorem plain_setStackPair (value : UInt16) (target : StackPair) :
    Plain fun r => r.setStackPair value target := by
  cases target with
  | af => exact ⟨fun _ => rfl, fun _ => rfl, fun _ => rfl, fun _ _ => masked_twice _ _⟩
  | bc | de | hl => exact .keeping fun _ => ⟨rfl, rfl, rfl, rfl⟩

end Registers

/-! ## §2 Operations beside the program counter -/

/-- A relation between machines that an instruction respects as long as it leaves the program
counter alone. -/
structure Steady (w : Wiring σ) (w' : Wiring τ)
    (R : Machine State σ → Machine State τ → Prop) : Prop where
  /-- Related machines have the same registers. -/
  regs : ∀ {m m'}, R m m' → m.core.regs = m'.core.regs
  change : ∀ {change}, Registers.Plain change → (∀ r, (change r).pc = r.pc) →
    Lockstep R (modifyRegs change) (modifyRegs change)
  read8 : ∀ address, Lockstep R (read8 w address) (read8 w' address)
  write8 : ∀ address value, Lockstep R (write8 w address value) (write8 w' address value)

namespace Steady

variable {w : Wiring σ} {w' : Wiring τ} {R : Machine State σ → Machine State τ → Prop}

/-- A change of registers other than `F`, the program counter and those of the interrupts. -/
theorem set (steady : Steady w w' R) {change : Registers → Registers}
    (keeps : ∀ r, (change r).f = r.f ∧ (change r).ie = r.ie ∧ (change r).iflag = r.iflag ∧
      (change r).ime = r.ime) (stays : ∀ r, (change r).pc = r.pc) :
    Lockstep R (modifyRegs change) (modifyRegs change) :=
  steady.change (.keeping keeps) stays

/-- A change of registers that ends by setting the flags. -/
theorem setFlags (steady : Steady w w' R) {change : Registers → Registers}
    {flags : Registers → UInt8}
    (keeps : ∀ r, (change r).ie = r.ie ∧ (change r).iflag = r.iflag ∧ (change r).ime = r.ime)
    (stays : ∀ r, (change r).pc = r.pc) :
    Lockstep R (modifyRegs fun r => (change r).setF (flags r))
      (modifyRegs fun r => (change r).setF (flags r)) :=
  steady.change (.flagging keeps) stays

/-- Both sides read the same registers. -/
theorem getRegs (steady : Steady w w' R) : Lockstep R Sm83.getRegs Sm83.getRegs :=
  fun _ _ related => ⟨steady.regs related, related⟩

theorem push8 (steady : Steady w w' R) (value : UInt8) :
    Lockstep R (push8 w value) (push8 w' value) := by
  refine .bind (steady.set (fun _ => ⟨rfl, rfl, rfl, rfl⟩) fun _ => rfl) fun _ => ?_
  exact .bind steady.getRegs fun regs => steady.write8 regs.sp value

theorem pop8 (steady : Steady w w' R) : Lockstep R (pop8 w) (pop8 w') := by
  refine .bind steady.getRegs fun regs => .bind (steady.read8 regs.sp) fun value => ?_
  exact .bind (steady.set (fun _ => ⟨rfl, rfl, rfl, rfl⟩) fun _ => rfl) fun _ => .pure value

theorem push16 (steady : Steady w w' R) (value : UInt16) :
    Lockstep R (push16 w value) (push16 w' value) :=
  .bind (steady.push8 _) fun _ => steady.push8 _

theorem pop16 (steady : Steady w w' R) : Lockstep R (pop16 w) (pop16 w') :=
  .bind steady.pop8 fun _ => .bind steady.pop8 fun _ => .pure _

theorem getOperand (steady : Steady w w' R) (operand : Operand) :
    Lockstep R (getOperand w operand) (getOperand w' operand) := by
  cases operand with
  | atHl => exact .bind steady.getRegs fun regs => steady.read8 regs.hl
  | a | b | c | d | e | h | l => exact .bind steady.getRegs fun _ => .pure _

theorem setOperand (steady : Steady w w' R) (operand : Operand) (value : UInt8) :
    Lockstep R (setOperand w operand value) (setOperand w' operand value) := by
  cases operand with
  | atHl => exact .bind steady.getRegs fun regs => steady.write8 regs.hl value
  | a | b | c | d | e | h | l =>
    exact steady.set (fun _ => ⟨rfl, rfl, rfl, rfl⟩) fun _ => rfl

theorem setAccumulator (steady : Steady w w' R) (result : UInt8 × UInt8) :
    Lockstep R (setAccumulator result) (setAccumulator result) :=
  steady.setFlags (fun _ => ⟨rfl, rfl, rfl⟩) fun _ => rfl

theorem updateOperand (steady : Steady w w' R) (operand : Operand)
    (op : UInt8 → UInt8 → UInt8 × UInt8) :
    Lockstep R (updateOperand w operand op) (updateOperand w' operand op) := by
  refine .bind (steady.getOperand operand) fun value => .bind steady.getRegs fun regs => ?_
  refine .bind (steady.setOperand operand _) fun _ => ?_
  exact steady.setFlags (fun _ => ⟨rfl, rfl, rfl⟩) fun _ => rfl

theorem setPair (steady : Steady w w' R) (value : Registers → UInt16) (target : Pair) :
    Lockstep R (modifyRegs fun r => r.setPair (value r) target)
      (modifyRegs fun r => r.setPair (value r) target) :=
  steady.change (Registers.plain_setPair value target) fun _ => by cases target <;> rfl

theorem setStackPair (steady : Steady w w' R) (value : UInt16) (target : StackPair) :
    Lockstep R (modifyRegs fun r => r.setStackPair value target)
      (modifyRegs fun r => r.setStackPair value target) :=
  steady.change (Registers.plain_setStackPair value target) fun _ => by cases target <;> rfl

theorem branchIf (steady : Steady w w' R) (condition : Condition) {act : Exec σ Unit}
    {act' : Exec τ Unit} (inStep : Lockstep R act act') :
    Lockstep R (branchIf condition act) (branchIf condition act') :=
  .bind steady.getRegs fun _ => .ite (fun _ => .bind inStep fun _ => .pure _) fun _ => .pure _

theorem followPointer (steady : Steady w w' R) (pointer : Pointer) :
    Lockstep R (followPointer pointer) (followPointer pointer) := by
  intro m m' related
  -- the new registers are computed from the old ones, so the write is a change in place
  have step (m : Machine State σ) : Sm83.followPointer pointer m =
      ((m.core.regs.follow pointer).1, (Sm83.modifyRegs (fun r => (r.follow pointer).2) m).2) := rfl
  have step' (m : Machine State τ) : Sm83.followPointer pointer m =
      ((m.core.regs.follow pointer).1, (Sm83.modifyRegs (fun r => (r.follow pointer).2) m).2) := rfl
  have keeps (r : Registers) : (r.follow pointer).2.f = r.f ∧ (r.follow pointer).2.ie = r.ie ∧
      (r.follow pointer).2.iflag = r.iflag ∧ (r.follow pointer).2.ime = r.ime := by
    cases pointer <;> exact ⟨rfl, rfl, rfl, rfl⟩
  have stays (r : Registers) : (r.follow pointer).2.pc = r.pc := by cases pointer <;> rfl
  rw [step, step', steady.regs related]
  exact ⟨rfl, (steady.set keeps stays m m' related).2⟩

end Steady

/-! ## §3 Elementary operations -/

/-- A relation between machines that an instruction respects as long as it neither halts the core
nor switches its interrupts. -/
structure Moves (w : Wiring σ) (w' : Wiring τ)
    (R : Machine State σ → Machine State τ → Prop) : Prop where
  /-- Related machines have the same registers. -/
  regs : ∀ {m m'}, R m m' → m.core.regs = m'.core.regs
  change : ∀ {change}, Registers.Plain change → Lockstep R (modifyRegs change) (modifyRegs change)
  read8 : ∀ address, Lockstep R (read8 w address) (read8 w' address)
  write8 : ∀ address value, Lockstep R (write8 w address value) (write8 w' address value)

namespace Moves

variable {w : Wiring σ} {w' : Wiring τ} {R : Machine State σ → Machine State τ → Prop}

theorem steady (moves : Moves w w' R) : Steady w w' R where
  regs := moves.regs
  change plain _ := moves.change plain
  read8 := moves.read8
  write8 := moves.write8

/-- A move of the program counter. -/
theorem goTo (moves : Moves w w' R) (target : Registers → UInt16) :
    Lockstep R (modifyRegs fun r => { r with pc := target r })
      (modifyRegs fun r => { r with pc := target r }) :=
  moves.change (.keeping fun _ => ⟨rfl, rfl, rfl, rfl⟩)

theorem fetch8 (moves : Moves w w' R) : Lockstep R (fetch8 w) (fetch8 w') := by
  refine .bind moves.steady.getRegs fun regs => .bind (moves.read8 regs.pc) fun value => ?_
  exact .bind (moves.goTo _) fun _ => .pure value

theorem fetch16 (moves : Moves w w' R) : Lockstep R (fetch16 w) (fetch16 w') :=
  .bind moves.fetch8 fun _ => .bind moves.fetch8 fun _ => .pure _

theorem jumpTo (moves : Moves w w' R) (target : UInt16) :
    Lockstep R (jumpTo target) (jumpTo target) :=
  moves.goTo fun _ => target

theorem jumpRelative (moves : Moves w w' R) (offset : UInt8) :
    Lockstep R (jumpRelative offset) (jumpRelative offset) :=
  moves.goTo _

theorem callTo (moves : Moves w w' R) (target : UInt16) :
    Lockstep R (callTo w target) (callTo w' target) :=
  .bind moves.steady.getRegs fun _ => .bind (moves.steady.push16 _) fun _ => moves.jumpTo target

end Moves

/-- A relation between machines that the elementary operations of instructions respect. -/
structure Respects (w : Wiring σ) (w' : Wiring τ)
    (R : Machine State σ → Machine State τ → Prop) : Prop extends Moves w w' R where
  enable : Lockstep R (modifyRegs ({ · with ime := true })) (modifyRegs ({ · with ime := true }))
  disable : Lockstep R
    (modifyState fun s => { s with regs := { s.regs with ime := false }, eiDelay := false })
    (modifyState fun s => { s with regs := { s.regs with ime := false }, eiDelay := false })
  enableLater : Lockstep R
    (modifyState fun s => { s with regs := { s.regs with ime := true }, eiDelay := true })
    (modifyState fun s => { s with regs := { s.regs with ime := true }, eiDelay := true })
  repeatFetch : Lockstep R
    (modifyState ({ · with haltBug := true })) (modifyState ({ · with haltBug := true }))
  enterHalt : ∀ stopped, Lockstep R (enterHalt w stopped) (enterHalt w' stopped)

/-! ## §4 Instructions -/

/-- Operations that halt the core or switch its interrupts. -/
def Op.isSwitch : Op → Bool
  | .stop | .halt | .di | .ei | .reti => true
  | _ => false

/-- Jumps, calls and returns. -/
def Op.isTransfer : Op → Bool
  | .jr | .jrIf _ | .jp | .jpHl | .jpIf _ | .call | .callIf _ | .rst _ | .ret | .reti
  | .retIf _ => true
  | _ => false

/-- Bytes that an operation takes after its opcode. -/
def Op.operands : Op → Nat
  | .loadPair _ | .storeSp | .jp | .jpIf _ | .call | .callIf _ | .storeAbsolute
  | .loadAbsolute => 2
  | .stop | .jr | .jrIf _ | .loadImmediate _ | .aluImmediate _ | .storeHigh | .loadHigh | .addSp
  | .loadHlSp => 1
  | _ => 0

theorem lockstep_always {R : Machine State σ → Machine State τ → Prop} {act : Exec σ Unit}
    {act' : Exec τ Unit} (inStep : Lockstep R act act') : Lockstep R (always act) (always act') :=
  .bind inStep fun _ => .pure _

section Instructions

variable {w : Wiring σ} {w' : Wiring τ} {R : Machine State σ → Machine State τ → Prop}

/-- Once an operation that is neither a switch nor a transfer has taken its operand, it leaves the
program counter alone. -/
theorem Steady.perform {S : Machine State σ → Machine State τ → Prop} (steady : Steady w w' S)
    {op : Op} (plain : op.isSwitch = false) (stays : op.isTransfer = false)
    (none : op.operands = 0 → ∀ m m', R m m' → S m m')
    (byte : op.operands = 1 → Leads R S (fetch8 w) (fetch8 w'))
    (word : op.operands = 2 → Leads R S (fetch16 w) (fetch16 w')) :
    Leads R S (perform w op) (perform w' op) := by
  have get := steady.getRegs
  have alone {act : Exec σ Bool} {act' : Exec τ Bool} (implies : ∀ m m', R m m' → S m m')
      (inStep : Lockstep S act act') : Leads R S act act' :=
    fun m m' related => inStep m m' (implies m m' related)
  have always_ {act : Exec σ Unit} {act' : Exec τ Unit} (leads : Leads R S act act') :
      Leads R S (always act) (always act') := leads.bind fun _ => .pure _
  cases op with
  | stop | halt | di | ei | reti => cases plain
  | jr | jrIf | jp | jpHl | jpIf | call | callIf | rst | ret | retIf => cases stays
  | loadPair target =>
    exact always_ ((word rfl).bind fun value => steady.setPair (fun _ => value) target)
  | storeSp =>
    refine always_ ((word rfl).bind fun address => .bind get fun regs => ?_)
    exact .bind (steady.write8 address _) fun _ => steady.write8 (address + 1) _
  | loadImmediate target =>
    exact always_ ((byte rfl).bind fun value => steady.setOperand target value)
  | aluImmediate op =>
    exact always_ ((byte rfl).bind fun _ => .bind get fun _ => steady.setAccumulator _)
  | storeHigh =>
    refine always_ ((byte rfl).bind fun offset => .bind get fun regs => ?_)
    exact steady.write8 (highAddress offset) regs.a
  | loadHigh =>
    refine always_ ((byte rfl).bind fun offset => ?_)
    exact .bind (steady.read8 (highAddress offset)) fun _ =>
      steady.set (fun _ => ⟨rfl, rfl, rfl, rfl⟩) fun _ => rfl
  | storeAbsolute =>
    refine always_ ((word rfl).bind fun address => .bind get fun regs => ?_)
    exact steady.write8 address regs.a
  | loadAbsolute =>
    refine always_ ((word rfl).bind fun address => .bind (steady.read8 address) ?_)
    exact fun _ => steady.set (fun _ => ⟨rfl, rfl, rfl, rfl⟩) fun _ => rfl
  | addSp | loadHlSp =>
    refine always_ ((byte rfl).bind fun _ => ?_)
    exact steady.setFlags (fun _ => ⟨rfl, rfl, rfl⟩) fun _ => rfl
  -- the other operations take no operand
  | nop | illegal | secondPage => exact alone (none rfl) (.pure _)
  | storeA pointer =>
    refine alone (none rfl) (lockstep_always ?_)
    exact .bind (steady.followPointer pointer) fun address => .bind get fun regs =>
      steady.write8 address regs.a
  | loadA pointer =>
    refine alone (none rfl) (lockstep_always ?_)
    exact .bind (steady.followPointer pointer) fun address => .bind (steady.read8 address) fun _ =>
      steady.set (fun _ => ⟨rfl, rfl, rfl, rfl⟩) fun _ => rfl
  | incPair target | decPair target =>
    exact alone (none rfl) (lockstep_always (steady.setPair _ target))
  | addHl source =>
    refine alone (none rfl) (lockstep_always ?_)
    exact steady.setFlags (fun _ => ⟨rfl, rfl, rfl⟩) fun _ => rfl
  | inc target | dec target =>
    exact alone (none rfl) (lockstep_always (steady.updateOperand target _))
  | rlca | rrca | rla | rra | daa =>
    refine alone (none rfl) (lockstep_always ?_)
    exact .bind get fun _ => .bind get fun _ => steady.setAccumulator _
  | cpl | scf | ccf =>
    refine alone (none rfl) (lockstep_always ?_)
    exact steady.setFlags (fun _ => ⟨rfl, rfl, rfl⟩) fun _ => rfl
  | load target source =>
    refine alone (none rfl) (lockstep_always (.bind (steady.getOperand source) fun value => ?_))
    exact steady.setOperand target value
  | alu op source =>
    refine alone (none rfl) (lockstep_always (.bind (steady.getOperand source) fun value => ?_))
    exact .bind get fun regs => steady.setAccumulator _
  | pop target =>
    refine alone (none rfl) (lockstep_always (.bind steady.pop16 fun value => ?_))
    exact steady.setStackPair value target
  | push source =>
    refine alone (none rfl) (lockstep_always (.bind get fun regs => ?_))
    exact steady.push16 (regs.stackPair source)
  | storeHighC =>
    refine alone (none rfl) (lockstep_always (.bind get fun regs => ?_))
    exact steady.write8 (highAddress regs.c) regs.a
  | loadHighC =>
    refine alone (none rfl) (lockstep_always (.bind get fun regs => ?_))
    exact .bind (steady.read8 (highAddress regs.c)) fun _ =>
      steady.set (fun _ => ⟨rfl, rfl, rfl, rfl⟩) fun _ => rfl
  | loadSpHl =>
    refine alone (none rfl) (lockstep_always ?_)
    exact steady.set (fun _ => ⟨rfl, rfl, rfl, rfl⟩) fun _ => rfl
  | rotate op target => exact alone (none rfl) (lockstep_always (steady.updateOperand target _))
  | bit index source =>
    refine alone (none rfl) (lockstep_always (.bind (steady.getOperand source) fun value => ?_))
    exact steady.setFlags (fun _ => ⟨rfl, rfl, rfl⟩) fun _ => rfl
  | res index target | set index target =>
    refine alone (none rfl) (lockstep_always (.bind (steady.getOperand target) fun _ => ?_))
    exact steady.setOperand target _

/-- Every operation that is no switch respects what registers and bus respect. -/
theorem Moves.perform (moves : Moves w w' R) {op : Op} (plain : op.isSwitch = false) :
    Lockstep R (perform w op) (perform w' op) := by
  have steady := moves.steady
  cases op with
  | stop | halt | di | ei | reti => cases plain
  | jr => exact lockstep_always (.bind moves.fetch8 fun offset => moves.jumpRelative offset)
  | jrIf condition =>
    exact .bind moves.fetch8 fun offset => steady.branchIf condition (moves.jumpRelative offset)
  | jp => exact lockstep_always (.bind moves.fetch16 fun target => moves.jumpTo target)
  | jpHl => exact lockstep_always (moves.goTo _)
  | jpIf condition =>
    exact .bind moves.fetch16 fun target => steady.branchIf condition (moves.jumpTo target)
  | call => exact lockstep_always (.bind moves.fetch16 fun target => moves.callTo target)
  | callIf condition =>
    exact .bind moves.fetch16 fun target => steady.branchIf condition (moves.callTo target)
  | rst vector => exact lockstep_always (moves.callTo vector.toUInt16)
  | ret => exact lockstep_always (.bind steady.pop16 fun target => moves.jumpTo target)
  | retIf condition =>
    exact steady.branchIf condition (.bind steady.pop16 fun target => moves.jumpTo target)
  | _ =>
    exact steady.perform rfl rfl (fun _ _ _ related => related) (fun _ => moves.fetch8)
      fun _ => moves.fetch16

namespace Respects

theorem halt (respects : Respects w w' R) : Lockstep R (halt w) (halt w') :=
  .bind respects.steady.getRegs fun _ =>
    .ite (fun _ => respects.repeatFetch) fun _ => respects.enterHalt false

/-- Every operation respects what the elementary ones respect. -/
theorem perform (respects : Respects w w' R) (op : Op) :
    Lockstep R (perform w op) (perform w' op) := by
  have moves := respects.toMoves
  cases op with
  | stop => exact lockstep_always (.bind (.discard moves.fetch8) fun _ => respects.enterHalt true)
  | halt => exact lockstep_always respects.halt
  | di => exact lockstep_always respects.disable
  | ei => exact lockstep_always respects.enableLater
  | reti =>
    refine lockstep_always (.bind moves.steady.pop16 fun target => ?_)
    exact .bind (moves.jumpTo target) fun _ => respects.enable
  | _ => exact moves.perform rfl

theorem performCosted (respects : Respects w w' R) (op : Op) :
    Lockstep R (performCosted w op) (performCosted w' op) :=
  .bind (respects.perform op) fun _ => .pure _

/-- Every instruction respects what the elementary operations respect. -/
theorem execute (respects : Respects w w' R) (op : Op) :
    Lockstep R (execute w op) (execute w' op) :=
  .ite (fun _ => .bind respects.fetch8 fun opcode => respects.performCosted (decodeSecond opcode))
    fun _ => respects.performCosted op

end Respects

end Instructions

end Microboard.Sm83
