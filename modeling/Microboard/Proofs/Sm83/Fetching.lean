import Microboard.Proofs.Listings
import Microboard.Proofs.Sm83.Switches
import Microboard.Sm83.Disassembly

/-!
# SM83 instruction fetches

How many bytes an instruction has is written down twice: as the length of its operation, which
listings go by, and in what the operation fetches while it is performed. The two agree. An operation
takes its operand before it does anything else on the bus, and what it does from then on cannot be a
fetch: either it leaves the program counter alone, which then stands after the operand, or it is a
transfer, whose few further bus cycles are known.

- **§1** Lengths of decoded operations.
- **§2** Fetches in the order of the listing.
- **§3** What an operation does once it has its operand.
- **§4** Whole instructions, and actions that run one.
-/

namespace Microboard.Sm83

variable {σ : Type}

/-! ## §1 Lengths -/

/-- An operation of the first page is as long as its opcode and its operand. -/
theorem length_decode : ∀ opcode < 256, decode (UInt8.ofNat opcode) ≠ .secondPage →
    (decode (UInt8.ofNat opcode)).length = (decode (UInt8.ofNat opcode)).operands + 1 := by
  decide +kernel

theorem length_decodeSecond : ∀ opcode < 256, (decodeSecond (UInt8.ofNat opcode)).length = 2 ∧
    (decodeSecond (UInt8.ofNat opcode)).operands = 0 := by
  decide +kernel

/-- Operations of the second page take nothing after their opcodes. -/
theorem decodeSecond_alone (opcode : UInt8) :
    (decodeSecond opcode).length = 2 ∧ (decodeSecond opcode).operands = 0 := by
  have alone := length_decodeSecond opcode.toNat opcode.toNat_lt
  rwa [UInt8.ofNat_toNat] at alone

/-- The second byte of an instruction matters only on the second page. -/
theorem decodeBytes_first {opcode : UInt8} (first : decode opcode ≠ .secondPage) (next : UInt8) :
    decodeBytes opcode next = decode opcode := by
  unfold decodeBytes
  split
  next second => exact absurd second first
  · rfl

theorem decodeBytes_second {opcode : UInt8} (second : decode opcode = .secondPage)
    (next : UInt8) : decodeBytes opcode next = decodeSecond next := by
  unfold decodeBytes
  rw [second]

/-! ## §2 Fetch order -/

/-- Bus on which the core reaches the unit at an address. -/
def fetchRole (address : UInt32) : BusRole :=
  if address = ieAddress.toUInt32 ∨ address = ifAddress.toUInt32 then .internal else .program

theorem fetchRole_program {address : UInt16} (enable : address ≠ ieAddress)
    (request : address ≠ ifAddress) : fetchRole address.toUInt32 = .program := by
  have apart (other : UInt16) (ne : address ≠ other) : address.toUInt32 ≠ other.toUInt32 :=
    fun eq => ne (UInt16.toNat_inj.mp (congrArg UInt32.toNat eq))
  exact if_neg (not_or.mpr ⟨apart _ enable, apart _ request⟩)

theorem nextPc_toUInt32 (pc : UInt16) : listing.nextPc pc.toUInt32 = (pc + 1).toUInt32 := by
  have small := pc.toNat_lt
  apply UInt32.toNat_inj.mp
  show ((pc.toUInt32 + 1) &&& 0xFFFF).toNat = _
  rw [UInt32.toNat_and, UInt32.toNat_add, UInt16.toNat_toUInt32, UInt16.toNat_toUInt32,
    UInt16.toNat_add]
  show (pc.toNat + 1) % 2 ^ 32 &&& 2 ^ 16 - 1 = (pc.toNat + 1) % 2 ^ 16
  rw [Nat.and_two_pow_sub_one_eq_mod]
  omega

/-- The bus cycle of a read. -/
def readCycle (address : UInt16) (value : UInt8) : BusCycle :=
  ⟨fetchRole address.toUInt32, .read, .byte, address.toUInt32, value⟩

/-- A read is one bus cycle and leaves the registers alone. -/
theorem read8_bus (w : Wiring σ) (address : UInt16) (m : Machine State σ) :
    (read8 w address m).2.core.bus =
        m.core.bus ++ [readCycle address (read8 w address m).1] ∧
      (read8 w address m).2.core.regs = m.core.regs ∧
      (read8 w address m).2.core.haltBug = m.core.haltBug := by
  by_cases enable : address = ieAddress
  · subst enable
    exact ⟨rfl, rfl, rfl⟩
  by_cases request : address = ifAddress
  · subst request
    exact ⟨rfl, rfl, rfl⟩
  · unfold read8 readCycle
    rw [fetchRole_program enable request, eval_ite, if_neg enable, eval_ite, if_neg request]
    exact ⟨rfl, rfl, rfl⟩

/-- A write is one bus cycle and leaves the program counter alone. -/
theorem write8_bus (w : Wiring σ) (address : UInt16) (value : UInt8) (m : Machine State σ) :
    (∃ role, (write8 w address value m).2.core.bus =
        m.core.bus ++ [⟨role, .write, .byte, address.toUInt32, value⟩]) ∧
      (write8 w address value m).2.core.regs.pc = m.core.regs.pc := by
  unfold write8
  rw [eval_ite, eval_ite]
  split
  · exact ⟨⟨.internal, rfl⟩, rfl⟩
  · split
    · exact ⟨⟨.internal, rfl⟩, rfl⟩
    · exact ⟨⟨.program, rfl⟩, rfl⟩

/-- The core has taken some bytes from an address on, and nothing else has happened on the bus. -/
structure Fetching (pc : UInt32) (sp : UInt16) (bytes : List UInt8) (m : Machine State σ) :
    Prop where
  bus : m.core.bus = listing.fetches fetchRole pc bytes
  pc : m.core.regs.pc.toUInt32 = listing.advance pc bytes.length
  sp : m.core.regs.sp = sp

/-- Some bytes and after them `count` further ones were taken before anything else happened on the
bus. Something is said of what did happen then, and of where the program counter is. -/
def Took (pc : UInt32) (bytes : List UInt8) (count : Nat) (P : List BusCycle → UInt16 → Prop)
    (m : Machine State σ) : Prop :=
  ∃ operand rest, operand.length = count ∧
    m.core.bus = listing.fetches fetchRole pc (bytes ++ operand) ++ rest ∧ P rest m.core.regs.pc

/-- One bus cycle more. -/
theorem Took.observe {pc : UInt32} {bytes : List UInt8} {count : Nat}
    {P P' : List BusCycle → UInt16 → Prop} {m m' : Machine State σ} (took : Took pc bytes count P m)
    {cycle : BusCycle} (bus : m'.core.bus = m.core.bus ++ [cycle])
    (holds : ∀ rest, P rest m.core.regs.pc → P' (rest ++ [cycle]) m'.core.regs.pc) :
    Took pc bytes count P' m' := by
  obtain ⟨operand, rest, length, before, said⟩ := took
  exact ⟨operand, rest ++ [cycle], length, by rw [bus, before, List.append_assoc], holds rest said⟩

section Fetches

variable {w : Wiring σ} {pc : UInt32} {sp : UInt16} {bytes : List UInt8}

theorem fetch8_fetching :
    Ensures (Fetching pc sp bytes) (fetch8 w) fun byte => Fetching pc sp (bytes ++ [byte]) := by
  intro m fetching
  obtain ⟨bus, regs, -⟩ := read8_bus w m.core.regs.pc m
  refine ⟨?_, ?_, ?_⟩
  · show (read8 w m.core.regs.pc m).2.core.bus = _
    rw [bus, fetching.bus, Listing.fetches_concat, readCycle, fetching.pc]
    rfl
  · show ((read8 w m.core.regs.pc m).2.core.regs.pc + 1).toUInt32 = _
    rw [regs, List.length_append, List.length_singleton, Listing.advance_succ, ← fetching.pc,
      nextPc_toUInt32]
  · show (read8 w m.core.regs.pc m).2.core.regs.sp = sp
    rw [regs, fetching.sp]

/-- What was fetched as an operand was taken. -/
theorem Fetching.took (operand : List UInt8) {m : Machine State σ}
    (fetching : Fetching pc sp (bytes ++ operand) m) {P : List BusCycle → UInt16 → Prop}
    (holds : m.core.regs.pc.toUInt32 = listing.advance pc (bytes.length + operand.length) →
      P [] m.core.regs.pc) :
    Took pc bytes operand.length P m := by
  refine ⟨operand, [], rfl, by rw [List.append_nil, fetching.bus], holds ?_⟩
  rw [fetching.pc, List.length_append]

/-- Nothing has happened on the bus but the fetches. -/
theorem fetch8_took {P : List BusCycle → UInt16 → Prop}
    (holds : ∀ here : UInt16, here.toUInt32 = listing.advance pc (bytes.length + 1) → P [] here) :
    Ensures (Fetching pc sp bytes) (fetch8 w) fun _ => Took pc bytes 1 P :=
  fetch8_fetching.weaken fun byte _ fetching => fetching.took [byte] (holds _)

theorem fetch16_took {P : List BusCycle → UInt16 → Prop}
    (holds : ∀ here : UInt16, here.toUInt32 = listing.advance pc (bytes.length + 2) → P [] here) :
    Ensures (Fetching pc sp bytes) (fetch16 w) fun _ => Took pc bytes 2 P := by
  refine .bind fetch8_fetching fun low => .bind fetch8_fetching fun high =>
    .pure fun m fetching => ?_
  rw [List.append_assoc] at fetching
  exact fetching.took [low, high] (holds _)

end Fetches

/-! ## §3 Operations -/

/-- Bus cycles of a return: two reads at the stack pointer, or none if it is not taken. -/
def Returns (sp : UInt16) (rest : List BusCycle) : Prop :=
  rest = [] ∨ ∃ low high, rest = [readCycle sp low, readCycle (sp + 1) high]

/-- What an operation does once it has its operand: the bus cycles that it makes then, and where it
leaves the program counter. Jumps make no bus cycle, calls only write, and returns only read the
stack. Any other operation leaves the program counter after its operand. -/
def Op.Ends (sp : UInt16) (next : UInt32) (op : Op) (rest : List BusCycle) (here : UInt16) : Prop :=
  match op with
  | .jr | .jrIf _ | .jp | .jpIf _ | .jpHl => rest = []
  | .call | .callIf _ | .rst _ => ∀ cycle ∈ rest, cycle.direction = .write
  | .ret | .reti | .retIf _ => Returns sp rest
  | _ => here.toUInt32 = next

theorem Op.ends_of_stays {op : Op} (stays : op.isTransfer = false) (sp : UInt16) (next : UInt32)
    (rest : List BusCycle) (here : UInt16) :
    op.Ends sp next rest here ↔ here.toUInt32 = next := by
  cases op with
  | jr | jrIf | jp | jpHl | jpIf | call | callIf | rst | ret | reti | retIf => cases stays
  | _ => exact Iff.rfl

section Operations

variable {w : Wiring σ} {pc : UInt32} {sp : UInt16} {bytes : List UInt8} {count : Nat}

/-- What says nothing of the bus is kept by everything that leaves the program counter alone. -/
theorem steady_took (w : Wiring σ) (P : UInt16 → Prop) :
    Steady w w (Both (Took pc bytes count fun _ here => P here)) where
  regs := by
    rintro m _ ⟨rfl, -⟩
    rfl
  change _ stays := Keeps.lockstep fun m ⟨operand, rest, length, bus, here⟩ =>
    ⟨operand, rest, length, bus, (stays m.core.regs).symm ▸ here⟩
  read8 address := Keeps.lockstep fun m took => by
    obtain ⟨bus, regs, -⟩ := read8_bus w address m
    exact took.observe bus fun _ here => regs ▸ here
  write8 address value := Keeps.lockstep fun m took => by
    obtain ⟨⟨role, bus⟩, same⟩ := write8_bus w address value m
    exact took.observe bus fun _ here => same ▸ here

/-- Jumps move nothing but the program counter. -/
theorem goTo_took {P : List BusCycle → Prop} (target : Registers → UInt16) :
    Keeps (Took pc bytes count fun rest _ => P rest)
      (modifyRegs (σ := σ) fun r => { r with pc := target r }) :=
  fun _ took => took

/-- Only writes have happened on the bus after the fetches. -/
abbrev Wrote (pc : UInt32) (bytes : List UInt8) (count : Nat) : Machine State σ → Prop :=
  Took pc bytes count fun rest _ => ∀ cycle ∈ rest, cycle.direction = .write

theorem write8_wrote (w : Wiring σ) (address : UInt16) (value : UInt8) :
    Keeps (Wrote pc bytes count) (write8 w address value) := by
  intro m wrote
  obtain ⟨⟨role, bus⟩, -⟩ := write8_bus w address value m
  refine wrote.observe bus fun rest writes cycle there => ?_
  rcases List.mem_append.mp there with earlier | now
  · exact writes cycle earlier
  · rw [List.mem_singleton.mp now]

theorem callTo_wrote (w : Wiring σ) (target : UInt16) :
    Keeps (Wrote pc bytes count) (callTo w target) := by
  have pushes (value : UInt8) : Keeps (Wrote pc bytes count) (push8 w value) :=
    .bind (fun _ wrote => wrote) fun _ => .bind (fun _ wrote => wrote) fun _ => write8_wrote w _ _
  exact .bind (fun _ wrote => wrote) fun regs =>
    .bind (.bind (pushes _) fun _ => pushes _) fun _ => goTo_took _

theorem pop8_bus (w : Wiring σ) (m : Machine State σ) :
    (pop8 w m).2.core.bus = m.core.bus ++ [readCycle m.core.regs.sp (pop8 w m).1] ∧
      (pop8 w m).2.core.regs.sp = m.core.regs.sp + 1 := by
  obtain ⟨bus, regs, -⟩ := read8_bus w m.core.regs.sp m
  exact ⟨bus, congrArg (·.sp + 1) regs⟩

/-- What a return reads. -/
theorem pop16_took (w : Wiring σ) :
    Ensures (Fetching pc sp bytes) (pop16 w) fun _ =>
      Took pc bytes 0 fun rest _ => Returns sp rest := by
  intro m fetching
  obtain ⟨low, moved⟩ := pop8_bus w m
  obtain ⟨high, -⟩ := pop8_bus w (pop8 w m).2
  refine ⟨[], [readCycle sp (pop8 w m).1, readCycle (sp + 1) (pop8 w (pop8 w m).2).1], rfl, ?_,
    .inr ⟨_, _, rfl⟩⟩
  show (pop8 w (pop8 w m).2).2.core.bus = _
  rw [high, moved, low, fetching.bus, fetching.sp, List.append_nil, List.append_assoc]
  rfl

/-- A branch that is not taken does nothing more. -/
theorem branchIf_took {P : Machine State σ → Prop} {Q : Machine State σ → Prop}
    {branch : Exec σ Unit} (condition : Condition) (taken : Ensures P branch fun _ => Q)
    (passed : ∀ m, P m → Q m) : Ensures P (branchIf condition branch) fun _ => Q :=
  .keepsBind (fun _ holds => holds) fun _ =>
    .ite (fun _ => .bind taken fun _ => .pure fun _ holds => holds) fun _ => .pure passed

/-- An operation without a condition ends as what it does. -/
theorem always_took {P : Machine State σ → Prop} {Q : Machine State σ → Prop} {act : Exec σ Unit}
    (ends : Ensures P act fun _ => Q) : Ensures P (always act) fun _ => Q :=
  .bind ends fun _ => .pure fun _ holds => holds

theorem enterHalt_took (w : Wiring σ) (stopped : Bool) {P : List BusCycle → UInt16 → Prop} :
    Keeps (Took pc bytes count P) (enterHalt w stopped) :=
  .bind (fun _ took => took) fun _ => .bind (.bind (fun _ took => took) fun _ _ took => took)
    fun _ _ took => took

/-- An operation that takes no operand. -/
theorem Fetching.alone {P : List BusCycle → UInt16 → Prop} {m : Machine State σ}
    (fetching : Fetching pc sp bytes m)
    (holds : m.core.regs.pc.toUInt32 = listing.advance pc bytes.length → P [] m.core.regs.pc) :
    Took pc bytes 0 P m :=
  Fetching.took [] (by rwa [List.append_nil]) holds

/-- An operation that is neither a switch nor a transfer leaves the program counter after its
operand. -/
theorem perform_stays (w : Wiring σ) {op : Op} (plain : op.isSwitch = false)
    (stays : op.isTransfer = false) :
    Ensures (Fetching pc sp bytes) (perform w op) fun _ => Took pc bytes op.operands fun _ here =>
      here.toUInt32 = listing.advance pc (bytes.length + op.operands) := by
  refine ((steady_took w _).perform plain stays ?_ ?_ ?_).ensures
  · rintro none m _ ⟨rfl, fetching⟩
    rw [none]
    exact ⟨rfl, fetching.alone id⟩
  · intro one
    rw [one]
    exact (fetch8_took fun _ => id).leads
  · intro two
    rw [two]
    exact (fetch16_took fun _ => id).leads

/-- An operation takes its operand first, and ends as it should. -/
theorem perform_took (w : Wiring σ) (op : Op) :
    Ensures (Fetching pc sp bytes) (perform w op) fun _ =>
      Took pc bytes op.operands (op.Ends sp (listing.advance pc (bytes.length + op.operands))) := by
  have byte (P : List BusCycle → Prop) (holds : P []) :
      Ensures (Fetching pc sp bytes) (fetch8 w) fun _ => Took pc bytes 1 fun rest _ => P rest :=
    fetch8_took fun _ _ => holds
  have word (P : List BusCycle → Prop) (holds : P []) :
      Ensures (Fetching pc sp bytes) (fetch16 w) fun _ => Took pc bytes 2 fun rest _ => P rest :=
    fetch16_took fun _ _ => holds
  cases op with
  -- jumps
  | jr => exact always_took (.bind (byte (· = []) rfl) fun _ => goTo_took _)
  | jrIf condition =>
    exact .bind (byte (· = []) rfl) fun _ =>
      branchIf_took condition (goTo_took _) fun _ took => took
  | jp => exact always_took (.bind (word (· = []) rfl) fun _ => goTo_took _)
  | jpIf condition =>
    exact .bind (word (· = []) rfl) fun _ =>
      branchIf_took condition (goTo_took _) fun _ took => took
  | jpHl => exact always_took fun m fetching => goTo_took _ m (fetching.alone fun _ => rfl)
  -- calls
  | call =>
    exact always_took (.bind (word (∀ cycle ∈ ·, cycle.direction = .write) nofun) fun target =>
      callTo_wrote w target)
  | callIf condition =>
    exact .bind (word (∀ cycle ∈ ·, cycle.direction = .write) nofun) fun target =>
      branchIf_took condition (callTo_wrote w target) fun _ took => took
  | rst vector =>
    exact always_took fun m fetching => callTo_wrote w _ m (fetching.alone fun _ => nofun)
  -- returns
  | ret => exact always_took (.bind (pop16_took w) fun _ => goTo_took _)
  | retIf condition =>
    exact branchIf_took condition (.bind (pop16_took w) fun _ => goTo_took _) fun m fetching =>
      fetching.alone fun _ => .inl rfl
  | reti =>
    exact always_took (.bind (pop16_took w) fun _ => .keepsBind (goTo_took _) fun _ _ took => took)
  -- switches
  | stop =>
    refine always_took (.bind (fun m fetching => ?_) fun _ => enterHalt_took w true)
    exact fetch8_took (w := w) (fun _ => id) m fetching
  | halt =>
    refine always_took (.keepsBind (fun _ fetching => fetching) fun _ =>
      .ite (fun _ m fetching => ?_) fun _ m fetching => ?_)
    · exact fetching.alone id
    · exact enterHalt_took w false m (fetching.alone id)
  | di | ei => exact always_took fun m fetching => fetching.alone id
  | _ => exact perform_stays w rfl rfl

end Operations

/-! ## §4 Instructions -/

/-- The operation of some bytes. -/
def operation (bytes : List UInt8) : Op := decodeBytes (bytes.getD 0 0) (bytes.getD 1 0)

theorem Op.length_range (op : Op) : 1 ≤ op.length ∧ op.length ≤ 3 := by
  cases op <;> simp [Op.length]

/-- What is added to the bytes of an instruction does not change its operation. -/
theorem operation_append {bytes : List UInt8} (whole : (operation bytes).length = bytes.length)
    (more : List UInt8) : operation (bytes ++ more) = operation bytes := by
  rcases bytes with _ | ⟨opcode, _ | ⟨next, rest⟩⟩
  · have pos := (operation []).length_range.1
    rw [whole] at pos
    contradiction
  · -- a single byte is not the one that leads to the second page
    have first : decode opcode ≠ .secondPage := by
      intro second
      have two : (operation [opcode]).length = 2 := by
        rw [operation, List.getD_cons_zero, decodeBytes_second second]
        exact (decodeSecond_alone _).1
      simp [two] at whole
    unfold operation
    rw [List.singleton_append, List.getD_cons_zero, List.getD_cons_zero, decodeBytes_first first,
      decodeBytes_first first]
  · rfl

theorem sized : listing.Sized fun bytes => (operation bytes).length where
  bytes _ _ := rfl
  pos bytes := (operation bytes).length_range.1
  bounded bytes := (operation bytes).length_range.2
  append whole more := (congrArg Op.length (operation_append whole more)).trans whole
  address pc _ := by
    show (pc + 1 &&& 0xFFFF) &&& 0xFFFF = pc + 1 &&& 0xFFFF
    rw [UInt32.and_assoc, UInt32.and_self]

/-- What an instruction at an address has done on the bus, and where it has left the program
counter: it has first taken bytes that are listed as one instruction, and then ended as its
operation does. -/
def Instructed (pc : UInt32) (sp : UInt16) (m : Machine State σ) : Prop :=
  ∃ bytes rest, listing.Whole pc bytes ∧
    m.core.bus = listing.fetches fetchRole pc bytes ++ rest ∧
    (operation bytes).Ends sp (listing.advance pc bytes.length) rest m.core.regs.pc

section Instructions

variable {w : Wiring σ} {pc : UInt32} {sp : UInt16} {opcode : UInt8}

/-- An opcode selects an operation, together with the bytes that follow it, if it needs any for
that. The operation is as long as these and its operand. -/
structure Selects (opcode : UInt8) (more : List UInt8) (op : Op) : Prop where
  decodes : ∀ operand, operation (opcode :: (more ++ operand)) = op
  length : op.length = more.length + op.operands + 1

theorem selects_first (first : decode opcode ≠ .secondPage) :
    Selects opcode [] (decode opcode) where
  decodes _ := decodeBytes_first first _
  length := by
    have length := length_decode opcode.toNat opcode.toNat_lt
    rw [UInt8.ofNat_toNat] at length
    rw [length first, List.length_nil, Nat.zero_add]

theorem selects_second (page : decode opcode = .secondPage) (second : UInt8) :
    Selects opcode [second] (decodeSecond second) where
  decodes _ := decodeBytes_second page _
  length := by
    obtain ⟨length, alone⟩ := decodeSecond_alone second
    rw [length, alone]
    rfl

/-- An instruction whose opcode is fetched selects its operation, which takes its operand. -/
theorem execute_took (w : Wiring σ) {bytes : List UInt8} :
    Ensures (Fetching pc sp bytes) (execute w (decode opcode)) fun _ m => ∃ more op,
      Selects opcode more op ∧ Took pc (bytes ++ more) op.operands
        (op.Ends sp (listing.advance pc ((bytes ++ more).length + op.operands))) m := by
  have performs {bytes : List UInt8} (op : Op) :
      Ensures (Fetching pc sp bytes) (performCosted w op) fun _ => Took pc bytes op.operands
        (op.Ends sp (listing.advance pc (bytes.length + op.operands))) :=
    .bind (perform_took w op) fun _ => .pure fun _ took => took
  refine .ite (fun page => ?_) fun first => ?_
  · refine .bind fetch8_fetching fun second => ?_
    exact (performs (decodeSecond second)).weaken fun _ _ took =>
      ⟨[second], _, selects_second page second, took⟩
  · refine (performs (decode opcode)).weaken fun _ _ took => ⟨[], _, selects_first first, ?_⟩
    rw [List.append_nil]
    exact took

/-- Bytes that select an operation, and its operand, are those of an instruction. -/
theorem Took.instructed {op : Op} {more : List UInt8} {m : Machine State σ}
    (selects : Selects opcode more op) (took : Took pc ([opcode] ++ more) op.operands
      (op.Ends sp (listing.advance pc (([opcode] ++ more).length + op.operands))) m) :
    Instructed pc sp m := by
  obtain ⟨operand, rest, count, bus, ends⟩ := took
  have total : ([opcode] ++ more ++ operand).length = ([opcode] ++ more).length + op.operands := by
    rw [List.length_append, count]
  have decodes : operation ([opcode] ++ more ++ operand) = op := selects.decodes operand
  refine ⟨[opcode] ++ more ++ operand, rest, ?_, bus, ?_⟩
  · rw [sized.whole_iff, decodes, selects.length, total, List.length_append, List.length_singleton]
    omega
  · rw [decodes, total]
    exact ends

theorem execute_instructed (w : Wiring σ) :
    Ensures (Fetching pc sp [opcode]) (execute w (decode opcode)) fun _ => Instructed pc sp :=
  (execute_took w).weaken fun _ _ ⟨_, _, selects, took⟩ => took.instructed selects

/-- What an instruction does once its opcode is fetched is told by its operation, as far as the bus
and the registers go. -/
theorem runFetched_leaves {P Q : Machine State σ → Prop} (w : Wiring σ) (pc : UInt16)
    (aside : ∀ m m', m'.core.bus = m.core.bus → m'.core.regs = m.core.regs → Q m → Q m')
    (refused : decode opcode = .illegal → ∀ m, P m → Q m)
    (executes : Ensures P (execute w (decode opcode)) fun _ => Q) :
    Ensures P (runFetched w pc opcode) fun _ => Q := by
  have retires (cost : Nat) : Ensures Q (retire w pc opcode cost) fun _ => Q := by
    intro m holds
    obtain ⟨totalCycles, diagnostics, core⟩ := retire_core w pc opcode cost m
    exact aside m _ (by rw [core]) (by rw [core]) holds
  refine .ite (fun illegal => ?_) fun _ => ?_
  · -- an illegal opcode is counted and recorded, whatever is made of it
    refine .bind (V := fun _ => Q) (fun m holds => ?_) fun _ => .keepsBind ?_ fun _ => ?_
    · exact aside m _ rfl rfl (refused illegal m holds)
    · exact fun m holds => aside m _ rfl rfl holds
    · dsimp only
      cases w.config.policy with
      | fatal =>
        exact .keepsBind (fun m holds => aside m _ rfl rfl holds) fun _ =>
          .pure fun _ holds => holds
      | nop => exact .mapped (retires _)
  · exact .bind executes fun cost => .mapped (retires cost)

theorem runFetched_instructed (w : Wiring σ) (at_ : UInt16) :
    Ensures (Fetching pc sp [opcode]) (runFetched w at_ opcode) fun _ => Instructed pc sp := by
  refine runFetched_leaves w at_ ?_ ?_ (execute_instructed w)
  · intro m m' bus regs instructed
    unfold Instructed
    rw [bus, regs]
    exact instructed
  · -- an illegal opcode is an instruction of one byte
    intro illegal m fetching
    have first : decode opcode ≠ .secondPage := by simp [illegal]
    refine Took.instructed (selects_first first) ?_
    rw [illegal]
    exact fetching.alone id

theorem fetchOpcode_fetching (w : Wiring σ) :
    Ensures (fun m => Fetching pc sp [] m ∧ m.core.haltBug = false) (fetchOpcode w)
      fun opcode => Fetching pc sp [opcode] := by
  rintro m ⟨fetching, bug⟩
  obtain ⟨bus, regs, bug'⟩ := read8_bus w m.core.regs.pc m
  have fetched : (fetchOpcode w m).2.core = _ := if_neg (Bool.eq_false_iff.mp (bug'.trans bug))
  have here : m.core.regs.pc.toUInt32 = pc := fetching.pc
  refine ⟨?_, ?_, ?_⟩
  · rw [fetched]
    show (read8 w m.core.regs.pc m).2.core.bus = _
    rw [bus, fetching.bus, readCycle, here]
    rfl
  · rw [fetched]
    show ((read8 w m.core.regs.pc m).2.core.regs.pc + 1).toUInt32 = listing.nextPc pc
    rw [regs, ← here, nextPc_toUInt32]
  · rw [fetched]
    show (read8 w m.core.regs.pc m).2.core.regs.sp = sp
    rw [regs, fetching.sp]

theorem runInstruction_instructed (w : Wiring σ) :
    Ensures (fun m => Fetching pc sp [] m ∧ m.core.haltBug = false) (runInstruction w)
      fun _ => Instructed pc sp := by
  rintro m ⟨fetching, bug⟩
  rw [runInstruction_eq]
  exact runFetched_instructed w _ _ (fetchOpcode_fetching w (begun m)
    ⟨⟨fetching.bus, fetching.pc, fetching.sp⟩, bug⟩)

/-- The core has looked at its lines and is about to run an instruction. It is not halted, no
interrupt is due, and its program counter will move on with the next fetch. -/
structure State.Proceeds (s : State) : Prop where
  running : s.exec ≠ .halted
  undisturbed : s.eiDelay = true ∨ s.regs.nextInterrupt? = none
  moves : s.haltBug = false

instance (s : State) : Decidable s.Proceeds :=
  decidable_of_iff (s.exec ≠ .halted ∧ (s.eiDelay = true ∨ s.regs.nextInterrupt? = none) ∧
      s.haltBug = false)
    ⟨fun ⟨running, undisturbed, moves⟩ => ⟨running, undisturbed, moves⟩,
      fun ⟨running, undisturbed, moves⟩ => ⟨running, undisturbed, moves⟩⟩

/-- An action that runs an instruction. -/
theorem advance_instructed {m : Machine State σ} (awake : m.core.exec.latchedFault? = none)
    (released : Released w m) (proceeds : (sample w m).2.core.Proceeds) (remaining : Nat) :
    RunsAt m.core.regs.pc (advance w remaining m).1 ∧
      Instructed m.core.regs.pc.toUInt32 m.core.regs.sp (advance w remaining m).2 := by
  have bus := (sample_found released).2.1
  obtain ⟨pc, sp⟩ : (sample w m).2.core.regs.pc = m.core.regs.pc ∧
      (sample w m).2.core.regs.sp = m.core.regs.sp := by
    obtain ⟨-, regs, -⟩ := sampleReset_released (m := unobserved m) released
    rw [sample_eq, latchRequests_eq]
    dsimp only
    rw [regs]
    exact ⟨rfl, rfl⟩
  rw [advance_sampled awake released, eval_bind]
  obtain ⟨halted, -⟩ | ⟨-, acts | ⟨source, -, prompt, found, -⟩⟩ :=
    act_cases w remaining (sample w m).1 (sample w m).2
  · exact absurd halted proceeds.running
  · rw [acts, ← pc, ← sp]
    let begins : Machine State σ :=
      ⟨{ (sample w m).2.core with eiDelay := false }, (sample w m).2.world⟩
    have fetching : Fetching (sample w m).2.core.regs.pc.toUInt32 (sample w m).2.core.regs.sp []
        begins := ⟨bus, rfl, rfl⟩
    exact ⟨runInstruction_runsAt w begins,
      runInstruction_instructed w begins ⟨fetching, proceeds.moves⟩⟩
  · rcases proceeds.undisturbed with delayed | none
    · exact nomatch prompt.symm.trans delayed
    · exact nomatch found.symm.trans none

end Instructions

end Microboard.Sm83
