import Mathlib.Data.Nat.Digits.Defs
import Microboard.Proofs.Ucom4.Skipping

/-!
# uCOM-4 decimal addition

Decimal digits are added one at a time by `DAA`, `ADS` and `DAS`. The first adds six in advance, so
that a sum of ten or more overflows the accumulator. If it does, `ADS` skips what follows it; if it
does not, `DAS` takes the six away again.

- **§1** What an instruction that only reads leaves alone.
- **§2** The three instructions.
- **§3** One column of digits.
- **§4** Sums of any number of columns.
-/

namespace Microboard.Ucom4

variable {σ : Type} {w : Wiring σ} {m m' : Machine State σ}

/-! ## §1 Reading -/

/-- What is said of the devices stays true while programs and data RAM are read and wait states are
taken. -/
structure Wiring.Lasts (w : Wiring σ) (P : σ → Prop) : Prop where
  program : ∀ address devices, P devices → P (w.program.readUnit address devices).state
  data : ∀ address devices, P devices → P (w.data.readUnit address devices).state
  waits : ∀ devices, P devices → P (w.drained devices)

theorem Wiring.Lasts.instruction {P : σ → Prop} (lasts : w.Lasts P) (pc : UInt16) {devices : σ}
    (holds : P devices) : P (w.instruction pc devices).state := by
  rw [instruction_apply]
  dsimp only
  split
  · exact lasts.program _ _ (lasts.program _ _ holds)
  · exact lasts.program _ _ holds

/-- The core has come from one machine to another, where it has certain registers, but for the flags
of interrupt and timer, and a certain skip. On the way it has only read. -/
structure Arrives (w : Wiring σ) (m : Machine State σ) (regs : Registers) (skip : Bool)
    (m' : Machine State σ) : Prop where
  regs : ∃ intFlag timerFlag, m'.core.regs = { regs with intFlag, timerFlag }
  skip : m'.core.skip = skip
  reads : ∀ cycle ∈ m'.core.bus, cycle.direction = .read
  lasts : ∀ P, w.Lasts P → P m.world.devices → P m'.world.devices

/-- An action that ran an instruction which only reads. -/
structure Ran (w : Wiring σ) (m : Machine State σ) (regs : Registers) (skip : Bool)
    (after : Except Fault StepOutcome × Machine State σ) : Prop
    extends Arrives w m regs skip after.2 where
  retired : ∃ cycles, after.1 = .ok (.retired m.core.regs.pc.toUInt32 cycles)
  exec : after.2.core.exec = .fetching

section Reading

variable {regs : Registers} {skip : Bool} {opcode : UInt8}

theorem Geometry.fetchCycles_reads (g : Geometry) (bytes : List UInt8) (pc : UInt16) :
    ∀ cycle ∈ g.fetchCycles pc bytes, cycle.direction = .read := by
  induction bytes generalizing pc with
  | nil => simp [fetchCycles]
  | cons byte bytes ih =>
    unfold fetchCycles
    exact List.forall_mem_cons.mpr ⟨rfl, ih _⟩

theorem Arrives.retire (arrives : Arrives w m regs skip m') (cost : Nat) :
    Ran w m regs skip (Prod.map .ok id (retire w m.core.regs.pc opcode cost m')) := by
  obtain ⟨⟨intFlag, timerFlag, same⟩, skips, reads, lasts⟩ := arrives
  obtain ⟨log, ended⟩ := retire_eq w m.core.regs.pc opcode cost m'
  rw [ended]
  let dial := m'.core.dial.after (w.waits m'.world.devices).toNat
  refine ⟨⟨⟨intFlag, dial.out, ?_⟩, skips, reads, fun P stays holds => ?_⟩, ⟨_, rfl⟩, rfl⟩
  · show { m'.core.regs with timerFlag := dial.out } = _
    rw [same]
  · exact stays.waits _ (lasts P stays holds)

/-- An instruction of one byte that only reads. -/
theorem Executes.ran (executes : Executes w m [opcode]) {operation : Op}
    (decoded : decode w.geometry.family opcode = ⟨operation, 1, 1⟩) (legal : operation ≠ .illegal)
    (performs : ∀ argument begins,
      Arrives w m { m.core.regs with pc := w.geometry.nextAddress m.core.regs.pc } false begins →
      begins.world.devices = (w.instruction m.core.regs.pc m.world.devices).state →
      Arrives w m regs skip (perform w argument operation begins).2) (remaining : Nat) :
    Ran w m regs skip (advance w remaining m) := by
  obtain ⟨lines, log, runs⟩ := executes.performs decoded legal remaining
  let s := State.executing w m [opcode]
  let begins : Machine State σ := ⟨s.withDial (s.dial.after 1),
    (w.instruction m.core.regs.pc m.world.devices).state, lines, log⟩
  have performed : advance w remaining m = Prod.map .ok id
    (retire w m.core.regs.pc opcode 1 (perform w s.argument operation begins).2) := runs
  have equation : s = _ := executing_eq executes.released [opcode]
  have began :
      Arrives w m { m.core.regs with pc := w.geometry.nextAddress m.core.regs.pc } false begins := by
    refine ⟨⟨flagFound w m, (s.dial.after 1).out, ?regs⟩, ?skip, ?reads, ?lasts⟩
    case regs =>
      show { s.regs with timerFlag := (s.dial.after 1).out } = _
      rw [equation]
      rfl
    case skip =>
      show s.skip = false
      rw [equation]
      exact executes.runs
    case reads =>
      show ∀ cycle ∈ s.bus, cycle.direction = .read
      rw [equation]
      exact w.geometry.fetchCycles_reads [opcode] m.core.regs.pc
    case lasts => exact fun P stays holds => stays.instruction _ holds
  rw [performed]
  exact (performs s.argument begins began rfl).retire 1

end Reading

/-! ## §2 Instructions -/

/-- An instruction that adds a constant to the accumulator. -/
theorem Executes.adjusts {opcode : UInt8} (executes : Executes w m [opcode]) {operation : Op}
    (decoded : decode w.geometry.family opcode = ⟨operation, 1, 1⟩) (legal : operation ≠ .illegal)
    {constant : UInt8}
    (adds : ∀ argument, perform w argument operation =
      modifyRegs fun r => r.setAcc (r.acc + constant)) (remaining : Nat) :
    Ran w m
      { m.core.regs with
        pc := w.geometry.nextAddress m.core.regs.pc
        acc := nibble (m.core.regs.acc + constant) }
      false (advance w remaining m) := by
  refine executes.ran decoded legal (fun argument begins arrives _ => ?_) remaining
  obtain ⟨⟨intFlag, timerFlag, same⟩, skips, reads, lasts⟩ := arrives
  rw [adds]
  refine ⟨⟨intFlag, timerFlag, ?_⟩, skips, reads, lasts⟩
  show begins.core.regs.setAcc (begins.core.regs.acc + constant) = _
  rw [same]
  rfl

theorem decode_daa (family : Family) : decode family 0x06 = ⟨.daa, 1, 1⟩ := by
  cases family <;> rfl

theorem decode_ads (family : Family) : decode family 0x09 = ⟨.ads, 1, 1⟩ := by
  cases family <;> rfl

theorem decode_das (family : Family) : decode family 0x0A = ⟨.das, 1, 1⟩ := by
  cases family <;> rfl

theorem Executes.daa (executes : Executes w m [0x06]) (remaining : Nat) :
    Ran w m
      { m.core.regs with
        pc := w.geometry.nextAddress m.core.regs.pc
        acc := nibble (m.core.regs.acc + 6) }
      false (advance w remaining m) :=
  executes.adjusts (decode_daa _) nofun (fun _ => rfl) remaining

theorem Executes.das (executes : Executes w m [0x0A]) (remaining : Nat) :
    Ran w m
      { m.core.regs with
        pc := w.geometry.nextAddress m.core.regs.pc
        acc := nibble (m.core.regs.acc + 10) }
      false (advance w remaining m) :=
  executes.adjusts (decode_das _) nofun (fun _ => rfl) remaining

theorem perform_ads (w : Wiring σ) (argument : UInt8) (m : Machine State σ) :
    let address := m.core.regs.ramAddress w.geometry
    let read := World.perform (w.data.readUnit address) m.world
    let sum := nibble read.1 + m.core.regs.acc + m.core.regs.carry.toUInt8
    (perform w argument .ads m).2 =
      ⟨{ m.core with
          regs := { m.core.regs with acc := nibble sum, carry := sum &&& 0x10 != 0 }
          skip := sum &&& 0x10 != 0
          bus := m.core.bus ++ [⟨.data, .read, .byte, address, read.1⟩] }, read.2⟩ := rfl

/-- What an instruction without argument reads from the cell under the data pointer. -/
def cell (w : Wiring σ) (m : Machine State σ) : UInt8 :=
  let fetch := w.instruction m.core.regs.pc m.world.devices
  nibble (w.data.readUnit (m.core.regs.ramAddress w.geometry) fetch.state).value

/-- What `ADS` makes of the accumulator and the carry, before it is cut to four bits. -/
def carrySum (w : Wiring σ) (m : Machine State σ) : UInt8 :=
  cell w m + m.core.regs.acc + m.core.regs.carry.toUInt8

theorem Executes.ads (executes : Executes w m [0x09]) (remaining : Nat) :
    let carry := carrySum w m &&& 0x10 != 0
    Ran w m
      { m.core.regs with
        pc := w.geometry.nextAddress m.core.regs.pc
        acc := nibble (carrySum w m)
        carry }
      carry (advance w remaining m) := by
  refine executes.ran (decode_ads _) nofun (fun argument begins arrives devices => ?_) remaining
  obtain ⟨⟨intFlag, timerFlag, same⟩, -, reads, lasts⟩ := arrives
  have performed := perform_ads w argument begins
  have sum : nibble (World.perform (w.data.readUnit (begins.core.regs.ramAddress w.geometry))
      begins.world).1 + begins.core.regs.acc + begins.core.regs.carry.toUInt8 = carrySum w m := by
    show nibble (w.data.readUnit _ begins.world.devices).value + _ + _ = _
    rw [same, devices]
    rfl
  dsimp only at performed
  rw [sum] at performed
  rw [performed]
  refine ⟨⟨intFlag, timerFlag, ?regs⟩, rfl, ?reads, fun P stays holds => ?lasts⟩
  case regs =>
    show { begins.core.regs with
      acc := nibble (carrySum w m), carry := carrySum w m &&& 0x10 != 0 } = _
    rw [same]
  case reads => exact List.forall_mem_append.mpr ⟨reads, List.forall_mem_singleton.mpr rfl⟩
  case lasts => exact stays.data _ _ (lasts P stays holds)

/-- An instruction of one byte that is skipped. -/
theorem Fetches.skipped {opcode : UInt8} (fetches : Fetches w m [opcode])
    (awake : m.core.exec.latchedFault? = none) (skips : m.core.skip = true) (remaining : Nat) :
    Ran w m { m.core.regs with pc := w.geometry.nextAddress m.core.regs.pc } false
      (advance w remaining m) := by
  obtain ⟨-, answer, core, devices⟩ :=
    advance_skipping (w := w) m.core m.world skips awake fetches.released remaining
  rw [fetches.fetched] at answer core
  refine ⟨⟨⟨flagFound w m, _, congrArg State.regs core⟩, congrArg State.skip core, ?reads, ?lasts⟩,
    ⟨_, answer⟩, congrArg (fun s : State => s.exec) core⟩
  case reads =>
    rw [show (advance w remaining m).2.core.bus = _ from congrArg (fun s : State => s.bus) core]
    exact w.geometry.fetchCycles_reads [opcode] m.core.regs.pc
  case lasts =>
    intro P stays holds
    rw [devices]
    exact stays.waits _ (stays.instruction _ holds)

/-! ## §3 Columns -/

theorem toNat_nibble (value : UInt8) : (nibble value).toNat = value.toNat % 16 := by
  unfold nibble
  rw [UInt8.toNat_and]
  exact Nat.and_two_pow_sub_one_eq_mod _ 4

/-- The fifth bit of a sum of nibbles is its carry. -/
theorem carries_iff {sum : UInt8} (bound : sum.toNat < 32) :
    (sum &&& 0x10 != 0) = decide (16 ≤ sum.toNat) := by
  have table : ∀ n < 32, (UInt8.ofNat n &&& 0x10 != 0) = decide (16 ≤ n) := by decide
  have entry := table sum.toNat bound
  rwa [UInt8.ofNat_toNat] at entry

/-- The six in advance and both digits fit in the sum, which is sixteen or more exactly if the digits
and the carry add up to ten or more. -/
theorem toNat_biased {acc cell : UInt8} (left : acc.toNat ≤ 9) (right : cell.toNat ≤ 9)
    (carry : Bool) :
    (cell + nibble (acc + 6) + carry.toUInt8).toNat =
      acc.toNat + cell.toNat + carry.toNat + 6 := by
  have biased : (nibble (acc + 6)).toNat = acc.toNat + 6 := by
    rw [toNat_nibble, UInt8.toNat_add]
    show (acc.toNat + 6) % 256 % 16 = _
    omega
  have one : carry.toUInt8.toNat = carry.toNat := by cases carry <;> rfl
  have most := carry.toNat_le
  rw [UInt8.toNat_add, UInt8.toNat_add, biased, one]
  omega

/-- Three actions of a core. -/
structure Column (σ : Type) where
  /-- The core before them. -/
  start : Machine State σ
  /-- What is left of the budget at each of them. -/
  first : Nat
  second : Nat
  third : Nat

namespace Column

/-- The core after `DAA`. -/
def biased (w : Wiring σ) (column : Column σ) : Machine State σ :=
  (advance w column.first column.start).2

/-- The core after `ADS`. -/
def summed (w : Wiring σ) (column : Column σ) : Machine State σ :=
  (advance w column.second (column.biased w)).2

/-- The core after `DAS`, executed or skipped. -/
def stop (w : Wiring σ) (column : Column σ) : Machine State σ :=
  (advance w column.third (column.summed w)).2

/-- Two digits are in place, and the three instructions are what the actions will fetch: at none of
them an interrupt is due or the reset line active. -/
structure Ready (w : Wiring σ) (column : Column σ) (x y : Nat) : Prop where
  daa : Executes w column.start [0x06]
  ads : Fetches w (column.biased w) [0x09]
  das : Fetches w (column.summed w) [0x0A]
  left : column.start.core.regs.acc.toNat = x
  right : (cell w (column.biased w)).toNat = y
  left_le : x ≤ 9
  right_le : y ≤ 9

/-- The actions have all run an instruction and have left a digit in the accumulator. -/
structure Yields (w : Wiring σ) (column : Column σ) (digit : Nat) : Prop where
  acc : (column.stop w).core.regs.acc.toNat = digit
  skip : (column.stop w).core.skip = false
  /-- The program counter has passed three instructions. Other registers than the accumulator and
  the carry are as before, the data pointer among them, but for the flags of interrupt and timer. -/
  regs : ∃ intFlag timerFlag, (column.stop w).core.regs =
    { column.start.core.regs with
      pc := w.geometry.nextAddress^[3] column.start.core.regs.pc
      acc := (column.stop w).core.regs.acc
      carry := (column.stop w).core.regs.carry
      intFlag
      timerFlag }
  retired : ∃ a b c,
    let pc := column.start.core.regs.pc
    let next := w.geometry.nextAddress
    (advance w column.first column.start).1 = .ok (.retired pc.toUInt32 a) ∧
      (advance w column.second (column.biased w)).1 = .ok (.retired (next pc).toUInt32 b) ∧
      (advance w column.third (column.summed w)).1 = .ok (.retired (next (next pc)).toUInt32 c)
  /-- Nothing is written, to data RAM or elsewhere. -/
  reads : ∀ m ∈ [column.biased w, column.summed w, column.stop w],
    ∀ cycle ∈ m.core.bus, cycle.direction = .read
  /-- What reading does not change is as before, such as the contents of data RAM. -/
  lasts : ∀ P, w.Lasts P → P column.start.world.devices → P (column.stop w).world.devices

/-- The last of the three actions takes the six away again, unless there was a carry. -/
theorem Ready.last {column : Column σ} {x y : Nat} (ready : column.Ready w x y) {sum : UInt8}
    (total : sum.toNat = x + y + column.start.core.regs.carry.toNat + 6) {regs : Registers}
    (second : Ran w (column.biased w) regs (sum &&& 0x10 != 0)
      (advance w column.second (column.biased w))) (cut : regs.acc = nibble sum) :
    ∃ acc,
      Ran w (column.summed w)
        { (column.summed w).core.regs with
          pc := w.geometry.nextAddress (column.summed w).core.regs.pc
          acc }
        false (advance w column.third (column.summed w)) ∧
      acc.toNat < 10 ∧ acc.toNat + 10 * (sum &&& 0x10 != 0).toNat =
        x + y + column.start.core.regs.carry.toNat := by
  have most := column.start.core.regs.carry.toNat_le
  have left := ready.left_le
  have right := ready.right_le
  have bound : sum.toNat < 32 := by omega
  have carries := carries_iff bound
  have awake : (column.summed w).core.exec.latchedFault? = none :=
    congrArg ExecState.latchedFault? second.exec
  have acc : (column.summed w).core.regs.acc = nibble sum := by
    obtain ⟨intFlag, timerFlag, same⟩ := second.regs
    exact (congrArg Registers.acc same).trans cut
  by_cases large : 16 ≤ sum.toNat
  -- the carry takes sixteen from the sum, six of which were not its own
  · have skips : (column.summed w).core.skip = true := by
      rw [show (column.summed w).core.skip = _ from second.skip, carries, decide_eq_true large]
    refine ⟨_, ready.das.skipped awake skips column.third, ?_⟩
    rw [acc, toNat_nibble, carries, decide_eq_true large, Bool.toNat_true]
    omega
  -- without a carry the six are still there; ten more make a carry that is lost
  · have runs : (column.summed w).core.skip = false := by
      rw [show (column.summed w).core.skip = _ from second.skip, carries, decide_eq_false large]
    refine ⟨_, Executes.das ⟨ready.das, awake, runs⟩ column.third, ?_⟩
    rw [acc, toNat_nibble, UInt8.toNat_add, toNat_nibble, carries, decide_eq_false large,
      Bool.toNat_false]
    show (sum.toNat % 16 + 10) % 256 % 16 < 10 ∧ (sum.toNat % 16 + 10) % 256 % 16 + 10 * 0 = _
    omega

/-- One column: the digit that it leaves and its carry are those of the sum of its digits. -/
theorem Ready.yields {column : Column σ} {x y : Nat} (ready : column.Ready w x y) :
    ∃ digit < 10, column.Yields w digit ∧
      digit + 10 * (column.stop w).core.regs.carry.toNat =
        x + y + column.start.core.regs.carry.toNat := by
  have first := ready.daa.daa column.first
  have awake : (column.biased w).core.exec.latchedFault? = none :=
    congrArg ExecState.latchedFault? first.exec
  have second := Executes.ads ⟨ready.ads, awake, first.skip⟩ column.second
  obtain ⟨intFlag₁, timerFlag₁, regs₁⟩ := first.regs
  change (column.biased w).core.regs = _ at regs₁
  let sum := carrySum w (column.biased w)
  have total : sum.toNat = x + y + column.start.core.regs.carry.toNat + 6 := by
    obtain ⟨-, -, -, rfl, rfl, left, right⟩ := ready
    unfold sum carrySum
    rw [regs₁]
    exact toNat_biased left right _
  obtain ⟨acc, third, small, value⟩ := ready.last total second rfl
  obtain ⟨intFlag₂, timerFlag₂, regs₂⟩ := second.regs
  change (column.summed w).core.regs = _ at regs₂
  obtain ⟨intFlag₃, timerFlag₃, regs₃⟩ := third.regs
  change (column.stop w).core.regs = _ at regs₃
  have stop : (column.stop w).core.regs =
      { column.start.core.regs with
        pc := w.geometry.nextAddress^[3] column.start.core.regs.pc
        acc
        carry := sum &&& 0x10 != 0
        intFlag := intFlag₃
        timerFlag := timerFlag₃ } := by
    rw [regs₃, regs₂, regs₁]
    rfl
  refine ⟨acc.toNat, small, ⟨?acc, third.skip, ?regs, ?retired, ?reads, ?lasts⟩, ?value⟩
  case acc => rw [stop]
  case regs =>
    rw [stop]
    exact ⟨intFlag₃, timerFlag₃, rfl⟩
  case retired =>
    obtain ⟨a, retired₁⟩ := first.retired
    obtain ⟨b, retired₂⟩ := second.retired
    obtain ⟨c, retired₃⟩ := third.retired
    rw [regs₁] at retired₂
    rw [regs₂, regs₁] at retired₃
    exact ⟨a, b, c, retired₁, retired₂, retired₃⟩
  case reads =>
    rw [List.forall_mem_cons, List.forall_mem_cons, List.forall_mem_singleton]
    exact ⟨first.reads, second.reads, third.reads⟩
  case lasts =>
    exact fun P stays holds => third.lasts P stays (second.lasts P stays (first.lasts P stays holds))
  case value =>
    rw [stop]
    exact value

end Column

/-! ## §4 Sums -/

/-- Columns of digits, the least significant first. Each starts with the carry that the one before
it has left; the first and the last carry are those of the whole. -/
inductive Columns (w : Wiring σ) : Bool → List Nat → List Nat → List (Column σ) → Bool → Prop where
  | nil (carry : Bool) : Columns w carry [] [] [] carry
  | cons {carry last : Bool} {x y : Nat} {xs ys : List Nat} {column : Column σ}
      {columns : List (Column σ)} :
      column.Ready w x y → column.start.core.regs.carry = carry →
      Columns w (column.stop w).core.regs.carry xs ys columns last →
      Columns w carry (x :: xs) (y :: ys) (column :: columns) last

/-- Digits are added column by column, from the least significant on, with `DAA`, `ADS` and `DAS` in
each column. What is left in the accumulator column by column are the digits of the sum, and the
last carry says whether there is a further one. -/
theorem columns_sum {carry last : Bool} {xs ys : List Nat} {columns : List (Column σ)}
    (added : Columns w carry xs ys columns last) :
    let sum := Nat.ofDigits 10 xs + Nat.ofDigits 10 ys + carry.toNat
    (xs.length = columns.length ∧ ys.length = columns.length) ∧
      (∀ i (inside : i < columns.length), columns[i].Yields w (sum / 10 ^ i % 10)) ∧
      (last = true ↔ 10 ^ columns.length ≤ sum) := by
  induction added with
  | nil carry => cases carry <;> simp
  | @cons carry last x y xs ys column columns ready starts _ ih =>
    obtain ⟨digit, small, yields, value⟩ := ready.yields
    obtain ⟨⟨left, right⟩, digits, overflow⟩ := ih
    rw [starts] at value
    -- what the other columns add up, with the carry of this one
    let rest := Nat.ofDigits 10 xs + Nat.ofDigits 10 ys + (column.stop w).core.regs.carry.toNat
    have sum : Nat.ofDigits 10 (x :: xs) + Nat.ofDigits 10 (y :: ys) + carry.toNat =
        digit + 10 * rest := by
      rw [Nat.ofDigits_cons, Nat.ofDigits_cons]
      omega
    have shifted : (digit + 10 * rest) / 10 = rest := by omega
    dsimp only
    rw [sum]
    refine ⟨⟨congrArg (· + 1) left, congrArg (· + 1) right⟩, fun i inside => ?_, ?_⟩
    · cases i with
      | zero =>
        rw [Nat.pow_zero, Nat.div_one, show (digit + 10 * rest) % 10 = digit by omega]
        exact yields
      | succ i =>
        rw [Nat.pow_succ', ← Nat.div_div_eq_div_mul, shifted]
        exact digits i (Nat.lt_of_succ_lt_succ inside)
    · rw [overflow, List.length_cons, Nat.pow_succ']
      change 10 ^ columns.length ≤ rest ↔ _
      omega

/-- 927 and 335 are added: the first and the last column carry and skip, the one between does not. -/
theorem columns_sum_three :
    let space (name : String) (addressWidth width : Nat) (contents : List UInt32) : Space Unit :=
      { config := ⟨name, addressWidth, width, .little⟩
        read := fun _ address _ => ⟨contents.getD address.toNat 0, (), []⟩
        write := fun _ _ _ _ => ⟨(), (), []⟩
        takeWaitStates := fun _ => (0, ()) }
    let w : Wiring Unit :=
      { config := { part := .upd552 }
        program := space "program" 10 8 [0x06, 0x09, 0x0A]
        data := space "data" 6 4 [5, 3, 3]
        io := space "io" 4 4 []
        number := 0 }
    let column (x i : UInt8) (carry : Bool) : Column Unit :=
      ⟨⟨{ regs := { acc := x, dpl := i, carry } }, ⟨(), { latches := [.released 2] }, {}⟩⟩, 1, 1, 1⟩
    let columns := [column 7 0 false, column 2 1 true, column 9 2 false]
    Columns w false [7, 2, 9] [5, 3, 3] columns true ∧
      (∀ i (inside : i < 3), columns[i].Yields w (1262 / 10 ^ i % 10)) ∧
      10 ^ columns.length ≤ 927 + 335 := by
  intro space w column columns
  have first : (column 7 0 false).Ready w 7 5 := by
    refine ⟨?_, ?_, ?_, ?_, ?_, ?_, ?_⟩ <;> decide +kernel
  have second : (column 2 1 true).Ready w 2 3 := by
    refine ⟨?_, ?_, ?_, ?_, ?_, ?_, ?_⟩ <;> decide +kernel
  have third : (column 9 2 false).Ready w 9 3 := by
    refine ⟨?_, ?_, ?_, ?_, ?_, ?_, ?_⟩ <;> decide +kernel
  have last : ((column 9 2 false).stop w).core.regs.carry = true := by decide +kernel
  have ends : Columns w ((column 9 2 false).stop w).core.regs.carry [] [] [] true := by
    rw [last]
    exact .nil true
  have added : Columns w false [7, 2, 9] [5, 3, 3] columns true :=
    .cons first rfl (.cons second (by decide +kernel) (.cons third (by decide +kernel) ends))
  obtain ⟨-, digits, overflow⟩ := columns_sum added
  exact ⟨added, digits, overflow.mp rfl⟩

end Microboard.Ucom4
