import Mathlib.Algebra.Group.Nat.Defs
import Microboard.Proofs.Lockstep
import Microboard.Ucom4.Execute

/-!
# uCOM-4 instructions in lockstep

- **§1** Registers of four bits, and what instructions do to the registers.
- **§2** Opcodes whose arguments matter.
- **§3** The elementary operations of an instruction, and relations that respect them.
- **§4** Every instruction respects what the elementary operations respect.

Two machines that run an instruction in lockstep need not agree on the call stack: only calls and
returns look at it, and these are elementary operations.
-/

namespace Microboard.Ucom4

variable {σ τ : Type}

/-! ## §1 Changes of the registers -/

/-- The value fits in four bits. -/
def Narrow (value : UInt8) : Prop := value.toNat < 16

instance (value : UInt8) : Decidable (Narrow value) := inferInstanceAs (Decidable (_ < _))

theorem narrow_nibble (value : UInt8) : Narrow (nibble value) := by
  unfold Narrow nibble
  rw [UInt8.toNat_and]
  exact Nat.lt_succ_of_le Nat.and_le_right

theorem Narrow.xor {a b : UInt8} (first : Narrow a) (second : Narrow b) : Narrow (a ^^^ b) := by
  unfold Narrow at *
  rw [UInt8.toNat_xor]
  exact Nat.xor_lt_two_pow (n := 4) first second

theorem Narrow.or {a b : UInt8} (first : Narrow a) (second : Narrow b) : Narrow (a ||| b) := by
  unfold Narrow at *
  rw [UInt8.toNat_or]
  exact Nat.or_lt_two_pow (n := 4) first second

theorem narrow_upper (value mask : UInt8) : Narrow (value >>> 4 &&& mask) := by
  have range := value.toNat_lt
  have cut : (value >>> 4 &&& mask).toNat ≤ (value >>> 4).toNat := by
    rw [UInt8.toNat_and]
    exact Nat.and_le_left
  have upper : (value >>> 4).toNat = value.toNat / 16 := by
    rw [UInt8.toNat_shiftRight]
    exact Nat.shiftRight_eq_div_pow _ 4
  unfold Narrow
  omega

/-- A nibble that is rotated to the right through a carry. -/
theorem narrow_rotated {acc : UInt8} (narrow : Narrow acc) (carry : Bool) :
    Narrow (acc >>> 1 ||| carry.toUInt8 <<< 3) := by
  refine .or ?_ ?_
  · unfold Narrow at *
    have half : (acc >>> 1).toNat = acc.toNat / 2 := by
      rw [UInt8.toNat_shiftRight]
      exact Nat.shiftRight_eq_div_pow _ 1
    omega
  · unfold Narrow
    cases carry <;> decide

/-- Accumulator and data pointer fit in four bits each. -/
structure Registers.Narrow (r : Registers) : Prop where
  acc : Ucom4.Narrow r.acc
  dpl : Ucom4.Narrow r.dpl
  dph : Ucom4.Narrow r.dph

/-- A change that has nothing to do with program counter, call stack, ports and interrupt requests
and keeps the registers of four bits so. -/
structure Registers.Plain (change : Registers → Registers) : Prop where
  keeps : ∀ r, (change r).pc = r.pc ∧ (change r).portOut = r.portOut ∧
    (change r).intFlag = r.intFlag
  stack : ∀ r stack, change { r with stack } = { change r with stack }
  narrow : ∀ r, r.Narrow → (change r).Narrow

/-- On a geometry that the interpreter can run, the address lies in the program space. -/
def Geometry.Reaches (g : Geometry) (address : UInt16) : Prop :=
  g.validate = .ok () → address &&& g.programMask = address

theorem Geometry.reaches_masked (g : Geometry) (address : UInt16) :
    g.Reaches (address &&& g.programMask) := by
  intro _
  rw [UInt16.and_assoc, UInt16.and_self]

theorem Geometry.checkField_ok {parameter : String} {value low high : Nat}
    (ok : checkField parameter value low high = .ok ()) : low ≤ value ∧ value ≤ high := by
  unfold checkField at ok
  split at ok
  · assumption
  · cases ok

/-- Each field of a geometry that the interpreter can run is in its range. -/
theorem Geometry.fields {g : Geometry} (valid : g.validate = .ok ()) :
    (8 ≤ g.programWidth ∧ g.programWidth ≤ 11) ∧ (4 ≤ g.dataWidth ∧ g.dataWidth ≤ 7) ∧
      1 ≤ g.stackLevels ∧ g.stackLevels ≤ 3 := by
  have bind {first second : Except SetupError Unit}
      (ok : (do first; second) = Except.ok ()) : first = .ok () ∧ second = .ok () := by
    cases first with
    | error refused => cases ok
    | ok _ => exact ⟨rfl, ok⟩
  obtain ⟨program, rest⟩ := bind valid
  obtain ⟨data, stack⟩ := bind rest
  exact ⟨checkField_ok program, checkField_ok data, checkField_ok stack⟩

/-- Width of the program space and depth of the call stack. -/
theorem Geometry.ranges {g : Geometry} (valid : g.validate = .ok ()) :
    (8 ≤ g.programWidth ∧ g.programWidth ≤ 11) ∧ 1 ≤ g.stackLevels ∧ g.stackLevels ≤ 3 :=
  ⟨(fields valid).1, (fields valid).2.2⟩

theorem Geometry.toNat_programMask {g : Geometry} (valid : g.validate = .ok ()) :
    g.programMask.toNat = 2 ^ g.programWidth - 1 := by
  obtain ⟨⟨-, most⟩, -⟩ := ranges valid
  have wide : 2 ^ g.programWidth ≤ 2 ^ 11 := Nat.pow_le_pow_right (by decide) most
  unfold programMask
  rw [UInt16.toNat_ofNat', Nat.shiftLeft_eq, Nat.one_mul, Nat.mod_eq_of_lt (by omega)]

/-- Masking an address cuts it to the width of the program counter. -/
theorem Geometry.toNat_masked {g : Geometry} (valid : g.validate = .ok ()) (address : UInt16) :
    (address &&& g.programMask).toNat = address.toNat % 2 ^ g.programWidth := by
  rw [UInt16.toNat_and, toNat_programMask valid, Nat.and_two_pow_sub_one_eq_mod]

/-- Every program space holds the addresses of eight bits. -/
theorem Geometry.reaches_low (g : Geometry) {address : UInt16} (low : address.toNat < 256) :
    g.Reaches address := by
  intro valid
  have deep : 2 ^ 8 ≤ 2 ^ g.programWidth := Nat.pow_le_pow_right (by decide) (ranges valid).1.1
  apply UInt16.toNat_inj.mp
  rw [toNat_masked valid, Nat.mod_eq_of_lt (by omega)]

/-- A value that an I/O port can have latched. -/
structure PortLayout.Latches (ports : PortLayout) (port value : UInt8) : Prop where
  narrow : Narrow value
  masked : value &&& ports.outputMask port = value
  unwired : ports.writable port = false → value = 0

/-- What reaches the pins of a port that can be written. -/
theorem PortLayout.latches_driven {ports : PortLayout} {port : UInt8}
    (writable : ports.writable port = true) (value : UInt8) :
    ports.Latches port (nibble value &&& ports.outputMask port) where
  narrow := by
    have fits := narrow_nibble value
    have cut : (nibble value &&& ports.outputMask port).toNat ≤ (nibble value).toNat := by
      rw [UInt8.toNat_and]
      exact Nat.and_le_left
    unfold Narrow at *
    omega
  masked := by rw [UInt8.and_assoc, UInt8.and_self]
  unwired closed := by rw [writable] at closed; cases closed

/-! ## §2 Opcodes -/

namespace Op

/-- Whether what the opcode carries fits in the register that it goes to. -/
def fits : Op → Bool
  | .ldz n | .li n | .czp n => Narrow n
  | _ => true

/-- Jumps, calls and returns. -/
def isTransfer : Op → Bool
  | .jmp _ | .cal _ | .jcp _ | .jpa | .czp _ | .rt | .rts => true
  | _ => false

/-- Whether the operation looks at the argument byte. -/
def usesArgument : Op → Bool
  | .ldi | .jmp _ | .cal _ | .ci | .cli | .ocd | .stm => true
  | _ => false

end Op

theorem decodeFull_fits : ∀ opcode < 256, (decodeFull (UInt8.ofNat opcode)).fits = true ∧
    ((decodeFull (UInt8.ofNat opcode)).usesArgument = true →
      hasArgument (UInt8.ofNat opcode) = true) := by
  decide +kernel

/-- Opcodes carry what fits, and an operation that looks at its argument has one. -/
theorem decode_fits (family : Family) (opcode : UInt8) :
    (decode family opcode).operation.fits = true ∧
      ((decode family opcode).operation.usesArgument = true →
        (decode family opcode).length = 2) := by
  have full := decodeFull_fits opcode.toNat opcode.toNat_lt
  rw [UInt8.ofNat_toNat] at full
  show (decodeOp family opcode).fits = true ∧
    (_ = true → (if hasArgument opcode then 2 else 1) = 2)
  unfold decode decodeOp
  dsimp only
  -- an extension is illegal on the reduced set, and any other opcode is that of the full set
  split
  · exact ⟨rfl, fun uses => nomatch uses⟩
  · exact ⟨full.1, fun uses => if_pos (full.2 uses)⟩

/-! ## §3 Elementary operations -/

/-- A relation between machines that those elementary operations of instructions respect which stay
inside the core and leave program counter and call stack alone. -/
structure Internal (w : Wiring σ) (w' : Wiring τ)
    (R : Machine State σ → Machine State τ → Prop) : Prop where
  config : w.config = w'.config
  /-- Related machines have the same registers, up to the call stack. -/
  regs : ∀ {m m'}, R m m' → ∃ stack, m'.core.regs = { m.core.regs with stack }
  lastPc : ∀ {m m'}, R m m' → m.core.lastPc = m'.core.lastPc
  change : ∀ {change}, Registers.Plain change → Lockstep R (modifyRegs change) (modifyRegs change)
  setSkip : ∀ skip, Lockstep R (setSkip skip) (setSkip skip)
  startTimer : ∀ argument,
    Lockstep R
      (modifyState fun s =>
        { s with
          timer := some (timerCycles argument)
          regs := { s.regs with timerFlag := false } })
      (modifyState fun s =>
        { s with
          timer := some (timerCycles argument)
          regs := { s.regs with timerFlag := false } })
  record : ∀ event, Lockstep R (Machine.record event) (Machine.record event)

/-- Such a relation that also respects what instructions do on the buses once they are fetched: they
reach RAM under the data pointer and at its top, and the ports. -/
structure Steady (w : Wiring σ) (w' : Wiring τ)
    (R : Machine State σ → Machine State τ → Prop) : Prop extends Internal w w' R where
  readRam : Lockstep R (readRam w) (readRam w')
  writeRam : ∀ value, Lockstep R (writeRam w value) (writeRam w' value)
  readRamRegister : ∀ register,
    Lockstep R (readRamRegister w register) (readRamRegister w' register)
  writeRamRegister : ∀ register value,
    Lockstep R (writeRamRegister w register value) (writeRamRegister w' register value)
  input : ∀ port, Lockstep R (input w port) (input w' port)
  output : ∀ port value, Lockstep R (output w port value) (output w' port value)

/-- Such a relation that is respected wherever the program counter moves. -/
structure Operates (w : Wiring σ) (w' : Wiring τ)
    (R : Machine State σ → Machine State τ → Prop) : Prop extends Steady w w' R where
  /-- The target of a jump does not depend on the call stack. -/
  jump : ∀ {target : Registers → UInt16}, (∀ r stack, target { r with stack } = target r) →
    (∀ r, w.geometry.Reaches (target r)) →
    Lockstep R (modifyRegs fun r => { r with pc := target r })
      (modifyRegs fun r => { r with pc := target r })
  pushPc : Lockstep R (pushPc w) (pushPc w')
  popPc : Lockstep R (popPc w) (popPc w')

/-- A relation that respects accesses to RAM and ports at any address. -/
structure Touches (w : Wiring σ) (w' : Wiring τ)
    (R : Machine State σ → Machine State τ → Prop) : Prop extends Internal w w' R where
  /-- What a port latches has reached its pins. -/
  latchPort : ∀ {port value}, w.geometry.ports.Latches (nibble port) value →
    Lockstep R (modifyRegs (·.setPort (nibble port) value))
      (modifyRegs (·.setPort (nibble port) value))
  readData : ∀ address, Lockstep R (readBus .data w.data address) (readBus .data w'.data address)
  writeData : ∀ address value, Lockstep R (writeBus .data w.data address value)
    (writeBus .data w'.data address value)
  readIo : ∀ address, Lockstep R (readBus .io w.io address) (readBus .io w'.io address)
  writeIo : ∀ address value, Lockstep R (writeBus .io w.io address value)
    (writeBus .io w'.io address value)

/-- Such a relation that also respects fetches, and jumps. -/
structure Respects (w : Wiring σ) (w' : Wiring τ)
    (R : Machine State σ → Machine State τ → Prop) : Prop extends Touches w w' R where
  jump : ∀ {target : Registers → UInt16}, (∀ r stack, target { r with stack } = target r) →
    (∀ r, w.geometry.Reaches (target r)) →
    Lockstep R (modifyRegs fun r => { r with pc := target r })
      (modifyRegs fun r => { r with pc := target r })
  pushPc : Lockstep R (pushPc w) (pushPc w')
  popPc : Lockstep R (popPc w) (popPc w')
  readProgram : ∀ address, Lockstep R (readBus .program w.program address)
    (readBus .program w'.program address)

namespace Internal

variable {w : Wiring σ} {w' : Wiring τ} {R : Machine State σ → Machine State τ → Prop}

theorem geometry (internal : Internal w w' R) : w.geometry = w'.geometry := by
  unfold Wiring.geometry
  rw [internal.config]

theorem name (internal : Internal w w' R) : w.name = w'.name := by
  unfold Wiring.name
  rw [internal.config]

/-- A program that looks at the registers sees the same ones, up to the call stack. -/
theorem look (internal : Internal w w' R) {α : Type} {f : Registers → Exec σ α}
    {f' : Registers → Exec τ α}
    (next : ∀ (r : Registers) stack, Lockstep R (f r) (f' { r with stack })) :
    Lockstep R (getRegs >>= f) (getRegs >>= f') := by
  intro m m' related
  obtain ⟨stack, same⟩ := internal.regs related
  have inStep := next m.core.regs stack
  rw [← same] at inStep
  exact inStep m m' related

/-- A report of what the last instruction did. -/
theorem report (internal : Internal w w' R) {α : Type} (event : UInt16 → Event) (answer : α) :
    Lockstep R (do Machine.record (event (← getState).lastPc); return answer)
      (do Machine.record (event (← getState).lastPc); return answer) := by
  intro m m' related
  have same : (do Machine.record (event (← getState).lastPc); return answer : Exec τ α) m' =
      (do Machine.record (event m.core.lastPc); return answer : Exec τ α) m' := by
    rw [internal.lastPc related]
    rfl
  rw [same]
  exact Lockstep.bind (internal.record _) (fun _ => .pure answer) m m' related

end Internal

namespace Touches

variable {w : Wiring σ} {w' : Wiring τ} {R : Machine State σ → Machine State τ → Prop}

theorem readRam (touches : Touches w w' R) : Lockstep R (readRam w) (readRam w') := by
  unfold Ucom4.readRam
  rw [← touches.geometry]
  exact touches.look fun _ _ => .bind (touches.readData _) fun _ => .pure _

theorem writeRam (touches : Touches w w' R) (value : UInt8) :
    Lockstep R (writeRam w value) (writeRam w' value) := by
  unfold Ucom4.writeRam
  rw [← touches.geometry]
  exact touches.look fun _ _ => touches.writeData _ _

theorem readRamRegister (touches : Touches w w' R) (register : RamRegister) :
    Lockstep R (readRamRegister w register) (readRamRegister w' register) := by
  unfold Ucom4.readRamRegister
  rw [← touches.geometry]
  exact .bind (touches.readData _) fun _ => .pure _

theorem writeRamRegister (touches : Touches w w' R) (register : RamRegister) (value : UInt8) :
    Lockstep R (writeRamRegister w register value) (writeRamRegister w' register value) := by
  unfold Ucom4.writeRamRegister
  rw [← touches.geometry]
  exact touches.writeData _ _

theorem input (touches : Touches w w' R) (port : UInt8) :
    Lockstep R (input w port) (input w' port) := by
  unfold Ucom4.input
  rw [← touches.geometry, ← touches.name]
  refine .ite (fun _ => ?_) fun _ => touches.report _ 0
  refine .bind (touches.readIo _) fun pins => .ite (fun _ => ?_) fun _ => .pure _
  exact touches.look fun _ _ => .pure _

theorem output (touches : Touches w w' R) (port value : UInt8) :
    Lockstep R (output w port value) (output w' port value) := by
  unfold Ucom4.output
  rw [← touches.geometry, ← touches.name]
  exact .ite (fun writable => .bind (touches.writeIo _ _) fun _ =>
    touches.latchPort (PortLayout.latches_driven writable value)) fun _ => touches.report _ ()

/-- What accesses at any address respect, those of instructions do. -/
theorem steady (touches : Touches w w' R) : Steady w w' R where
  toInternal := touches.toInternal
  readRam := touches.readRam
  writeRam := touches.writeRam
  readRamRegister := touches.readRamRegister
  writeRamRegister := touches.writeRamRegister
  input := touches.input
  output := touches.output

end Touches

namespace Respects

variable {w : Wiring σ} {w' : Wiring τ} {R : Machine State σ → Machine State τ → Prop}

theorem fetch (respects : Respects w w' R) : Lockstep R (fetch w) (fetch w') := by
  unfold Ucom4.fetch
  rw [← respects.geometry]
  refine respects.look fun r _ => .bind (respects.readProgram _) fun value =>
    .bind (respects.jump (fun _ _ => rfl) fun _ => ?_) fun _ => .pure value
  exact w.geometry.reaches_masked _

theorem operates (respects : Respects w w' R) : Operates w w' R where
  toSteady := respects.steady
  jump := respects.jump
  pushPc := respects.pushPc
  popPc := respects.popPc

end Respects

namespace Steady

variable {w : Wiring σ} {w' : Wiring τ} {R : Machine State σ → Machine State τ → Prop}

/-! ### What is read fits in four bits -/

theorem narrow_readRam (w : Wiring σ) (m : Machine State σ) : Narrow (Ucom4.readRam w m).1 :=
  narrow_nibble _

theorem narrow_readRamRegister (w : Wiring σ) (register : RamRegister) (m : Machine State σ) :
    Narrow (Ucom4.readRamRegister w register m).1 :=
  narrow_nibble _

theorem narrow_exchangeRamRegister (w : Wiring σ) (register : RamRegister) (value : UInt8)
    (m : Machine State σ) : Narrow (exchangeRamRegister w register value m).1 :=
  narrow_readRamRegister w register m

theorem narrow_input (w : Wiring σ) (port : UInt8) (m : Machine State σ) :
    Narrow (Ucom4.input w port m).1 := by
  unfold Ucom4.input
  rw [eval_ite]
  split
  · rw [eval_bind, eval_ite]
    split
    · exact narrow_nibble _
    · exact narrow_nibble _
  · exact (by decide : Narrow 0)

/-! ## §4 Instructions -/

theorem flipRow (steady : Steady w w' R) (flip : UInt8) :
    Lockstep R (flipRow flip) (flipRow flip) :=
  steady.change ⟨fun _ => ⟨rfl, rfl, rfl⟩, fun _ _ => rfl,
    fun _ narrow => ⟨narrow.acc, narrow.dpl, narrow_nibble _⟩⟩

theorem setAcc (steady : Steady w w' R) {value : UInt8} (narrow : Narrow value) :
    Lockstep R (modifyRegs ({ · with acc := value })) (modifyRegs ({ · with acc := value })) :=
  steady.change ⟨fun _ => ⟨rfl, rfl, rfl⟩, fun _ _ => rfl,
    fun _ holds => ⟨narrow, holds.dpl, holds.dph⟩⟩

theorem setDpl (steady : Steady w w' R) {value : UInt8} (narrow : Narrow value) :
    Lockstep R (modifyRegs ({ · with dpl := value })) (modifyRegs ({ · with dpl := value })) :=
  steady.change ⟨fun _ => ⟨rfl, rfl, rfl⟩, fun _ _ => rfl,
    fun _ holds => ⟨holds.acc, narrow, holds.dph⟩⟩

theorem setDph (steady : Steady w w' R) {value : UInt8} (narrow : Narrow value) :
    Lockstep R (modifyRegs ({ · with dph := value })) (modifyRegs ({ · with dph := value })) :=
  steady.change ⟨fun _ => ⟨rfl, rfl, rfl⟩, fun _ _ => rfl,
    fun _ holds => ⟨holds.acc, holds.dpl, narrow⟩⟩

/-- A change of the accumulator that cuts it to four bits. -/
theorem computeAcc (steady : Steady w w' R) {value : Registers → UInt8}
    (blind : ∀ (r : Registers) stack, value { r with stack } = value r) :
    Lockstep R (modifyRegs fun r => r.setAcc (value r)) (modifyRegs fun r => r.setAcc (value r)) :=
  steady.change ⟨fun _ => ⟨rfl, rfl, rfl⟩, fun r stack => by simp only [Registers.setAcc, blind],
    fun _ holds => ⟨narrow_nibble _, holds.dpl, holds.dph⟩⟩

/-- A change of flags. -/
theorem setFlags (steady : Steady w w' R) {change : Registers → Registers}
    (keeps : ∀ r, (change r).pc = r.pc ∧ (change r).portOut = r.portOut ∧
      (change r).intFlag = r.intFlag)
    (kept : ∀ r, (change r).acc = r.acc ∧ (change r).dpl = r.dpl ∧ (change r).dph = r.dph)
    (stack : ∀ r stack, change { r with stack } = { change r with stack }) :
    Lockstep R (modifyRegs change) (modifyRegs change) := by
  refine steady.change ⟨keeps, stack, fun r holds => ?_⟩
  obtain ⟨acc, dpl, dph⟩ := kept r
  exact ⟨acc ▸ holds.acc, dpl ▸ holds.dpl, dph ▸ holds.dph⟩

theorem exchangeRam (steady : Steady w w' R) (flip : UInt8) :
    Lockstep R (exchangeRam w flip) (exchangeRam w' flip) := by
  refine steady.look fun r _ => .bindWith steady.readRam (narrow_readRam w) fun value fits => ?_
  exact .bind (steady.setAcc fits) fun _ => .bind (steady.writeRam _) fun _ =>
    steady.flipRow flip

theorem incrementColumn (steady : Steady w w' R) :
    Lockstep R incrementColumn incrementColumn := by
  refine .bind (steady.change ⟨fun _ => ⟨rfl, rfl, rfl⟩, fun _ _ => rfl, fun _ holds => ?_⟩)
    fun _ => steady.look fun _ _ => steady.setSkip _
  exact ⟨holds.acc, narrow_nibble _, holds.dph⟩

theorem decrementColumn (steady : Steady w w' R) :
    Lockstep R decrementColumn decrementColumn := by
  refine .bind (steady.change ⟨fun _ => ⟨rfl, rfl, rfl⟩, fun _ _ => rfl, fun _ holds => ?_⟩)
    fun _ => steady.look fun _ _ => steady.setSkip _
  exact ⟨holds.acc, narrow_nibble _, holds.dph⟩

theorem addWithCarry (steady : Steady w w' R) :
    Lockstep R (addWithCarry w) (addWithCarry w') := by
  refine .bind steady.readRam fun _ =>
    steady.change ⟨fun _ => ⟨rfl, rfl, rfl⟩, fun _ _ => rfl, fun _ holds => ?_⟩
  exact ⟨narrow_nibble _, holds.dpl, holds.dph⟩

theorem exchangeRamRegister (steady : Steady w w' R) (register : RamRegister)
    (value : UInt8) :
    Lockstep R (exchangeRamRegister w register value) (exchangeRamRegister w' register value) :=
  .bind (steady.readRamRegister register) fun old =>
    .bind (steady.writeRamRegister register value) fun _ => .pure old

theorem checkArgument (steady : Steady w w' R) (mnemonic : String)
    (argument mask fixed : UInt8) :
    Lockstep R (checkArgument w mnemonic argument mask fixed)
      (checkArgument w' mnemonic argument mask fixed) := by
  unfold Ucom4.checkArgument
  rw [← steady.name]
  exact .ite (fun _ => steady.report _ ()) fun _ => .pure ()

/-- Every operation that is no jump, call or return, and whose opcode carries what fits, respects
what the elementary operations respect. The two sides need the same argument only where the operation
looks at it, and only the test of the interrupt flag takes an interrupt request. -/
theorem perform (steady : Steady w w' R) {operation : Op} (stays : operation.isTransfer = false)
    (fits : operation.fits = true) {argument argument' : UInt8}
    (same : operation.usesArgument = true → argument = argument')
    (takes : operation = .tit → Lockstep R (modifyRegs ({ · with intFlag := false }))
      (modifyRegs ({ · with intFlag := false }))) :
    Lockstep R (perform w argument operation) (perform w' argument' operation) := by
  have ram := steady.readRam
  have skip := steady.setSkip
  cases operation with
  | jmp | cal | jcp | jpa | czp | rt | rts => cases stays
  | nop | illegal => exact .pure ()
  | ldz column =>
    refine steady.change ⟨fun _ => ⟨rfl, rfl, rfl⟩, fun _ _ => rfl, fun _ holds => ?_⟩
    exact ⟨holds.acc, of_decide_eq_true fits, (by decide : Narrow 0)⟩
  | li value => exact steady.setAcc (of_decide_eq_true fits)
  | ldi =>
    obtain rfl := same rfl
    unfold Ucom4.perform
    rw [← steady.geometry]
    refine steady.change ⟨fun _ => ⟨rfl, rfl, rfl⟩, fun _ _ => rfl, fun _ holds => ?_⟩
    exact ⟨holds.acc, narrow_nibble _, narrow_upper _ _⟩
  | lm flip =>
    exact .bindWith ram (narrow_readRam w) fun _ fits =>
      .bind (steady.setAcc fits) fun _ => steady.flipRow flip
  | s => exact steady.look fun r _ => steady.writeRam r.acc
  | tal =>
    exact steady.change ⟨fun _ => ⟨rfl, rfl, rfl⟩, fun _ _ => rfl,
      fun _ holds => ⟨holds.acc, holds.acc, holds.dph⟩⟩
  | tla =>
    exact steady.change ⟨fun _ => ⟨rfl, rfl, rfl⟩, fun _ _ => rfl,
      fun _ holds => ⟨holds.dpl, holds.dpl, holds.dph⟩⟩
  | xm flip => exact steady.exchangeRam flip
  | xmi flip => exact .bind (steady.exchangeRam flip) fun _ => steady.incrementColumn
  | xmd flip => exact .bind (steady.exchangeRam flip) fun _ => steady.decrementColumn
  | ad =>
    exact .bind ram fun _ => steady.look fun _ _ => .bind (skip _) fun _ =>
      steady.computeAcc fun _ _ => rfl
  | adc => exact steady.addWithCarry
  | ads => exact .bind steady.addWithCarry fun _ => steady.look fun _ _ => skip _
  | daa | das | cia => exact steady.computeAcc fun _ _ => rfl
  | exl =>
    refine .bindWith ram (narrow_readRam w) fun _ fits =>
      steady.change ⟨fun _ => ⟨rfl, rfl, rfl⟩, fun _ _ => rfl, fun _ holds => ?_⟩
    exact ⟨holds.acc.xor fits, holds.dpl, holds.dph⟩
  | cma =>
    refine steady.change ⟨fun _ => ⟨rfl, rfl, rfl⟩, fun _ _ => rfl, fun _ holds => ?_⟩
    exact ⟨holds.acc.xor (by decide : Narrow 0xF), holds.dpl, holds.dph⟩
  | rar =>
    refine steady.change ⟨fun _ => ⟨rfl, rfl, rfl⟩, fun _ _ => rfl, fun r holds => ?_⟩
    exact ⟨narrow_rotated holds.acc r.carry, holds.dpl, holds.dph⟩
  | clc | stc | xc | ei | di =>
    exact steady.setFlags (fun _ => ⟨rfl, rfl, rfl⟩) (fun _ => ⟨rfl, rfl, rfl⟩) fun _ _ => rfl
  | tc | tab | ttm => exact steady.look fun _ _ => skip _
  | inc | dec =>
    exact .bind (steady.computeAcc fun _ _ => rfl) fun _ => steady.look fun _ _ => skip _
  | ind => exact steady.incrementColumn
  | ded => exact steady.decrementColumn
  | inm | dem => exact .bind ram fun _ => .bind (steady.writeRam _) fun _ => skip _
  | rmb | smb => exact .bind ram fun _ => steady.writeRam _
  | reb | seb | oe => exact steady.look fun _ _ => steady.output _ _
  | rpb | spb | op => exact steady.look fun _ _ => steady.output _ _
  | ci | cli =>
    obtain rfl := same rfl
    exact steady.look fun _ _ => .bind (skip _) fun _ => steady.checkArgument _ _ _ _
  | cm | cmb => exact .bind ram fun _ => steady.look fun _ _ => skip _
  | tmb => exact .bind ram fun _ => skip _
  | tpa => exact .bind (steady.input portA) fun _ => skip _
  | tpb => exact steady.look fun r _ => .bind (steady.input r.dpl) fun _ => skip _
  | tit => exact steady.look fun _ _ => .bind (skip _) fun _ => takes rfl
  | ia =>
    exact .bindWith (steady.input portA) (narrow_input w portA) fun _ fits =>
      steady.setAcc fits
  | ip =>
    exact steady.look fun r _ =>
      .bindWith (steady.input r.dpl) (narrow_input w r.dpl) fun _ fits => steady.setAcc fits
  | ocd =>
    obtain rfl := same rfl
    exact .bind (steady.output portD _) fun _ => steady.output portC _
  | taw | taz | thx | tly => exact steady.look fun _ _ => steady.writeRamRegister _ _
  | xaw | xaz =>
    exact steady.look fun r _ => .bindWith (steady.exchangeRamRegister _ r.acc)
      (narrow_exchangeRamRegister w _ _) fun _ fits => steady.setAcc fits
  | xhr | xhx =>
    exact steady.look fun r _ => .bindWith (steady.exchangeRamRegister _ r.dph)
      (narrow_exchangeRamRegister w _ _) fun _ fits => steady.setDph fits
  | xls | xly =>
    exact steady.look fun r _ => .bindWith (steady.exchangeRamRegister _ r.dpl)
      (narrow_exchangeRamRegister w _ _) fun _ fits => steady.setDpl fits
  | sfb | rfb => exact .bind (steady.readRamRegister .f) fun _ => steady.writeRamRegister .f _
  | fbt | fbf => exact .bind (steady.readRamRegister .f) fun _ => skip _
  | stm =>
    obtain rfl := same rfl
    exact .bind (steady.startTimer argument) fun _ => steady.checkArgument _ _ _ _

end Steady

namespace Operates

variable {w : Wiring σ} {w' : Wiring τ} {R : Machine State σ → Machine State τ → Prop}

/-- A jump to an address that does not depend on the registers. -/
theorem jumpTo (operates : Operates w w' R) {target : UInt16}
    (reaches : w.geometry.Reaches target) :
    Lockstep R (modifyRegs ({ · with pc := target })) (modifyRegs ({ · with pc := target })) :=
  operates.jump (fun _ _ => rfl) fun _ => reaches

/-- Every operation whose opcode carries what fits respects what the elementary operations
respect. -/
theorem perform (operates : Operates w w' R) {operation : Op} (fits : operation.fits = true)
    {argument argument' : UInt8}
    (same : operation.usesArgument = true → argument = argument')
    (takes : operation = .tit → Lockstep R (modifyRegs ({ · with intFlag := false }))
      (modifyRegs ({ · with intFlag := false }))) :
    Lockstep R (perform w argument operation) (perform w' argument' operation) := by
  cases operation with
  | jmp high =>
    obtain rfl := same rfl
    unfold Ucom4.perform
    rw [← operates.geometry]
    exact operates.jumpTo (w.geometry.reaches_masked _)
  | jcp low =>
    unfold Ucom4.perform
    rw [← operates.geometry]
    exact operates.jump (fun _ _ => rfl) fun _ => w.geometry.reaches_masked _
  | jpa =>
    unfold Ucom4.perform
    rw [← operates.geometry]
    exact operates.jump (fun _ _ => rfl) fun _ => w.geometry.reaches_masked _
  | cal high =>
    obtain rfl := same rfl
    unfold Ucom4.perform
    rw [← operates.geometry]
    exact .bind operates.pushPc fun _ => operates.jumpTo (w.geometry.reaches_masked _)
  | czp vector =>
    refine .bind operates.pushPc fun _ => operates.jumpTo (w.geometry.reaches_low ?_)
    have range : vector.toNat < 16 := of_decide_eq_true fits
    have shifted : (vector.toUInt16 <<< 2).toNat = vector.toNat * 4 % 65536 := by
      rw [UInt16.toNat_shiftLeft, Nat.shiftLeft_eq]
      rfl
    omega
  | rt => exact operates.popPc
  | rts => exact .bind operates.popPc fun _ => operates.setSkip true
  | _ => exact operates.toSteady.perform rfl fits same takes

end Operates

end Microboard.Ucom4
