import Microboard.Proofs.CoreTapes
import Microboard.Proofs.Ucom4.Watching
import Microboard.Proofs.Ucom4.Widths

/-!
# Discipline on uCOM-4 buses

- **§1** What a part may ask of its spaces, and what its ports were last driven with.
- **§2** What the accesses of a core put on the tape.
- **§3** Everything that a host does.
- **§4** Histories with all that was asked in their course.
-/

namespace Microboard.Ucom4

open Microboard.Core (Command)

variable {σ : Type}

/-! ## §1 Transfers -/

/-- What a part may ask of its spaces. It only reads its program space, and there, as in its RAM,
it stays below the mask; it writes nibbles; and of its ports it reads those that are inputs and
drives those that are outputs with what can reach their pins. -/
inductive Permitted (g : Geometry) : Transfer → Prop where
  | fetch {address value : UInt32} (inside : address ≤ g.programMask.toUInt32) :
      Permitted g ⟨.program, .read, .byte, address, value⟩
  | load {address value : UInt32} (inside : address ≤ g.dataMask.toUInt32) :
      Permitted g ⟨.data, .read, .byte, address, value⟩
  | store {address value : UInt32} (inside : address ≤ g.dataMask.toUInt32) (narrow : value ≤ 15) :
      Permitted g ⟨.data, .write, .byte, address, value⟩
  | input {port : UInt8} {value : UInt32} (known : port < 16)
      (readable : g.ports.readable port = true) :
      Permitted g ⟨.io, .read, .byte, port.toUInt32, value⟩
  | output {port value : UInt8} (known : port < 16) (writable : g.ports.writable port = true)
      (narrow : value ≤ 15) (masked : value &&& g.ports.outputMask port = value) :
      Permitted g ⟨.io, .write, .byte, port.toUInt32, value.toUInt32⟩

/-- The transfer drives a port. -/
def Drives (port : UInt8) (transfer : Transfer) : Prop :=
  transfer.role = .io ∧ transfer.direction = .write ∧ transfer.address = port.toUInt32

instance (port : UInt8) (transfer : Transfer) : Decidable (Drives port transfer) :=
  inferInstanceAs (Decidable (_ ∧ _))

/-- What a port was last driven with, or what it held before if it was not driven. -/
def driven (port before : UInt8) (tape : Tape) : UInt8 :=
  tape.foldl (fun held transfer => if Drives port transfer then transfer.value.toUInt8 else held)
    before

theorem driven_append (port before : UInt8) (earlier later : Tape) :
    driven port before (earlier ++ later) = driven port (driven port before earlier) later :=
  List.foldl_append

theorem driven_next (port before : UInt8) (tape : Tape) (transfer : Transfer) :
    driven port before (tape ++ [transfer]) =
      if Drives port transfer then transfer.value.toUInt8 else driven port before tape :=
  driven_append port before tape [transfer]

/-! ## §2 Accesses -/

section Addresses

variable {g : Geometry}

theorem masked_le (value mask : UInt8) : (value &&& mask).toUInt32 ≤ mask.toUInt32 := by
  rw [UInt32.le_iff_toNat_le, UInt8.toNat_toUInt32, UInt8.toNat_toUInt32, UInt8.toNat_and]
  exact Nat.and_le_right

theorem Narrow.le {value : UInt8} (narrow : Narrow value) : value ≤ 15 :=
  UInt8.le_iff_toNat_le.mpr (Nat.le_of_lt_succ narrow)

/-- The registers in RAM are at its top. -/
theorem RamRegister.address_le (valid : g.validate = .ok ()) (register : RamRegister) :
    register.address g ≤ g.dataMask.toUInt32 := by
  obtain ⟨-, ⟨least, most⟩, -⟩ := Geometry.fields valid
  have range : ∀ width, 4 ≤ width → width ≤ 7 →
      register.offset ≤ UInt8.ofNat ((1 <<< width) - 1) := by
    intro width
    cases register <;> decide +revert
  have offset : register.offset ≤ g.dataMask := range g.dataWidth least most
  rw [UInt32.le_iff_toNat_le]
  show (g.dataMask - register.offset).toUInt32.toNat ≤ _
  rw [UInt8.toNat_toUInt32, UInt8.toNat_toUInt32, UInt8.toNat_sub_of_le _ _ offset]
  exact Nat.sub_le _ _

theorem Geometry.Reaches.le_mask {address : UInt16} (reaches : g.Reaches address)
    (valid : g.validate = .ok ()) : address.toUInt32 ≤ g.programMask.toUInt32 := by
  rw [UInt32.le_iff_toNat_le, UInt16.toNat_toUInt32, UInt16.toNat_toUInt32]
  exact UInt16.le_iff_toNat_le.mp (reaches.le valid)

end Addresses

/-- A core over taped spaces: it is inside the program space, the tape holds what is permitted, and
each port is latched as the tape last drove it. -/
structure Orderly (w : Wiring σ) (before : UInt8 → UInt8) (m : Machine State (σ × Tape)) :
    Prop where
  pc : w.geometry.Reaches m.core.regs.pc
  permitted : ∀ transfer ∈ m.world.tape, Permitted w.geometry transfer
  ports : ∀ port < 16, m.core.regs.port port = driven port (before port) m.world.tape

section Accesses

variable {w : Wiring σ} {before : UInt8 → UInt8}

theorem Orderly.of_same {m m' : Machine State (σ × Tape)} (orderly : Orderly w before m)
    (pc : w.geometry.Reaches m'.core.regs.pc) (ports : m'.core.regs.portOut = m.core.regs.portOut)
    (tape : m'.world.tape = m.world.tape) : Orderly w before m' where
  pc := pc
  permitted := by
    rw [tape]
    exact orderly.permitted
  ports := by
    unfold Registers.port
    rw [ports, tape]
    exact orderly.ports

/-- Another transfer, after which each port is latched as it should be. -/
theorem Orderly.next {m m' : Machine State (σ × Tape)} (orderly : Orderly w before m)
    {transfer : Transfer} (tape : m'.world.tape = m.world.tape ++ [transfer])
    (pc : m'.core.regs.pc = m.core.regs.pc) (permitted : Permitted w.geometry transfer)
    (ports : ∀ port < 16, m'.core.regs.port port =
      if Drives port transfer then transfer.value.toUInt8 else m.core.regs.port port) :
    Orderly w before m' where
  pc := pc ▸ orderly.pc
  permitted := by
    rw [tape, List.forall_mem_append]
    exact ⟨orderly.permitted, fun _ there => List.mem_singleton.mp there ▸ permitted⟩
  ports port below := by
    rw [tape, driven_next, ← orderly.ports port below]
    exact ports port below

theorem readBus_orderly {role : BusRole} {space : Space σ} {address : UInt32}
    (permitted : ∀ value, Permitted w.geometry ⟨role, .read, .byte, address, value⟩) :
    Keeps (Orderly w before) (readBus role (space.taped role) address) := by
  intro m orderly
  obtain ⟨value, -, taped⟩ := m.world.tape_readUnit role space address
  refine orderly.next taped rfl (permitted value) fun port _ => ?_
  rw [if_neg fun drives => nomatch drives.2.1]
  rfl

theorem writeData_orderly {space : Space σ} {address : UInt32} {value : UInt8}
    (permitted : Permitted w.geometry ⟨.data, .write, .byte, address, value.toUInt32⟩) :
    Keeps (Orderly w before) (writeBus .data (space.taped .data) address value) := by
  intro m orderly
  have taped := m.world.tape_writeUnit .data space address value
  refine orderly.next taped rfl permitted fun port _ => ?_
  rw [if_neg fun drives => nomatch drives.1]
  rfl

theorem store_permitted {g : Geometry} {address : UInt32} (inside : address ≤ g.dataMask.toUInt32)
    (value : UInt8) :
    Permitted g ⟨.data, .write, .byte, address, (nibble value).toUInt32⟩ := by
  refine .store inside ?_
  rw [UInt32.le_iff_toNat_le, UInt8.toNat_toUInt32]
  exact UInt8.le_iff_toNat_le.mp (narrow_nibble value).le

theorem input_orderly (port : UInt8) : Keeps (Orderly w before) (input w.taped port) := by
  refine .ite (fun readable => ?_) fun _ _ orderly => orderly.of_same orderly.pc rfl rfl
  have known : nibble port < 16 := UInt8.lt_iff_toNat_lt.mpr (narrow_nibble port)
  exact .bind (readBus_orderly fun _ => .input known readable) fun pins =>
    .ite (fun _ => .bind (fun _ orderly => orderly) fun _ => .pure _) fun _ => .pure _

/-- A port is latched once it is driven. -/
theorem output_orderly (port value : UInt8) :
    Keeps (Orderly w before) (output w.taped port value) := by
  refine .ite (fun writable m orderly => ?_) fun _ _ orderly => orderly.of_same orderly.pc rfl rfl
  have known : (nibble port).toNat < 16 := narrow_nibble port
  have latches := PortLayout.latches_driven writable value
  have taped := m.world.tape_writeUnit .io w.io (nibble port).toUInt32
    (nibble value &&& w.geometry.ports.outputMask (nibble port))
  refine orderly.next taped rfl
    (.output (UInt8.lt_iff_toNat_lt.mpr known) writable latches.narrow.le latches.masked)
    fun other below => ?_
  have within : other.toNat < 16 := UInt8.lt_iff_toNat_lt.mp below
  show (m.core.regs.setPort (nibble port) _).port other = _
  rw [Registers.port_setPort, Nat.mod_eq_of_lt known, Nat.mod_eq_of_lt within,
    UInt8.toUInt8_toUInt32]
  -- the same port under both names
  have same : (nibble port).toNat = other.toNat ↔
      Drives other ⟨.io, .write, .byte, (nibble port).toUInt32,
        (nibble value &&& w.geometry.ports.outputMask (nibble port)).toUInt32⟩ := by
    constructor
    · intro same
      exact ⟨rfl, rfl, congrArg UInt8.toUInt32 (UInt8.toNat_inj.mp same)⟩
    · intro drives
      exact congrArg UInt32.toNat drives.2.2
  simp only [same]
  rfl

theorem fetch_orderly (valid : w.geometry.validate = .ok ()) :
    Keeps (Orderly w before) (fetch w.taped) := by
  intro m orderly
  have read : Orderly w before
      (readBus .program w.taped.program m.core.regs.pc.toUInt32 m).2 :=
    readBus_orderly (fun _ => .fetch (orderly.pc.le_mask valid)) m orderly
  exact read.of_same (w.geometry.reaches_masked _) rfl rfl

theorem watches_orderly (w : Wiring σ) (valid : w.geometry.validate = .ok ())
    (before : UInt8 → UInt8) : Watches w.taped (Orderly w before) where
  modify quiet m orderly := orderly.of_same (quiet.pc m.core orderly.pc) (quiet.ports m.core) rfl
  fetch := fetch_orderly valid
  readRam := .bind (fun _ orderly => orderly) fun _ =>
    .bind (readBus_orderly fun _ => .load (masked_le _ _)) fun _ => .pure _
  writeRam value := .bind (fun _ orderly => orderly) fun _ =>
    writeData_orderly (store_permitted (masked_le _ _) value)
  readRamRegister register := .bind
    (readBus_orderly fun _ => .load (register.address_le valid)) fun _ => .pure _
  writeRamRegister register value :=
    writeData_orderly (store_permitted (register.address_le valid) value)
  input := input_orderly
  output := output_orderly
  drainWaitStates _ orderly := orderly.of_same orderly.pc rfl rfl
  signal _ _ _ orderly := orderly.of_same orderly.pc rfl rfl
  onLatch _ _ orderly := orderly.of_same orderly.pc rfl rfl
  record _ _ orderly := orderly.of_same orderly.pc rfl rfl

end Accesses

/-! ## §3 Operations -/

/-- Writing an exported entry leaves the program counter inside the program space and the ports
alone. -/
theorem write_orderly {w : Wiring σ} {before : UInt8 → UInt8} (item : Export) (value : Nat)
    {s : State} {world : World (σ × Tape)} (orderly : Orderly w before ⟨s, world⟩) :
    Orderly w before ⟨item.write w.geometry value s, world⟩ := by
  cases item with
  | pc | currentPc => exact orderly.of_same (reaches_truncated (by rfl) value) rfl rfl
  | dpl | dph | acc | carry | carrySave | timerFlag | intFlag | intEnable | stack | lastPc | flags
  | timer | opcode | skip => exact orderly.of_same orderly.pc rfl rfl

/-- An orderly core of the family. -/
def OrderlyCore (w : Wiring σ) (before : UInt8 → UInt8)
    (m : Machine (Core (σ × Tape)) (σ × Tape)) : Prop :=
  ∃ s, m.core = .ucom4 w.taped s ∧ Orderly w before ⟨s, m.world⟩

theorem apply_orderly {w : Wiring σ} (valid : w.geometry.validate = .ok ())
    (before : UInt8 → UInt8) (command : Command) :
    Keeps (OrderlyCore w before) command.apply := by
  have watches := watches_orderly w valid before
  refine Core.apply_keeps ?resets ?acts ?requests ?writes command
  case resets =>
    rintro ⟨_, world⟩ ⟨s, rfl, orderly⟩
    exact ⟨_, rfl, watches.reset ⟨s, world⟩ orderly⟩
  case acts =>
    rintro remaining ⟨_, world⟩ ⟨s, rfl, orderly⟩
    have notes (inReset : Bool) (exec : ExecState) :
        Keeps (Orderly w before) (modifyState ({ · with inReset, exec })) :=
      fun _ orderly => orderly.of_same orderly.pc rfl rfl
    exact ⟨_, rfl, watches.advance notes remaining ⟨s, world⟩ orderly⟩
  case requests =>
    rintro line level ⟨_, world⟩ ⟨s, rfl, orderly⟩
    exact ⟨s, rfl, orderly.of_same orderly.pc rfl rfl⟩
  case writes =>
    rintro index value ⟨_, world⟩ ⟨s, rfl, orderly⟩
    unfold Core.stateSet
    dsimp only
    cases Export.find? w.taped.geometry index with
    | none => exact ⟨s, rfl, orderly⟩
    | some item => exact ⟨_, rfl, write_orderly item value orderly⟩

/-- A command asks only what is permitted, and leaves each port as it drove it. -/
theorem asked_orderly {w : Wiring σ} {s s' : State} (valid : w.geometry.validate = .ok ())
    (inside : w.geometry.Reaches s.regs.pc) {command : Command} {world world' : World σ}
    (operates : (command.apply ⟨.ucom4 w s, world⟩).2 = ⟨.ucom4 w s', world'⟩) :
    (∀ transfer ∈ Core.asked command ⟨.ucom4 w s, world⟩, Permitted w.geometry transfer) ∧
      ∀ port < 16, s'.regs.port port =
        driven port (s.regs.port port) (Core.asked command ⟨.ucom4 w s, world⟩) := by
  have start : OrderlyCore w s.regs.port (Machine.taped ⟨.ucom4 w s, world⟩) :=
    ⟨s, rfl, inside, nofun, fun _ _ => rfl⟩
  obtain ⟨after, core, orderly⟩ := apply_orderly valid s.regs.port command _ start
  -- the core without a tape ends the same
  have taped := (command.apply_taped _ _ (Core.taped_start ⟨.ucom4 w s, world⟩)).2.core
  rw [operates, core] at taped
  obtain ⟨-, rfl⟩ := Core.ucom4.inj taped
  exact ⟨orderly.permitted, orderly.ports⟩

/-! ## §4 Histories -/

/-- A core that is left to its host, with all that it has asked of its spaces since it was built.
It is built, gets its sink attached, is operated in whatever world surrounds it, and its host takes
note of the levels that it has driven. -/
inductive Recorded : Wiring σ → State → Tape → Prop where
  | built {config : Config} {program data io : Space σ} {world world' : World σ} {w : Wiring σ}
      {s : State} : build config program data io world = .ok ((w, s), world') →
      Recorded w s (Core.asked .reset ⟨.ucom4 w {}, world⟩)
  | attached {w : Wiring σ} {s : State} {tape : Tape} (sink : Sink σ) :
      Recorded w s tape → Recorded { w with sink } s tape
  | operated {w : Wiring σ} {s s' : State} {tape : Tape} (command : Command)
      {world world' : World σ} : Recorded w s tape →
      (command.apply ⟨.ucom4 w s, world⟩).2 = ⟨.ucom4 w s', world'⟩ →
      Recorded w s' (tape ++ Core.asked command ⟨.ucom4 w s, world⟩)
  | noted {w : Wiring σ} {s : State} {tape : Tape} :
      Recorded w s tape → Recorded w { s with outputs := #[] } tape

theorem Recorded.hosted {w : Wiring σ} {s : State} {tape : Tape} (recorded : Recorded w s tape) :
    Hosted w s := by
  induction recorded with
  | built built => exact .built built
  | attached sink _ ih => exact .attached sink ih
  | operated command _ operates ih => exact .operated command ih operates
  | noted _ ih => exact .noted ih

/-- Every core that is left to its host has such a history. -/
theorem Hosted.recorded {w : Wiring σ} {s : State} (hosted : Hosted w s) :
    ∃ tape, Recorded w s tape := by
  induction hosted with
  | built built => exact ⟨_, .built built⟩
  | attached sink _ ih => exact ⟨_, .attached sink ih.choose_spec⟩
  | operated command _ operates ih => exact ⟨_, .operated command ih.choose_spec operates⟩
  | noted _ ih => exact ⟨_, .noted ih.choose_spec⟩

theorem Recorded.advance {w : Wiring σ} {s : State} {tape : Tape} (recorded : Recorded w s tape)
    (remaining : Nat) (world : World σ) :
    Recorded w (advance w remaining ⟨s, world⟩).2.core
      (tape ++ Core.asked (.advance remaining) ⟨.ucom4 w s, world⟩) :=
  @Recorded.operated _ w s _ tape (.advance remaining) world _ recorded rfl

/-- A core asks of its spaces only what its part may ask, and at every boundary each of its ports
is latched as it was last driven since the core was built, or is zero if it never was. -/
theorem disciplined_recorded {w : Wiring σ} {s : State} {tape : Tape}
    (recorded : Recorded w s tape) :
    (∀ transfer ∈ tape, Permitted w.geometry transfer) ∧
      ∀ port < 16, s.regs.port port = driven port 0 tape := by
  induction recorded with
  | @built _ _ _ _ world _ w s built =>
    obtain ⟨valid, rfl⟩ := build_reset built
    have zero : w.geometry.Reaches 0 := w.geometry.reaches_low (by decide)
    have operates : (Command.reset.apply ⟨.ucom4 w {}, world⟩).2 =
        ⟨.ucom4 w (reset w ⟨{}, world⟩).2.core, (reset w ⟨{}, world⟩).2.world⟩ := rfl
    obtain ⟨permitted, ports⟩ := asked_orderly valid zero operates
    refine ⟨permitted, fun port below => (ports port below).trans ?_⟩
    have dark : ({} : State).regs.port port = 0 := Vector.getElem_replicate _
    rw [dark]
  | attached sink _ ih => exact ih
  | @operated w s _ tape command world _ recorded operates ih =>
    obtain ⟨permitted, ports⟩ := ih
    have hosted := recorded.hosted
    obtain ⟨permitted', ports'⟩ :=
      asked_orderly hosted.reachable.valid hosted.fits.sound.pc operates
    refine ⟨List.forall_mem_append.mpr ⟨permitted, permitted'⟩, fun port below => ?_⟩
    rw [driven_append, ← ports port below]
    exact ports' port below
  | noted _ ih => exact ih

/-- A part with a program space of 256 bytes and one port of two bits, which has driven its port
with ones, read another port and stored what it read. -/
theorem disciplined_recorded_narrow :
    let config : Config :=
      { part := .custom ⟨.ucom43, 8, 4, 1, { PortLayout.standard with
          outputs := 0b100
          outputMasks := portMasks [(2, 0x3)] }⟩ }
    let program : Space Unit :=
      { config := ⟨"program", 8, 8, .little⟩
        -- accumulator and column, out, in, store
        read := fun _ address devices =>
          ⟨[0x9F, 0x82, 0x0E, 0x40, 0x02].getD address.toNat 0, devices, []⟩
        write := fun _ _ _ devices => ⟨(), devices, []⟩ }
    let nibbles (name : String) : Space Unit :=
      .cell ⟨name, 4, 4, .little⟩ (fun _ => 6) fun _ devices => devices
    let w : Wiring Unit :=
      { config, program, data := nibbles "data", io := nibbles "io", number := 0 }
    let step (m : Machine State Unit) : Machine State Unit := (advance w 1 m).2
    let asks (m : Machine State Unit) : Tape := Core.asked (.advance 1) ⟨.ucom4 w m.core, m.world⟩
    let m₀ : Machine State Unit := ⟨(reset w ⟨{}, ⟨(), {}, {}⟩⟩).2.core, ⟨(), {}, {}⟩⟩
    let m₁ := step m₀
    let m₂ := step m₁
    let m₃ := step m₂
    let m₄ := step m₃
    let tape := Core.asked .reset ⟨.ucom4 w {}, ⟨(), {}, {}⟩⟩ ++ asks m₀ ++ asks m₁ ++ asks m₂ ++
      asks m₃ ++ asks m₄
    tape =
        [⟨.io, .write, .byte, 2, 0⟩, ⟨.program, .read, .byte, 0, 0x9F⟩,
          ⟨.program, .read, .byte, 1, 0x82⟩, ⟨.program, .read, .byte, 2, 0x0E⟩,
          ⟨.io, .write, .byte, 2, 3⟩, ⟨.program, .read, .byte, 3, 0x40⟩,
          ⟨.io, .read, .byte, 0, 6⟩, ⟨.program, .read, .byte, 4, 0x02⟩,
          ⟨.data, .write, .byte, 2, 6⟩] ∧
      (∀ transfer ∈ tape, Permitted w.geometry transfer) ∧
      ∀ port < 16, (step m₄).core.regs.port port = driven port 0 tape := by
  intro config program nibbles w step asks m₀ m₁ m₂ m₃ m₄ tape
  obtain ⟨_, made⟩ : ∃ world', build config program (nibbles "data") (nibbles "io") ⟨(), {}, {}⟩ =
      .ok ((w, m₀.core), world') := ⟨_, rfl⟩
  have recorded : Recorded w (step m₄).core tape :=
    (((((Recorded.built made).advance 1 m₀.world).advance 1 m₁.world).advance 1 m₂.world).advance 1
      m₃.world).advance 1 m₄.world
  exact ⟨by decide +kernel, disciplined_recorded recorded⟩

end Microboard.Ucom4
