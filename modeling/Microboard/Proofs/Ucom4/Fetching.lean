import Microboard.Proofs.Listings
import Microboard.Proofs.Ucom4.Cycles
import Microboard.Proofs.Ucom4.Holding
import Microboard.Ucom4.Disassembly

/-!
# uCOM-4 instruction fetches

A core of this family has all bytes of an instruction before it decides what to do with them, so
that an instruction that is skipped, or illegal, is fetched like any other. Nothing that it does
afterwards is a fetch: the program space is left alone.

- **§1** Addresses in fetch order.
- **§2** The opcode and its argument.
- **§3** What an operation does once it is fetched.
- **§4** Whole instructions, and actions that run one.
-/

namespace Microboard.Ucom4

variable {σ : Type}

/-! ## §1 Fetch order -/

theorem and_masked (a b mask : UInt16) :
    (a ||| b) &&& mask = (a &&& mask) ||| (b &&& mask) := by
  apply UInt16.toNat_inj.mp
  simp only [UInt16.toNat_and, UInt16.toNat_or, Nat.and_or_distrib_right]

section Addresses

variable {g : Geometry}

/-- What follows an address in fetch order does not depend on bits that the program counter does not
have. -/
theorem Geometry.nextAddress_masked (valid : g.validate = .ok ()) (pc : UInt16) :
    g.nextAddress (pc &&& g.programMask) = g.nextAddress pc := by
  have low (address : UInt16) :
      ((address + 1) &&& 0xFF).toNat = (address.toNat % 256 + 1) % 256 := by
    rw [UInt16.toNat_and, UInt16.toNat_add]
    show (address.toNat + 1) % 2 ^ 16 &&& 2 ^ 8 - 1 = _
    rw [Nat.and_two_pow_sub_one_eq_mod]
    omega
  have byte : ((pc &&& g.programMask) + 1) &&& 0xFF = (pc + 1) &&& 0xFF := by
    have wide : 256 ∣ 2 ^ g.programWidth := Nat.pow_dvd_pow 2 (ranges valid).1.1
    apply UInt16.toNat_inj.mp
    rw [low, low, toNat_masked valid, Nat.mod_mod_of_dvd _ wide]
  have page : (pc &&& g.programMask &&& ~~~0xFF) &&& g.programMask =
      (pc &&& ~~~0xFF) &&& g.programMask := by
    rw [UInt16.and_assoc, UInt16.and_comm (~~~0xFF), ← UInt16.and_assoc, UInt16.and_assoc pc,
      UInt16.and_self, UInt16.and_assoc, UInt16.and_assoc, UInt16.and_comm g.programMask]
  unfold nextAddress
  rw [byte, and_masked, and_masked, page]

theorem nextPc_toUInt32 (valid : g.validate = .ok ()) (pc : UInt16) :
    (listing g).nextPc pc.toUInt32 = (g.nextAddress pc).toUInt32 := by
  show (g.nextAddress (pc.toUInt32.toUInt16 &&& g.programMask)).toUInt32 = _
  rw [UInt16.toUInt16_toUInt32, Geometry.nextAddress_masked valid]

/-- The operation of some bytes. -/
def operation (family : Family) (bytes : List UInt8) : Op :=
  (decode family (bytes.getD 0 0)).operation

theorem sized (g : Geometry) :
    (listing g).Sized fun bytes => (decode g.family (bytes.getD 0 0)).length where
  bytes _ _ := rfl
  pos _ := (decode_length g.family _).1
  bounded _ := (decode_length g.family _).2
  append {bytes} whole more := by
    rcases bytes with _ | ⟨opcode, rest⟩
    · exact absurd whole (Nat.ne_of_gt (decode_length g.family _).1)
    · exact whole
  address pc _ := by
    show ((g.nextAddress _).toUInt32.toUInt16 &&& g.programMask).toUInt32 = _
    rw [UInt16.toUInt16_toUInt32]
    unfold Geometry.nextAddress
    rw [UInt16.and_assoc, UInt16.and_self]
    rfl

end Addresses

/-! ## §2 Fetches -/

/-- Every fetch is made on the program bus. -/
def fetchRole : UInt32 → BusRole := fun _ => .program

/-- The core has taken some bytes from an address on, and nothing else has happened on the bus. The
program counter stands after them. -/
structure Fetching (g : Geometry) (pc : UInt32) (skip : Bool) (bytes : List UInt8)
    (m : Machine State σ) : Prop where
  bus : m.core.bus = (listing g).fetches fetchRole pc bytes
  pc : m.core.regs.pc.toUInt32 = (listing g).advance pc bytes.length
  skip : m.core.skip = skip

section Fetches

variable {w : Wiring σ} {pc : UInt32} {skip : Bool} {bytes : List UInt8}

theorem fetch_fetching (valid : w.geometry.validate = .ok ()) :
    Ensures (Fetching w.geometry pc skip bytes) (fetch w)
      fun byte => Fetching w.geometry pc skip (bytes ++ [byte]) := by
  intro m fetching
  refine ⟨?_, ?_, fetching.skip⟩
  · rw [Listing.fetches_concat, ← fetching.bus, ← fetching.pc]
    rfl
  · rw [List.length_append, List.length_singleton, Listing.advance_succ, ← fetching.pc,
      nextPc_toUInt32 valid]
    rfl

/-- An instruction is fetched in one go: its opcode, and the argument if it has one. -/
theorem fetchInstruction_fetching (valid : w.geometry.validate = .ok ()) :
    Ensures (Fetching w.geometry pc skip []) (fetchInstruction w) fun fetched m =>
      ∃ bytes, fetched = (bytes.getD 0 0, decode w.geometry.family (bytes.getD 0 0)) ∧
        (listing w.geometry).Whole pc bytes ∧ Fetching w.geometry pc skip bytes m ∧
        (fetched.2.length = 2 → m.core.argument = bytes.getD 1 0) := by
  refine .bind (fetch_fetching valid) fun opcode => .ite (fun two => ?_) fun one => ?_
  · refine .bind (fetch_fetching valid) fun argument m fetching =>
      ⟨[opcode, argument], rfl, (sized _).whole_iff.mpr two, ?_, fun _ => rfl⟩
    exact ⟨fetching.bus, fetching.pc, fetching.skip⟩
  · have single : (decode w.geometry.family opcode).length = 1 := by
      obtain ⟨pos, most⟩ := decode_length w.geometry.family opcode
      omega
    refine fun m fetching => ⟨[opcode], rfl, (sized _).whole_iff.mpr single, ?_, fun two => ?_⟩
    · exact ⟨fetching.bus, fetching.pc, fetching.skip⟩
    · exact absurd two one

end Fetches

/-! ## §3 Operations -/

/-- The core has taken some bytes from an address on, and has not come back to the program space
since. Something is said of where its program counter is. -/
def Took (g : Geometry) (pc : UInt32) (bytes : List UInt8) (P : UInt16 → Prop)
    (m : Machine State σ) : Prop :=
  ∃ rest, m.core.bus = (listing g).fetches fetchRole pc bytes ++ rest ∧
    (∀ cycle ∈ rest, cycle.role ≠ .program) ∧ P m.core.regs.pc

/-- Where an operation leaves the program counter, given the address after the instruction and its
argument. Some jumps and calls go where they say. Others, and returns, depend on the registers. Any
other operation leaves the program counter after the instruction. -/
def Op.Ends (g : Geometry) (next : UInt16) (argument : UInt8) (operation : Op)
    (here : UInt16) : Prop :=
  match operation with
  | .jmp high | .cal high => here = g.farAddress high argument
  | .jcp low => here = g.nearAddress next low.toUInt16
  | .czp vector => here = vector.toUInt16 <<< 2
  | .jpa | .rt | .rts => True
  | _ => here = next

theorem Op.ends_of_stays {operation : Op} (stays : operation.isTransfer = false) {g : Geometry}
    {next : UInt16} {argument : UInt8} {here : UInt16} :
    operation.Ends g next argument here ↔ here = next := by
  cases operation with
  | jmp | cal | jcp | jpa | czp | rt | rts => cases stays
  | _ => exact Iff.rfl

theorem Took.weaken {g : Geometry} {pc : UInt32} {bytes : List UInt8} {P P' : UInt16 → Prop}
    {m : Machine State σ} (took : Took g pc bytes P m) (implies : ∀ here, P here → P' here) :
    Took g pc bytes P' m := by
  obtain ⟨rest, bus, quiet, here⟩ := took
  exact ⟨rest, bus, quiet, implies _ here⟩

section Operations

variable {g : Geometry} {pc : UInt32} {bytes : List UInt8} {P : UInt16 → Prop}

theorem readBus_took {role : BusRole} (other : role ≠ .program) (space : Space σ)
    (address : UInt32) : Keeps (Took g pc bytes P) (readBus role space address) := by
  rintro m ⟨rest, bus, quiet, here⟩
  refine ⟨rest ++ [⟨role, .read, .byte, address, (readBus role space address m).1⟩], ?_, ?_, here⟩
  · rw [← List.append_assoc, ← bus]
    rfl
  · rw [List.forall_mem_append]
    exact ⟨quiet, by simpa using other⟩

theorem writeBus_took {role : BusRole} (other : role ≠ .program) (space : Space σ)
    (address : UInt32) (value : UInt8) :
    Keeps (Took g pc bytes P) (writeBus role space address value) := by
  rintro m ⟨rest, bus, quiet, here⟩
  refine ⟨rest ++ [⟨role, .write, .byte, address, value⟩], ?_, ?_, here⟩
  · rw [← List.append_assoc, ← bus]
    rfl
  · rw [List.forall_mem_append]
    exact ⟨quiet, by simpa using other⟩

theorem touches_took (w : Wiring σ) : Touches w w (Both (Took g pc bytes P)) where
  config := rfl
  regs := by
    rintro m _ ⟨rfl, -⟩
    exact ⟨_, rfl⟩
  lastPc := by
    rintro m _ ⟨rfl, -⟩
    rfl
  change plain := Keeps.lockstep fun m ⟨rest, bus, quiet, here⟩ =>
    ⟨rest, bus, quiet, (plain.keeps m.core.regs).1.symm ▸ here⟩
  setSkip _ := Keeps.lockstep fun _ took => took
  startTimer _ := Keeps.lockstep fun _ took => took
  record _ := Keeps.lockstep fun _ took => took
  latchPort _ := Keeps.lockstep fun _ took => took
  readData address := (readBus_took (by decide) w.data address).lockstep
  writeData address value := (writeBus_took (by decide) w.data address value).lockstep
  readIo address := (readBus_took (by decide) w.io address).lockstep
  writeIo address value := (writeBus_took (by decide) w.io address value).lockstep

/-- An operation leaves the program counter where it should. It looks at its argument only if it
has one. -/
theorem perform_took (w : Wiring σ) {operation : Op} (fits : operation.fits = true) (next : UInt16)
    {argument argument' : UInt8} (same : operation.usesArgument = true → argument = argument') :
    Ensures (Took g pc bytes (· = next)) (perform w argument operation)
      fun _ => Took g pc bytes (operation.Ends w.geometry next argument') := by
  cases operation with
  | jmp high =>
    obtain rfl := same rfl
    exact fun m ⟨rest, bus, quiet, _⟩ => ⟨rest, bus, quiet, rfl⟩
  | cal high =>
    obtain rfl := same rfl
    exact .keepsBind (fun _ took => took) fun _ m ⟨rest, bus, quiet, _⟩ => ⟨rest, bus, quiet, rfl⟩
  | jcp low =>
    rintro m ⟨rest, bus, quiet, rfl⟩
    exact ⟨rest, bus, quiet, rfl⟩
  | czp vector =>
    exact .keepsBind (fun _ took => took) fun _ m ⟨rest, bus, quiet, _⟩ => ⟨rest, bus, quiet, rfl⟩
  | jpa | rt | rts => exact fun m ⟨rest, bus, quiet, _⟩ => ⟨rest, bus, quiet, trivial⟩
  | _ =>
    exact ((touches_took w).steady.perform rfl fits (fun _ => rfl) fun _ =>
      Keeps.lockstep fun _ took => took).keeps

theorem tickTimer_took (w : Wiring σ) (cycles : Nat) :
    Keeps (Took g pc bytes P) (tickTimer w cycles) := by
  intro m took
  obtain ⟨log, ticked⟩ := tickTimer_dial w cycles m
  rw [ticked]
  exact took

theorem retire_took (w : Wiring σ) (at_ : UInt16) (opcode : UInt8) (cost : Nat) :
    Keeps (Took g pc bytes P) (retire w at_ opcode cost) :=
  .bind (fun _ took => took) fun _ => .bind (fun _ took => took) fun waits =>
    .bind (tickTimer_took w waits) fun _ => .bind (fun _ took => took) fun _ _ took => took

end Operations

/-! ## §4 Instructions -/

/-- Where an instruction leaves the program counter, given the address after it: there if it is
skipped, and where its operation ends otherwise. -/
def Leaves (g : Geometry) (skip : Bool) (next : UInt16) (bytes : List UInt8) (here : UInt16) :
    Prop :=
  if skip then here = next else (operation g.family bytes).Ends g next (bytes.getD 1 0) here

theorem leaves_of_stays {g : Geometry} {skip : Bool} {next here : UInt16} {bytes : List UInt8}
    (stays : (!skip && (operation g.family bytes).isTransfer) = false)
    (leaves : Leaves g skip next bytes here) : here = next := by
  cases skip with
  | true => exact leaves
  | false => exact (Op.ends_of_stays stays).mp leaves

/-- What an instruction at an address has done on the bus, and where it has left the program
counter: it has taken bytes that are listed as one instruction, and has not come back to the program
space. -/
def Instructed (g : Geometry) (pc : UInt32) (skip : Bool) (m : Machine State σ) : Prop :=
  ∃ bytes, ∃ next : UInt16, (listing g).Whole pc bytes ∧
    next.toUInt32 = (listing g).advance pc bytes.length ∧
    Took g pc bytes (Leaves g skip next bytes) m

section Instructions

variable {w : Wiring σ} {pc : UInt32} {skip : Bool} {bytes : List UInt8} {P : UInt16 → Prop}

theorem runSkipped_took (w : Wiring σ) (at_ : UInt16) (opcode : UInt8) (entry : Entry) :
    Keeps (Took w.geometry pc bytes P) (runSkipped w at_ opcode entry) :=
  .bind (tickTimer_took w _) fun _ => .bind (fun _ took => took) fun _ => retire_took w at_ opcode _

theorem runIllegal_took (w : Wiring σ) (at_ : UInt16) (opcode : UInt8) (entry : Entry) :
    Keeps (Took w.geometry pc bytes P) (runIllegal w at_ opcode entry) := by
  refine .bind (fun _ took => took) fun _ => .bind (fun _ took => took) fun _ => ?_
  dsimp only
  cases w.config.policy with
  | fatal => exact .bind (fun _ took => took) fun _ => .pure _
  | nop =>
    exact .bind (tickTimer_took w _) fun _ => .bind (retire_took w at_ opcode _) fun _ => .pure _

/-- What was fetched ends as it should. -/
theorem runFetched_took (w : Wiring σ) {s : State}
    (argument : (decode w.geometry.family (bytes.getD 0 0)).length = 2 →
      s.argument = bytes.getD 1 0) (at_ next : UInt16) :
    Ensures (Took w.geometry pc bytes (· = next))
      (runFetched w at_ (bytes.getD 0 0) (decode w.geometry.family (bytes.getD 0 0)) s)
      fun _ => Took w.geometry pc bytes (Leaves w.geometry s.skip next bytes) := by
  -- a skip leaves the program counter alone, whatever it skips
  refine .ite (fun skips => .mapped fun m took => ?_) fun runs => ?_
  · refine (runSkipped_took w at_ _ _ m took).weaken fun here stays => ?_
    rwa [Leaves, if_pos skips]
  have ends {m : Machine State σ} (took : Took w.geometry pc bytes
      ((operation w.geometry.family bytes).Ends w.geometry next (bytes.getD 1 0)) m) :
      Took w.geometry pc bytes (Leaves w.geometry s.skip next bytes) m := by
    refine took.weaken fun here ended => ?_
    rwa [Leaves, if_neg runs]
  refine .ite (fun illegal m took => ?_) fun _ => ?_
  · -- so does an illegal opcode, and it is no transfer
    have stays : (operation w.geometry.family bytes).isTransfer = false := by
      rw [operation, illegal]
      rfl
    exact ends ((runIllegal_took w at_ _ _ m took).weaken fun _ => (Op.ends_of_stays stays).mpr)
  · obtain ⟨fits, long⟩ := decode_fits w.geometry.family (bytes.getD 0 0)
    refine .keepsBind (tickTimer_took w _) fun _ => .bind
      (perform_took w fits next fun uses => argument (long uses)) fun _ => .mapped fun m took => ?_
    exact ends (retire_took w at_ _ _ m took)

theorem runInstruction_instructed (valid : w.geometry.validate = .ok ()) :
    Ensures (Fetching w.geometry pc skip []) (runInstruction w)
      fun _ => Instructed w.geometry pc skip := by
  rw [runInstruction_eq]
  refine .bind (V := fun _ => Fetching w.geometry pc skip []) (fun _ fetching => fetching) fun r =>
    .keepsBind (fun m fetching => ⟨fetching.bus, fetching.pc, fetching.skip⟩) fun _ =>
    .bind (fetchInstruction_fetching valid) ?_
  rintro ⟨_, _⟩ m ⟨bytes, ⟨⟩, whole, fetching, argument⟩
  have start : Took w.geometry pc bytes (· = m.core.regs.pc) m :=
    ⟨[], by rw [fetching.bus, List.append_nil], nofun, rfl⟩
  have took := runFetched_took w argument r.pc m.core.regs.pc m start
  rw [fetching.skip] at took
  exact ⟨bytes, m.core.regs.pc, whole, fetching.pc, took⟩

/-- The core has looked at its lines and is about to run an instruction: no interrupt is due. -/
def State.Proceeds (s : State) : Prop := interruptAllowed s = false

instance (s : State) : Decidable s.Proceeds := inferInstanceAs (Decidable (_ = _))

/-- A core that a released line lets go has done nothing else. -/
theorem State.released_looked (s restarted : State) :
    (s.looked false restarted).bus = s.bus ∧ (s.looked false restarted).regs = s.regs ∧
      (s.looked false restarted).skip = s.skip := by
  unfold looked
  split
  · contradiction
  · exact ⟨rfl, rfl, rfl⟩
  · contradiction
  · exact ⟨rfl, rfl, rfl⟩

/-- To look at the lines makes no bus cycle, and moves neither the program counter nor a skip. -/
theorem sample_fetching {m : Machine State σ} (released : Released w m) :
    Fetching w.geometry m.core.regs.pc.toUInt32 m.core.skip [] (sample w m).2 := by
  have core := sampleReset_core (m := unobserved m) released
  have looked : Fetching w.geometry m.core.regs.pc.toUInt32 m.core.skip []
      (sampleReset w (unobserved m)).2 := by
    obtain ⟨bus, regs, skip⟩ := State.released_looked (unobserved m).core
      (reset w ⟨(unobserved m).core,
        ((unobserved m).world.onLatch w.number (·.sample resetLine .level)).2⟩).2.core
    rw [← core] at bus regs skip
    exact ⟨bus, congrArg (·.pc.toUInt32) regs, skip⟩
  have latches : Keeps (Fetching w.geometry m.core.regs.pc.toUInt32 m.core.skip [])
      (latchRequest w) :=
    .bind (fun _ fetching => ⟨fetching.bus, fetching.pc, fetching.skip⟩) fun _ =>
      .ite (fun _ _ fetching => ⟨fetching.bus, fetching.pc, fetching.skip⟩) fun _ => .pure _
  exact latches _ looked

/-- An action that runs an instruction. -/
theorem advance_instructed (valid : w.geometry.validate = .ok ()) {m : Machine State σ}
    (awake : m.core.exec.latchedFault? = none) (released : Released w m)
    (proceeds : (sample w m).2.core.Proceeds) (remaining : Nat) :
    RunsAt m.core.regs.pc (advance w remaining m).1 ∧
      Instructed w.geometry m.core.regs.pc.toUInt32 m.core.skip (advance w remaining m).2 := by
  have fetching := sample_fetching released
  have pc : (sample w m).2.core.regs.pc = m.core.regs.pc := UInt16.toUInt32_inj.mp fetching.pc
  have acted : advance w remaining m = runInstruction w (sample w m).2 := by
    rw [advance_sampled awake released]
    show act w (sample w m).2 = _
    unfold act
    rw [eval_bind, eval_getState, eval_ite, if_neg (Bool.eq_false_iff.mp proceeds)]
  rw [acted, ← pc]
  refine ⟨runInstruction_runsAt w _, ?_⟩
  rw [pc]
  exact runInstruction_instructed valid _ fetching

end Instructions

end Microboard.Ucom4
