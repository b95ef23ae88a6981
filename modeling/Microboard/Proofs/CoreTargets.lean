import Microboard.Proofs.CoreListings
import Microboard.Proofs.Hexadecimal

/-!
# Targets of jumps in uCOM-4 listings

A listing shows a jump or a call by the address that its bytes spell out. Where execution goes is
cut to the width of the program counter, which the listing does for jumps within a block only.

- **§1** Jumps and calls with a target of their own.
- **§2** Operands beside program counters.
- **§3** What the listing shows of an instruction that a core executes.
-/

namespace Microboard

namespace Ucom4

/-! ## §1 Targets -/

namespace Op

/-- Jumps and calls that go where their bytes say. -/
def isDirect : Op → Bool
  | .jmp _ | .cal _ | .czp _ | .jcp _ => true
  | _ => false

/-- Place in its block to which a jump goes that stays in the block. -/
def place? : Op → Option UInt8
  | .jcp low => some low
  | _ => none

/-- Address that the bytes of a jump to any page, or of a call, spell out. -/
def far? (argument : UInt8) : Op → Option UInt16
  | .jmp high | .cal high => some (high.toUInt16 <<< 8 ||| argument.toUInt16)
  | _ => none

end Op

theorem decodeFull_place : ∀ opcode < 256, (decodeFull (UInt8.ofNat opcode)).place?.all
    (fun place => place.toNat < 64 && !hasArgument (UInt8.ofNat opcode)) = true := by
  decide +kernel

/-- A jump within a block has an opcode only, in which the place in the block has six bits. -/
theorem decode_place {family : Family} {opcode place : UInt8}
    (within : (decode family opcode).operation = .jcp place) :
    place.toNat < 64 ∧ (decode family opcode).length = 1 := by
  have full := decodeFull_place opcode.toNat opcode.toNat_lt
  rw [UInt8.ofNat_toNat] at full
  -- the reduced set has the jump as well, so it is that of the full set
  have same : decodeFull opcode = .jcp place := by
    have decoded : decodeOp family opcode = .jcp place := within
    unfold decodeOp at decoded
    dsimp only at decoded
    split at decoded
    · cases decoded
    · exact decoded
  rw [same] at full
  simp only [Op.place?, Option.all_some, Bool.and_eq_true, decide_eq_true_eq,
    Bool.not_eq_true'] at full
  refine ⟨full.1, ?_⟩
  show (if hasArgument opcode then 2 else 1) = 1
  simp [full.2]

/-! ## §2 Operands -/

/-- A block of a page and a place in it make an address of the program space. -/
theorem Geometry.nearAddress_inside {g : Geometry} (valid : g.validate = .ok ()) {next : UInt16}
    (inside : next &&& g.programMask = next) {place : UInt8} (low : place.toNat < 64) :
    g.nearAddress next place.toUInt16 = next &&& 0x7C0 ||| place.toUInt16 := by
  have block : next &&& 0x7C0 &&& g.programMask = next &&& 0x7C0 := by
    rw [UInt16.and_assoc, UInt16.and_comm 0x7C0, ← UInt16.and_assoc, inside]
  have reaches : g.Reaches place.toUInt16 := by
    refine g.reaches_low ?_
    rw [UInt8.toNat_toUInt16]
    omega
  unfold nearAddress
  rw [and_masked, block, reaches valid]

/-- The operand of a jump or call shows where it ends exactly if what it spells out lies in the
program space. -/
theorem operandText_eq_iff {g : Geometry} {shown next here : UInt16} {opcode argument : UInt8}
    {operation : Op} (direct : operation.isDirect = true)
    (block : ∀ place, operation = .jcp place →
      g.nearAddress next place.toUInt16 = shown &&& 0x7C0 ||| place.toUInt16)
    (ends : operation.Ends g next argument here) :
    operandText shown opcode argument operation = "$" ++ Hex.upper 3 here.toNat ↔
      ∀ target ∈ operation.far? argument, target &&& g.programMask = target := by
  -- two texts are the same only if the addresses are
  have spelt (target : UInt16) : hexText 3 target.toNat =
      "$" ++ Hex.upper 3 (target &&& g.programMask).toNat ↔
        ∀ far ∈ some target, far &&& g.programMask = far := by
    constructor
    · rintro same _ ⟨⟩
      have numbers := Hex.upper_inj ((String.append_right_inj _).mp same)
      exact (UInt16.toNat_inj.mp numbers).symm
    · intro fits
      rw [fits target rfl]
      rfl
  cases operation with
  | jmp high | cal high =>
    subst ends
    exact spelt _
  | czp vector =>
    subst ends
    exact iff_of_true rfl nofun
  | jcp place =>
    subst ends
    refine iff_of_true ?_ nofun
    rw [block place rfl]
    rfl
  | _ => cases direct

/-- The listing works out the block of a jump from the address that the core has gone on to. -/
theorem nearAddress_listed {g : Geometry} (valid : g.validate = .ok ()) {pc next : UInt16}
    {bytes : List UInt8} (whole : (listing g).Whole pc.toUInt32 bytes)
    (follows : next.toUInt32 = (listing g).advance pc.toUInt32 bytes.length) {place : UInt8}
    (within : operation g.family bytes = .jcp place) :
    g.nearAddress next place.toUInt16 =
      g.nextAddress (pc.toUInt32.toUInt16 &&& g.programMask) &&& 0x7C0 ||| place.toUInt16 := by
  obtain ⟨low, alone⟩ := decode_place within
  have single : bytes.length = 1 := ((sized g).whole_iff.mp whole).symm.trans alone
  have next_eq : next = g.nextAddress pc := by
    rw [single] at follows
    exact UInt16.toUInt32_inj.mp (follows.trans (nextPc_toUInt32 valid pc))
  have inside : next &&& g.programMask = next := by
    rw [next_eq, Geometry.nextAddress, UInt16.and_assoc, UInt16.and_self]
  rw [Geometry.nearAddress_inside valid inside low, UInt16.toUInt16_toUInt32,
    Geometry.nextAddress_masked valid, next_eq]

end Ucom4

/-! ## §3 Executed jumps and calls -/

namespace Core

variable {σ : Type}

/-- A listing shows of a jump or call that a core executes, unless the accumulator or the stack
decides where it goes, the program counter that it leaves: for a jump within a block and a call to a
vector always, and for a jump to any page and any other call exactly if the address that its bytes
spell out lies in the program space. If not, the listing shows an address that the part does not
have. -/
theorem target_listed_iff {w : Ucom4.Wiring σ} {s : Ucom4.State} {world : World σ}
    (valid : w.geometry.validate = .ok ()) (ready : Ready ⟨.ucom4 w s, world⟩)
    (executes : s.skip = false) (remaining : Nat) {bytes : List UInt8}
    (took : (Core.ucom4 w s).Took bytes (advance remaining ⟨.ucom4 w s, world⟩).2.core)
    (direct : (Ucom4.operation w.geometry.family bytes).isDirect = true) :
    ((Core.ucom4 w s).listing.row s.regs.pc.toUInt32 bytes).operands =
        "$" ++ Hex.upper 3 (advance remaining ⟨.ucom4 w s, world⟩).2.core.pc.toNat ↔
      ∀ target ∈ (Ucom4.operation w.geometry.family bytes).far? (bytes.getD 1 0),
        target &&& w.geometry.programMask = target := by
  obtain ⟨⟨awake, released⟩, proceeds⟩ := ready
  obtain ⟨-, taken, next, whole, follows, rest, bus, quiet, leaves⟩ :=
    Ucom4.advance_instructed valid awake released proceeds remaining
  obtain rfl := took.unique ⟨whole, rest, bus, quiet⟩
  have ends : (Ucom4.operation w.geometry.family taken).Ends w.geometry next (taken.getD 1 0)
      (advance remaining ⟨.ucom4 w s, world⟩).2.core.pc := by
    unfold Ucom4.Leaves at leaves
    rwa [if_neg (by simp [executes])] at leaves
  exact Ucom4.operandText_eq_iff direct
    (fun place within => Ucom4.nearAddress_listed valid whole follows within) ends

/-- A jump that lies in the program space of its part. -/
theorem target_listed_iff_far :
    let w : Ucom4.Wiring UInt8 := .cell id (fun value _ => value) 0
    let m : Machine (Core UInt8) UInt8 := ⟨.ucom4 w {}, ⟨0xA3, { latches := [.released 2] }, {}⟩⟩
    (m.core.listing.row 0 [0xA3, 0xA3]).operands = "$3A3" ∧ (advance 1 m).2.core.pc = 0x3A3 := by
  intro w m
  have took : m.core.Took [0xA3, 0xA3] (advance 1 m).2.core :=
    ⟨by decide +kernel, [], by decide +kernel, nofun⟩
  have inside : ∀ target ∈ (Ucom4.operation w.geometry.family [0xA3, 0xA3]).far? 0xA3,
      target &&& w.geometry.programMask = target := by
    rintro _ ⟨⟩
    decide +kernel
  have listed := (target_listed_iff (w := w) rfl (by decide +kernel) rfl 1 took rfl).mpr inside
  have pc : (advance 1 m).2.core.pc = 0x3A3 := by decide +kernel
  exact ⟨listed.trans (by rw [pc]; decide +kernel), pc⟩

/-- A jump on a part whose program counter has ten bits, spelt with eleven. -/
theorem target_listed_beyond :
    let config : Ucom4.Config := { part := .upd552 }
    let program : Space Unit :=
      { config := ⟨"program", 10, 8, .little⟩
        read := fun _ address devices => ⟨[0xA7, 0xFF].getD address.toNat 0, devices, []⟩
        write := fun _ _ _ devices => ⟨(), devices, []⟩ }
    let nibbles (name : String) (width : Nat) : Space Unit :=
      .cell ⟨name, width, 4, .little⟩ (fun _ => 0) fun _ devices => devices
    let w : Ucom4.Wiring Unit :=
      { config, program, data := nibbles "data" 6, io := nibbles "io" 4, number := 0 }
    let start := (Ucom4.reset w ⟨{}, ⟨(), {}, {}⟩⟩).2.core
    let m : Machine (Core Unit) Unit := ⟨.ucom4 w start, ⟨(), { latches := [.released 2] }, {}⟩⟩
    (∃ world, Ucom4.build config program (nibbles "data" 6) (nibbles "io" 4) ⟨(), {}, {}⟩ =
        .ok ((w, start), world)) ∧
      Ready m ∧ start.skip = false ∧ m.core.Took [0xA7, 0xFF] (advance 1 m).2.core ∧
      (m.core.listing.row 0 [0xA7, 0xFF]).operands = "$7FF" ∧
      (advance 1 m).2.core.pc = 0x3FF := by
  intro config program nibbles w start m
  have took : m.core.Took [0xA7, 0xFF] (advance 1 m).2.core :=
    ⟨by decide +kernel, [], by decide +kernel, nofun⟩
  exact ⟨⟨_, rfl⟩, by decide +kernel, by decide +kernel, took, by decide +kernel, by decide +kernel⟩

end Core

end Microboard
