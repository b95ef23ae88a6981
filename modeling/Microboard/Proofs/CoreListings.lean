import Microboard.Proofs.CoreCycles
import Microboard.Proofs.CoreRequests
import Microboard.Proofs.Sm83.Fetching
import Microboard.Proofs.Ucom4.Fetching

/-!
# Listings of cores

A listing takes the lengths of instructions from tables, and a core fetches what its operations ask
for. Both go through a program the same way.

- **§1** Where a core is, and when it runs an instruction.
- **§2** What it has fetched.
- **§3** Code without jumps is retired as it is listed.
-/

namespace Microboard.Core

variable {σ : Type}

/-! ## §1 Instructions -/

def pc : Core σ → UInt16
  | .sm83 _ s => s.regs.pc
  | .ucom4 _ s => s.regs.pc

/-- Bus on which the core fetches the unit at an address. -/
def fetchRole : Core σ → UInt32 → BusRole
  | .sm83 .. => Sm83.fetchRole
  | .ucom4 .. => Ucom4.fetchRole

/-- The geometry of the core, if it has one, is one that the interpreter can run. -/
def Fitted : Core σ → Prop
  | .sm83 .. => True
  | .ucom4 w _ => w.geometry.validate = .ok ()

/-- Having looked at its lines, the core goes on with an instruction. -/
def Proceeds : Core σ → Prop
  | .sm83 _ s => s.Proceeds
  | .ucom4 _ s => s.Proceeds

/-- The core is about to run an instruction. -/
structure Ready (m : Machine (Core σ) σ) : Prop where
  running : Running m
  proceeds : (sample m).2.core.Proceeds

instance (core : Core σ) : Decidable core.Proceeds :=
  match core with
  | .sm83 _ s => inferInstanceAs (Decidable s.Proceeds)
  | .ucom4 _ s => inferInstanceAs (Decidable s.Proceeds)

instance (m : Machine (Core σ) σ) : Decidable (Ready m) :=
  decidable_of_iff (Running m ∧ (sample m).2.core.Proceeds)
    ⟨fun ⟨running, proceeds⟩ => ⟨running, proceeds⟩, fun ⟨running, proceeds⟩ => ⟨running, proceeds⟩⟩

/-- The core is about to execute some bytes, not to skip them, and they are a jump, a call or a
return. -/
def transfers (bytes : List UInt8) : Core σ → Bool
  | .sm83 .. => (Sm83.operation bytes).isTransfer
  | .ucom4 w s => !s.skip && (Ucom4.operation w.geometry.family bytes).isTransfer

/-! ## §2 Fetches -/

/-- Once some bytes are fetched, the rest of what an action does on the bus, until it leaves the
program counter where it is, has no further fetch in it. A part of the uCOM-4 family does not come
back to its program space. On an SM83 core, whose program and data share a space, another fetch would
have moved the program counter beyond the bytes. After those of a transfer, which moves it anyway,
there are only writes to the stack and reads from it. -/
def Fetched (bytes : List UInt8) (rest : List BusCycle) (here : UInt16) : Core σ → Prop
  | .sm83 _ s =>
    (Sm83.operation bytes).Ends s.regs.sp
      (Sm83.listing.advance s.regs.pc.toUInt32 bytes.length) rest here
  | .ucom4 .. => ∀ cycle ∈ rest, cycle.role ≠ .program

/-- In its last action the core has fetched some bytes, which are listed as one instruction: it has
read them one after the other from the program counter on, before it did anything else on the
bus. -/
structure Took (core : Core σ) (bytes : List UInt8) (after : Core σ) : Prop where
  whole : (core.listing.row core.pc.toUInt32 bytes).bytes = bytes
  bus : ∃ rest, after.status.bus =
    core.listing.fetches core.fetchRole core.pc.toUInt32 bytes ++ rest ∧
      core.Fetched bytes rest after.pc

theorem sized (core : Core σ) : ∃ size, core.listing.Sized size := by
  cases core with
  | sm83 w s => exact ⟨_, Sm83.sized⟩
  | ucom4 w s => exact ⟨_, Ucom4.sized w.geometry⟩

/-- What was fetched is what the listing makes of the bus. -/
theorem Took.unique {core after : Core σ} {bytes other : List UInt8} (took : core.Took bytes after)
    (took' : core.Took other after) : other = bytes := by
  obtain ⟨size, sized⟩ := core.sized
  -- the row does not look beyond the fetches, which stand first on the bus
  have shown {bytes : List UInt8} (took : core.Took bytes after) :
      (core.listing.row core.pc.toUInt32 (after.status.bus.map (·.value))).bytes = bytes := by
    obtain ⟨whole, rest, bus, -⟩ := took
    rw [bus, List.map_append, Listing.map_value_fetches]
    exact sized.bytes_append (sized.whole_iff.mp whole) _ _
  rw [← shown took, shown took']

variable {m : Machine (Core σ) σ}

/-- A core that is about to run an instruction runs the one at its program counter, and fetches as
many bytes as are listed. -/
theorem advance_takes (fitted : m.core.Fitted) (ready : Ready m) (remaining : Nat) :
    RunsAt m.core.pc (advance remaining m).1 ∧
      ∃ bytes, m.core.Took bytes (advance remaining m).2.core ∧
        (m.core.transfers bytes = false → (advance remaining m).2.core.pc.toUInt32 =
          m.core.listing.advance m.core.pc.toUInt32 bytes.length) := by
  obtain ⟨core, world⟩ := m
  obtain ⟨running, proceeds⟩ := ready
  cases core with
  | sm83 w s =>
    obtain ⟨awake, released⟩ := running
    obtain ⟨runs, bytes, rest, whole, bus, ends⟩ :=
      Sm83.advance_instructed awake released proceeds remaining
    exact ⟨runs, bytes, ⟨whole, rest, bus, ends⟩, fun stays =>
      (Sm83.Op.ends_of_stays stays ..).mp ends⟩
  | ucom4 w s =>
    obtain ⟨awake, released⟩ := running
    obtain ⟨runs, bytes, next, whole, place, rest, bus, quiet, leaves⟩ :=
      Ucom4.advance_instructed fitted awake released proceeds remaining
    exact ⟨runs, bytes, ⟨whole, rest, bus, quiet⟩, fun stays =>
      (congrArg UInt16.toUInt32 (Ucom4.leaves_of_stays stays leaves)).trans place⟩

/-! ## §3 Straight-line code -/

theorem listing_congr {core core' : Core σ} (same : core.wiring = core'.wiring) :
    core.listing = core'.listing := by
  cases core <;> cases core' <;> cases same <;> rfl

theorem fitted_congr {core core' : Core σ} (same : core.wiring = core'.wiring) :
    core.Fitted ↔ core'.Fitted := by
  cases core <;> cases core' <;> cases same <;> exact Iff.rfl

/-- The address lies in the program space of the core. -/
def Reaches (pc : UInt16) : Core σ → Prop
  | .sm83 .. => True
  | .ucom4 w _ => pc &&& w.geometry.programMask = pc

theorem address_row {core : Core σ} {pc : UInt16} (reaches : core.Reaches pc)
    (bytes : List UInt8) : (core.listing.row pc.toUInt32 bytes).address = pc.toUInt32 := by
  cases core with
  | sm83 w s =>
    show pc.toUInt32 &&& 0xFFFF = pc.toUInt32
    apply UInt32.toNat_inj.mp
    rw [UInt32.toNat_and, UInt16.toNat_toUInt32]
    show pc.toNat &&& 2 ^ 16 - 1 = pc.toNat
    rw [Nat.and_two_pow_sub_one_eq_mod, Nat.mod_eq_of_lt pc.toNat_lt]
  | ucom4 w s =>
    show (pc.toUInt32.toUInt16 &&& w.geometry.programMask).toUInt32 = pc.toUInt32
    rw [UInt16.toUInt16_toUInt32]
    exact congrArg UInt16.toUInt32 reaches

/-- Instructions that a core retires one after the other from an address on, each with its address
and the bytes that were fetched. None of them is a jump, a call or a return, and memory still shows
what was peeked at. Between two of them anything may happen to the core and to its surroundings, as
long as the program counter stays where it is. -/
inductive StraightLine (core : Core σ) (peek : UInt32 → UInt8) :
    UInt16 → List (UInt32 × List UInt8) → Prop where
  | done (pc : UInt16) : StraightLine core peek pc []
  | retired {m : Machine (Core σ) σ} {remaining cycles : Nat} {address : UInt32}
      {bytes : List UInt8} {rest : List (UInt32 × List UInt8)}
      (same : m.core.wiring = core.wiring) (ready : Ready m)
      (retires : (advance remaining m).1 = .ok (.retired address cycles))
      (took : m.core.Took bytes (advance remaining m).2.core)
      (straight : m.core.transfers bytes = false)
      (unmodified : bytes = core.listing.window peek m.core.pc.toUInt32 bytes.length)
      (goesOn : StraightLine core peek (advance remaining m).2.core.pc rest) :
      StraightLine core peek m.core.pc ((address, bytes) :: rest)

theorem StraightLine.consecutive {core : Core σ} (fitted : core.Fitted) {peek : UInt32 → UInt8}
    {pc : UInt16} {instructions : List (UInt32 × List UInt8)}
    (straightLine : StraightLine core peek pc instructions) :
    core.listing.Consecutive peek pc.toUInt32 instructions := by
  induction straightLine with
  | done pc => trivial
  | @retired m remaining _ _ bytes _ same ready retires took straight unmodified _ ih =>
    -- what was fetched fixes the bytes, and the answer of the core fixes the address
    obtain ⟨runs, other, took', moves⟩ :=
      advance_takes ((fitted_congr same).mpr fitted) ready remaining
    obtain rfl := took.unique took'
    rw [retires] at runs
    cases runs
    have whole := took.whole
    have next := moves straight
    rw [listing_congr same] at whole next
    refine ⟨rfl, whole, unmodified, ?_⟩
    rw [← next]
    exact ih

/-- Whatever memory holds, a core that is about to run an instruction first fetches from its program
counter on as many bytes as the listing shows for them, one at a time and in the order of the
listing, and no others. Unless they are a jump, a call or a return that is not skipped, the program
counter ends after them. So code without jumps that is not modified is retired as it is listed. -/
theorem retired_as_listed (core : Core σ) (fitted : core.Fitted) :
    (∀ (m : Machine (Core σ) σ) (remaining : Nat), m.core.wiring = core.wiring → Ready m →
      RunsAt m.core.pc (advance remaining m).1 ∧
        ∃ bytes, m.core.Took bytes (advance remaining m).2.core ∧
          (∀ other, m.core.Took other (advance remaining m).2.core → other = bytes) ∧
          (m.core.transfers bytes = false → (advance remaining m).2.core.pc.toUInt32 =
            core.listing.advance m.core.pc.toUInt32
              (core.listing.row m.core.pc.toUInt32 bytes).length)) ∧
      ∀ (peek : UInt32 → UInt8) (pc : UInt16) (instructions : List (UInt32 × List UInt8)),
        core.Reaches pc → StraightLine core peek pc instructions →
          (core.listing.rows peek pc.toUInt32 instructions.length).map
            (fun row => (row.address, row.bytes)) = instructions := by
  constructor
  · intro m remaining same ready
    obtain ⟨runs, bytes, took, moves⟩ :=
      advance_takes ((fitted_congr same).mpr fitted) ready remaining
    have length : (m.core.listing.row m.core.pc.toUInt32 bytes).length = bytes.length :=
      congrArg List.length took.whole
    rw [← length, listing_congr same] at moves
    exact ⟨runs, bytes, took, fun _ => took.unique, moves⟩
  · intro peek pc instructions reaches straightLine
    obtain ⟨size, sized⟩ := core.sized
    exact sized.rows_consecutive (address_row reaches) (straightLine.consecutive fitted)

/-- A program of loads on an SM83 core, and a skipped jump on the last address of a page. -/
theorem retired_as_listed_loads :
    let w : Sm83.Wiring UInt8 := .cell id (fun value _ => value) 0
    let m : Machine (Core UInt8) UInt8 := ⟨.sm83 w {}, ⟨0x3E, { latches := [.released 6] }, {}⟩⟩
    let part : Ucom4.Wiring UInt8 := .cell id (fun value _ => value) 0
    let skipping : Machine (Core UInt8) UInt8 :=
      ⟨.ucom4 part { regs := { pc := 0x0FF }, skip := true },
        ⟨0xA3, { latches := [.released 2] }, {}⟩⟩
    (m.core.listing.rows (fun _ => 0x3E) 0 2).map (fun row => (row.address, row.bytes)) =
        [(0, [0x3E, 0x3E]), (2, [0x3E, 0x3E])] ∧
      (advance 1 skipping).2.core.pc.toUInt32 = 0x001 := by
  intro w m part skipping
  let next := (advance 1 m).2
  have first : (advance 1 m).1 = .ok (.retired 0 8) := by decide +kernel
  have last : (advance 1 next).1 = .ok (.retired 2 8) := by decide +kernel
  have moved : next.core.pc.toUInt32 = m.core.listing.advance m.core.pc.toUInt32 2 ∧
      (advance 1 next).2.core.pc.toUInt32 = next.core.listing.advance next.core.pc.toUInt32 2 := by
    decide +kernel
  have tookFirst : m.core.Took [0x3E, 0x3E] next.core :=
    ⟨by decide +kernel, [], by decide +kernel, moved.1⟩
  have tookLast : next.core.Took [0x3E, 0x3E] (advance 1 next).2.core :=
    ⟨by decide +kernel, [], by decide +kernel, moved.2⟩
  have loads : StraightLine m.core (fun _ => 0x3E) 0 [(0, [0x3E, 0x3E]), (2, [0x3E, 0x3E])] :=
    .retired rfl (by decide +kernel) first tookFirst rfl rfl
      (.retired rfl (by decide +kernel) last tookLast rfl (by decide +kernel) (.done _))
  obtain ⟨-, bytes, -, unique, moves⟩ :=
    (retired_as_listed skipping.core (by rfl)).1 skipping 1 rfl (by decide +kernel)
  have took : skipping.core.Took [0xA3, 0xA3] (advance 1 skipping).2.core :=
    ⟨by decide +kernel, [], by decide +kernel, nofun⟩
  obtain rfl := unique _ took
  exact ⟨(retired_as_listed m.core trivial).2 _ 0 _ trivial loads,
    (moves rfl).trans (by decide +kernel)⟩

end Microboard.Core
