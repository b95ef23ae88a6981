import Microboard.Disassembly
import Microboard.Execution

/-!
# Listings beside execution

A listing follows its own idea of how long instructions are and in which order their bytes come.
The notions here are those in which it can be compared with what a core does.

- **§1** Addresses and bytes in fetch order.
- **§2** The bus cycles of fetches.
- **§3** Rows that are as long as their first bytes say, and what they list.
-/

namespace Microboard.Listing

variable (listing : Listing)

/-! ## §1 Fetch order -/

theorem advance_add (pc : UInt32) (first second : Nat) :
    listing.advance pc (first + second) = listing.advance (listing.advance pc first) second := by
  induction first generalizing pc with
  | zero => rw [Nat.zero_add]; rfl
  | succ first ih =>
    rw [Nat.succ_add]
    exact ih (listing.nextPc pc)

theorem advance_succ (pc : UInt32) (steps : Nat) :
    listing.advance pc (steps + 1) = listing.nextPc (listing.advance pc steps) :=
  listing.advance_add pc steps 1

theorem window_add (peek : UInt32 → UInt8) (pc : UInt32) (first second : Nat) :
    listing.window peek pc (first + second) =
      listing.window peek pc first ++ listing.window peek (listing.advance pc first) second := by
  induction first generalizing pc with
  | zero => rw [Nat.zero_add]; rfl
  | succ first ih =>
    rw [Nat.succ_add]
    exact congrArg (peek pc :: ·) (ih (listing.nextPc pc))

/-! ## §2 Fetches -/

/-- Bus cycles of the fetches of some bytes from an address on: a read of one unit for each, in
fetch order. -/
def fetches (listing : Listing) (role : UInt32 → BusRole) (pc : UInt32) : List UInt8 → List BusCycle
  | [] => []
  | byte :: bytes =>
    ⟨role pc, .read, .byte, pc, byte⟩ :: listing.fetches role (listing.nextPc pc) bytes

theorem fetches_concat (role : UInt32 → BusRole) (pc : UInt32) (bytes : List UInt8)
    (byte : UInt8) :
    listing.fetches role pc (bytes ++ [byte]) =
      listing.fetches role pc bytes ++
        [⟨role (listing.advance pc bytes.length), .read, .byte,
          listing.advance pc bytes.length, byte⟩] := by
  induction bytes generalizing pc with
  | nil => rfl
  | cons first bytes ih =>
    exact congrArg (⟨role pc, .read, .byte, pc, first⟩ :: ·) (ih (listing.nextPc pc))

/-- Fetches read what they take. -/
theorem map_value_fetches (role : UInt32 → BusRole) (pc : UInt32) (bytes : List UInt8) :
    (listing.fetches role pc bytes).map (·.value) = bytes := by
  induction bytes generalizing pc with
  | nil => rfl
  | cons byte bytes ih => exact congrArg (byte :: ·) (ih _)

/-! ## §3 Rows -/

/-- The bytes make up one instruction. -/
def Whole (pc : UInt32) (bytes : List UInt8) : Prop := (listing.row pc bytes).bytes = bytes

instance (pc : UInt32) (bytes : List UInt8) : Decidable (listing.Whole pc bytes) :=
  inferInstanceAs (Decidable (_ = _))

/-- Rows show as many bytes as the first of them ask for: at least one, not more than are looked at,
and the same whatever follows an instruction. The addresses are those of the program space. -/
structure Sized (size : List UInt8 → Nat) : Prop where
  bytes : ∀ pc bytes, (listing.row pc bytes).bytes =
    (List.range (size bytes)).map fun index => bytes.getD index 0
  pos : ∀ bytes, 0 < size bytes
  bounded : ∀ bytes, size bytes ≤ listing.maxBytes
  append : ∀ {bytes : List UInt8}, size bytes = bytes.length →
    ∀ more, size (bytes ++ more) = bytes.length
  address : ∀ pc bytes, (listing.row (listing.nextPc pc) bytes).address = listing.nextPc pc

namespace Sized

variable {listing} {size : List UInt8 → Nat}

theorem bytes_append (sized : listing.Sized size) {bytes : List UInt8}
    (whole : size bytes = bytes.length) (pc : UInt32) (more : List UInt8) :
    (listing.row pc (bytes ++ more)).bytes = bytes := by
  rw [sized.bytes, sized.append whole]
  apply List.ext_getElem
  · simp
  · intro index _ within
    simp [List.getElem?_append_left within, List.getElem?_eq_getElem within]

theorem whole_iff (sized : listing.Sized size) {pc : UInt32} {bytes : List UInt8} :
    listing.Whole pc bytes ↔ size bytes = bytes.length := by
  constructor
  · intro same
    have lengths := congrArg List.length ((sized.bytes pc bytes).symm.trans same)
    rwa [List.length_map, List.length_range] at lengths
  · intro whole
    have shown := sized.bytes_append whole pc []
    rwa [List.append_nil] at shown

theorem length_pos (sized : listing.Sized size) {pc : UInt32} {bytes : List UInt8}
    (whole : listing.Whole pc bytes) : 0 < bytes.length := by
  rw [← sized.whole_iff.mp whole]
  exact sized.pos bytes

/-- Beyond its first byte an instruction lies at addresses of the program space. -/
theorem address_advance (sized : listing.Sized size) {pc : UInt32} {bytes : List UInt8}
    (whole : listing.Whole pc bytes) (bytes' : List UInt8) :
    (listing.row (listing.advance pc bytes.length) bytes').address =
      listing.advance pc bytes.length := by
  -- the last step to the address is one in fetch order
  obtain ⟨before, length⟩ := Nat.exists_eq_add_of_lt (sized.length_pos whole)
  rw [length, Nat.zero_add, advance_succ]
  exact sized.address _ _

/-- An instruction whose bytes memory shows is listed with these bytes. -/
theorem row_window (sized : listing.Sized size) {peek : UInt32 → UInt8} {pc : UInt32}
    {bytes : List UInt8} (whole : listing.Whole pc bytes)
    (shown : bytes = listing.window peek pc bytes.length) :
    (listing.row pc (listing.window peek pc listing.maxBytes)).bytes = bytes := by
  have length := sized.whole_iff.mp whole
  obtain ⟨further, total⟩ := Nat.exists_eq_add_of_le (sized.bounded bytes)
  rw [total, length, window_add, ← shown]
  exact sized.bytes_append length pc _

end Sized

variable {listing}

/-- Instructions that lie one after the other from an address on, each with its address and the
bytes that memory shows there. -/
def Consecutive (listing : Listing) (peek : UInt32 → UInt8) (pc : UInt32) :
    List (UInt32 × List UInt8) → Prop
  | [] => True
  | (address, bytes) :: rest =>
    address = pc ∧ listing.Whole pc bytes ∧ bytes = listing.window peek pc bytes.length ∧
      listing.Consecutive peek (listing.advance pc bytes.length) rest

/-- They are what is listed. -/
theorem Sized.rows_consecutive {size : List UInt8 → Nat} (sized : listing.Sized size)
    {peek : UInt32 → UInt8} {pc : UInt32} (inside : ∀ bytes, (listing.row pc bytes).address = pc)
    {instructions : List (UInt32 × List UInt8)}
    (consecutive : listing.Consecutive peek pc instructions) :
    (listing.rows peek pc instructions.length).map (fun row => (row.address, row.bytes)) =
      instructions := by
  induction instructions generalizing pc with
  | nil => rfl
  | cons instruction rest ih =>
    -- the first row is the instruction, and the others start where it ends
    obtain ⟨address, bytes⟩ := instruction
    obtain ⟨rfl, whole, shown, consecutive⟩ := consecutive
    have listed := sized.row_window whole shown
    have pos := sized.length_pos whole
    have length : max
        (listing.row address (listing.window peek address listing.maxBytes)).length 1 =
          bytes.length := by
      unfold DisassemblyRow.length
      rw [listed]
      omega
    rw [List.length_cons, rows, List.map_cons, length, inside, listed]
    exact congrArg _ (ih (sized.address_advance whole) consecutive)

end Microboard.Listing
