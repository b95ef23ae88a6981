import Microboard.Bus.AddressMap

/-!
# Flat memory

What an address map is to whoever uses it: a function from addresses to what they hold. A flat
memory has no regions and no offsets into them, and it keeps a value as it was written; only
reading cuts it to the width of the data.

- **§1** What an address holds.
- **§2** Mapping and loading.
- **§3** Access.
- **§4** Commands of a host, and how maps and flat memories answer them.
-/

namespace Microboard

/-! ## §1 Contents -/

namespace FlatMemory

/-- What an address holds. -/
inductive Content (δ : Type) where
  /-- The value that was stored last. -/
  | ram (value : UInt8)
  /-- The value that was loaded last. -/
  | rom (value : UInt8)
  | device (handlers : Device δ)

namespace Content

variable {δ : Type}

/-- A write by the program replaces what RAM holds. -/
def write (value : UInt8) : Content δ → Content δ
  | .ram _ => .ram value
  | .rom image => .rom image
  | .device handlers => .device handlers

/-- A load by the host replaces what RAM or ROM holds. -/
def load (value : UInt8) : Content δ → Content δ
  | .ram _ => .ram value
  | .rom _ => .rom value
  | .device handlers => .device handlers

/-- The value held, where there is one. -/
def held? : Content δ → Option UInt8
  | .ram value | .rom value => some value
  | .device _ => none

def device? : Content δ → Option (Device δ)
  | .device handlers => some handlers
  | .ram _ | .rom _ => none

/-- Reading calls a device, once and with its address. -/
def read (address : UInt32) : Content δ → Access δ UInt8
  | .ram value | .rom value => pure value
  | .device handlers => handlers.read address

/-- So does writing; it tells nobody else. -/
def announce (address : UInt32) (value : UInt8) : Content δ → Access δ Unit
  | .ram _ | .rom _ => pure ()
  | .device handlers => handlers.write address value

end Content

/-- A mapped address. -/
structure Place (δ : Type) where
  /-- First of the addresses that were mapped together with this one. -/
  block : UInt32
  waitStates : UInt32 := 0
  content : Content δ

def Place.alter {δ : Type} (change : Content δ → Content δ) (place : Place δ) : Place δ :=
  { place with content := change place.content }

end FlatMemory

/-- A memory that is a function from decoded addresses to what they hold. -/
structure FlatMemory (δ : Type) where
  config : SpaceConfig
  /-- What is mapped at each address. -/
  places : UInt32 → Option (FlatMemory.Place δ) := fun _ => none
  unmappedFill : UInt8 := 0xFF
  /-- Wait states of all accesses since they were last taken. -/
  owed : Nat := 0

/-- Consecutive addresses, in ascending order. -/
def consecutive (address : UInt32) (count : Nat) : List UInt32 :=
  (List.range count).map fun index => address + UInt32.ofNat index

theorem consecutive_succ (address : UInt32) (count : Nat) :
    consecutive address (count + 1) = address :: consecutive (address + 1) count := by
  unfold consecutive
  rw [List.range_succ_eq_map, List.map_cons, List.map_map]
  have next (index : Nat) :
      address + UInt32.ofNat (index + 1) = address + 1 + UInt32.ofNat index := by
    rw [UInt32.ofNat_add, UInt32.add_comm (UInt32.ofNat index), UInt32.add_assoc]
    rfl
  have rest : ((fun index => address + UInt32.ofNat index) ∘ Nat.succ) =
      fun index => address + 1 + UInt32.ofNat index := funext next
  rw [rest]
  exact congrArg (· :: _) (UInt32.add_zero address)

theorem mem_consecutive {first last address : UInt32} (ordered : first ≤ last) :
    address ∈ consecutive first (last.toNat - first.toNat + 1) ↔
      first ≤ address ∧ address ≤ last := by
  have ends := UInt32.le_iff_toNat_le.mp ordered
  have bound := last.toNat_lt
  have at_index {index : Nat} (inside : index < last.toNat - first.toNat + 1) :
      (first + UInt32.ofNat index).toNat = first.toNat + index := by
    rw [UInt32.toNat_add, UInt32.toNat_ofNat']
    omega
  rw [UInt32.le_iff_toNat_le, UInt32.le_iff_toNat_le]
  constructor
  · intro mem
    obtain ⟨index, inRange, rfl⟩ := List.mem_map.mp mem
    have inside := List.mem_range.mp inRange
    rw [at_index inside]
    omega
  · intro ⟨above, below⟩
    have inside : address.toNat - first.toNat < last.toNat - first.toNat + 1 := by omega
    refine List.mem_map.mpr ⟨address.toNat - first.toNat, List.mem_range.mpr inside, ?_⟩
    rw [← UInt32.toNat_inj, at_index inside]
    omega

namespace FlatMemory

variable {δ : Type} (memory : FlatMemory δ)

/-! ## §2 Mapping and loading -/

/-- An address as the bus carries it. -/
def decode (address : UInt32) : UInt32 := address &&& memory.config.addressMask

/-- A value cut to the width of the data. -/
def cut (value : UInt8) : UInt8 := value &&& memory.config.dataMask.toUInt8

/-- Whether the range `first..=last` is non-empty, inside the space and has nothing mapped. -/
def isFree (first last : UInt32) : Bool :=
  first ≤ last && last ≤ memory.config.addressMask &&
    (consecutive first (last.toNat - first.toNat + 1)).all fun address =>
      (memory.places address).isNone

/-- Maps a free range, and says whether it was free. -/
def map (first last : UInt32) (content : UInt32 → Content δ) : Bool × FlatMemory δ :=
  if memory.isFree first last then
    (true,
      { memory with
        places := fun address =>
          if first ≤ address ∧ address ≤ last then
            some { block := first, content := content address }
          else
            memory.places address })
  else
    (false, memory)

/-- Maps an image that is not empty, has a length of 32 bits and does not run past the last 32-bit
address. -/
def mapImage (first : UInt32) (image : List UInt8) : Bool × FlatMemory δ :=
  if image = [] ∨ UInt32.size ≤ image.length ∨ UInt32.size < first.toNat + image.length then
    (false, memory)
  else
    memory.map first (UInt32.ofNat (first.toNat + image.length - 1)) fun address =>
      .rom (image.getD (address - first).toNat 0)

/-- Sets the wait states of all that was mapped together with an address. -/
def setWaitStates (address cycles : UInt32) : Bool × FlatMemory δ :=
  match memory.places (memory.decode address) with
  | none => (false, memory)
  | some place =>
    (true,
      { memory with
        places := fun address => (memory.places address).map fun other =>
          if other.block = place.block then { other with waitStates := cycles } else other })

/-- Changes what one decoded address holds. -/
def alter (address : UInt32) (change : Content δ → Content δ) : FlatMemory δ :=
  { memory with
    places := fun other =>
      if other = address then (memory.places other).map (Place.alter change)
      else memory.places other }

/-- A change that leaves the content of an address as it is does nothing. -/
theorem alter_same {address : UInt32} {change : Content δ → Content δ} {place : Place δ}
    (mapped : memory.places address = some place) (same : change place.content = place.content) :
    memory.alter address change = memory := by
  have places : (memory.alter address change).places = memory.places := by
    funext other
    show (if other = address then _ else _) = _
    split
    · next here =>
      rw [here, mapped]
      exact congrArg (fun content => some { place with content }) same
    · rfl
  exact congrArg (fun places => { memory with places }) places

/-- Loads bytes at consecutive addresses. -/
def load (memory : FlatMemory δ) (address : UInt32) : List UInt8 → FlatMemory δ
  | [] => memory
  | byte :: bytes =>
    (memory.alter (memory.decode address) (Content.load byte)).load (address + 1) bytes

/-! ## §3 Access -/

/-- The value held at an address; what a device would answer is not asked. -/
def peek (address : UInt32) : UInt8 :=
  memory.cut <| ((memory.places (memory.decode address)).bind fun place =>
    place.content.held?).getD memory.unmappedFill

def owe (cycles : UInt32) : FlatMemory δ := { memory with owed := memory.owed + cycles.toNat }

def readUnit (address : UInt32) : Access δ (UInt8 × FlatMemory δ) :=
  let decoded := memory.decode address
  match memory.places decoded with
  | none => pure (memory.cut memory.unmappedFill, memory)
  | some place => do
    let value ← place.content.read decoded
    pure (memory.cut value, memory.owe place.waitStates)

def writeUnit (address : UInt32) (value : UInt8) : Access δ (FlatMemory δ) :=
  let decoded := memory.decode address
  match memory.places decoded with
  | none => pure memory
  | some place => do
    place.content.announce decoded (memory.cut value)
    pure ((memory.alter decoded (Content.write value)).owe place.waitStates)

/-- Reads units one after the other. -/
def readEach (memory : FlatMemory δ) : List UInt32 → Access δ (List UInt8 × FlatMemory δ)
  | [] => pure ([], memory)
  | address :: addresses => do
    let (unit, memory) ← memory.readUnit address
    let (units, memory) ← memory.readEach addresses
    pure (unit :: units, memory)

/-- Writes units one after the other. -/
def writeEach (memory : FlatMemory δ) : List (UInt32 × UInt8) → Access δ (FlatMemory δ)
  | [] => pure memory
  | (address, unit) :: rest => do
    let memory ← memory.writeUnit address unit
    memory.writeEach rest

/-- A byte is one unit; wider values are put together from the units at consecutive addresses. -/
def read : AccessWidth → UInt32 → Access δ (UInt32 × FlatMemory δ)
  | .byte, address => do
    let (unit, memory) ← memory.readUnit address
    pure (unit.toUInt32, memory)
  | width, address => do
    let (units, memory) ← memory.readEach (consecutive address width.units)
    pure (assemble units memory.config.dataWidth memory.config.endianness, memory)

/-- The low byte of a value is one unit; wider values are taken apart. -/
def write : AccessWidth → UInt32 → UInt32 → Access δ (FlatMemory δ)
  | .byte, address, value => memory.writeUnit address value.toUInt8
  | width, address, value =>
    memory.writeEach ((consecutive address width.units).zip
      (split value width.units memory.config.dataWidth memory.config.endianness))

/-- The sum of what is owed, as far as 32 bits can tell it. -/
def takeWaitStates : UInt32 × FlatMemory δ :=
  (UInt32.ofNat (min memory.owed waitMax), { memory with owed := 0 })

end FlatMemory

/-! ## §4 Commands -/

/-- What a host can ask of a memory. -/
inductive MapCommand (δ : Type) where
  | mapRam (first last : UInt32)
  | mapRom (first : UInt32) (image : List UInt8)
  | mapDevice (first last : UInt32) (handlers : Device δ)
  | setWaitStates (address cycles : UInt32)
  | load (address : UInt32) (bytes : List UInt8)
  | fill (value : UInt8)
  | peek (address : UInt32)
  | read (width : AccessWidth) (address : UInt32)
  | write (width : AccessWidth) (address value : UInt32)
  | takeWaitStates

/-- Answer to a command. -/
inductive MapAnswer where
  | done
  | accepted (yes : Bool)
  | unit (value : UInt8)
  | value (value : UInt32)
  deriving DecidableEq, Repr

variable {δ : Type}

namespace AddressMap

/-- A refused mapping leaves the map as it was. -/
def attempt (map : AddressMap δ) : Except SetupError (AddressMap δ) → Bool × AddressMap δ
  | .ok mapped => (true, mapped)
  | .error _ => (false, map)

def perform (map : AddressMap δ) : MapCommand δ → Access δ (MapAnswer × AddressMap δ)
  | .mapRam first last => pure ((map.attempt (map.mapRam first last)).map .accepted id)
  | .mapRom first image => pure ((map.attempt (map.mapRom first image)).map .accepted id)
  | .mapDevice first last handlers =>
    pure ((map.attempt (map.mapDevice first last handlers)).map .accepted id)
  | .setWaitStates address cycles => pure ((map.setWaitStates address cycles).map .accepted id)
  | .load address bytes => pure (.done, map.load address bytes)
  | .fill value => pure (.done, map.withUnmappedFill value)
  | .peek address => pure (.unit (map.peek address), map)
  | .read width address => do
    let (value, map) ← map.read width address
    pure (.value value, map)
  | .write width address value => do
    let map ← map.write width address value
    pure (.done, map)
  | .takeWaitStates => pure (map.takeWaitStates.map .value id)

/-- What a map answers to commands one after the other. -/
def answers (map : AddressMap δ) : List (MapCommand δ) → Access δ (List MapAnswer)
  | [] => pure []
  | command :: commands => do
    let (answer, map) ← map.perform command
    let rest ← map.answers commands
    pure (answer :: rest)

end AddressMap

namespace FlatMemory

def perform (memory : FlatMemory δ) : MapCommand δ → Access δ (MapAnswer × FlatMemory δ)
  | .mapRam first last => pure ((memory.map first last fun _ => .ram 0).map .accepted id)
  | .mapRom first image => pure ((memory.mapImage first image).map .accepted id)
  | .mapDevice first last handlers =>
    pure ((memory.map first last fun _ => .device handlers).map .accepted id)
  | .setWaitStates address cycles => pure ((memory.setWaitStates address cycles).map .accepted id)
  | .load address bytes => pure (.done, memory.load address bytes)
  | .fill value => pure (.done, { memory with unmappedFill := value })
  | .peek address => pure (.unit (memory.peek address), memory)
  | .read width address => do
    let (value, memory) ← memory.read width address
    pure (.value value, memory)
  | .write width address value => do
    let memory ← memory.write width address value
    pure (.done, memory)
  | .takeWaitStates => pure (memory.takeWaitStates.map .value id)

/-- What a flat memory answers to commands one after the other. -/
def answers (memory : FlatMemory δ) : List (MapCommand δ) → Access δ (List MapAnswer)
  | [] => pure []
  | command :: commands => do
    let (answer, memory) ← memory.perform command
    let rest ← memory.answers commands
    pure (answer :: rest)

end FlatMemory

end Microboard
