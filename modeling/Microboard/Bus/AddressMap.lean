import Microboard.Bus.Space
import Microboard.Bus.Units

/-!
# Address maps

An address map is a space put together from RAM, ROM and devices. Addresses are masked to the
width of the bus and units to the width of the data; an address that no region holds reads as a
fill value and swallows writes. Each unit accessed costs the wait states of its region.
-/

namespace Microboard

/-! ## §1 Regions -/

/-- What answers in a region. -/
inductive Backing (δ : Type) where
  | ram (cells : Array UInt8)
  | rom (cells : Array UInt8)
  | device (handlers : Device δ)

namespace Backing

variable {δ : Type}

def device? : Backing δ → Option (Device δ)
  | .device handlers => some handlers
  | .ram _ | .rom _ => none

/-- Stored unit at a position; what a device would answer cannot be seen from here. -/
def cell? (backing : Backing δ) (offset : Nat) : Option UInt8 :=
  match backing with
  | .ram cells | .rom cells => cells[offset]?
  | .device _ => none

/-- A write by the program: RAM takes it, ROM does not. -/
def store (offset : Nat) (value : UInt8) : Backing δ → Backing δ
  | .ram cells => .ram (cells.setIfInBounds offset value)
  | .rom cells => .rom cells
  | .device handlers => .device handlers

/-- A write by the host, which ROM takes too. -/
def patch (offset : Nat) (value : UInt8) : Backing δ → Backing δ
  | .ram cells => .ram (cells.setIfInBounds offset value)
  | .rom cells => .rom (cells.setIfInBounds offset value)
  | .device handlers => .device handlers

def describe : Backing δ → String
  | .ram cells => Text.applied "Ram" [toString cells.size ++ " cells"]
  | .rom cells => Text.applied "Rom" [toString cells.size ++ " cells"]
  | .device _ => "Device"

end Backing

/-- A range of addresses and what answers there. -/
structure Region (δ : Type) where
  first : UInt32
  last : UInt32
  /-- Extra cycles for each unit accessed. -/
  waitStates : UInt32 := 0
  backing : Backing δ

namespace Region

variable {δ : Type}

def contains (region : Region δ) (address : UInt32) : Bool :=
  region.first ≤ address && address ≤ region.last

/-- Whether the region meets the range `first..=last`. -/
def overlaps (region : Region δ) (first last : UInt32) : Bool :=
  first ≤ region.last && region.first ≤ last

/-- Stored unit at an address of the region. -/
def cell? (region : Region δ) (address : UInt32) : Option UInt8 :=
  region.backing.cell? (address - region.first).toNat

/-- A write by the program to an address of the region. -/
def store (address : UInt32) (value : UInt8) : Region δ → Region δ
  | ⟨first, last, waitStates, backing⟩ =>
    ⟨first, last, waitStates, backing.store (address - first).toNat value⟩

/-- A write by the host to an address of the region. -/
def patch (address : UInt32) (value : UInt8) : Region δ → Region δ
  | ⟨first, last, waitStates, backing⟩ =>
    ⟨first, last, waitStates, backing.patch (address - first).toNat value⟩

def describe (region : Region δ) : String :=
  Text.record "Region"
    [("start", toString region.first.toNat), ("end", toString region.last.toNat),
      ("wait_states", toString region.waitStates.toNat), ("backing", region.backing.describe)]

end Region

/-! ## §2 Building a map -/

/-- A space put together from regions. -/
structure AddressMap (δ : Type) where
  config : SpaceConfig
  /-- Regions, in the order in which they were mapped. -/
  regions : List (Region δ) := []
  /-- What unmapped addresses read as, before masking. -/
  unmappedFill : UInt8 := 0xFF
  /-- Wait states not yet taken. -/
  pendingWaitStates : UInt32 := 0

namespace AddressMap

variable {δ : Type}

/-- A map without regions. The address bus has 1 to 32 bits and a unit 1 to 8. -/
def create (config : SpaceConfig) : Except SetupError (AddressMap δ) :=
  if config.addressWidth = 0 ∨ 32 < config.addressWidth then
    .error (.outside "address_width" config.addressWidth 1 32)
  else if config.dataWidth = 0 ∨ 8 < config.dataWidth then
    .error (.outside "data_width" config.dataWidth 1 8)
  else
    .ok { config }

def withUnmappedFill (map : AddressMap δ) (fill : UInt8) : AddressMap δ :=
  { map with unmappedFill := fill }

def unitMask (map : AddressMap δ) : UInt8 := map.config.dataMask.toUInt8

/-- An address as the bus carries it. -/
def decode (map : AddressMap δ) (address : UInt32) : UInt32 :=
  address &&& map.config.addressMask

def fill (map : AddressMap δ) : UInt8 := map.unmappedFill &&& map.unitMask

/-- Whether the range `first..=last` is non-empty, inside the space and free. -/
def isFree (map : AddressMap δ) (first last : UInt32) : Bool :=
  first ≤ last && last ≤ map.config.addressMask && !map.regions.any (·.overlaps first last)

/-- Adds a region over a free range. The backing is made only once the range is accepted. -/
def insert (map : AddressMap δ) (first last : UInt32) (backing : Unit → Backing δ) :
    Except SetupError (AddressMap δ) :=
  if map.isFree first last then
    .ok { map with regions := map.regions ++ [{ first, last, backing := backing () }] }
  else
    .error (.invalidRegion first last)

/-- Maps RAM that holds zero. -/
def mapRam (map : AddressMap δ) (first last : UInt32) : Except SetupError (AddressMap δ) :=
  map.insert first last fun _ => .ram (Array.replicate (last.toNat - first.toNat + 1) 0)

/-- Maps a read-only image. An image that is empty, whose length does not fit 32 bits, or that runs
past the last 32-bit address is refused under its start address alone. -/
def mapRom (map : AddressMap δ) (first : UInt32) (image : List UInt8) :
    Except SetupError (AddressMap δ) :=
  if image.isEmpty ∨ UInt32.size ≤ image.length ∨ UInt32.size < first.toNat + image.length then
    .error (.invalidRegion first first)
  else
    map.insert first (UInt32.ofNat (first.toNat + image.length - 1)) fun _ =>
      .rom (image.map (· &&& map.unitMask)).toArray

def mapDevice (map : AddressMap δ) (first last : UInt32) (device : Device δ) :
    Except SetupError (AddressMap δ) :=
  map.insert first last fun _ => .device device

def owner? (map : AddressMap δ) (address : UInt32) : Option (Region δ) :=
  map.regions.find? (·.contains address)

/-- Changes the region that holds a decoded address. -/
def updateOwner (map : AddressMap δ) (address : UInt32) (change : Region δ → Region δ) :
    AddressMap δ :=
  { map with regions := map.regions.modify (map.regions.findIdx (·.contains address)) change }

/-- Sets the wait states of the region that holds an address, and says whether there is one. -/
def setWaitStates (map : AddressMap δ) (address cycles : UInt32) : Bool × AddressMap δ :=
  ((map.owner? (map.decode address)).isSome,
    map.updateOwner (map.decode address) ({ · with waitStates := cycles }))

/-- Stores bytes into RAM and ROM from an address on; devices and gaps are skipped. -/
def load (map : AddressMap δ) (address : UInt32) : List UInt8 → AddressMap δ
  | [] => map
  | byte :: bytes =>
    let stored := byte &&& map.unitMask
    let decoded := map.decode address
    (map.updateOwner decoded (Region.patch decoded stored)).load (address + 1) bytes

/-! ## §3 Access -/

/-- Reads a unit without side effect. Devices and unmapped addresses show the fill value. -/
def peek (map : AddressMap δ) (address : UInt32) : UInt8 :=
  ((map.owner? (map.decode address)).bind (·.cell? (map.decode address))).getD map.fill

def charge (map : AddressMap δ) (cycles : UInt32) : AddressMap δ :=
  { map with pendingWaitStates := satAdd32 map.pendingWaitStates cycles }

/-- What an access to a decoded address meets: the wait states of the region, and the device if
one answers there. -/
def target? (map : AddressMap δ) (address : UInt32) : Option (UInt32 × Option (Device δ)) :=
  (map.owner? address).map fun region => (region.waitStates, region.backing.device?)

def readUnit (map : AddressMap δ) (address : UInt32) : Access δ (UInt8 × AddressMap δ) :=
  let decoded := map.decode address
  match map.target? decoded with
  | none => pure (map.fill, map)
  | some (waitStates, some device) => do
    let value ← device.read decoded
    -- a device may answer with more bits than a unit has
    pure (value &&& map.unitMask, map.charge waitStates)
  | some (waitStates, none) => pure (map.peek address, map.charge waitStates)

def writeUnit (map : AddressMap δ) (address : UInt32) (value : UInt8) :
    Access δ (AddressMap δ) :=
  let decoded := map.decode address
  let stored := value &&& map.unitMask
  match map.target? decoded with
  | none => pure map
  | some (waitStates, some device) => do
    device.write decoded stored
    pure (map.charge waitStates)
  | some (waitStates, none) =>
    pure ((map.updateOwner decoded (Region.store decoded stored)).charge waitStates)

/-- Reads consecutive units in ascending order. -/
def readUnits (map : AddressMap δ) (address : UInt32) :
    (count : Nat) → Access δ (List UInt8 × AddressMap δ)
  | 0 => pure ([], map)
  | count + 1 => do
    let (unit, map) ← map.readUnit address
    let (units, map) ← map.readUnits (address + 1) count
    pure (unit :: units, map)

/-- Writes consecutive units in ascending order. -/
def writeUnits (map : AddressMap δ) (address : UInt32) : List UInt8 → Access δ (AddressMap δ)
  | [] => pure map
  | unit :: units => do
    let map ← map.writeUnit address unit
    map.writeUnits (address + 1) units

/-- Reads as many units as the width says and puts them together. -/
def read (map : AddressMap δ) (width : AccessWidth) (address : UInt32) :
    Access δ (UInt32 × AddressMap δ) := do
  let (units, map) ← map.readUnits address width.units
  pure (assemble units map.config.dataWidth map.config.endianness, map)

/-- Takes a value apart and writes as many units as the width says. -/
def write (map : AddressMap δ) (width : AccessWidth) (address value : UInt32) :
    Access δ (AddressMap δ) :=
  map.writeUnits address
    (split value width.units map.config.dataWidth map.config.endianness)

def takeWaitStates (map : AddressMap δ) : UInt32 × AddressMap δ :=
  (map.pendingWaitStates, { map with pendingWaitStates := 0 })

def describe (map : AddressMap δ) : String :=
  Text.record "AddressMap"
    [("config", map.config.describe),
      ("regions", Text.bracketed (map.regions.map Region.describe)),
      ("unmapped_fill", toString map.unmappedFill.toNat),
      ("pending_wait_states", toString map.pendingWaitStates.toNat)]

end AddressMap

end Microboard
