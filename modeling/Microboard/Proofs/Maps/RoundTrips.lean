import Microboard.Proofs.Maps.Histories
import Microboard.Proofs.Units

/-!
# Reading back what was written

A wide value that is written to RAM is read back from it, unless two of its units meet at one
address. Where the units lie is a matter of the order of the space; which addresses they lie at is
a matter of decoding, so a value may run over the end of the space or of the 32-bit addresses.

- **§1** RAM of a flat memory: units that are written and read one after the other.
- **§2** What a map shows at an address.
- **§3** Reading after writing.
-/

namespace Microboard

variable {δ : Type}

open FlatMemory (Content Place)

/-! ## §1 Flat memories -/

namespace FlatMemory

variable {memory : FlatMemory δ} {address : UInt32}

/-- Memories of the same shape decode an address alike. -/
theorem decode_congr {after : FlatMemory δ} (same : after.config = memory.config)
    (address : UInt32) : after.decode address = memory.decode address :=
  congrArg (fun config : SpaceConfig => address &&& config.addressMask) same

/-- RAM at a decoded address holds a value. -/
def Keeps (memory : FlatMemory δ) (address : UInt32) (value : UInt8) : Prop :=
  (memory.places address).map (·.content) = some (.ram value)

/-- A unit of RAM that has been written is the only place that changes. -/
structure Stored (decoded : UInt32) (value : UInt8) (memory after : FlatMemory δ) : Prop where
  config : after.config = memory.config
  keeps : after.Keeps decoded value
  others : ∀ other, other ≠ decoded → after.places other = memory.places other

theorem writeUnit_ram {before : UInt8} (ram : memory.Keeps (memory.decode address) before)
    (value : UInt8) (devices : δ) :
    ∃ after, memory.writeUnit address value devices = ⟨after, devices, []⟩ ∧
      Stored (memory.decode address) value memory after := by
  obtain ⟨⟨block, waits, content⟩, mapped, rfl⟩ := Option.map_eq_some_iff.mp ram
  refine ⟨(memory.alter (memory.decode address) (Content.write value)).owe waits, ?_, rfl, ?_, ?_⟩
  · unfold writeUnit
    simp only [mapped]
    rfl
  · show Option.map _ (if _ then _ else _) = _
    rw [if_pos rfl, mapped]
    rfl
  · intro other elsewhere
    exact if_neg elsewhere

/-- All units of RAM have been written, and nothing else has changed. -/
structure StoredAll (pairs : List (UInt32 × UInt8)) (memory after : FlatMemory δ) : Prop where
  config : after.config = memory.config
  keeps : ∀ pair ∈ pairs, after.Keeps (memory.decode pair.1) pair.2
  others : ∀ other ∉ pairs.map fun pair => memory.decode pair.1,
    after.places other = memory.places other

/-- Units that go to different addresses of RAM all stay there. -/
theorem writeEach_ram {pairs : List (UInt32 × UInt8)}
    (ram : ∀ pair ∈ pairs, ∃ before, memory.Keeps (memory.decode pair.1) before)
    (apart : (pairs.map fun pair => memory.decode pair.1).Nodup) (devices : δ) :
    ∃ after, memory.writeEach pairs devices = ⟨after, devices, []⟩ ∧
      StoredAll pairs memory after := by
  induction pairs generalizing memory with
  | nil => exact ⟨memory, rfl, rfl, (fun _ mem => nomatch mem), fun _ _ => rfl⟩
  | cons pair pairs ih =>
    obtain ⟨address, unit⟩ := pair
    obtain ⟨fresh, apart⟩ := List.nodup_cons.mp apart
    obtain ⟨before, first⟩ := ram _ List.mem_cons_self
    obtain ⟨next, wrote, stored⟩ := writeUnit_ram first unit devices
    have decode (other : UInt32) : next.decode other = memory.decode other :=
      decode_congr stored.config other
    -- the remaining units go elsewhere, where RAM is as it was
    have remaining : ∀ pair ∈ pairs, ∃ before, next.Keeps (next.decode pair.1) before := by
      intro pair mem
      have elsewhere : memory.decode pair.1 ≠ memory.decode address := fun same =>
        fresh (List.mem_map.mpr ⟨pair, mem, same⟩)
      unfold Keeps
      rw [decode, stored.others _ elsewhere]
      exact ram pair (List.mem_cons_of_mem _ mem)
    have places : (pairs.map fun pair => next.decode pair.1) =
        pairs.map fun pair => memory.decode pair.1 := by simp only [decode]
    obtain ⟨after, wroteRest, rest⟩ := ih remaining (places ▸ apart)
    refine ⟨after, ?_, rest.config.trans stored.config, ?_, ?_⟩
    · unfold writeEach
      rw [Access.bind_apply, wrote, wroteRest]
      rfl
    · intro pair mem
      rcases List.mem_cons.mp mem with rfl | mem
      · unfold Keeps
        rw [rest.others _ (places ▸ fresh)]
        exact stored.keeps
      · rw [← decode]
        exact rest.keeps pair mem
    · intro other outside
      obtain ⟨elsewhere, outside⟩ := List.ne_and_not_mem_of_not_mem_cons outside
      rw [rest.others other (places ▸ outside), stored.others other elsewhere]

/-- Reading RAM finds what it keeps and changes nothing but what is owed. -/
theorem readEach_ram {pairs : List (UInt32 × UInt8)}
    (keeps : ∀ pair ∈ pairs, memory.Keeps (memory.decode pair.1) pair.2) (devices : δ) :
    ∃ after, memory.readEach (pairs.map Prod.fst) devices =
      ⟨(pairs.map fun pair => memory.cut pair.2, after), devices, []⟩ ∧
        after.config = memory.config := by
  induction pairs generalizing memory with
  | nil => exact ⟨memory, rfl, rfl⟩
  | cons pair pairs ih =>
    obtain ⟨⟨block, waits, content⟩, mapped, holds⟩ :=
      Option.map_eq_some_iff.mp (keeps pair List.mem_cons_self)
    have rest : ∀ pair ∈ pairs,
        (memory.owe waits).Keeps ((memory.owe waits).decode pair.1) pair.2 := fun pair mem =>
      keeps pair (List.mem_cons_of_mem _ mem)
    obtain ⟨after, readRest, config⟩ := ih rest
    have read : memory.readUnit pair.1 devices =
        ⟨(memory.cut pair.2, memory.owe waits), devices, []⟩ := by
      obtain rfl : content = .ram pair.2 := holds
      unfold readUnit
      simp only [mapped]
      rfl
    refine ⟨after, ?_, config⟩
    rw [List.map_cons]
    unfold readEach
    simp only [Access.bind_apply, Access.pure_apply, read, readRest]
    rfl

end FlatMemory

/-! ## §2 Views of a map -/

namespace AddressMap

variable {config : SpaceConfig} {map : AddressMap δ} {memory : FlatMemory δ}

/-- What a map shows at a decoded address: what was mapped together with it, its wait states and
its content. -/
def view? (map : AddressMap δ) (address : UInt32) : Option (Place δ) :=
  (map.owner? address).map (·.view address)

/-- RAM is mapped at a decoded address. -/
def IsRam (map : AddressMap δ) (address : UInt32) : Prop :=
  ∃ place value, map.view? address = some place ∧ place.content = .ram value

/-- The decoded addresses of the units of a wide access, in the order of the accesses. -/
def unitsAt (map : AddressMap δ) (width : AccessWidth) (address : UInt32) : List UInt32 :=
  (consecutive address width.units).map map.decode

theorem Represents.keeps (represents : map.Represents memory) {address : UInt32}
    (ram : map.IsRam address) : ∃ value, memory.Keeps address value := by
  obtain ⟨place, value, shown, content⟩ := ram
  obtain ⟨flat, mapped, rfl⟩ := Option.map_eq_some_iff.mp ((represents.places address).trans shown)
  unfold FlatMemory.Keeps
  rw [mapped]
  obtain ⟨block, waits, held⟩ := flat
  cases held with
  | ram value => exact ⟨value, rfl⟩
  | rom value => nomatch content
  | device handlers => nomatch content

/-- What is kept at an address can be seen there. -/
theorem Represents.peek_keeps (represents : map.Represents memory) {address : UInt32}
    {value : UInt8} (keeps : memory.Keeps (memory.decode address) value) :
    map.peek address = value &&& map.unitMask := by
  obtain ⟨place, mapped, content⟩ := Option.map_eq_some_iff.mp keeps
  rw [represents.peek_eq, ← represents.cut_eq]
  unfold FlatMemory.peek
  rw [mapped]
  show memory.cut (place.content.held?.getD _) = _
  rw [content]
  rfl

/-- Units of a value are not cut. -/
theorem Sound.cut_split (sound : map.Sound) {value : UInt32} {count : Nat} {unit : UInt8}
    (mem : unit ∈ split value count map.config.dataWidth map.config.endianness) :
    unit &&& map.unitMask = unit := by
  have narrow := split_lt mem
  rw [unitShift_eq sound.width.2] at narrow
  apply UInt8.toNat_inj.mp
  rw [sound.toNat_cut, Nat.mod_eq_of_lt narrow]

/-! ## §3 Reading after writing -/

/-- The units of a value with the addresses they go to. -/
def pairs (map : AddressMap δ) (width : AccessWidth) (address value : UInt32) :
    List (UInt32 × UInt8) :=
  (consecutive address width.units).zip
    (split value width.units map.config.dataWidth map.config.endianness)

section Pairs

variable (map) (width : AccessWidth) (address value : UInt32)

theorem length_pairs : (consecutive address width.units).length =
    (split value width.units map.config.dataWidth map.config.endianness).length := by
  simp [consecutive, length_split]

theorem fst_pairs : (map.pairs width address value).map Prod.fst =
    consecutive address width.units :=
  List.map_fst_zip (Nat.le_of_eq (map.length_pairs width address value))

theorem snd_pairs : (map.pairs width address value).map Prod.snd =
    split value width.units map.config.dataWidth map.config.endianness :=
  List.map_snd_zip (Nat.le_of_eq (map.length_pairs width address value).symm)

theorem decode_pairs : ((map.pairs width address value).map fun pair => map.decode pair.1) =
    map.unitsAt width address := by
  unfold unitsAt
  rw [← map.fst_pairs width address value, List.map_map]
  rfl

/-- The unit at a position of the access is that of the rank which the order gives it. -/
theorem mem_pairs {index : Nat} (inside : index < width.units) :
    (address + UInt32.ofNat index, unitAt value map.config.dataWidth
      (map.config.endianness.rank width.units index)) ∈ map.pairs width address value := by
  apply List.mem_of_getElem? (i := index)
  unfold pairs consecutive
  simp [List.getElem?_zip_eq_some, getElem?_split, inside]

end Pairs

/-- Writing to RAM writes the units of the value to the flat memory, where they stay. -/
theorem Represents.write_ram (represents : map.Represents memory) {width : AccessWidth}
    {address value : UInt32} (apart : (map.unitsAt width address).Nodup)
    (ram : ∀ unit ∈ map.unitsAt width address, map.IsRam unit) (devices : δ) :
    ∃ after flat, map.write width address value devices = ⟨after, devices, []⟩ ∧
      after.Represents flat ∧ FlatMemory.StoredAll (map.pairs width address value) memory flat := by
  have addresses := map.decode_pairs width address value
  -- map and flat memory write the same units; of the flat memory it is known where they go
  have agree := represents.writeUnits address
    (split value width.units map.config.dataWidth map.config.endianness)
  rw [length_split] at agree
  obtain ⟨state, requests, after, flat, here, there, related⟩ := agree devices
  have flatRam : ∀ pair ∈ map.pairs width address value,
      ∃ before, memory.Keeps (memory.decode pair.1) before := by
    intro pair mem
    rw [represents.decode_eq]
    exact represents.keeps (ram _ (addresses ▸ List.mem_map_of_mem mem))
  have flatApart :
      ((map.pairs width address value).map fun pair => memory.decode pair.1).Nodup := by
    simpa only [represents.decode_eq, addresses]
  obtain ⟨stored, wrote, all⟩ := FlatMemory.writeEach_ram flatRam flatApart devices
  obtain ⟨rfl, rfl, rfl⟩ := Reply.mk.inj (there.symm.trans wrote)
  exact ⟨after, flat, here, related, all⟩

/-- RAM that keeps the units of a value is read as the value. -/
theorem Represents.read_ram (represents : map.Represents memory) {width : AccessWidth}
    {address value : UInt32}
    (keeps : ∀ pair ∈ map.pairs width address value, memory.Keeps (memory.decode pair.1) pair.2)
    (devices : δ) : ∃ last, map.read width address devices =
      ⟨(UInt32.ofNat (value.toNat % 2 ^ (width.units * map.config.dataWidth)), last),
        devices, []⟩ := by
  obtain ⟨flat, read, config⟩ := FlatMemory.readEach_ram keeps devices
  obtain ⟨state, requests, ⟨units, last⟩, _, here, there, related⟩ :=
    represents.readUnits address width.units devices
  rw [map.fst_pairs] at read
  obtain ⟨rfl, rfl, rfl⟩ := Reply.mk.inj (there.symm.trans read)
  have shape : last.config = map.config :=
    related.represents.config.symm.trans (config.trans represents.config)
  have whole : units = split value width.units map.config.dataWidth map.config.endianness := by
    obtain rfl : units = _ := related.answer
    rw [← map.snd_pairs width address value]
    apply List.map_congr_left
    intro pair mem
    rw [represents.cut_eq]
    exact represents.sound.cut_split (map.snd_pairs width address value ▸ List.mem_map_of_mem mem)
  refine ⟨last, ?_⟩
  unfold AddressMap.read
  rw [Access.bind_apply, here, whole]
  simp only [Access.pure_apply, shape, assemble_split, unitShift_eq represents.sound.width.2]
  rfl

/-- The map holds a value at an address and is as before everywhere else. -/
structure Took (map : AddressMap δ) (width : AccessWidth) (address value : UInt32)
    (after : AddressMap δ) : Prop where
  /-- The value is read back as far as the units of the access reach. -/
  reads : ∀ devices, ∃ last, after.read width address devices =
    ⟨(UInt32.ofNat (value.toNat % 2 ^ (width.units * map.config.dataWidth)), last), devices, []⟩
  /-- Each unit lies where the order of the space puts it. At the address itself that is the
  least significant unit or the most significant one. -/
  unit : ∀ index < width.units, (after.peek (address + UInt32.ofNat index)).toNat =
    value.toNat / 2 ^ (map.config.endianness.rank width.units index * map.config.dataWidth) %
      2 ^ map.config.dataWidth
  others : ∀ other ∉ map.unitsAt width address, after.view? other = map.view? other

/-- A value that is written to RAM, with its units at different addresses, is read back. Nothing
else changes, devices and lines included. -/
theorem write_reads_back (built : Built config map) (width : AccessWidth) (address value : UInt32)
    (apart : (map.unitsAt width address).Nodup)
    (ram : ∀ unit ∈ map.unitsAt width address, map.IsRam unit) (devices : δ) :
    ∃ after, map.write width address value devices = ⟨after, devices, []⟩ ∧
      map.Took width address value after := by
  obtain ⟨memory, represents⟩ := built.represents
  obtain ⟨after, flat, wrote, represents', stored⟩ := represents.write_ram apart ram devices
  have shape : after.config = map.config :=
    represents'.config.symm.trans (stored.config.trans represents.config)
  have mask : after.unitMask = map.unitMask := congrArg (·.dataMask.toUInt8) shape
  have keeps : ∀ pair ∈ map.pairs width address value,
      flat.Keeps (flat.decode pair.1) pair.2 := by
    intro pair mem
    rw [FlatMemory.decode_congr stored.config]
    exact stored.keeps pair mem
  have pairs : after.pairs width address value = map.pairs width address value := by
    unfold AddressMap.pairs
    rw [shape]
  refine ⟨after, wrote, ?reads, ?unit, ?others⟩
  case reads =>
    intro devices
    rw [← shape]
    exact represents'.read_ram (pairs ▸ keeps) devices
  case unit =>
    intro index inside
    have mem := map.mem_pairs width address value inside
    have unit := List.mem_map_of_mem (f := Prod.snd) mem
    rw [map.snd_pairs] at unit
    rw [represents'.peek_keeps (keeps _ mem), mask, represents.sound.cut_split unit, toNat_unitAt,
      unitShift_eq represents.sound.width.2]
  case others =>
    intro other outside
    have decoded : other ∉ (map.pairs width address value).map fun pair =>
        memory.decode pair.1 := by
      simpa only [represents.decode_eq, map.decode_pairs] using outside
    show Option.map _ _ = Option.map _ _
    rw [← represents'.places, ← represents.places, stored.others other decoded, mask]

/-- RAM at both ends of sixteen addresses of four bits. -/
def bothEnds : AddressMap Nat :=
  (perform (perform { config := nibbles } (.mapRam 0 1) 0).value.2 (.mapRam 14 15) 0).value.2

/-- Four units from the last address but one: they run over the end of the 32-bit addresses and
from the second region into the first. -/
theorem write_reads_back_wrapped :
    Built nibbles bothEnds ∧ bothEnds.unitsAt .dword 0xFFFFFFFE = [14, 15, 0, 1] ∧
      (∀ unit ∈ bothEnds.unitsAt .dword 0xFFFFFFFE, bothEnds.IsRam unit) ∧
      ∃ after, bothEnds.write .dword 0xFFFFFFFE 0x54321 0 = ⟨after, 0, []⟩ ∧
        bothEnds.Took .dword 0xFFFFFFFE 0x54321 after := by
  have built : Built nibbles bothEnds :=
    .commanded (.mapRam 14 15) 0 (.commanded (.mapRam 0 1) 0 (.created rfl))
  have units : bothEnds.unitsAt .dword 0xFFFFFFFE = [14, 15, 0, 1] := by decide
  have ram : ∀ unit ∈ bothEnds.unitsAt .dword 0xFFFFFFFE, bothEnds.IsRam unit := by
    rw [units]
    simp only [List.forall_mem_cons]
    exact ⟨⟨_, _, rfl, rfl⟩, ⟨_, _, rfl, rfl⟩, ⟨_, _, rfl, rfl⟩, ⟨_, _, rfl, rfl⟩,
      fun _ mem => nomatch mem⟩
  exact ⟨built, units, ram, write_reads_back built .dword 0xFFFFFFFE 0x54321 (by decide) ram 0⟩

example : (bothEnds.write .dword 0xFFFFFFFE 0x54321 0).value.peek 15 = 2 := by decide

end AddressMap

end Microboard
