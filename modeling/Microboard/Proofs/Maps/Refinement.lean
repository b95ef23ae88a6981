import Microboard.Proofs.Boards
import Microboard.Proofs.Maps.Flat
import Microboard.Proofs.Units

/-!
# Address maps are flat memories

Whatever a host asks of an address map, it gets the answers of a flat memory, and the devices
behind the map see the same calls.

- **§1** Searching a list in which an element has been changed.
- **§2** Regions: what they show at an address.
- **§3** Sound maps.
- **§4** A map represents a flat memory.
- **§5** Mapping keeps the representation, and so does loading.
- **§6** Accesses agree.
- **§7** So do all commands, one after the other.
-/

namespace Microboard

variable {δ α : Type}

/-! ## §1 Searching -/

variable {p : α → Bool} {xs : List α}

/-- Where only one element passes a test, a change of the first that passes is a change of all
that do. -/
theorem modify_findIdx_eq_map (change : α → α)
    (alone : xs.Pairwise fun x y => ¬(p x = true ∧ p y = true)) :
    xs.modify (xs.findIdx p) change = xs.map fun x => if p x then change x else x := by
  induction alone with
  | nil => rfl
  | @cons x xs apart _ ih =>
    rw [List.findIdx_cons, List.map_cons]
    cases found : p x with
    | true =>
      have spared : xs.map (fun y => if p y then change y else y) = xs :=
        (List.map_congr_left fun y mem => if_neg fun py => apart y mem ⟨found, py⟩).trans
          (List.map_id xs)
      rw [cond_true, List.modify_zero_cons, if_pos rfl, spared]
    | false =>
      rw [cond_false, List.modify_succ_cons, ih]
      rfl

/-- The one element that passes is the one that is found. -/
theorem find?_eq_of_alone (alone : xs.Pairwise fun x y => ¬(p x = true ∧ p y = true)) {x : α}
    (mem : x ∈ xs) (passes : p x = true) : xs.find? p = some x := by
  induction alone with
  | nil => nomatch mem
  | @cons y ys apart _ ih =>
    cases mem with
    | head => exact List.find?_cons_of_pos passes
    | tail _ mem =>
      rw [List.find?_cons_of_neg fun py => apart x mem ⟨py, passes⟩]
      exact ih mem

/-! ## §2 Regions -/

open FlatMemory (Content Place)

namespace FlatMemory

/-- What is left of a content when its value is cut. -/
def Content.cut (mask : UInt8) : Content δ → Content δ
  | .ram value => .ram (value &&& mask)
  | .rom value => .rom (value &&& mask)
  | .device handlers => .device handlers

def Place.cut (mask : UInt8) (place : Place δ) : Place δ :=
  { place with content := place.content.cut mask }

theorem Content.cut_write (mask value : UInt8) (content : Content δ) :
    (content.write value).cut mask = (content.cut mask).write (value &&& mask) := by
  cases content <;> rfl

theorem Content.held?_cut (mask : UInt8) (content : Content δ) :
    (content.cut mask).held? = content.held?.map (· &&& mask) := by
  cases content <;> rfl

theorem Content.device?_cut (mask : UInt8) (content : Content δ) :
    (content.cut mask).device? = content.device? := by
  cases content <;> rfl

theorem Content.cut_load (mask value : UInt8) (content : Content δ) :
    (content.load value).cut mask = (content.cut mask).load (value &&& mask) := by
  cases content <;> rfl

end FlatMemory

namespace Backing

/-- What answers at a position. -/
def content (offset : Nat) : Backing δ → Content δ
  | .ram cells => .ram (cells.getD offset 0)
  | .rom cells => .rom (cells.getD offset 0)
  | .device handlers => .device handlers

/-- Memory has a cell for each position; a device needs none. -/
def Spans (count : Nat) : Backing δ → Prop
  | .ram cells | .rom cells => cells.size = count
  | .device _ => True

variable {offset position count : Nat} {value : UInt8} {backing : Backing δ}

theorem getD_setIfInBounds (cells : Array UInt8) (bound : offset < cells.size) :
    (cells.setIfInBounds offset value).getD position 0 =
      if position = offset then value else cells.getD position 0 := by
  rw [Array.getD_eq_getD_getElem?, Array.getD_eq_getD_getElem?, Array.getElem?_setIfInBounds]
  by_cases here : position = offset
  · rw [if_pos here.symm, if_pos here, if_pos bound]
    rfl
  · rw [if_neg (Ne.symm here), if_neg here]

theorem device?_content (backing : Backing δ) (offset : Nat) :
    (backing.content offset).device? = backing.device? := by
  cases backing <;> rfl

/-- What can be seen of a position is what it holds. -/
theorem cell?_eq (spans : backing.Spans count) (bound : offset < count) :
    backing.cell? offset = (backing.content offset).held? := by
  cases backing with
  | device handlers => rfl
  | ram cells | rom cells =>
    have inside : offset < cells.size := Nat.lt_of_lt_of_eq bound spans.symm
    show cells[offset]? = some (cells.getD offset 0)
    rw [Array.getD_eq_getD_getElem?, Array.getElem?_eq_getElem inside]
    rfl

theorem content_store (spans : backing.Spans count) (bound : offset < count) :
    (backing.store offset value).content position =
      if position = offset then (backing.content position).write value
      else backing.content position := by
  cases backing with
  | ram cells =>
    have size : cells.size = count := spans
    show Content.ram _ = _
    rw [getD_setIfInBounds cells (size ▸ bound)]
    exact apply_ite Content.ram ..
  | rom cells => exact (ite_self _).symm
  | device handlers => exact (ite_self _).symm

theorem content_patch (spans : backing.Spans count) (bound : offset < count) :
    (backing.patch offset value).content position =
      if position = offset then (backing.content position).load value
      else backing.content position := by
  cases backing with
  | ram cells =>
    have size : cells.size = count := spans
    show Content.ram _ = _
    rw [getD_setIfInBounds cells (size ▸ bound)]
    exact apply_ite Content.ram ..
  | rom cells =>
    have size : cells.size = count := spans
    show Content.rom _ = _
    rw [getD_setIfInBounds cells (size ▸ bound)]
    exact apply_ite Content.rom ..
  | device handlers => exact (ite_self _).symm

theorem Spans.store (spans : backing.Spans count) : (backing.store offset value).Spans count := by
  cases backing with
  | ram cells => exact Array.size_setIfInBounds.trans spans
  | rom cells => exact spans
  | device handlers => trivial

theorem Spans.patch (spans : backing.Spans count) : (backing.patch offset value).Spans count := by
  cases backing with
  | ram cells => exact Array.size_setIfInBounds.trans spans
  | rom cells => exact Array.size_setIfInBounds.trans spans
  | device handlers => trivial

end Backing

namespace Region

/-- What a region shows at one of its addresses. -/
def view (region : Region δ) (address : UInt32) : Place δ :=
  { block := region.first
    waitStates := region.waitStates
    content := region.backing.content (address - region.first).toNat }

/-- The region is not empty, and memory in it has a cell for each address. -/
structure Filled (region : Region δ) : Prop where
  ordered : region.first ≤ region.last
  spans : region.backing.Spans (region.last.toNat - region.first.toNat + 1)

variable {region : Region δ} {address other : UInt32}

theorem contains_iff :
    region.contains address = true ↔ region.first ≤ address ∧ address ≤ region.last := by
  unfold contains
  rw [Bool.and_eq_true, decide_eq_true_eq, decide_eq_true_eq]

/-- Ranges overlap where they have an address in common. -/
theorem overlaps_iff {first last : UInt32} (region : Region δ) (ordered : first ≤ last)
    (filled : region.first ≤ region.last) :
    region.overlaps first last = true ↔
      ∃ address, (first ≤ address ∧ address ≤ last) ∧ region.contains address = true := by
  unfold overlaps
  rw [Bool.and_eq_true, decide_eq_true_eq, decide_eq_true_eq]
  constructor
  · intro ⟨left, right⟩
    by_cases later : first ≤ region.first
    · exact ⟨region.first, ⟨later, right⟩, contains_iff.mpr ⟨UInt32.le_refl _, filled⟩⟩
    · have earlier := UInt32.le_of_lt (UInt32.not_le.mp later)
      exact ⟨first, ⟨UInt32.le_refl _, ordered⟩, contains_iff.mpr ⟨earlier, left⟩⟩
  · intro ⟨address, ⟨above, below⟩, held⟩
    obtain ⟨lower, upper⟩ := contains_iff.mp held
    exact ⟨UInt32.le_trans above upper, UInt32.le_trans lower below⟩

/-- Addresses of a region are told apart by their distance from its first. -/
theorem toNat_offset (held : region.contains address = true) :
    (address - region.first).toNat = address.toNat - region.first.toNat :=
  UInt32.toNat_sub_of_le _ _ (contains_iff.mp held).1

theorem offset_lt (held : region.contains address = true) :
    (address - region.first).toNat < region.last.toNat - region.first.toNat + 1 := by
  have below := UInt32.le_iff_toNat_le.mp (contains_iff.mp held).2
  rw [toNat_offset held]
  omega

theorem offset_inj (held : region.contains address = true)
    (heldOther : region.contains other = true) :
    (other - region.first).toNat = (address - region.first).toNat ↔ other = address := by
  have here := UInt32.le_iff_toNat_le.mp (contains_iff.mp held).1
  have there := UInt32.le_iff_toNat_le.mp (contains_iff.mp heldOther).1
  rw [toNat_offset held, toNat_offset heldOther, ← UInt32.toNat_inj]
  omega

/-- The region has been changed at one address, as seen from outside. -/
structure Altered (address : UInt32) (edit : Content δ → Content δ) (region after : Region δ) :
    Prop where
  filled : after.Filled
  view : ∀ other, region.contains other = true →
    after.view other =
      if other = address then (region.view other).alter edit else region.view other

/-- A change at one position of the backing is a change at one address. -/
theorem altered_of_content {edit : Content δ → Content δ} {backing : Backing δ}
    (filled : region.Filled) (held : region.contains address = true)
    (spans : backing.Spans (region.last.toNat - region.first.toNat + 1))
    (content : ∀ position, backing.content position =
      if position = (address - region.first).toNat then edit (region.backing.content position)
      else region.backing.content position) :
    Altered address edit region { region with backing } := by
  refine ⟨⟨filled.ordered, spans⟩, fun other heldOther => ?_⟩
  show Place.mk region.first region.waitStates (backing.content (other - region.first).toNat) = _
  rw [content]
  by_cases here : other = address
  · rw [if_pos here, if_pos ((offset_inj held heldOther).mpr here)]
    rfl
  · rw [if_neg here, if_neg (mt (offset_inj held heldOther).mp here)]
    rfl

theorem altered_store (value : UInt8) (filled : region.Filled)
    (held : region.contains address = true) :
    Altered address (Content.write value) region (region.store address value) :=
  altered_of_content filled held filled.spans.store fun _ =>
    Backing.content_store filled.spans (offset_lt held)

theorem altered_patch (value : UInt8) (filled : region.Filled)
    (held : region.contains address = true) :
    Altered address (Content.load value) region (region.patch address value) :=
  altered_of_content filled held filled.spans.patch fun _ =>
    Backing.content_patch filled.spans (offset_lt held)

end Region

/-! ## §3 Sound maps -/

namespace AddressMap

/-- Units have a width, every region is filled, and no two regions hold the same address. -/
structure Sound (map : AddressMap δ) : Prop where
  width : 0 < map.config.dataWidth ∧ map.config.dataWidth ≤ 8
  filled : ∀ region ∈ map.regions, region.Filled
  apart : map.regions.Pairwise fun region other =>
    ∀ address, ¬(region.contains address = true ∧ other.contains address = true)

variable {map : AddressMap δ} {address : UInt32} {region : Region δ}

theorem mem_of_owner? (found : map.owner? address = some region) : region ∈ map.regions :=
  List.mem_of_find?_eq_some found

theorem contains_of_owner? (found : map.owner? address = some region) :
    region.contains address = true :=
  List.find?_some (p := fun region : Region δ => region.contains address) found

theorem owner?_eq_none_iff :
    map.owner? address = none ↔ ∀ region ∈ map.regions, ¬region.contains address = true :=
  List.find?_eq_none

/-- A region that holds an address is the one that is found there. -/
theorem Sound.owner?_eq (sound : map.Sound) (mem : region ∈ map.regions)
    (held : region.contains address = true) : map.owner? address = some region :=
  find?_eq_of_alone (sound.apart.imp fun apart => apart address) mem held

/-- Two regions that begin at the same address are one. -/
theorem Sound.first_inj (sound : map.Sound) {other : Region δ} (mem : region ∈ map.regions)
    (memOther : other ∈ map.regions) (same : other.first = region.first) : other = region := by
  have ends : region.contains region.first = true :=
    Region.contains_iff.mpr ⟨UInt32.le_refl _, (sound.filled region mem).ordered⟩
  have endsOther : other.contains region.first = true :=
    same ▸ Region.contains_iff.mpr ⟨UInt32.le_refl _, (sound.filled other memOther).ordered⟩
  exact Option.some_inj.mp
    ((sound.owner?_eq memOther endsOther).symm.trans (sound.owner?_eq mem ends))

/-- A change of a region that leaves it where it is. -/
structure Stays (change : Region δ → Region δ) : Prop where
  first : ∀ region, (change region).first = region.first
  last : ∀ region, (change region).last = region.last

theorem Stays.contains {change : Region δ → Region δ} (stays : Stays change) (region : Region δ)
    (address : UInt32) : (change region).contains address = region.contains address := by
  unfold Region.contains
  rw [stays.first, stays.last]

variable {decoded : UInt32} {change : Region δ → Region δ}

theorem Sound.regions_updateOwner (sound : map.Sound) :
    (map.updateOwner decoded change).regions =
      map.regions.map fun region => if region.contains decoded then change region else region :=
  modify_findIdx_eq_map change (sound.apart.imp fun apart => apart decoded)

/-- What is found at an address after the region of another has changed. -/
theorem Sound.owner?_updateOwner (sound : map.Sound) (stays : Stays change) (address : UInt32) :
    (map.updateOwner decoded change).owner? address =
      (map.owner? address).map fun region =>
        if region.contains decoded then change region else region := by
  unfold owner?
  rw [sound.regions_updateOwner, List.find?_map]
  have same : ((fun region : Region δ => region.contains address) ∘ fun region =>
      if region.contains decoded then change region else region) =
        fun region => region.contains address := by
    funext region
    show Region.contains (if _ then _ else _) address = _
    rw [apply_ite (Region.contains · address), stays.contains, ite_self]
  rw [same]

theorem Sound.updateOwner (sound : map.Sound) (stays : Stays change)
    (filled : ∀ region ∈ map.regions, region.contains decoded = true → (change region).Filled) :
    (map.updateOwner decoded change).Sound := by
  refine ⟨sound.width, ?_, ?_⟩
  · rw [sound.regions_updateOwner]
    intro region mem
    obtain ⟨before, memBefore, rfl⟩ := List.mem_map.mp mem
    split
    · next held => exact filled before memBefore held
    · exact sound.filled before memBefore
  · rw [sound.regions_updateOwner, List.pairwise_map]
    refine sound.apart.imp fun apart address both => apart address ?_
    rwa [apply_ite (Region.contains · address), stays.contains, ite_self,
      apply_ite (Region.contains · address), stays.contains, ite_self] at both

/-! ## §4 Representation -/

/-- A map shows what a flat memory holds, cut to the width of the data. -/
structure Represents (map : AddressMap δ) (memory : FlatMemory δ) : Prop where
  sound : map.Sound
  config : memory.config = map.config
  unmappedFill : memory.unmappedFill = map.unmappedFill
  pending : map.pendingWaitStates.toNat = min memory.owed waitMax
  places : ∀ address, (memory.places address).map (Place.cut map.unitMask) =
    (map.owner? address).map (·.view address)

variable {memory : FlatMemory δ}

theorem create_represents {config : SpaceConfig} (created : create config = .ok map) :
    map.Represents { config } := by
  unfold create at created
  split at created
  · nomatch created
  split at created
  · nomatch created
  next width =>
  obtain rfl := Except.ok.inj created
  exact
    { sound :=
        { width := by rw [not_or, Nat.not_lt] at width; exact ⟨Nat.pos_of_ne_zero width.1, width.2⟩
          filled := fun _ mem => nomatch mem
          apart := .nil }
      config := rfl
      unmappedFill := rfl
      pending := rfl
      places := fun _ => rfl }

namespace Represents

variable (represents : map.Represents memory)
include represents

theorem decode_eq (address : UInt32) : memory.decode address = map.decode address :=
  congrArg (fun config : SpaceConfig => address &&& config.addressMask) represents.config

theorem cut_eq (value : UInt8) : memory.cut value = value &&& map.unitMask :=
  congrArg (fun config : SpaceConfig => value &&& config.dataMask.toUInt8) represents.config

theorem fill_eq : memory.cut memory.unmappedFill = map.fill := by
  rw [represents.cut_eq, represents.unmappedFill]
  rfl

/-- An address is mapped in both or in neither. -/
theorem unmapped_iff (address : UInt32) :
    memory.places address = none ↔ map.owner? address = none := by
  rw [← Option.map_eq_none_iff, represents.places, Option.map_eq_none_iff]

/-- The region of a mapped address shows its place. -/
theorem shown {place : Place δ} (mapped : memory.places address = some place) :
    ∃ region, map.owner? address = some region ∧ region.view address = place.cut map.unitMask := by
  have places := represents.places address
  rw [mapped] at places
  exact Option.map_eq_some_iff.mp places.symm

/-- A change of what one address holds, made to the cut value here and to the whole value
there. -/
theorem alter {edit cutEdit : Content δ → Content δ} (stays : Stays change)
    (altered : ∀ region, region.Filled → region.contains decoded = true →
      Region.Altered decoded cutEdit region (change region))
    (commutes : ∀ content,
      (edit content).cut map.unitMask = cutEdit (content.cut map.unitMask)) :
    (map.updateOwner decoded change).Represents (memory.alter decoded edit) := by
  refine
    { sound := represents.sound.updateOwner stays fun region mem held =>
        (altered region (represents.sound.filled region mem) held).filled
      config := represents.config
      unmappedFill := represents.unmappedFill
      pending := represents.pending
      places := fun address => ?_ }
  rw [represents.sound.owner?_updateOwner stays]
  show (if address = decoded then (memory.places address).map (Place.alter edit)
    else memory.places address).map (Place.cut map.unitMask) = _
  cases mapped : memory.places address with
  | none =>
    rw [(represents.unmapped_iff address).mp mapped]
    exact congrArg (Option.map _) (ite_self none)
  | some place =>
    obtain ⟨region, found, view⟩ := represents.shown mapped
    have held := contains_of_owner? found
    rw [found]
    show _ = some (Region.view (if _ then _ else _) address)
    by_cases here : region.contains decoded = true
    · have filled := represents.sound.filled region (mem_of_owner? found)
      rw [if_pos here, (altered region filled here).view address held, view]
      by_cases same : address = decoded
      · rw [if_pos same, if_pos same]
        exact congrArg (fun content => some (Place.mk place.block place.waitStates content))
          (commutes place.content)
      · rw [if_neg same, if_neg same]
        rfl
    · have elsewhere : address ≠ decoded := fun same => here (same ▸ held)
      rw [if_neg here, if_neg elsewhere, view]
      rfl

theorem store (decoded : UInt32) (value : UInt8) :
    (map.updateOwner decoded (Region.store decoded (value &&& map.unitMask))).Represents
      (memory.alter decoded (Content.write value)) :=
  represents.alter ⟨fun _ => rfl, fun _ => rfl⟩ (fun _ => Region.altered_store _)
    (Content.cut_write map.unitMask value)

theorem patch (decoded : UInt32) (value : UInt8) :
    (map.updateOwner decoded (Region.patch decoded (value &&& map.unitMask))).Represents
      (memory.alter decoded (Content.load value)) :=
  represents.alter ⟨fun _ => rfl, fun _ => rfl⟩ (fun _ => Region.altered_patch _)
    (Content.cut_load map.unitMask value)

/-- An access adds the wait states of its region, as far as 32 bits can tell. -/
theorem charge (cycles : UInt32) : (map.charge cycles).Represents (memory.owe cycles) :=
  { sound := ⟨represents.sound.width, represents.sound.filled, represents.sound.apart⟩
    config := represents.config
    unmappedFill := represents.unmappedFill
    pending := by
      show (satAdd32 map.pendingWaitStates cycles).toNat = min (memory.owed + cycles.toNat) waitMax
      rw [toNat_satAdd32, represents.pending]
      omega
    places := represents.places }

end Represents

/-! ## §5 Mapping and loading -/

/-- Flat memory and map agree on which ranges are free. -/
theorem Represents.isFree_eq (represents : map.Represents memory) (first last : UInt32) :
    memory.isFree first last = map.isFree first last := by
  unfold FlatMemory.isFree isFree
  rw [represents.config]
  cases ordered : decide (first ≤ last) with
  | false => rfl
  | true =>
    have ordered := of_decide_eq_true ordered
    refine congrArg (true && decide (last ≤ map.config.addressMask) && ·)
      (Bool.eq_iff_iff.mpr ?_)
    rw [List.all_eq_true, Bool.not_eq_true', List.any_eq_false]
    constructor
    · intro unmapped region mem overlaps
      obtain ⟨address, inside, held⟩ := (region.overlaps_iff ordered
        (represents.sound.filled region mem).ordered).mp overlaps
      have free := Option.isNone_iff_eq_none.mp
        (unmapped address ((mem_consecutive ordered).mpr inside))
      exact owner?_eq_none_iff.mp ((represents.unmapped_iff address).mp free) region mem held
    · intro apart address mem
      refine Option.isNone_iff_eq_none.mpr ((represents.unmapped_iff address).mpr
        (owner?_eq_none_iff.mpr fun region mem' held => apart region mem' ?_))
      exact (region.overlaps_iff ordered (represents.sound.filled region mem').ordered).mpr
        ⟨address, (mem_consecutive ordered).mp mem, held⟩

/-- Map and flat memory give the same answer and stay together. -/
structure Matches (outcome : α × AddressMap δ) (flat : α × FlatMemory δ) : Prop where
  answer : outcome.1 = flat.1
  represents : outcome.2.Represents flat.2

theorem Represents.insert (represents : map.Represents memory) {first last : UInt32}
    {backing : Unit → Backing δ} {content : UInt32 → Content δ}
    (spans : first ≤ last → (backing ()).Spans (last.toNat - first.toNat + 1))
    (same : ∀ address, first ≤ address → address ≤ last →
      (content address).cut map.unitMask = (backing ()).content (address - first).toNat) :
    Matches (map.attempt (map.insert first last backing)) (memory.map first last content) := by
  unfold AddressMap.insert FlatMemory.map
  rw [represents.isFree_eq]
  cases free : map.isFree first last with
  | false => exact ⟨rfl, represents⟩
  | true =>
    refine ⟨rfl, ?_⟩
    unfold isFree at free
    rw [Bool.and_eq_true, Bool.and_eq_true, decide_eq_true_eq, Bool.not_eq_true',
      List.any_eq_false] at free
    obtain ⟨⟨ordered, _⟩, apart⟩ := free
    -- the new region holds none of the addresses that are mapped already
    have fresh : ∀ region ∈ map.regions, ∀ address, first ≤ address → address ≤ last →
        ¬region.contains address = true := fun region mem address above below held =>
      apart region mem ((region.overlaps_iff ordered
        (represents.sound.filled region mem).ordered).mpr ⟨address, ⟨above, below⟩, held⟩)
    refine
      { sound :=
          { width := represents.sound.width
            filled := fun region mem => ?_
            apart := ?_ }
        config := represents.config
        unmappedFill := represents.unmappedFill
        pending := represents.pending
        places := fun address => ?_ }
    · rcases List.mem_append.mp mem with old | new
      · exact represents.sound.filled region old
      · obtain rfl := List.mem_singleton.mp new
        exact ⟨ordered, spans ordered⟩
    · refine List.pairwise_append.mpr ⟨represents.sound.apart, List.pairwise_singleton _ _, ?_⟩
      intro region mem new memNew address both
      obtain rfl := List.mem_singleton.mp memNew
      obtain ⟨above, below⟩ := Region.contains_iff.mp both.2
      exact fresh region mem address above below both.1
    · show Option.map _ (if first ≤ address ∧ address ≤ last then _ else _) =
        Option.map _ (List.find? _ (map.regions ++ _))
      have added : Region.contains { first, last, backing := backing () } address = true ↔
          first ≤ address ∧ address ≤ last := Region.contains_iff
      rw [List.find?_append, List.find?_singleton]
      by_cases inside : first ≤ address ∧ address ≤ last
      · have old : map.regions.find? (·.contains address) = none :=
          owner?_eq_none_iff.mpr fun region mem => fresh region mem address inside.1 inside.2
        rw [if_pos inside, old, if_pos (added.mpr inside)]
        exact congrArg (fun content => some (Place.mk first 0 content))
          (same address inside.1 inside.2)
      · rw [if_neg inside, if_neg (mt added.mp inside), Option.or_none]
        exact represents.places address

theorem Represents.mapRam (represents : map.Represents memory) (first last : UInt32) :
    Matches (map.attempt (map.mapRam first last)) (memory.map first last fun _ => .ram 0) := by
  refine represents.insert (fun _ => Array.size_replicate) fun address _ _ => ?_
  show Content.ram (0 &&& map.unitMask) = .ram _
  rw [UInt8.zero_and, Array.getD_eq_getD_getElem?, Array.getElem?_replicate]
  split <;> rfl

theorem Represents.mapDevice (represents : map.Represents memory) (first last : UInt32)
    (handlers : Device δ) :
    Matches (map.attempt (map.mapDevice first last handlers))
      (memory.map first last fun _ => .device handlers) :=
  represents.insert (fun _ => trivial) fun _ _ _ => rfl

theorem Represents.mapRom (represents : map.Represents memory) (first : UInt32)
    (image : List UInt8) :
    Matches (map.attempt (map.mapRom first image)) (memory.mapImage first image) := by
  unfold AddressMap.mapRom FlatMemory.mapImage
  by_cases unfit :
      image = [] ∨ UInt32.size ≤ image.length ∨ UInt32.size < first.toNat + image.length
  · rw [if_pos unfit, if_pos (unfit.imp_left List.isEmpty_iff.mpr)]
    exact ⟨rfl, represents⟩
  · rw [if_neg unfit, if_neg fun refused => unfit (refused.imp_left List.isEmpty_iff.mp)]
    rw [not_or, not_or, Nat.not_lt] at unfit
    have some_byte := List.length_pos_iff.mpr unfit.1
    refine represents.insert (fun _ => ?_) fun address _ _ => ?_
    · show (image.map _).toArray.size = _
      rw [List.size_toArray, List.length_map, UInt32.toNat_ofNat_of_lt' (by omega)]
      omega
    · show Content.rom _ = .rom ((image.map _).toArray.getD _ 0)
      rw [Array.getD_eq_getD_getElem?, List.getElem?_toArray, List.getElem?_map,
        List.getD_eq_getElem?_getD]
      cases image[(address - first).toNat]? with
      | none => exact congrArg Content.rom UInt8.zero_and
      | some byte => rfl

/-- Nothing changes where there is no region. -/
theorem updateOwner_unmapped (unmapped : map.owner? decoded = none) :
    map.updateOwner decoded change = map := by
  have absent : map.regions.findIdx (·.contains decoded) = map.regions.length :=
    List.findIdx_eq_length.mpr fun region mem =>
      Bool.eq_false_iff.mpr (owner?_eq_none_iff.mp unmapped region mem)
  unfold updateOwner
  rw [absent, List.modify_eq_self (Nat.le_refl _)]

theorem Represents.setWaitStates (represents : map.Represents memory) (address cycles : UInt32) :
    Matches (map.setWaitStates address cycles) (memory.setWaitStates address cycles) := by
  unfold AddressMap.setWaitStates FlatMemory.setWaitStates
  rw [represents.decode_eq]
  cases mapped : memory.places (map.decode address) with
  | none =>
    have unmapped := (represents.unmapped_iff _).mp mapped
    rw [unmapped, updateOwner_unmapped unmapped]
    exact ⟨rfl, represents⟩
  | some place =>
    obtain ⟨region, found, view⟩ := represents.shown mapped
    have held := contains_of_owner? found
    have stays : Stays (fun region : Region δ => { region with waitStates := cycles }) :=
      ⟨fun _ => rfl, fun _ => rfl⟩
    rw [found]
    refine ⟨rfl, ?_⟩
    refine
      { sound := represents.sound.updateOwner stays fun region mem _ =>
          ⟨(represents.sound.filled region mem).ordered, (represents.sound.filled region mem).spans⟩
        config := represents.config
        unmappedFill := represents.unmappedFill
        pending := represents.pending
        places := fun other => ?_ }
    rw [represents.sound.owner?_updateOwner stays]
    show Option.map _ (Option.map _ (memory.places other)) = _
    cases mappedOther : memory.places other with
    | none =>
      rw [(represents.unmapped_iff other).mp mappedOther]
      rfl
    | some placeOther =>
      obtain ⟨regionOther, foundOther, viewOther⟩ := represents.shown mappedOther
      have block : placeOther.block = regionOther.first :=
        (congrArg Place.block viewOther).symm
      have blockHere : place.block = region.first := (congrArg Place.block view).symm
      -- addresses are mapped together where they have the same region
      have together : placeOther.block = place.block ↔
          regionOther.contains (map.decode address) = true := by
        rw [block, blockHere]
        constructor
        · intro same
          rwa [represents.sound.first_inj (mem_of_owner? found) (mem_of_owner? foundOther) same]
        · intro heldOther
          have same := (represents.sound.owner?_eq (mem_of_owner? foundOther) heldOther).symm.trans
            found
          rw [Option.some_inj.mp same]
      rw [foundOther]
      show some (Place.cut _ (if _ then _ else _)) = some (Region.view (if _ then _ else _) other)
      by_cases here : regionOther.contains (map.decode address) = true
      · rw [if_pos (together.mpr here), if_pos here]
        exact congrArg (fun place : Place δ => some { place with waitStates := cycles })
          viewOther.symm
      · rw [if_neg (mt together.mp here), if_neg here]
        exact congrArg some viewOther.symm

theorem Represents.load (represents : map.Represents memory) (address : UInt32)
    (bytes : List UInt8) : (map.load address bytes).Represents (memory.load address bytes) := by
  induction bytes generalizing map memory address with
  | nil => exact represents
  | cons byte bytes ih =>
    refine ih ?_ (address + 1)
    rw [represents.decode_eq]
    exact represents.patch (map.decode address) byte

/-! ## §6 Accesses -/

theorem Represents.peek_eq (represents : map.Represents memory) (address : UInt32) :
    map.peek address = memory.peek address := by
  unfold AddressMap.peek FlatMemory.peek
  rw [represents.decode_eq]
  cases mapped : memory.places (map.decode address) with
  | none =>
    rw [(represents.unmapped_iff _).mp mapped]
    exact represents.fill_eq.symm
  | some place =>
    obtain ⟨region, found, view⟩ := represents.shown mapped
    have filled := represents.sound.filled region (mem_of_owner? found)
    have offset := Region.offset_lt (contains_of_owner? found)
    have content : region.backing.content (map.decode address - region.first).toNat =
        place.content.cut map.unitMask := congrArg Place.content view
    rw [found]
    have cell : region.cell? (map.decode address) =
        place.content.held?.map (· &&& map.unitMask) :=
      (Backing.cell?_eq filled.spans offset).trans (content ▸ Content.held?_cut _ _)
    show (region.cell? (map.decode address)).getD map.fill =
      memory.cut (place.content.held?.getD memory.unmappedFill)
    rw [cell]
    cases place.content.held? with
    | none => exact represents.fill_eq.symm
    | some value => exact (represents.cut_eq value).symm

/-- Two accesses do the same to devices and have related answers. -/
def Agree {β : Type} (R : α → β → Prop) (access : Access δ α) (flat : Access δ β) : Prop :=
  ∀ devices, ∃ state requests answer flatAnswer,
    access devices = ⟨answer, state, requests⟩ ∧ flat devices = ⟨flatAnswer, state, requests⟩ ∧
      R answer flatAnswer

namespace Agree

variable {β ε ζ : Type} {R : α → β → Prop} {S : ε → ζ → Prop}

theorem pure {answer : α} {flatAnswer : β} (related : R answer flatAnswer) :
    Agree (δ := δ) R (Pure.pure answer) (Pure.pure flatAnswer) :=
  fun devices => ⟨devices, [], answer, flatAnswer, rfl, rfl, related⟩

theorem refl (access : Access δ α) : Agree Eq access access :=
  fun _ => ⟨_, _, _, _, rfl, rfl, rfl⟩

theorem bind {access : Access δ α} {flat : Access δ β} (agree : Agree R access flat)
    {next : α → Access δ ε} {flatNext : β → Access δ ζ}
    (nextAgree : ∀ answer flatAnswer, R answer flatAnswer →
      Agree S (next answer) (flatNext flatAnswer)) :
    Agree S (access >>= next) (flat >>= flatNext) := by
  intro devices
  obtain ⟨state, requests, answer, flatAnswer, here, there, related⟩ := agree devices
  obtain ⟨after, later, last, flatLast, here', there', related'⟩ :=
    nextAgree answer flatAnswer related state
  refine ⟨after, requests ++ later, last, flatLast, ?_, ?_, related'⟩
  · rw [Access.bind_apply, here, here']
  · rw [Access.bind_apply, there, there']

/-- Accesses that agree in equal answers are equal. -/
theorem eq {access flat : Access δ α} (agree : Agree Eq access flat) : access = flat := by
  funext devices
  obtain ⟨state, requests, answer, _, here, there, rfl⟩ := agree devices
  exact here.trans there.symm

end Agree

/-- The region of a mapped address answers in the way that the place says. -/
theorem Represents.target?_eq (represents : map.Represents memory) {place : Place δ}
    (mapped : memory.places address = some place) :
    map.target? address = some (place.waitStates, place.content.device?) := by
  obtain ⟨region, found, view⟩ := represents.shown mapped
  have waits : region.waitStates = place.waitStates := congrArg Place.waitStates view
  have device : region.backing.device? = place.content.device? :=
    (Backing.device?_content _ _).symm.trans
      ((congrArg (fun place => place.content.device?) view).trans (Content.device?_cut ..))
  unfold target?
  rw [found, ← waits, ← device]
  rfl

theorem Represents.readUnit (represents : map.Represents memory) (address : UInt32) :
    Agree Matches (map.readUnit address) (memory.readUnit address) := by
  have peek := represents.peek_eq address
  unfold AddressMap.readUnit FlatMemory.readUnit
  unfold FlatMemory.peek at peek
  dsimp only
  rw [represents.decode_eq] at peek ⊢
  cases mapped : memory.places (map.decode address) with
  | none =>
    have unmapped : map.target? (map.decode address) = none :=
      Option.map_eq_none_iff.mpr ((represents.unmapped_iff _).mp mapped)
    rw [unmapped]
    exact .pure ⟨represents.fill_eq.symm, represents⟩
  | some place =>
    rw [represents.target?_eq mapped]
    rw [mapped] at peek
    have charged := represents.charge place.waitStates
    obtain ⟨block, waitStates, content⟩ := place
    cases content with
    | ram value => exact .pure ⟨peek, charged⟩
    | rom value => exact .pure ⟨peek, charged⟩
    | device handlers =>
      refine .bind (.refl (handlers.read (map.decode address))) ?_
      rintro value _ rfl
      exact .pure ⟨(represents.cut_eq value).symm, charged⟩

/-- The bits of a value beyond the width of the data do not matter. -/
theorem Represents.writeUnit (represents : map.Represents memory) (address : UInt32)
    {value flatValue : UInt8} (same : value &&& map.unitMask = flatValue &&& map.unitMask) :
    Agree Represents (map.writeUnit address value) (memory.writeUnit address flatValue) := by
  unfold AddressMap.writeUnit FlatMemory.writeUnit
  dsimp only
  rw [represents.decode_eq, represents.cut_eq, same]
  cases mapped : memory.places (map.decode address) with
  | none =>
    have unmapped : map.target? (map.decode address) = none :=
      Option.map_eq_none_iff.mpr ((represents.unmapped_iff _).mp mapped)
    rw [unmapped]
    exact .pure represents
  | some place =>
    rw [represents.target?_eq mapped]
    have stored := (represents.store (map.decode address) flatValue).charge place.waitStates
    obtain ⟨block, waitStates, content⟩ := place
    cases content with
    | ram value => exact .pure stored
    | rom value => exact .pure stored
    | device handlers =>
      -- a device is told and holds nothing
      have kept : memory.alter (map.decode address) (Content.write flatValue) = memory :=
        memory.alter_same mapped rfl
      rw [kept]
      exact .bind (.refl (handlers.write (map.decode address) (flatValue &&& map.unitMask)))
        fun _ _ _ => .pure (represents.charge waitStates)

theorem Represents.readUnits (represents : map.Represents memory) (address : UInt32)
    (count : Nat) :
    Agree Matches (map.readUnits address count)
      (memory.readEach (consecutive address count)) := by
  induction count generalizing map memory address with
  | zero => exact .pure ⟨rfl, represents⟩
  | succ count ih =>
    rw [consecutive_succ]
    refine .bind (represents.readUnit address) ?_
    rintro ⟨unit, map⟩ ⟨_, memory⟩ ⟨rfl, represents⟩
    refine .bind (ih represents (address + 1)) ?_
    rintro ⟨units, map⟩ ⟨_, memory⟩ ⟨rfl, represents⟩
    exact .pure ⟨rfl, represents⟩

theorem Represents.writeUnits (represents : map.Represents memory) (address : UInt32)
    (units : List UInt8) :
    Agree Represents (map.writeUnits address units)
      (memory.writeEach ((consecutive address units.length).zip units)) := by
  induction units generalizing map memory address with
  | nil => exact .pure represents
  | cons unit units ih =>
    rw [List.length_cons, consecutive_succ]
    exact .bind (represents.writeUnit address rfl) fun _ _ represents => ih represents (address + 1)

/-- One unit is put together to itself. -/
theorem assemble_one (unit : UInt8) (dataWidth : Nat) (order : Endianness) :
    assemble [unit] dataWidth order = unit.toUInt32 := by
  have empty : shiftIn dataWidth 0 unit = unit.toUInt32 := by
    unfold shiftIn
    rw [UInt32.zero_shiftLeft, UInt32.zero_or]
  cases order <;> exact empty

/-- A value of one unit is read as one unit. -/
theorem read_byte (map : AddressMap δ) (address : UInt32) :
    map.read .byte address = map.readUnit address >>= fun (unit, map) =>
      Pure.pure (unit.toUInt32, map) := by
  funext devices
  unfold AddressMap.read AccessWidth.units AddressMap.readUnits AddressMap.readUnits
  simp only [Access.bind_apply, Access.pure_apply, List.append_nil, assemble_one]

theorem writeUnits_one (map : AddressMap δ) (address : UInt32) (unit : UInt8) :
    map.writeUnits address [unit] = map.writeUnit address unit := by
  funext devices
  unfold AddressMap.writeUnits AddressMap.writeUnits
  rw [Access.bind_apply, Access.pure_apply, List.append_nil]

/-- Cutting a byte to a unit leaves its lowest bits. -/
theorem Sound.toNat_cut (sound : map.Sound) (value : UInt8) :
    (value &&& map.unitMask).toNat = value.toNat % 2 ^ map.config.dataWidth := by
  obtain ⟨_, narrow⟩ := sound.width
  have small : 2 ^ map.config.dataWidth ≤ 2 ^ 8 := Nat.pow_le_pow_right (by decide) narrow
  have mask : map.unitMask.toNat = 2 ^ map.config.dataWidth - 1 := by
    unfold unitMask SpaceConfig.dataMask lowBits
    rw [UInt32.toNat_toUInt8, UInt32.toNat_ofNat', Nat.min_eq_left (by omega), Nat.one_shiftLeft]
    omega
  rw [UInt8.toNat_and, mask, Nat.and_two_pow_sub_one_eq_mod]

/-- The lowest unit of a value has the bits of its lowest byte that a unit can hold. -/
theorem Sound.unitAt_cut (sound : map.Sound) (value : UInt32) :
    unitAt value map.config.dataWidth 0 &&& map.unitMask = value.toUInt8 &&& map.unitMask := by
  obtain ⟨_, narrow⟩ := sound.width
  have divides : 2 ^ map.config.dataWidth ∣ 2 ^ 8 := Nat.pow_dvd_pow 2 narrow
  apply UInt8.toNat_inj.mp
  rw [sound.toNat_cut, sound.toNat_cut, toNat_unitAt, unitShift_eq narrow]
  rw [Nat.zero_mul, Nat.pow_zero, Nat.div_one, Nat.mod_mod, UInt32.toNat_toUInt8,
    Nat.mod_mod_of_dvd _ divides]

theorem Represents.read (represents : map.Represents memory) (width : AccessWidth)
    (address : UInt32) : Agree Matches (map.read width address) (memory.read width address) := by
  have wide (count : Nat) : Agree Matches
      (map.readUnits address count >>= fun read =>
        Pure.pure (assemble read.1 read.2.config.dataWidth read.2.config.endianness, read.2))
      (memory.readEach (consecutive address count) >>= fun read =>
        Pure.pure (assemble read.1 read.2.config.dataWidth read.2.config.endianness, read.2)) := by
    refine .bind (represents.readUnits address count) ?_
    rintro ⟨units, map⟩ ⟨_, memory⟩ ⟨rfl, represents⟩
    exact .pure ⟨by rw [represents.config], represents⟩
  cases width with
  | byte =>
    rw [read_byte]
    refine .bind (represents.readUnit address) ?_
    rintro ⟨unit, map⟩ ⟨_, memory⟩ ⟨rfl, represents⟩
    exact .pure ⟨rfl, represents⟩
  | word => exact wide 2
  | dword => exact wide 4

theorem Represents.write (represents : map.Represents memory) (width : AccessWidth)
    (address value : UInt32) :
    Agree Represents (map.write width address value) (memory.write width address value) := by
  have wide (count : Nat) : Agree Represents
      (map.writeUnits address
        (split value count map.config.dataWidth map.config.endianness))
      (memory.writeEach ((consecutive address count).zip
        (split value count memory.config.dataWidth memory.config.endianness))) := by
    have agree := represents.writeUnits address
      (split value count map.config.dataWidth map.config.endianness)
    rw [length_split] at agree
    rwa [represents.config]
  cases width with
  | byte =>
    rw [map.write_byte, map.writeUnits_one]
    exact represents.writeUnit address (represents.sound.unitAt_cut value)
  | word => exact wide 2
  | dword => exact wide 4

/-! ## §7 Commands -/

theorem Represents.perform (represents : map.Represents memory) (command : MapCommand δ) :
    Agree Matches (map.perform command) (memory.perform command) := by
  have answered {outcome : Bool × AddressMap δ} {flat : Bool × FlatMemory δ}
      (found : Matches outcome flat) : Agree (δ := δ) Matches
        (Pure.pure (outcome.map MapAnswer.accepted id))
        (Pure.pure (flat.map MapAnswer.accepted id)) :=
    .pure ⟨congrArg MapAnswer.accepted found.answer, found.represents⟩
  cases command with
  | mapRam first last => exact answered (represents.mapRam first last)
  | mapRom first image => exact answered (represents.mapRom first image)
  | mapDevice first last handlers => exact answered (represents.mapDevice first last handlers)
  | setWaitStates address cycles => exact answered (represents.setWaitStates address cycles)
  | load address bytes => exact .pure ⟨rfl, represents.load address bytes⟩
  | fill value =>
    exact .pure ⟨rfl,
      { sound := ⟨represents.sound.width, represents.sound.filled, represents.sound.apart⟩
        config := represents.config
        unmappedFill := rfl
        pending := represents.pending
        places := represents.places }⟩
  | peek address =>
    exact .pure ⟨congrArg MapAnswer.unit (represents.peek_eq address), represents⟩
  | read width address =>
    refine .bind (represents.read width address) ?_
    rintro ⟨value, map⟩ ⟨_, memory⟩ ⟨rfl, represents⟩
    exact .pure ⟨rfl, represents⟩
  | write width address value =>
    exact .bind (represents.write width address value) fun _ _ represents =>
      .pure ⟨rfl, represents⟩
  | takeWaitStates =>
    have taken : map.pendingWaitStates = UInt32.ofNat (min memory.owed waitMax) := by
      rw [← represents.pending, UInt32.ofNat_toNat]
    exact .pure ⟨congrArg MapAnswer.value taken,
      { sound := ⟨represents.sound.width, represents.sound.filled, represents.sound.apart⟩
        config := represents.config
        unmappedFill := represents.unmappedFill
        pending := (Nat.zero_min waitMax).symm
        places := represents.places }⟩

theorem Represents.answers_eq (represents : map.Represents memory)
    (commands : List (MapCommand δ)) : map.answers commands = memory.answers commands := by
  refine Agree.eq ?_
  induction commands generalizing map memory with
  | nil => exact .pure rfl
  | cons command commands ih =>
    refine .bind (represents.perform command) ?_
    rintro ⟨answer, map⟩ ⟨_, memory⟩ ⟨rfl, represents⟩
    refine .bind (ih represents) ?_
    rintro rest _ rfl
    exact .pure rfl

/-- An address map that has been created answers all commands as a flat memory does: the answers,
the calls of devices with what they do to the devices, and the levels that these request are the
same. -/
theorem create_refines_flat {config : SpaceConfig} (created : create config = .ok map)
    (commands : List (MapCommand δ)) :
    map.answers commands = FlatMemory.answers { config } commands :=
  (create_represents created).answers_eq commands

/-- A device that answers with the address and the number of reads before. -/
def tally : Device Nat where
  read address count := ⟨address.toUInt8 + UInt8.ofNat count, count + 1, []⟩
  write _ _ count := ⟨(), count, []⟩

def nibbles : SpaceConfig := { name := "program", addressWidth := 4, dataWidth := 4 }

/-- RAM, ROM and a device in sixteen addresses of four bits. Accesses run over the end of the RAM
and over the end of the space. -/
def tour : List (MapCommand Nat) :=
  [.mapRam 0 3, .mapRom 4 [0x56, 0x78], .mapRam 3 3, .mapDevice 8 9 tally,
    .setWaitStates 0x12 3, .setWaitStates 8 0xFFFFFFFE, .write .word 0x13 0xAB, .read .word 3,
    .load 3 [0x1C, 0x2D], .read .word 0x23, .fill 0x3E, .peek 8, .read .byte 8, .read .byte 0x19,
    .read .byte 0xF, .write .byte 0xA 1, .takeWaitStates, .load 0xFFFFFFFF [1, 0x19],
    .read .word 0xFFFFFFFF, .takeWaitStates]

theorem create_refines_flat_tour :
    (create nibbles : Except SetupError (AddressMap Nat)) = .ok { config := nibbles } ∧
      (AddressMap.answers { config := nibbles } tour 0).value =
        [.accepted true, .accepted true, .accepted false, .accepted true, .accepted true,
          .accepted true, .done, .value 0x6B, .done, .value 0xDC, .done, .unit 0xE, .value 0x8,
          .value 0xA, .value 0xE, .done, .value 0xFFFFFFFF, .done, .value 0x9E, .value 3] :=
  have created : (create nibbles : Except SetupError (AddressMap Nat)) = .ok { config := nibbles } :=
    rfl
  ⟨created, (congrArg Reply.value (congrFun (create_refines_flat created tour) 0)).trans (by decide)⟩

end AddressMap

end Microboard
