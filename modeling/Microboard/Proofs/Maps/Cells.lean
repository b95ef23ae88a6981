import Mathlib.Logic.Function.Basic
import Microboard.Proofs.Boards
import Microboard.Proofs.Maps.Refinement

/-!
# Memory cells

Behind a space with addresses of sixteen bits there may be cells, which keep what was written to
them last. Cores that store something and want it back rely on cells and on nothing else of what
lies behind their spaces.

- **§1** Cells, and the spaces that have them.
- **§2** Cells of a flat memory: its RAM.
- **§3** Cells of a board: the RAM of the map in a slot.
-/

namespace Microboard

variable {σ δ α : Type}

/-! ## §1 Cells -/

/-- Some of the addresses behind a space, and what it means that the cells there hold some
values. -/
structure Cells (σ : Type) where
  has : UInt16 → Prop
  Hold : (UInt16 → UInt8) → σ → Prop

namespace Cells

/-- The cells lie behind the space. Reads find what they hold, and they hold what was written. -/
structure Behind (cells : Cells σ) (space : Space σ) : Prop where
  read : ∀ (address : UInt16) values devices, cells.Hold values devices →
    cells.Hold values (space.readUnit address.toUInt32 devices).state
  finds : ∀ (address : UInt16) values devices, cells.Hold values devices → cells.has address →
    (space.readUnit address.toUInt32 devices).value = values address
  write : ∀ (address : UInt16) value values devices, cells.Hold values devices →
    cells.Hold (Function.update values address value)
      (space.writeUnit address.toUInt32 value devices).state
  takes : ∀ values devices, cells.Hold values devices →
    cells.Hold values (space.takeWaitStates devices).2

/-- The access leaves the cells alone. -/
def Spares (cells : Cells σ) (access : Access σ α) : Prop :=
  ∀ values devices, cells.Hold values devices → cells.Hold values (access devices).state

/-- Whatever has happened between two moments, the cells hold what they held. -/
def Kept (cells : Cells σ) (before after : σ) : Prop :=
  ∀ values, cells.Hold values before → cells.Hold values after

end Cells

/-! ## §2 Flat memories -/

namespace FlatMemory

/-- RAM of whole bytes, on an address bus of at least sixteen bits, holds some values. -/
structure Stores (memory : FlatMemory δ) (has : UInt16 → Prop) (values : UInt16 → UInt8) :
    Prop where
  wide : 16 ≤ memory.config.addressWidth
  whole : memory.config.dataWidth = 8
  ram : ∀ address, has address →
    (memory.places address.toUInt32).map (·.content) = some (.ram (values address))

namespace Stores

variable {memory : FlatMemory δ} {has : UInt16 → Prop} {values : UInt16 → UInt8}

/-- No address of sixteen bits is another name for a lower one. -/
theorem decode (stores : memory.Stores has values) (address : UInt16) :
    memory.decode address.toUInt32 = address.toUInt32 := by
  have small := address.toNat_lt
  have wide : 2 ^ 16 ≤ 2 ^ min memory.config.addressWidth 32 :=
    Nat.pow_le_pow_right (by decide) (Nat.le_min.mpr ⟨stores.wide, by decide⟩)
  have narrow : 2 ^ min memory.config.addressWidth 32 ≤ 2 ^ 32 :=
    Nat.pow_le_pow_right (by decide) (Nat.min_le_right ..)
  have fits : 2 ^ min memory.config.addressWidth 32 - 1 < UInt32.size :=
    Nat.lt_of_lt_of_le (Nat.sub_lt (Nat.two_pow_pos _) Nat.one_pos) narrow
  apply UInt32.toNat_inj.mp
  unfold FlatMemory.decode SpaceConfig.addressMask lowBits
  rw [UInt32.toNat_and, Nat.one_shiftLeft, UInt32.toNat_ofNat_of_lt' fits,
    Nat.and_two_pow_sub_one_eq_mod, UInt16.toNat_toUInt32,
    Nat.mod_eq_of_lt (by omega)]

theorem cut (stores : memory.Stores has values) (value : UInt8) : memory.cut value = value := by
  unfold FlatMemory.cut SpaceConfig.dataMask
  rw [stores.whole]
  exact UInt8.and_neg_one

theorem owe (stores : memory.Stores has values) (cycles : UInt32) :
    (memory.owe cycles).Stores has values :=
  ⟨stores.wide, stores.whole, stores.ram⟩

theorem alter (stores : memory.Stores has values) (address : UInt16) (value : UInt8) :
    (memory.alter address.toUInt32 (Content.write value)).Stores has
      (Function.update values address value) where
  wide := stores.wide
  whole := stores.whole
  ram other there := by
    have held := stores.ram other there
    show (if other.toUInt32 = address.toUInt32 then
      (memory.places other.toUInt32).map (Place.alter (Content.write value))
        else memory.places other.toUInt32).map (·.content) = _
    by_cases same : other = address
    · obtain ⟨place, mapped, ram⟩ := Option.map_eq_some_iff.mp held
      rw [same, if_pos rfl, Function.update_self, ← same, mapped]
      exact congrArg (fun content => some (Content.write value content)) ram
    · have apart : other.toUInt32 ≠ address.toUInt32 := fun eq =>
        same (UInt16.toNat_inj.mp (congrArg UInt32.toNat eq))
      rw [if_neg apart, Function.update_of_ne same]
      exact held

theorem readUnit (stores : memory.Stores has values) (address : UInt32) (devices : δ) :
    (memory.readUnit address devices).value.2.Stores has values := by
  unfold FlatMemory.readUnit
  cases memory.places (memory.decode address) with
  | none => exact stores
  | some place => exact stores.owe place.waitStates

theorem readUnit_value (stores : memory.Stores has values) {address : UInt16} (there : has address)
    (devices : δ) : (memory.readUnit address.toUInt32 devices).value.1 = values address := by
  obtain ⟨place, mapped, ram⟩ := Option.map_eq_some_iff.mp (stores.ram address there)
  unfold FlatMemory.readUnit
  rw [stores.decode, mapped]
  simp only [ram]
  exact stores.cut _

theorem writeUnit (stores : memory.Stores has values) (address : UInt16) (value : UInt8)
    (devices : δ) : (memory.writeUnit address.toUInt32 value devices).value.Stores has
      (Function.update values address value) := by
  have altered := stores.alter address value
  unfold FlatMemory.writeUnit
  rw [stores.decode]
  cases mapped : memory.places address.toUInt32 with
  | none =>
    -- nothing is mapped there, so no cell has the address
    refine ⟨stores.wide, stores.whole, fun other there => ?_⟩
    have held := stores.ram other there
    have apart : other ≠ address := by
      rintro rfl
      rw [mapped] at held
      cases held
    rw [Function.update_of_ne apart]
    exact held
  | some place => exact altered.owe place.waitStates

end Stores

end FlatMemory

/-! ## §3 Boards -/

namespace Board

/-- The cells of a board at some addresses of a slot. -/
def cells (slot : Nat) (has : UInt16 → Prop) : Cells (Board δ) where
  has := has
  Hold values board := ∃ map memory, board.maps[slot]? = some map ∧
    AddressMap.Represents map memory ∧ memory.Stores has values

variable {slot : Nat} {has : UInt16 → Prop} {values values' : UInt16 → UInt8}
  {board board' : Board δ}

/-- A board on which the map in the slot still represents a memory with these cells. -/
theorem cells_modify {change : AddressMap δ → AddressMap δ}
    (hold : (cells slot has).Hold values board)
    (changed : board'.maps = board.maps.modify slot change)
    (represents : ∀ map memory, AddressMap.Represents map memory → memory.Stores has values →
      ∃ memory, (change map).Represents memory ∧ memory.Stores has values') :
    (cells slot has).Hold values' board' := by
  obtain ⟨map, memory, found, shown, stores⟩ := hold
  obtain ⟨memory', shown', stores'⟩ := represents map memory shown stores
  refine ⟨change map, memory', ?_, shown', stores'⟩
  rw [maps_modify change changed, if_pos rfl, found]
  rfl

/-- The RAM of the map in a slot lies behind the space over the slot. -/
theorem cells_behind (slot : Nat) (has : UInt16 → Prop) (config : SpaceConfig) :
    (cells (δ := δ) slot has).Behind (space config slot) where
  read address values board hold := by
    refine cells_modify hold (maps_access slot board) fun map memory represents stores => ?_
    obtain ⟨state, requests, answer, flatAnswer, here, there, -, represents⟩ :=
      represents.readUnit address.toUInt32 board.devices
    have stores := stores.readUnit address.toUInt32 board.devices
    rw [there] at stores
    refine ⟨flatAnswer.2, ?_, stores⟩
    rw [AddressMap.read_byte, Access.bind_apply, here]
    exact represents
  finds address values board hold there := by
    obtain ⟨map, memory, found, represents, stores⟩ := hold
    obtain ⟨state, requests, answer, flatAnswer, here, flat, same, -⟩ :=
      represents.readUnit address.toUInt32 board.devices
    have value := stores.readUnit_value there board.devices
    rw [flat] at value
    show (access slot 0 (·.read .byte address.toUInt32) board).value.toUInt8 = _
    rw [value_access, found, ← value, ← same]
    show (map.read .byte address.toUInt32 board.devices).value.1.toUInt8 = answer.1
    rw [AddressMap.read_byte, Access.bind_apply, here]
    exact UInt8.toUInt8_toUInt32 answer.1
  write address value values board hold := by
    refine cells_modify hold (maps_access slot board) fun map memory represents stores => ?_
    obtain ⟨state, requests, answer, flatAnswer, here, there, represents⟩ :=
      represents.write .byte address.toUInt32 value.toUInt32 board.devices
    have stores := stores.writeUnit address value board.devices
    have byte : memory.write .byte address.toUInt32 value.toUInt32 =
        memory.writeUnit address.toUInt32 value :=
      congrArg (memory.writeUnit address.toUInt32) (UInt8.toUInt8_toUInt32 value)
    rw [byte] at there
    rw [there] at stores
    refine ⟨flatAnswer, ?_, stores⟩
    rw [Access.bind_apply, here]
    exact represents
  takes values board hold := by
    refine cells_modify hold (maps_takeWaitStates config slot board)
      fun map memory shown stores => ?_
    refine ⟨{ memory with owed := 0 }, ?_, stores.wide, stores.whole, stores.ram⟩
    exact
      { sound := ⟨shown.sound.width, shown.sound.filled, shown.sound.apart⟩
        config := shown.config
        unmappedFill := shown.unmappedFill
        pending := rfl
        places := shown.places }

/-- What leaves the maps alone leaves all cells alone. -/
theorem cells_spare {access : Access (Board δ) α}
    (same : ∀ board, (access board).state.maps = board.maps) :
    (cells slot has).Spares access := by
  rintro values board ⟨map, memory, found, holds⟩
  exact ⟨map, memory, (congrArg (·[slot]?) (same board)).trans found, holds⟩

end Board

end Microboard
