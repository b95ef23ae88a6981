import Microboard.Bus.Board
import Microboard.Proofs.Metering

/-!
# Wait states on boards

- **§1** Maps: a unit accessed costs the wait states of its region, whatever has been stored.
- **§2** Boards: an access through a slot reaches the map in this slot and no other.
- **§3** The meter of a board, with a seat for each slot.
-/

namespace Microboard

variable {δ α β : Type}

/-! ## §1 Maps -/

/-- Changing an element in what is not asked for does not change what is found. -/
theorem find?_modify {p : α → Bool} {view : α → β} (change : α → α)
    (same : ∀ x, p (change x) = p x) (kept : ∀ x, view (change x) = view x) (xs : List α)
    (index : Nat) : ((xs.modify index change).find? p).map view = (xs.find? p).map view := by
  induction xs generalizing index with
  | nil => cases index <;> rfl
  | cons x xs ih =>
    cases index with
    | zero =>
      rw [List.modify_zero_cons, List.find?_cons, List.find?_cons, same]
      cases p x with
      | true => exact congrArg some (kept x)
      | false => rfl
    | succ index =>
      rw [List.modify_succ_cons, List.find?_cons, List.find?_cons]
      cases p x with
      | true => rfl
      | false => exact ih index

namespace AddressMap

variable (map : AddressMap δ)

/-- Wait states that an access to an address costs. -/
def waitsAt (address : UInt32) : UInt32 :=
  ((map.owner? (map.decode address)).map (·.waitStates)).getD 0

/-- Storing a unit leaves the regions where they are. -/
theorem waitsAt_store (decoded : UInt32) (value : UInt8) :
    (map.updateOwner decoded (Region.store decoded value)).waitsAt = map.waitsAt := by
  funext address
  have same : ((map.regions.modify (map.regions.findIdx (·.contains decoded))
      (Region.store decoded value)).find? (·.contains (map.decode address))).map (·.waitStates) =
        (map.owner? (map.decode address)).map (·.waitStates) :=
    find?_modify (Region.store decoded value) (fun _ => rfl) (fun _ => rfl) map.regions _
  exact congrArg (Option.getD · 0) same

/-- The map has been charged for an access to an address. -/
structure Charged (address : UInt32) (map map' : AddressMap δ) : Prop where
  tariff : map'.waitsAt = map.waitsAt
  pending : map'.pendingWaitStates.toNat =
    min (map.pendingWaitStates.toNat + (map.waitsAt address).toNat) waitMax

variable {map}

/-- An address that no region holds costs nothing. -/
theorem charged_unmapped {address : UInt32}
    (unmapped : map.target? (map.decode address) = none) : map.Charged address map := by
  refine ⟨rfl, ?_⟩
  have free : map.waitsAt address = 0 := by
    unfold waitsAt
    rw [Option.map_eq_none_iff.mp unmapped]
    rfl
  have bound := map.pendingWaitStates.toNat_lt
  rw [free]
  unfold waitMax
  show _ = min (map.pendingWaitStates.toNat + 0) _
  omega

/-- An access to a region costs the wait states of the region. -/
theorem charged_region {address waits : UInt32} {device : Option (Device δ)}
    (found : map.target? (map.decode address) = some (waits, device)) {map' : AddressMap δ}
    (tariff : map'.waitsAt = map.waitsAt)
    (pending : map'.pendingWaitStates = map.pendingWaitStates) :
    map.Charged address (map'.charge waits) := by
  refine ⟨tariff, ?_⟩
  have cost : map.waitsAt address = waits := by
    obtain ⟨region, owner, answer⟩ := Option.map_eq_some_iff.mp found
    unfold waitsAt
    rw [owner]
    exact congrArg Prod.fst answer
  show (satAdd32 map'.pendingWaitStates waits).toNat = _
  rw [toNat_satAdd32, pending, cost]

theorem readUnit_charged (map : AddressMap δ) (address : UInt32) (devices : δ) :
    map.Charged address (map.readUnit address devices).value.2 := by
  unfold readUnit
  cases found : map.target? (map.decode address) with
  | none => exact charged_unmapped found
  | some target =>
    obtain ⟨waits, device⟩ := target
    cases device <;> exact charged_region found rfl rfl

theorem writeUnit_charged (map : AddressMap δ) (address : UInt32) (value : UInt8) (devices : δ) :
    map.Charged address (map.writeUnit address value devices).value := by
  unfold writeUnit
  cases found : map.target? (map.decode address) with
  | none => exact charged_unmapped found
  | some target =>
    obtain ⟨waits, device⟩ := target
    cases device with
    | some device => exact charged_region found rfl rfl
    | none => exact charged_region found (map.waitsAt_store _ _) rfl

/-- A value of one unit is written as one unit. -/
theorem write_byte (map : AddressMap δ) (address value : UInt32) :
    map.write .byte address value =
      map.writeUnits address [unitAt value map.config.dataWidth 0] := by
  unfold write split
  cases map.config.endianness <;> rfl

end AddressMap

/-! ## §2 Boards -/

namespace Board

variable {absent : α} {work : AddressMap δ → Access δ (α × AddressMap δ)}

/-- Only the map in the slot changes. -/
theorem maps_onSlot (maps : List (AddressMap δ)) (slot : Nat) (devices : δ) :
    (onSlot absent work maps slot devices).value.2 =
      maps.modify slot fun map => (work map devices).value.2 := by
  induction maps generalizing slot with
  | nil => cases slot <;> rfl
  | cons map maps ih =>
    cases slot with
    | zero => rfl
    | succ slot => exact congrArg (map :: ·) (ih slot)

theorem value_onSlot (maps : List (AddressMap δ)) (slot : Nat) (devices : δ) :
    (onSlot absent work maps slot devices).value.1 =
      (maps[slot]?).elim absent fun map => (work map devices).value.1 := by
  induction maps generalizing slot with
  | nil => rfl
  | cons map maps ih =>
    cases slot with
    | zero => rfl
    | succ slot => exact ih slot

theorem maps_access (slot : Nat) (board : Board δ) :
    (access slot absent work board).state.maps =
      board.maps.modify slot fun map => (work map board.devices).value.2 :=
  maps_onSlot board.maps slot board.devices

theorem value_access (slot : Nat) (board : Board δ) :
    (access slot absent work board).value =
      (board.maps[slot]?).elim absent fun map => (work map board.devices).value.1 :=
  value_onSlot board.maps slot board.devices

/-! ## §3 The meter of a board -/

/-- Wait states that are pending in a slot. -/
def pendingAt (slot : Nat) (board : Board δ) : Nat :=
  (board.maps[slot]?).elim 0 (·.pendingWaitStates.toNat)

/-- Wait states that an access through a slot costs. -/
def rates (board : Board δ) (slot : Nat) (address : UInt32) : Nat :=
  (board.maps[slot]?).elim 0 fun map => (map.waitsAt address).toNat

/-- Boards that cost the same. -/
def meter (rates : Nat → UInt32 → Nat) : Meter (Board δ) where
  fits board := board.rates = rates
  pending := pendingAt
  tariff := rates
  pending_le slot board := by
    unfold pendingAt
    cases board.maps[slot]? with
    | none => exact Nat.zero_le _
    | some map => exact Nat.le_of_lt_succ map.pendingWaitStates.toNat_lt

theorem maps_modify (change : AddressMap δ → AddressMap δ) {board board' : Board δ} {slot : Nat}
    (changed : board'.maps = board.maps.modify slot change) (other : Nat) :
    board'.maps[other]? = if slot = other then (board.maps[slot]?).map change
      else board.maps[other]? := by
  rw [changed, List.getElem?_modify]
  by_cases same : slot = other
  · subst same
    simp only [if_true]
    rfl
  · simp only [if_neg same]
    exact Option.map_id'

variable {rates : Nat → UInt32 → Nat} {board board' : Board δ} {slot : Nat}

/-- Changing a map without moving its regions leaves the costs alone. -/
theorem rates_modify {change : AddressMap δ → AddressMap δ}
    (changed : board'.maps = board.maps.modify slot change)
    (tariff : ∀ map, board.maps[slot]? = some map → (change map).waitsAt = map.waitsAt) :
    board'.rates = board.rates := by
  funext other address
  unfold Board.rates
  rw [maps_modify change changed]
  split
  · next same =>
    subst same
    cases here : board.maps[slot]? with
    | none => rfl
    | some map => exact congrArg (fun waitsAt => (waitsAt address).toNat) (tariff map here)
  · rfl

theorem pendingAt_modify {change : AddressMap δ → AddressMap δ}
    (changed : board'.maps = board.maps.modify slot change) (other : Nat) :
    board'.pendingAt other =
      if slot = other then
        (board.maps[slot]?).elim 0 fun map => (change map).pendingWaitStates.toNat
      else board.pendingAt other := by
  unfold pendingAt
  rw [maps_modify change changed]
  split
  · cases board.maps[slot]? <;> rfl
  · rfl

/-- An access charges the map in its slot. -/
theorem access_adds (fits : board.rates = rates) {address : UInt32}
    (charged : ∀ map : AddressMap δ, map.Charged address (work map board.devices).value.2) :
    (meter rates).Adds ((meter (δ := δ) rates).access slot address) board
      (access slot absent work board).state where
  fits := (rates_modify (maps_access slot board) fun map _ => (charged map).tariff).trans fits
  pending other := by
    show (access slot absent work board).state.pendingAt other =
      min (board.pendingAt other + if other = slot then rates slot address else 0) waitMax
    rw [pendingAt_modify (maps_access slot board), ← fits]
    by_cases same : slot = other
    · subst same
      rw [if_pos rfl, if_pos rfl]
      unfold pendingAt Board.rates
      cases board.maps[slot]? with
      | none => rfl
      | some map => exact (charged map).pending
    · rw [if_neg same, if_neg (Ne.symm same)]
      exact (Nat.min_eq_left ((meter rates).pending_le other board)).symm

/-- Taking the wait states of a slot. -/
theorem maps_takeWaitStates (config : SpaceConfig) (slot : Nat) (board : Board δ) :
    ((space config slot).takeWaitStates board).2.maps =
      board.maps.modify slot ({ · with pendingWaitStates := 0 }) :=
  maps_access slot board

theorem takeWaitStates_value (config : SpaceConfig) (slot : Nat) (board : Board δ) :
    ((space config slot).takeWaitStates board).1.toNat = board.pendingAt slot := by
  show (access slot 0 (fun map => pure map.takeWaitStates) board).value.toNat = _
  rw [value_access]
  unfold pendingAt
  cases board.maps[slot]? <;> rfl

/-- A space over a slot has the seat of the slot. -/
theorem space_seats (rates : Nat → UInt32 → Nat) (config : SpaceConfig) (slot : Nat) :
    (meter (δ := δ) rates).Seats slot (space config slot) where
  read address board fits :=
    access_adds fits fun map => map.readUnit_charged address board.devices
  write address value board fits := by
    refine access_adds fits fun map => ?_
    show map.Charged address ((map.write .byte address value.toUInt32) board.devices).value
    rw [AddressMap.write_byte]
    exact map.writeUnit_charged address _ board.devices
  takes board fits := by
    have taken := maps_takeWaitStates config slot board
    refine ⟨takeWaitStates_value config slot board,
      (rates_modify taken fun _ _ => rfl).trans fits, fun other => ?_⟩
    refine (pendingAt_modify taken other).trans ?_
    by_cases same : slot = other
    · subst same
      rw [if_pos rfl, if_pos rfl]
      cases board.maps[slot]? <;> rfl
    · rw [if_neg same, if_neg (Ne.symm same)]
      rfl

/-- What leaves the maps alone leaves all seats alone. -/
theorem spares_of_maps {access : Access (Board δ) α}
    (same : ∀ board, (access board).state.maps = board.maps) : (meter rates).Spares access := by
  intro board fits
  refine ⟨?_, fun slot => ?_⟩
  · show (access board).state.rates = rates
    unfold Board.rates
    rw [same board]
    exact fits
  · show (access board).state.pendingAt slot = board.pendingAt slot
    unfold pendingAt
    rw [same board]

end Board

end Microboard
