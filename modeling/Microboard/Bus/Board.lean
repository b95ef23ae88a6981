import Microboard.Bus.AddressMap

/-!
# Boards

A board carries the address maps of a system and the devices behind them. Each map has a slot;
cores that are given the same slot share the map, its memory and its pending wait states.
-/

namespace Microboard

/-- Address maps, by slot, and the state of all devices. -/
structure Board (δ : Type) where
  maps : List (AddressMap δ) := []
  devices : δ

namespace Board

variable {δ α : Type}

/-- Lets the map in a slot work; an empty slot answers `absent`. -/
def onSlot (absent : α) (work : AddressMap δ → Access δ (α × AddressMap δ)) :
    List (AddressMap δ) → Nat → Access δ (α × List (AddressMap δ))
  | [], _ => pure (absent, [])
  | map :: maps, 0 => do
    let (answer, map) ← work map
    pure (answer, map :: maps)
  | map :: maps, slot + 1 => do
    let (answer, maps) ← onSlot absent work maps slot
    pure (answer, map :: maps)

/-- Lets the map in a slot of the board work. -/
def access (slot : Nat) (absent : α) (work : AddressMap δ → Access δ (α × AddressMap δ)) :
    Access (Board δ) α
  | ⟨maps, devices⟩ =>
    match onSlot absent work maps slot devices with
    | ⟨(answer, maps), devices, requests⟩ => ⟨answer, ⟨maps, devices⟩, requests⟩

/-- Space over the map in a slot, whose shape the caller names. -/
def space (config : SpaceConfig) (slot : Nat) : Space (Board δ) where
  config := config
  read width address := access slot 0 (·.read width address)
  write width address value := access slot () fun map => do
    let map ← map.write width address value
    pure ((), map)
  takeWaitStates board :=
    match access slot 0 (fun map => pure map.takeWaitStates) board with
    | ⟨waitStates, board, _⟩ => (waitStates, board)

/-- Puts a map into the next free slot and answers a space over it. -/
def plug (board : Board δ) (map : AddressMap δ) : Space (Board δ) × Board δ :=
  (space map.config board.maps.length, { board with maps := board.maps ++ [map] })

def update (board : Board δ) (slot : Nat) (change : AddressMap δ → AddressMap δ) : Board δ :=
  { board with maps := board.maps.modify slot change }

end Board

end Microboard
