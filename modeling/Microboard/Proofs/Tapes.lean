import Microboard.Proofs.Lockstep

/-!
# Tapes of what spaces are asked

A core notes its own bus cycles, and what a space was asked is kept by nobody. To speak of it, a
space is given a tape that it writes every access on, together with the value that went over the
bus. Nothing else about it changes.

- **§1** Transfers, and accesses that are taped.
- **§2** Worlds with a tape, in lockstep with those without.
-/

namespace Microboard

variable {σ α : Type}

/-! ## §1 Taping -/

/-- What a space was asked. -/
structure Transfer where
  /-- Bus that the space serves. -/
  role : BusRole
  direction : BusDirection
  width : AccessWidth
  address : UInt32
  value : UInt32
  deriving DecidableEq, Repr

/-- A transfer of one unit as a core notes it. -/
def Transfer.cycle (t : Transfer) : BusCycle :=
  ⟨t.role, t.direction, t.width, t.address, t.value.toUInt8⟩

/-- What has been asked so far, oldest first. -/
abbrev Tape : Type := List Transfer

/-- The access, which puts something on the tape. -/
def Access.taped (entries : α → Tape) (access : Access σ α) : Access (σ × Tape) α := fun taped =>
  match access taped.1 with
  | ⟨value, state, requests⟩ => ⟨value, (state, taped.2 ++ entries value), requests⟩

/-- The space, which puts every access on the tape. -/
def Space.taped (role : BusRole) (space : Space σ) : Space (σ × Tape) where
  config := space.config
  read width address :=
    (space.read width address).taped fun value => [⟨role, .read, width, address, value⟩]
  write width address value :=
    (space.write width address value).taped fun _ => [⟨role, .write, width, address, value⟩]
  takeWaitStates taped :=
    ((space.takeWaitStates taped.1).1, ((space.takeWaitStates taped.1).2, taped.2))

/-- The sink beside a tape; what is driven on output lines is not put on it. -/
def Sink.taped (sink : Sink σ) : Sink (σ × Tape) := fun line asserted taped =>
  match sink line asserted taped.1 with
  | ⟨value, state, requests⟩ => ⟨value, (state, taped.2), requests⟩

/-! ## §2 Worlds -/

/-- The world with an empty tape. -/
def World.taped (world : World σ) : World (σ × Tape) :=
  ⟨(world.devices, []), world.lines, world.log⟩

/-- What is on the tape. -/
def World.tape (world : World (σ × Tape)) : Tape := world.devices.2

/-- The second world is the first one with a tape. -/
structure World.Tapes (world : World σ) (taped : World (σ × Tape)) : Prop where
  devices : taped.devices.1 = world.devices
  lines : taped.lines = world.lines
  log : taped.log = world.log

theorem World.tapes_taped (world : World σ) : world.Tapes world.taped := ⟨rfl, rfl, rfl⟩

/-- Being taped changes nothing. -/
theorem Access.lockstep_taped (entries : α → Tape) (access : Access σ α) :
    Lockstep World.Tapes (World.perform access) (World.perform (access.taped entries)) := by
  rintro ⟨devices, lines, log⟩ ⟨⟨_, tape⟩, _, _⟩ ⟨rfl, rfl, rfl⟩
  exact ⟨rfl, rfl, rfl, rfl⟩

theorem Space.coupled_taped (role : BusRole) (space : Space σ) :
    Space.Coupled World.Tapes space (space.taped role) where
  read address := by
    rintro ⟨devices, lines, log⟩ ⟨⟨_, tape⟩, _, _⟩ ⟨rfl, rfl, rfl⟩
    exact ⟨rfl, rfl, rfl, rfl⟩
  write address value :=
    Access.lockstep_taped (fun _ => [⟨role, .write, .byte, address, value.toUInt32⟩])
      (space.writeUnit address value)
  waits := by
    rintro ⟨devices, lines, log⟩ ⟨⟨_, tape⟩, _, _⟩ ⟨rfl, rfl, rfl⟩
    exact ⟨rfl, rfl, rfl, rfl⟩

theorem placesCoupled_taped (number : Nat) (sink : Sink σ) :
    PlacesCoupled World.Tapes number number sink sink.taped where
  sink line asserted := by
    rintro ⟨devices, lines, log⟩ ⟨⟨_, tape⟩, _, _⟩ ⟨rfl, rfl, rfl⟩
    exact ⟨rfl, rfl, rfl, rfl⟩
  record event := by
    rintro ⟨devices, lines, log⟩ ⟨⟨_, tape⟩, _, _⟩ ⟨rfl, rfl, rfl⟩
    exact ⟨rfl, rfl, rfl, rfl⟩
  latch act := by
    rintro ⟨devices, lines, log⟩ ⟨⟨_, tape⟩, _, _⟩ ⟨rfl, rfl, rfl⟩
    exact ⟨rfl, rfl, rfl, rfl⟩

/-! ### What each access puts on the tape -/

section Entries

variable (role : BusRole) (space : Space σ) (world : World (σ × Tape))

/-- A unit that is read is on the tape with the value that the space gave, of which the reader sees
the lowest byte. -/
theorem World.tape_readUnit (address : UInt32) :
    ∃ value : UInt32,
      (World.perform ((space.taped role).readUnit address) world).1 = value.toUInt8 ∧
      (World.perform ((space.taped role).readUnit address) world).2.tape =
        world.tape ++ [⟨role, .read, .byte, address, value⟩] :=
  ⟨(space.read .byte address world.devices.1).value, rfl, rfl⟩

theorem World.tape_writeUnit (address : UInt32) (value : UInt8) :
    (World.perform ((space.taped role).writeUnit address value) world).2.tape =
      world.tape ++ [⟨role, .write, .byte, address, value.toUInt32⟩] := rfl

end Entries

end Microboard
