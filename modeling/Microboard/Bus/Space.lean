import Microboard.Bus.Config
import Microboard.Line.Bank

/-!
# Address spaces

A core reaches memory and devices only through spaces. An access is a state transition of
whatever lies behind the space; it answers with a value and may request levels on input lines.
Nothing is assumed of a space beyond these types, so what is proved of a core holds for every
memory and every device that can be attached to it.
-/

namespace Microboard

/-- Answer to an access. -/
structure Reply (σ α : Type) where
  value : α
  state : σ
  /-- Line levels requested on the way, oldest first. -/
  requests : List LineRequest := []

/-- An access to devices whose state is `σ`. -/
def Access (σ α : Type) : Type := σ → Reply σ α

namespace Access

variable {σ α β : Type}

/-- Touches nothing. -/
protected def pure (value : α) : Access σ α := fun state => ⟨value, state, []⟩

/-- One access after the other; requests keep their order. -/
protected def bind (first : Access σ α) (next : α → Access σ β) : Access σ β := fun state =>
  match first state with
  | ⟨value, state, requests⟩ =>
    match next value state with
    | ⟨value, state, later⟩ => ⟨value, state, requests ++ later⟩

instance : Monad (Access σ) where
  pure := Access.pure
  bind := Access.bind

theorem pure_apply (value : α) (state : σ) :
    (pure value : Access σ α) state = ⟨value, state, []⟩ := rfl

theorem bind_apply (first : Access σ α) (next : α → Access σ β) (state : σ) :
    (first >>= next) state =
      ⟨(next (first state).value (first state).state).value,
        (next (first state).value (first state).state).state,
        (first state).requests ++ (next (first state).value (first state).state).requests⟩ := rfl

end Access

/-- Handlers of a device. They are given the address as the map decoded it. -/
structure Device (δ : Type) where
  read : UInt32 → Access δ UInt8
  write : UInt32 → UInt8 → Access δ Unit

/-- View through which a core reads and writes. -/
structure Space (σ : Type) where
  config : SpaceConfig
  /-- Reads as many units as the width says. -/
  read : AccessWidth → UInt32 → Access σ UInt32
  /-- Writes as many units as the width says. -/
  write : AccessWidth → UInt32 → UInt32 → Access σ Unit
  /-- Takes the wait states that accesses have piled up; most spaces have none. -/
  takeWaitStates : σ → UInt32 × σ := fun state => (0, state)

namespace Space

variable {σ : Type}

def readUnit (space : Space σ) (address : UInt32) : Access σ UInt8 := do
  let value ← space.read .byte address
  pure value.toUInt8

def writeUnit (space : Space σ) (address : UInt32) (value : UInt8) : Access σ Unit :=
  space.write .byte address value.toUInt32

end Space

end Microboard
