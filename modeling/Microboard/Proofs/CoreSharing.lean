import Microboard.Proofs.Boards
import Microboard.Proofs.CoreBilling
import Microboard.Proofs.CoreFaults

/-!
# Cores on a shared board

Cores that share the maps of a board also share their pending wait states. Every action but one
takes what it has piled up; a fault leaves it to whoever uses the map next.

- **§1** Cores on a board.
- **§2** Ensembles of cores, called in any order.
- **§3** Slots at which no core faults stay clear.
- **§4** What the actions of an ensemble are charged.
-/

namespace Microboard.Core

variable {δ : Type}

/-! ## §1 Cores on a board -/

/-- Slots in which a core finds its maps. An SM83 core has only the first. -/
structure Slots where
  program : Nat
  data : Nat
  io : Nat

/-- The seats that its slots give a core. -/
def Slots.seating (slots : Slots) : Wiring (Board δ) → Seating
  | .inl _ => fun
    | .program => some slots.program
    | .data | .io | .internal => none
  | .inr _ => fun
    | .program => some slots.program
    | .data => some slots.data
    | .io => some slots.io
    | .internal => none

/-- A sink that leaves the maps of a board alone. -/
def SparesMaps (sink : Sink (Board δ)) : Prop :=
  ∀ line asserted board, (sink line asserted board).state.maps = board.maps

/-- The spaces of a core are over the maps in its slots. -/
def OnBoard (slots : Slots) : Wiring (Board δ) → Prop
  | .inl w => (∃ config, w.program = Board.space config slots.program) ∧ SparesMaps w.sink
  | .inr w => ((∃ config, w.program = Board.space config slots.program) ∧
      (∃ config, w.data = Board.space config slots.data) ∧
      ∃ config, w.io = Board.space config slots.io) ∧ SparesMaps w.sink

theorem OnBoard.seated {slots : Slots} {w : Wiring (Board δ)} (onBoard : OnBoard slots w)
    (rates : Nat → UInt32 → Nat) : Seated (Board.meter rates) (slots.seating w) w := by
  cases w with
  | inl w =>
    obtain ⟨⟨config, program⟩, sink⟩ := onBoard
    exact
      { program := ⟨slots.program, rfl, program ▸ Board.space_seats rates config slots.program⟩
        data := rfl
        io := rfl
        core := rfl
        sink := fun line asserted => Board.spares_of_maps (sink line asserted) }
  | inr w =>
    obtain ⟨⟨⟨programConfig, program⟩, ⟨dataConfig, data⟩, ⟨ioConfig, io⟩⟩, sink⟩ := onBoard
    exact
      { program := ⟨slots.program, rfl, program ▸ Board.space_seats rates programConfig _⟩
        data := ⟨slots.data, rfl, data ▸ Board.space_seats rates dataConfig _⟩
        io := ⟨slots.io, rfl, io ▸ Board.space_seats rates ioConfig _⟩
        core := rfl
        sink := fun line asserted => Board.spares_of_maps (sink line asserted) }

theorem Slots.core_seating (slots : Slots) (w : Wiring (Board δ)) :
    slots.seating w .internal = none := by
  cases w <;> rfl

/-! ## §2 Ensembles -/

/-- Cores on a board. -/
abbrev Ensemble (δ : Type) : Type := Machine (List (Core (Board δ))) (Board δ)

/-- Lets one of the cores work, if it is there. -/
def onMember {α : Type} (id : Nat) (work : Exec (Board δ) α) (m : Ensemble δ) : Ensemble δ :=
  match m.core[id]? with
  | none => m
  | some core =>
    let after := (work ⟨core, m.world⟩).2
    ⟨m.core.set id after.core, after.world⟩

/-- A call on one of the cores. -/
inductive Call where
  | advance (id remaining : Nat)
  | reset (id : Nat)

namespace Call

def apply : Call → Ensemble δ → Ensemble δ
  | .advance id remaining, m => onMember id (Core.advance remaining) m
  | .reset id, m => onMember id Core.reset m

/-- Makes the calls, one after the other. -/
def applyAll (calls : List Call) (m : Ensemble δ) : Ensemble δ :=
  calls.foldl (fun m call => call.apply m) m

end Call

/-- Invariant of an ensemble: every core is on the board, and accesses cost what they did. -/
structure Shares (slots : Nat → Slots) (rates : Nat → UInt32 → Nat) (m : Ensemble δ) : Prop where
  rates : m.world.devices.rates = rates
  boarded : ∀ id core, m.core[id]? = some core → OnBoard (slots id) core.wiring

variable {slots : Nat → Slots} {rates : Nat → UInt32 → Nat} {m : Ensemble δ}

/-- An action of a member is billed on the meter of the board. -/
theorem Shares.billed (shares : Shares slots rates m) {id : Nat} {core : Core (Board δ)}
    (member : m.core[id]? = some core) (remaining : Nat) :
    (Board.meter rates).Answers ((slots id).seating core.wiring) core.bill
      (Board.pendingAt · m.world.devices) core.status.tally core.status.inReset
      (advance remaining ⟨core, m.world⟩).1 (advance remaining ⟨core, m.world⟩).2.core.status
      (advance remaining ⟨core, m.world⟩).2.world.devices :=
  advance_billed (m := ⟨core, m.world⟩) ((shares.boarded id core member).seated rates)
    shares.rates remaining

theorem Shares.reset_settled (shares : Shares slots rates m) {id : Nat} {core : Core (Board δ)}
    (member : m.core[id]? = some core) :
    (Board.meter rates).Settled (Board.pendingAt · m.world.devices)
      (reset ⟨core, m.world⟩).2.world.devices :=
  Core.reset_settled (m := ⟨core, m.world⟩) ((shares.boarded id core member).seated rates)
    shares.rates

/-- Work that leaves the wiring of a member and the costs alone keeps the invariant. -/
theorem Shares.onMember {α : Type} (shares : Shares slots rates m) {id : Nat}
    {work : Exec (Board δ) α}
    (each : ∀ core, m.core[id]? = some core →
      (work ⟨core, m.world⟩).2.core.wiring = core.wiring ∧
        (work ⟨core, m.world⟩).2.world.devices.rates = rates) :
    Shares slots rates (onMember id work m) := by
  unfold Core.onMember
  cases member : m.core[id]? with
  | none => exact shares
  | some core =>
    obtain ⟨wired, kept⟩ := each core member
    refine ⟨kept, fun other core' member' => ?_⟩
    -- the member that worked has its old wiring, and the others are as they were
    rw [List.getElem?_set] at member'
    split at member'
    · next same =>
      subst same
      split at member'
      · obtain rfl := Option.some.inj member'
        exact wired ▸ shares.boarded id core member
      · cases member'
    · exact shares.boarded other core' member'

theorem Shares.apply (shares : Shares slots rates m) (call : Call) :
    Shares slots rates (call.apply m) := by
  cases call with
  | advance id remaining =>
    refine shares.onMember fun core member => ⟨wiring_advance remaining ⟨core, m.world⟩, ?_⟩
    have billed := shares.billed member remaining
    revert billed
    cases (advance remaining ⟨core, m.world⟩).1 with
    | ok step => exact fun billed => billed.fits
    | error fault => exact fun owing => owing.fits
  | reset id =>
    exact shares.onMember fun core member =>
      ⟨wiring_reset ⟨core, m.world⟩, (shares.reset_settled member).fits⟩

theorem Shares.applyAll (shares : Shares slots rates m) (calls : List Call) :
    Shares slots rates (Call.applyAll calls m) := by
  induction calls generalizing m with
  | nil => exact shares
  | cons call calls ih => exact ih (shares.apply call)

/-! ## §3 Clear slots -/

/-- Nothing is pending in some slots. -/
def Clear (shared : Finset Nat) (m : Ensemble δ) : Prop :=
  ∀ slot ∈ shared, m.world.devices.pendingAt slot = 0

/-- The call is an action that stops a core with a fault, and the core uses one of some slots. -/
def Call.FaultsAt (slots : Nat → Slots) (shared : Finset Nat) (m : Ensemble δ) : Call → Prop
  | .advance id remaining => ∃ core fault, m.core[id]? = some core ∧
      core.exec.latchedFault? = none ∧ (Core.advance remaining ⟨core, m.world⟩).1 = .error fault ∧
      ∃ slot ∈ shared, slot ∈ ((slots id).seating core.wiring).seats
  | .reset _ => False

/-- None of the calls stops a core that uses one of the slots. -/
def Undisturbed (slots : Nat → Slots) (shared : Finset Nat) : List Call → Ensemble δ → Prop
  | [], _ => True
  | call :: calls, m =>
    ¬call.FaultsAt slots shared m ∧ Undisturbed slots shared calls (call.apply m)

variable {shared : Finset Nat}

/-- An action that ends well stops no core. -/
theorem Call.spares_of_isOk {id remaining : Nat} {core : Core (Board δ)}
    (member : m.core[id]? = some core)
    (orderly : (Core.advance remaining ⟨core, m.world⟩).1.isOk = true) :
    ¬(Call.advance id remaining).FaultsAt slots shared m := by
  rintro ⟨core', fault, member', -, answer, -⟩
  obtain rfl := Option.some.inj (member.symm.trans member')
  rw [answer] at orderly
  cases orderly

/-- Work of a member that leaves the slots clear. -/
theorem Clear.onMember {α : Type} (clear : Clear shared m) {id : Nat} {work : Exec (Board δ) α}
    (each : ∀ core, m.core[id]? = some core → ∀ slot ∈ shared,
      (work ⟨core, m.world⟩).2.world.devices.pendingAt slot = 0) :
    Clear shared (onMember id work m) := by
  unfold Core.onMember
  cases member : m.core[id]? with
  | none => exact clear
  | some core => exact each core member

theorem Clear.apply (clear : Clear shared m) (shares : Shares slots rates m) {call : Call}
    (spares : ¬call.FaultsAt slots shared m) : Clear shared (call.apply m) := by
  cases call with
  | advance id remaining =>
    refine clear.onMember fun core member slot here => ?_
    have before := clear slot here
    cases latched : core.exec.latchedFault? with
    | some fault =>
      -- a core that has stopped before touches nothing
      rw [advance_latched (m := ⟨core, m.world⟩) (ExecState.eq_faultLatched latched) remaining]
      exact before
    | none =>
      have billed := shares.billed member remaining
      cases answer : (advance remaining ⟨core, m.world⟩).1 with
      | ok step =>
        rw [answer] at billed
        exact Nat.eq_zero_of_le_zero ((billed.settles slot).trans_eq before)
      | error fault =>
        rw [answer] at billed
        -- a core that stops leaves its costs at its own seats
        have elsewhere : slot ∉ ((slots id).seating core.wiring).seats := fun seated =>
          spares ⟨core, fault, member, latched, answer, slot, here, seated⟩
        refine (billed.pending slot).trans ?_
        rw [Meter.owed_other (Slots.core_seating _ _) _ elsewhere, before]
        rfl
  | reset id =>
    refine clear.onMember fun core member slot here => ?_
    exact Nat.eq_zero_of_le_zero (((shares.reset_settled member).settles slot).trans_eq
      (clear slot here))

theorem Clear.applyAll {calls : List Call} (clear : Clear shared m)
    (shares : Shares slots rates m) (undisturbed : Undisturbed slots shared calls m) :
    Clear shared (Call.applyAll calls m) := by
  induction calls generalizing m with
  | nil => exact clear
  | cons call calls ih =>
    obtain ⟨spares, rest⟩ := undisturbed
    exact ih (clear.apply shares spares) (shares.apply call) rest

/-! ## §4 Charges -/

/-- Wait states that some bus cycles of a core cost on a board. -/
def ownWaits (board : Board δ) (seating : Seating) (bus : List BusCycle) : Nat :=
  (Board.meter board.rates : Meter (Board δ)).own seating bus

/-- Cores on a board, after any calls: an instruction and an interrupt entry take their cost in
the table, the wait states of the bus cycles that they made themselves, and those that were left
in the slots of the core. If the slots were clear to begin with, nothing is left there unless a
core that uses one of them has stopped with a fault. -/
theorem actions_pay_for_their_accesses
    (boarded : ∀ id core, m.core[id]? = some core → OnBoard (slots id) core.wiring)
    (calls : List Call) :
    let m₁ := Call.applyAll calls m
    ∀ id core, m₁.core[id]? = some core → ∀ remaining step m₂,
      advance remaining ⟨core, m₁.world⟩ = (.ok step, m₂) →
        let seating := (slots id).seating core.wiring
        let own := ownWaits m.world.devices seating m₂.core.status.bus
        let left := ∑ slot ∈ seating.seats, m₁.world.devices.pendingAt slot
        core.bill.Covers m₂.core.status.bus (min (left + own) waitMax) step ∧
          (Clear seating.seats m → Undisturbed slots seating.seats calls m → own ≤ waitMax →
            core.bill.Covers m₂.core.status.bus own step) := by
  intro m₁ id core member remaining step m₂ acts seating own left
  have begun : Shares slots m.world.devices.rates m := ⟨rfl, boarded⟩
  have billed := (begun.applyAll calls).billed member remaining
  rw [acts] at billed
  refine ⟨billed.covers, fun clear undisturbed range => ?_⟩
  -- nobody has left anything at the seats of this core
  have nothing : left = 0 := Finset.sum_eq_zero (clear.applyAll begun undisturbed)
  have covers : core.bill.Covers m₂.core.status.bus (min (left + own) waitMax) step :=
    billed.covers
  rw [nothing, Nat.zero_add, Nat.min_eq_left range] at covers
  exact covers

/-- A core of each family over one map, both of which pay for the byte that they fetch. -/
theorem actions_pay_for_their_accesses_shared :
    let map : AddressMap Unit :=
      { config := ⟨"program", 16, 8, .little⟩, regions := [⟨0, 3, 3, .ram #[0, 0, 0, 0]⟩] }
    let w₀ : Sm83.Wiring (Board Unit) :=
      { config := {}, program := Board.space map.config 0, number := 0 }
    let w₁ : Ucom4.Wiring (Board Unit) :=
      { config := { part := .upd553 }, program := Board.space map.config 0
        data := Board.space map.config 1, io := Board.space map.config 2, number := 1 }
    let m : Ensemble Unit := ⟨[.sm83 w₀ {}, .ucom4 w₁ {}],
      ⟨{ maps := [map], devices := () }, { latches := [.released 6, .released 2] }, {}⟩⟩
    let m₁ := Call.applyAll [.advance 0 4, .reset 0] m
    let core : Core (Board Unit) := .ucom4 w₁ {}
    let after := advance 1 ⟨core, m₁.world⟩
    after.1 = .ok (.retired 0 (1 + 3)) ∧
      core.bill.Covers after.2.core.status.bus
        (ownWaits m.world.devices (Slots.seating ⟨0, 1, 2⟩ core.wiring) after.2.core.status.bus)
        (.retired 0 (1 + 3)) := by
  intro map w₀ w₁ m m₁ core after
  let slots (id : Nat) : Slots := if id = 0 then ⟨0, 0, 0⟩ else ⟨0, 1, 2⟩
  have boarded : ∀ id core, m.core[id]? = some core → OnBoard (slots id) core.wiring := by
    intro id core member
    match id, member with
    | 0, member =>
      obtain rfl := Option.some.inj member
      exact ⟨⟨_, rfl⟩, fun _ _ _ => rfl⟩
    | 1, member =>
      obtain rfl := Option.some.inj member
      exact ⟨⟨⟨_, rfl⟩, ⟨_, rfl⟩, ⟨_, rfl⟩⟩, fun _ _ _ => rfl⟩
  have undisturbed (shared : Finset Nat) :
      Undisturbed slots shared [.advance 0 4, .reset 0] m := by
    refine ⟨Call.spares_of_isOk rfl ?_, id, trivial⟩
    show (advance 4 ⟨.sm83 w₀ {}, m.world⟩).1.isOk = true
    decide +kernel
  have clear (shared : Finset Nat) : Clear shared m := by
    intro slot _
    cases slot <;> rfl
  have acts : after.1 = .ok (.retired 0 (1 + 3)) := by decide +kernel
  have member : m₁.core[1]? = some core := rfl
  have range : ownWaits m.world.devices (Slots.seating ⟨0, 1, 2⟩ core.wiring)
    after.2.core.status.bus ≤ waitMax := by decide +kernel
  have charged := actions_pay_for_their_accesses boarded [.advance 0 4, .reset 0] 1 core member 1
    (.retired 0 (1 + 3)) after.2 (Prod.ext acts rfl)
  exact ⟨acts, charged.2 (clear _) (undisturbed _) range⟩

/-- A core that stops and is reset: its next instruction pays for the opcode that stopped it. -/
theorem fault_charged_to_successor :
    let cells : Array UInt8 := #[0xC3, 4, 0, 0, 0xD3]
    let map : AddressMap Unit :=
      { config := ⟨"program", 16, 8, .little⟩, regions := [⟨0, 4, 3, .ram cells⟩] }
    let w : Sm83.Wiring (Board Unit) :=
      { config := {}, program := Board.space map.config 0, number := 0 }
    let m : Ensemble Unit := ⟨[.sm83 w {}],
      ⟨{ maps := [map], devices := () }, { latches := [.released 6] }, {}⟩⟩
    let m₁ := Call.applyAll [.advance 0 1, .advance 0 1, .reset 0] m
    ∃ core m₂, m₁.core[0]? = some core ∧
      advance 1 ⟨core, m₁.world⟩ = (.ok (.retired 0 28), m₂) ∧
      core.bill.instruction m₂.core.status.bus +
        ownWaits m.world.devices (Slots.seating ⟨0, 0, 0⟩ core.wiring) m₂.core.status.bus = 25 := by
  exact ⟨_, _, rfl, rfl, by decide +kernel⟩

end Microboard.Core
