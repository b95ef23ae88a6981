import Microboard.Proofs.CoreClocks
import Microboard.Proofs.Ucom4.Reduced

/-!
# Rows of uCOM-4 data RAM

The upper half of the data pointer has four bits, of which a part with less RAM uses the lower ones
only. `LDI` cuts what it loads to the rows that there are. The loads and exchanges that flip bits of
the row, and the exchanges with a register in RAM, do not, so that a core can come to a row that its
part does not have.

- **§1** Rows and data pointers of a part.
- **§2** The row that an action leaves.
- **§3** Actions that leave the rows of the part.
- **§4** Histories, told with whether an action has left the rows.
-/

namespace Microboard.Ucom4

variable {σ : Type} {w : Wiring σ} {m : Machine State σ}

/-! ## §1 Rows -/

/-- A part has one, two, four or eight rows. -/
theorem Geometry.masks {g : Geometry} (valid : g.validate = .ok ()) :
    ∃ bits ≤ 3, g.rowMask.toNat + 1 = 2 ^ bits ∧ g.dataMask.toNat + 1 = 16 * 2 ^ bits ∧
      g.dataWidth = bits + 4 := by
  obtain ⟨-, ⟨least, most⟩, -⟩ := fields valid
  have widths : g.dataWidth = 4 ∨ g.dataWidth = 5 ∨ g.dataWidth = 6 ∨ g.dataWidth = 7 := by omega
  unfold rowMask dataMask
  rcases widths with width | width | width | width
  · exact ⟨0, by decide, by rw [width]; decide⟩
  · exact ⟨1, by decide, by rw [width]; decide⟩
  · exact ⟨2, by decide, by rw [width]; decide⟩
  · exact ⟨3, by decide, by rw [width]; decide⟩

theorem nibble_of_narrow {value : UInt8} (narrow : Narrow value) : nibble value = value := by
  apply UInt8.toNat_inj.mp
  unfold nibble
  rw [UInt8.toNat_and]
  show value.toNat &&& 2 ^ 4 - 1 = _
  rw [Nat.and_two_pow_sub_one_eq_mod, Nat.mod_eq_of_lt narrow]

/-- On a row of the part, flipping bits leads to another row of the part exactly if the bits are
those of a row. -/
theorem Geometry.flipped_le_iff {g : Geometry} (valid : g.validate = .ok ()) {row flip : UInt8}
    (inside : row ≤ g.rowMask) (narrow : Narrow flip) :
    nibble (row ^^^ flip) ≤ g.rowMask ↔ flip ≤ g.rowMask := by
  obtain ⟨bits, most, mask, -⟩ := masks valid
  have short : 2 ^ bits ≤ 2 ^ 4 := Nat.pow_le_pow_right (by decide) (by omega)
  have below (value : UInt8) : value ≤ g.rowMask ↔ value.toNat < 2 ^ bits := by
    rw [UInt8.le_iff_toNat_le]
    omega
  have row' := (below row).mp inside
  have whole : nibble (row ^^^ flip) = row ^^^ flip :=
    nibble_of_narrow (Narrow.xor (show row.toNat < 16 by omega) narrow)
  rw [whole, below, below, UInt8.toNat_xor]
  constructor
  · intro landed
    -- flipping the bits again leads back
    have back := Nat.xor_lt_two_pow row' landed
    rwa [← Nat.xor_assoc, Nat.xor_self, Nat.zero_xor] at back
  · exact Nat.xor_lt_two_pow row'

/-- The data pointer lies in RAM exactly if its row is one of the part. -/
theorem Registers.dataPointer_le_iff {g : Geometry} (valid : g.validate = .ok ()) {r : Registers}
    (narrow : r.Narrow) : r.dataPointer ≤ g.dataMask ↔ r.dph ≤ g.rowMask := by
  obtain ⟨bits, most, rows, cells, -⟩ := Geometry.masks valid
  have row : r.dph.toNat < 16 := narrow.dph
  have column : r.dpl.toNat < 2 ^ 4 := narrow.dpl
  have pointer : r.dataPointer.toNat = 16 * r.dph.toNat + r.dpl.toNat := by
    unfold dataPointer
    have shifted : (r.dph <<< 4).toNat = 2 ^ 4 * r.dph.toNat := by
      rw [UInt8.toNat_shiftLeft]
      show r.dph.toNat <<< 4 % 256 = _
      rw [Nat.shiftLeft_eq]
      omega
    rw [UInt8.toNat_or, shifted, ← Nat.two_pow_add_eq_or_of_lt column]
  rw [UInt8.le_iff_toNat_le, UInt8.le_iff_toNat_le]
  omega

/-! ## §2 The row that is left -/

/-- What a register in RAM holds. -/
def Wiring.ramRegister (w : Wiring σ) (register : RamRegister) (devices : σ) : UInt8 :=
  nibble (w.data.readUnit (register.address w.geometry) devices).value

/-- The row after an operation that starts on another one. -/
def Wiring.rowAfter (w : Wiring σ) (argument row : UInt8) (devices : σ) : Op → UInt8
  | .ldz _ => 0
  | .ldi => argument >>> 4 &&& w.geometry.rowMask
  | .lm flip | .xm flip | .xmi flip | .xmd flip => nibble (row ^^^ flip)
  | .xhr => w.ramRegister .r devices
  | .xhx => w.ramRegister .x devices
  | _ => row

theorem perform_dph (w : Wiring σ) (argument : UInt8) (operation : Op) (m : Machine State σ) :
    (perform w argument operation m).2.core.regs.dph =
      w.rowAfter argument m.core.regs.dph m.world.devices operation := by
  have spared (guarded : operation.isGuarded = true) :
      (perform w argument operation m).2.core.regs.dph = m.core.regs.dph := by
    obtain ⟨_, _, _, _, core⟩ := perform_guarded w argument guarded m
    rw [core]
  cases operation with
  | reb | seb | rpb | spb | oe | op | ocd | tpa | tpb | ia | ip | ci | cli => exact spared rfl
  | stm => exact congrArg (·.regs.dph) (checkArgument_core w "STM" argument 0xC0 0x80 _)
  | _ => rfl

/-- The row of a core that executes an instruction is the one to which its operation leads. -/
theorem Executes.dph {bytes : List UInt8} (executes : Executes w m bytes) (remaining : Nat) :
    (advance w remaining m).2.core.regs.dph =
      w.rowAfter (bytes.getD 1 m.core.argument) m.core.regs.dph
        (w.instruction m.core.regs.pc m.world.devices).state
        (decode w.geometry.family (bytes.headD 0)).operation := by
  by_cases illegal : (decode w.geometry.family (bytes.headD 0)).operation = .illegal
  · have refused := executes.refuses illegal remaining
    have core := congrArg (fun left => left.2.1.regs.dph) refused
    rw [illegal]
    refine core.trans ?_
    unfold refusal
    cases w.config.policy <;> rfl
  · obtain ⟨lines, log, performs⟩ := executes.performs rfl illegal remaining
    obtain ⟨log', retired⟩ := retire_eq w m.core.regs.pc (bytes.headD 0)
      (decode w.geometry.family (bytes.headD 0)).cycles _
    rw [performs]
    show (retire w _ _ _ _).2.core.regs.dph = _
    rw [retired]
    refine (perform_dph w _ _ _).trans ?_
    rw [executing_eq executes.released]
    rfl

theorem reset_dph (w : Wiring σ) (m : Machine State σ) :
    (reset w m).2.core.regs.dph = m.core.regs.dph := by
  obtain ⟨bus, diagnostics, restarted⟩ := reset_core w m
  rw [restarted, Registers.cleared_eq]
  rfl

theorem sampleReset_dph (w : Wiring σ) (m : Machine State σ) :
    (sampleReset w m).2.core.regs.dph = m.core.regs.dph := by
  have restarted := reset_dph w ⟨m.core, (m.world.onLatch w.number (·.sample resetLine .level)).2⟩
  rw [sampleReset_core rfl]
  unfold State.looked
  split
  · exact restarted
  · rfl
  · rfl
  · rfl

/-- No other action moves the row. -/
theorem advance_dph_idle (other : ∀ bytes, ¬Executes w m bytes) (remaining : Nat) :
    (advance w remaining m).2.core.regs.dph = m.core.regs.dph := by
  have way := advance_way w remaining m
  generalize advance w remaining m = after at way
  cases way with
  | faulted => rfl
  | held awake active =>
    obtain ⟨timer, timerFlag, log, passed⟩ :=
      charge_passes w (idleCycles remaining) (sampleReset w (unobserved m)).2
    show (charge w _ _).2.core.regs.dph = _
    rw [passed]
    exact sampleReset_dph w (unobserved m)
  | enters awake released =>
    obtain ⟨cycles, totalCycles, diagnostics, timer, timerFlag, log, entry⟩ := enterHandler_eq w
      ⟨{ (sample w m).2.core with exec := .servicingInterrupt },
        ((sample w m).2.world.onLatch w.number fun latch => ((), latch.acknowledge
          interruptLine)).2⟩
    show (service w (sample w m).2).2.core.regs.dph = _
    rw [service_handler, entry]
    show (sample w m).2.core.regs.dph = _
    rw [sample_core released]
  | runs awake released undue =>
    obtain ⟨lines, log, runs⟩ := runInstruction_sample released
    -- an instruction that is run and not executed is one that is skipped
    have skips : m.core.skip = true := by
      rw [← Bool.not_eq_false]
      exact fun runs => other _ ⟨⟨released, undue, rfl⟩, awake, runs⟩
    have skips' (bytes : List UInt8) : (State.executing w m bytes).skip = true := by
      rw [executing_eq released]
      exact skips
    rw [runs]
    unfold runFetched
    rw [eval_ite, if_pos (skips' _)]
    obtain ⟨log', dropped⟩ := runSkipped_eq w m.core.regs.pc _ _ _
    show (runSkipped w _ _ _ _).2.core.regs.dph = _
    rw [dropped, executing_eq released]
    rfl

/-! ## §3 Leaving the rows -/

/-- Bits of the row that the operation flips. -/
def Op.flip? : Op → Option UInt8
  | .lm flip | .xm flip | .xmi flip | .xmd flip => some flip
  | _ => none

theorem decodeFull_flip : ∀ opcode < 256,
    (decodeFull (UInt8.ofNat opcode)).flip?.all (· ≤ 3) = true := by
  decide +kernel

/-- Opcodes flip the two lower bits of the row only. -/
theorem flip_le {family : Family} {opcode flip : UInt8}
    (flips : (decode family opcode).operation.flip? = some flip) : flip ≤ 3 := by
  have full := decodeFull_flip opcode.toNat opcode.toNat_lt
  rw [UInt8.ofNat_toNat] at full
  replace flips : (decodeOp family opcode).flip? = some flip := flips
  unfold decodeOp at flips
  dsimp only at flips
  split at flips
  · cases flips
  · rw [flips] at full
    exact of_decide_eq_true full

/-- Whether the operation goes from a row of the part to one that the part does not have: it flips
bits of the row, or takes the row from RAM, and the bits are more than those of a row. -/
def Wiring.leaves (w : Wiring σ) (devices : σ) : Op → Bool
  | .lm flip | .xm flip | .xmi flip | .xmd flip => w.geometry.rowMask < flip
  | .xhr => w.geometry.rowMask < w.ramRegister .r devices
  | .xhx => w.geometry.rowMask < w.ramRegister .x devices
  | _ => false

theorem Wiring.rowAfter_le_iff (valid : w.geometry.validate = .ok ()) {row : UInt8}
    (inside : row ≤ w.geometry.rowMask) {operation : Op}
    (narrow : ∀ flip, operation.flip? = some flip → flip ≤ 3) (argument : UInt8) (devices : σ) :
    w.rowAfter argument row devices operation ≤ w.geometry.rowMask ↔
      w.leaves devices operation = false := by
  -- rows that are taken from RAM are compared as they are, flipped ones by the bits that flip
  have beyond (value : UInt8) :
      value ≤ w.geometry.rowMask ↔ decide (w.geometry.rowMask < value) = false := by
    rw [decide_eq_false_iff_not, UInt8.not_lt]
  cases operation with
  | ldz => exact iff_of_true (UInt8.le_iff_toNat_le.mpr (Nat.zero_le _)) rfl
  | ldi =>
    refine iff_of_true (UInt8.le_iff_toNat_le.mpr ?_) rfl
    show (argument >>> 4 &&& w.geometry.rowMask).toNat ≤ _
    rw [UInt8.toNat_and]
    exact Nat.and_le_right
  | lm flip | xm flip | xmi flip | xmd flip =>
    have small : flip.toNat ≤ 3 := UInt8.le_iff_toNat_le.mp (narrow flip rfl)
    exact (Geometry.flipped_le_iff valid inside (show flip.toNat < 16 by omega)).trans (beyond flip)
  | xhr => exact beyond _
  | xhx => exact beyond _
  | _ => exact iff_of_true inside rfl

/-- Whether the next action executes an operation that leaves the rows of the part. -/
def strays (w : Wiring σ) (m : Machine State σ) : Bool :=
  let fetch := w.instruction m.core.regs.pc m.world.devices
  decide (Executes w m fetch.value) &&
    w.leaves fetch.state (decode w.geometry.family (fetch.value.headD 0)).operation

/-- A core on a row of its part is on one after its next action exactly if the action does not leave
the rows. -/
theorem advance_row_iff (valid : w.geometry.validate = .ok ())
    (inside : m.core.regs.dph ≤ w.geometry.rowMask) (remaining : Nat) :
    (advance w remaining m).2.core.regs.dph ≤ w.geometry.rowMask ↔ strays w m = false := by
  unfold strays
  dsimp only
  by_cases executes : Executes w m (w.instruction m.core.regs.pc m.world.devices).value
  · rw [executes.dph, decide_eq_true executes, Bool.true_and]
    exact Wiring.rowAfter_le_iff valid inside (fun flip flips => flip_le flips) _ _
  · have other (bytes : List UInt8) : ¬Executes w m bytes := by
      intro executes'
      exact executes (executes'.fetched ▸ executes')
    rw [advance_dph_idle other, decide_eq_false executes, Bool.false_and]
    exact iff_of_true inside rfl

/-- A part of the reduced family has no exchange with a register in RAM, and flips two bits only. -/
theorem strays_reduced (valid : w.geometry.validate = .ok ())
    (family : w.geometry.family = .ucom44) (rows : 6 ≤ w.geometry.dataWidth) :
    strays w m = false := by
  obtain ⟨bits, -, mask, -, width⟩ := Geometry.masks valid
  have four : 2 ^ 2 ≤ 2 ^ bits := Nat.pow_le_pow_right (by decide) (by omega)
  have plain := isExtension_reduced ((w.instruction m.core.regs.pc m.world.devices).value.headD 0)
  have flips (flip : UInt8) := @flip_le .ucom44
    ((w.instruction m.core.regs.pc m.world.devices).value.headD 0) flip
  unfold strays
  dsimp only
  rw [family, Bool.and_eq_false_iff]
  refine .inr ?_
  revert plain flips
  generalize (decode .ucom44 _).operation = operation
  intro plain flips
  cases operation with
  | lm flip | xm flip | xmi flip | xmd flip =>
    have small : flip.toNat ≤ 3 := UInt8.le_iff_toNat_le.mp (flips flip rfl)
    have within : flip ≤ w.geometry.rowMask := UInt8.le_iff_toNat_le.mpr (by omega)
    exact decide_eq_false (UInt8.not_lt.mpr within)
  | xhr | xhx => cases plain
  | _ => rfl

/-! ## §4 Histories -/

/-- States of a uCOM-4 core in the hands of its host that has not left the rows of its part so far.
It is built, gets its sink attached, is reset and advanced in whatever world surrounds it, and its
host takes note of the levels that it has driven. -/
inductive Steered : Wiring σ → State → Prop where
  | built {config : Config} {program data io : Space σ} {world world' : World σ} {w : Wiring σ}
      {s : State} : build config program data io world = .ok ((w, s), world') → Steered w s
  | attached {w : Wiring σ} {s : State} (sink : Sink σ) :
      Steered w s → Steered { w with sink } s
  | reset {w : Wiring σ} {s : State} (world : World σ) :
      Steered w s → Steered w (reset w ⟨s, world⟩).2.core
  | advanced {w : Wiring σ} {s : State} (remaining : Nat) (world : World σ) : Steered w s →
      strays w ⟨s, world⟩ = false → Steered w (advance w remaining ⟨s, world⟩).2.core
  | noted {w : Wiring σ} {s : State} : Steered w s → Steered w { s with outputs := #[] }

namespace Steered

theorem hosted {s : State} (steered : Steered w s) : Hosted w s := by
  induction steered with
  | built built => exact .built built
  | attached sink _ ih => exact .attached sink ih
  | @reset w s world _ ih => exact @Hosted.operated _ w s _ .reset world _ ih rfl
  | advanced remaining world _ _ ih => exact ih.advance remaining world
  | noted _ ih => exact .noted ih

theorem valid {s : State} (steered : Steered w s) : w.geometry.validate = .ok () :=
  steered.hosted.reachable.valid

/-- It is on a row of its part. -/
theorem inside {s : State} (steered : Steered w s) : s.regs.dph ≤ w.geometry.rowMask := by
  have start (w : Wiring σ) : (0 : UInt8) ≤ w.geometry.rowMask :=
    UInt8.le_iff_toNat_le.mpr (Nat.zero_le _)
  induction steered with
  | @built _ _ _ _ before _ w _ built =>
    obtain ⟨-, rfl⟩ := build_reset built
    rw [reset_dph]
    exact start w
  | attached _ _ ih => exact ih
  | reset world _ ih =>
    rw [reset_dph]
    exact ih
  | @advanced w s remaining world steered stays ih =>
    exact (advance_row_iff (m := ⟨s, world⟩) steered.valid ih remaining).mpr stays
  | noted _ ih => exact ih

/-- A run goes on with such a history, if none of the actions that it comes to leaves the rows. -/
theorem run {s : State} (steered : Steered w s) (budget : Nat) (world : World σ)
    (stay : ∀ steps left s' world', Core.Passes (min budget counterMax) ⟨.ucom4 w s, world⟩ steps
      left ⟨.ucom4 w s', world'⟩ → 0 < left → strays w ⟨s', world'⟩ = false) :
    ∃ s', (Core.run budget ⟨.ucom4 w s, world⟩).2.core = .ucom4 w s' ∧ Steered w s' := by
  refine Core.run_along (P := fun m => ∃ s', m.core = .ucom4 w s' ∧ Steered w s') ?_
    ⟨s, rfl, steered⟩
  rintro steps left ⟨_, world'⟩ passes pos ⟨s', rfl, steered'⟩
  exact ⟨_, rfl, .advanced left world' steered' (stay steps left s' world' passes pos)⟩

end Steered

/-- A uCOM-4 core has its data pointer inside the RAM of its part until an action leaves the rows,
and the first one that does takes it out. Such an action executes a load or an exchange that flips
more bits of the row than the part has, or an exchange of the row with a register in RAM that holds
more. Parts of the reduced family with four rows or more have none of these. A run stays inside as
long as the actions that it comes to do. -/
theorem row_inside_until_stray {s : State} (steered : Steered w s) :
    (s.regs.dph ≤ w.geometry.rowMask ∧ s.regs.dataPointer ≤ w.geometry.dataMask) ∧
      ∀ world, (∀ remaining,
          let after := (advance w remaining ⟨s, world⟩).2.core.regs
          (after.dph ≤ w.geometry.rowMask ↔ strays w ⟨s, world⟩ = false) ∧
            (after.dataPointer ≤ w.geometry.dataMask ↔ strays w ⟨s, world⟩ = false)) ∧
        (w.geometry.family = .ucom44 → 6 ≤ w.geometry.dataWidth →
          strays w ⟨s, world⟩ = false) ∧
        ∀ budget, (∀ steps left s' world', Core.Passes (min budget counterMax) ⟨.ucom4 w s, world⟩
            steps left ⟨.ucom4 w s', world'⟩ → 0 < left → strays w ⟨s', world'⟩ = false) →
          ∃ s', (Core.run budget ⟨.ucom4 w s, world⟩).2.core = .ucom4 w s' ∧ Steered w s' := by
  have valid := steered.valid
  have inside := steered.inside
  have pointer {s : State} (hosted : Hosted w s) :=
    Registers.dataPointer_le_iff valid hosted.fits.sound.regs
  refine ⟨⟨inside, (pointer steered.hosted).mpr inside⟩, fun world => ⟨fun remaining => ?_, ?_,
    fun budget => steered.run budget world⟩⟩
  · have row := advance_row_iff (m := ⟨s, world⟩) valid inside remaining
    exact ⟨row, (pointer (steered.hosted.advance remaining world)).trans row⟩
  · exact strays_reduced valid

/-- A part whose RAM holds thirteen everywhere is built and takes its row from there: it comes to a
row that it does not have. -/
theorem row_inside_until_stray_exchange :
    let w : Wiring UInt8 := .cell id (fun _ devices => devices) 0
    let s := (reset w ⟨{}, ⟨0x4D, {}, {}⟩⟩).2.core
    let found : World UInt8 := ⟨0x4D, { latches := [.released 2] }, {}⟩
    let after := (advance w 1 ⟨s, found⟩).2.core.regs
    (Steered w s ∧ s.regs.dph ≤ w.geometry.rowMask) ∧ strays w ⟨s, found⟩ = true ∧
      ¬after.dph ≤ w.geometry.rowMask ∧ ¬after.dataPointer ≤ w.geometry.dataMask := by
  intro w s found after
  obtain ⟨_, made⟩ : ∃ world', build w.config w.program w.data w.io ⟨0x4D, {}, {}⟩ =
      .ok ((w, s), world') := ⟨_, rfl⟩
  obtain ⟨⟨row, -⟩, next⟩ := row_inside_until_stray (.built made)
  obtain ⟨row', pointer⟩ := (next found).1 1
  have stray : strays w ⟨s, found⟩ = true := by decide +kernel
  refine ⟨⟨.built made, row⟩, stray, fun inside => ?_, fun inside => ?_⟩
  · exact nomatch stray.symm.trans (row'.mp inside)
  · exact nomatch stray.symm.trans (pointer.mp inside)

/-- Rows are not kept inside the part: a core that has just been built executes `XHR` and is on row
thirteen, where its part has eight. -/
theorem exchange_leaves_rows :
    let w : Wiring UInt8 := .cell id (fun _ devices => devices) 0
    ∃ s world, build w.config w.program w.data w.io ⟨0x4D, {}, {}⟩ = .ok ((w, s), world) ∧
      decode w.geometry.family 0x4D = ⟨.xhr, 1, 1⟩ ∧ w.geometry.rowMask = 7 ∧
      (advance w 1 ⟨s, world⟩).1 = .ok (.retired 0 1) ∧
      (advance w 1 ⟨s, world⟩).2.core.regs.dph = 13 ∧
      (advance w 1 ⟨s, world⟩).2.core.regs.dataPointer = 0xD0 ∧ w.geometry.dataMask = 0x7F := by
  refine ⟨_, _, rfl, ?_⟩
  decide +kernel

end Microboard.Ucom4
