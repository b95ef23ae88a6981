import Microboard.Proofs.Ucom4.Boundary
import Microboard.Ucom4.Export

/-!
# Restoring uCOM-4 cores

- **§1** Writing an exported value keeps a state sound.
- **§2** One exported value carried from a state over to another.
- **§3** All of them, in the order of the export.

Every entry is a mere change of the state. Writing the program counter also ends a skip, so the
skip is written last. A return address is cut to the width of the program counter, and the values
that the I/O ports are driven with have no entry.
-/

namespace Microboard.Ucom4

/-! ## §1 Writing -/

section Addresses

variable {g : Geometry} {entry : StateEntry}

theorem truncate_address (valid : g.validate = .ok ()) (width : entry.bits = g.programWidth)
    (value : Nat) : entry.truncate value = value % 2 ^ g.programWidth := by
  obtain ⟨⟨-, most⟩, -⟩ := Geometry.ranges valid
  have bits : entry.width = g.programWidth := by
    unfold StateEntry.width
    omega
  unfold StateEntry.truncate
  rw [bits, Nat.shiftLeft_eq, Nat.one_mul]

theorem toNat_truncated (valid : g.validate = .ok ()) (width : entry.bits = g.programWidth)
    (value : Nat) :
    (UInt16.ofNat (entry.truncate value)).toNat = value % 2 ^ g.programWidth := by
  obtain ⟨⟨-, most⟩, -⟩ := Geometry.ranges valid
  have wide : 2 ^ g.programWidth ≤ 2 ^ 11 := Nat.pow_le_pow_right (by decide) most
  have range : value % 2 ^ g.programWidth < 2 ^ g.programWidth :=
    Nat.mod_lt _ (Nat.two_pow_pos g.programWidth)
  rw [truncate_address valid width, UInt16.toNat_ofNat', Nat.mod_eq_of_lt (by omega)]

/-- An entry shows the bits of an address that the program counter has. -/
theorem truncate_toNat (valid : g.validate = .ok ()) (width : entry.bits = g.programWidth)
    (value : UInt16) : entry.truncate value.toNat = (value &&& g.programMask).toNat := by
  rw [truncate_address valid width, Geometry.toNat_masked valid]

/-- A value of the width of the program counter is an address in the program space. -/
theorem reaches_truncated (width : entry.bits = g.programWidth) (value : Nat) :
    g.Reaches (UInt16.ofNat (entry.truncate value)) := by
  intro valid
  apply UInt16.toNat_inj.mp
  rw [Geometry.toNat_masked valid, toNat_truncated valid width, Nat.mod_mod]

/-- An address that is shown and written again is cut to the width of the program counter. -/
theorem address_truncated (valid : g.validate = .ok ()) (width : entry.bits = g.programWidth)
    (value : UInt16) :
    UInt16.ofNat (entry.truncate (entry.truncate value.toNat)) = value &&& g.programMask := by
  apply UInt16.toNat_inj.mp
  rw [entry.truncate_truncate, toNat_truncated valid width, Geometry.toNat_masked valid]

end Addresses

/-- No write makes a register or the timer wider than it is. -/
theorem Export.write_sound {g : Geometry} (item : Export) (value : Nat) {s : State}
    (sound : s.Sound g) : (item.write g value s).Sound g := by
  obtain ⟨⟨acc, dpl, dph⟩, pc, lastPc, timer⟩ := sound
  cases item with
  | pc | currentPc =>
    exact ⟨⟨acc, dpl, dph⟩, reaches_truncated (by rfl) value, lastPc, timer⟩
  | dpl => exact ⟨⟨acc, narrow_nibble _, dph⟩, pc, lastPc, timer⟩
  | dph => exact ⟨⟨acc, dpl, narrow_nibble _⟩, pc, lastPc, timer⟩
  | acc => exact ⟨⟨narrow_nibble _, dpl, dph⟩, pc, lastPc, timer⟩
  | carry | carrySave | timerFlag | intFlag | intEnable | stack | flags | opcode | skip =>
    exact ⟨⟨acc, dpl, dph⟩, pc, lastPc, timer⟩
  | lastPc => exact ⟨⟨acc, dpl, dph⟩, pc, reaches_truncated (by rfl) value, timer⟩
  | timer =>
    refine ⟨⟨acc, dpl, dph⟩, pc, lastPc, fun left runs => ?_⟩
    have range : (Export.timer.entry g).truncate value < 4096 := StateEntry.truncate_lt _ _
    unfold write writeFitting at runs
    dsimp only at runs
    split at runs
    · cases runs
    · obtain rfl := Option.some.inj runs
      omega

/-! ## §2 One value -/

/-- A core that waits at an instruction boundary outside reset. -/
structure State.Resting (s : State) : Prop where
  exec : s.exec = .fetching
  released : s.inReset = false

theorem nibble_truncated {entry : StateEntry} (width : entry.width = 4) {value : UInt8}
    (narrow : Narrow value) :
    nibble (UInt8.ofNat (entry.truncate (entry.truncate value.toNat))) = value := by
  have range : value.toNat < 1 <<< entry.width := by
    rw [width]
    exact narrow
  rw [entry.truncate_truncate, StateEntry.truncate_eq range, UInt8.ofNat_toNat]
  apply UInt8.toNat_inj.mp
  unfold nibble
  rw [UInt8.toNat_and]
  exact (Nat.and_two_pow_sub_one_eq_mod value.toNat 4).trans (Nat.mod_eq_of_lt narrow)

theorem Registers.packedFlags_lt (r : Registers) : r.packedFlags.toNat < 32 := by
  unfold packedFlags packedFlagLayout
  simp only [List.foldl_cons, List.foldl_nil]
  cases r.intEnable <;> cases r.intFlag <;> cases r.timerFlag <;> cases r.carrySave <;>
    cases r.carry <;> decide

/-- Packing the flags and unpacking them again. -/
theorem Registers.setPackedFlags_packedFlags (r r' : Registers) :
    r'.setPackedFlags (UInt8.ofNat r.packedFlags.toNat) =
      { r' with
        intEnable := r.intEnable
        intFlag := r.intFlag
        timerFlag := r.timerFlag
        carrySave := r.carrySave
        carry := r.carry } := by
  rw [UInt8.ofNat_toNat]
  unfold setPackedFlags packedFlags packedFlagLayout
  simp only [List.foldl_cons, List.foldl_nil]
  cases r.intEnable <;> cases r.intFlag <;> cases r.timerFlag <;> cases r.carrySave <;>
    cases r.carry <;> rfl

namespace Export

/-- Carries the value of an entry from one state over to another. -/
def copy (g : Geometry) (s : State) (item : Export) (t : State) : State :=
  match item with
  | .pc | .currentPc => { t with regs := { t.regs with pc := s.regs.pc }, skip := false }
  | .dpl => { t with regs := { t.regs with dpl := s.regs.dpl } }
  | .dph => { t with regs := { t.regs with dph := s.regs.dph } }
  | .acc => { t with regs := { t.regs with acc := s.regs.acc } }
  | .carry => { t with regs := { t.regs with carry := s.regs.carry } }
  | .carrySave => { t with regs := { t.regs with carrySave := s.regs.carrySave } }
  | .timerFlag => { t with regs := { t.regs with timerFlag := s.regs.timerFlag } }
  | .intFlag => { t with regs := { t.regs with intFlag := s.regs.intFlag } }
  | .intEnable => { t with regs := { t.regs with intEnable := s.regs.intEnable } }
  | .stack level =>
    { t with regs := { t.regs with
        stack := t.regs.stack.setSlot level (s.regs.stack.slot level &&& g.programMask) } }
  | .lastPc => { t with lastPc := s.lastPc }
  | .flags =>
    { t with regs := { t.regs with
        intEnable := s.regs.intEnable
        intFlag := s.regs.intFlag
        timerFlag := s.regs.timerFlag
        carrySave := s.regs.carrySave
        carry := s.regs.carry } }
  | .timer => { t with timer := s.timer }
  | .opcode => { t with opcode := s.opcode }
  | .skip => { t with skip := s.skip }

variable {g : Geometry}

/-- Writing what another state shows carries the value over. -/
theorem write_read (valid : g.validate = .ok ()) {s : State} (sound : s.Sound g) (item : Export)
    (t : State) : item.write g (item.read g s) t = item.copy g s t := by
  cases item with
  | pc | currentPc =>
    simp only [write, writeFitting, read, raw, copy]
    rw [address_truncated valid (by rfl), sound.pc valid]
  | lastPc =>
    simp only [write, writeFitting, read, raw, copy]
    rw [address_truncated valid (by rfl), sound.lastPc valid]
  | stack level =>
    simp only [write, writeFitting, read, raw, copy]
    rw [address_truncated valid (by rfl)]
  | dpl =>
    simp only [write, writeFitting, read, raw, copy, Registers.setDpl]
    rw [nibble_truncated rfl sound.regs.dpl]
  | dph =>
    simp only [write, writeFitting, read, raw, copy, Registers.setDph]
    rw [nibble_truncated rfl sound.regs.dph]
  | acc =>
    simp only [write, writeFitting, read, raw, copy, Registers.setAcc]
    rw [nibble_truncated rfl sound.regs.acc]
  | carry | carrySave | timerFlag | intFlag | intEnable | skip =>
    simp only [write, writeFitting, read, raw, copy]
    rw [StateEntry.bit_truncated rfl]
  | flags =>
    have fits : s.regs.packedFlags.toNat < 1 <<< (Export.flags.entry g).width :=
      s.regs.packedFlags_lt
    simp only [write, writeFitting, read, raw, copy]
    rw [StateEntry.truncate_truncate, StateEntry.truncate_eq fits,
      Registers.setPackedFlags_packedFlags]
  | timer =>
    have left : (Export.timer.entry g).truncate ((Export.timer.entry g).truncate
        (s.timer.getD 0)) = s.timer.getD 0 := by
      have fits : s.timer.getD 0 < 1 <<< (Export.timer.entry g).width := by
        cases runs : s.timer with
        | none => exact Nat.two_pow_pos 12
        | some left => exact (sound.timer left runs).2
      rw [StateEntry.truncate_truncate, StateEntry.truncate_eq fits]
    -- a timer that runs has cycles left, so zero stands for none
    have shown : (if s.timer.getD 0 = 0 then none else some (s.timer.getD 0)) = s.timer := by
      cases runs : s.timer with
      | none => rfl
      | some left => exact if_neg (Nat.ne_of_gt (sound.timer left runs).1)
    simp only [write, writeFitting, read, raw, copy, left, shown]
  | opcode =>
    simp only [write, writeFitting, read, raw, copy]
    rw [StateEntry.byte_truncated rfl]

end Export

/-! ## §3 All values -/

/-- Writes the values that another state shows for some entries, in order. -/
def writeAll (g : Geometry) (s : State) (items : List Export) (t : State) : State :=
  items.foldl (fun t item => item.write g (item.read g s) t) t

namespace CallStack

theorem slot_setSlot (stack : CallStack) {level : Nat} (exists_ : level < maxStackLevels)
    (address : UInt16) (other : Nat) :
    (stack.setSlot level address).slot other =
      if other = level then address else stack.slot other := by
  unfold slot setSlot
  rw [List.getD_eq_getElem?_getD, List.getElem?_set, stack.length_slots, if_pos exists_]
  by_cases same : level = other
  · rw [if_pos same, if_pos same.symm]
    rfl
  · rw [if_neg same, if_neg (Ne.symm same), List.getD_eq_getElem?_getD]

/-- The stack with return addresses of another one written to some slots. -/
def copied (stack : CallStack) (g : Geometry) (source : CallStack) (levels : List (Fin 3)) :
    CallStack :=
  levels.foldl
    (fun stack (level : Fin 3) => stack.setSlot level (source.slot level &&& g.programMask)) stack

/-- A slot that is not written keeps its address. -/
theorem slot_kept (g : Geometry) (source : CallStack) {levels : List (Fin 3)} (stack : CallStack)
    {level : Fin 3} (absent : level ∉ levels) :
    (stack.copied g source levels).slot level = stack.slot level := by
  induction levels generalizing stack with
  | nil => rfl
  | cons first rest ih =>
    obtain ⟨other, absent⟩ := not_or.mp (mt List.mem_cons.mpr absent)
    have apart : level.val ≠ first.val := fun same => other (Fin.ext same)
    show ((stack.setSlot first (source.slot first &&& g.programMask)).copied g source rest).slot
      level = _
    rw [ih _ absent, slot_setSlot _ first.isLt, if_neg apart]

theorem slot_copied (g : Geometry) (source : CallStack) {levels : List (Fin 3)}
    (stack : CallStack) {level : Fin 3} (written : level ∈ levels) :
    (stack.copied g source levels).slot level = source.slot level &&& g.programMask := by
  induction levels generalizing stack with
  | nil => cases written
  | cons first rest ih =>
    show ((stack.setSlot first (source.slot first &&& g.programMask)).copied g source rest).slot
      level = _
    by_cases later : level ∈ rest
    · exact ih _ later
    · obtain rfl : level = first := (List.mem_cons.mp written).resolve_right later
      rw [slot_kept g source _ later, slot_setSlot _ level.isLt, if_pos rfl]

end CallStack

/-- Levels of the call stack that a part exports. -/
def Geometry.exportedLevels (g : Geometry) : List (Fin 3) :=
  (List.finRange 3).take g.stackLevels

theorem Export.all_eq (g : Geometry) : all g =
    [.pc, .dpl, .dph, .acc, .carry, .carrySave, .timerFlag, .intFlag, .intEnable] ++
      g.exportedLevels.map .stack ++ [.currentPc, .lastPc, .flags, .timer, .opcode, .skip] := rfl

/-- A part exports the levels that it uses. -/
theorem Geometry.mem_exportedLevels {g : Geometry} (valid : g.validate = .ok ()) (level : Fin 3) :
    level ∈ g.exportedLevels ↔ level.val < CallStack.used g.stackLevels := by
  obtain ⟨-, least, most⟩ := ranges valid
  unfold exportedLevels
  have cases_ : g.stackLevels = 1 ∨ g.stackLevels = 2 ∨ g.stackLevels = 3 := by omega
  rcases cases_ with levels | levels | levels <;> rw [levels] <;> revert level <;> decide

/-- What a part returns to once the exported addresses are written. -/
theorem CallStack.agrees_copied {g : Geometry} (valid : g.validate = .ok ())
    (source stack : CallStack) : source.Agrees g (stack.copied g source g.exportedLevels) := by
  intro level below
  have three : level < 3 := Nat.lt_of_lt_of_le below (used_le _)
  have exported := (Geometry.mem_exportedLevels valid ⟨level, three⟩).mpr below
  have slot := slot_copied g source stack exported
  show source.slot level &&& g.programMask = _
  rw [slot, UInt16.and_assoc, UInt16.and_self]

/-- The state once all values are written. -/
def State.copied (g : Geometry) (s t : State) : State :=
  { t with
    regs := { s.regs with
      stack := t.regs.stack.copied g s.regs.stack g.exportedLevels
      portOut := t.regs.portOut }
    lastPc := s.lastPc
    timer := s.timer
    opcode := s.opcode
    skip := s.skip }

theorem copy_stack (g : Geometry) (s : State) (levels : List (Fin 3)) (t : State) :
    (levels.map .stack).foldl (fun t item => Export.copy g s item t) t =
      { t with regs := { t.regs with stack := t.regs.stack.copied g s.regs.stack levels } } := by
  induction levels generalizing t with
  | nil => rfl
  | cons level levels ih =>
    rw [List.map_cons, List.foldl_cons, ih]
    rfl

/-- Writing all values is copying all that is exported. -/
theorem writeAll_eq {g : Geometry} (valid : g.validate = .ok ()) {s : State} (sound : s.Sound g)
    (t : State) : writeAll g s (Export.all g) t = s.copied g t := by
  have copies : writeAll g s (Export.all g) t =
      (Export.all g).foldl (fun t item => item.copy g s t) t := by
    unfold writeAll
    congr 1
    funext t item
    exact Export.write_read valid sound item t
  rw [copies, Export.all_eq, List.foldl_append, List.foldl_append, copy_stack]
  simp only [List.foldl_cons, List.foldl_nil, Export.copy, State.copied]

/-- A resting core to which all values have been written is near the core that they were read
from, once that one drives its ports as it does itself. -/
theorem writeAll_near {g : Geometry} (valid : g.validate = .ok ()) {s t : State}
    (sound : s.Sound g) (rests : s.Resting) (rests' : t.Resting) :
    State.Near g { s with bus := t.bus, regs := { s.regs with portOut := t.regs.portOut } }
      (writeAll g s (Export.all g) t) := by
  have exec : s.exec = t.exec := rests.exec.trans rests'.exec.symm
  have released : s.inReset = t.inReset := rests.released.trans rests'.released.symm
  refine ⟨t.totalCycles, t.diagnostics, t.outputs, t.argument, _,
    CallStack.agrees_copied valid s.regs.stack t.regs.stack, ?_⟩
  rw [writeAll_eq valid sound]
  dsimp only
  rw [exec, released]
  rfl

end Microboard.Ucom4
