import Microboard.Proofs.Sm83.Boundary
import Microboard.Sm83.Export

/-!
# Restoring SM83 cores

- **§1** Writing an exported value follows.
- **§2** One exported value carried from a state over to another.
- **§3** All of them, in the order of the export.

Most entries set a register and nothing else. Writing the program counter also ends the halt bug,
and leaving or entering a halt also changes whether the core is stopped, so those two entries are
written last.
-/

namespace Microboard.Sm83

variable {σ τ : Type}

/-! ## §1 Writing -/

namespace Follows

variable {w : Wiring σ} {w' : Wiring τ} {R : Machine State σ → Machine State τ → Prop}

theorem writeHalted (follows : Follows w w' R) (value : Bool) :
    Lockstep R (Export.writeHalted w value) (Export.writeHalted w' value) :=
  follows.look fun s _ _ _ => .ite (fun _ => follows.enterHalt s.stopped) fun _ =>
    .ite (fun _ => follows.wake) fun _ => .pure ()

/-- A write of a register that keeps the registers sound. -/
theorem writeFitting (follows : Follows w w' R) (value : Nat) (item : Export) :
    Lockstep R (item.writeFitting w value) (item.writeFitting w' value) := by
  cases item with
  | pc | currentPc =>
    refine follows.modify ⟨?_, fun _ => rfl, fun _ sound => ⟨sound.f, sound.iflag⟩⟩
    intro s cycles diagnostics outputs
    exact ⟨_, _, _, rfl⟩
  | sp | stackPointer | a | b | c | d | e | h | l =>
    exact follows.modifyRegs fun _ sound => ⟨sound.f, sound.iflag⟩
  | ime | ie => exact follows.modifyRegs fun _ sound => ⟨sound.f, sound.iflag⟩
  | bc | de | hl => exact follows.modifyRegs fun _ sound => ⟨sound.f, sound.iflag⟩
  | f | flags | af =>
    exact follows.modifyRegs fun _ sound => ⟨Registers.masked_twice _ _, sound.iflag⟩
  | iflag => exact follows.modifyRegs (Registers.setIflag_sound _)
  | opcode | eiDelay | stopped | haltBug | lastPc =>
    exact follows.aside (fun _ => ⟨rfl, rfl⟩) fun _ _ _ _ => ⟨_, _, _, rfl⟩
  | halted => exact follows.writeHalted _

theorem write (follows : Follows w w' R) (item : Export) (value : Nat) :
    Lockstep R (item.write w value) (item.write w' value) :=
  follows.writeFitting _ item

end Follows

/-! ## §2 One value -/

/-- A core that waits at an instruction boundary or is halted, outside reset. -/
structure State.Resting (s : State) : Prop where
  exec : s.exec = .fetching ∨ s.exec = .halted
  released : s.inReset = false

namespace Export

/-- Carries the value of an entry from one state over to another. Halting is left out: it is no
mere change of the state. -/
def copy (s : State) (item : Export) (t : State) : State :=
  match item with
  | .pc | .currentPc => { t with regs := { t.regs with pc := s.regs.pc }, haltBug := false }
  | .sp | .stackPointer => { t with regs := { t.regs with sp := s.regs.sp } }
  | .a => { t with regs := { t.regs with a := s.regs.a } }
  | .f | .flags => { t with regs := { t.regs with f := s.regs.f } }
  | .b => { t with regs := { t.regs with b := s.regs.b } }
  | .c => { t with regs := { t.regs with c := s.regs.c } }
  | .d => { t with regs := { t.regs with d := s.regs.d } }
  | .e => { t with regs := { t.regs with e := s.regs.e } }
  | .h => { t with regs := { t.regs with h := s.regs.h } }
  | .l => { t with regs := { t.regs with l := s.regs.l } }
  | .ime => { t with regs := { t.regs with ime := s.regs.ime } }
  | .ie => { t with regs := { t.regs with ie := s.regs.ie } }
  | .iflag => { t with regs := { t.regs with iflag := s.regs.iflag } }
  | .opcode => { t with opcode := s.opcode }
  | .eiDelay => { t with eiDelay := s.eiDelay }
  | .af => { t with regs := { t.regs with a := s.regs.a, f := s.regs.f } }
  | .bc => { t with regs := { t.regs with b := s.regs.b, c := s.regs.c } }
  | .de => { t with regs := { t.regs with d := s.regs.d, e := s.regs.e } }
  | .hl => { t with regs := { t.regs with h := s.regs.h, l := s.regs.l } }
  | .halted => t
  | .stopped => { t with stopped := s.stopped }
  | .haltBug => { t with haltBug := s.haltBug }
  | .lastPc => { t with lastPc := s.lastPc }

/-- Reading `IF` sets the bits that do not exist, writing it clears them. -/
theorem shownIf_masked {regs : Registers} (sound : regs.Sound) :
    shownIf regs &&& interruptMask = regs.iflag := by
  have absent : (0xE0 : UInt8) &&& interruptMask = 0 := rfl
  have split : (regs.iflag ||| 0xE0) &&& interruptMask =
      regs.iflag &&& interruptMask ||| 0xE0 &&& interruptMask := by
    apply UInt8.toBitVec_inj.mp
    simp only [UInt8.toBitVec_and, UInt8.toBitVec_or, BitVec.and_or_distrib_right]
  unfold shownIf
  rw [split, sound.iflag, absent, UInt8.or_zero]

/-- Writing what another state shows carries the value over. -/
theorem write_read (w : Wiring σ) {s : State} (sound : s.regs.Sound) {item : Export}
    (plain : item ≠ .halted) : item.write w (item.read s) = modifyState (item.copy s) := by
  cases item with
  | halted => exact absurd rfl plain
  | pc | currentPc | sp | stackPointer | lastPc =>
    simp only [write, writeFitting, read, raw]
    rw [StateEntry.word_truncated rfl]
    rfl
  | a | b | c | d | e | h | l | ie | opcode =>
    simp only [write, writeFitting, read, raw]
    rw [StateEntry.byte_truncated rfl]
    rfl
  | ime | eiDelay | stopped | haltBug =>
    simp only [write, writeFitting, read, raw]
    rw [StateEntry.bit_truncated rfl]
    rfl
  | f | flags =>
    simp only [write, writeFitting, read, raw]
    rw [StateEntry.byte_truncated rfl]
    unfold Registers.setF
    rw [sound.f]
    rfl
  | iflag =>
    simp only [write, writeFitting, read, raw]
    rw [StateEntry.byte_truncated rfl]
    unfold Registers.setIflag
    rw [shownIf_masked sound]
    rfl
  | af =>
    simp only [write, writeFitting, read, raw]
    rw [StateEntry.word_truncated rfl]
    unfold Registers.setAf Registers.af
    rw [highByte_joinBytes, lowByte_joinBytes, sound.f]
    rfl
  | bc =>
    simp only [write, writeFitting, read, raw]
    rw [StateEntry.word_truncated rfl]
    unfold Registers.setBc Registers.bc
    rw [highByte_joinBytes, lowByte_joinBytes]
    rfl
  | de =>
    simp only [write, writeFitting, read, raw]
    rw [StateEntry.word_truncated rfl]
    unfold Registers.setDe Registers.de
    rw [highByte_joinBytes, lowByte_joinBytes]
    rfl
  | hl =>
    simp only [write, writeFitting, read, raw]
    rw [StateEntry.word_truncated rfl]
    unfold Registers.setHl Registers.hl
    rw [highByte_joinBytes, lowByte_joinBytes]
    rfl

end Export

/-! ## §3 All values -/

/-- Writes the values that another state shows for some entries, in order. -/
def writeAll (w : Wiring σ) (s : State) : List Export → Exec σ Unit
  | [] => return ()
  | item :: items => do
    item.write w (item.read s)
    writeAll w s items

theorem writeAll_append (w : Wiring σ) (s : State) (first second : List Export)
    (m : Machine State σ) :
    (writeAll w s (first ++ second) m).2 = (writeAll w s second (writeAll w s first m).2).2 := by
  induction first generalizing m with
  | nil => rfl
  | cons item first ih => exact ih (item.write w (item.read s) m).2

/-- Entries that are mere changes of the state carry their values over one by one. -/
theorem writeAll_plain (w : Wiring σ) {s : State} (sound : s.regs.Sound) {items : List Export}
    (plain : ∀ item ∈ items, item ≠ .halted) (m : Machine State σ) :
    (writeAll w s items m).2 = ⟨items.foldl (fun t item => item.copy s t) m.core, m.world⟩ := by
  induction items generalizing m with
  | nil => rfl
  | cons item items ih =>
    obtain ⟨first, rest⟩ := List.forall_mem_cons.mp plain
    show (writeAll w s items (item.write w (item.read s) m).2).2 = _
    rw [ih rest, Export.write_read w sound first]
    rfl

/-- Writing whether a resting core is halted takes another one into its execution state, and at
most stops or drives a line on the way. -/
theorem write_halted (w : Wiring σ) {s t : State} (rests : s.Resting) (rests' : t.Resting)
    (world : World σ) :
    ∃ stopped outputs,
      (Export.halted.write w (Export.halted.read s) ⟨t, world⟩).2.core =
        { t with exec := s.exec, stopped, outputs } := by
  -- the value read is the bit that the halt depends on
  have asked : Export.halted.write w (Export.halted.read s) =
      Export.writeHalted w (decide (s.exec = .halted)) := by
    simp only [Export.write, Export.writeFitting, Export.read, Export.raw]
    rw [StateEntry.bit_truncated rfl]
  rw [asked]
  show ∃ stopped outputs,
    ((if decide (s.exec = .halted) && !decide (t.exec = .halted) then enterHalt w t.stopped
      else if !decide (s.exec = .halted) && decide (t.exec = .halted) then wake w
      else pure () : Exec σ Unit) ⟨t, world⟩).2.core = _
  have unchanged (same : t.exec = s.exec) :
      t = { t with exec := s.exec, stopped := t.stopped, outputs := t.outputs } := by rw [← same]
  -- source and target each fetch or are halted; where they differ the target halts or wakes
  rcases rests.exec with exec | exec <;> rcases rests'.exec with exec' | exec'
  · rw [exec] at unchanged ⊢
    rw [exec']
    exact ⟨t.stopped, t.outputs, unchanged exec'⟩
  · rw [exec, exec']
    exact ⟨false, _, rfl⟩
  · rw [exec, exec']
    exact ⟨t.stopped, _, rfl⟩
  · rw [exec] at unchanged ⊢
    rw [exec']
    exact ⟨t.stopped, t.outputs, unchanged exec'⟩

/-- The entries that are written before the core is halted or woken. -/
def Export.beforeHalt : List Export :=
  [.pc, .sp, .a, .f, .b, .c, .d, .e, .h, .l, .ime, .ie, .iflag, .opcode, .eiDelay, .af, .bc, .de,
    .hl, .currentPc, .lastPc, .stackPointer, .flags]

theorem Export.all_eq : all = beforeHalt ++ ([.halted] ++ [.stopped, .haltBug]) := rfl

/-- The state once the values before the halt are written. -/
def State.copied (s t : State) : State :=
  { t with
    regs := s.regs
    haltBug := false
    opcode := s.opcode
    eiDelay := s.eiDelay
    lastPc := s.lastPc }

theorem State.copied_eq (s t : State) :
    Export.beforeHalt.foldl (fun t item => item.copy s t) t = s.copied t := by
  simp only [Export.beforeHalt, List.foldl_cons, List.foldl_nil, Export.copy]
  rfl

/-- A resting core to which all values have been written shows the state that they were read from;
it differs at most in its counters, the levels driven and the note of the last bus cycles. -/
theorem writeAll_alike (w : Wiring σ) {s t : State} (sound : s.regs.Sound) (rests : s.Resting)
    (rests' : t.Resting) (world : World σ) :
    State.Alike { s with bus := t.bus } (writeAll w s Export.all ⟨t, world⟩).2.core := by
  have copied : (s.copied t).Resting := ⟨rests'.exec, rests'.released⟩
  -- what halting does to the outputs is not compared, and the stop flag is written over
  obtain ⟨stopped, outputs, halting⟩ := write_halted w rests copied world
  have released : s.inReset = t.inReset := rests.released.trans rests'.released.symm
  have first : (writeAll w s Export.beforeHalt ⟨t, world⟩).2 = ⟨s.copied t, world⟩ := by
    rw [writeAll_plain w sound (by decide), State.copied_eq]
  rw [Export.all_eq, writeAll_append w s Export.beforeHalt, writeAll_append w s [.halted], first,
    writeAll_plain w sound (by decide)]
  refine ⟨t.totalCycles, t.diagnostics, outputs, ?_⟩
  show [Export.stopped, .haltBug].foldl (fun t item => item.copy s t)
    (Export.halted.write w (Export.halted.read s) ⟨s.copied t, world⟩).2.core = _
  rw [halting, released]
  rfl

end Microboard.Sm83
