import Microboard.Proofs.Ucom4.Holding

/-!
# Output ports of uCOM-4 cores that are reset

A reset drives a fixed list of ports low, those of them that the part can write. Layouts are free to
make any of the sixteen ports writable, so what a reset reaches depends on the layout.

- **§1** What driving ports low leaves in the latches and asks of the I/O space.
- **§2** Resets, by the host and by the reset line.
- **§3** Layouts whose output ports a reset drives low.
-/

namespace Microboard.Ucom4

variable {σ : Type} {w : Wiring σ}

/-! ## §1 Ports that are driven low -/

/-- All ports, in ascending order. -/
def allPorts : List UInt8 := (List.range 16).map UInt8.ofNat

theorem mem_allPorts {port : UInt8} : port ∈ allPorts ↔ port.toNat < 16 := by
  unfold allPorts
  simp only [List.mem_map, List.mem_range]
  constructor
  · rintro ⟨number, below, rfl⟩
    exact lt_of_le_of_lt (Nat.mod_le _ _) below
  · intro below
    exact ⟨port.toNat, below, UInt8.ofNat_toNat⟩

/-- Of some ports, those that the part can write. -/
def PortLayout.outputsAmong (layout : PortLayout) (ports : List UInt8) : List UInt8 :=
  ports.filter layout.writable

theorem PortLayout.mem_outputsAmong {layout : PortLayout} {ports : List UInt8} {port : UInt8} :
    port ∈ layout.outputsAmong ports ↔ port ∈ ports ∧ layout.writable port = true :=
  List.mem_filter

/-- A write of zero to a port. -/
def lowWrite (port : UInt8) : Transfer := ⟨.io, .write, .byte, port.toUInt32, 0⟩

theorem lowWrite_injective : Function.Injective lowWrite := by
  intro port other same
  have numbers := congrArg UInt32.toNat (Transfer.mk.inj same).2.2.2.1
  rw [UInt8.toNat_toUInt32, UInt8.toNat_toUInt32] at numbers
  exact UInt8.toNat_inj.mp numbers

theorem output_tape {port : UInt8} (known : nibble port = port)
    (writable : w.geometry.ports.writable port = true) (m : Machine State (σ × Tape)) :
    (output w.taped port 0 m).2.world.tape = m.world.tape ++ [lowWrite port] := by
  -- what reaches the pins is zero, whatever the mask
  have driven : nibble 0 &&& w.geometry.ports.outputMask port = 0 := UInt8.zero_and
  have taped := m.world.tape_writeUnit .io w.io port.toUInt32
    (nibble 0 &&& w.geometry.ports.outputMask port)
  unfold output
  dsimp only
  rw [known, eval_ite, if_pos (show w.taped.geometry.ports.writable port = true from writable)]
  refine Eq.trans taped ?_
  rw [driven]
  rfl

/-- Every port that can be written is written once, in the order of the list. -/
theorem clearPorts_tape {ports : List UInt8} (known : ∀ port ∈ ports, nibble port = port)
    (m : Machine State (σ × Tape)) :
    (clearPorts w.taped ports m).2.world.tape =
      m.world.tape ++ (w.geometry.ports.outputsAmong ports).map lowWrite := by
  induction ports generalizing m with
  | nil => exact (List.append_nil _).symm
  | cons port ports ih =>
    obtain ⟨here, later⟩ := List.forall_mem_cons.mp known
    unfold PortLayout.outputsAmong at ih ⊢
    unfold clearPorts
    by_cases writable : w.geometry.ports.writable port = true
    · rw [if_pos (show w.taped.geometry.ports.writable port = true from writable), eval_bind,
        ih later, output_tape here writable, List.filter_cons_of_pos writable, List.map_cons,
        List.append_assoc, List.singleton_append]
    · rw [if_neg (show ¬w.taped.geometry.ports.writable port = true from writable),
        List.filter_cons_of_neg writable]
      exact ih later m

/-- What driving some ports low asks of the I/O space. -/
def Wiring.clears (w : Wiring σ) : List UInt8 → Access σ Unit
  | [] => pure ()
  | port :: ports => do
    w.io.writeUnit port.toUInt32 0
    w.clears ports

theorem clearPorts_world {ports : List UInt8} (known : ∀ port ∈ ports, nibble port = port)
    (m : Machine State σ) :
    (clearPorts w ports m).2.world =
      (World.perform (w.clears (w.geometry.ports.outputsAmong ports)) m.world).2 := by
  induction ports generalizing m with
  | nil => rfl
  | cons port ports ih =>
    obtain ⟨here, later⟩ := List.forall_mem_cons.mp known
    unfold PortLayout.outputsAmong at ih ⊢
    unfold clearPorts
    by_cases writable : w.geometry.ports.writable port = true
    · have driven : (output w port 0 m).2.world =
          (World.perform (w.io.writeUnit port.toUInt32 0) m.world).2 := by
        unfold output
        dsimp only
        rw [here, eval_ite, if_pos writable, show nibble 0 &&& _ = 0 from UInt8.zero_and]
        rfl
      rw [if_pos writable, eval_bind, ih later, driven, List.filter_cons_of_pos writable,
        Wiring.clears, World.perform_bind]
    · rw [if_neg writable, List.filter_cons_of_neg writable]
      exact ih later m

/-- Other ports are left alone. -/
theorem Registers.port_cleared_other {g : Geometry} {ports : List UInt8}
    (known : ∀ port ∈ ports, port ∈ allPorts) (r : Registers) {port : UInt8}
    (there : port ∈ allPorts) (other : port ∉ g.ports.outputsAmong ports) :
    (r.cleared g ports).port port = r.port port := by
  induction ports generalizing r with
  | nil => rfl
  | cons first ports ih =>
    obtain ⟨here, later⟩ := List.forall_mem_cons.mp known
    simp only [PortLayout.mem_outputsAmong, List.mem_cons, not_and] at other ih
    rw [cleared_cons, ih later _ fun among => other (.inr among)]
    split
    next writable =>
      have apart : first.toNat % 16 ≠ port.toNat % 16 := by
        rw [Nat.mod_eq_of_lt (mem_allPorts.mp here), Nat.mod_eq_of_lt (mem_allPorts.mp there)]
        intro same
        obtain rfl := UInt8.toNat_inj.mp same
        exact other (.inl rfl) writable
      rw [port_setPort, if_neg apart]
    · rfl

/-! ## §2 Resets -/

theorem resetPorts_known : ∀ port ∈ resetPorts, nibble port = port ∧ port ∈ allPorts := by
  decide +kernel

/-- Output ports of a part that a reset drives low. -/
def Geometry.clearedPorts (g : Geometry) : List UInt8 := g.ports.outputsAmong resetPorts

/-- What a reset makes of the ports. -/
structure Cleared (w : Wiring σ) (before after : Registers) : Prop where
  low : ∀ port ∈ w.geometry.clearedPorts, after.port port = 0
  rest : ∀ port ∈ allPorts, port ∉ w.geometry.clearedPorts → after.port port = before.port port

theorem reset_cleared (w : Wiring σ) (m : Machine State σ) :
    Cleared w m.core.regs (reset w m).2.core.regs := by
  obtain ⟨bus, diagnostics, left⟩ := reset_core w m
  rw [left]
  refine ⟨fun port among => ?_, fun port there other => ?_⟩
  · obtain ⟨among, writable⟩ := PortLayout.mem_outputsAmong.mp among
    exact Registers.dark_cleared _ _ port among writable
  · exact Registers.port_cleared_other (fun port among => (resetPorts_known port among).2)
      (m.core.regs.restarted w.geometry) there other

theorem reset_tape (w : Wiring σ) (m : Machine State (σ × Tape)) :
    (reset w.taped m).2.world.tape = m.world.tape ++ w.geometry.clearedPorts.map lowWrite :=
  clearPorts_tape (fun port among => (resetPorts_known port among).1) _

/-- A command that resets a core: that of its host, or an action that finds the reset line of a
free core active. -/
inductive Resets (w : Wiring σ) (m : Machine State σ) : Core.Command → Prop where
  | reset : Resets w m .reset
  | taken (remaining : Nat) : m.core.exec.latchedFault? = none → m.core.inReset = false →
      ¬Released w m → Resets w m (.advance remaining)

theorem reset_clears (m : Machine State σ) :
    ∃ s world, Core.Command.reset.apply ⟨.ucom4 w m.core, m.world⟩ = ((), ⟨.ucom4 w s, world⟩) ∧
      Cleared w m.core.regs s.regs ∧
      Core.asked .reset ⟨.ucom4 w m.core, m.world⟩ = w.geometry.clearedPorts.map lowWrite :=
  ⟨_, _, rfl, reset_cleared w m, reset_tape w ⟨m.core, m.world.taped⟩⟩

/-- The first look at an active reset line resets the core. -/
theorem sampleReset_taken {m : Machine State σ} (free : m.core.inReset = false)
    (active : ¬Released w m) : ∃ world, world.devices = m.world.devices ∧ (sampleReset w m).2 =
      ⟨{ (reset w ⟨m.core, world⟩).2.core with inReset := true, exec := .idle },
        (reset w ⟨m.core, world⟩).2.world⟩ := by
  obtain ⟨shows_, devices, -⟩ := m.world.looked w.number resetLine
  have held := shows_.trans (eq_true_of_ne_false active)
  rw [sampleReset_eq, free]
  revert held devices
  obtain ⟨_, world⟩ := m.world.onLatch w.number (·.sample resetLine .level)
  rintro devices rfl
  exact ⟨world, devices, rfl⟩

/-- What time passes after that touches neither ports nor spaces. -/
theorem advance_clears {m : Machine State σ} (awake : m.core.exec.latchedFault? = none)
    (free : m.core.inReset = false) (active : ¬Released w m) (remaining : Nat) :
    ∃ s world, (Core.Command.advance remaining).apply ⟨.ucom4 w m.core, m.world⟩ =
        ((), ⟨.ucom4 w s, world⟩) ∧
      Cleared w m.core.regs s.regs ∧
      Core.asked (.advance remaining) ⟨.ucom4 w m.core, m.world⟩ =
        w.geometry.clearedPorts.map lowWrite := by
  refine ⟨(advance w remaining m).2.core, (advance w remaining m).2.world, rfl, ?_, ?_⟩
  · obtain ⟨world, -, taken⟩ := sampleReset_taken (m := unobserved m) free active
    have parked := reset_parked w ⟨(unobserved m).core, world⟩
    obtain ⟨-, regs⟩ := Parked.charged (m := ⟨_, (reset w ⟨_, world⟩).2.world⟩) parked
      (idleCycles remaining)
    rw [advance_held awake active, taken, regs]
    exact reset_cleared w ⟨(unobserved m).core, world⟩
  · let begins : Machine State (σ × Tape) := unobserved ⟨m.core, m.world.taped⟩
    obtain ⟨world, devices, taken⟩ :=
      sampleReset_taken (w := w.taped) (m := begins) free active
    have idles (m : Machine State (σ × Tape)) (cycles : Nat) :
        (charged w.taped cycles m).world.tape = m.world.tape :=
      congrArg Prod.snd (charge_aside w.taped cycles m).2
    show (advance w.taped remaining ⟨m.core, m.world.taped⟩).2.world.tape = _
    rw [advance_held (w := w.taped) (m := ⟨m.core, m.world.taped⟩) awake active, idles, taken]
    refine (reset_tape w ⟨begins.core, world⟩).trans ?_
    rw [World.tape, devices]
    rfl

theorem Resets.clears {m : Machine State σ} {command : Core.Command}
    (resets : Resets w m command) :
    ∃ s world, command.apply ⟨.ucom4 w m.core, m.world⟩ = ((), ⟨.ucom4 w s, world⟩) ∧
      Cleared w m.core.regs s.regs ∧
      Core.asked command ⟨.ucom4 w m.core, m.world⟩ = w.geometry.clearedPorts.map lowWrite := by
  cases resets with
  | reset => exact reset_clears m
  | taken remaining awake free active => exact advance_clears awake free active remaining

/-! ## §3 Layouts -/

/-- Every output port of a layout is driven low: each is written once, in ascending order, and
shows zero then. -/
structure DrivenLow (g : Geometry) (asked : Tape) (after : Registers) : Prop where
  asked : asked = (g.ports.outputsAmong allPorts).map lowWrite
  low : ∀ port ∈ g.ports.outputsAmong allPorts, after.port port = 0

/-- The list of a reset is ascending. -/
theorem resetPorts_ascending : allPorts.filter (· ∈ resetPorts) = resetPorts := by decide +kernel

theorem Geometry.clearedPorts_eq (g : Geometry) :
    g.clearedPorts = (g.ports.outputsAmong allPorts).filter (· ∈ resetPorts) := by
  unfold clearedPorts PortLayout.outputsAmong
  conv_lhs => rw [← resetPorts_ascending]
  rw [List.filter_filter, List.filter_filter]
  exact List.filter_congr fun _ _ => Bool.and_comm _ _

/-- All output ports are driven low exactly if the reset lists them all. -/
theorem Cleared.drivenLow_iff {before after : Registers} (cleared : Cleared w before after) :
    DrivenLow w.geometry (w.geometry.clearedPorts.map lowWrite) after ↔
      ∀ port ∈ allPorts, w.geometry.ports.writable port = true → port ∈ resetPorts := by
  constructor
  · rintro ⟨asked, -⟩ port there writable
    have all := List.map_injective_iff.mpr lowWrite_injective asked
    have among := PortLayout.mem_outputsAmong.mpr ⟨there, writable⟩
    rw [← all] at among
    exact (PortLayout.mem_outputsAmong.mp among).1
  · intro listed
    have all : w.geometry.clearedPorts = w.geometry.ports.outputsAmong allPorts := by
      rw [w.geometry.clearedPorts_eq, List.filter_eq_self]
      intro port among
      obtain ⟨there, writable⟩ := PortLayout.mem_outputsAmong.mp among
      exact decide_eq_true (listed port there writable)
    exact ⟨by rw [all], all ▸ cleared.low⟩

/-- Whenever a core is reset, it asks of its spaces a write of zero to each output port of its
list, in ascending order, latches these ports low, and leaves the others alone. So all its output
ports are driven low exactly if they are on the list. -/
theorem outputs_driven_low_iff {m : Machine State σ} {command : Core.Command}
    (resets : Resets w m command) :
    ∃ s world, command.apply ⟨.ucom4 w m.core, m.world⟩ = ((), ⟨.ucom4 w s, world⟩) ∧
      Cleared w m.core.regs s.regs ∧
      Core.asked command ⟨.ucom4 w m.core, m.world⟩ = w.geometry.clearedPorts.map lowWrite ∧
      (DrivenLow w.geometry (Core.asked command ⟨.ucom4 w m.core, m.world⟩) s.regs ↔
        ∀ port ∈ allPorts, w.geometry.ports.writable port = true → port ∈ resetPorts) := by
  obtain ⟨s, world, applies, cleared, asked⟩ := resets.clears
  refine ⟨s, world, applies, cleared, asked, ?_⟩
  rw [asked]
  exact cleared.drivenLow_iff

/-- Named parts have no output ports that a reset does not list. -/
theorem Part.outputs_listed {part : Part} (named : ∀ layout, part ≠ .custom layout) :
    ∀ port ∈ allPorts, part.geometry.ports.writable port = true → port ∈ resetPorts := by
  cases part with
  | custom layout => exact absurd rfl (named layout)
  | upd546 | upd553 | upd557l | upd650 | upd552 => decide +kernel

/-- The reset line takes a core of a named part whose ports all show seven. -/
theorem outputs_driven_low_iff_taken :
    let w : Wiring UInt8 := .cell id (fun value _ => value) 0
    let lines : LineBank := { latches := [(LineLatch.released 2).set resetLine .assert] }
    let m : Machine State UInt8 :=
      ⟨{ regs := { portOut := Vector.replicate 16 7 } }, ⟨0, lines, {}⟩⟩
    (m.core.exec.latchedFault? = none ∧ m.core.inReset = false ∧ ¬Released w m) ∧
      ∃ s world, Core.advance 1 ⟨.ucom4 w m.core, m.world⟩ =
          (.ok (.idle 1), ⟨.ucom4 w s, world⟩) ∧
        DrivenLow w.geometry (Core.asked (.advance 1) ⟨.ucom4 w m.core, m.world⟩) s.regs := by
  intro w lines m
  have active : ¬Released w m := by
    unfold Released
    decide +kernel
  obtain ⟨s, world, applies, -, -, lows⟩ :=
    outputs_driven_low_iff (w := w) (m := m) (.taken 1 rfl rfl active)
  refine ⟨⟨rfl, rfl, active⟩, s, world, ?_, lows.mpr (Part.outputs_listed nofun)⟩
  have answer : (Core.advance 1 ⟨.ucom4 w m.core, m.world⟩).1 = .ok (.idle 1) :=
    congrArg Prod.fst (advance_held rfl active 1)
  have machine : (Core.advance 1 ⟨.ucom4 w m.core, m.world⟩).2 = ⟨.ucom4 w s, world⟩ :=
    congrArg Prod.snd applies
  exact Prod.ext answer machine

/-- A core whose only output port is the first one drives seven on it. A reset leaves it so, and
asks nothing of the I/O space. -/
theorem output_port_left_driven :
    let layout : Geometry := ⟨.ucom43, 11, 7, 3, { PortLayout.standard with outputs := 1 }⟩
    let w : Wiring UInt8 :=
      { Wiring.cell id (fun value _ => value) 0 with config := { part := .custom layout } }
    let fresh : State := (reset w ⟨{}, ⟨0, {}, {}⟩⟩).2.core
    let found (value : UInt8) : World UInt8 :=
      ⟨value, { latches := [.released 2] }, {}⟩
    -- seven to the accumulator, out
    let s := (advance w 1 ⟨(advance w 1 ⟨fresh, found 0x97⟩).2.core, found 0x0E⟩).2.core
    let m : Machine (Core UInt8) UInt8 := ⟨.ucom4 w s, found 0⟩
    layout.validate = .ok () ∧
      (∃ world', build w.config w.program w.data w.io ⟨0, {}, {}⟩ = .ok ((w, fresh), world')) ∧
      layout.ports.writable 0 = true ∧
      (reset w ⟨s, found 0⟩).2.core.regs.port 0 = 7 ∧ Core.asked .reset m = [] ∧
      ¬DrivenLow layout (Core.asked .reset m) (reset w ⟨s, found 0⟩).2.core.regs := by
  intro layout w fresh found s m
  have left : (reset w ⟨s, found 0⟩).2.core.regs.port 0 = 7 := by decide +kernel
  refine ⟨rfl, ⟨_, rfl⟩, by decide +kernel, left, by decide +kernel, fun driven => ?_⟩
  have low := driven.low 0 (by decide +kernel)
  rw [left] at low
  cases low

end Microboard.Ucom4
