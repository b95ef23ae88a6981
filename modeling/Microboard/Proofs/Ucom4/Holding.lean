import Microboard.Proofs.CoreTapes
import Microboard.Proofs.Ucom4.Ledger
import Microboard.Proofs.Ucom4.Requests
import Microboard.Proofs.Ucom4.Watching

/-!
# uCOM-4 cores that their reset line holds

A reset of this family keeps most registers. It is repeated without effect all the same: what it
sets it would set to the same again, and the ports that it drives low are low already.

- **§1** What a reset makes of a core, and that it is repeated without effect.
- **§2** What a look at the reset line makes of a core.
- **§3** Actions of a core that the line holds, and the first one after the line has let it go.
- **§4** Actions of a core that the line does not hold.
-/

namespace Microboard.Ucom4

variable {σ : Type} {w : Wiring σ} {m : Machine State σ} {alone : Bool}

/-! ## §1 Resets -/

/-- The registers once the ports that can be written are latched low. -/
def Registers.cleared (g : Geometry) (r : Registers) (ports : List UInt8) : Registers :=
  ports.foldl (fun r port => if g.ports.writable port then r.setPort port 0 else r) r

/-- Ports that can be written are latched low. -/
def Registers.Dark (g : Geometry) (r : Registers) (ports : List UInt8) : Prop :=
  ∀ port ∈ ports, g.ports.writable port = true → r.port port = 0

namespace Registers

variable {g : Geometry} {r : Registers} {ports : List UInt8}

theorem cleared_cons (g : Geometry) (r : Registers) (port : UInt8) (ports : List UInt8) :
    r.cleared g (port :: ports) =
      (if g.ports.writable port then r.setPort port 0 else r).cleared g ports := rfl

/-- To latch what is latched changes nothing. -/
theorem setPort_same {port value : UInt8} (latched : r.port port = value) :
    r.setPort port value = r := by
  have there : port.toNat % 16 < 16 := Nat.mod_lt _ (by decide)
  have latched : r.portOut[port.toNat % 16] = value := latched
  unfold setPort
  rw [← latched, Vector.set_getElem_self]

theorem Dark.cleared (dark : r.Dark g ports) : r.cleared g ports = r := by
  induction ports with
  | nil => rfl
  | cons port ports ih =>
    obtain ⟨here, later⟩ := List.forall_mem_cons.mp dark
    rw [cleared_cons]
    split
    next writable => rw [setPort_same (here writable), ih later]
    · exact ih later

/-- A port that is low stays low. -/
theorem port_cleared {port : UInt8} (low : r.port port = 0) (ports : List UInt8) :
    (r.cleared g ports).port port = 0 := by
  induction ports generalizing r with
  | nil => exact low
  | cons first rest ih =>
    rw [cleared_cons]
    refine ih ?_
    split
    · rw [port_setPort, low, ite_self]
    · exact low

theorem dark_cleared (r : Registers) (ports : List UInt8) : (r.cleared g ports).Dark g ports := by
  induction ports generalizing r with
  | nil => exact nofun
  | cons first rest ih =>
    refine List.forall_mem_cons.mpr ⟨fun writable => ?_, ih _⟩
    rw [cleared_cons, if_pos writable]
    exact port_cleared (by rw [port_setPort, if_pos rfl]) rest

/-- Only latches change. -/
theorem cleared_eq (g : Geometry) (r : Registers) (ports : List UInt8) :
    r.cleared g ports = { r with portOut := (r.cleared g ports).portOut } := by
  induction ports generalizing r with
  | nil => rfl
  | cons first rest ih =>
    rw [cleared_cons, ih]
    split <;> rfl

end Registers

/-- The registers with which a reset begins to drive the ports. -/
def Registers.restarted (g : Geometry) (r : Registers) : Registers :=
  { r with
    pc := 0
    intFlag := false
    intEnable := g.family = .ucom44 }

/-- Registers that another reset would leave as they are. -/
structure Registers.Settled (g : Geometry) (r : Registers) : Prop where
  pc : r.pc = 0
  intFlag : r.intFlag = false
  intEnable : r.intEnable = decide (g.family = .ucom44)
  dark : r.Dark g resetPorts

theorem Registers.Settled.restarted {g : Geometry} {r : Registers} (settled : r.Settled g) :
    (r.restarted g).cleared g resetPorts = r := by
  have same : r.restarted g = r := by
    unfold Registers.restarted
    rw [← settled.pc, ← settled.intFlag, ← settled.intEnable]
  rw [same, settled.dark.cleared]

theorem Registers.settled_restarted (g : Geometry) (r : Registers) :
    ((r.restarted g).cleared g resetPorts).Settled g := by
  have latched := cleared_eq g (r.restarted g) resetPorts
  exact ⟨congrArg Registers.pc latched, congrArg Registers.intFlag latched,
    congrArg Registers.intEnable latched, dark_cleared _ _⟩

/-- The state in which a reset begins to drive the ports. -/
def State.restarted (g : Geometry) (s : State) : State :=
  { s with
    regs := s.regs.restarted g
    opcode := 0
    lastPc := 0
    skip := false
    timer := none
    exec := .fetching
    diagnostics := {} }

theorem clearPorts_core {ports : List UInt8} (known : ∀ port ∈ ports, nibble port = port)
    (m : Machine State σ) : ∃ bus, (clearPorts w ports m).2.core =
      { m.core with regs := m.core.regs.cleared w.geometry ports, bus } := by
  induction ports generalizing m with
  | nil => exact ⟨_, rfl⟩
  | cons port ports ih =>
    obtain ⟨here, later⟩ := List.forall_mem_cons.mp known
    unfold clearPorts
    rw [Registers.cleared_cons]
    split
    next writable =>
      -- what is driven is zero, whatever reaches the pins
      have low : nibble 0 &&& w.geometry.ports.outputMask port = 0 := UInt8.zero_and
      have driven : ∃ bus, (output w port 0 m).2.core =
          { m.core with regs := m.core.regs.setPort port 0, bus } := by
        unfold output
        dsimp only
        rw [here, eval_ite, if_pos writable, low]
        exact ⟨_, rfl⟩
      obtain ⟨_, driven⟩ := driven
      obtain ⟨bus, rest⟩ := ih later (output w port 0 m).2
      rw [driven] at rest
      exact ⟨bus, rest⟩
    · exact ih later m

/-- What a reset makes of a core, but for its counters and its note of bus cycles. -/
theorem reset_core (w : Wiring σ) (m : Machine State σ) :
    ∃ bus diagnostics, (reset w m).2.core =
      { m.core.restarted w.geometry with
        regs := (m.core.regs.restarted w.geometry).cleared w.geometry resetPorts
        bus
        diagnostics } := by
  let begun : Machine State σ := ⟨m.core.restarted w.geometry,
    (m.world.onLatch w.number fun latch => ((), latch.discardEdges)).2⟩
  have known : ∀ port ∈ resetPorts, nibble port = port := by decide +kernel
  obtain ⟨bus, cleared⟩ := clearPorts_core (w := w) known begun
  -- after the ports only wait states are taken, and counted
  have waited : (reset w m).2.core =
      { (clearPorts w resetPorts begun).2.core with
        diagnostics := (reset w m).2.core.diagnostics } := rfl
  rw [cleared] at waited
  exact ⟨bus, (reset w m).2.core.diagnostics, waited⟩

/-! ## §2 Looking at the reset line -/

/-- The state of a core that its reset line has taken. Another reset would leave its registers as
they are, its timer does not run, and it is at rest as long as its host leaves it alone. -/
structure Parked (w : Wiring σ) (alone : Bool) (s : State) : Prop where
  inReset : s.inReset = true
  exec : s.exec = if alone then .idle else .fetching
  settled : s.regs.Settled w.geometry
  timer : s.timer = none

theorem Parked.awake {s : State} (parked : Parked w alone s) : s.exec.latchedFault? = none := by
  rw [parked.exec]
  cases alone <;> rfl

/-- What a reset leaves is parked, once the core has noted that its line holds it. -/
theorem reset_parked (w : Wiring σ) (m : Machine State σ) :
    Parked w true { (reset w m).2.core with inReset := true, exec := .idle } := by
  obtain ⟨bus, diagnostics, left⟩ := reset_core w m
  rw [left]
  exact ⟨rfl, rfl, Registers.settled_restarted _ _, rfl⟩

/-- A host that resets a core which its line holds disturbs its rest, and leaves its registers as
they are. -/
theorem Parked.disturbed (parked : Parked w alone m.core) :
    Parked w false (reset w m).2.core ∧ (reset w m).2.core.regs = m.core.regs := by
  obtain ⟨bus, diagnostics, left⟩ := reset_core w m
  rw [left]
  exact ⟨⟨parked.inReset, rfl, Registers.settled_restarted _ _, rfl⟩, parked.settled.restarted⟩

/-- The state of a core that has looked at its reset line. The line takes the core, in the state
that a reset leaves, lets it go, or changes nothing. -/
def State.looked (s : State) (active : Bool) (restarted : State) : State :=
  match active, s.inReset with
  | true, false => { restarted with inReset := true, exec := .idle }
  | false, true => { s with inReset := false, exec := .fetching }
  | true, true | false, false => s

theorem sampleReset_core {active : Bool}
    (shows_ : ((m.world.lines.latch w.number).level resetLine).isActive = active) :
    (sampleReset w m).2.core = m.core.looked active
      (reset w ⟨m.core, (m.world.onLatch w.number (·.sample resetLine .level)).2⟩).2.core := by
  rw [← (m.world.looked w.number resetLine).1] at shows_
  rw [sampleReset_eq]
  unfold State.looked
  revert shows_
  obtain ⟨held, world⟩ := m.world.onLatch w.number (·.sample resetLine .level)
  rintro rfl
  cases held <;> cases m.core.inReset <;> rfl

/-- A core that a released line finds is free. -/
theorem State.inReset_looked (s restarted : State) :
    (s.looked false restarted).inReset = false := by
  unfold looked
  split
  · contradiction
  · rfl
  · contradiction
  · assumption

/-! ## §3 Cores that the line holds -/

/-- Time that passes without a timer is put on the clock only. -/
theorem Parked.charged (parked : Parked w alone m.core) (cycles : Nat) :
    Parked w alone (charged w cycles m).core ∧ (charged w cycles m).core.regs = m.core.regs := by
  rw [charged_eq, parked.timer]
  exact ⟨⟨parked.inReset, parked.exec, parked.settled, parked.timer⟩, rfl⟩

/-- An active line takes a core that was free. -/
theorem advance_takes (awake : m.core.exec.latchedFault? = none) (active : ¬Released w m)
    (free : m.core.inReset = false) (remaining : Nat) :
    Parked w true (advance w remaining m).2.core := by
  have sampled := sampleReset_core (m := unobserved m) (eq_true_of_ne_false active)
  have taken (restarted : State) : (unobserved m).core.looked true restarted =
      { restarted with inReset := true, exec := .idle } := by
    unfold State.looked
    rw [show (unobserved m).core.inReset = false from free]
  rw [advance_held awake active]
  refine (Parked.charged ?_ _).1
  rw [sampled, taken]
  exact reset_parked w _

/-- A core that the line holds stays as it is. -/
theorem Parked.stays (parked : Parked w alone m.core) (active : ¬Released w m) (remaining : Nat) :
    Parked w alone (advance w remaining m).2.core ∧
      (advance w remaining m).2.core.regs = m.core.regs := by
  have sampled := sampleReset_core (m := unobserved m) (eq_true_of_ne_false active)
  have same (restarted : State) :
      (unobserved m).core.looked true restarted = (unobserved m).core := by
    unfold State.looked
    rw [show (unobserved m).core.inReset = true from parked.inReset]
  rw [same] at sampled
  have still : Parked w alone (sampleReset w (unobserved m)).2.core := by
    rw [sampled]
    exact ⟨parked.inReset, parked.exec, parked.settled, parked.timer⟩
  rw [advance_held parked.awake active]
  obtain ⟨parked, regs⟩ := still.charged (idleCycles remaining)
  exact ⟨parked, regs.trans (by rw [sampled]; rfl)⟩

/-! ### What a held core asks of its spaces -/

/-- The program space has been asked for nothing. -/
def Unfetched (m : Machine State (σ × Tape)) : Prop :=
  ∀ transfer ∈ m.world.tape, transfer.role ≠ .program

theorem Unfetched.next {m m' : Machine State (σ × Tape)} (unfetched : Unfetched m)
    {transfer : Transfer} (tape : m'.world.tape = m.world.tape ++ [transfer])
    (other : transfer.role ≠ .program) : Unfetched m' := by
  unfold Unfetched
  rw [tape, List.forall_mem_append]
  exact ⟨unfetched, fun _ there => List.mem_singleton.mp there ▸ other⟩

theorem output_unfetched (w : Wiring σ) (port value : UInt8) :
    Keeps Unfetched (output w.taped port value) := by
  refine .ite (fun _ m unfetched => ?_) fun _ _ unfetched => unfetched
  have taped := m.world.tape_writeUnit .io w.io (nibble port).toUInt32
    (nibble value &&& w.geometry.ports.outputMask (nibble port))
  exact unfetched.next taped nofun

theorem clearPorts_unfetched (w : Wiring σ) (ports : List UInt8) :
    Keeps Unfetched (clearPorts w.taped ports) := by
  induction ports with
  | nil => exact .pure ()
  | cons port ports ih =>
    exact .ite (fun _ => .bind (output_unfetched w port 0) fun _ => ih) fun _ => ih

/-- A reset drives ports, and asks nothing else. -/
theorem reset_unfetched (w : Wiring σ) : Keeps Unfetched (reset w.taped) :=
  .bind (fun _ unfetched => unfetched) fun _ => .bind (fun _ unfetched => unfetched) fun _ =>
    .bind (clearPorts_unfetched w resetPorts) fun _ _ unfetched => unfetched

theorem sampleReset_unfetched (w : Wiring σ) : Keeps Unfetched (sampleReset w.taped) := by
  refine .bind (fun _ unfetched => unfetched) fun held => .bind (fun _ unfetched => unfetched)
    fun s => .ite (fun _ => ?_) fun _ => .ite (fun _ _ unfetched => unfetched) fun _ => .pure held
  exact .bind (reset_unfetched w) fun _ => .bind (fun _ unfetched => unfetched) fun _ => .pure held

/-- A core that its line holds does not fetch. -/
theorem advance_unfetched {m : Machine State (σ × Tape)} (unfetched : Unfetched m)
    (awake : m.core.exec.latchedFault? = none) (active : ¬Released w.taped m) (remaining : Nat) :
    Unfetched (advance w.taped remaining m).2 := by
  rw [advance_held awake active]
  have sampled := sampleReset_unfetched w (unobserved m) unfetched
  have devices := (charge_aside w.taped (idleCycles remaining)
    (sampleReset w.taped (unobserved m)).2).2
  show ∀ transfer ∈ World.tape (charge w.taped _ _).2.world, transfer.role ≠ .program
  rw [World.tape, devices]
  exact sampled

/-! ### The first action after the release -/

theorem charge_stack (w : Wiring σ) (cycles : Nat) (m : Machine State σ) :
    (charge w cycles m).2.core.regs.stack = m.core.regs.stack := by
  show (charged w cycles m).core.regs.stack = _
  rw [charged_eq]
  cases m.core.timer with
  | none => rfl
  | some left =>
    dsimp only
    split <;> rfl

/-- The return address of an interrupt is where the core was. -/
theorem service_returns (w : Wiring σ) (pc : UInt16) :
    Ensures (fun m => m.core.regs.pc = pc) (service w) fun _ m => m.core.regs.stack.top = pc := by
  let Returns (m : Machine State σ) : Prop := m.core.regs.stack.top = pc
  have charges (cycles : Nat) : Keeps Returns (charge w cycles) := fun m returns =>
    (congrArg CallStack.top (charge_stack w cycles m)).trans returns
  rw [service_eq]
  refine .keepsBind (fun _ there => there) fun _ => .keepsBind (fun _ there => there) fun _ =>
    .bind (V := fun _ => Returns) (fun _ there => there) fun _ => ?_
  -- from here on nothing reaches the call stack
  refine Keeps.bind (P := Returns) (fun _ returns => returns) fun _ =>
    .bind (fun _ returns => returns) fun _ => .bind (fun _ returns => returns) fun _ =>
    .bind (fun _ returns => returns) fun _ => .bind (charges _) fun _ => ?_
  exact fun _ returns => returns

theorem latchRequest_pc (w : Wiring σ) (m : Machine State σ) :
    (latchRequest w m).2.core.regs.pc = m.core.regs.pc := by
  unfold latchRequest
  rw [eval_bind, eval_ite]
  split <;> rfl

/-- The core has acted from an address: it has run or refused the instruction there, or it has
entered its interrupt, which returns there. -/
def ActsFrom (pc : UInt16) (answer : Except Fault StepOutcome) (s : State) : Prop :=
  RunsAt pc answer ∨ enters answer = true ∧ s.regs.stack.top = pc

/-- Once the line lets the core go, it acts from the start of the program. -/
theorem Parked.released (parked : Parked w alone m.core) (released : Released w m)
    (remaining : Nat) :
    ActsFrom 0 (advance w remaining m).1 (advance w remaining m).2.core := by
  have pc : (sample w m).2.core.regs.pc = 0 := by
    have regs := (sampleReset_released (m := unobserved m) released).2.1
    rw [sample_eq, latchRequest_pc, regs]
    exact parked.settled.pc
  rw [advance_sampled parked.awake released, ← pc]
  show ActsFrom _ (act w (sample w m).2).1 (act w (sample w m).2).2.core
  unfold act
  rw [eval_bind, eval_getState, eval_ite]
  split
  · exact .inr ⟨rfl, service_returns w _ _ rfl⟩
  · exact .inl (runInstruction_runsAt w _)

/-! ## §4 Cores that the line does not hold -/

/-- The core does not take itself for held. -/
def Free (m : Machine State σ) : Prop := m.core.inReset = false

theorem watches_free (w : Wiring σ) : Watches w Free where
  modify quiet m free := (quiet.inReset m.core).trans free
  fetch _ free := free
  readRam _ free := free
  writeRam _ _ free := free
  readRamRegister _ _ free := free
  writeRamRegister _ _ _ free := free
  input _ := .ite (fun _ => .bind (fun _ free => free) fun _ =>
    .ite (fun _ _ free => free) fun _ _ free => free) fun _ _ free => free
  output _ _ := .ite (fun _ _ free => free) fun _ _ free => free
  drainWaitStates _ free := free
  signal _ _ _ free := free
  onLatch _ _ free := free
  record _ _ free := free

/-- A core that looks at a released line is free, whatever it does then. -/
theorem advance_frees (awake : m.core.exec.latchedFault? = none) (released : Released w m)
    (remaining : Nat) : Free (advance w remaining m).2 := by
  have watches := watches_free w
  have acts : Keeps Free (act w) := .bind (fun _ free => free) fun _ =>
    .ite (fun _ => .bind watches.service fun _ => .pure _) fun _ => watches.runInstruction
  rw [advance_sampled awake released]
  refine acts _ (watches.latchRequest (sampleReset w (unobserved m)).2 ?_)
  show (sampleReset w (unobserved m)).2.core.inReset = false
  rw [sampleReset_core (m := unobserved m) released]
  exact State.inReset_looked _ _

end Microboard.Ucom4
