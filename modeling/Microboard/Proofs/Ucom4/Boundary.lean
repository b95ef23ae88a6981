import Microboard.Proofs.Ucom4.CallStacks
import Microboard.Proofs.Ucom4.Lockstep
import Microboard.Ucom4.Step

/-!
# uCOM-4 boundary actions in lockstep

- **§1** States that go on to do the same, and the changes of state that boundary actions make.
- **§2** Relations that such changes and the accesses to the world carry on.
- **§3** What a core does between two looks at its lines, where the clock carries the relation on
  as well.
- **§4** Relations that follow the latch, too: reset, sampling, and whole boundary actions.
- **§5** Relations that are followed: equal cores or near cores in coupled worlds, one core whose
  state is sound, and one core whose clock stands still.

A core keeps more than decides what it does. The argument byte is fetched anew before an
instruction looks at it, slots of the call stack beyond the depth of the part are never used, and
the bits of a return address that the program counter does not have are dropped on return.
-/

namespace Microboard.Ucom4

variable {σ τ : Type}

/-! ## §1 States -/

/-- Two call stacks from which a part returns to the same addresses. -/
def CallStack.Agrees (g : Geometry) (a b : CallStack) : Prop :=
  ∀ level < CallStack.used g.stackLevels,
    a.slot level &&& g.programMask = b.slot level &&& g.programMask

namespace CallStack

variable {g : Geometry} {a b : CallStack}

theorem Agrees.refl (g : Geometry) (a : CallStack) : a.Agrees g a := fun _ _ => rfl

theorem Agrees.top (agrees : a.Agrees g b) : a.top &&& g.programMask = b.top &&& g.programMask := by
  rw [top_eq, top_eq]
  exact agrees 0 (used_pos _)

theorem Agrees.push (agrees : a.Agrees g b) (address : UInt16) :
    (a.push g.stackLevels address).Agrees g (b.push g.stackLevels address) := by
  intro level below
  rw [slot_push a _ _ below, slot_push b _ _ below]
  split
  · rfl
  · exact agrees _ (by omega)

theorem Agrees.drop (agrees : a.Agrees g b) :
    (a.drop g.stackLevels).Agrees g (b.drop g.stackLevels) := by
  intro level below
  rw [slot_drop a _ below, slot_drop b _ below]
  split
  · exact agrees _ (by omega)
  · exact agrees _ below

end CallStack

/-- The states differ at most in what the core counts and has recorded, in the argument byte, and
in bits of the call stack that no return brings back. -/
def State.Near (g : Geometry) (s t : State) : Prop :=
  ∃ cycles diagnostics outputs argument stack, s.regs.stack.Agrees g stack ∧
    t = { s with
      totalCycles := cycles
      diagnostics := diagnostics
      outputs := outputs
      argument := argument
      regs := { s.regs with stack } }

theorem State.Near.refl (g : Geometry) (s : State) : s.Near g s :=
  ⟨_, _, _, _, _, .refl g _, rfl⟩

/-- Registers and timer are no wider than they are. -/
structure State.Sound (g : Geometry) (s : State) : Prop where
  regs : s.regs.Narrow
  pc : g.Reaches s.regs.pc
  lastPc : g.Reaches s.lastPc
  timer : ∀ left, s.timer = some left → 0 < left ∧ left < 4096

/-- Latching a port leaves the others alone. -/
theorem Registers.port_setPort (r : Registers) (port other value : UInt8) :
    (r.setPort port value).port other =
      if port.toNat % 16 = other.toNat % 16 then value else r.port other := by
  unfold Registers.port setPort
  exact Vector.getElem_set (Nat.mod_lt _ (by decide)) (Nat.mod_lt _ (by decide))

/-- What the call stack and the ports of a part can hold: return addresses inside the program space
in the slots that it uses, nothing in the others, and on every port what its pins can be driven
with. -/
structure Registers.Tidy (g : Geometry) (r : Registers) : Prop where
  used : ∀ level < CallStack.used g.stackLevels, g.Reaches (r.stack.slot level)
  unused : ∀ level, CallStack.used g.stackLevels ≤ level → r.stack.slot level = 0
  ports : ∀ port, Ucom4.Narrow port → g.ports.Latches port (r.port port)

namespace Registers.Tidy

variable {g : Geometry} {r : Registers}

theorem push (tidy : r.Tidy g) {address : UInt16} (reaches : g.Reaches address) :
    Tidy g { r with stack := r.stack.push g.stackLevels address } where
  used level below := by
    show g.Reaches ((r.stack.push g.stackLevels address).slot level)
    rw [CallStack.slot_push _ _ _ below]
    split
    · exact reaches
    · exact tidy.used _ (by omega)
  unused level beyond :=
    (CallStack.slot_push_unused _ _ _ beyond).trans (tidy.unused level beyond)
  ports := tidy.ports

theorem drop (tidy : r.Tidy g) : Tidy g { r with stack := r.stack.drop g.stackLevels } where
  used level below := by
    show g.Reaches ((r.stack.drop g.stackLevels).slot level)
    rw [CallStack.slot_drop _ _ below]
    split
    · exact tidy.used _ ‹_›
    · exact tidy.used _ below
  unused level beyond := (CallStack.slot_drop_unused _ _ beyond).trans (tidy.unused level beyond)
  ports := tidy.ports

theorem setPort (tidy : r.Tidy g) {port value : UInt8} (narrow : Ucom4.Narrow port)
    (latches : g.ports.Latches port value) : (r.setPort port value).Tidy g where
  used := tidy.used
  unused := tidy.unused
  ports other narrow' := by
    rw [port_setPort]
    unfold Ucom4.Narrow at narrow narrow'
    split
    · next same =>
      obtain rfl : port = other := UInt8.toNat_inj.mp (by omega)
      exact latches
    · exact tidy.ports other narrow'

end Registers.Tidy

/-- What there is to see of the timer. -/
structure Dial where
  /-- Cycles left while it runs. -/
  left : Option Nat
  /-- The flag that it ran out. -/
  out : Bool
  deriving DecidableEq, Repr

namespace Dial

/-- The timer once some cycles have passed. -/
def after (cycles : Nat) : Dial → Dial
  | ⟨none, out⟩ => ⟨none, out⟩
  | ⟨some left, out⟩ => if left ≤ cycles then ⟨none, true⟩ else ⟨some (left - cycles), out⟩

/-- Whether cycles pass in one piece or in two, the timer runs out once. -/
theorem after_after (first second : Nat) (dial : Dial) :
    (dial.after first).after second = dial.after (first + second) := by
  obtain ⟨_ | left, out⟩ := dial
  · rfl
  unfold after
  dsimp only
  by_cases early : left ≤ first
  · rw [if_pos early, if_pos (by omega)]
  rw [if_neg early]
  dsimp only
  by_cases late : left - first ≤ second
  · rw [if_pos late, if_pos (by omega)]
  · rw [if_neg late, if_neg (by omega), Nat.sub_sub]

end Dial

/-- A change that takes near states to near states. -/
def State.Even (g : Geometry) (change : State → State) : Prop :=
  ∀ (s : State) cycles diagnostics outputs argument stack, s.regs.stack.Agrees g stack →
    (change s).Near g (change { s with
      totalCycles := cycles
      diagnostics := diagnostics
      outputs := outputs
      argument := argument
      regs := { s.regs with stack } })

/-- Such a change that also keeps a sound state so, and tidy registers. -/
structure State.Proper (g : Geometry) (change : State → State) : Prop where
  even : Even g change
  sound : ∀ s, s.Sound g → (change s).Sound g
  tidy : ∀ s, s.Sound g → s.regs.Tidy g → (change s).regs.Tidy g

namespace State

variable {g : Geometry}

/-- A change that leaves alone what a sound state is about. -/
theorem Proper.aside {change : State → State}
    (keeps : ∀ s, (change s).regs = s.regs ∧ (change s).lastPc = s.lastPc ∧
      (change s).timer = s.timer) (even : Even g change) : Proper g change where
  even := even
  sound s sound := by
    obtain ⟨regs, lastPc, timer⟩ := keeps s
    exact ⟨regs ▸ sound.regs, regs ▸ sound.pc, lastPc ▸ sound.lastPc, timer ▸ sound.timer⟩
  tidy s _ tidy := by rw [(keeps s).1]; exact tidy

/-- A plain change leaves the call stack alone. -/
theorem stack_plain {change : Registers → Registers} (plain : Registers.Plain change)
    (r : Registers) : (change r).stack = r.stack := by
  have same := congrArg Registers.stack (plain.stack r r.stack)
  exact same

/-- A plain change of the registers. -/
theorem Proper.onRegs {change : Registers → Registers} (plain : Registers.Plain change) :
    Proper g fun s => { s with regs := change s.regs } where
  even s cycles diagnostics outputs argument stack agrees := by
    refine ⟨cycles, diagnostics, outputs, argument, stack, ?_, ?_⟩
    · rw [← stack_plain plain s.regs] at agrees
      exact agrees
    · dsimp only
      rw [plain.stack]
  sound s sound := by
    refine ⟨plain.narrow _ sound.regs, ?_, sound.lastPc, sound.timer⟩
    show g.Reaches (change s.regs).pc
    rw [(plain.keeps s.regs).1]
    exact sound.pc
  tidy s _ tidy := by
    have stack := stack_plain plain s.regs
    obtain ⟨-, ports, -⟩ := plain.keeps s.regs
    refine ⟨?_, ?_, fun port narrow => ?_⟩
    · rw [stack]; exact tidy.used
    · rw [stack]; exact tidy.unused
    · show g.ports.Latches port ((change s.regs).port port)
      unfold Registers.port
      rw [ports]
      exact tidy.ports port narrow

/-- A change of the interrupt flag. -/
theorem Proper.onRequest (pending : Bool) :
    Proper g fun s => { s with regs := { s.regs with intFlag := pending } } where
  even _ _ _ _ _ _ agrees := ⟨_, _, _, _, _, agrees, rfl⟩
  sound s sound := by
    obtain ⟨acc, dpl, dph⟩ := sound.regs
    exact ⟨⟨acc, dpl, dph⟩, sound.pc, sound.lastPc, sound.timer⟩
  tidy _ _ tidy := ⟨tidy.used, tidy.unused, tidy.ports⟩

/-- A jump inside the program space. -/
theorem Proper.jump {target : Registers → UInt16}
    (blind : ∀ (r : Registers) stack, target { r with stack } = target r)
    (reaches : ∀ r, g.Reaches (target r)) :
    Proper g fun s => { s with regs := { s.regs with pc := target s.regs } } where
  even s cycles diagnostics outputs argument stack agrees := by
    refine ⟨cycles, diagnostics, outputs, argument, stack, agrees, ?_⟩
    dsimp only
    rw [blind]
  sound s sound := by
    obtain ⟨acc, dpl, dph⟩ := sound.regs
    exact ⟨⟨acc, dpl, dph⟩, reaches s.regs, sound.lastPc, sound.timer⟩
  tidy _ _ tidy := ⟨tidy.used, tidy.unused, tidy.ports⟩

/-! ### The timer -/

/-- Whether the timer runs out within some cycles. -/
def expires (cycles : Nat) (s : State) : Bool :=
  match s.timer with
  | none => false
  | some left => left ≤ cycles

/-- The state once the timer has run for some cycles. -/
def ticked (cycles : Nat) (s : State) : State :=
  match s.timer with
  | none => s
  | some left =>
    if left ≤ cycles then { s with timer := none, regs := { s.regs with timerFlag := true } }
    else { s with timer := some (left - cycles) }

def dial (s : State) : Dial := ⟨s.timer, s.regs.timerFlag⟩

/-- A state in which the timer stands somewhere else. -/
def withDial (s : State) (dial : Dial) : State :=
  { s with timer := dial.left, regs := { s.regs with timerFlag := dial.out } }

/-- Time that passes moves the timer, and nothing else. -/
theorem ticked_eq (cycles : Nat) (s : State) : s.ticked cycles = s.withDial (s.dial.after cycles) := by
  unfold ticked withDial dial Dial.after
  cases runs : s.timer with
  | none =>
    dsimp only
    rw [← runs]
  | some left =>
    dsimp only
    split <;> rfl

theorem totalCycles_ticked (cycles : Nat) (s : State) :
    (s.ticked cycles).totalCycles = s.totalCycles := by
  rw [ticked_eq]
  rfl

theorem even_ticked (cycles : Nat) : Even g (ticked cycles) := by
  intro s total diagnostics outputs argument stack agrees
  rw [ticked_eq, ticked_eq]
  exact ⟨_, _, _, _, _, agrees, rfl⟩

theorem sound_ticked (cycles : Nat) (s : State) (sound : s.Sound g) :
    (s.ticked cycles).Sound g := by
  obtain ⟨⟨acc, dpl, dph⟩, pc, lastPc, timer⟩ := sound
  unfold ticked
  cases runs : s.timer with
  | none => exact ⟨⟨acc, dpl, dph⟩, pc, lastPc, timer⟩
  | some left =>
    dsimp only
    split
    · exact ⟨⟨acc, dpl, dph⟩, pc, lastPc, fun _ runs => nomatch runs⟩
    · obtain ⟨-, range⟩ := timer left runs
      refine ⟨⟨acc, dpl, dph⟩, pc, lastPc, fun rest runs => ?_⟩
      obtain rfl : left - cycles = rest := Option.some.inj runs
      omega

theorem tidy_ticked (cycles : Nat) (s : State) (tidy : s.regs.Tidy g) :
    (s.ticked cycles).regs.Tidy g := by
  rw [ticked_eq]
  exact ⟨tidy.used, tidy.unused, tidy.ports⟩

end State

theorem tickTimer_eq (w : Wiring σ) (cycles : Nat) :
    tickTimer w cycles = (do
      let s ← getState
      modifyState (·.ticked cycles)
      if s.expires cycles then
        Machine.record (.timerExpired w.name)) := by
  funext ⟨s, world⟩
  unfold tickTimer
  rw [eval_bind, eval_bind, eval_bind, eval_ite]
  show (match s.timer with
    | none => pure ()
    | some left => if left ≤ cycles then _ else _ : Exec σ Unit) _ =
      if s.expires cycles then ((), ⟨s.ticked cycles, world.record (.timerExpired w.name)⟩)
      else ((), ⟨s.ticked cycles, world⟩)
  unfold State.expires State.ticked
  cases s.timer with
  | none => rfl
  | some left =>
    dsimp only
    by_cases out : left ≤ cycles
    · rw [if_pos out, if_pos out, if_pos (decide_eq_true out)]
      rfl
    · rw [if_neg out, if_neg out, if_neg (by simpa using out)]
      rfl

/-- A timer that runs out is noted in the log. -/
theorem tickTimer_dial (w : Wiring σ) (cycles : Nat) (m : Machine State σ) :
    ∃ log, tickTimer w cycles m =
      ((), ⟨m.core.withDial (m.core.dial.after cycles), { m.world with log }⟩) := by
  rw [tickTimer_eq]
  show ∃ log, (if m.core.expires cycles then _ else _ : Exec σ Unit)
    ⟨m.core.ticked cycles, m.world⟩ = _
  rw [eval_ite, State.ticked_eq]
  split <;> exact ⟨_, rfl⟩

/-! ### What operations leave alone -/

/-- Something said of what the operations of instructions leave alone: the place of the core in its
cycle, its opcode, and its interrupt flag but for the test of that flag. -/
def Apart (P : ExecState → UInt8 → Bool → Prop) (m : Machine State σ) : Prop :=
  P m.core.exec m.core.opcode m.core.regs.intFlag

theorem respects_apart (w : Wiring σ) (P : ExecState → UInt8 → Bool → Prop) :
    Respects w w (Both (Apart P)) where
  config := rfl
  regs := by
    rintro m _ ⟨rfl, -⟩
    exact ⟨_, rfl⟩
  lastPc := by
    rintro m _ ⟨rfl, -⟩
    rfl
  change plain := Keeps.lockstep fun m holds => by
    unfold Apart at holds ⊢
    rw [← (plain.keeps m.core.regs).2.2] at holds
    exact holds
  jump _ _ := Keeps.lockstep fun _ holds => holds
  pushPc := Keeps.lockstep fun _ holds => holds
  popPc := Keeps.lockstep fun _ holds => holds
  latchPort _ := Keeps.lockstep fun _ holds => holds
  setSkip _ := Keeps.lockstep fun _ holds => holds
  startTimer _ := Keeps.lockstep fun _ holds => holds
  readProgram _ := Keeps.lockstep fun _ holds => holds
  readData _ := Keeps.lockstep fun _ holds => holds
  writeData _ _ := Keeps.lockstep fun _ holds => holds
  readIo _ := Keeps.lockstep fun _ holds => holds
  writeIo _ _ := Keeps.lockstep fun _ holds => holds
  record _ := Keeps.lockstep fun _ holds => holds

theorem tickTimer_apart (w : Wiring σ) (cycles : Nat) (P : ExecState → UInt8 → Bool → Prop) :
    Keeps (Apart P) (tickTimer w cycles) := by
  intro m holds
  obtain ⟨log, ticked⟩ := tickTimer_dial w cycles m
  rw [ticked]
  exact holds

/-- The entry of an instruction is what its opcode decodes to. -/
theorem fetchInstruction_entry (w : Wiring σ) (m : Machine State σ) :
    (fetchInstruction w m).1.2 = decode w.geometry.family (fetchInstruction w m).1.1 := by
  unfold fetchInstruction
  rw [eval_bind, eval_ite]
  split <;> rfl

/-! ## §2 Relations that are carried on -/

theorem Operates.clearPorts {w : Wiring σ} {w' : Wiring τ}
    {R : Machine State σ → Machine State τ → Prop} (operates : Operates w w' R)
    (ports : List UInt8) : Lockstep R (clearPorts w ports) (clearPorts w' ports) := by
  induction ports with
  | nil => exact .pure ()
  | cons port ports ih =>
    unfold Ucom4.clearPorts
    rw [← operates.geometry]
    exact .ite (fun _ => .bind (operates.output port 0) fun _ => ih) fun _ => ih

/-- A relation between machines that every proper change of state that leaves the clock alone and
every access to the world carry on. -/
structure Carries (w : Wiring σ) (w' : Wiring τ)
    (R : Machine State σ → Machine State τ → Prop) : Prop where
  config : w.config = w'.config
  near : ∀ {m m'}, R m m' → m.core.Near w.geometry m'.core
  modify : ∀ {change}, State.Proper w.geometry change →
    (∀ s, (change s).totalCycles = s.totalCycles) →
    Lockstep R (modifyState change) (modifyState change)
  readProgram : ∀ address, Lockstep R (Machine.readUnit w.program address)
    (Machine.readUnit w'.program address)
  readData : ∀ address, Lockstep R (Machine.readUnit w.data address)
    (Machine.readUnit w'.data address)
  writeData : ∀ address value, Lockstep R (Machine.writeUnit w.data address value)
    (Machine.writeUnit w'.data address value)
  readIo : ∀ address, Lockstep R (Machine.readUnit w.io address)
    (Machine.readUnit w'.io address)
  writeIo : ∀ address value, Lockstep R (Machine.writeUnit w.io address value)
    (Machine.writeUnit w'.io address value)
  waitProgram : Lockstep R (Machine.takeWaitStates w.program) (Machine.takeWaitStates w'.program)
  waitData : Lockstep R (Machine.takeWaitStates w.data) (Machine.takeWaitStates w'.data)
  waitIo : Lockstep R (Machine.takeWaitStates w.io) (Machine.takeWaitStates w'.io)
  signal : ∀ line asserted, Lockstep R (Machine.signal w.sink line asserted)
    (Machine.signal w'.sink line asserted)
  record : ∀ event, Lockstep R (Machine.record event) (Machine.record event)

namespace Carries

variable {w : Wiring σ} {w' : Wiring τ} {R : Machine State σ → Machine State τ → Prop}

theorem geometry (carries : Carries w w' R) : w.geometry = w'.geometry := by
  unfold Wiring.geometry
  rw [carries.config]

theorem name (carries : Carries w w' R) : w.name = w'.name := by
  unfold Wiring.name
  rw [carries.config]

/-- A program that looks at the state sees near states. -/
theorem look (carries : Carries w w' R) {α : Type} {f : State → Exec σ α}
    {f' : State → Exec τ α}
    (next : ∀ (s : State) cycles diagnostics outputs argument stack, Lockstep R (f s)
      (f' { s with
        totalCycles := cycles
        diagnostics := diagnostics
        outputs := outputs
        argument := argument
        regs := { s.regs with stack } })) :
    Lockstep R (getState >>= f) (getState >>= f') := by
  intro m m' related
  obtain ⟨cycles, diagnostics, outputs, argument, stack, -, same⟩ := carries.near related
  have inStep := next m.core cycles diagnostics outputs argument stack
  rw [← same] at inStep
  exact inStep m m' related

/-- A change that leaves alone what a sound state is about, and the clock. -/
theorem aside (carries : Carries w w' R) {change : State → State}
    (keeps : ∀ s, (change s).totalCycles = s.totalCycles ∧ (change s).regs = s.regs ∧
      (change s).lastPc = s.lastPc ∧ (change s).timer = s.timer)
    (even : State.Even w.geometry change) :
    Lockstep R (modifyState change) (modifyState change) :=
  carries.modify (.aside (fun s => (keeps s).2) even) fun s => (keeps s).1

theorem observe (carries : Carries w w' R) (cycle : BusCycle) :
    Lockstep R (modifyStatus (σ := σ) (·.observe cycle)) (modifyStatus (·.observe cycle)) :=
  carries.aside (fun _ => ⟨rfl, rfl, rfl, rfl⟩) fun _ _ _ _ _ _ agrees =>
    ⟨_, _, _, _, _, agrees, rfl⟩

theorem readBus (carries : Carries w w' R) {role : BusRole} {space : Space σ}
    {space' : Space τ} {address : UInt32}
    (access : Lockstep R (Machine.readUnit space address) (Machine.readUnit space' address)) :
    Lockstep R (readBus role space address) (readBus role space' address) :=
  .bind access fun value => .bind (carries.observe _) fun _ => .pure value

theorem writeBus (carries : Carries w w' R) {role : BusRole} {space : Space σ}
    {space' : Space τ} {address : UInt32} {value : UInt8}
    (access : Lockstep R (Machine.writeUnit space address value)
      (Machine.writeUnit space' address value)) :
    Lockstep R (writeBus role space address value) (writeBus role space' address value) :=
  .bind access fun _ => carries.observe _

/-- What every proper change carries on is respected by every instruction. -/
theorem respects (carries : Carries w w' R) : Respects w w' R where
  config := carries.config
  regs related := by
    obtain ⟨_, _, _, _, stack, -, same⟩ := carries.near related
    exact ⟨stack, congrArg State.regs same⟩
  lastPc related := by
    obtain ⟨_, _, _, _, _, -, same⟩ := carries.near related
    exact (congrArg State.lastPc same).symm
  change plain := carries.modify (.onRegs plain) fun _ => rfl
  jump blind reaches := carries.modify (.jump blind reaches) fun _ => rfl
  pushPc := by
    unfold Ucom4.pushPc
    rw [← carries.geometry]
    refine carries.modify ⟨fun s _ _ _ _ _ agrees => ?_, fun s sound => ?_, fun s sound tidy => ?_⟩
      fun _ => rfl
    · exact ⟨_, _, _, _, _, agrees.push s.regs.pc, rfl⟩
    · obtain ⟨acc, dpl, dph⟩ := sound.regs
      exact ⟨⟨acc, dpl, dph⟩, sound.pc, sound.lastPc, sound.timer⟩
    · exact tidy.push sound.pc
  popPc := by
    unfold Ucom4.popPc
    rw [← carries.geometry]
    refine carries.modify ⟨fun s cycles diagnostics outputs argument stack agrees => ?_,
      fun s sound => ?_, fun s _ tidy => ?_⟩ fun _ => rfl
    · refine ⟨cycles, diagnostics, outputs, argument, _, agrees.drop, ?_⟩
      dsimp only
      rw [agrees.top]
    · obtain ⟨acc, dpl, dph⟩ := sound.regs
      exact ⟨⟨acc, dpl, dph⟩, w.geometry.reaches_masked _, sound.lastPc, sound.timer⟩
    · have dropped := tidy.drop
      exact ⟨dropped.used, dropped.unused, dropped.ports⟩
  latchPort latches := by
    refine carries.modify ⟨fun _ _ _ _ _ _ agrees => ⟨_, _, _, _, _, agrees, rfl⟩,
      fun s sound => ?_, fun s _ tidy => tidy.setPort (narrow_nibble _) latches⟩ fun _ => rfl
    obtain ⟨acc, dpl, dph⟩ := sound.regs
    exact ⟨⟨acc, dpl, dph⟩, sound.pc, sound.lastPc, sound.timer⟩
  setSkip _ := carries.aside (fun _ => ⟨rfl, rfl, rfl, rfl⟩) fun _ _ _ _ _ _ agrees =>
    ⟨_, _, _, _, _, agrees, rfl⟩
  startTimer argument := by
    refine carries.modify ⟨fun _ _ _ _ _ _ agrees => ⟨_, _, _, _, _, agrees, rfl⟩,
      fun s sound => ?_, fun _ _ tidy => ⟨tidy.used, tidy.unused, tidy.ports⟩⟩ fun _ => rfl
    obtain ⟨acc, dpl, dph⟩ := sound.regs
    refine ⟨⟨acc, dpl, dph⟩, sound.pc, sound.lastPc, fun left runs => ?_⟩
    have cut : (argument &&& 0x3F).toNat ≤ 63 := by
      rw [UInt8.toNat_and]
      exact Nat.and_le_right
    obtain rfl : timerCycles argument = left := Option.some.inj runs
    unfold timerCycles
    omega
  readProgram address := carries.readBus (carries.readProgram address)
  readData address := carries.readBus (carries.readData address)
  writeData address value := carries.writeBus (carries.writeData address value)
  readIo address := carries.readBus (carries.readIo address)
  writeIo address value := carries.writeBus (carries.writeIo address value)
  record := carries.record

/-- The operation of an instruction. -/
theorem perform (carries : Carries w w' R) {operation : Op} (fits : operation.fits = true)
    {argument argument' : UInt8}
    (same : operation.usesArgument = true → argument = argument') :
    Lockstep R (perform w argument operation) (perform w' argument' operation) :=
  carries.respects.operates.perform fits same fun _ => carries.modify (.onRequest false) fun _ => rfl

/-- The timer of a core after some cycles. -/
theorem tickTimer (carries : Carries w w' R) (cycles : Nat) :
    Lockstep R (tickTimer w cycles) (tickTimer w' cycles) := by
  rw [tickTimer_eq, tickTimer_eq, ← carries.name]
  refine carries.look fun s _ _ _ _ _ => .bind (carries.modify ?_ fun s => ?_) fun _ =>
    .ite (fun _ => carries.record _) fun _ => .pure ()
  · exact ⟨State.even_ticked cycles, State.sound_ticked cycles,
      fun s _ => State.tidy_ticked cycles s⟩
  · exact State.totalCycles_ticked cycles s

/-! ## §3 Between two looks at the lines -/

theorem drive (carries : Carries w w' R) (line : OutputLine) (asserted : Bool) :
    Lockstep R (drive w line asserted) (drive w' line asserted) := by
  refine .bind (carries.aside (fun _ => ⟨rfl, rfl, rfl, rfl⟩) ?_) fun _ =>
    carries.signal line asserted
  exact fun _ _ _ _ _ _ agrees => ⟨_, _, _, _, _, agrees, rfl⟩

theorem drainWaitStates (carries : Carries w w' R) :
    Lockstep R (drainWaitStates w) (drainWaitStates w') := by
  refine .bind carries.waitProgram fun _ => .bind carries.waitData fun _ =>
    .bind carries.waitIo fun _ =>
    .bind (carries.aside (fun _ => ⟨rfl, rfl, rfl, rfl⟩) ?_) fun _ => .pure _
  exact fun _ _ _ _ _ _ agrees => ⟨_, _, _, _, _, agrees, rfl⟩

/-- Both sides fetch the same instruction, and where it has an argument, the same one. -/
theorem fetchInstruction (carries : Carries w w' R) {m : Machine State σ} {m' : Machine State τ}
    (related : R m m') :
    (fetchInstruction w m).1 = (fetchInstruction w' m').1 ∧
      R (fetchInstruction w m).2 (fetchInstruction w' m').2 ∧
      ((fetchInstruction w m).1.2.length = 2 →
        (fetchInstruction w m).2.core.argument = (fetchInstruction w' m').2.core.argument) := by
  have settle (opcode : UInt8) :
      Lockstep R (modifyState ({ · with opcode })) (modifyState ({ · with opcode })) :=
    carries.aside (fun _ => ⟨rfl, rfl, rfl, rfl⟩) fun _ _ _ _ _ _ agrees =>
      ⟨_, _, _, _, _, agrees, rfl⟩
  have store (argument : UInt8) :
      Lockstep R (modifyState ({ · with argument })) (modifyState ({ · with argument })) :=
    carries.aside (fun _ => ⟨rfl, rfl, rfl, rfl⟩) fun _ _ _ _ _ _ agrees =>
      ⟨_, _, _, _, _, agrees, rfl⟩
  unfold Ucom4.fetchInstruction
  rw [← carries.geometry, eval_bind, eval_bind, eval_ite, eval_ite]
  obtain ⟨opcode, related₁⟩ := carries.respects.fetch m m' related
  rw [← opcode]
  by_cases long : (decode w.geometry.family (fetch w m).1).length = 2
  · rw [if_pos long, if_pos long]
    obtain ⟨argument, -⟩ := carries.respects.fetch _ _ related₁
    have rest := Lockstep.bind carries.respects.fetch fun argument =>
      .bind (store argument) fun _ => .bind (settle (fetch w m).1) fun _ =>
      .pure ((fetch w m).1, decode w.geometry.family (fetch w m).1)
    exact ⟨rfl, (rest _ _ related₁).2, fun _ => argument⟩
  · rw [if_neg long, if_neg long]
    exact ⟨rfl, (settle (fetch w m).1 _ _ related₁).2, fun two => absurd two long⟩

/-- A program that goes on from the instruction that it has fetched, and looks at the state. -/
theorem fetchThen (carries : Carries w w' R) {α : Type} {f : UInt8 → Entry → State → Exec σ α}
    {f' : UInt8 → Entry → State → Exec τ α}
    (next : ∀ opcode (s : State) cycles diagnostics outputs argument stack,
      ((decode w.geometry.family opcode).length = 2 → s.argument = argument) →
      Lockstep R (f opcode (decode w.geometry.family opcode) s)
        (f' opcode (decode w.geometry.family opcode) { s with
          totalCycles := cycles
          diagnostics := diagnostics
          outputs := outputs
          argument := argument
          regs := { s.regs with stack } })) :
    Lockstep R (do let (opcode, entry) ← Ucom4.fetchInstruction w; f opcode entry (← getState))
      (do let (opcode, entry) ← Ucom4.fetchInstruction w'; f' opcode entry (← getState)) := by
  intro m m' related
  obtain ⟨fetched, after, agree⟩ := carries.fetchInstruction related
  obtain ⟨cycles, diagnostics, outputs, argument, stack, -, same⟩ := carries.near after
  have entry := fetchInstruction_entry w m
  rw [entry, same] at agree
  have inStep := next (Ucom4.fetchInstruction w m).1.1 (Ucom4.fetchInstruction w m).2.core cycles
    diagnostics outputs argument stack agree _ _ after
  rw [← same, ← entry] at inStep
  rw [eval_bind, eval_bind, ← fetched]
  exact inStep

/-- The power-on of the core, for a relation that the loss of latched edges carries on. -/
theorem reset (carries : Carries w w' R)
    (edges : Lockstep R (Machine.onLatch w.number fun latch => ((), latch.discardEdges))
      (Machine.onLatch w'.number fun latch => ((), latch.discardEdges))) :
    Lockstep R (reset w) (reset w') := by
  unfold Ucom4.reset
  rw [← carries.geometry, ← carries.name]
  refine .bind (carries.modify ⟨fun _ _ _ _ _ _ agrees => ⟨_, _, _, _, _, agrees, rfl⟩,
    fun s sound => ?_, fun _ _ tidy => ⟨tidy.used, tidy.unused, tidy.ports⟩⟩ fun _ => rfl)
    fun _ => ?_
  · obtain ⟨acc, dpl, dph⟩ := sound.regs
    have zero : w.geometry.Reaches 0 := w.geometry.reaches_low (by decide)
    exact ⟨⟨acc, dpl, dph⟩, zero, zero, fun _ runs => nomatch runs⟩
  · refine .bind edges fun _ => .bind (carries.respects.operates.clearPorts _) fun _ => ?_
    exact .bind (.discard carries.drainWaitStates) fun _ => carries.record _

end Carries

/-- What becomes of an instruction once it is fetched: it is skipped, is illegal, or is carried
out. -/
def runFetched (w : Wiring σ) (pc : UInt16) (opcode : UInt8) (entry : Entry) (s : State) :
    Exec σ (Except Fault StepOutcome) := do
  if s.skip then
    return .ok (← runSkipped w pc opcode entry)
  else if entry.operation = .illegal then
    runIllegal w pc opcode entry
  else
    tickTimer w entry.cycles
    perform w s.argument entry.operation
    return .ok (← retire w pc opcode entry.cycles)

theorem runInstruction_eq (w : Wiring σ) :
    runInstruction w = (do
      let pc := (← getRegs).pc
      modifyState fun s => { s with lastPc := pc, exec := .executing }
      let (opcode, entry) ← fetchInstruction w
      runFetched w pc opcode entry (← getState)) := rfl

/-- Interrupt entry once the request is acknowledged. -/
def enterHandler (w : Wiring σ) : Exec σ StepOutcome := do
  pushPc w
  modifyRegs fun r =>
    { r with
      pc := handlerAddress &&& w.geometry.programMask
      intFlag := false
      intEnable := w.geometry.family = .ucom44 }
  drive w acknowledgeOut true
  drive w acknowledgeOut false
  let cycles := interruptCycles + (← drainWaitStates w)
  charge w cycles
  modifyStatus fun s =>
    { s with diagnostics := s.diagnostics.recordInterrupt, exec := .fetching }
  Machine.record (.interruptDispatched w.name none handlerAddress)
  return .interrupt (← getRegs).pc.toUInt32 cycles

theorem service_eq (w : Wiring σ) :
    service w = (do
      modifyStatus ({ · with exec := .servicingInterrupt })
      Machine.onLatch w.number fun latch => ((), latch.acknowledge interruptLine)
      enterHandler w) := rfl

/-- A relation between machines that changes of the clock carry on as well. -/
structure Runs (w : Wiring σ) (w' : Wiring τ)
    (R : Machine State σ → Machine State τ → Prop) : Prop extends Carries w w' R where
  change : ∀ {change}, State.Proper w.geometry change →
    Lockstep R (modifyState change) (modifyState change)

/-- The state at the beginning of an instruction. -/
def State.begun (s : State) : State := { s with lastPc := s.regs.pc, exec := .executing }

namespace Runs

variable {w : Wiring σ} {w' : Wiring τ} {R : Machine State σ → Machine State τ → Prop}

theorem carries (runs : Runs w w' R) : Carries w w' R := runs.toCarries

/-- A change that leaves alone what a sound state is about. -/
theorem aside (runs : Runs w w' R) {change : State → State}
    (keeps : ∀ s, (change s).regs = s.regs ∧ (change s).lastPc = s.lastPc ∧
      (change s).timer = s.timer) (even : State.Even w.geometry change) :
    Lockstep R (modifyState change) (modifyState change) :=
  runs.change (.aside keeps even)

theorem charge (runs : Runs w w' R) (cycles : Nat) :
    Lockstep R (charge w cycles) (charge w' cycles) := by
  refine .bind (runs.aside (fun _ => ⟨rfl, rfl, rfl⟩) ?_) fun _ =>
    runs.carries.tickTimer cycles
  exact fun _ _ _ _ _ _ agrees => ⟨_, _, _, _, _, agrees, rfl⟩

theorem enterHandler (runs : Runs w w' R) : Lockstep R (enterHandler w) (enterHandler w') := by
  unfold Ucom4.enterHandler
  rw [← runs.carries.geometry, ← runs.carries.name]
  refine .bind runs.carries.respects.pushPc fun _ => .bind (runs.change ⟨?even, ?sound, ?tidy⟩)
    fun _ => .bind (runs.carries.drive _ _) fun _ => .bind (runs.carries.drive _ _) fun _ =>
    .bind runs.carries.drainWaitStates fun waits => .bind (runs.charge _) fun _ =>
    .bind (runs.aside (fun _ => ⟨rfl, rfl, rfl⟩) ?ends) fun _ =>
    .bind (runs.carries.record _) fun _ => runs.carries.respects.look fun _ _ => .pure _
  case even => exact fun _ _ _ _ _ _ agrees => ⟨_, _, _, _, _, agrees, rfl⟩
  case sound =>
    intro s sound
    obtain ⟨acc, dpl, dph⟩ := sound.regs
    exact ⟨⟨acc, dpl, dph⟩, w.geometry.reaches_masked _, sound.lastPc, sound.timer⟩
  case tidy => exact fun _ _ tidy => ⟨tidy.used, tidy.unused, tidy.ports⟩
  case ends => exact fun _ _ _ _ _ _ agrees => ⟨_, _, _, _, _, agrees, rfl⟩

theorem retire (runs : Runs w w' R) (pc : UInt16) (opcode : UInt8) (cost : Nat) :
    Lockstep R (retire w pc opcode cost) (retire w' pc opcode cost) := by
  unfold Ucom4.retire
  rw [← runs.carries.name]
  refine .bind (runs.aside (fun _ => ⟨rfl, rfl, rfl⟩) ?ends) fun _ =>
    .bind runs.carries.drainWaitStates fun waits =>
    .bind (runs.carries.tickTimer waits) fun _ =>
    .bind (runs.aside (fun _ => ⟨rfl, rfl, rfl⟩) ?counts) fun _ =>
    .bind (runs.carries.record _) fun _ => .pure _
  case ends => exact fun _ _ _ _ _ _ agrees => ⟨_, _, _, _, _, agrees, rfl⟩
  case counts => exact fun _ _ _ _ _ _ agrees => ⟨_, _, _, _, _, agrees, rfl⟩

theorem runSkipped (runs : Runs w w' R) (pc : UInt16) (opcode : UInt8) (entry : Entry) :
    Lockstep R (runSkipped w pc opcode entry) (runSkipped w' pc opcode entry) := by
  refine .bind (runs.carries.tickTimer _) fun _ =>
    .bind (runs.aside (fun _ => ⟨rfl, rfl, rfl⟩) ?_) fun _ => runs.retire pc opcode _
  exact fun _ _ _ _ _ _ agrees => ⟨_, _, _, _, _, agrees, rfl⟩

theorem runIllegal (runs : Runs w w' R) (pc : UInt16) (opcode : UInt8) (entry : Entry) :
    Lockstep R (runIllegal w pc opcode entry) (runIllegal w' pc opcode entry) := by
  unfold Ucom4.runIllegal
  rw [← runs.carries.name, ← runs.carries.config]
  refine .bind (runs.aside (fun _ => ⟨rfl, rfl, rfl⟩) ?_) fun _ =>
    .bind (runs.carries.record _) fun _ => ?_
  · exact fun _ _ _ _ _ _ agrees => ⟨_, _, _, _, _, agrees, rfl⟩
  dsimp only
  cases w.config.policy with
  | fatal =>
    refine .bind (runs.aside (fun _ => ⟨rfl, rfl, rfl⟩) ?_) fun _ => .pure _
    exact fun _ _ _ _ _ _ agrees => ⟨_, _, _, _, _, agrees, rfl⟩
  | nop =>
    exact .bind (runs.carries.tickTimer _) fun _ =>
      .bind (runs.retire pc opcode _) fun _ => .pure _

/-- An instruction that begins notes where it is. -/
theorem begins (runs : Runs w w' R) {α : Type} {f : UInt16 → Exec σ α} {f' : UInt16 → Exec τ α}
    (next : ∀ pc, Lockstep R (f pc) (f' pc)) :
    Lockstep R
      (do
        let pc := (← getRegs).pc
        modifyState fun s => { s with lastPc := pc, exec := .executing }
        f pc)
      (do
        let pc := (← getRegs).pc
        modifyState fun s => { s with lastPc := pc, exec := .executing }
        f' pc) := by
  intro m m' related
  obtain ⟨stack, same⟩ := runs.carries.respects.regs related
  have pc : m'.core.regs.pc = m.core.regs.pc := by rw [same]
  have noted : Lockstep R (modifyState State.begun) (modifyState State.begun) :=
    runs.change ⟨fun _ _ _ _ _ _ agrees => ⟨_, _, _, _, _, agrees, rfl⟩,
      fun _ sound => ⟨sound.regs, sound.pc, sound.pc, sound.timer⟩, fun _ _ tidy => tidy⟩
  show (f m.core.regs.pc ⟨m.core.begun, m.world⟩).1 =
      (f' m'.core.regs.pc ⟨m'.core.begun, m'.world⟩).1 ∧
    R (f m.core.regs.pc ⟨m.core.begun, m.world⟩).2 (f' m'.core.regs.pc ⟨m'.core.begun, m'.world⟩).2
  rw [pc]
  exact next _ _ _ (noted m m' related).2

theorem runInstruction (runs : Runs w w' R) :
    Lockstep R (runInstruction w) (runInstruction w') := by
  rw [runInstruction_eq, runInstruction_eq]
  refine runs.begins fun pc =>
    runs.carries.fetchThen fun opcode s _ _ _ argument _ fetched => ?_
  obtain ⟨fits, long⟩ := decode_fits w.geometry.family opcode
  refine .ite (fun _ => ?_) fun _ => .ite (fun _ => ?_) fun _ => ?_
  · exact .bind (runs.runSkipped _ _ _) fun _ => .pure _
  · exact runs.runIllegal _ _ _
  · have same := runs.carries.perform fits fun uses => fetched (long uses)
    exact .bind (runs.carries.tickTimer _) fun _ => .bind same fun _ =>
      .bind (runs.retire _ _ _) fun _ => .pure _

/-- Interrupt entry, for a relation that the acknowledgement of the request carries on. -/
theorem service (runs : Runs w w' R)
    (acknowledges : Lockstep R
      (Machine.onLatch w.number fun latch => ((), latch.acknowledge interruptLine))
      (Machine.onLatch w'.number fun latch => ((), latch.acknowledge interruptLine))) :
    Lockstep R (service w) (service w') := by
  rw [service_eq, service_eq]
  refine .bind (runs.aside (fun _ => ⟨rfl, rfl, rfl⟩) ?_) fun _ => .bind acknowledges fun _ =>
    runs.enterHandler
  exact fun _ _ _ _ _ _ agrees => ⟨_, _, _, _, _, agrees, rfl⟩

end Runs

/-! ## §4 Relations that follow -/

/-- A relation between machines that follows the latch as well. -/
structure Follows (w : Wiring σ) (w' : Wiring τ)
    (R : Machine State σ → Machine State τ → Prop) : Prop extends Carries w w' R where
  onLatch : ∀ {α : Type} (act : LineLatch → α × LineLatch),
    Lockstep R (Machine.onLatch w.number act) (Machine.onLatch w'.number act)

namespace Follows

variable {w : Wiring σ} {w' : Wiring τ} {R : Machine State σ → Machine State τ → Prop}

/-- The relation also follows the power-on of the core. -/
theorem reset (follows : Follows w w' R) : Lockstep R (reset w) (reset w') :=
  follows.toCarries.reset (follows.onLatch _)

theorem sampleReset (follows : Follows w w' R) :
    Lockstep R (sampleReset w) (sampleReset w') := by
  unfold Ucom4.sampleReset
  rw [← follows.name]
  refine .bind (follows.onLatch _) fun held => follows.look fun s _ _ _ _ _ => ?_
  refine .ite (fun _ => ?_) fun _ => .ite (fun _ => ?_) fun _ => .pure held
  · refine .bind follows.reset fun _ =>
      .bind (follows.aside (fun _ => ⟨rfl, rfl, rfl, rfl⟩) ?_) fun _ => .pure held
    exact fun _ _ _ _ _ _ agrees => ⟨_, _, _, _, _, agrees, rfl⟩
  · refine .bind (follows.aside (fun _ => ⟨rfl, rfl, rfl, rfl⟩) ?_) fun _ =>
      .bind (follows.record _) fun _ => .pure held
    exact fun _ _ _ _ _ _ agrees => ⟨_, _, _, _, _, agrees, rfl⟩

theorem latchRequest (follows : Follows w w' R) :
    Lockstep R (latchRequest w) (latchRequest w') := by
  unfold Ucom4.latchRequest
  rw [← follows.config]
  refine .bind (follows.onLatch _) fun raised => .ite (fun _ => ?_) fun _ => .pure ()
  exact follows.modify (.onRequest true) fun _ => rfl

end Follows

/-- A relation between machines that follows latch and clock. -/
structure Tracks (w : Wiring σ) (w' : Wiring τ)
    (R : Machine State σ → Machine State τ → Prop) : Prop extends Follows w w' R, Runs w w' R

namespace Tracks

variable {w : Wiring σ} {w' : Wiring τ} {R : Machine State σ → Machine State τ → Prop}

theorem follows (tracks : Tracks w w' R) : Follows w w' R := tracks.toFollows

theorem runs (tracks : Tracks w w' R) : Runs w w' R := tracks.toRuns

/-- One boundary action is in lockstep. -/
theorem advance (tracks : Tracks w w' R) (remaining : Nat) :
    Lockstep R (advance w remaining) (advance w' remaining) := by
  refine .bind (tracks.runs.aside (fun _ => ⟨rfl, rfl, rfl⟩) ?_) fun _ =>
    tracks.follows.look fun s _ _ _ _ _ => ?_
  · exact fun _ _ _ _ _ _ agrees => ⟨_, _, _, _, _, agrees, rfl⟩
  dsimp only
  cases s.exec.latchedFault? with
  | some fault => exact .pure _
  | none =>
    refine .bind tracks.follows.sampleReset fun held =>
      .ite (fun _ => .bind (tracks.runs.charge _) fun _ => .pure _) fun _ =>
      .bind tracks.follows.latchRequest fun _ => tracks.follows.look fun s _ _ _ _ _ => ?_
    exact .ite (fun _ => .bind (tracks.runs.service (tracks.follows.onLatch _)) fun _ => .pure _)
      fun _ => tracks.runs.runInstruction

end Tracks

/-! ## §5 Relations that are followed -/

/-- Two cores of one configuration whose surroundings answer alike in related worlds, whatever
their latches hold. -/
structure Wiring.Accords (Q : World σ → World τ → Prop) (w : Wiring σ) (w' : Wiring τ) : Prop
    extends OutputsCoupled Q w.sink w'.sink where
  config : w.config = w'.config
  program : Space.Coupled Q w.program w'.program
  data : Space.Coupled Q w.data w'.data
  io : Space.Coupled Q w.io w'.io

/-- Two cores of one configuration whose surroundings answer alike in related worlds. -/
structure Wiring.Coupled (Q : World σ → World τ → Prop) (w : Wiring σ) (w' : Wiring τ) : Prop
    extends Accords Q w w', PlacesCoupled Q w.number w'.number w.sink w'.sink

/-- Near cores stay so in worlds that accord, however much more the relation between them asks, as
long as proper changes keep it. -/
theorem Wiring.Accords.carries {Q : World σ → World τ → Prop} {w : Wiring σ} {w' : Wiring τ}
    (accords : Accords Q w w') {S : State → State → Prop}
    (near : ∀ s t, S s t → s.Near w.geometry t)
    (keeps : ∀ {change}, State.Proper w.geometry change →
      (∀ s, (change s).totalCycles = s.totalCycles) → ∀ s t, S s t → S (change s) (change t)) :
    Carries w w' (Across S Q) where
  config := accords.config
  near related := near _ _ related.1
  modify proper clock := .modifyCore (keeps proper clock)
  readProgram address := .onWorld (accords.program.read address)
  readData address := .onWorld (accords.data.read address)
  writeData address value := .onWorld (accords.data.write address value)
  readIo address := .onWorld (accords.io.read address)
  writeIo address value := .onWorld (accords.io.write address value)
  waitProgram := .onWorld accords.program.waits
  waitData := .onWorld accords.data.waits
  waitIo := .onWorld accords.io.waits
  signal line asserted := .onWorld (accords.sink line asserted)
  record event := .onWorld (accords.record event)

/-- The same where the latches are coupled, too. -/
theorem Wiring.Coupled.follows {Q : World σ → World τ → Prop} {w : Wiring σ} {w' : Wiring τ}
    (coupled : Coupled Q w w') {S : State → State → Prop}
    (near : ∀ s t, S s t → s.Near w.geometry t)
    (keeps : ∀ {change}, State.Proper w.geometry change →
      (∀ s, (change s).totalCycles = s.totalCycles) → ∀ s t, S s t → S (change s) (change t)) :
    Follows w w' (Across S Q) where
  toCarries := coupled.toAccords.carries near keeps
  onLatch act := .onWorld (coupled.latch act)

/-- Equal cores stay equal in worlds that accord. -/
theorem Wiring.Accords.runs_eq {Q : World σ → World τ → Prop} {w : Wiring σ} {w' : Wiring τ}
    (accords : Accords Q w w') : Runs w w' (Across Eq Q) where
  toCarries := by
    refine accords.carries ?_ ?_
    · rintro s _ rfl
      exact .refl _ s
    · rintro change _ _ s _ rfl
      rfl
  change _ := .modifyCore (by rintro s _ rfl; rfl)

/-- Equal cores stay equal in coupled worlds. -/
theorem Wiring.Coupled.tracks_eq {Q : World σ → World τ → Prop} {w : Wiring σ} {w' : Wiring τ}
    (coupled : Coupled Q w w') : Tracks w w' (Across Eq Q) where
  toRuns := coupled.toAccords.runs_eq
  onLatch act := .onWorld (coupled.latch act)

/-- Near cores stay near in coupled worlds. -/
theorem Wiring.Coupled.tracks_near {Q : World σ → World τ → Prop} {w : Wiring σ} {w' : Wiring τ}
    (coupled : Coupled Q w w') : Tracks w w' (Across (State.Near w.geometry) Q) where
  toFollows := by
    refine coupled.follows (fun _ _ near => near) ?_
    rintro change proper - s _ ⟨cycles, diagnostics, outputs, argument, stack, agrees, rfl⟩
    exact proper.even s cycles diagnostics outputs argument stack agrees
  change proper := by
    refine .modifyCore ?_
    rintro s _ ⟨cycles, diagnostics, outputs, argument, stack, agrees, rfl⟩
    exact proper.even s cycles diagnostics outputs argument stack agrees

/-- What every proper change keeps of a state, one core keeps in whatever world. -/
theorem tracks_kept (w : Wiring σ) {P : State → Prop}
    (keeps : ∀ {change}, State.Proper w.geometry change → ∀ s, P s → P (change s)) :
    Tracks w w (Both fun m : Machine State σ => P m.core) where
  config := rfl
  near := by
    rintro m _ ⟨rfl, _⟩
    exact .refl _ m.core
  modify proper _ := Keeps.lockstep fun m holds => keeps proper m.core holds
  readProgram _ := Keeps.lockstep fun _ holds => holds
  readData _ := Keeps.lockstep fun _ holds => holds
  writeData _ _ := Keeps.lockstep fun _ holds => holds
  readIo _ := Keeps.lockstep fun _ holds => holds
  writeIo _ _ := Keeps.lockstep fun _ holds => holds
  waitProgram := Keeps.lockstep fun _ holds => holds
  waitData := Keeps.lockstep fun _ holds => holds
  waitIo := Keeps.lockstep fun _ holds => holds
  signal _ _ := Keeps.lockstep fun _ holds => holds
  onLatch _ := Keeps.lockstep fun _ holds => holds
  record _ := Keeps.lockstep fun _ holds => holds
  change proper := Keeps.lockstep fun m holds => keeps proper m.core holds

/-- A core whose state is sound. -/
def SoundCore (g : Geometry) (m : Machine State σ) : Prop := m.core.Sound g

theorem tracks_sound (w : Wiring σ) : Tracks w w (Both (SoundCore w.geometry)) :=
  tracks_kept w fun proper => proper.sound

/-- Nothing but charging moves the clock of a core, and its world keeps what every access to it
keeps. -/
theorem Wiring.Coupled.follows_clock {V : World σ → Prop} {w : Wiring σ}
    (coupled : Coupled (Both V) w w) (cycles : Nat) :
    Follows w w (Across (fun s t => s = t ∧ s.totalCycles = cycles) (Both V)) := by
  refine coupled.follows ?_ ?_
  · rintro s _ ⟨rfl, _⟩
    exact .refl _ s
  · rintro change _ clock s _ ⟨rfl, before⟩
    exact ⟨rfl, (clock s).trans before⟩

end Microboard.Ucom4
