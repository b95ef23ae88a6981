import Microboard.Proofs.CoreLockstep
import Microboard.Proofs.Scheduling.Slots

/-!
# Scheduling cores that do not see each other

Cores that share neither devices nor latches behave in a scheduler as each of them would alone.

- **§1** Cores that do not see each other.
- **§2** A slot and a lone run of its core.
- **§3** One slot after any number of quanta.
-/

namespace Microboard.Scheduler

variable {σ : Type}

/-! ## §1 Separate cores -/

/-- Every core has a part of the devices and a latch of its own, and reaches nothing that belongs
to another. -/
def Separate {ρ : Nat → Type} (view : (i : Nat) → σ → ρ i) (cores : List (Core σ)) : Prop :=
  ∀ i core, cores[i]? = some core → Core.Within (view i) core.wiring ∧
    ∀ j other, cores[j]? = some other → j ≠ i →
      Core.Outside (Core.vantage (view i) core.wiring) other.wiring

/-! ## §2 Lone runs -/

/-- What a core does on its own, in a world, until a time. -/
def loneRun (core : Core σ) (world : World σ) (time : Nat) :
    Except Fault RunOutcome × Machine (Core σ) σ :=
  Core.run (cyclesAt time core.clockHz core.clocksPerCycle) ⟨core, world⟩

/-- The slot holds the core that a run leaves behind, has counted its cycles and notes its fault,
and its world looks as the run has left it. -/
structure Mirrors {ρ : Type} (p : Vantage σ ρ) (core : Core σ) (m : Machine (Slot σ) σ)
    (ran : Except Fault RunOutcome × Machine (Core σ) σ) : Prop where
  same : m.core.core.cleared = ran.2.core.cleared
  executed : m.core.executed = ran.2.core.totalCycles - core.totalCycles
  fault : m.core.fault = Core.faultOf ran.1
  looks : p.Same p m.world ran.2.world

variable {ρ : Type} {view : σ → ρ} {core : Core σ}

/-- Machines that differ in the note of the last bus cycles. -/
theorem parts_of_unobserved {m m' : Machine (Core σ) σ}
    (same : Core.unobserved m = Core.unobserved m') :
    m.core.cleared = m'.core.cleared ∧ m.core.totalCycles = m'.core.totalCycles ∧
      m.world = m'.world := by
  obtain ⟨cores, worlds⟩ := Machine.mk.inj same
  have clocks := congrArg Core.totalCycles cores
  simp only [Core.totalCycles_cleared] at clocks
  exact ⟨cores, clocks, worlds⟩

/-- What mirrors a run mirrors every run that ends alike. -/
theorem Mirrors.of_alike {p : Vantage σ ρ} {m : Machine (Slot σ) σ}
    {ran ran' : Except Fault RunOutcome × Machine (Core σ) σ} (mirrors : Mirrors p core m ran)
    (answer : Core.faultOf ran'.1 = Core.faultOf ran.1)
    (left : Core.unobserved ran'.2 = Core.unobserved ran.2) : Mirrors p core m ran' := by
  obtain ⟨cores, clocks, worlds⟩ := parts_of_unobserved left
  refine ⟨mirrors.same.trans cores.symm, ?_, mirrors.fault.trans answer.symm, ?_⟩
  · rw [clocks]
    exact mirrors.executed
  · rw [worlds]
    exact mirrors.looks

/-- A slot mirrors a run in every world that looks as the run has left it. -/
theorem Mirrors.relocate {p : Vantage σ ρ} {m : Machine (Slot σ) σ}
    {ran : Except Fault RunOutcome × Machine (Core σ) σ} (mirrors : Mirrors p core m ran)
    {world : World σ} (looks : p.Same p world ran.2.world) : Mirrors p core ⟨m.core, world⟩ ran :=
  ⟨mirrors.same, mirrors.executed, mirrors.fault, looks⟩

/-- The clock of a core does not go back in a run, and its wiring outlasts it. -/
theorem run_later {budget : Nat} (range : budget ≤ counterMax) (m : Machine (Core σ) σ) :
    Later m.core.totalCycles (Core.run budget m).2.core.totalCycles ∧
      (Core.run budget m).2.core.wiring = m.core.wiring := by
  obtain ⟨⟨-, wired⟩, accounts⟩ := Core.run_accounts (Core.calm_anywhere m.core.wiring) range
    m.core.totalCycles m ⟨⟨trivial, rfl⟩, rfl⟩
  exact ⟨accounts.later, wired⟩

/-- A run that has used up its budget took the cycles that the clock shows. -/
theorem run_clock {budget : Nat} (range : budget ≤ counterMax) {m m₁ : Machine (Core σ) σ}
    {done : RunOutcome} (ran : Core.run budget m = (.ok done, m₁))
    (ticking : m₁.core.totalCycles < counterMax) :
    m₁.core.totalCycles = m.core.totalCycles + done.cycles := by
  have accounts := (Core.run_accounts (Core.calm_anywhere m.core.wiring) range
    m.core.totalCycles m ⟨⟨trivial, rfl⟩, rfl⟩).2
  rw [ran] at accounts
  obtain ⟨-, -, -, moved⟩ := accounts
  unfold Moved at moved
  dsimp only at moved
  omega

/-- The clock of a core shows no less after a longer run. -/
theorem loneRun_later (spares : core.SparesReset) (alone : World σ) {now now' : Nat}
    (later : now ≤ now') :
    Later (loneRun core alone now).2.core.totalCycles
      (loneRun core alone now').2.core.totalCycles := by
  obtain ⟨second, whole⟩ :=
    Nat.exists_eq_add_of_le (cyclesAt_mono later core.clockHz core.clocksPerCycle)
  have range := whole ▸ cyclesAt_le now' core.clockHz core.clocksPerCycle
  unfold loneRun
  rw [whole]
  rcases ran : Core.run (cyclesAt now core.clockHz core.clocksPerCycle) ⟨core, alone⟩ with
    ⟨fault | done, m₁⟩
  -- the longer run stops at the fault of the shorter one
  · obtain ⟨-, left⟩ := Core.run_faulted range spares ran
    exact (Later.refl _).of_eq (parts_of_unobserved left).2.1
  · obtain ⟨-, left⟩ := Core.run_resumed range spares ran
    have later := (run_later (Nat.le_trans (Nat.sub_le _ done.cycles) range) m₁).1
    exact later.of_eq (parts_of_unobserved left).2.1

theorem Mirrors.wired {p : Vantage σ ρ} {m : Machine (Slot σ) σ} {now : Nat} {alone : World σ}
    (mirrors : Mirrors p core m (loneRun core alone now)) :
    m.core.core.wiring = core.wiring := by
  have wired := (run_later (cyclesAt_le now core.clockHz core.clocksPerCycle) ⟨core, alone⟩).2
  have same := congrArg Core.wiring mirrors.same
  simp only [Core.wiring_cleared] at same
  exact same.trans wired

/-- A slot that is behind runs as its core would from a machine that looks the same. -/
theorem catchUp_level {Q : World σ → World σ → Prop} {w : Core.Wiring σ}
    (coupled : Core.Coupled Q w)
    (records : ∀ world world' event, Q world world' → Q (world.record event) world')
    {slot : Slot σ} {world : World σ} {m : Machine (Core σ) σ}
    (level : Core.Level Q w ⟨slot.core, world⟩ m) {now : Nat} (working : slot.fault = none)
    (behind : slot.executed < slot.target now) (index : Nat) :
    let m' := (catchUp now index ⟨slot, world⟩).2
    let ran := Core.run (slot.target now - slot.executed) m
    m'.core.core.cleared = ran.2.core.cleared ∧
      m'.core.executed = slot.executed + (ran.2.core.totalCycles - m.core.totalCycles) ∧
      m'.core.fault = Core.faultOf ran.1 ∧ Q m'.world ran.2.world := by
  have goes : ¬(slot.fault.isSome ∨ slot.target now ≤ slot.executed) := by
    rw [working]
    simpa using behind
  -- the slot's core and the lone one run in lockstep, so both clocks move alike
  have inStep := Core.run_level coupled (slot.target now - slot.executed) _ _ level
  have clock : slot.core.totalCycles = m.core.totalCycles := level.clock
  rw [catchUp_eq, if_neg goes]
  dsimp only
  revert inStep
  obtain ⟨answer, core', world'⟩ :=
    Core.run (slot.target now - slot.executed) ⟨slot.core, world⟩
  obtain ⟨answer', m'⟩ := Core.run (slot.target now - slot.executed) m
  rintro ⟨rfl, after⟩
  have clock' : core'.totalCycles = m'.core.totalCycles := after.clock
  have count : slot.executed + (core'.totalCycles - slot.core.totalCycles) =
      slot.executed + (m'.core.totalCycles - m.core.totalCycles) := by rw [clock, clock']
  cases answer with
  | ok outcome => exact ⟨after.cores, count, working, records _ _ _ after.worlds⟩
  | error fault => exact ⟨after.cores, count, rfl, records _ _ _ after.worlds⟩

/-- A slot that mirrors a lone run and catches up with a later time mirrors the lone run until
then. -/
theorem Mirrors.catchUp {alone : World σ} {now now' : Nat} {slot : Slot σ} {world : World σ}
    (mirrors : Mirrors (Core.vantage view core.wiring) core ⟨slot, world⟩
      (loneRun core alone now))
    (later : now ≤ now') (within : Core.Within view core.wiring) (spares : core.SparesReset)
    (ticking : (loneRun core alone now').2.core.totalCycles < counterMax) (index : Nat) :
    Mirrors (Core.vantage view core.wiring) core (catchUp now' index ⟨slot, world⟩).2
      (loneRun core alone now') := by
  have wired := mirrors.wired
  have target : slot.target now' = cyclesAt now' core.clockHz core.clocksPerCycle := by
    unfold Slot.target
    rw [Core.clockHz_congr wired, Core.clocksPerCycle_congr wired]
  -- the longer run is the shorter one and what it leaves over
  obtain ⟨second, whole⟩ :=
    Nat.exists_eq_add_of_le (cyclesAt_mono later core.clockHz core.clocksPerCycle)
  have range := whole ▸ cyclesAt_le now' core.clockHz core.clocksPerCycle
  unfold loneRun at mirrors ticking ⊢
  rw [whole] at target ticking ⊢
  rcases ran : Core.run (cyclesAt now core.clockHz core.clocksPerCycle) ⟨core, alone⟩ with
    ⟨fault | done, m₁⟩
  -- the lone run has ended with a fault, so the slot is parked and both stay as they are
  · obtain ⟨answer, left⟩ := Core.run_faulted range spares ran
    rw [ran] at mirrors
    have parked : slot.fault ≠ none := by
      rw [mirrors.fault]
      exact Option.some_ne_none fault
    rw [catchUp_parked parked]
    exact mirrors.of_alike answer left
  · obtain ⟨answer, left⟩ := Core.run_resumed range spares ran
    obtain ⟨-, clocks, -⟩ := parts_of_unobserved left
    rw [ran] at mirrors
    have counted := mirrors.executed
    have later := (run_later (Nat.le_trans (Nat.sub_le _ done.cycles) range) m₁).1
    have taken := run_clock (cyclesAt_le _ _ _) ran (by unfold Later at later; omega)
    dsimp only at counted taken
    -- what the slot has counted is what the shorter run took
    have executed : slot.executed = done.cycles := by omega
    by_cases ahead : slot.target now' ≤ slot.executed
    · -- nothing is left over, so the longer run does no more than the shorter one
      have nothing : cyclesAt now core.clockHz core.clocksPerCycle + second - done.cycles = 0 := by
        omega
      rw [nothing, (Core.run_zero m₁).1] at answer
      rw [nothing, (Core.run_zero m₁).2] at left
      rw [catchUp_ahead ahead]
      exact mirrors.of_alike answer left
    -- the slot runs for what the longer run has left over of its budget
    · have level : Core.Level _ core.wiring ⟨slot.core, world⟩ m₁ :=
        ⟨wired, mirrors.same, mirrors.looks⟩
      have caught := catchUp_level within.coupled (fun _ _ _ looks => looks) level
        mirrors.fault (Nat.lt_of_not_le ahead) index
      rw [target, executed] at caught
      obtain ⟨same, count, fault, looks⟩ := caught
      refine Mirrors.of_alike ⟨same, ?_, fault, looks⟩ answer left
      rw [count]
      unfold Later at later
      omega

/-! ## §3 Quanta -/

/-- A core that joins at time zero. -/
def fresh (core : Core σ) : Slot σ := { core, executed := 0 }

/-- Cores that join at time zero have used no cycles. -/
theorem foldl_add (s : Scheduler σ) (start : s.now = 0) (cores : List (Core σ)) :
    (cores.foldl add s).slots = s.slots ++ cores.map fresh ∧
      (cores.foldl add s).quantum = s.quantum ∧ (cores.foldl add s).now = 0 := by
  induction cores generalizing s with
  | nil => exact ⟨(List.append_nil _).symm, rfl, start⟩
  | cons core cores ih =>
    have joins : (s.add core).slots = s.slots ++ [fresh core] := by
      unfold add fresh
      rw [start, cyclesAt_zero]
    obtain ⟨slots, quantum, now⟩ := ih (s.add core) start
    refine ⟨?_, quantum, now⟩
    rw [joins, List.append_assoc] at slots
    exact slots

/-- Catching up changes no wiring. -/
theorem wirings_catchUpAll (now index : Nat) (slots : List (Slot σ)) (world : World σ) :
    (catchUpAll now slots index world).1.map (·.core.wiring) = slots.map (·.core.wiring) := by
  induction slots generalizing index world with
  | nil => rfl
  | cons slot slots ih =>
    have wired := (catchUp_spec (Core.calm_anywhere slot.core.wiring) (fun _ _ _ => trivial) rfl
      now index world trivial).2.1
    show (catchUp now index ⟨slot, world⟩).2.core.core.wiring ::
      (catchUpAll now slots (index + 1) _).1.map (·.core.wiring) = _
    rw [wired, ih]
    rfl

/-- The scheduler after some quanta of a length, over cores with the given wirings. -/
structure Paced (quantum count : Nat) (wirings : List (Core.Wiring σ))
    (m : Machine (Scheduler σ) σ) : Prop where
  length : m.core.quantum = quantum
  now : m.core.now = count * quantum
  wirings : m.core.slots.map (·.core.wiring) = wirings

theorem Paced.start {quantum : Nat} {empty : Scheduler σ}
    (created : Scheduler.create quantum = .ok empty) (cores : List (Core σ)) (world : World σ) :
    Paced quantum 0 (cores.map (·.wiring)) ⟨cores.foldl add empty, world⟩ ∧
      (cores.foldl add empty).slots = cores.map fresh := by
  unfold Scheduler.create at created
  by_cases pos : 0 < quantum
  · rw [dif_pos pos] at created
    obtain rfl := Except.ok.inj created
    obtain ⟨slots, length, now⟩ := foldl_add ⟨[], quantum, 0, pos⟩ rfl cores
    refine ⟨⟨length, now.trans (Nat.zero_mul quantum).symm, ?_⟩, slots⟩
    dsimp only
    rw [slots, List.nil_append, List.map_map]
    rfl
  · rw [dif_neg pos] at created
    cases created

theorem Paced.runQuantum {quantum count : Nat} {wirings : List (Core.Wiring σ)}
    {m : Machine (Scheduler σ) σ} (paced : Paced quantum count wirings m)
    (range : (count + 1) * quantum ≤ counterMax) :
    Paced quantum (count + 1) wirings (Scheduler.runQuantum m).2 where
  length := paced.length
  now := by
    have next := Nat.succ_mul count quantum
    rw [now_runQuantum, paced.now, paced.length, satAdd_eq (next ▸ range)]
    exact next.symm
  wirings := (wirings_catchUpAll _ _ _ _).trans paced.wirings

/-- In a quantum a slot goes on mirroring the lone run of its core, whatever the other cores do
out of its sight. -/
theorem Mirrors.runQuantum {quantum count : Nat} {cores : List (Core σ)} {i : Nat}
    (within : Core.Within view core.wiring)
    (others : ∀ j other, cores[j]? = some other → j ≠ i →
      Core.Outside (Core.vantage view core.wiring) other.wiring)
    (spares : core.SparesReset) {alone : World σ} {m : Machine (Scheduler σ) σ}
    (paced : Paced quantum count (cores.map (·.wiring)) m)
    (range : (count + 1) * quantum ≤ counterMax) {slot : Slot σ}
    (here : m.core.slots[i]? = some slot)
    (mirrors : Mirrors (Core.vantage view core.wiring) core ⟨slot, m.world⟩
      (loneRun core alone (count * quantum)))
    (ticking : (loneRun core alone ((count + 1) * quantum)).2.core.totalCycles < counterMax) :
    ∃ slot', (Scheduler.runQuantum m).2.core.slots[i]? = some slot' ∧
      Mirrors (Core.vantage view core.wiring) core ⟨slot', (Scheduler.runQuantum m).2.world⟩
        (loneRun core alone ((count + 1) * quantum)) := by
  obtain ⟨⟨slots, quantum', now, pos⟩, world⟩ := m
  have next : satAdd now quantum' = (count + 1) * quantum := (paced.runQuantum range).now
  have later : count * quantum ≤ (count + 1) * quantum :=
    Nat.mul_le_mul_right quantum (Nat.le_succ count)
  -- the other slots have the wirings of the other cores
  have unseen (target : World σ) : ∀ j other, slots[j]? = some other → j ≠ i →
      CatchesUpIn ((Core.vantage view core.wiring).Same (Core.vantage view core.wiring) · target)
        (satAdd now quantum') other := by
    intro j other there apart index world looks
    have wiring := congrArg (·[j]?) paced.wirings
    simp only [List.getElem?_map, there, Option.map_some] at wiring
    obtain ⟨source, there, wired⟩ := Option.map_eq_some_iff.mp wiring.symm
    have calm := (others j source there apart).calm target
    exact (catchUp_spec calm (fun _ _ looks => looks) wired.symm _ index world looks).1
  -- the slots before leave its view as the shorter run left it, those after as the longer one
  obtain ⟨looks, slot', there, finished⟩ := catchUpAll_at
    (S := fun slot' => ∀ world', (Core.vantage view core.wiring).Same
      (Core.vantage view core.wiring) world'
      (loneRun core alone ((count + 1) * quantum)).2.world →
      Mirrors (Core.vantage view core.wiring) core ⟨slot', world'⟩
        (loneRun core alone ((count + 1) * quantum)))
    here (unseen _) (unseen _)
    (fun index world looks => by
      have after := (mirrors.relocate looks).catchUp later within spares ticking index
      rw [next]
      exact ⟨after.looks, fun world' looks => after.relocate looks⟩)
    0 world mirrors.looks
  exact ⟨slot', there, finished _ looks⟩

/-- After any number of quanta from time zero, each of several separate cores is in the state in
which a single run on its own until that time leaves it, from any world that looks the same to
it: its part of the devices and its latch are as that run leaves them, what has been counted are
the cycles of that run, and it is parked if and only if that run ends with a fault, with that
fault. -/
theorem quanta_run_alone {quantum : Nat} {empty : Scheduler σ}
    (created : Scheduler.create quantum = .ok empty) (cores : List (Core σ))
    {ρ : Nat → Type} (view : (i : Nat) → σ → ρ i) (separate : Separate view cores)
    (spares : ∀ core ∈ cores, core.SparesReset) (world : World σ) (count : Nat)
    (range : count * quantum ≤ counterMax) :
    ∀ i core, cores[i]? = some core →
      let p := Core.vantage (view i) core.wiring
      ∀ alone, p.Same p world alone →
        let ran := loneRun core alone (count * quantum)
        ran.2.core.totalCycles < counterMax →
          let m := runQuanta count ⟨cores.foldl add empty, world⟩
          ∃ slot, m.core.slots[i]? = some slot ∧ Mirrors p core ⟨slot, m.world⟩ ran := by
  intro i core here p alone looks ran ticking m
  obtain ⟨within, others⟩ := separate i core here
  have quiet := spares core (List.mem_of_getElem? here)
  -- the induction carries along how far time has come
  suffices mirrored : Paced quantum count (cores.map (·.wiring)) m ∧
      ∃ slot, m.core.slots[i]? = some slot ∧ Mirrors p core ⟨slot, m.world⟩ ran from mirrored.2
  induction count with
  | zero =>
    obtain ⟨paced, slots⟩ := Paced.start created cores world
    refine ⟨paced, fresh core, ?_, ?_⟩
    · show (cores.foldl add empty).slots[i]? = _
      rw [slots, List.getElem?_map, here]
      rfl
    · obtain ⟨answer, left⟩ := Core.run_zero (⟨core, alone⟩ : Machine (Core σ) σ)
      have nothing : ran = Core.run 0 ⟨core, alone⟩ := by
        show loneRun core alone (0 * quantum) = _
        unfold loneRun
        rw [Nat.zero_mul, cyclesAt_zero]
      rw [nothing]
      refine ⟨?_, ?_, answer.symm, ?_⟩
      · rw [left]
        rfl
      · rw [left]
        exact (Nat.sub_self _).symm
      · rw [left]
        exact looks
  | succ count ih =>
    have shorter : count * quantum ≤ (count + 1) * quantum :=
      Nat.mul_le_mul_right quantum (Nat.le_succ count)
    have clock := loneRun_later quiet alone shorter
    change (loneRun core alone ((count + 1) * quantum)).2.core.totalCycles < counterMax at ticking
    obtain ⟨paced, slot, there, mirrors⟩ := ih (by omega) (by unfold Later at clock; omega)
    show Paced _ _ _ (runQuanta (count + 1) _) ∧
      ∃ slot, (runQuanta (count + 1) _).core.slots[i]? = some slot ∧
        Mirrors p core ⟨slot, (runQuanta (count + 1) _).world⟩ _
    rw [runQuanta_succ]
    exact ⟨paced.runQuantum range, mirrors.runQuantum within others quiet paced range there ticking⟩

/-- Two cores of different families, each over a cell of its own. -/
theorem quanta_run_alone_cells :
    let first : Core (UInt8 × UInt8) :=
      .sm83 (.cell Prod.fst (fun value cells => (value, cells.2)) 0) {}
    let second : Core (UInt8 × UInt8) :=
      .ucom4 (.cell Prod.snd (fun value cells => (cells.1, value)) 1) {}
    let world : World (UInt8 × UInt8) :=
      ⟨(0, 0), { latches := [.released 6, .released 2] }, {}⟩
    let m := runQuanta 1 ⟨[first, second].foldl add ⟨[], 1000, 0, by decide⟩, world⟩
    ∃ slot, m.core.slots[0]? = some slot ∧
      Mirrors ⟨Prod.fst, 0⟩ first ⟨slot, m.world⟩ (loneRun first world 1000) := by
  intro first second world m
  let view : Nat → UInt8 × UInt8 → UInt8 := fun i => if i = 0 then Prod.fst else Prod.snd
  have separate : Separate view [first, second] := by
    rintro (_ | _ | i) core here
    · obtain rfl := Option.some.inj here
      refine ⟨Core.within_sm83_cell Prod.fst _ (fun _ _ => rfl) 0, ?_⟩
      rintro (_ | _ | j) other there apart
      · exact absurd rfl apart
      · obtain rfl := Option.some.inj there
        exact Core.outside_ucom4_cell Prod.snd (fun value cells => (cells.1, value))
          (p := ⟨Prod.fst, 0⟩) (fun _ _ => rfl) Nat.one_ne_zero
      · cases there
    · obtain rfl := Option.some.inj here
      refine ⟨Core.within_ucom4_cell Prod.snd _ (fun _ _ => rfl) 1, ?_⟩
      rintro (_ | _ | j) other there apart
      · obtain rfl := Option.some.inj there
        exact Core.outside_sm83_cell Prod.fst (fun value cells => (value, cells.2))
          (p := ⟨Prod.snd, 1⟩) (fun _ _ => rfl) Nat.zero_ne_one
      · exact absurd rfl apart
      · cases there
    · cases here
  have silent : ∀ core ∈ [first, second], core.SparesReset :=
    List.forall_mem_cons.mpr ⟨fun _ _ => Access.spares_of_requests fun _ => rfl,
      List.forall_mem_singleton.mpr fun _ _ => Access.spares_of_requests fun _ => rfl⟩
  have action : Core.advance 4 ⟨first, world⟩ =
      (.ok (.retired 0 4), (Core.advance 4 ⟨first, world⟩).2) := rfl
  have ran := (Core.run_single (by decide) (by decide) action (Nat.le_refl 4)).2
  have granted : cyclesAt (1 * 1000) first.clockHz first.clocksPerCycle = 4 := by decide
  have ticking : (loneRun first world (1 * 1000)).2.core.totalCycles < counterMax := by
    unfold loneRun
    rw [granted, ran]
    decide
  have created : create 1000 = .ok (⟨[], 1000, 0, by decide⟩ : Scheduler (UInt8 × UInt8)) := rfl
  have alone := quanta_run_alone created [first, second] _ separate silent world 1 (by decide) 0
    first rfl world (.refl _ _) ticking
  exact alone

end Microboard.Scheduler
