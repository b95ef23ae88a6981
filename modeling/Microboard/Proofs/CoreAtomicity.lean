import Microboard.Proofs.Accesses
import Microboard.Proofs.CoreCycles
import Microboard.Proofs.Sm83.Idling
import Microboard.Proofs.Ucom4.Idling

/-!
# Boundary actions are atomic

Devices may request levels on the lines of a core while it accesses them. The core looks at its
lines at the start of an action only, so nothing that they request before its end has a part in it.

- **§1** Accesses with the same effects, but for the levels that they request on the lines of one
  core.
- **§2** Worlds that differ in the latch of that core only.
- **§3** Actions of SM83 cores.
- **§4** Actions of uCOM-4 cores.
- **§5** Cores of either family.
-/

namespace Microboard

variable {σ τ α : Type}

/-! ## §1 Accesses -/

/-- From related devices the accesses answer the same, leave the devices related, and request the
same levels of every core but one. -/
def Access.AgreesBut (core : Nat) (D : σ → τ → Prop) (access : Access σ α)
    (access' : Access τ α) : Prop :=
  ∀ devices devices', D devices devices' →
    (access devices).value = (access' devices').value ∧
    D (access devices).state (access' devices').state ∧
    (access devices).requests.filter (·.core ≠ core) =
      (access' devices').requests.filter (·.core ≠ core)

/-- Accesses through the two spaces agree so, and so do the wait states that they pile up. -/
structure Space.AgreesBut (core : Nat) (D : σ → τ → Prop) (space : Space σ) (space' : Space τ) :
    Prop where
  read : ∀ address, (space.readUnit address).AgreesBut core D (space'.readUnit address)
  write : ∀ address value,
    (space.writeUnit address value).AgreesBut core D (space'.writeUnit address value)
  takes : ∀ devices devices', D devices devices' →
    (space.takeWaitStates devices).1 = (space'.takeWaitStates devices').1 ∧
    D (space.takeWaitStates devices).2 (space'.takeWaitStates devices').2

/-- What is requested of a core is found among the requests that leave another core out. -/
theorem LineRequest.levelsFor_filter {core other : Nat} (apart : other ≠ core)
    (requests : List LineRequest) :
    LineRequest.levelsFor other (requests.filter (·.core ≠ core)) =
      LineRequest.levelsFor other requests := by
  unfold LineRequest.levelsFor
  rw [List.filterMap_filter]
  congr 1
  funext r
  by_cases own : r.core = core
  · rw [if_neg (by simpa using own), if_neg fun same => apart (same.symm.trans own)]
  · rw [if_pos (by simpa using own)]

/-! ## §2 Worlds -/

/-- Whether the event is a report of a level on a line that does not exist. -/
def Event.isUnknownLine : Event → Bool
  | .unknownLine _ => true
  | _ => false

/-- What a log shows beside reports of levels on lines that do not exist. -/
def EventLog.shown (log : EventLog) : Option Severity × List Event :=
  (log.threshold, log.events.toList.filter (!·.isUnknownLine))

namespace EventLog

theorem shown_unknownLine (log : EventLog) (line : UInt8) :
    (log.record (.unknownLine line)).shown = log.shown := by
  unfold record
  split
  · unfold shown
    rw [Array.toList_push, List.filter_append]
    exact congrArg (Prod.mk log.threshold) (List.append_nil _)
  · rfl

/-- Logs that show the same do so once an event is recorded. -/
theorem shown_record {log log' : EventLog} (same : log.shown = log'.shown) (event : Event) :
    (log.record event).shown = (log'.record event).shown := by
  obtain ⟨threshold, events⟩ := Prod.mk.inj same
  have admits : log.admits event.severity = log'.admits event.severity := by
    unfold admits
    rw [threshold]
  unfold record
  rw [admits]
  split
  · unfold shown
    rw [Array.toList_push, Array.toList_push, List.filter_append, List.filter_append, events,
      threshold]
  · exact same

end EventLog

theorem LineBank.shown_deliver (bank : LineBank) (log : EventLog) (requests : List LineRequest) :
    (bank.deliver log requests).2.shown = log.shown := by
  induction requests generalizing bank log with
  | nil => rfl
  | cons r requests ih =>
    have first : (bank.request log r).2.shown = log.shown := by
      unfold request LineLatch.request
      split
      · dsimp only
        split
        · rfl
        · exact log.shown_unknownLine r.line
      · rfl
    exact (ih _ _).trans first

/-- Worlds with related devices that differ in nothing but the latch of one core and reports of
levels on lines that do not exist. -/
structure World.AlikeBut (core : Nat) (D : σ → τ → Prop) (world : World σ) (world' : World τ) :
    Prop where
  devices : D world.devices world'.devices
  others : ∀ other, other ≠ core → world.lines.latches[other]? = world'.lines.latches[other]?
  log : world.log.shown = world'.log.shown

section Worlds

variable {core : Nat} {D : σ → τ → Prop}

theorem Access.AgreesBut.lockstep {access : Access σ α} {access' : Access τ α}
    (agrees : access.AgreesBut core D access') :
    Lockstep (World.AlikeBut core D) (World.perform access) (World.perform access') := by
  rintro ⟨devices, lines, log⟩ ⟨devices', lines', log'⟩ ⟨related, others, logs⟩
  obtain ⟨value, state, requests⟩ := agrees devices devices' related
  refine ⟨value, state, fun other apart => ?_, ?_⟩
  · show (lines.deliver log _).1.latches[other]? = (lines'.deliver log' _).1.latches[other]?
    rw [LineBank.getElem?_deliver, LineBank.getElem?_deliver, others other apart,
      ← LineRequest.levelsFor_filter apart, requests, LineRequest.levelsFor_filter apart]
  · show (lines.deliver log _).2.shown = (lines'.deliver log' _).2.shown
    rw [LineBank.shown_deliver, LineBank.shown_deliver]
    exact logs

theorem Space.AgreesBut.coupled {space : Space σ} {space' : Space τ}
    (agrees : space.AgreesBut core D space') :
    Space.Coupled (World.AlikeBut core D) space space' where
  read address := (agrees.read address).lockstep
  write address value := (agrees.write address value).lockstep
  waits := by
    rintro world world' ⟨related, others, logs⟩
    obtain ⟨waits, state⟩ := agrees.takes world.devices world'.devices related
    exact ⟨waits, state, others, logs⟩

theorem outputsCoupled_of_agreesBut {sink : Sink σ} {sink' : Sink τ}
    (agrees : ∀ line asserted, (sink line asserted).AgreesBut core D (sink' line asserted)) :
    OutputsCoupled (World.AlikeBut core D) sink sink' where
  sink line asserted := (agrees line asserted).lockstep
  record event := by
    rintro world world' ⟨related, others, logs⟩
    exact ⟨rfl, related, others, EventLog.shown_record logs event⟩

/-- What the core does to its own latch without looking at it does not count. -/
theorem World.AlikeBut.onLatch (change : LineLatch → LineLatch) :
    Lockstep (World.AlikeBut core D) (World.onLatch core fun latch => ((), change latch))
      (World.onLatch core fun latch => ((), change latch)) := by
  rintro world world' ⟨related, others, logs⟩
  refine ⟨rfl, related, fun other apart => ?_, logs⟩
  show (world.lines.update core _).latches[other]? = (world'.lines.update core _).latches[other]?
  rw [LineBank.getElem?_update, LineBank.getElem?_update, if_neg apart.symm, if_neg apart.symm]
  exact others other apart

/-- Such worlds in which the core has not accessed anything yet, so that all latches agree. -/
structure World.Fresh (core : Nat) (D : σ → τ → Prop) (world : World σ) (world' : World τ) : Prop
    extends World.AlikeBut core D world world' where
  lines : world.lines = world'.lines

/-- A latch acts the same on what is the same. -/
theorem World.Fresh.onLatch (act : LineLatch → α × LineLatch) :
    Lockstep (World.Fresh core D) (World.onLatch core act) (World.onLatch core act) := by
  rintro ⟨devices, lines, log⟩ ⟨devices', lines', log'⟩ ⟨⟨related, others, logs⟩, same⟩
  obtain rfl : lines = lines' := same
  exact ⟨rfl, ⟨related, fun _ _ => rfl, logs⟩, rfl⟩

theorem World.Fresh.record {world : World σ} {world' : World τ}
    (fresh : World.Fresh core D world world') (event : Event) :
    World.Fresh core D (world.record event) (world'.record event) :=
  ⟨⟨fresh.devices, fresh.others, EventLog.shown_record fresh.log event⟩, fresh.lines⟩

end Worlds

/-! ## §3 SM83 actions -/

namespace Sm83

/-- SM83 cores of one configuration, under one number, whose surroundings agree but for the levels
that they request of the core itself. -/
structure Wiring.AgreesBut (D : σ → τ → Prop) (w : Wiring σ) (w' : Wiring τ) : Prop where
  config : w.config = w'.config
  number : w.number = w'.number
  program : w.program.AgreesBut w.number D w'.program
  sink : ∀ line asserted, (w.sink line asserted).AgreesBut w.number D (w'.sink line asserted)

namespace Wiring.AgreesBut

variable {D : σ → τ → Prop} {w : Wiring σ} {w' : Wiring τ}

theorem runs (agrees : AgreesBut D w w') :
    Runs w w' (Across Eq (World.AlikeBut w.number D)) :=
  Accords.runs_eq
    { outputsCoupled_of_agreesBut agrees.sink with
      config := agrees.config
      program := agrees.program.coupled }

theorem onLatch (agrees : AgreesBut D w w') (change : LineLatch → LineLatch) :
    Lockstep (Across Eq (World.AlikeBut w.number D))
      (Machine.onLatch w.number fun latch => ((), change latch) : Exec σ Unit)
      (Machine.onLatch w'.number fun latch => ((), change latch) : Exec τ Unit) := by
  rw [← agrees.number]
  exact .onWorld (World.AlikeBut.onLatch change)

/-- Both cores find the same on their reset lines. Only a reset accesses anything. -/
theorem sampleReset (agrees : AgreesBut D w w') (m : Machine State σ) (m' : Machine State τ)
    (related : Across Eq (World.Fresh w.number D) m m') :
    (sampleReset w m).1 = (sampleReset w' m').1 ∧
      Across Eq (World.AlikeBut w.number D) (sampleReset w m).2 (sampleReset w' m').2 ∧
      ((sampleReset w m).1 = false →
        Across Eq (World.Fresh w.number D) (sampleReset w m).2 (sampleReset w' m').2) := by
  obtain ⟨s, world⟩ := m
  obtain ⟨_, world'⟩ := m'
  obtain ⟨rfl, fresh⟩ := related
  have looked := World.Fresh.onLatch (·.sample resetLine .level) world world' fresh
  rw [sampleReset_eq, sampleReset_eq, ← agrees.number]
  revert looked
  obtain ⟨held, world⟩ := world.onLatch w.number (·.sample resetLine .level)
  obtain ⟨_, world'⟩ := world'.onLatch w.number (·.sample resetLine .level)
  rintro ⟨rfl, fresh⟩
  have alike := fresh.toAlikeBut
  dsimp only at fresh alike ⊢
  cases held with
  | true =>
    cases entered : s.inReset with
    | false =>
      obtain ⟨-, same, after⟩ := agrees.runs.carries.reset (agrees.onLatch _) ⟨s, world⟩
        ⟨s, world'⟩ ⟨rfl, alike⟩
      exact ⟨rfl, ⟨congrArg (fun t : State => { t with inReset := true, exec := .idle }) same,
        after⟩, nofun⟩
    | true => exact ⟨rfl, ⟨rfl, alike⟩, nofun⟩
  | false =>
    cases s.inReset with
    | true => exact ⟨rfl, ⟨rfl, (fresh.record _).toAlikeBut⟩, fun _ => ⟨rfl, fresh.record _⟩⟩
    | false => exact ⟨rfl, ⟨rfl, alike⟩, fun _ => ⟨rfl, fresh⟩⟩

/-- Both cores find the same requests. -/
theorem latchRequests (agrees : AgreesBut D w w') :
    Lockstep (Across Eq (World.Fresh w.number D)) (latchRequests w) (latchRequests w') := by
  unfold Sm83.latchRequests
  rw [← agrees.number]
  refine .bind (.onWorld (World.Fresh.onLatch _)) fun raised =>
    .bind (.modifyCore ?_) fun _ => .pure raised
  rintro s _ rfl
  rfl

/-- The whole action answers the same and leaves the cores in the same state. -/
theorem advance (agrees : AgreesBut D w w') (remaining : Nat) (m : Machine State σ)
    (m' : Machine State τ) (related : Across Eq (World.Fresh w.number D) m m') :
    (advance w remaining m).1 = (advance w' remaining m').1 ∧
      Across Eq (World.AlikeBut w.number D) (advance w remaining m).2
        (advance w' remaining m').2 := by
  obtain ⟨s, world⟩ := m
  obtain ⟨_, world'⟩ := m'
  obtain ⟨rfl, fresh⟩ := related
  rw [advance_eq, advance_eq]
  dsimp only
  cases s.exec.latchedFault? with
  | some fault => exact ⟨rfl, rfl, fresh.toAlikeBut⟩
  | none =>
    have sampled := agrees.sampleReset (unobserved ⟨s, world⟩) (unobserved ⟨s, world'⟩)
      ⟨rfl, fresh⟩
    revert sampled
    obtain ⟨held, m₁⟩ := Sm83.sampleReset w (unobserved ⟨s, world⟩)
    obtain ⟨_, m₁'⟩ := Sm83.sampleReset w' (unobserved ⟨s, world'⟩)
    rintro ⟨rfl, alike, released⟩
    cases held with
    | true =>
      obtain ⟨-, after⟩ := agrees.runs.charge (idleCycles remaining) m₁ m₁' alike
      exact ⟨rfl, after⟩
    | false =>
      have latched := agrees.latchRequests m₁ m₁' (released rfl)
      dsimp only
      revert latched
      obtain ⟨raised, m₂⟩ := Sm83.latchRequests w m₁
      obtain ⟨_, m₂'⟩ := Sm83.latchRequests w' m₁'
      rintro ⟨rfl, same, fresh⟩
      have related : Across Eq (World.AlikeBut w.number D) m₂ m₂' := ⟨same, fresh.toAlikeBut⟩
      dsimp only at same ⊢
      -- from here on the core does not look at its lines any more
      rw [same]
      by_cases halted : m₂'.core.exec = .halted
      · rw [if_pos halted, if_pos halted]
        obtain ⟨answer, after⟩ := agrees.runs.stayHalted remaining raised m₂ m₂' related
        exact ⟨congrArg Except.ok answer, after⟩
      · rw [if_neg halted, if_neg halted]
        exact agrees.runs.runBoundary (fun _ => agrees.onLatch _) m₂ m₂' related

end Wiring.AgreesBut

end Sm83

/-! ## §4 uCOM-4 actions -/

namespace Ucom4

/-- uCOM-4 cores of one configuration, under one number, whose surroundings agree but for the levels
that they request of the core itself. -/
structure Wiring.AgreesBut (D : σ → τ → Prop) (w : Wiring σ) (w' : Wiring τ) : Prop where
  config : w.config = w'.config
  number : w.number = w'.number
  program : w.program.AgreesBut w.number D w'.program
  data : w.data.AgreesBut w.number D w'.data
  io : w.io.AgreesBut w.number D w'.io
  sink : ∀ line asserted, (w.sink line asserted).AgreesBut w.number D (w'.sink line asserted)

namespace Wiring.AgreesBut

variable {D : σ → τ → Prop} {w : Wiring σ} {w' : Wiring τ}

theorem runs (agrees : AgreesBut D w w') :
    Runs w w' (Across Eq (World.AlikeBut w.number D)) :=
  Accords.runs_eq
    { outputsCoupled_of_agreesBut agrees.sink with
      config := agrees.config
      program := agrees.program.coupled
      data := agrees.data.coupled
      io := agrees.io.coupled }

theorem onLatch (agrees : AgreesBut D w w') (change : LineLatch → LineLatch) :
    Lockstep (Across Eq (World.AlikeBut w.number D))
      (Machine.onLatch w.number fun latch => ((), change latch) : Exec σ Unit)
      (Machine.onLatch w'.number fun latch => ((), change latch) : Exec τ Unit) := by
  rw [← agrees.number]
  exact .onWorld (World.AlikeBut.onLatch change)

/-- Both cores find the same on their reset lines. Only a reset accesses anything. -/
theorem sampleReset (agrees : AgreesBut D w w') (m : Machine State σ) (m' : Machine State τ)
    (related : Across Eq (World.Fresh w.number D) m m') :
    (sampleReset w m).1 = (sampleReset w' m').1 ∧
      Across Eq (World.AlikeBut w.number D) (sampleReset w m).2 (sampleReset w' m').2 ∧
      ((sampleReset w m).1 = false →
        Across Eq (World.Fresh w.number D) (sampleReset w m).2 (sampleReset w' m').2) := by
  obtain ⟨s, world⟩ := m
  obtain ⟨_, world'⟩ := m'
  obtain ⟨rfl, fresh⟩ := related
  have looked := World.Fresh.onLatch (·.sample resetLine .level) world world' fresh
  rw [sampleReset_eq, sampleReset_eq, ← agrees.number, ← agrees.runs.carries.name]
  revert looked
  obtain ⟨held, world⟩ := world.onLatch w.number (·.sample resetLine .level)
  obtain ⟨_, world'⟩ := world'.onLatch w.number (·.sample resetLine .level)
  rintro ⟨rfl, fresh⟩
  have alike := fresh.toAlikeBut
  dsimp only at fresh alike ⊢
  cases held with
  | true =>
    cases s.inReset with
    | false =>
      -- the ports that a reset drives may well request levels
      obtain ⟨-, same, after⟩ := agrees.runs.carries.reset (agrees.onLatch _) ⟨s, world⟩
        ⟨s, world'⟩ ⟨rfl, alike⟩
      exact ⟨rfl, ⟨congrArg (fun t : State => { t with inReset := true, exec := .idle }) same,
        after⟩, nofun⟩
    | true => exact ⟨rfl, ⟨rfl, alike⟩, nofun⟩
  | false =>
    cases s.inReset with
    | true => exact ⟨rfl, ⟨rfl, (fresh.record _).toAlikeBut⟩, fun _ => ⟨rfl, fresh.record _⟩⟩
    | false => exact ⟨rfl, ⟨rfl, alike⟩, fun _ => ⟨rfl, fresh⟩⟩

/-- Both cores find the same request. -/
theorem latchRequest (agrees : AgreesBut D w w') :
    Lockstep (Across Eq (World.Fresh w.number D)) (latchRequest w) (latchRequest w') := by
  unfold Ucom4.latchRequest
  rw [← agrees.number, ← agrees.config]
  refine .bind (.onWorld (World.Fresh.onLatch _)) fun raised =>
    .ite (fun _ => .modifyCore ?_) fun _ => .pure ()
  rintro s _ rfl
  rfl

/-- The whole action answers the same and leaves the cores in the same state. -/
theorem advance (agrees : AgreesBut D w w') (remaining : Nat) (m : Machine State σ)
    (m' : Machine State τ) (related : Across Eq (World.Fresh w.number D) m m') :
    (advance w remaining m).1 = (advance w' remaining m').1 ∧
      Across Eq (World.AlikeBut w.number D) (advance w remaining m).2
        (advance w' remaining m').2 := by
  obtain ⟨s, world⟩ := m
  obtain ⟨_, world'⟩ := m'
  obtain ⟨rfl, fresh⟩ := related
  rw [advance_eq, advance_eq]
  dsimp only
  cases s.exec.latchedFault? with
  | some fault => exact ⟨rfl, rfl, fresh.toAlikeBut⟩
  | none =>
    have sampled := agrees.sampleReset (unobserved ⟨s, world⟩) (unobserved ⟨s, world'⟩)
      ⟨rfl, fresh⟩
    revert sampled
    obtain ⟨held, m₁⟩ := Ucom4.sampleReset w (unobserved ⟨s, world⟩)
    obtain ⟨_, m₁'⟩ := Ucom4.sampleReset w' (unobserved ⟨s, world'⟩)
    rintro ⟨rfl, alike, released⟩
    cases held with
    | true =>
      obtain ⟨-, after⟩ := agrees.runs.charge (idleCycles remaining) m₁ m₁' alike
      exact ⟨rfl, after⟩
    | false =>
      have latched := agrees.latchRequest m₁ m₁' (released rfl)
      dsimp only
      revert latched
      obtain ⟨_, m₂⟩ := Ucom4.latchRequest w m₁
      obtain ⟨_, m₂'⟩ := Ucom4.latchRequest w' m₁'
      rintro ⟨rfl, same, fresh⟩
      have related : Across Eq (World.AlikeBut w.number D) m₂ m₂' := ⟨same, fresh.toAlikeBut⟩
      dsimp only at same ⊢
      -- from here on the core does not look at its lines any more
      rw [same]
      by_cases allowed : interruptAllowed m₂'.core = true
      · rw [if_pos allowed, if_pos allowed]
        obtain ⟨answer, after⟩ := agrees.runs.service (agrees.onLatch _) m₂ m₂' related
        exact ⟨congrArg Except.ok answer, after⟩
      · rw [if_neg allowed, if_neg allowed]
        exact agrees.runs.runInstruction m₂ m₂' related

end Wiring.AgreesBut

end Ucom4

/-! ## §5 Cores -/

namespace Core

/-- Cores of one family in the same state, whose surroundings agree but for the levels that they
request of the core itself. -/
inductive AgreesBut (D : σ → τ → Prop) : Core σ → Core τ → Prop where
  | sm83 {w : Sm83.Wiring σ} {w' : Sm83.Wiring τ} (agrees : w.AgreesBut D w') (s : Sm83.State) :
      AgreesBut D (.sm83 w s) (.sm83 w' s)
  | ucom4 {w : Ucom4.Wiring σ} {w' : Ucom4.Wiring τ} (agrees : w.AgreesBut D w')
      (s : Ucom4.State) : AgreesBut D (.ucom4 w s) (.ucom4 w' s)

/-- An action of a core is deaf to what devices request of it meanwhile: whichever levels they ask
for on its lines, it answers the same, ends in the same state, treats the devices the same, and
leaves the latches of all other cores alike. Only its own latch shows the difference. -/
theorem advance_deaf {D : σ → τ → Prop} {core : Core σ} {core' : Core τ}
    (agrees : AgreesBut D core core') {devices : σ} {devices' : τ} (related : D devices devices')
    (lines : LineBank) (log : EventLog) (remaining : Nat) :
    let after := advance remaining ⟨core, ⟨devices, lines, log⟩⟩
    let after' := advance remaining ⟨core', ⟨devices', lines, log⟩⟩
    after.1 = after'.1 ∧ AgreesBut D after.2.core after'.2.core ∧
      World.AlikeBut core.number D after.2.world after'.2.world := by
  have fresh (number : Nat) : World.Fresh number D ⟨devices, lines, log⟩ ⟨devices', lines, log⟩ :=
    ⟨⟨related, fun _ _ => rfl, rfl⟩, rfl⟩
  cases agrees with
  | @sm83 w w' agrees s =>
    obtain ⟨answer, same, worlds⟩ := agrees.advance remaining
      ⟨s, ⟨devices, lines, log⟩⟩ ⟨s, ⟨devices', lines, log⟩⟩ ⟨rfl, fresh w.number⟩
    have together {t t' : Sm83.State} (same : t = t') : AgreesBut D (.sm83 w t) (.sm83 w' t') :=
      same ▸ .sm83 agrees t
    exact ⟨answer, together same, worlds⟩
  | @ucom4 w w' agrees s =>
    obtain ⟨answer, same, worlds⟩ := agrees.advance remaining
      ⟨s, ⟨devices, lines, log⟩⟩ ⟨s, ⟨devices', lines, log⟩⟩ ⟨rfl, fresh w.number⟩
    have together {t t' : Ucom4.State} (same : t = t') :
        AgreesBut D (.ucom4 w t) (.ucom4 w' t') := same ▸ .ucom4 agrees t
    exact ⟨answer, together same, worlds⟩

/-- A memory that requests an interrupt of the core that writes it, and one that does not: the store
is over before the core can tell the difference, and then its latch holds an edge or none. -/
theorem advance_deaf_store :
    let silent : Sm83.Wiring UInt8 := .cell id (fun value _ => value) 0
    let loud : Sm83.Wiring UInt8 := { silent with
      program := { silent.program with
        write := fun _ _ value _ => ⟨(), value.toUInt8, [⟨0, 0, .hold⟩]⟩ } }
    -- every fetch reads a store of the accumulator
    let after := advance 4 ⟨.sm83 loud {}, ⟨0x77, { latches := [.released 6] }, {}⟩⟩
    let after' := advance 4 ⟨.sm83 silent {}, ⟨0x77, { latches := [.released 6] }, {}⟩⟩
    (after.1 = after'.1 ∧ AgreesBut Eq after.2.core after'.2.core ∧
      World.AlikeBut silent.number Eq after.2.world after'.2.world) ∧
      (after.2.world.lines.latch 0).hasEdge 0 = true ∧
      (after'.2.world.lines.latch 0).hasEdge 0 = false := by
  intro silent loud
  have agrees : loud.AgreesBut Eq silent :=
    { config := rfl
      number := rfl
      program :=
        { read := by rintro _ devices _ rfl; exact ⟨rfl, rfl, rfl⟩
          write := by rintro _ _ devices _ rfl; exact ⟨rfl, rfl, rfl⟩
          takes := by rintro devices _ rfl; exact ⟨rfl, rfl⟩ }
      sink := by rintro _ _ devices _ rfl; exact ⟨rfl, rfl, rfl⟩ }
  exact ⟨advance_deaf (.sm83 agrees {}) (rfl : (0x77 : UInt8) = 0x77) { latches := [.released 6] }
    {} 4, by decide +kernel, by decide +kernel⟩

end Core

end Microboard
