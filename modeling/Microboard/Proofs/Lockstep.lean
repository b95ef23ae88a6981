import Microboard.Proofs.Programs

/-!
# Lockstep

Two programs run in lockstep under a relation when, started in related machines, they give the
same answer and end in related machines. The relation says how far the two machines may differ.

- **§1** Lockstep and how it passes through the control structure of programs.
- **§2** Its one-sided form: what a program keeps.
- **§3** Machines whose worlds run in lockstep.
- **§4** What a core reaches of its world, in lockstep.

A core's program is built from a few elementary operations. A relation that they respect is
respected by every instruction, so the instructions are walked through once for each family, and
every statement that compares two runs, or follows an invariant along one run, starts from there.
-/

namespace Microboard

/-! ## §1 Two programs -/

/-- From machines related in one way the programs give the same answer and end in machines related
in another. -/
def Leads {μ ν α : Type} (R S : μ → ν → Prop) (p : StateM μ α) (p' : StateM ν α) : Prop :=
  ∀ m m', R m m' → (p m).1 = (p' m').1 ∧ S (p m).2 (p' m').2

/-- From related machines the programs give the same answer and end in related machines. -/
def Lockstep {μ ν α : Type} (R : μ → ν → Prop) (p : StateM μ α) (p' : StateM ν α) : Prop :=
  Leads R R p p'

/-- One program after the other, of which the second keeps the relation that the first leads to. -/
theorem Leads.bind {μ ν α β : Type} {R S : μ → ν → Prop} {p : StateM μ α} {p' : StateM ν α}
    {f : α → StateM μ β} {f' : α → StateM ν β} (first : Leads R S p p')
    (next : ∀ a, Lockstep S (f a) (f' a)) : Leads R S (p >>= f) (p' >>= f') := by
  intro m m' related
  obtain ⟨same, related⟩ := first m m' related
  have rest := next (p m).1 _ _ related
  show _ = (f' (p' m').1 (p' m').2).1 ∧ S _ (f' (p' m').1 (p' m').2).2
  rw [← same]
  exact rest

namespace Lockstep

variable {μ ν α β : Type} {R : μ → ν → Prop}

theorem pure (a : α) : Lockstep R (Pure.pure a : StateM μ α) (Pure.pure a : StateM ν α) :=
  fun _ _ related => ⟨rfl, related⟩

/-- One program after the other; the second need only be in lockstep for answers that the first
can give. -/
theorem bindWith {V : α → Prop} {p : StateM μ α} {p' : StateM ν α} {f : α → StateM μ β}
    {f' : α → StateM ν β} (first : Lockstep R p p') (answers : ∀ m, V (p m).1)
    (next : ∀ a, V a → Lockstep R (f a) (f' a)) : Lockstep R (p >>= f) (p' >>= f') := by
  intro m m' related
  obtain ⟨same, related⟩ := first m m' related
  have rest := next (p m).1 (answers m) _ _ related
  show _ = (f' (p' m').1 (p' m').2).1 ∧ R _ (f' (p' m').1 (p' m').2).2
  rw [← same]
  exact rest

theorem bind {p : StateM μ α} {p' : StateM ν α} {f : α → StateM μ β} {f' : α → StateM ν β}
    (first : Lockstep R p p') (next : ∀ a, Lockstep R (f a) (f' a)) :
    Lockstep R (p >>= f) (p' >>= f') :=
  Leads.bind first next

theorem discard {p : StateM μ α} {p' : StateM ν α} (act : Lockstep R p p') :
    Lockstep R (Functor.discard p) (Functor.discard p') :=
  fun m m' related => ⟨rfl, (act m m' related).2⟩

theorem ite {c : Prop} [Decidable c] {p q : StateM μ α} {p' q' : StateM ν α}
    (yes : c → Lockstep R p p') (no : ¬c → Lockstep R q q') :
    Lockstep R (if c then p else q) (if c then p' else q') := by
  by_cases h : c
  · rw [if_pos h, if_pos h]; exact yes h
  · rw [if_neg h, if_neg h]; exact no h

/-- Programs of which the first is run under a condition only. -/
theorem whenFirst {c : Prop} [Decidable c] {p : StateM μ Unit} {p' : StateM ν Unit}
    {f : Unit → StateM μ α} {f' : Unit → StateM ν α} (first : Lockstep R p p')
    (next : Lockstep R (f ()) (f' ())) :
    Lockstep R (if c then p >>= f else f ()) (if c then p' >>= f' else f' ()) :=
  .ite (fun _ => .bind first fun _ => next) fun _ => next

end Lockstep

/-! ## §2 One program -/

/-- Machines that are equal and have a property. -/
def Both {μ : Type} (P : μ → Prop) (m m' : μ) : Prop := m = m' ∧ P m

theorem Lockstep.keeps {μ α : Type} {P : μ → Prop} {p : StateM μ α}
    (same : Lockstep (Both P) p p) : Keeps P p :=
  fun m holds => (same m m ⟨rfl, holds⟩).2.2

/-- What a program leads to that is compared with itself. -/
theorem Leads.ensures {μ α : Type} {P Q : μ → Prop} {p : StateM μ α}
    (same : Leads (Both P) (Both Q) p p) : Ensures P p fun _ => Q :=
  fun m holds => (same m m ⟨rfl, holds⟩).2.2

theorem Ensures.leads {μ α : Type} {P Q : μ → Prop} {p : StateM μ α}
    (ensures : Ensures P p fun _ => Q) : Leads (Both P) (Both Q) p p := by
  rintro m _ ⟨rfl, holds⟩
  exact ⟨rfl, rfl, ensures m holds⟩

theorem Keeps.lockstep {μ α : Type} {P : μ → Prop} {p : StateM μ α} (keeps : Keeps P p) :
    Lockstep (Both P) p p := by
  rintro m _ ⟨rfl, holds⟩
  exact ⟨rfl, rfl, keeps m holds⟩

/-! ## §3 Machines in their worlds -/

/-- Cores related one way and worlds another. -/
def Across {κ ι σ τ : Type} (S : κ → ι → Prop) (Q : World σ → World τ → Prop)
    (m : Machine κ σ) (m' : Machine ι τ) : Prop := S m.core m'.core ∧ Q m.world m'.world

theorem Lockstep.onWorld {κ ι σ τ α : Type} {S : κ → ι → Prop} {Q : World σ → World τ → Prop}
    {act : World σ → α × World σ} {act' : World τ → α × World τ}
    (inStep : Lockstep Q (act : StateM (World σ) α) (act' : StateM (World τ) α)) :
    Lockstep (Across S Q) (Machine.onWorld act) (Machine.onWorld act') := by
  rintro ⟨core, world⟩ ⟨core', world'⟩ ⟨cores, worlds⟩
  obtain ⟨same, after⟩ := inStep world world' worlds
  exact ⟨same, cores, after⟩

theorem Lockstep.modifyCore {κ ι σ τ : Type} {S : κ → ι → Prop} {Q : World σ → World τ → Prop}
    {change : κ → κ} {change' : ι → ι} (keeps : ∀ s t, S s t → S (change s) (change' t)) :
    Lockstep (Across S Q) (Machine.modifyCore change) (Machine.modifyCore change') := by
  rintro ⟨core, world⟩ ⟨core', world'⟩ ⟨cores, worlds⟩
  exact ⟨rfl, keeps core core' cores, worlds⟩

/-- What a program keeps of the world, whatever the core is. -/
theorem Lockstep.keepsWorld {κ σ α : Type} {V : World σ → Prop}
    {p : StateM (Machine κ σ) α} (same : Lockstep (Across Eq (Both V)) p p) :
    Keeps (fun m => V m.world) p :=
  fun m holds => (same m m ⟨rfl, rfl, holds⟩).2.2.2

/-! ## §4 Spaces, sinks and latches -/

/-- Two spaces that answer alike in related worlds and leave them related. -/
structure Space.Coupled {σ τ : Type} (Q : World σ → World τ → Prop) (space : Space σ)
    (space' : Space τ) : Prop where
  read : ∀ address, Lockstep Q (World.perform (space.readUnit address))
    (World.perform (space'.readUnit address))
  write : ∀ address value, Lockstep Q (World.perform (space.writeUnit address value))
    (World.perform (space'.writeUnit address value))
  waits : Lockstep Q (World.takeWaitStates space) (World.takeWaitStates space')

/-- Two places in related worlds that are told what cores do: the sink on the outputs of a core, and
the log. -/
structure OutputsCoupled {σ τ : Type} (Q : World σ → World τ → Prop) (sink : Sink σ)
    (sink' : Sink τ) : Prop where
  sink : ∀ line asserted,
    Lockstep Q (World.perform (sink line asserted)) (World.perform (sink' line asserted))
  record : ∀ event : Event, Lockstep Q (fun world : World σ => ((), world.record event))
    (fun world : World τ => ((), world.record event))

/-- Such places together with the latches of the cores. -/
structure PlacesCoupled {σ τ : Type} (Q : World σ → World τ → Prop) (number number' : Nat)
    (sink : Sink σ) (sink' : Sink τ) : Prop extends OutputsCoupled Q sink sink' where
  latch : ∀ {α : Type} (act : LineLatch → α × LineLatch),
    Lockstep Q (World.onLatch number act) (World.onLatch number' act)

end Microboard
