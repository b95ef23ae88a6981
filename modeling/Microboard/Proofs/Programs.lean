import Microboard.Machine

/-!
# Programs

Cores and schedulers are programs of the state monad. They are built by constructions that may be
refused.

- **§1** Running a program, one construct at a time.
- **§2** What a program ensures of its answer and of the machine that it leaves.
- **§3** Constructions that succeed.
-/

namespace Microboard

variable {μ α β : Type}

/-! ## §1 Running -/

theorem eval_bind (p : StateM μ α) (f : α → StateM μ β) (m : μ) :
    (p >>= f) m = f (p m).1 (p m).2 := rfl

theorem eval_ite {c : Prop} [Decidable c] (p q : StateM μ α) (m : μ) :
    (if c then p else q) m = if c then p m else q m := by
  split <;> rfl

/-! ## §2 What programs ensure -/

/-- The program keeps a property of the machine. -/
def Keeps (P : μ → Prop) (p : StateM μ α) : Prop := ∀ m, P m → P (p m).2

namespace Keeps

variable {P : μ → Prop}

theorem pure (a : α) : Keeps P (Pure.pure a) := fun _ holds => holds

theorem bind {p : StateM μ α} {f : α → StateM μ β} (first : Keeps P p)
    (next : ∀ a, Keeps P (f a)) : Keeps P (p >>= f) :=
  fun m holds => next (p m).1 (p m).2 (first m holds)

theorem ite {c : Prop} [Decidable c] {p q : StateM μ α} (yes : c → Keeps P p)
    (no : ¬c → Keeps P q) : Keeps P (if c then p else q) := by
  by_cases h : c
  · rw [if_pos h]; exact yes h
  · rw [if_neg h]; exact no h

theorem whenFirst {c : Prop} [Decidable c] {p : StateM μ Unit} {f : Unit → StateM μ α}
    (first : Keeps P p) (next : Keeps P (f ())) : Keeps P (if c then p >>= f else f ()) :=
  .ite (fun _ => .bind first fun _ => next) fun _ => next

end Keeps

/-- From machines with the first property the program ends with an answer and a machine between
which the second one holds. -/
def Ensures (P : μ → Prop) (p : StateM μ α) (V : α → μ → Prop) : Prop :=
  ∀ m, P m → V (p m).1 (p m).2

namespace Ensures

variable {P : μ → Prop} {V : α → μ → Prop} {W : β → μ → Prop}

theorem pure {a : α} (holds : ∀ m, P m → V a m) : Ensures P (Pure.pure a) V := holds

theorem bind {p : StateM μ α} {f : α → StateM μ β} (first : Ensures P p V)
    (next : ∀ a, Ensures (V a) (f a) W) : Ensures P (p >>= f) W :=
  fun m holds => next (p m).1 (p m).2 (first m holds)

/-- A program whose answer is put into another form. -/
theorem mapped {p : StateM μ α} {f : α → β} (ensures : Ensures P p fun a => W (f a)) :
    Ensures P (do return f (← p)) W :=
  .bind ensures fun _ => .pure fun _ holds => holds

/-- A program whose answer the next one may rely on. -/
theorem bindAnd {p : StateM μ α} {f : α → StateM μ β} {P' : μ → Prop} {C : α → Prop}
    (first : Ensures P p fun a m => P' m ∧ C a) (next : ∀ a, C a → Ensures P' (f a) W) :
    Ensures P (p >>= f) W := by
  intro m holds
  obtain ⟨after, answer⟩ := first m holds
  exact next (p m).1 answer (p m).2 after

/-- A program that keeps the property on which the next one relies. -/
theorem keepsBind {p : StateM μ α} {f : α → StateM μ β} (first : Keeps P p)
    (next : ∀ a, Ensures P (f a) W) : Ensures P (p >>= f) W :=
  fun m holds => next (p m).1 (p m).2 (first m holds)

theorem ite {c : Prop} [Decidable c] {p q : StateM μ α} (yes : c → Ensures P p V)
    (no : ¬c → Ensures P q V) : Ensures P (if c then p else q) V := by
  by_cases h : c
  · rw [if_pos h]; exact yes h
  · rw [if_neg h]; exact no h

theorem weaken {p : StateM μ α} {V' : α → μ → Prop} (ensures : Ensures P p V)
    (implies : ∀ a m, V a m → V' a m) : Ensures P p V' :=
  fun m holds => implies _ _ (ensures m holds)

end Ensures

/-! ## §3 Constructions -/

/-- A construction that succeeds has passed its first step. -/
theorem ok_of_bind {ε : Type} {first : Except ε α} {next : α → Except ε β} {b : β}
    (succeeds : first >>= next = .ok b) : ∃ a, first = .ok a ∧ next a = .ok b := by
  cases first with
  | error refused => cases succeeds
  | ok a => exact ⟨a, rfl, succeeds⟩

end Microboard
