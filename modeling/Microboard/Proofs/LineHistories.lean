import Microboard.Proofs.Requests
import Mathlib.Data.List.Induction

/-!
# Histories of a latch

What a latch answers about a line depends on all that was done to the latch before. Here a history
is a list of operations, in order, on a latch that starts with all lines released, and the answers
are told from the history alone.

- **§1** Operations and histories.
- **§2** One more operation.
- **§3** What the history says of a line, and that the latch says the same.
-/

namespace Microboard

namespace LineLatch

/-! ## §1 Operations and histories -/

/-- One operation on a latch; what it answers is left out. -/
inductive Act where
  | set (line : InputLine) (level : LineLevel)
  | takeEdge (line : InputLine)
  | sample (line : InputLine) (trigger : Trigger)
  | acknowledge (line : InputLine)
  | discardEdges
  deriving DecidableEq, Repr

namespace Act

/-- What the operation leaves of a latch. -/
def apply (latch : LineLatch) : Act → LineLatch
  | .set line level => latch.set line level
  | .takeEdge line => (latch.takeEdge line).2
  | .sample line trigger => (latch.sample line trigger).2
  | .acknowledge line => latch.acknowledge line
  | .discardEdges => latch.discardEdges

/-- The line that the operation names, unless it is about all lines. -/
def line? : Act → Option InputLine
  | .set line _ | .takeEdge line | .sample line _ | .acknowledge line => some line
  | .discardEdges => none

/-- Whether the operation takes or drops the edge of a line. -/
def consumes (line : InputLine) : Act → Bool
  | .takeEdge other | .sample other _ => other = line
  | .discardEdges => true
  | .set .. | .acknowledge _ => false

/-- Whether the operation requests some level of a line. -/
def sets (line : InputLine) : Act → Bool
  | .set other _ => other = line
  | _ => false

end Act

/-- The latch after a history. -/
def after (latch : LineLatch) (acts : List Act) : LineLatch := acts.foldl Act.apply latch

@[simp]
theorem after_nil (latch : LineLatch) : latch.after [] = latch := rfl

@[simp]
theorem after_concat (latch : LineLatch) (acts : List Act) (act : Act) :
    latch.after (acts ++ [act]) = act.apply (latch.after acts) := by
  simp [after]

/-! ## §2 One more operation -/

theorem has_iff {latch : LineLatch} {line : InputLine} :
    latch.has line = true ↔ line.toNat < latch.lines.length := decide_eq_true_iff

theorem has_eq_false {latch : LineLatch} {line : InputLine} :
    latch.has line = false ↔ latch.lines.length ≤ line.toNat :=
  decide_eq_false_iff_not.trans Nat.not_lt

theorem has_released {count : Nat} {line : InputLine} :
    (released count).has line = true ↔ line.toNat < count := by
  rw [has_iff]
  simp [released]

theorem has_apply (latch : LineLatch) (act : Act) (line : InputLine) :
    (act.apply latch).has line = latch.has line := by
  cases act with
  | set | takeEdge | acknowledge => exact has_update ..
  | sample named trigger =>
    show (latch.sample named trigger).2.has line = latch.has line
    rw [sample_snd, has_update]
  | discardEdges =>
    unfold Act.apply has size discardEdges
    rw [List.length_map]

theorem has_after (latch : LineLatch) (acts : List Act) (line : InputLine) :
    (latch.after acts).has line = latch.has line := by
  induction acts using List.reverseRecOn with
  | nil => rfl
  | append_singleton acts act ih => rw [after_concat, has_apply, ih]

/-- A line that the latch does not have reads as released. -/
theorem state_absent {latch : LineLatch} {line : InputLine} (absent : latch.has line = false) :
    latch.state line = {} := by
  unfold state
  rw [List.getD_eq_getElem?_getD, List.getElem?_eq_none (has_eq_false.mp absent), Option.getD_none]

/-- An operation on one line touches no other. -/
theorem state_apply_other (latch : LineLatch) {act : Act} {named line : InputLine}
    (names : act.line? = some named) (other : line ≠ named) :
    (act.apply latch).state line = latch.state line := by
  -- taking or sampling an edge comes to the same change of the line that is named
  have taken : (latch.update named LineState.withoutEdge).state line = latch.state line := by
    rw [state_update _ _ _ rfl, if_neg other]
  cases act with
  | set | acknowledge =>
    obtain rfl := Option.some.inj names
    simp [Act.apply, state_set, state_acknowledge, other]
  | takeEdge | sample =>
    obtain rfl := Option.some.inj names
    simpa [Act.apply, takeEdge] using taken
  | discardEdges => cases names

/-- An operation on a line that the latch does not have touches nothing. -/
theorem apply_absent {latch : LineLatch} {act : Act} {named : InputLine}
    (names : act.line? = some named) (absent : latch.has named = false) :
    act.apply latch = latch := by
  have kept (change : LineState → LineState) : latch.update named change = latch := by
    unfold update
    rw [List.modify_eq_self (has_eq_false.mp absent)]
  cases act with
  | set | takeEdge | sample | acknowledge =>
    obtain rfl := Option.some.inj names
    simp [Act.apply, takeEdge, set, acknowledge, kept]
  | discardEdges => cases names

/-- Only a request or an acknowledgement moves the level of a line. -/
theorem level_apply {latch : LineLatch} {line : InputLine} (there : latch.has line = true)
    (act : Act) :
    (act.apply latch).level line =
      match act with
      | .set other level => if other = line then level else latch.level line
      | .acknowledge other =>
        if other = line ∧ latch.level line = .hold then .clear else latch.level line
      | _ => latch.level line := by
  cases act with
  | set other level =>
    simp only [Act.apply, LineLatch.level, state_set]
    by_cases same : other = line
    · subst same
      simp [there, LineState.request]
    · simp [same, Ne.symm same]
  | acknowledge other => simp [Act.apply, level_acknowledge, eq_comm]
  | takeEdge other | sample other trigger => simp [Act.apply, takeEdge]
  | discardEdges => simp [Act.apply, level, LineState.withoutEdge]

/-- The edge of a line waits after an operation if the operation raised the line, or if it waited
before and is not taken or dropped. -/
theorem hasEdge_apply {latch : LineLatch} {line : InputLine} (there : latch.has line = true)
    (act : Act) :
    (act.apply latch).hasEdge line = true ↔
      (latch.hasEdge line = true ∧ act.consumes line = false) ∨
        ∃ level, act = .set line level ∧ latch.level line = .clear ∧ level.isActive = true := by
  have inactive (level : LineLevel) : level.isActive = false ↔ level = .clear := by
    cases level <;> decide
  cases act with
  | set other level =>
    simp only [Act.apply, hasEdge, LineLatch.level, state_set]
    by_cases same : other = line
    · subst same
      simp [there, LineState.request, Act.consumes, inactive]
    · simp [same, Ne.symm same, Act.consumes]
  | acknowledge other => simp [Act.apply, hasEdge_acknowledge, Act.consumes]
  | takeEdge other | sample other trigger =>
    by_cases same : other = line
    · simp [Act.apply, takeEdge, Act.consumes, same]
    · simp [Act.apply, takeEdge, Act.consumes, same, Ne.symm same]
  | discardEdges => simp [Act.apply, hasEdge, LineState.withoutEdge, Act.consumes]

/-! ## §3 What the history says -/

/-- The history last requested `level` of the line, and `later` is what was done after that. -/
def LastSet (acts : List Act) (line : InputLine) (level : LineLevel) (later : List Act) : Prop :=
  (∃ earlier, acts = earlier ++ .set line level :: later) ∧
    ∀ act ∈ later, act.sets line = false

/-- Some request found the line of a latch with `count` lines clear and made it active, and nothing
has taken or dropped the edge of the line since. -/
def Rose (count : Nat) (acts : List Act) (line : InputLine) : Prop :=
  ∃ earlier level later, acts = earlier ++ .set line level :: later ∧
    ((released count).after earlier).level line = .clear ∧ level.isActive = true ∧
    ∀ act ∈ later, act.consumes line = false

/-- A place in a longer history is the last one or a place in the shorter history. -/
theorem split_concat {acts earlier later : List Act} {act here : Act} :
    acts ++ [act] = earlier ++ here :: later ↔
      (later = [] ∧ here = act ∧ earlier = acts) ∨
        ∃ rest, later = rest ++ [act] ∧ acts = earlier ++ here :: rest := by
  induction later using List.reverseRecOn with
  | nil =>
    rw [List.append_singleton_inj]
    constructor
    · rintro ⟨rfl, rfl⟩
      exact .inl ⟨rfl, rfl, rfl⟩
    · rintro (⟨-, rfl, rfl⟩ | ⟨rest, empty, -⟩)
      · exact ⟨rfl, rfl⟩
      · simp at empty
  | append_singleton rest last =>
    rw [← List.cons_append, ← List.append_assoc, List.append_singleton_inj]
    constructor
    · rintro ⟨rfl, rfl⟩
      exact .inr ⟨rest, rfl, rfl⟩
    · rintro (⟨empty, -⟩ | ⟨other, same, rfl⟩)
      · simp at empty
      · obtain ⟨rfl, rfl⟩ := List.append_singleton_inj.mp same
        exact ⟨rfl, rfl⟩

theorem not_rose_nil (count : Nat) (line : InputLine) : ¬Rose count [] line := by
  rintro ⟨earlier, level, later, split, -⟩
  cases earlier <;> cases split

/-- The last operation raised the line, or the line rose before and the last operation does not
consume its edge. -/
theorem rose_concat (count : Nat) (acts : List Act) (act : Act) (line : InputLine) :
    Rose count (acts ++ [act]) line ↔
      (Rose count acts line ∧ act.consumes line = false) ∨
        ∃ level, act = .set line level ∧ ((released count).after acts).level line = .clear ∧
          level.isActive = true := by
  constructor
  · rintro ⟨earlier, level, later, split, low, rises, kept⟩
    rcases split_concat.mp split with ⟨rfl, rfl, rfl⟩ | ⟨rest, rfl, rfl⟩
    · exact .inr ⟨level, rfl, low, rises⟩
    · refine .inl ⟨⟨earlier, level, rest, rfl, low, rises, ?_⟩, kept act (by simp)⟩
      intro other member
      exact kept other (by simp [member])
  · rintro (⟨⟨earlier, level, later, rfl, low, rises, kept⟩, spared⟩ | ⟨level, rfl, low, rises⟩)
    · refine ⟨earlier, level, later ++ [act], by simp, low, rises, ?_⟩
      intro other member
      rcases List.mem_append.mp member with before | last
      · exact kept other before
      · obtain rfl := List.mem_singleton.mp last
        exact spared
    · exact ⟨acts, level, [], rfl, low, rises, by simp⟩

/-- An edge waits on a line exactly if the line rose. -/
theorem hasEdge_after {count : Nat} {line : InputLine} (there : line.toNat < count)
    (acts : List Act) :
    ((released count).after acts).hasEdge line = true ↔ Rose count acts line := by
  have has : (released count).has line = true := has_released.mpr there
  induction acts using List.reverseRecOn with
  | nil =>
    have still : (released count).hasEdge line = false := by
      simp [hasEdge, state, released, List.getD_eq_getElem?_getD, there]
    simp [still, not_rose_nil]
  | append_singleton acts act ih =>
    have still : ((released count).after acts).has line = true := (has_after ..).trans has
    rw [after_concat, hasEdge_apply still, rose_concat]
    exact or_congr (and_congr_left' ih) Iff.rfl

/-- A line has the level that was last requested of it, unless that was to hold the line and the
line was acknowledged since. -/
theorem level_after_lastSet {count : Nat} {line : InputLine} (there : line.toNat < count)
    {acts later : List Act} {level : LineLevel} (last : LastSet acts line level later) :
    ((released count).after acts).level line =
      if level = .hold ∧ .acknowledge line ∈ later then .clear else level := by
  have has (acts : List Act) : ((released count).after acts).has line = true := by
    rw [has_after, has_released.mpr there]
  obtain ⟨⟨earlier, rfl⟩, quiet⟩ := last
  induction later using List.reverseRecOn with
  | nil =>
    rw [after_concat, level_apply (has earlier)]
    simp
  | append_singleton later act ih =>
    have before := ih fun other member => quiet other (by simp [member])
    have spared : act.sets line = false := quiet act (by simp)
    rw [← List.cons_append, ← List.append_assoc, after_concat, level_apply (has _), before]
    cases act with
    | set other asked =>
      have apart : ¬other = line := by simpa [Act.sets] using spared
      simp [apart]
    | acknowledge other =>
      by_cases same : other = line
      · subst same
        by_cases held : level = .hold
        · simp [held]
        · simp [held]
      · simp [same, Ne.symm same]
    | takeEdge | sample | discardEdges => simp

/-- A line of which nothing was requested is clear. -/
theorem level_after_unset {count : Nat} {line : InputLine} {acts : List Act}
    (unset : ∀ act ∈ acts, act.sets line = false) :
    ((released count).after acts).level line = .clear := by
  induction acts using List.reverseRecOn with
  | nil =>
    simp [level, state, released, List.getD_eq_getElem?_getD, List.getElem?_replicate]
    split <;> rfl
  | append_singleton acts act ih =>
    have before := ih fun other member => unset other (by simp [member])
    have spared : act.sets line = false := unset act (by simp)
    rw [after_concat]
    cases there : ((released count).after acts).has line with
    | false =>
      unfold level
      rw [state_absent (by rw [has_apply, there])]
    | true =>
      rw [level_apply there, before]
      cases act with
      | set other asked =>
        have apart : ¬other = line := by simpa [Act.sets] using spared
        simp [apart]
      | acknowledge | takeEdge | sample | discardEdges => simp

/-- A line that the latch does not have is clear and without edge, whatever the history. -/
theorem state_after_absent {count : Nat} {line : InputLine} (absent : ¬line.toNat < count)
    (acts : List Act) : ((released count).after acts).state line = {} := by
  apply state_absent
  rw [has_after, ← Bool.not_eq_true, has_released]
  exact absent

/-- The answers of a latch about a line, told from its history. A line within the count answers an
edge exactly if it rose since its edge was last taken, sampled or dropped. It has the level that was
last requested of it, unless it was held and acknowledged since, and samples as a level line
accordingly. A line past the count is clear and answers no to everything. An operation on one line
leaves the level and the edge of every other line as they are. -/
theorem answers_after_history (count : Nat) (acts : List Act) (line : InputLine) :
    (line.toNat < count →
      ((((released count).after acts).takeEdge line).1 = true ↔ Rose count acts line) ∧
      ((((released count).after acts).sample line .edge).1 = true ↔ Rose count acts line) ∧
      (∀ level later, LastSet acts line level later →
        ((released count).after acts).level line =
          if level = .hold ∧ .acknowledge line ∈ later then .clear else level) ∧
      ((∀ act ∈ acts, act.sets line = false) →
        ((released count).after acts).level line = .clear)) ∧
    ((((released count).after acts).sample line .level).1 = true ↔
      ((released count).after acts).level line = .assert ∨
        ((released count).after acts).level line = .hold) ∧
    (¬line.toNat < count →
      ((released count).after acts).level line = .clear ∧
      (((released count).after acts).takeEdge line).1 = false ∧
      ∀ trigger, (((released count).after acts).sample line trigger).1 = false) ∧
    (∀ act named, act.line? = some named → line ≠ named →
      ((released count).after (acts ++ [act])).level line =
          ((released count).after acts).level line ∧
        ((released count).after (acts ++ [act])).hasEdge line =
          ((released count).after acts).hasEdge line) := by
  refine ⟨fun there => ⟨hasEdge_after there acts, ?_, ?_, level_after_unset⟩, ?_, ?_, ?_⟩
  · rw [sample_fst]
    exact hasEdge_after there acts
  · intro level later last
    exact level_after_lastSet there last
  · rw [sample_fst]
    cases ((released count).after acts).level line <;> simp [LineLevel.isActive]
  · intro absent
    have quiet := state_after_absent absent acts
    refine ⟨congrArg LineState.level quiet, congrArg LineState.edge quiet, fun trigger => ?_⟩
    rw [sample_fst]
    cases trigger with
    | edge => exact congrArg LineState.edge quiet
    | level => exact congrArg (·.level.isActive) quiet
  · intro act named names other
    have kept := state_apply_other ((released count).after acts) names other
    rw [after_concat]
    exact ⟨congrArg LineState.level kept, congrArg LineState.edge kept⟩

/-- Of two lines, the first was held, acknowledged and held again after its edge was taken, so it
answers one more edge; the third line is not there and was asserted in vain. -/
theorem answers_after_history_pulses :
    ∃ acts : List Act, acts = [.set 0 .hold, .takeEdge 0, .set 0 .assert, .set 0 .hold,
        .acknowledge 0, .set 2 .assert, .set 0 .hold, .sample 1 .level] ∧
      (((released 2).after acts).takeEdge 0).1 = true ∧
      ((released 2).after acts).level 0 = .hold ∧ ((released 2).after acts).level 2 = .clear := by
  refine ⟨_, rfl, ?_, ?_, ?_⟩
  · refine ((answers_after_history 2 _ 0).1 (by decide)).1.mpr ?_
    exact ⟨[.set 0 .hold, .takeEdge 0, .set 0 .assert, .set 0 .hold, .acknowledge 0,
      .set 2 .assert], .hold, [.sample 1 .level], rfl, by decide, by decide, by decide⟩
  · exact ((answers_after_history 2 _ 0).1 (by decide)).2.2.1 .hold [.sample 1 .level]
      ⟨⟨[.set 0 .hold, .takeEdge 0, .set 0 .assert, .set 0 .hold, .acknowledge 0,
        .set 2 .assert], rfl⟩, by decide⟩
  · exact ((answers_after_history 2 _ 2).2.2.1 (by decide)).1

end LineLatch

end Microboard
