/-
Data refinement for stateful programs that may fail.  A program over a concrete
state is mirrored by a sketch over an abstract one: it succeeds exactly when the
sketch does, with the sketch's image of the value, and leaves a state with the
sketch's view.
-/

import Mathlib

namespace Mirror

variable {E S A α β γ δ : Type}

/-! ### Successful sketches -/

/-- The sketch ends with a value, from one abstract state in another. -/
def Yields (sketch : StateT A Option γ) (before : A) (value : γ) (after : A) : Prop :=
  sketch.run before = some (value, after)

section Yields

variable {before after : A} {value result : γ}

theorem yields_pure :
    Yields (pure value : StateT A Option γ) before result after ↔
      value = result ∧ before = after := by
  change some (value, before) = some (result, after) ↔ _
  rw [Option.some_inj, Prod.mk.injEq]

theorem yields_failure : ¬ Yields (failure : StateT A Option γ) before result after := by
  intro ended
  cases ended

theorem yields_get {read : A} :
    Yields (get : StateT A Option A) before read after ↔ before = read ∧ before = after := by
  change some (before, before) = some (read, after) ↔ _
  rw [Option.some_inj, Prod.mk.injEq]

theorem yields_modify {move : A → A} {nothing : PUnit} :
    Yields (modify move : StateT A Option PUnit) before nothing after ↔ move before = after := by
  change some (PUnit.unit, move before) = some (nothing, after) ↔ _
  rw [Option.some_inj, Prod.mk.injEq]
  exact and_iff_right rfl

theorem yields_bind {sketch : StateT A Option γ} {follow : γ → StateT A Option δ} {last : δ} :
    Yields (sketch >>= follow) before last after ↔
      ∃ value middle, Yields sketch before value middle ∧ Yields (follow value) middle last after := by
  unfold Yields
  rw [StateT.run_bind]
  constructor
  · intro ended
    obtain ⟨⟨value, middle⟩, first, second⟩ := Option.bind_eq_some_iff.mp ended
    exact ⟨value, middle, first, second⟩
  · rintro ⟨value, middle, first, second⟩
    exact Option.bind_eq_some_iff.mpr ⟨(value, middle), first, second⟩

theorem yields_ite {guard : Prop} [Decidable guard] {yes no : StateT A Option γ} :
    Yields (if guard then yes else no) before result after ↔
      (guard ∧ Yields yes before result after) ∨ (¬ guard ∧ Yields no before result after) := by
  by_cases holds : guard
  · rw [if_pos holds]
    simp only [holds, true_and, not_true_eq_false, false_and, or_false]
  · rw [if_neg holds]
    simp only [holds, false_and, not_false_eq_true, true_and, false_or]

theorem yields_lift {found : Option γ} :
    Yields (StateT.lift found : StateT A Option γ) before result after ↔
      found = some result ∧ before = after := by
  change (found.bind fun value => some (value, before)) = some (result, after) ↔ _
  cases found with
  | none =>
      constructor
      · intro ended
        cases ended
      · rintro ⟨ended, _⟩
        cases ended
  | some value => rw [Option.bind_some, Option.some_inj, Option.some_inj, Prod.mk.injEq]

/-- A passed guard. -/
theorem yields_unless {guard : Prop} [Decidable guard] {follow : γ → StateT A Option δ}
    {rest : StateT A Option δ} {last : δ} :
    Yields (if guard then failure >>= follow else rest) before last after ↔
      ¬ guard ∧ Yields rest before last after := by
  rw [yields_ite]
  constructor
  · rintro (⟨_, stopped⟩ | passed)
    · obtain ⟨_, _, impossible, _⟩ := yields_bind.mp stopped
      exact absurd impossible yields_failure
    · exact passed
  · exact .inr

end Yields

/-! ### Programs and sketches -/

/-- What of an outcome the abstract side sees. -/
def seen (view : S → A) (image : α → γ) : Except E α × S → Option (γ × A)
  | (.ok value, after) => some (image value, view after)
  | (.error _, _) => none

/-- The sketch predicts the program from one state. -/
def Mirrors (view : S → A) (image : α → γ) (program : ExceptT E (StateM S) α)
    (sketch : StateT A Option γ) (state : S) : Prop :=
  sketch.run (view state) = seen view image (program.run.run state)

namespace Mirrors

variable {view : S → A} {image : α → γ} {picture : β → δ} {state after : S}
  {program other : ExceptT E (StateM S) α} {sketch plan : StateT A Option γ}

protected theorem pure (value : α) :
    Mirrors view image (pure value : ExceptT E (StateM S) α) (pure (image value)) state := rfl

theorem stop (error : E) :
    Mirrors view image (throw error : ExceptT E (StateM S) α) failure state := rfl

theorem change {update : S → S} {move : A → A} (same : view (update state) = move (view state)) :
    Mirrors view id (modify update : ExceptT E (StateM S) PUnit) (modify move) state := by
  unfold Mirrors
  change some (PUnit.unit, move (view state)) = some (PUnit.unit, view (update state))
  rw [same]

/-- A program known to land in one state, against one change of the abstract state. -/
theorem lands {value : α} {move : A → A} {picture : α → PUnit}
    (ran : program.run.run state = (.ok value, after)) (same : view after = move (view state)) :
    Mirrors view picture program (modify move) state := by
  unfold Mirrors
  rw [ran]
  change some (PUnit.unit, move (view state)) = some (PUnit.unit, view after)
  rw [same]

theorem bind {next : α → ExceptT E (StateM S) β} {follow : γ → StateT A Option δ}
    (first : Mirrors view image program sketch state)
    (rest : ∀ value middle, program.run.run state = (.ok value, middle) →
      Mirrors view picture (next value) (follow (image value)) middle) :
    Mirrors view picture (program >>= next) (sketch >>= follow) state := by
  unfold Mirrors at first rest ⊢
  rw [StateT.run_bind, first, ExceptT.run_bind, StateT.run_bind]
  cases ran : program.run.run state with
  | mk outcome middle =>
      cases outcome with
      | error error => rfl
      | ok value => exact rest value middle ran

/-- A last step that only computes a value does not show. -/
theorem finish {plan : StateT A Option PUnit} {pictured : α → PUnit} {shown : β → PUnit}
    {result : α → β} (mirrored : Mirrors view pictured program plan state) :
    Mirrors view shown (program >>= fun value => pure (result value)) plan state := by
  unfold Mirrors at mirrored ⊢
  rw [mirrored, ExceptT.run_bind, StateT.run_bind]
  cases program.run.run state with
  | mk outcome middle =>
      cases outcome with
      | error error => rfl
      | ok value => rfl

/-- Both sides read their whole state. -/
theorem read {next : S → ExceptT E (StateM S) β} {follow : A → StateT A Option δ}
    (rest : Mirrors view picture (next state) (follow (view state)) state) :
    Mirrors view picture (get >>= next) (get >>= follow) state := rest

theorem branch {guard : Prop} [Decidable guard]
    (yes : guard → Mirrors view image program sketch state)
    (no : ¬ guard → Mirrors view image other plan state) :
    Mirrors view image (if guard then program else other) (if guard then sketch else plan)
      state := by
  split
  · rename_i holds
    exact yes holds
  · rename_i fails
    exact no fails

/-- A guard that stops both sides. -/
theorem refuse {guard : Prop} [Decidable guard] {error : E}
    {next : α → ExceptT E (StateM S) β} {follow : γ → StateT A Option δ}
    {rest : ExceptT E (StateM S) β} {plan : StateT A Option δ}
    (passes : ¬ guard → Mirrors view picture rest plan state) :
    Mirrors view picture (if guard then throw error >>= next else rest)
      (if guard then failure >>= follow else plan) state :=
  branch (fun _ => rfl) passes

/-- A check that leaves the state alone, against a guard. -/
theorem check {guard : Prop} [Decidable guard] {program : ExceptT E (StateM S) PUnit}
    {next : PUnit → ExceptT E (StateM S) β} {follow : PUnit → StateT A Option δ}
    {plan : StateT A Option δ}
    (exact : ∀ after, program.run.run state = (.ok PUnit.unit, after) ↔ ¬ guard ∧ after = state)
    (rest : ¬ guard → Mirrors view picture (next PUnit.unit) plan state) :
    Mirrors view picture (program >>= next) (if guard then failure >>= follow else plan) state := by
  unfold Mirrors at rest ⊢
  rw [ExceptT.run_bind, StateT.run_bind]
  by_cases fails : guard
  · rw [if_pos fails]
    cases ran : program.run.run state with
    | mk outcome after =>
        cases outcome with
        | error error => rfl
        | ok value => exact absurd fails ((exact after).mp ran).1
  · rw [if_neg fails, rest fails, (exact state).mpr ⟨fails, rfl⟩]
    rfl

/-- A program that only computes. -/
theorem computes {found : Option γ}
    (exact : ∀ value after, program.run.run state = (.ok value, after) →
      found = some (image value) ∧ after = state)
    (total : ∀ result, found = some result → ∃ value after,
      program.run.run state = (.ok value, after)) :
    Mirrors view image program (StateT.lift found) state := by
  unfold Mirrors
  cases ran : program.run.run state with
  | mk outcome after =>
      cases outcome with
      | ok value =>
          obtain ⟨same, kept⟩ := exact value after ran
          rw [same, kept]
          rfl
      | error error =>
          cases known : found with
          | none => rfl
          | some result =>
              obtain ⟨value, last, succeeded⟩ := total result known
              rw [ran] at succeeded
              cases succeeded

/-- A program that succeeds under one condition, with one change of the abstract state. -/
theorem guarded (guard : A → Prop) [DecidablePred guard] (move : A → A) {picture : α → PUnit}
    (passes : guard (view state) → ∃ value after, program.run.run state = (.ok value, after) ∧
      view after = move (view state))
    (only : ∀ value after, program.run.run state = (.ok value, after) → guard (view state)) :
    Mirrors view picture program
      (do
        if ¬ guard (← get) then failure
        modify move) state := by
  unfold Mirrors
  change StateT.run (if ¬ guard (view state) then failure >>= _ else modify move) (view state) = _
  by_cases holds : guard (view state)
  · rw [if_neg (not_not_intro holds)]
    obtain ⟨value, after, ran, same⟩ := passes holds
    exact lands ran same
  · rw [if_pos holds]
    cases ran : program.run.run state with
    | mk outcome after =>
        cases outcome with
        | error error => rfl
        | ok value => exact absurd (only value after ran) holds

/-- Replacing the error of a failing program does not show. -/
theorem rename (error : E) (mirrored : Mirrors view image program sketch state) :
    Mirrors view image (tryCatch program fun _ => throw error) sketch state := by
  unfold Mirrors at mirrored ⊢
  rw [mirrored]
  change _ = seen view image ((ExceptT.tryCatch program fun _ => throw error).run.run state)
  unfold ExceptT.tryCatch
  rw [ExceptT.run_mk, StateT.run_bind]
  cases ran : program.run.run state with
  | mk outcome middle =>
      have ran' : StateT.run program state = (outcome, middle) := ran
      rw [ran']
      cases outcome with
      | error failed => rfl
      | ok value => rfl

/-- A successful program was predicted. -/
theorem predicted (mirrored : Mirrors view image program sketch state) {value : α}
    (ran : program.run.run state = (.ok value, after)) :
    Yields sketch (view state) (image value) (view after) := by
  unfold Mirrors at mirrored
  unfold Yields
  rw [mirrored, ran]
  rfl

/-- A predicted success happens. -/
theorem happens (mirrored : Mirrors view image program sketch state) {seenValue : γ}
    {abstracted : A} (planned : Yields sketch (view state) seenValue abstracted) :
    ∃ value after, program.run.run state = (.ok value, after) ∧ image value = seenValue ∧
      view after = abstracted := by
  unfold Mirrors at mirrored
  unfold Yields at planned
  rw [mirrored] at planned
  cases ran : program.run.run state with
  | mk outcome after =>
      rw [ran] at planned
      cases outcome with
      | error error => cases planned
      | ok result =>
          cases planned
          exact ⟨result, after, rfl, rfl, rfl⟩

end Mirrors

end Mirror
