/-
Actions over a state that may fail, `ExceptT ε (StateM σ)`: what an action does from
a state, and the relations between the states before and after that are closed under
sequencing.
-/

import Mathlib

namespace Effects

variable {ε σ α β : Type}

/-- What holds of the result and of the state an action ends in. -/
def Spec (action : ExceptT ε (StateM σ) α) (state : σ) (post : Except ε α → σ → Prop) : Prop :=
  post (action.run.run state).1 (action.run.run state).2

section Rules

variable {state : σ} {post : Except ε β → σ → Prop}

theorem Spec.mono {action : ExceptT ε (StateM σ) α} {first second : Except ε α → σ → Prop}
    (spec : Spec action state first) (weaker : ∀ result after, first result after →
      second result after) : Spec action state second :=
  weaker _ _ spec

theorem Spec.ran {action : ExceptT ε (StateM σ) β} (spec : Spec action state post)
    {result : Except ε β} {after : σ} (ran : action.run.run state = (result, after)) :
    post result after := by
  unfold Spec at spec
  rw [ran] at spec
  exact spec

theorem run_bind (action : ExceptT ε (StateM σ) α) (next : α → ExceptT ε (StateM σ) β)
    (state : σ) :
    (action >>= next).run.run state =
      match action.run.run state with
      | (.ok value, after) => (next value).run.run after
      | (.error error, after) => (.error error, after) := by
  rw [ExceptT.run_bind, StateT.run_bind]
  change (match (action.run.run state).1 with
    | .ok value => (next value).run
    | .error error => pure (.error error)).run (action.run.run state).2 = _
  cases action.run.run state with
  | mk result after =>
      cases result with
      | ok value => rfl
      | error error => rfl

theorem Spec.bind {action : ExceptT ε (StateM σ) α} {next : α → ExceptT ε (StateM σ) β}
    {middle : Except ε α → σ → Prop} (first : Spec action state middle)
    (rest : ∀ value after, middle (.ok value) after → Spec (next value) after post)
    (failed : ∀ error after, middle (.error error) after → post (.error error) after) :
    Spec (action >>= next) state post := by
  unfold Spec at first ⊢
  rw [run_bind]
  cases ran : action.run.run state with
  | mk result after =>
      rw [ran] at first
      cases result with
      | ok value => exact rest value after first
      | error error => exact failed error after first

/-- As `Spec.bind`, with the run of the first action itself in between. -/
theorem Spec.chain {action : ExceptT ε (StateM σ) α} {next : α → ExceptT ε (StateM σ) β}
    (rest : ∀ value after, action.run.run state = (.ok value, after) →
      Spec (next value) after post)
    (failed : ∀ error after, action.run.run state = (.error error, after) →
      post (.error error) after) :
    Spec (action >>= next) state post := by
  have first : Spec action state fun result after => action.run.run state = (result, after) := rfl
  exact first.bind rest failed

theorem Spec.after {action : ExceptT ε (StateM σ) α} {next : α → ExceptT ε (StateM σ) β}
    {value : α} {middle : σ} (ran : action.run.run state = (.ok value, middle))
    (rest : Spec (next value) middle post) : Spec (action >>= next) state post := by
  unfold Spec at rest ⊢
  rw [run_bind, ran]
  exact rest

theorem Spec.ended {action : ExceptT ε (StateM σ) α} {next : α → ExceptT ε (StateM σ) β}
    {error : ε} {last : σ} (ran : action.run.run state = (.error error, last))
    (holds : post (.error error) last) : Spec (action >>= next) state post := by
  unfold Spec
  rw [run_bind, ran]
  exact holds

theorem Spec.pure {value : β} (holds : post (.ok value) state) :
    Spec (pure value : ExceptT ε (StateM σ) β) state post := holds

theorem Spec.throw {error : ε} (holds : post (.error error) state) :
    Spec (throw error : ExceptT ε (StateM σ) β) state post := holds

theorem Spec.get {next : σ → ExceptT ε (StateM σ) β} (rest : Spec (next state) state post) :
    Spec (MonadState.get >>= next) state post := rest

theorem Spec.set {after : σ} {post : Except ε PUnit → σ → Prop} (holds : post (.ok ⟨⟩) after) :
    Spec (MonadStateOf.set after : ExceptT ε (StateM σ) PUnit) state post := holds

theorem Spec.modify {change : σ → σ} {post : Except ε PUnit → σ → Prop}
    (holds : post (.ok ⟨⟩) (change state)) :
    Spec (modify change : ExceptT ε (StateM σ) PUnit) state post := holds

end Rules

/-! ### Relations closed under sequencing -/

/-- The states before and after an action that went through, and after one that ended
in an error. -/
def Leads (through : σ → σ → Prop) (failed : ε → σ → σ → Prop) (start : σ)
    (result : Except ε α) (after : σ) : Prop :=
  match result with
  | .ok _ => through start after
  | .error error => failed error start after

/-- Every run of the action is in the relations. -/
structure Obeys (through : σ → σ → Prop) (failed : ε → σ → σ → Prop)
    (action : ExceptT ε (StateM σ) α) : Prop where
  leads : ∀ state, Spec action state (Leads through failed state)

/-- What the relations need for sequences of actions to be in them. -/
structure Discipline (through : σ → σ → Prop) (failed : ε → σ → σ → Prop) : Prop where
  refl : ∀ state, through state state
  trans : ∀ {first second third}, through first second → through second third →
    through first third
  fails : ∀ {error first second third}, through first second → failed error second third →
    failed error first third

section Obeys

variable {through : σ → σ → Prop} {failed : ε → σ → σ → Prop}
variable (discipline : Discipline through failed)
include discipline

theorem obeys_pure (value : α) :
    Obeys through failed (pure value : ExceptT ε (StateM σ) α) :=
  ⟨fun state => discipline.refl state⟩

/-- From a given state on. -/
theorem leads_bind {start : σ} {action : ExceptT ε (StateM σ) α}
    {next : α → ExceptT ε (StateM σ) β}
    (first : Spec action start (Leads through failed start))
    (rest : ∀ value, Obeys through failed (next value)) :
    Spec (action >>= next) start (Leads through failed start) := by
  refine first.bind ?_ ?_
  · intro value after led
    refine ((rest value).leads after).mono ?_
    intro result last further
    cases result with
    | ok done => exact discipline.trans led further
    | error error => exact discipline.fails led further
  · intro error after led
    exact led

theorem obeys_bind {action : ExceptT ε (StateM σ) α} {next : α → ExceptT ε (StateM σ) β}
    (first : Obeys through failed action) (rest : ∀ value, Obeys through failed (next value)) :
    Obeys through failed (action >>= next) :=
  ⟨fun state => leads_bind discipline (first.leads state) rest⟩

end Obeys

section Reading

variable {through : σ → σ → Prop} {failed : ε → σ → σ → Prop}

theorem obeys_throw {error : ε} (stops : ∀ state, failed error state state) :
    Obeys through failed (throw error : ExceptT ε (StateM σ) α) :=
  ⟨fun state => stops state⟩

theorem obeys_get {next : σ → ExceptT ε (StateM σ) β}
    (rest : ∀ state, Spec (next state) state (Leads through failed state)) :
    Obeys through failed (get >>= next) :=
  ⟨rest⟩

theorem obeys_modify {change : σ → σ} (moves : ∀ state, through state (change state)) :
    Obeys through failed (modify change : ExceptT ε (StateM σ) PUnit) :=
  ⟨fun state => moves state⟩

theorem obeys_ite {condition : Prop} [Decidable condition] {first second : ExceptT ε (StateM σ) α}
    (yes : Obeys through failed first) (no : Obeys through failed second) :
    Obeys through failed (if condition then first else second) := by
  split
  · exact yes
  · exact no

theorem Obeys.ran_ok {action : ExceptT ε (StateM σ) α} (obeys : Obeys through failed action)
    {state after : σ} {value : α} (ran : action.run.run state = (.ok value, after)) :
    through state after :=
  (obeys.leads state).ran ran

theorem Obeys.ran_error {action : ExceptT ε (StateM σ) α} (obeys : Obeys through failed action)
    {state after : σ} {error : ε} (ran : action.run.run state = (.error error, after)) :
    failed error state after :=
  (obeys.leads state).ran ran

theorem Obeys.mono {action : ExceptT ε (StateM σ) α} {wider : σ → σ → Prop}
    {lost : ε → σ → σ → Prop} (obeys : Obeys through failed action)
    (more : ∀ state after, through state after → wider state after)
    (worse : ∀ error state after, failed error state after → lost error state after) :
    Obeys wider lost action := by
  constructor
  intro state
  refine (obeys.leads state).mono ?_
  intro result after led
  cases result with
  | ok done => exact more state after led
  | error error => exact worse error state after led

end Reading

end Effects
