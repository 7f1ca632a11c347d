/-
Runs of commands on a state: through one prism, or through a cascade whose prisms
derive no further commands.  A rejected command leaves no trace.
-/

import Veilux.Kernel.Cascade

namespace Veilux

/-! ### Rejecting runs of a handler -/

namespace PrismM

variable {α β : Type}

/-- The handler stops with an error, leaving a state behind. -/
def Rejects (action : PrismM α) (state after : StateTree) : Prop :=
  ∃ error, action.run.run state = (.error error, after)

@[simp] theorem rejects_pure {value : α} {state after : StateTree} :
    ¬ Rejects (pure value : PrismM α) state after := by
  intro rejected
  obtain ⟨error, ran⟩ := rejected
  cases ran

@[simp] theorem rejects_get {state after : StateTree} :
    ¬ Rejects (get : PrismM StateTree) state after := by
  intro rejected
  obtain ⟨error, ran⟩ := rejected
  cases ran

@[simp] theorem rejects_modify {update : StateTree → StateTree} {state after : StateTree} :
    ¬ Rejects (modify update : PrismM PUnit) state after := by
  intro rejected
  obtain ⟨error, ran⟩ := rejected
  cases ran

@[simp] theorem rejects_throw {error : PrismError} {state after : StateTree} :
    Rejects (throw error : PrismM α) state after ↔ state = after := by
  constructor
  · intro rejected
    obtain ⟨_, ran⟩ := rejected
    cases ran
    rfl
  · intro same
    rw [same]
    exact ⟨error, rfl⟩

@[simp] theorem rejects_bind {action : PrismM α} {next : α → PrismM β} {state after : StateTree} :
    Rejects (action >>= next) state after ↔
      Rejects action state after ∨
        ∃ value middle, Accepts action state value middle ∧ Rejects (next value) middle after := by
  unfold Rejects Accepts
  cases first : action.run.run state with
  | mk outcome middle =>
      cases outcome with
      | error error =>
          rw [run_bind_error first]
          constructor
          · intro rejected
            obtain ⟨_, same⟩ := rejected
            cases same
            exact .inl ⟨error, rfl⟩
          · intro either
            rcases either with ⟨_, same⟩ | ⟨_, _, impossible, _⟩
            · cases same
              exact ⟨error, rfl⟩
            · cases impossible
      | ok value =>
          rw [run_bind_ok first]
          constructor
          · intro rejected
            exact .inr ⟨value, middle, rfl, rejected⟩
          · intro either
            rcases either with ⟨_, impossible⟩ | ⟨_, _, same, later⟩
            · cases impossible
            · cases same
              exact later

theorem rejects_ite {guard : Prop} [Decidable guard] {yes no : PrismM α}
    {state after : StateTree} :
    Rejects (if guard then yes else no) state after ↔
      (guard ∧ Rejects yes state after) ∨ (¬ guard ∧ Rejects no state after) := by
  by_cases holds : guard
  · rw [if_pos holds]
    simp only [holds, true_and, not_true_eq_false, false_and, or_false]
  · rw [if_neg holds]
    simp only [holds, false_and, not_false_eq_true, true_and, false_or]

/-- A failure leaves the state as it was. -/
def Clean (action : PrismM α) : Prop := ∀ state after, Rejects action state after → after = state

theorem clean_pure (value : α) : Clean (pure value : PrismM α) :=
  fun _ _ rejected => absurd rejected rejects_pure

theorem clean_throw (error : PrismError) : Clean (throw error : PrismM α) :=
  fun _ _ rejected => (rejects_throw.mp rejected).symm

theorem clean_get : Clean (get : PrismM StateTree) :=
  fun _ _ rejected => absurd rejected rejects_get

theorem clean_modify (update : StateTree → StateTree) : Clean (modify update : PrismM PUnit) :=
  fun _ _ rejected => absurd rejected rejects_modify

/-- What runs before the rest only reads. -/
theorem Clean.bind {action : PrismM α} {next : α → PrismM β} (first : Clean action)
    (reads : ∀ state value middle, Accepts action state value middle → middle = state)
    (second : ∀ value, Clean (next value)) : Clean (action >>= next) := by
  intro state after rejected
  rcases rejects_bind.mp rejected with early | ⟨value, middle, accepted, later⟩
  · exact first state after early
  · have same := reads state value middle accepted
    subst same
    exact second value middle after later

/-- What runs behind a write does not fail. -/
theorem Clean.then {action : PrismM α} {next : α → PrismM β} (first : Clean action)
    (total : ∀ value state after, ¬ Rejects (next value) state after) : Clean (action >>= next) := by
  intro state after rejected
  rcases rejects_bind.mp rejected with early | ⟨value, middle, _, later⟩
  · exact first state after early
  · exact absurd later (total value middle after)

/-- A read of the whole state in front of the rest. -/
theorem Clean.read {next : StateTree → PrismM β} (second : ∀ state, Clean (next state)) :
    Clean (get >>= next) := by
  apply clean_get.bind
  · intro state value middle accepted
    exact (accepts_get.mp accepted).2.symm
  · exact second

/-- A guard that stops with an error. -/
theorem Clean.unless {guard : Prop} [Decidable guard] {error : PrismError} {next : α → PrismM β}
    {rest : PrismM β} (second : Clean rest) :
    Clean (if guard then throw error >>= next else rest) := by
  split
  · intro state after rejected
    rcases rejects_bind.mp rejected with early | ⟨value, middle, accepted, _⟩
    · exact (rejects_throw.mp early).symm
    · exact absurd accepted accepts_throw
  · exact second

theorem Clean.ite {guard : Prop} [Decidable guard] {yes no : PrismM α} (first : Clean yes)
    (second : Clean no) : Clean (if guard then yes else no) := by
  split
  · exact first
  · exact second

/-- Accepted runs derive no commands. -/
def Underived (action : PrismM PrismOutput) : Prop :=
  ∀ state output after, Accepts action state output after → output.derivedCommands = []

theorem underived_single (event : Event) (cost : UInt64) :
    Underived (pure (.single event cost)) := by
  intro state output after accepted
  obtain ⟨rfl, _⟩ := accepts_pure.mp accepted
  rfl

theorem underived_throw (error : PrismError) : Underived (throw error) :=
  fun _ _ _ accepted => absurd accepted accepts_throw

theorem Underived.bind {action : PrismM α} {next : α → PrismM PrismOutput}
    (last : ∀ value, Underived (next value)) : Underived (action >>= next) := by
  intro state output after accepted
  obtain ⟨value, middle, _, accepted⟩ := accepts_bind.mp accepted
  exact last value middle output after accepted

theorem Underived.ite {guard : Prop} [Decidable guard] {yes no : PrismM PrismOutput}
    (first : Underived yes) (second : Underived no) : Underived (if guard then yes else no) := by
  split
  · exact first
  · exact second

end PrismM

/-! ### Runs of commands -/

namespace Prism

variable (prism : Prism)

def Accepted (state : StateTree) (command : Command) : Prop :=
  ∃ output after, PrismM.Accepts (prism.handle command) state output after

def step (state : StateTree) (command : Command) : StateTree :=
  match (prism.handle command).run.run state with
  | (.ok _, after) => after
  | (.error _, _) => state

variable {prism} {command : Command} {state after : StateTree} {output : PrismOutput}

theorem step_eq (accepted : PrismM.Accepts (prism.handle command) state output after) :
    prism.step state command = after := by
  unfold step
  rw [accepted]

theorem step_of_error {error : PrismError}
    (refused : (prism.handle command).run.run state = (.error error, after)) :
    prism.step state command = state := by
  unfold step
  rw [refused]

/-- The prism never derives commands. -/
def Direct (prism : Prism) : Prop := ∀ command, PrismM.Underived (prism.handle command)

end Prism

namespace Cascade

variable (cascade : Cascade)

def Accepted (state : StateTree) (command : Command) : Prop :=
  ∃ receipt after, cascade.apply command state = (.ok receipt, after)

def step (state : StateTree) (command : Command) : StateTree :=
  match cascade.apply command state with
  | (.ok _, after) => after
  | (.error _, _) => state

variable {cascade} {command : Command} {state after : StateTree} {receipt : CascadeReceipt}

theorem step_eq (accepted : cascade.apply command state = (.ok receipt, after)) :
    cascade.step state command = after := by
  unfold step
  rw [accepted]

/-- Every installed prism is direct. -/
def Flat (cascade : Cascade) : Prop :=
  ∀ name prism, cascade.prisms.lookup name = some prism → prism.Direct

/-- In a flat cascade a command is what its own prism makes of it. -/
theorem Flat.handled (flat : Flat cascade)
    (applied : cascade.apply command state = (.ok receipt, after)) :
    ∃ prism output, cascade.prisms.lookup command.prism = some prism ∧
      PrismM.Accepts (prism.handle command) state output after := by
  unfold apply maxCascadeDepth rounds round at applied
  cases installed : cascade.prisms.lookup command.prism with
  | none =>
      rw [installed] at applied
      cases applied
  | some prism =>
      rw [installed] at applied
      dsimp only at applied
      cases ran : (prism.handle command).run.run state with
      | mk result middle =>
          rw [ran] at applied
          cases result with
          | error error => cases applied
          | ok output =>
              refine ⟨prism, output, rfl, ?_⟩
              have direct := flat command.prism prism installed command state output middle ran
              simp only [direct, round, rounds, List.append_nil, Prod.mk.injEq] at applied
              rw [← applied.2]
              exact ran

/-- A command that its own direct prism accepts is accepted. -/
theorem Flat.apply_ok {prism : Prism} {output : PrismOutput} (flat : Flat cascade)
    (installed : cascade.prisms.lookup command.prism = some prism)
    (accepted : PrismM.Accepts (prism.handle command) state output after) :
    ∃ receipt, cascade.apply command state = (.ok receipt, after) := by
  have direct := flat command.prism prism installed command state output after accepted
  unfold apply maxCascadeDepth rounds round
  rw [installed]
  dsimp only
  rw [accepted]
  simp only [direct, round, rounds, List.append_nil]
  exact ⟨_, rfl⟩

end Cascade

end Veilux
