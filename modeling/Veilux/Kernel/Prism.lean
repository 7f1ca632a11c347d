/-
The prism interface of `kernel/src/prism.rs`.  A handler updates the state in
place and may fail half way, so its result carries the state in both cases.
-/

import Veilux.Kernel.State

namespace Veilux

inductive PrismError where
  | invalidPayload (text : String)
  | unauthorized (text : String)
  | limitExceeded (text : String)
  | notFound (text : String)
  | internal (text : String)
  deriving DecidableEq

structure PrismOutput where
  events : List Event
  derivedCommands : List Command
  cost : UInt64
  deriving DecidableEq

def PrismOutput.single (event : Event) (cost : UInt64) : PrismOutput :=
  { events := [event]
    derivedCommands := []
    cost := cost }

/-- Handlers: the state survives an error as far as it was written. -/
abbrev PrismM := ExceptT PrismError (StateM StateTree)

structure Prism where
  name : String
  handle : Command → PrismM PrismOutput

/-! ### Accepting runs of a handler -/

namespace PrismM

variable {α β : Type}

/-- The handler returns a value, from one state into another. -/
def Accepts (action : PrismM α) (state : StateTree) (value : α) (after : StateTree) : Prop :=
  action.run.run state = (.ok value, after)

@[simp] theorem accepts_pure {value result : α} {state after : StateTree} :
    Accepts (pure value : PrismM α) state result after ↔ value = result ∧ state = after := by
  unfold Accepts
  constructor
  · intro ran
    cases ran
    exact ⟨rfl, rfl⟩
  · rintro ⟨rfl, rfl⟩
    rfl

@[simp] theorem accepts_throw {error : PrismError} {result : α} {state after : StateTree} :
    ¬ Accepts (throw error : PrismM α) state result after := by
  intro ran
  cases ran

@[simp] theorem accepts_get {result state after : StateTree} :
    Accepts (get : PrismM StateTree) state result after ↔ state = result ∧ state = after := by
  unfold Accepts
  constructor
  · intro ran
    cases ran
    exact ⟨rfl, rfl⟩
  · rintro ⟨rfl, rfl⟩
    rfl

@[simp] theorem accepts_modify {update : StateTree → StateTree} {result : PUnit} {state after : StateTree} :
    Accepts (modify update : PrismM PUnit) state result after ↔ update state = after := by
  unfold Accepts
  constructor
  · intro ran
    cases ran
    rfl
  · rintro rfl
    rfl

theorem run_bind_ok {action : PrismM α} {next : α → PrismM β} {value : α}
    {state middle : StateTree} (first : action.run.run state = (.ok value, middle)) :
    (action >>= next).run.run state = (next value).run.run middle := by
  rw [ExceptT.run_bind, StateT.run_bind, first]
  rfl

theorem run_bind_error {action : PrismM α} {next : α → PrismM β} {error : PrismError}
    {state middle : StateTree} (first : action.run.run state = (.error error, middle)) :
    (action >>= next).run.run state = (.error error, middle) := by
  rw [ExceptT.run_bind, StateT.run_bind, first]
  rfl

@[simp] theorem accepts_bind {action : PrismM α} {next : α → PrismM β} {result : β}
    {state after : StateTree} :
    Accepts (action >>= next) state result after ↔
      ∃ value middle, Accepts action state value middle ∧
        Accepts (next value) middle result after := by
  unfold Accepts
  constructor
  · intro ran
    cases first : action.run.run state with
    | mk outcome middle =>
        cases outcome with
        | error error =>
            rw [run_bind_error first] at ran
            cases ran
        | ok value =>
            rw [run_bind_ok first] at ran
            exact ⟨value, middle, rfl, ran⟩
  · rintro ⟨value, middle, first, second⟩
    rw [run_bind_ok first]
    exact second

/-- A guard that stops with an error. -/
theorem accepts_ite {guard : Prop} [Decidable guard] {yes no : PrismM α} {result : α}
    {state after : StateTree} :
    Accepts (if guard then yes else no) state result after ↔
      (guard ∧ Accepts yes state result after) ∨ (¬ guard ∧ Accepts no state result after) := by
  by_cases holds : guard
  · rw [if_pos holds]
    simp only [holds, true_and, not_true_eq_false, false_and, or_false]
  · rw [if_neg holds]
    simp only [holds, false_and, not_false_eq_true, true_and, false_or]

theorem accepts_unless {guard : Prop} [Decidable guard] {error : PrismError} {next : α → PrismM β}
    {rest : PrismM β} {result : β} {state after : StateTree} :
    Accepts (if guard then throw error >>= next else rest) state result after ↔
      ¬ guard ∧ Accepts rest state result after := by
  simp only [accepts_ite, accepts_bind, accepts_throw, false_and, exists_false, and_false, false_or]

end PrismM

end Veilux
