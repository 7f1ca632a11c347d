/-
Keys that handlers leave alone.  What is stored under a head reads the same after every
run of an action, whether it went through or not, when each of its writes goes elsewhere.
-/

import Veilux.Kernel.Cascade
import Veilux.Lib.Effects
import Veilux.Lib.Keys

namespace Veilux

namespace StateTree

variable {head : String} {first second third : StateTree}

theorem get_remove (state : StateTree) (key other : String) :
    (state.remove key).get other = if key = other then none else state.get other := by
  simp only [get, remove, Std.ExtTreeMap.getElem?_erase, Std.LawfulEqCmp.compare_eq_iff_eq]

theorem getJson?_remove [SerdeJson] {α : Type} [Serialize α] (state : StateTree)
    (key other : String) :
    (state.remove key).getJson? α other =
      if key = other then none else state.getJson? α other := by
  unfold getJson? getJson
  rw [get_remove]
  by_cases same : key = other
  · rw [if_pos same, if_pos same]
  · rw [if_neg same, if_neg same]

/-- Everything stored under a head reads the same. -/
def SameUnder (head : String) (before after : StateTree) : Prop :=
  ∀ rest, after.get (head ++ rest) = before.get (head ++ rest)

theorem SameUnder.refl (head : String) (state : StateTree) : SameUnder head state state :=
  fun _ => rfl

theorem SameUnder.trans (former : SameUnder head first second)
    (latter : SameUnder head second third) : SameUnder head first third :=
  fun rest => (latter rest).trans (former rest)

theorem sameUnder_put {other : String} (apart : Keys.Apart other head) (state : StateTree)
    (rest : String) (bytes : List UInt8) :
    SameUnder head state (state.put (other ++ rest) bytes) :=
  fun _ => get_put_ne state bytes (apart.append_ne _ _)

theorem sameUnder_remove {other : String} (apart : Keys.Apart other head) (state : StateTree)
    (rest : String) : SameUnder head state (state.remove (other ++ rest)) := by
  intro suffix
  rw [get_remove, if_neg (apart.append_ne rest suffix)]

end StateTree

open StateTree (SameUnder sameUnder_put sameUnder_remove)

namespace PrismM

variable {α β : Type} {head : String}

/-- However the action ends, it has written nothing under the head. -/
def Spares (head : String) (action : PrismM α) : Prop :=
  ∀ state, SameUnder head state (action.run.run state).2

theorem spares_pure (value : α) : Spares head (pure value : PrismM α) :=
  fun state => SameUnder.refl head state

theorem spares_throw (error : PrismError) : Spares head (throw error : PrismM α) :=
  fun state => SameUnder.refl head state

theorem spares_get : Spares head (get : PrismM StateTree) :=
  fun state => SameUnder.refl head state

theorem spares_bind {action : PrismM α} {next : α → PrismM β} (first : Spares head action)
    (rest : ∀ value, Spares head (next value)) : Spares head (action >>= next) := by
  intro state
  have before := first state
  rw [Effects.run_bind]
  cases ran : action.run.run state with
  | mk result middle =>
      rw [ran] at before
      cases result with
      | ok value => exact before.trans (rest value middle)
      | error error => exact before

/-- Nothing runs behind an error. -/
theorem spares_stop (error : PrismError) (next : α → PrismM β) :
    Spares head (throw error >>= next) :=
  fun state => SameUnder.refl head state

theorem spares_ite {guard : Prop} [Decidable guard] {yes no : PrismM α} (first : Spares head yes)
    (second : Spares head no) : Spares head (if guard then yes else no) := by
  split
  · exact first
  · exact second

theorem spares_guard {guard : Prop} [Decidable guard] {error : PrismError} {next : α → PrismM β}
    {rest : PrismM β} (goes : Spares head rest) :
    Spares head (if guard then throw error >>= next else rest) :=
  spares_ite (spares_stop error next) goes

theorem spares_modify {change : StateTree → StateTree}
    (moves : ∀ state, SameUnder head state (change state)) :
    Spares head (modify change : PrismM PUnit) :=
  fun state => moves state

/-- A write at a key that starts with another head. -/
theorem spares_putJson [Serialize α] {other key : String} (apart : Keys.Apart other head)
    (under : ∃ rest, key = other ++ rest) (value : α) :
    Spares head (modify fun state => state.putJson key value) := by
  obtain ⟨rest, rfl⟩ := under
  exact spares_modify fun state => sameUnder_put apart state rest (toVec value)

theorem spares_remove {other key : String} (apart : Keys.Apart other head)
    (under : ∃ rest, key = other ++ rest) :
    Spares head (modify fun state => state.remove key : PrismM PUnit) := by
  obtain ⟨rest, rfl⟩ := under
  exact spares_modify fun state => sameUnder_remove apart state rest

theorem spares_tryCatch {action : PrismM α} {handler : PrismError → PrismM α}
    (first : Spares head action) (rest : ∀ error, Spares head (handler error)) :
    Spares head (tryCatch action handler) := by
  intro state
  have before := first state
  change SameUnder head state ((ExceptT.tryCatch action handler).run.run state).2
  unfold ExceptT.tryCatch
  rw [ExceptT.run_mk, StateT.run_bind]
  cases ran : action.run.run state with
  | mk result middle =>
      have caught : StateT.run action state = (result, middle) := ran
      rw [ran] at before
      rw [caught]
      cases result with
      | ok value => exact before
      | error error => exact before.trans (rest error middle)

end PrismM

/-! ### Prisms and cascades -/

section Cascades

variable {head : String}

def Prism.Spares (head : String) (prism : Prism) : Prop :=
  ∀ command, PrismM.Spares head (prism.handle command)

namespace Cascade

/-- No installed prism writes under the head. -/
def Spares (head : String) (cascade : Cascade) : Prop :=
  ∀ name prism, cascade.prisms.lookup name = some prism → prism.Spares head

theorem spares_empty : empty.Spares head := by
  intro name prism found
  change AList.lookup name ∅ = _ at found
  rw [AList.lookup_empty] at found
  cases found

theorem Spares.install {cascade : Cascade} {prism : Prism} (spares : cascade.Spares head)
    (next : prism.Spares head) : (cascade.install prism).Spares head := by
  intro name found installed
  change AList.lookup name (cascade.prisms.insert prism.name prism) = _ at installed
  by_cases same : name = prism.name
  · subst same
    rw [AList.lookup_insert] at installed
    cases installed
    exact next
  · rw [AList.lookup_insert_ne same] at installed
    exact spares name found installed

theorem round_spares {cascade : Cascade} (spares : cascade.Spares head) (commands : List Command)
    (acc : Round) (state : StateTree) : SameUnder head state (cascade.round commands acc state).2 := by
  induction commands generalizing acc state with
  | nil => exact SameUnder.refl head state
  | cons command rest ih =>
      unfold round
      cases found : cascade.prisms.lookup command.prism with
      | none => exact SameUnder.refl head state
      | some prism =>
          have handled := spares command.prism prism found command state
          dsimp only
          cases ran : (prism.handle command).run.run state with
          | mk result middle =>
              rw [ran] at handled
              cases result with
              | error error => exact handled
              | ok output => exact handled.trans (ih _ middle)

theorem rounds_spares {cascade : Cascade} (spares : cascade.Spares head) (left : Nat)
    (frontier : List Command) (receipt : CascadeReceipt) (state : StateTree) :
    SameUnder head state (cascade.rounds left frontier receipt state).2 := by
  induction left generalizing frontier receipt state with
  | zero =>
      cases frontier with
      | nil => exact SameUnder.refl head state
      | cons command rest => exact SameUnder.refl head state
  | succ left ih =>
      cases frontier with
      | nil => exact SameUnder.refl head state
      | cons command rest =>
          have handled := round_spares spares (command :: rest)
            ⟨receipt.events, receipt.totalCost, []⟩ state
          unfold rounds
          cases ran : cascade.round (command :: rest) ⟨receipt.events, receipt.totalCost, []⟩
              state with
          | mk result middle =>
              rw [ran] at handled
              cases result with
              | error error => exact handled
              | ok done => exact handled.trans (ih done.next _ middle)

/-- A cascade leaves alone what its prisms leave alone. -/
theorem apply_spares {cascade : Cascade} (spares : cascade.Spares head) (command : Command)
    (state : StateTree) : SameUnder head state (cascade.apply command state).2 :=
  rounds_spares spares _ _ _ state

end Cascade

end Cascades

end Veilux
