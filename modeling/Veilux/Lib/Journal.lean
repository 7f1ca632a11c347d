/-
A world with a stack of saved worlds.  A saved world is named by its position in the
stack, counted from one; to revert or to commit drops it with all that were saved later.
-/

import Mathlib

@[ext]
structure Journal (W : Type) where
  world : W
  saved : List W

namespace Journal

variable {W V : Type}

def snapshot (journal : Journal W) : Nat × Journal W :=
  (journal.saved.length + 1, { journal with saved := journal.saved ++ [journal.world] })

def revert (journal : Journal W) (id : Nat) : Journal W :=
  if 1 ≤ id ∧ id ≤ journal.saved.length then
    { world := journal.saved.getD (id - 1) journal.world
      saved := journal.saved.take (id - 1) }
  else journal

def commit (journal : Journal W) (id : Nat) : Journal W :=
  if 1 ≤ id ∧ id ≤ journal.saved.length then
    { journal with saved := journal.saved.take (id - 1) }
  else journal

/-- Whatever became of the world meanwhile. -/
theorem revert_snapshot (before after : Journal W)
    (kept : after.saved = before.snapshot.2.saved) :
    after.revert before.snapshot.1 = before := by
  have stack : after.saved = before.saved ++ [before.world] := kept
  unfold revert snapshot
  rw [stack, if_pos (by simp)]
  apply Journal.ext
  · simp
  · simp

theorem commit_snapshot (before after : Journal W)
    (kept : after.saved = before.snapshot.2.saved) :
    after.commit before.snapshot.1 = { before with world := after.world } := by
  have stack : after.saved = before.saved ++ [before.world] := kept
  unfold commit snapshot
  rw [stack, if_pos (by simp)]
  apply Journal.ext
  · rfl
  · simp

/-! ### Two journals side by side -/

/-- The worlds of two journals correspond, the present ones and the saved ones. -/
structure Agree (Same : W → V → Prop) (left : Journal W) (right : Journal V) : Prop where
  world : Same left.world right.world
  saved : List.Forall₂ Same left.saved right.saved

variable {Same : W → V → Prop} {left : Journal W} {right : Journal V}

theorem Agree.snapshot (agree : Agree Same left right) :
    left.snapshot.1 = right.snapshot.1 ∧ Agree Same left.snapshot.2 right.snapshot.2 := by
  constructor
  · exact congrArg (· + 1) agree.saved.length_eq
  · exact ⟨agree.world, List.rel_append agree.saved (.cons agree.world .nil)⟩

theorem Agree.revert (agree : Agree Same left right) (id : Nat) :
    Agree Same (left.revert id) (right.revert id) := by
  unfold Journal.revert
  rw [← agree.saved.length_eq]
  by_cases inside : 1 ≤ id ∧ id ≤ left.saved.length
  · rw [if_pos inside, if_pos inside]
    refine ⟨?_, List.forall₂_take _ agree.saved⟩
    have onLeft : id - 1 < left.saved.length := by omega
    have onRight : id - 1 < right.saved.length := by
      rw [← agree.saved.length_eq]
      exact onLeft
    rw [List.getD_eq_getElem _ _ onLeft, List.getD_eq_getElem _ _ onRight]
    exact agree.saved.get onLeft onRight
  · rw [if_neg inside, if_neg inside]
    exact agree

theorem Agree.commit (agree : Agree Same left right) (id : Nat) :
    Agree Same (left.commit id) (right.commit id) := by
  unfold Journal.commit
  rw [← agree.saved.length_eq]
  by_cases inside : 1 ≤ id ∧ id ≤ left.saved.length
  · rw [if_pos inside, if_pos inside]
    exact ⟨agree.world, List.forall₂_take _ agree.saved⟩
  · rw [if_neg inside, if_neg inside]
    exact agree

end Journal

/-! ### Implementations -/

/-- A store that is written to and keeps snapshots of itself. -/
structure Journaling (S W : Type) where
  journal : S → Journal W
  write : S → W → S
  snapshot : S → Nat × S
  revert : S → Nat → S
  commit : S → Nat → S

namespace Journaling

variable {S T W V : Type}

/-- An implementation does what a journal does, for the names it gives out. -/
structure Faithful (store : Journaling S W) : Prop where
  write : ∀ state world,
    store.journal (store.write state world) = { store.journal state with world := world }
  snapshot_name : ∀ state, (store.snapshot state).1 = (store.journal state).snapshot.1
  snapshot : ∀ state, store.journal (store.snapshot state).2 = (store.journal state).snapshot.2
  revert : ∀ state id, 1 ≤ id → store.journal (store.revert state id) = (store.journal state).revert id
  commit : ∀ state id, 1 ≤ id → store.journal (store.commit state id) = (store.journal state).commit id

/-- An operation; a snapshot taken before is named by its place among those taken. -/
inductive Op (W : Type) where
  | write (world : W)
  | snapshot
  | revert (nth : Nat)
  | commit (nth : Nat)

/-- The store, with the names it has given out in their order. -/
def step (store : Journaling S W) (start : S × List Nat) : Op W → S × List Nat
  | .write world => (store.write start.1 world, start.2)
  | .snapshot => ((store.snapshot start.1).2, start.2 ++ [(store.snapshot start.1).1])
  | .revert nth =>
      match start.2[nth]? with
      | some id => (store.revert start.1 id, start.2)
      | none => start
  | .commit nth =>
      match start.2[nth]? with
      | some id => (store.commit start.1 id, start.2)
      | none => start

def run (store : Journaling S W) (start : S) (ops : List (Op W)) : S × List Nat :=
  ops.foldl store.step (start, [])

/-- The same operation on two stores. -/
inductive Op.Alike (Same : W → V → Prop) : Op W → Op V → Prop where
  | write {left : W} {right : V} (same : Same left right) : Alike Same (.write left) (.write right)
  | snapshot : Alike Same .snapshot .snapshot
  | revert (nth : Nat) : Alike Same (.revert nth) (.revert nth)
  | commit (nth : Nat) : Alike Same (.commit nth) (.commit nth)

/-- Two stores that have given out the same names and hold worlds that correspond. -/
structure Level (Same : W → V → Prop) (left : Journaling S W) (right : Journaling T V)
    (first : S × List Nat) (second : T × List Nat) : Prop where
  agree : Journal.Agree Same (left.journal first.1) (right.journal second.1)
  names : first.2 = second.2
  positive : ∀ name ∈ first.2, 1 ≤ name

variable {Same : W → V → Prop} {left : Journaling S W} {right : Journaling T V}

theorem Level.step (onLeft : left.Faithful) (onRight : right.Faithful)
    {first : S × List Nat} {second : T × List Nat} (level : Level Same left right first second)
    {op : Op W} {other : Op V} (alike : Op.Alike Same op other) :
    Level Same left right (left.step first op) (right.step second other) := by
  cases alike with
  | write same =>
      refine ⟨?_, level.names, level.positive⟩
      change Journal.Agree Same (left.journal (left.write _ _)) (right.journal (right.write _ _))
      rw [onLeft.write, onRight.write]
      exact ⟨same, level.agree.saved⟩
  | snapshot =>
      have taken := level.agree.snapshot
      refine ⟨?_, ?_, ?_⟩
      · change Journal.Agree Same (left.journal (left.snapshot _).2)
          (right.journal (right.snapshot _).2)
        rw [onLeft.snapshot, onRight.snapshot]
        exact taken.2
      · change _ ++ [(left.snapshot _).1] = _ ++ [(right.snapshot _).1]
        rw [onLeft.snapshot_name, onRight.snapshot_name, taken.1, level.names]
      · intro name member
        rcases List.mem_append.mp member with earlier | last
        · exact level.positive name earlier
        · rw [List.mem_singleton.mp last, onLeft.snapshot_name]
          exact Nat.le_add_left 1 _
  | revert nth =>
      cases found : first.2[nth]? with
      | none =>
          have missing := found
          rw [level.names] at missing
          simp only [Journaling.step, found, missing]
          exact level
      | some id =>
          have same := found
          rw [level.names] at same
          simp only [Journaling.step, found, same]
          refine ⟨?_, level.names, level.positive⟩
          have positive := level.positive id (List.mem_of_getElem? found)
          rw [onLeft.revert _ _ positive, onRight.revert _ _ positive]
          exact level.agree.revert id
  | commit nth =>
      cases found : first.2[nth]? with
      | none =>
          have missing := found
          rw [level.names] at missing
          simp only [Journaling.step, found, missing]
          exact level
      | some id =>
          have same := found
          rw [level.names] at same
          simp only [Journaling.step, found, same]
          refine ⟨?_, level.names, level.positive⟩
          have positive := level.positive id (List.mem_of_getElem? found)
          rw [onLeft.commit _ _ positive, onRight.commit _ _ positive]
          exact level.agree.commit id

/-- Two faithful stores stay level along every sequence of operations. -/
theorem level_run (onLeft : left.Faithful) (onRight : right.Faithful) {first : S} {second : T}
    (agree : Journal.Agree Same (left.journal first) (right.journal second))
    {ops : List (Op W)} {others : List (Op V)} (alike : List.Forall₂ (Op.Alike Same) ops others) :
    Level Same left right (left.run first ops) (right.run second others) := by
  have start : Level Same left right (first, []) (second, []) := ⟨agree, rfl, nofun⟩
  unfold run
  generalize (first, []) = one at start
  generalize (second, []) = two at start
  induction alike generalizing one two with
  | nil => exact start
  | cons head tail ih => exact ih _ _ (start.step onLeft onRight head)

end Journaling
