/-
Counting in a list.  At most one candidate has a strict majority of the votes, and their order
does not matter.  In tallies class by class the marked items are the marked items of each class,
so where no class takes more than it gives and the whole is even, every class is even.
-/

import Mathlib

namespace Majority

variable {A : Type} [DecidableEq A] {votes other : List A} {size : Nat} {left right : A}

/-- More than half of a number of voters. -/
def Wins (votes : List A) (size : Nat) (candidate : A) : Prop := size < 2 * votes.count candidate

instance (votes : List A) (size : Nat) (candidate : A) : Decidable (Wins votes size candidate) :=
  inferInstanceAs (Decidable (_ < _))

theorem count_add_count_le (different : left ≠ right) :
    votes.count left + votes.count right ≤ votes.length := by
  induction votes with
  | nil => simp
  | cons vote votes ih =>
      simp only [List.count_cons, List.length_cons, beq_iff_eq]
      by_cases first : vote = left
      · simp [first, different]
        omega
      · simp [first]
        split <;> omega

theorem Wins.unique (few : votes.length ≤ size) (first : Wins votes size left)
    (second : Wins votes size right) : left = right := by
  by_contra different
  have both := @count_add_count_le _ _ votes left right different
  unfold Wins at first second
  omega

theorem wins_perm (same : votes.Perm other) : Wins votes size left ↔ Wins other size left := by
  unfold Wins
  rw [same.count_eq]

end Majority

namespace Tally

variable {A C : Type} [DecidableEq C]

/-- The marked items of one class. -/
def within (classOf : A → C) (marked : A → Prop) [DecidablePred marked] (class_ : C)
    (items : List A) : Nat :=
  items.countP fun item => marked item ∧ classOf item = class_

variable {classOf : A → C} {marked given taken : A → Prop} [DecidablePred marked]
  [DecidablePred given] [DecidablePred taken] {items : List A}

theorem within_snoc (class_ : C) (items : List A) (item : A) :
    within classOf marked class_ (items ++ [item]) =
      within classOf marked class_ items +
        if marked item ∧ classOf item = class_ then 1 else 0 := by
  unfold within
  rw [List.countP_append, List.countP_singleton]
  simp only [decide_eq_true_eq]

theorem countP_eq_sum {classes : Finset C} (covered : ∀ item ∈ items, classOf item ∈ classes) :
    items.countP (fun item => marked item) =
      ∑ class_ ∈ classes, within classOf marked class_ items := by
  induction items with
  | nil => simp [within]
  | cons item items ih =>
      have inside := covered item List.mem_cons_self
      have rest := ih fun other member => covered other (List.mem_cons_of_mem _ member)
      unfold within at rest ⊢
      simp only [List.countP_cons, Finset.sum_add_distrib, decide_eq_true_eq]
      rw [rest]
      congr 1
      by_cases holds : marked item
      · simp [holds, inside]
      · simp [holds]

/-- Where no class takes more than it gives and the whole takes all, each class takes all. -/
theorem within_eq (fair : ∀ class_, within classOf taken class_ items ≤
      within classOf given class_ items)
    (all : items.countP (fun item => given item) ≤ items.countP fun item => taken item)
    (class_ : C) : within classOf given class_ items = within classOf taken class_ items := by
  have covered : ∀ item ∈ items, classOf item ∈ insert class_ (items.map classOf).toFinset := by
    intro item member
    exact Finset.mem_insert_of_mem (List.mem_toFinset.mpr (List.mem_map_of_mem member))
  rw [countP_eq_sum covered, countP_eq_sum covered] at all
  have sums := le_antisymm (Finset.sum_le_sum fun class_ _ => fair class_) all
  have each := (Finset.sum_eq_sum_iff_of_le fun class_ _ => fair class_).mp sums
  exact (each class_ (Finset.mem_insert_self _ _)).symm

end Tally
