/-
Names and what they stand for.  A quorum of different names is a quorum of different
things exactly when no two names stand for one thing, or too few names are there to
matter.
-/

import Mathlib

namespace Distinct

variable {N K : Type} [DecidableEq N] [DecidableEq K]

/-- A subset of the names with two names of one thing has fewer things than names. -/
theorem card_image_lt {key : N → K} {names : Finset N} {left right : N} (different : left ≠ right)
    (inLeft : left ∈ names) (inRight : right ∈ names) (same : key left = key right) :
    (names.image key).card < names.card := by
  have covered : names.image key = (names.erase left).image key := by
    apply Finset.Subset.antisymm
    · intro thing member
      obtain ⟨name, inside, rfl⟩ := Finset.mem_image.mp member
      by_cases first : name = left
      · rw [first, same]
        exact Finset.mem_image_of_mem _ (Finset.mem_erase.mpr ⟨different.symm, inRight⟩)
      · exact Finset.mem_image_of_mem _ (Finset.mem_erase.mpr ⟨first, inside⟩)
    · exact Finset.image_subset_image (Finset.erase_subset _ _)
  calc (names.image key).card = ((names.erase left).image key).card := by rw [covered]
    _ ≤ (names.erase left).card := Finset.card_image_le
    _ < names.card := Finset.card_erase_lt_of_mem inLeft

/-- One thing is enough, or the names are too few, or they are faithful. -/
def Faithful (key : N → K) (names : Finset N) (quorum : Nat) : Prop :=
  quorum ≤ 1 ∨ names.card < quorum ∨ Set.InjOn key names

omit [DecidableEq N] in
/-- Faithful names: a quorum of them is a quorum of things. -/
theorem Faithful.quorum {key : N → K} {names counted : Finset N} {quorum : Nat}
    (faithful : Faithful key names quorum) (inside : counted ⊆ names)
    (enough : quorum ≤ counted.card) : quorum ≤ (counted.image key).card := by
  rcases faithful with single | few | injective
  · rcases Nat.eq_zero_or_pos quorum with none | positive
    · omega
    · have nonempty : counted.Nonempty := Finset.card_pos.mp (by omega)
      have image := Finset.card_pos.mpr (nonempty.image key)
      omega
  · have bound := Finset.card_le_card inside
    omega
  · rw [Finset.card_image_of_injOn (injective.mono fun name member => inside member)]
    exact enough

/-- If every subset of exactly a quorum of names covers a quorum of things, the names are
faithful. -/
theorem faithful_of_quorums {key : N → K} {names : Finset N} {quorum : Nat}
    (covers : ∀ counted ⊆ names, counted.card = quorum → quorum ≤ (counted.image key).card) :
    Faithful key names quorum := by
  by_contra failing
  unfold Faithful Set.InjOn at failing
  push Not at failing
  obtain ⟨several, enough, left, inLeft, right, inRight, same, different⟩ := failing
  have pair : ({left, right} : Finset N) ⊆ names := by
    intro name member
    rcases Finset.mem_insert.mp member with first | second
    · exact first ▸ inLeft
    · exact Finset.mem_singleton.mp second ▸ inRight
  have two : ({left, right} : Finset N).card = 2 := Finset.card_pair different
  -- Two names of one thing, filled up to exactly a quorum.
  obtain ⟨counted, larger, inside, size⟩ :=
    Finset.exists_subsuperset_card_eq pair (by omega) enough
  have fewer := card_image_lt different (larger (Finset.mem_insert_self _ _))
    (larger (Finset.mem_insert_of_mem (Finset.mem_singleton_self _))) same
  have reached := covers counted inside size
  omega

end Distinct
