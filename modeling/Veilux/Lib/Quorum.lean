/-
Weighted quorums.  Two sets that each reach two thirds of the total weight
overlap in more than one third of it, so they share a member outside any set of
weight below one third.  Weights are natural numbers and the threshold is the
rounded-down fraction plus one.
-/

import Mathlib

namespace Quorum

variable {V : Type} (weight : V → Nat)

def power (members : Finset V) : Nat := members.sum weight

def threshold (total : Nat) : Nat := total * 2 / 3 + 1

theorem power_mono {small large : Finset V} (subset : small ⊆ large) :
    power weight small ≤ power weight large :=
  Finset.sum_le_sum_of_subset subset

variable [DecidableEq V]

/-- Two quorums of one electorate overlap in more than a third of the weight. -/
theorem third_lt_intersection {all left right : Finset V}
    (leftSubset : left ⊆ all) (rightSubset : right ⊆ all)
    (leftQuorum : threshold (power weight all) ≤ power weight left)
    (rightQuorum : threshold (power weight all) ≤ power weight right) :
    power weight all < 3 * power weight (left ∩ right) := by
  have split : power weight (left ∪ right) + power weight (left ∩ right) =
      power weight left + power weight right := Finset.sum_union_inter
  have joined : power weight (left ∪ right) ≤ power weight all :=
    power_mono weight (Finset.union_subset leftSubset rightSubset)
  unfold threshold at leftQuorum rightQuorum
  omega

/-- Two quorums share a member outside every set below a third of the weight. -/
theorem exists_common_outside {all left right faulty : Finset V}
    (leftSubset : left ⊆ all) (rightSubset : right ⊆ all)
    (leftQuorum : threshold (power weight all) ≤ power weight left)
    (rightQuorum : threshold (power weight all) ≤ power weight right)
    (minority : 3 * power weight (all ∩ faulty) < power weight all) :
    ∃ member, member ∈ left ∧ member ∈ right ∧ member ∉ faulty := by
  have overlap := third_lt_intersection weight leftSubset rightSubset leftQuorum rightQuorum
  by_contra none
  have inside : left ∩ right ⊆ all ∩ faulty := by
    intro member common
    obtain ⟨inLeft, inRight⟩ := Finset.mem_inter.mp common
    refine Finset.mem_inter.mpr ⟨leftSubset inLeft, ?_⟩
    by_contra outside
    exact none ⟨member, inLeft, inRight, outside⟩
  have bounded := power_mono weight inside
  omega

/-- A quorum is not contained in a set below a third of the weight. -/
theorem exists_outside {all members faulty : Finset V} (subset : members ⊆ all)
    (reached : threshold (power weight all) ≤ power weight members)
    (minority : 3 * power weight (all ∩ faulty) < power weight all) :
    ∃ member, member ∈ members ∧ member ∉ faulty := by
  obtain ⟨member, inMembers, _, outside⟩ :=
    exists_common_outside weight subset subset reached reached minority
  exact ⟨member, inMembers, outside⟩

end Quorum
