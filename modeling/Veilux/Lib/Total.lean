/-
Totals of finitely supported quantities over an arbitrary index type, and how one
update changes them.
-/

import Mathlib

namespace Total

variable {A : Type} {amounts : A → Nat}

noncomputable def total (amounts : A → Nat) : Nat := finsum amounts

theorem total_zero : total (fun _ : A => 0) = 0 := finsum_zero

theorem total_eq_sum (members : Finset A)
    (inside : ∀ index, amounts index ≠ 0 → index ∈ members) :
    total amounts = ∑ index ∈ members, amounts index :=
  finsum_eq_sum_of_support_subset amounts fun index nonzero => inside index nonzero

/-- Replacing one amount replaces its share of the total. -/
theorem total_update [DecidableEq A] (finite : (Function.support amounts).Finite) (index : A)
    (value : Nat) :
    total (Function.update amounts index value) + amounts index = total amounts + value := by
  have member : index ∈ insert index finite.toFinset := Finset.mem_insert_self _ _
  have before : total amounts = ∑ other ∈ insert index finite.toFinset, amounts other := by
    apply total_eq_sum
    intro other nonzero
    exact Finset.mem_insert_of_mem (finite.mem_toFinset.mpr nonzero)
  have after : total (Function.update amounts index value) =
      ∑ other ∈ insert index finite.toFinset, Function.update amounts index value other := by
    apply total_eq_sum
    intro other nonzero
    by_cases same : other = index
    · rw [same]
      exact member
    · rw [Function.update_of_ne same] at nonzero
      exact Finset.mem_insert_of_mem (finite.mem_toFinset.mpr nonzero)
  rw [before, after, Finset.sum_update_of_mem member,
    ← Finset.add_sum_erase _ _ member, Finset.sdiff_singleton_eq_erase]
  omega

theorem le_total (finite : (Function.support amounts).Finite) (index : A) :
    amounts index ≤ total amounts :=
  single_le_finsum index finite fun _ => Nat.zero_le _

theorem pair_le_total (finite : (Function.support amounts).Finite) {index other : A}
    (different : index ≠ other) : amounts index + amounts other ≤ total amounts := by
  classical
  rw [total_eq_sum (insert index (insert other finite.toFinset)) fun place nonzero =>
    Finset.mem_insert_of_mem (Finset.mem_insert_of_mem (finite.mem_toFinset.mpr nonzero))]
  rw [← Finset.sum_pair different]
  apply Finset.sum_le_sum_of_subset
  intro place member
  rcases Finset.mem_insert.mp member with same | single
  · exact same ▸ Finset.mem_insert_self _ _
  · exact Finset.mem_singleton.mp single ▸ Finset.mem_insert_of_mem (Finset.mem_insert_self _ _)

theorem support_update_finite [DecidableEq A] (finite : (Function.support amounts).Finite)
    (index : A) (value : Nat) : (Function.support (Function.update amounts index value)).Finite := by
  apply (finite.insert index).subset
  intro other nonzero
  by_cases same : other = index
  · exact .inl same
  · refine .inr ?_
    rw [Function.mem_support, Function.update_of_ne same] at nonzero
    exact nonzero

/-- Amounts that sit below amounts at different places sum to no more. -/
theorem total_le_total {B : Type} {others : B → Nat} {place : A → B}
    (injective : Function.Injective place) (below : ∀ index, amounts index ≤ others (place index))
    (finite : (Function.support others).Finite) : total amounts ≤ total others := by
  classical
  have small : (Function.support amounts).Finite := by
    apply (finite.preimage injective.injOn).subset
    intro index nonzero
    have bound := below index
    rw [Function.mem_support] at nonzero
    rw [Set.mem_preimage, Function.mem_support]
    omega
  rw [total_eq_sum small.toFinset fun index nonzero => small.mem_toFinset.mpr nonzero,
    total_eq_sum (finite.toFinset ∪ small.toFinset.image place) fun index nonzero =>
      Finset.mem_union_left _ (finite.mem_toFinset.mpr nonzero)]
  calc ∑ index ∈ small.toFinset, amounts index
      ≤ ∑ index ∈ small.toFinset, others (place index) := Finset.sum_le_sum fun index _ => below index
    _ = ∑ index ∈ small.toFinset.image place, others index :=
        (Finset.sum_image fun _ _ _ _ same => injective same).symm
    _ ≤ _ := Finset.sum_le_sum_of_subset Finset.subset_union_right

/-- Amounts bounded by a base and a multiple of weights. -/
theorem total_le_add_mul {base weights : A → Nat} {factor : Nat}
    (finiteBase : (Function.support base).Finite) (finiteWeights : (Function.support weights).Finite)
    (below : ∀ index, amounts index ≤ base index + factor * weights index) :
    total amounts ≤ total base + factor * total weights := by
  classical
  let members := finiteBase.toFinset ∪ finiteWeights.toFinset
  have inBase : ∀ index, base index ≠ 0 → index ∈ members := fun index nonzero =>
    Finset.mem_union_left _ (finiteBase.mem_toFinset.mpr nonzero)
  have inWeights : ∀ index, weights index ≠ 0 → index ∈ members := fun index nonzero =>
    Finset.mem_union_right _ (finiteWeights.mem_toFinset.mpr nonzero)
  have inside : ∀ index, amounts index ≠ 0 → index ∈ members := by
    intro index nonzero
    by_contra outside
    have noBase : base index = 0 := by_contra fun some => outside (inBase index some)
    have noWeight : weights index = 0 := by_contra fun some => outside (inWeights index some)
    have bound := below index
    rw [noBase, noWeight, Nat.mul_zero] at bound
    omega
  rw [total_eq_sum members inside, total_eq_sum members inBase, total_eq_sum members inWeights,
    Finset.mul_sum, ← Finset.sum_add_distrib]
  exact Finset.sum_le_sum fun index _ => below index

theorem total_add {others : A → Nat} (finite : (Function.support amounts).Finite)
    (finiteOthers : (Function.support others).Finite) :
    total (fun index => amounts index + others index) = total amounts + total others :=
  finsum_add_distrib finite finiteOthers

/-- The order of summation does not matter. -/
theorem total_comm {B : Type} {table : A → B → Nat}
    (finite : (Function.support fun pair : A × B => table pair.1 pair.2).Finite) :
    total (fun row => total (table row)) = total fun column => total fun row => table row column := by
  have swapped : (Function.support fun pair : B × A => table pair.2 pair.1).Finite := by
    apply (finite.preimage Prod.swap_injective.injOn).subset
    intro pair nonzero
    exact nonzero
  calc total (fun row => total (table row))
      = finsum fun pair : A × B => table pair.1 pair.2 :=
        (finsum_curry (fun pair : A × B => table pair.1 pair.2) finite).symm
    _ = finsum fun pair : B × A => table pair.2 pair.1 :=
        (finsum_comp_equiv (Equiv.prodComm B A) (f := fun pair : A × B =>
          table pair.1 pair.2)).symm
    _ = total fun column => total fun row => table row column :=
        finsum_curry (fun pair : B × A => table pair.2 pair.1) swapped

/-- Amounts that vanish outside a set sum as they do inside. -/
theorem total_subtype {inside : A → Prop} (outside : ∀ index, ¬ inside index → amounts index = 0) :
    total (fun index : Subtype inside => amounts index) = total amounts := by
  classical
  unfold total
  rw [finsum_subtype_eq_finsum_cond]
  apply finsum_congr
  intro index
  by_cases member : inside index
  · rw [finsum_eq_if, if_pos member]
  · rw [finsum_eq_if, if_neg member, outside index member]

/-- Multiples of amounts that sit below other amounts. -/
theorem mul_total_le {others : A → Nat} {factor : Nat} (positive : 0 < factor)
    (below : ∀ index, factor * amounts index ≤ others index)
    (finite : (Function.support others).Finite) : factor * total amounts ≤ total others := by
  have inOthers : ∀ index, others index ≠ 0 → index ∈ finite.toFinset := fun index nonzero =>
    finite.mem_toFinset.mpr nonzero
  have inside : ∀ index, amounts index ≠ 0 → index ∈ finite.toFinset := by
    intro index nonzero
    apply inOthers
    have bound := below index
    have scaled := Nat.mul_pos positive (Nat.pos_of_ne_zero nonzero)
    omega
  rw [total_eq_sum _ inside, total_eq_sum _ inOthers, Finset.mul_sum]
  exact Finset.sum_le_sum fun index _ => below index

end Total
