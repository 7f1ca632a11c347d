/-
Lists whose entries are dropped and found again by a key.
-/

import Mathlib

namespace Kept

variable {A B : Type} [DecidableEq B] {key : A → B}

/-- Among entries with different keys, those with the keys of some are these. -/
theorem filter_keys_of_sublist {taken entries : List A} (fewer : taken.Sublist entries)
    (distinct : (entries.map key).Nodup) :
    (entries.filter fun entry => (taken.map key).contains (key entry)) = taken := by
  induction fewer with
  | slnil => rfl
  | @cons taken entries first fewer ih =>
      rw [List.map_cons, List.nodup_cons] at distinct
      have absent : key first ∉ taken.map key := fun member =>
        distinct.1 ((fewer.map key).subset member)
      rw [List.filter_cons, if_neg]
      · exact ih distinct.2
      · rw [List.contains_iff_mem]
        exact absent
  | @cons_cons taken entries first fewer ih =>
      rw [List.map_cons, List.nodup_cons] at distinct
      rw [List.filter_cons, if_pos (by
        rw [List.contains_iff_mem, List.map_cons]
        exact List.mem_cons_self)]
      refine congrArg (List.cons first) (Eq.trans ?_ (ih distinct.2))
      apply List.filter_congr
      intro entry member
      have different : key entry ≠ key first := fun same =>
        distinct.1 (same ▸ List.mem_map_of_mem member)
      rw [Bool.eq_iff_iff, List.contains_iff_mem, List.contains_iff_mem,
        List.map_cons, List.mem_cons]
      exact ⟨fun inside => inside.resolve_left different, .inr⟩

/-- Entries dropped by key stay those whose keys are left. -/
theorem filter_keys_left (entries : List A) (dropped : B → Bool) :
    (entries.filter fun entry =>
        ((entries.filter fun other => !dropped (key other)).map key).contains (key entry)) =
      entries.filter fun entry => !dropped (key entry) := by
  apply List.filter_congr
  intro entry member
  rw [Bool.eq_iff_iff, List.contains_iff_mem, List.mem_map]
  constructor
  · rintro ⟨other, inside, same⟩
    rw [← same]
    exact (List.mem_filter.mp inside).2
  · intro stays
    exact ⟨entry, List.mem_filter.mpr ⟨member, stays⟩, rfl⟩

end Kept
