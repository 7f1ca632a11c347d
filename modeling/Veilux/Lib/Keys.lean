/-
Text keys built by concatenation: when the parts around a separator can be read
back, and why keys of families with incomparable heads never meet.
-/

import Mathlib

namespace Keys

section Separated

variable {A : Type} {sep : A} {front other back rest : List A}

/-- With no separator in the first parts, a joined key has one reading. -/
theorem split_first (clean : sep ∉ front) (otherClean : sep ∉ other)
    (same : front ++ sep :: back = other ++ sep :: rest) : front = other ∧ back = rest := by
  induction front generalizing other with
  | nil =>
      cases other with
      | nil => exact ⟨rfl, (List.cons.inj same).2⟩
      | cons head tail =>
          have first := (List.cons.inj same).1
          exact absurd (first ▸ List.mem_cons_self) otherClean
  | cons head tail ih =>
      cases other with
      | nil =>
          have first := (List.cons.inj same).1
          exact absurd (first ▸ List.mem_cons_self) clean
      | cons first others =>
          obtain ⟨heads, tails⟩ := List.cons.inj same
          obtain ⟨fronts, backs⟩ := ih (fun member => clean (List.mem_cons_of_mem _ member))
            (fun member => otherClean (List.mem_cons_of_mem _ member)) tails
          exact ⟨by rw [heads, fronts], backs⟩

/-- With no separator in the last parts, a joined key has one reading. -/
theorem split_last (clean : sep ∉ back) (otherClean : sep ∉ rest)
    (same : front ++ sep :: back = other ++ sep :: rest) : front = other ∧ back = rest := by
  have reversed := congrArg List.reverse same
  simp only [List.reverse_append, List.reverse_cons, List.append_assoc, List.singleton_append]
    at reversed
  obtain ⟨backs, fronts⟩ := split_first (fun member => clean (List.mem_reverse.mp member))
    (fun member => otherClean (List.mem_reverse.mp member)) reversed
  exact ⟨List.reverse_injective fronts, List.reverse_injective backs⟩

end Separated

/-- Neither head is the beginning of the other. -/
def Apart (left right : String) : Prop :=
  ¬ left.toList <+: right.toList ∧ ¬ right.toList <+: left.toList

instance (left right : String) : Decidable (Apart left right) :=
  inferInstanceAs (Decidable (_ ∧ _))

theorem Apart.append_ne {left right : String} (apart : Apart left right) (first second : String) :
    left ++ first ≠ right ++ second := by
  intro same
  have texts := congrArg String.toList same
  rw [String.toList_append, String.toList_append] at texts
  have inside : right.toList <+: left.toList ++ first.toList := texts ▸ List.prefix_append _ _
  rcases List.prefix_or_prefix_of_prefix (List.prefix_append _ _) inside with shorter | longer
  · exact apart.1 shorter
  · exact apart.2 longer

end Keys
