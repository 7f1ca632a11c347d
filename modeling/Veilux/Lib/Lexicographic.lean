/-
Words in lexicographic order: a code that tells letters apart in order keeps the order of
words, and the words with a common front lie side by side.
-/

import Mathlib.Data.List.Lex
import Mathlib.Order.Lattice

namespace Lexicographic

variable {A B : Type}

/-! ### Codes -/

/-- Codes of different letters differ in order, whatever follows them. -/
def Ordered [LT A] [LT B] (code : A → List B) : Prop :=
  ∀ left right, left < right → ∀ front back, code left ++ front < code right ++ back

variable [LinearOrder A] [LT B]

theorem append_lt_append_left (front : List B) {left right : List B} (less : left < right) :
    front ++ left < front ++ right := by
  induction front with
  | nil => exact less
  | cons letter front ih => exact List.cons_lt_cons_iff.mpr (.inr ⟨rfl, ih⟩)

theorem flatMap_lt {code : A → List B} (ordered : Ordered code) (nonempty : ∀ letter, code letter ≠ [])
    {left right : List A} (less : left < right) : left.flatMap code < right.flatMap code := by
  induction left generalizing right with
  | nil =>
      cases right with
      | nil => exact absurd less (lt_irrefl _)
      | cons letter right =>
          rw [List.flatMap_cons, List.flatMap_nil]
          cases coded : code letter with
          | nil => exact absurd coded (nonempty letter)
          | cons first rest => exact List.nil_lt_cons _ _
  | cons letter left ih =>
      cases right with
      | nil => exact absurd less (List.not_lt_nil _)
      | cons other right =>
          rw [List.flatMap_cons, List.flatMap_cons]
          rcases List.cons_lt_cons_iff.mp less with first | ⟨rfl, rest⟩
          · exact ordered letter other first _ _
          · exact append_lt_append_left _ (ih rest)

/-- Coded words compare as the words do. -/
theorem flatMap_lt_iff [Std.Irrefl (α := B) (· < ·)] [Std.Asymm (α := B) (· < ·)]
    {code : A → List B} (ordered : Ordered code) (nonempty : ∀ letter, code letter ≠ [])
    {left right : List A} : left.flatMap code < right.flatMap code ↔ left < right := by
  constructor
  · intro less
    rcases lt_trichotomy left right with below | same | above
    · exact below
    · rw [same] at less
      exact absurd less (List.lt_irrefl _)
    · exact absurd less (List.lt_asymm (flatMap_lt ordered nonempty above))
  · exact flatMap_lt ordered nonempty

/-! ### Fronts -/

omit [LinearOrder A] in
/-- Between a front and a word that has it, every word has it. -/
theorem prefix_of_between {front low high : List B} (least : ¬ low < front) (below : low < high)
    (leads : front <+: high) : front <+: low := by
  induction front generalizing low high with
  | nil => exact List.nil_prefix
  | cons letter front ih =>
      obtain ⟨rest, rfl⟩ := leads
      cases low with
      | nil => exact absurd (List.nil_lt_cons _ _) least
      | cons first low =>
          rcases List.cons_lt_cons_iff.mp below with less | ⟨rfl, inside⟩
          · exact absurd (List.cons_lt_cons_iff.mpr (.inl less)) least
          · have later : ¬ low < front := fun less =>
              least (List.cons_lt_cons_iff.mpr (.inr ⟨rfl, less⟩))
            exact (List.prefix_cons_inj first).mpr (ih later inside ⟨rest, rfl⟩)

/-- In a sorted list, what holds of an entry and of all before it is not cut short. -/
theorem takeWhile_eq_filter {E : Type} {relation : E → E → Prop} {test : E → Bool}
    {entries : List E} (sorted : entries.Pairwise relation)
    (closed : ∀ earlier ∈ entries, ∀ later ∈ entries, relation earlier later →
      test later = true → test earlier = true) :
    entries.takeWhile test = entries.filter test := by
  induction entries with
  | nil => rfl
  | cons entry entries ih =>
      obtain ⟨first, rest⟩ := List.pairwise_cons.mp sorted
      by_cases passed : test entry = true
      · rw [List.takeWhile_cons_of_pos passed, List.filter_cons_of_pos passed]
        rw [ih rest fun earlier inEarlier later inLater => closed earlier
          (List.mem_cons_of_mem _ inEarlier) later (List.mem_cons_of_mem _ inLater)]
      · rw [List.takeWhile_cons_of_neg passed, List.filter_cons_of_neg passed]
        symm
        apply List.filter_eq_nil_iff.mpr
        intro later inside tested
        exact passed (closed entry List.mem_cons_self later (List.mem_cons_of_mem _ inside)
          (first later inside) tested)

end Lexicographic
