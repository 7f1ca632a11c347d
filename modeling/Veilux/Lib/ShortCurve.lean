/-
Curves `y^2 = x^3 + b` over a field: the affine formulas that programs use for chords and
tangents are the sums of the group of points.
-/

import Mathlib.AlgebraicGeometry.EllipticCurve.Affine.Point

namespace ShortCurve

open WeierstrassCurve.Affine

variable {F : Type} [Field F] {b x₁ y₁ x₂ y₂ x₃ y₃ slope : F}

def curve (b : F) : WeierstrassCurve.Affine F :=
  { a₁ := 0
    a₂ := 0
    a₃ := 0
    a₄ := 0
    a₆ := b }

theorem equation_iff : (curve b).Equation x₁ y₁ ↔ y₁ * y₁ = x₁ * x₁ * x₁ + b := by
  rw [WeierstrassCurve.Affine.equation_iff]
  simp only [curve, zero_mul, add_zero]
  rw [pow_two, pow_succ, pow_two]

/-- Where the discriminant is not zero every solution is a point. -/
theorem nonsingular_of (proper : (432 : F) * (b * b) ≠ 0) (on : y₁ * y₁ = x₁ * x₁ * x₁ + b) :
    (curve b).Nonsingular x₁ y₁ := by
  have discriminant : (curve b).Δ = -(432 * (b * b)) := by
    simp only [WeierstrassCurve.Δ, WeierstrassCurve.b₂, WeierstrassCurve.b₄, WeierstrassCurve.b₆,
      WeierstrassCurve.b₈, curve]
    ring
  have nonzero : (curve b).Δ ≠ 0 := by
    rw [discriminant]
    exact neg_ne_zero.mpr proper
  exact (equation_iff_nonsingular_of_Δ_ne_zero nonzero).mp (equation_iff.mpr on)

theorem negY_eq (x y : F) : (curve b).negY x y = -y := by
  simp [negY, curve]

theorem some_congr {on : (curve b).Nonsingular x₁ y₁} {at_ : (curve b).Nonsingular x₂ y₂}
    (xs : x₁ = x₂) (ys : y₁ = y₂) : Point.some x₁ y₁ on = Point.some x₂ y₂ at_ := by
  subst xs
  subst ys
  rfl

theorem equation_of (on : (curve b).Nonsingular x₁ y₁) : y₁ * y₁ = x₁ * x₁ * x₁ + b :=
  equation_iff.mp on.1

/-- Coordinates of a sum once the slope is known. -/
theorem sum_coordinates (atX : x₃ = slope * slope - x₁ - x₂) (atY : y₃ = slope * (x₁ - x₃) - y₁) :
    (curve b).addX x₁ x₂ slope = x₃ ∧ (curve b).addY x₁ x₂ y₁ slope = y₃ := by
  have first : (curve b).addX x₁ x₂ slope = x₃ := by
    rw [atX]
    simp only [addX, curve]
    ring
  refine ⟨first, ?_⟩
  rw [addY, negY_eq, negAddY, first, atY]
  ring

variable [DecidableEq F]

theorem chord_add (apart : x₁ ≠ x₂) (left : (curve b).Nonsingular x₁ y₁)
    (right : (curve b).Nonsingular x₂ y₂) (sloped : slope = (y₂ - y₁) * (x₂ - x₁)⁻¹)
    (atX : x₃ = slope * slope - x₁ - x₂) (atY : y₃ = slope * (x₁ - x₃) - y₁) :
    ∃ sum : (curve b).Nonsingular x₃ y₃,
      Point.some x₁ y₁ left + Point.some x₂ y₂ right = Point.some x₃ y₃ sum := by
  have same : (curve b).slope x₁ x₂ y₁ y₂ = slope := by
    rw [slope_of_X_ne apart, sloped, div_eq_mul_inv, ← neg_sub y₂, ← neg_sub x₂, inv_neg,
      neg_mul_neg]
  obtain ⟨xs, ys⟩ := @sum_coordinates _ _ b _ _ _ _ _ _ atX atY
  have proper : ¬ (x₁ = x₂ ∧ y₁ = (curve b).negY x₂ y₂) := fun both => apart both.1
  have sum := nonsingular_add left right proper
  rw [same, xs, ys] at sum
  refine ⟨sum, ?_⟩
  rw [Point.add_some proper]
  exact some_congr (same.symm ▸ xs) (same.symm ▸ ys)

theorem tangent_add (upright : 2 * y₁ ≠ 0) (on : (curve b).Nonsingular x₁ y₁)
    (sloped : slope = 3 * (x₁ * x₁) * (2 * y₁)⁻¹) (atX : x₃ = slope * slope - 2 * x₁)
    (atY : y₃ = slope * (x₁ - x₃) - y₁) :
    ∃ sum : (curve b).Nonsingular x₃ y₃,
      Point.some x₁ y₁ on + Point.some x₁ y₁ on = Point.some x₃ y₃ sum := by
  have turned : y₁ ≠ (curve b).negY x₁ y₁ := by
    rw [negY_eq]
    intro same
    apply upright
    rw [two_mul]
    nth_rewrite 1 [same]
    exact neg_add_cancel y₁
  have same : (curve b).slope x₁ x₁ y₁ y₁ = slope := by
    rw [slope_of_Y_ne rfl turned, negY_eq, sloped, div_eq_mul_inv]
    simp only [curve]
    ring_nf
  have twice : x₃ = slope * slope - x₁ - x₁ := by
    rw [atX]
    ring
  obtain ⟨xs, ys⟩ := @sum_coordinates _ _ b _ _ _ _ _ _ twice atY
  have proper : ¬ (x₁ = x₁ ∧ y₁ = (curve b).negY x₁ y₁) := fun both => turned both.2
  have sum := nonsingular_add on on proper
  rw [same, xs, ys] at sum
  refine ⟨sum, ?_⟩
  rw [Point.add_some proper]
  exact some_congr (same.symm ▸ xs) (same.symm ▸ ys)

/-- Two points over one `x` that differ are opposite. -/
theorem opposite_add (left : (curve b).Nonsingular x₁ y₁) (right : (curve b).Nonsingular x₁ y₂)
    (differ : y₁ ≠ y₂) : Point.some x₁ y₁ left + Point.some x₁ y₂ right = 0 := by
  apply Point.add_of_Y_eq rfl
  rw [negY_eq]
  have first := equation_of left
  have second := equation_of right
  have factors : (y₁ - y₂) * (y₁ + y₂) = 0 := by
    have squares : y₁ * y₁ - y₂ * y₂ = 0 := by
      rw [first, second, sub_self]
    rw [← squares]
    ring
  rcases mul_eq_zero.mp factors with same | opposite
  · exact absurd (sub_eq_zero.mp same) differ
  · exact eq_neg_of_add_eq_zero_left opposite

theorem flat_add (on : (curve b).Nonsingular x₁ y₁) (flat : y₁ = 0) :
    Point.some x₁ y₁ on + Point.some x₁ y₁ on = 0 := by
  apply Point.add_self_of_Y_eq
  rw [negY_eq, flat, neg_zero]

end ShortCurve
