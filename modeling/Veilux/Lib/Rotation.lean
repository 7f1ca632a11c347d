/-
A walk around a ring of places with a step of constant width.
-/

import Mathlib.Data.Nat.ModEq
import Mathlib.Data.Fintype.EquivFin

namespace Veilux

namespace Rotation

variable {size step start : Nat}

/-- The place after some steps. -/
def place (size step start steps : Nat) : Nat := (start + step * steps) % size

/-- As many steps as there are places visit each place once. -/
def Fair (size step start : Nat) : Prop :=
  ∀ target, target < size → ∃! steps, steps < size ∧ place size step start steps = target

theorem place_lt (positive : 0 < size) (steps : Nat) : place size step start steps < size :=
  Nat.mod_lt _ positive

theorem place_injective (coprime : Nat.Coprime step size) {left right : Nat}
    (leftInside : left < size) (rightInside : right < size)
    (same : place size step start left = place size step start right) : left = right := by
  have shifted : start + step * left ≡ start + step * right [MOD size] := same
  have scaled : step * left ≡ step * right [MOD size] := Nat.ModEq.add_left_cancel' _ shifted
  have residue : left ≡ right [MOD size] :=
    Nat.ModEq.cancel_left_of_coprime (Nat.gcd_comm size step ▸ coprime) scaled
  exact Nat.ModEq.eq_of_lt_of_lt residue leftInside rightInside

theorem fair_of_coprime (coprime : Nat.Coprime step size) : Fair size step start := by
  intro target inside
  have positive : 0 < size := Nat.zero_lt_of_lt inside
  let visit (steps : Fin size) : Fin size :=
    ⟨place size step start steps.val, place_lt positive steps.val⟩
  have injective : Function.Injective visit := fun left right same =>
    Fin.ext (place_injective coprime left.isLt right.isLt (congrArg Fin.val same))
  obtain ⟨steps, reached⟩ := Finite.surjective_of_injective injective ⟨target, inside⟩
  have here : place size step start steps.val = target := congrArg Fin.val reached
  refine ⟨steps.val, ⟨steps.isLt, here⟩, ?_⟩
  rintro other ⟨otherInside, there⟩
  exact place_injective coprime otherInside steps.isLt (there.trans here.symm)

/-- The places reached differ by multiples of what the width has in common with the ring, so
the place behind the start is not among them unless that is one. -/
theorem coprime_of_fair (positive : 0 < size) (fair : Fair size step start) :
    Nat.Coprime step size := by
  obtain ⟨steps, ⟨_, reached⟩, _⟩ := fair ((start + 1) % size) (Nat.mod_lt _ positive)
  have congruent : start + step * steps ≡ start + 1 [MOD size] := reached
  have divides : step * steps ≡ 1 [MOD Nat.gcd step size] :=
    (Nat.ModEq.add_left_cancel' _ congruent).of_dvd (Nat.gcd_dvd_right step size)
  have multiple : step * steps ≡ 0 [MOD Nat.gcd step size] :=
    Nat.modEq_zero_iff_dvd.mpr ((Nat.gcd_dvd_left step size).mul_right steps)
  have one : (0 : Nat) ≡ 1 [MOD Nat.gcd step size] := multiple.symm.trans divides
  exact Nat.dvd_one.mp (Nat.modEq_zero_iff_dvd.mp one.symm)

/-- A walk is fair exactly when its width has nothing in common with the ring. -/
theorem fair_iff_coprime (positive : 0 < size) : Fair size step start ↔ Nat.Coprime step size :=
  ⟨coprime_of_fair positive, fair_of_coprime⟩

end Rotation

end Veilux
