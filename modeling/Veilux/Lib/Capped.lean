/-
Quotients whose operands are cut off at a cap before the division, and the constant product
of two reserves under a swap with a fee.
-/

import Mathlib.Tactic.Ring
import Mathlib.Algebra.Order.Ring.Nat
import Mathlib.Algebra.Order.Group.Nat

namespace Capped

variable {cap dividend divisor : Nat}

/-- A cap on the dividend is harmless exactly if the quotient does not see it. -/
theorem min_div_eq_iff (positive : 0 < divisor) :
    min dividend cap / divisor = dividend / divisor ↔ dividend < divisor * (cap / divisor + 1) := by
  have reached : dividend / divisor < cap / divisor + 1 ↔
      dividend < (cap / divisor + 1) * divisor := Nat.div_lt_iff_lt_mul positive
  rw [Nat.mul_comm divisor, ← reached]
  rcases Nat.le_total dividend cap with fits | large
  · rw [Nat.min_eq_left fits]
    have ordered : dividend / divisor ≤ cap / divisor := Nat.div_le_div_right fits
    exact ⟨fun _ => Nat.lt_succ_of_le ordered, fun _ => rfl⟩
  · rw [Nat.min_eq_right large]
    have ordered : cap / divisor ≤ dividend / divisor := Nat.div_le_div_right large
    constructor
    · intro same
      rw [same]
      exact Nat.lt_succ_self _
    · intro below
      exact Nat.le_antisymm ordered (Nat.le_of_lt_succ below)

theorem min_div_eq_of_le (fits : dividend ≤ cap) : min dividend cap / divisor = dividend / divisor := by
  rw [Nat.min_eq_left fits]

theorem min_div_le : min dividend cap / divisor ≤ dividend / divisor :=
  Nat.div_le_div_right (Nat.min_le_left _ _)

theorem min_div : min dividend cap / divisor = min (dividend / divisor) (cap / divisor) := by
  rcases Nat.le_total dividend cap with fits | large
  · rw [Nat.min_eq_left fits, Nat.min_eq_left (Nat.div_le_div_right fits)]
  · rw [Nat.min_eq_right large, Nat.min_eq_right (Nat.div_le_div_right large)]

/-- The cap is harmless as long as the quotient, multiplied back, stays below it. -/
theorem min_div_eq_iff_mul_le (positive : 0 < divisor) :
    min dividend cap / divisor = dividend / divisor ↔ dividend / divisor * divisor ≤ cap := by
  rw [min_div, ← Nat.le_div_iff_mul_le positive]
  omega

/-- The least of two capped quotients is the least of the quotients exactly if that one,
multiplied back by either divisor, stays below the cap. -/
theorem min_min_div_eq_iff {left right first second : Nat} (positiveFirst : 0 < first)
    (positiveSecond : 0 < second) :
    min (min left cap / first) (min right cap / second) = min (left / first) (right / second) ↔
      min (left / first) (right / second) * first ≤ cap ∧
        min (left / first) (right / second) * second ≤ cap := by
  rw [min_div, min_div, ← Nat.le_div_iff_mul_le positiveFirst,
    ← Nat.le_div_iff_mul_le positiveSecond]
  omega

/-- With a positive factor, a cap inside a product is a cap around it. -/
theorem min_mul_min {left right : Nat} (positive : 0 < right) :
    min (min left cap * right) cap = min (left * right) cap := by
  rcases Nat.le_total left cap with fits | large
  · rw [Nat.min_eq_left fits]
  · have factor : cap ≤ cap * right := Nat.le_mul_of_pos_right cap positive
    have product : cap * right ≤ left * right := Nat.mul_le_mul_right right large
    rw [Nat.min_eq_right large, Nat.min_eq_right factor, Nat.min_eq_right (factor.trans product)]

theorem min_add_min {left right : Nat} :
    min (min left cap + min right cap) cap = min (left + right) cap := by
  omega

end Capped

namespace ConstantProduct

variable {kept scale reserveIn reserveOut amount : Nat}

/-- What a swap pays when `kept` parts of `scale` remain of the amount after the fee. -/
def output (kept scale reserveIn reserveOut amount : Nat) : Nat :=
  kept * amount * reserveOut / (scale * reserveIn + kept * amount)

theorem output_mul_le :
    output kept scale reserveIn reserveOut amount * (scale * reserveIn + kept * amount) ≤
      kept * amount * reserveOut :=
  Nat.div_mul_le_self _ _

theorem output_lt (positive : 0 < scale * reserveIn) (stocked : 0 < reserveOut) :
    output kept scale reserveIn reserveOut amount < reserveOut := by
  unfold output
  rw [Nat.div_lt_iff_lt_mul (by omega), Nat.mul_comm reserveOut, Nat.add_mul]
  have surplus : 0 < scale * reserveIn * reserveOut := Nat.mul_pos positive stocked
  omega

/-- The fee stays in the pool, so the product of the reserves does not fall. -/
theorem product_le (fee : kept ≤ scale) (positive : 0 < scale * reserveIn)
    (stocked : 0 < reserveOut) :
    reserveIn * reserveOut ≤
      (reserveIn + amount) * (reserveOut - output kept scale reserveIn reserveOut amount) := by
  have paid := @output_mul_le kept scale reserveIn reserveOut amount
  have below := @output_lt kept scale reserveIn reserveOut amount positive stocked
  generalize output kept scale reserveIn reserveOut amount = out at paid below ⊢
  obtain ⟨rest, rfl⟩ := Nat.exists_eq_add_of_le fee
  have scaled : kept + rest ≠ 0 := by
    rintro none
    rw [none, Nat.zero_mul] at positive
    exact Nat.lt_irrefl 0 positive
  -- Both sides are scaled, and the fee on what was paid is added.
  have fees : out * (rest * amount) ≤ rest * amount * reserveOut := by
    rw [Nat.mul_comm out]
    exact Nat.mul_le_mul_left _ below.le
  have weighed : (kept + rest) * (out * (reserveIn + amount)) ≤
      (kept + rest) * (amount * reserveOut) := by
    calc (kept + rest) * (out * (reserveIn + amount))
        = out * ((kept + rest) * reserveIn + kept * amount) + out * (rest * amount) := by ring
      _ ≤ kept * amount * reserveOut + rest * amount * reserveOut := Nat.add_le_add paid fees
      _ = (kept + rest) * (amount * reserveOut) := by ring
  have bounded : out * (reserveIn + amount) ≤ amount * reserveOut :=
    Nat.le_of_mul_le_mul_left weighed (Nat.pos_of_ne_zero scaled)
  have whole : (reserveIn + amount) * (reserveOut - out) + out * (reserveIn + amount) =
      reserveIn * reserveOut + amount * reserveOut := by
    obtain ⟨left, split⟩ := Nat.exists_eq_add_of_le below.le
    rw [split, Nat.add_sub_cancel_left]
    ring
  omega

end ConstantProduct
