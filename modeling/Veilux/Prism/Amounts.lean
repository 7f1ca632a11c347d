/-
The values of the saturating operators on amounts.
-/

import Veilux.Lib.Capped
import Veilux.Prism.NativeToken

namespace Veilux

namespace U128

/-- The largest amount. -/
def largest : Nat := 2 ^ 128 - 1

theorem val_le_largest (amount : U128) : amount.val ≤ largest :=
  Nat.le_of_lt_succ amount.isLt

theorem saturatingMul_val (left right : U128) :
    (left.saturatingMul right).val = min (left.val * right.val) (2 ^ 128 - 1) := rfl

theorem saturatingAdd_val (left right : U128) :
    (left.saturatingAdd right).val = min (left.val + right.val) (2 ^ 128 - 1) := rfl

theorem eq_zero_iff {amount : U128} : amount = 0 ↔ amount.val = 0 :=
  Fin.ext_iff

theorem pos_iff {amount : U128} : amount ≠ 0 ↔ 0 < amount.val := by
  rw [Ne, eq_zero_iff, Nat.pos_iff_ne_zero]

end U128

end Veilux
