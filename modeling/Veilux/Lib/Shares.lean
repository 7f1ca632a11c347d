/-
Shares in a stock of two goods, over natural numbers.  What backs a share, the product of
the goods over the square of the shares, is compared without division; deposits and
withdrawals that round against their owner do not lower it, and trades that keep the
product do not either.
-/

import Mathlib.Tactic.Ring
import Mathlib.Tactic.Positivity
import Mathlib.Algebra.Order.Ring.Nat
import Mathlib.Algebra.Order.Group.Nat

namespace Shares

structure Stock where
  first : Nat
  second : Nat
  shares : Nat

variable {former middle latter : Stock}

/-- A later share is backed by no less than an earlier one. -/
def Keeps (former latter : Stock) : Prop :=
  former.first * former.second * latter.shares ^ 2 ≤
    latter.first * latter.second * former.shares ^ 2

/-- Every share is backed by a unit. -/
def Backed (stock : Stock) : Prop := stock.shares ^ 2 ≤ stock.first * stock.second

theorem Keeps.refl (stock : Stock) : Keeps stock stock := Nat.le_refl _

theorem Keeps.trans (front : Keeps former middle) (back : Keeps middle latter)
    (shared : middle.shares ≠ 0) : Keeps former latter := by
  have positive : 0 < middle.shares ^ 2 := Nat.pow_pos (Nat.pos_of_ne_zero shared)
  refine Nat.le_of_mul_le_mul_right ?_ positive
  calc former.first * former.second * latter.shares ^ 2 * middle.shares ^ 2
      = former.first * former.second * middle.shares ^ 2 * latter.shares ^ 2 := by ring
    _ ≤ middle.first * middle.second * former.shares ^ 2 * latter.shares ^ 2 :=
        Nat.mul_le_mul_right _ front
    _ = middle.first * middle.second * latter.shares ^ 2 * former.shares ^ 2 := by ring
    _ ≤ latter.first * latter.second * middle.shares ^ 2 * former.shares ^ 2 :=
        Nat.mul_le_mul_right _ back
    _ = latter.first * latter.second * former.shares ^ 2 * middle.shares ^ 2 := by ring

theorem Backed.keeps (backed : Backed former) (shared : former.shares ≠ 0)
    (keeps : Keeps former latter) : Backed latter := by
  have positive : 0 < former.shares ^ 2 := Nat.pow_pos (Nat.pos_of_ne_zero shared)
  refine Nat.le_of_mul_le_mul_right ?_ positive
  calc latter.shares ^ 2 * former.shares ^ 2
      = former.shares ^ 2 * latter.shares ^ 2 := Nat.mul_comm _ _
    _ ≤ former.first * former.second * latter.shares ^ 2 := Nat.mul_le_mul_right _ backed
    _ ≤ latter.first * latter.second * former.shares ^ 2 := keeps

/-- Either good per share has not fallen. -/
theorem keeps_of_ratios (first : former.first * latter.shares ≤ latter.first * former.shares)
    (second : former.second * latter.shares ≤ latter.second * former.shares) :
    Keeps former latter := by
  have both := Nat.mul_le_mul first second
  unfold Keeps
  calc former.first * former.second * latter.shares ^ 2
      = former.first * latter.shares * (former.second * latter.shares) := by ring
    _ ≤ latter.first * former.shares * (latter.second * former.shares) := both
    _ = latter.first * latter.second * former.shares ^ 2 := by ring

/-- A trade leaves the shares, and does not lower the product. -/
theorem keeps_trade (product : former.first * former.second ≤ latter.first * latter.second)
    (shares : latter.shares = former.shares) : Keeps former latter := by
  unfold Keeps
  rw [shares]
  exact Nat.mul_le_mul_right _ product

/-- One good of a deposit: the shares it earns are rounded down. -/
theorem ratio_deposit {good amount shares minted : Nat} (earned : minted * good ≤ amount * shares) :
    good * (shares + minted) ≤ (good + amount) * shares := by
  rw [Nat.mul_add, Nat.add_mul, Nat.mul_comm good minted]
  exact Nat.add_le_add_left earned _

/-- One good of a withdrawal: what is paid is rounded down. -/
theorem ratio_withdrawal {good paid shares burned : Nat} (fair : paid * shares ≤ good * burned) :
    good * (shares - burned) ≤ (good - paid) * shares := by
  rw [Nat.mul_sub, Nat.sub_mul]
  exact Nat.sub_le_sub_left fair _

end Shares
