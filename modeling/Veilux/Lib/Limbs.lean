/-
Numbers as lists of 64-bit limbs, least significant first: replacing a limb, cutting
the upper limbs off, and single bits.
-/

import Mathlib

namespace Limbs

def value : List UInt64 → Nat
  | [] => 0
  | limb :: rest => limb.toNat + 2 ^ 64 * value rest

@[simp] theorem value_nil : value [] = 0 := rfl

theorem value_cons (limb : UInt64) (rest : List UInt64) :
    value (limb :: rest) = limb.toNat + 2 ^ 64 * value rest := rfl

theorem value_replicate (count : Nat) : value (List.replicate count 0) = 0 := by
  induction count with
  | zero => rfl
  | succ count ih =>
      rw [List.replicate_succ, value_cons, ih]
      rfl

theorem pow_limb_succ (index : Nat) :
    (2 : Nat) ^ (64 * (index + 1)) = 2 ^ 64 * 2 ^ (64 * index) := by
  rw [Nat.mul_succ, Nat.add_comm, Nat.pow_add]

/-- A replaced limb counts for the old one. -/
theorem value_set {limbs : List UInt64} {index : Nat} (inside : index < limbs.length)
    (limb : UInt64) :
    value (limbs.set index limb) + (limbs.getD index 0).toNat * 2 ^ (64 * index) =
      value limbs + limb.toNat * 2 ^ (64 * index) := by
  induction limbs generalizing index with
  | nil => cases inside
  | cons first rest ih =>
      cases index with
      | zero =>
          simp only [List.set_cons_zero, value_cons, List.getD_cons_zero, Nat.mul_zero, Nat.pow_zero,
            Nat.mul_one]
          omega
      | succ index =>
          have below : index < rest.length := Nat.lt_of_succ_lt_succ inside
          have later := ih below
          simp only [List.set_cons_succ, value_cons, List.getD_cons_succ, pow_limb_succ]
          have scaled := congrArg (2 ^ 64 * ·) later
          simp only [Nat.mul_add] at scaled
          have left : (rest.getD index 0).toNat * (2 ^ 64 * 2 ^ (64 * index)) =
              2 ^ 64 * ((rest.getD index 0).toNat * 2 ^ (64 * index)) := Nat.mul_left_comm _ _ _
          have right : limb.toNat * (2 ^ 64 * 2 ^ (64 * index)) =
              2 ^ 64 * (limb.toNat * 2 ^ (64 * index)) := Nat.mul_left_comm _ _ _
          rw [left, right]
          omega

/-- The lower limbs are the remainder. -/
theorem value_take (limbs : List UInt64) (count : Nat) :
    value (limbs.take count) = value limbs % 2 ^ (64 * count) := by
  induction limbs generalizing count with
  | nil =>
      rw [List.take_nil, value_nil, Nat.zero_mod]
  | cons first rest ih =>
      cases count with
      | zero =>
          rw [List.take_zero, value_nil, Nat.mul_zero, Nat.pow_zero, Nat.mod_one]
      | succ count =>
          rw [List.take_succ_cons, value_cons, value_cons, ih, pow_limb_succ, Nat.mod_mul]
          have bound := first.toNat_lt
          have low : (first.toNat + 2 ^ 64 * value rest) % 2 ^ 64 = first.toNat := by omega
          have high : (first.toNat + 2 ^ 64 * value rest) / 2 ^ 64 = value rest := by omega
          rw [low, high]

theorem testBit_value (limbs : List UInt64) (index : Nat) :
    (value limbs).testBit index = (limbs.getD (index / 64) 0).toNat.testBit (index % 64) := by
  induction limbs generalizing index with
  | nil =>
      rw [value_nil, List.getD_nil, Nat.zero_testBit]
      exact (Nat.zero_testBit _).symm
  | cons first rest ih =>
      rw [value_cons, Nat.add_comm, Nat.testBit_two_pow_mul_add _ first.toNat_lt]
      by_cases low : index < 64
      · rw [if_pos low, Nat.div_eq_of_lt low, Nat.mod_eq_of_lt low, List.getD_cons_zero]
      · obtain ⟨rest', rfl⟩ := Nat.exists_eq_add_of_le (Nat.le_of_not_lt low)
        rw [if_neg low, Nat.add_sub_cancel_left, ih, Nat.add_div_left _ (by decide : 0 < 64),
          Nat.add_mod_left, List.getD_cons_succ]

end Limbs
