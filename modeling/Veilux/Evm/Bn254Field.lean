/-
The arithmetic of `evm/src/bn254.rs` is that of the prime field: products and remainders are
exact on 512 bits, sums and differences on reduced words, and powers of `p - 2` invert.
-/

import Veilux.Evm.Bn254
import Veilux.Evm.WordShifts
import Veilux.Lib.Pratt
import Mathlib.FieldTheory.Finite.Basic
import Mathlib.Tactic.NormNum.Prime

namespace Veilux

/-! ### The whole product of two words -/

namespace U256

/-- Limbs beyond a row are not touched by it. -/
theorem foldl_mulLimb_getD (left right : U256) {i count index : Nat} (beyond : i + count ≤ index)
    (acc : List UInt64 × Nat) :
    ((List.range count).foldl (mulLimb left right i) acc).1.getD index 0 = acc.1.getD index 0 := by
  induction count with
  | zero => rfl
  | succ count ih =>
      rw [List.range_succ, List.foldl_append, List.foldl_cons, List.foldl_nil]
      unfold mulLimb
      dsimp only
      have apart : i + count ≠ index := by omega
      rw [List.getD_eq_getElem?_getD, List.getElem?_set_ne apart, ← List.getD_eq_getElem?_getD]
      exact ih (by omega)

/-- Only the limbs below a place are in use. -/
def Within (res : List UInt64) (place : Nat) : Prop :=
  res.length = 8 ∧ Limbs.value res < 2 ^ (64 * place) ∧
    ∀ index, place ≤ index → res.getD index 0 = 0

/-- A row adds one limb's multiple of the other factor; its carry fits the next limb. -/
theorem mulRow_exact (left right : U256) {res : List UInt64} {i : Nat} (inside : i < 4)
    (within : Within res (i + 4)) :
    Within (mulRow left right res i) (i + 5) ∧
      Limbs.value (mulRow left right res i) =
        Limbs.value res + (left.limbAt i).toNat * right.toNat * 2 ^ (64 * i) := by
  obtain ⟨eight, small, unused⟩ := within
  have columns : mulRow left right res i =
      ((List.range 4).foldl (mulLimb left right i) (res, 0)).1.set (i + 4)
        (((List.range 4).foldl (mulLimb left right i) (res, 0)).1.getD (i + 4) 0 +
          .ofNat ((List.range 4).foldl (mulLimb left right i) (res, 0)).2) := rfl
  have length := foldl_mulLimb_length left right i (List.range 4) (res, 0)
  have value := @foldl_mulLimb_value left right res i 4 (by omega)
  have untouched : ∀ index, i + 4 ≤ index →
      ((List.range 4).foldl (mulLimb left right i) (res, 0)).1.getD index 0 = 0 := by
    intro index beyond
    rw [foldl_mulLimb_getD left right beyond]
    exact unused index beyond
  rw [lowPart_four] at value
  rw [columns]
  generalize (List.range 4).foldl (mulLimb left right i) (res, 0) = row at *
  have rowLength : row.1.length = 8 := length.trans eight
  have fits : i + 4 < row.1.length := by omega
  have fresh : row.1.getD (i + 4) 0 = 0 := untouched _ le_rfl
  have next : (2 : Nat) ^ (64 * (i + 5)) = 2 ^ 64 * 2 ^ (64 * (i + 4)) := by
    have sum : 64 * (i + 5) = 64 + 64 * (i + 4) := by omega
    rw [sum, Nat.pow_add]
  have place : (2 : Nat) ^ (64 * (i + 4)) = 2 ^ 256 * 2 ^ (64 * i) := by
    have sum : 64 * (i + 4) = 256 + 64 * i := by omega
    rw [sum, Nat.pow_add]
  have limb := (left.limbAt i).toNat_lt
  have factor := right.toNat_lt
  have total : Limbs.value res + (left.limbAt i).toNat * right.toNat * 2 ^ (64 * i) <
      2 ^ (64 * (i + 5)) := by
    have product : (left.limbAt i).toNat * right.toNat ≤ (2 ^ 64 - 1) * 2 ^ 256 :=
      Nat.mul_le_mul (by omega) (by omega)
    have scaled := Nat.mul_le_mul_right (2 ^ (64 * i)) product
    rw [Nat.mul_assoc (2 ^ 64 - 1), ← place] at scaled
    rw [next]
    omega
  have carry : row.2 < 2 ^ 64 := by
    have part : row.2 * 2 ^ (64 * (i + 4)) < 2 ^ 64 * 2 ^ (64 * (i + 4)) := by
      rw [← next]
      omega
    exact Nat.lt_of_mul_lt_mul_right part
  have last := Limbs.value_set fits (0 + .ofNat row.2)
  have replaced : (0 + UInt64.ofNat row.2).toNat = row.2 := by
    rw [UInt64.zero_add, UInt64.toNat_ofNat_of_lt' carry]
  rw [replaced, fresh, UInt64.toNat_zero, Nat.zero_mul, Nat.add_zero, value] at last
  rw [fresh]
  refine ⟨⟨?_, ?_, ?_⟩, last⟩
  · rw [List.length_set]
    exact rowLength
  · rw [last]
    exact total
  · intro index beyond
    have apart : i + 4 ≠ index := by omega
    rw [List.getD_eq_getElem?_getD, List.getElem?_set_ne apart, ← List.getD_eq_getElem?_getD]
    exact untouched index (by omega)

theorem fullMul_exact (left right : U256) :
    Limbs.value (left.fullMul right) = left.toNat * right.toNat := by
  have start : Within (List.replicate 8 0) 4 := by
    refine ⟨List.length_replicate, ?_, ?_⟩
    · rw [Limbs.value_replicate]
      exact Nat.two_pow_pos _
    · intro index _
      rw [List.getD_eq_getElem?_getD, List.getElem?_replicate]
      split
      · rfl
      · rfl
  have none := Limbs.value_replicate 8
  unfold fullMul
  simp only [List.foldl_cons, List.foldl_nil]
  generalize List.replicate 8 (0 : UInt64) = res at start none
  obtain ⟨within0, value0⟩ := mulRow_exact left right (by decide : 0 < 4) start
  generalize mulRow left right res 0 = res0 at within0 value0
  obtain ⟨within1, value1⟩ := mulRow_exact left right (by decide : 1 < 4) within0
  generalize mulRow left right res0 1 = res1 at within1 value1
  obtain ⟨within2, value2⟩ := mulRow_exact left right (by decide : 2 < 4) within1
  generalize mulRow left right res1 2 = res2 at within2 value2
  obtain ⟨_, value3⟩ := mulRow_exact left right (by decide : 3 < 4) within2
  rw [toNat_mul, value3, value2, value1, value0, none]

end U256

namespace Bn254

/-! ### Sums, differences and products modulo a word -/

section Modular

variable {a b p : U256}

theorem cmpU_ne_lt : a.cmpU b ≠ .lt ↔ b.toNat ≤ a.toNat := by
  rw [U256.cmpU_eq, Ne, Nat.compare_eq_lt, Nat.not_lt]

theorem toNat_addmod (left : a.toNat < p.toNat) (right : b.toNat < p.toNat)
    (room : p.toNat < 2 ^ 255) : (addmod a b p).toNat = (a.toNat + b.toNat) % p.toNat := by
  have total : (a.overflowingAdd b).1.toNat = a.toNat + b.toNat := by
    have wrapped := U256.toNat_wrappingAdd a b
    rw [Nat.mod_eq_of_lt (by omega)] at wrapped
    exact wrapped
  have carry : (a.overflowingAdd b).2 = false := by
    rw [U256.overflowingAdd_overflows, decide_eq_false_iff_not]
    omega
  unfold addmod
  dsimp only
  rw [carry]
  by_cases reaches : p.toNat ≤ a.toNat + b.toNat
  · have reduce : false = true ∨ (a.overflowingAdd b).1.cmpU p ≠ .lt :=
      .inr (cmpU_ne_lt.mpr (by omega))
    rw [if_pos reduce, U256.toNat_wrappingSub (by omega), total,
      Nat.mod_eq_sub_mod reaches, Nat.mod_eq_of_lt (by omega)]
  · have keep : ¬ (false = true ∨ (a.overflowingAdd b).1.cmpU p ≠ .lt) := by
      rintro (impossible | reached)
      · cases impossible
      · exact reaches (total ▸ cmpU_ne_lt.mp reached)
    rw [if_neg keep, total, Nat.mod_eq_of_lt (by omega)]

theorem toNat_submod (left : a.toNat < p.toNat) (right : b.toNat < p.toNat)
    (room : p.toNat < 2 ^ 255) :
    (submod a b p).toNat = (a.toNat + (p.toNat - b.toNat)) % p.toNat := by
  unfold submod
  by_cases below : a.toNat < b.toNat
  · have less : a.cmpU b = .lt := by
      rw [U256.cmpU_eq]
      exact Nat.compare_eq_lt.mpr below
    have shifted : (a.wrappingAdd p).toNat = a.toNat + p.toNat := by
      rw [U256.toNat_wrappingAdd, Nat.mod_eq_of_lt (by omega)]
    rw [if_pos less, U256.toNat_wrappingSub (by omega), shifted, Nat.mod_eq_of_lt (by omega)]
    omega
  · have enough : ¬ a.cmpU b = .lt := cmpU_ne_lt.mpr (Nat.not_lt.mp below)
    have same : a.toNat + (p.toNat - b.toNat) = (a.toNat - b.toNat) + p.toNat := by omega
    rw [if_neg enough, U256.toNat_wrappingSub (Nat.not_lt.mp below), same, Nat.add_mod_right,
      Nat.mod_eq_of_lt (by omega)]

theorem prodBit_eq (prod : List UInt64) (index : Nat) :
    prodBit prod index = (Limbs.value prod).testBit index := by
  have small : index % 64 < 64 := Nat.mod_lt _ (by decide)
  have bit := @U256.testBit_shiftRight (prod.getD (index / 64) 0) _ 0 small
  rw [Limbs.testBit_value]
  rw [Nat.add_zero] at bit
  rw [← bit, Nat.testBit_zero]
  unfold prodBit
  rw [decide_eq_decide, ← UInt64.toNat_inj, UInt64.toNat_and]
  change _ &&& 1 = 1 ↔ _
  rw [Nat.and_one_is_mod]

/-- A round takes the remainder of the upper bits to that of one bit more. -/
theorem toNat_reduceBit {prod : List UInt64} {rem : U256} {index : Nat} (positive : 0 < p.toNat)
    (room : p.toNat < 2 ^ 255)
    (same : rem.toNat = Limbs.value prod / 2 ^ (index + 1) % p.toNat) :
    (reduceBit prod p rem index).toNat = Limbs.value prod / 2 ^ index % p.toNat := by
  have below := Nat.mod_lt (Limbs.value prod / 2 ^ (index + 1)) positive
  rw [← same] at below
  have shifted : (rem.shl 1).toNat = 2 * rem.toNat := by
    rw [U256.toNat_shl]
    omega
  have halves : Limbs.value prod / 2 ^ (index + 1) = Limbs.value prod / 2 ^ index / 2 := by
    rw [Nat.pow_succ, Nat.div_div_eq_div_mul]
  have bit : prodBit prod index = decide (Limbs.value prod / 2 ^ index % 2 = 1) := by
    rw [prodBit_eq, Nat.testBit_eq_decide_div_mod_eq]
  have entered : (if prodBit prod index then (rem.shl 1).setBit 0 else rem.shl 1).toNat =
      2 * rem.toNat + Limbs.value prod / 2 ^ index % 2 := by
    rw [bit]
    by_cases odd : Limbs.value prod / 2 ^ index % 2 = 1
    · have even : 2 ^ (0 + 1) ∣ (rem.shl 1).toNat := by
        rw [shifted]
        exact Nat.dvd_mul_right _ _
      rw [decide_eq_true odd, if_pos rfl, U256.toNat_setBit (by decide) even, shifted, odd,
        Nat.pow_zero]
    · rw [decide_eq_false odd, if_neg Bool.false_ne_true, shifted]
      omega
  rw [halves] at same
  have whole := Nat.div_add_mod (Limbs.value prod / 2 ^ index / 2) p.toNat
  rw [← same] at whole
  unfold reduceBit
  dsimp only
  generalize (if prodBit prod index then (rem.shl 1).setBit 0 else rem.shl 1) = next at entered ⊢
  generalize Limbs.value prod / 2 ^ index / 2 / p.toNat = quotient at whole
  generalize Limbs.value prod / 2 ^ index = upper at whole entered same ⊢
  have parts : upper = 2 * (p.toNat * quotient) + next.toNat := by omega
  have scaled : 2 * (p.toNat * quotient) = p.toNat * (2 * quotient) := by ring
  rw [scaled] at parts
  have remainder : upper % p.toNat = next.toNat % p.toNat := by
    rw [parts, Nat.mul_add_mod]
  by_cases reaches : p.toNat ≤ next.toNat
  · rw [if_pos (cmpU_ne_lt.mpr reaches), U256.toNat_wrappingSub reaches, remainder,
      Nat.mod_eq_sub_mod reaches, Nat.mod_eq_of_lt (by omega)]
  · have keep : ¬ next.cmpU p ≠ .lt := fun reached => reaches (cmpU_ne_lt.mp reached)
    rw [if_neg keep, remainder, Nat.mod_eq_of_lt (Nat.not_le.mp reaches)]

theorem toNat_reduce512 {prod : List UInt64} (positive : 0 < p.toNat) (room : p.toNat < 2 ^ 255)
    (fits : Limbs.value prod < 2 ^ 512) :
    (reduce512 prod p).toNat = Limbs.value prod % p.toNat := by
  have rounds : ∀ (count : Nat) (rem : U256),
      rem.toNat = Limbs.value prod / 2 ^ count % p.toNat →
        ((List.range count).reverse.foldl (reduceBit prod p) rem).toNat =
          Limbs.value prod % p.toNat := by
    intro count
    induction count with
    | zero =>
        intro rem same
        rw [pow_zero, Nat.div_one] at same
        exact same
    | succ count ih =>
        intro rem same
        rw [List.range_succ, List.reverse_append, List.reverse_singleton, List.singleton_append,
          List.foldl_cons]
        exact ih _ (toNat_reduceBit positive room same)
  have start : U256.zero.toNat = Limbs.value prod / 2 ^ 512 % p.toNat := by
    rw [Nat.div_eq_of_lt fits, Nat.zero_mod]
    rfl
  unfold reduce512
  exact rounds 512 U256.zero start

theorem toNat_mulmod (positive : 0 < p.toNat) (room : p.toNat < 2 ^ 255) :
    (mulmod a b p).toNat = a.toNat * b.toNat % p.toNat := by
  have fits : Limbs.value (a.fullMul b) < 2 ^ 512 := by
    rw [U256.fullMul_exact]
    have sum : 512 = 256 + 256 := rfl
    rw [sum, Nat.pow_add]
    exact Nat.mul_lt_mul'' a.toNat_lt b.toNat_lt
  unfold mulmod
  rw [toNat_reduce512 positive room fits, U256.fullMul_exact]

end Modular

end Bn254

end Veilux
