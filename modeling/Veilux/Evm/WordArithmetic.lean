/-
The limb loops of `evm/src/u256.rs` against arithmetic modulo 2^256.
-/

import Veilux.Evm.Word
import Veilux.Lib.Limbs

namespace Veilux

namespace U256

/-! ### Words and their limbs -/

theorem toNat_eq_value (value : U256) :
    value.toNat = Limbs.value
      [value.limbAt 0, value.limbAt 1, value.limbAt 2, value.limbAt 3] := by
  simp only [Limbs.value_cons, Limbs.value_nil]
  unfold toNat
  omega

theorem toNat_ofList {limbs : List UInt64} (four : limbs.length = 4) :
    (ofList limbs).toNat = Limbs.value limbs := by
  match limbs, four with
  | [l0, l1, l2, l3], _ =>
      rw [toNat_eq_value]
      rfl

theorem testBit_toNat (value : U256) {index : Nat} (inside : index < 256) :
    value.toNat.testBit index = (value.limbAt (index / 64)).toNat.testBit (index % 64) := by
  rw [toNat_eq_value, Limbs.testBit_value]
  have word : index / 64 < 4 := by omega
  interval_cases index / 64 <;> rfl

theorem testBit_toNat_of_le (value : U256) {index : Nat} (outside : 256 ≤ index) :
    value.toNat.testBit index = false :=
  Nat.testBit_lt_two_pow (value.toNat_lt.trans_le (Nat.pow_le_pow_right (by decide) outside))

theorem toNat_one : one.toNat = 1 := rfl

/-! ### Addition, subtraction and negation -/

theorem overflowingAdd_overflows (left right : U256) :
    (left.overflowingAdd right).2 = decide (2 ^ 256 ≤ left.toNat + right.toNat) := by
  have l0 := (left.limbAt 0).toNat_lt
  have l1 := (left.limbAt 1).toNat_lt
  have l2 := (left.limbAt 2).toNat_lt
  have r0 := (right.limbAt 0).toNat_lt
  have r1 := (right.limbAt 1).toNat_lt
  have r2 := (right.limbAt 2).toNat_lt
  unfold overflowingAdd toNat
  rw [decide_eq_decide]
  omega

theorem overflowingSub_spec (left right : U256) :
    (left.overflowingSub right).1.toNat + right.toNat =
        left.toNat + (if left.toNat < right.toNat then 2 ^ 256 else 0) ∧
      (left.overflowingSub right).2 = decide (left.toNat < right.toNat) := by
  obtain ⟨e0, c0⟩ := subLimb_spec (left.limbAt 0) (right.limbAt 0) (Nat.zero_le 1)
  obtain ⟨e1, c1⟩ := subLimb_spec (left.limbAt 1) (right.limbAt 1) c0
  obtain ⟨e2, c2⟩ := subLimb_spec (left.limbAt 2) (right.limbAt 2) c1
  obtain ⟨e3, c3⟩ := subLimb_spec (left.limbAt 3) (right.limbAt 3) c2
  have bound := toNat_lt (left.overflowingSub right).1
  have rightBound := right.toNat_lt
  have leftBound := left.toNat_lt
  unfold overflowingSub toNat at *
  simp only [limbAt_ofLimbs_zero, limbAt_ofLimbs_one, limbAt_ofLimbs_two, limbAt_ofLimbs_three]
    at *
  generalize subLimb (left.limbAt 0) (right.limbAt 0) 0 = d0 at *
  generalize subLimb (left.limbAt 1) (right.limbAt 1) d0.2 = d1 at *
  generalize subLimb (left.limbAt 2) (right.limbAt 2) d1.2 = d2 at *
  generalize subLimb (left.limbAt 3) (right.limbAt 3) d2.2 = d3 at *
  rw [decide_eq_decide]
  split
  · omega
  · omega

theorem toNat_sub (left right : U256) :
    (left.wrappingSub right).toNat = (left.toNat + 2 ^ 256 - right.toNat) % 2 ^ 256 := by
  have bound := toNat_lt (left.wrappingSub right)
  have rightBound := right.toNat_lt
  have leftBound := left.toNat_lt
  have total := (overflowingSub_spec left right).1
  unfold wrappingSub at bound ⊢
  split at total
  · omega
  · omega

theorem toNat_not (value : U256) : value.not.toNat = 2 ^ 256 - 1 - value.toNat := by
  have l0 := (value.limbAt 0).toNat_lt
  have l1 := (value.limbAt 1).toNat_lt
  have l2 := (value.limbAt 2).toNat_lt
  have l3 := (value.limbAt 3).toNat_lt
  unfold not toNat
  simp only [limbAt_ofLimbs_zero, limbAt_ofLimbs_one, limbAt_ofLimbs_two, limbAt_ofLimbs_three,
    UInt64.toNat_not, UInt64.size]
  omega

theorem toNat_neg (value : U256) : value.neg.toNat = (2 ^ 256 - value.toNat) % 2 ^ 256 := by
  have bound := value.toNat_lt
  unfold neg
  rw [toNat_wrappingAdd, toNat_not, toNat_one]
  omega

/-! ### Multiplication -/

theorem mulLimb_length (left right : U256) (i : Nat) (acc : List UInt64 × Nat) (j : Nat) :
    (mulLimb left right i acc j).1.length = acc.1.length :=
  List.length_set

/-- One product is added in, up to the carry for the next limb. -/
theorem mulLimb_value (left right : U256) {i j : Nat} {acc : List UInt64 × Nat}
    (inside : i + j < acc.1.length) :
    Limbs.value (mulLimb left right i acc j).1 +
        (mulLimb left right i acc j).2 * 2 ^ (64 * (i + j + 1)) =
      Limbs.value acc.1 +
        ((left.limbAt i).toNat * (right.limbAt j).toNat + acc.2) * 2 ^ (64 * (i + j)) := by
  have replaced := Limbs.value_set inside
    (.ofNat ((acc.1.getD (i + j) 0).toNat + (left.limbAt i).toNat * (right.limbAt j).toNat + acc.2))
  rw [UInt64.toNat_ofNat'] at replaced
  unfold mulLimb
  dsimp only
  generalize cur : (acc.1.getD (i + j) 0).toNat + (left.limbAt i).toNat * (right.limbAt j).toNat +
    acc.2 = sum at replaced ⊢
  have parts : sum % 2 ^ 64 * 2 ^ (64 * (i + j)) + sum / 2 ^ 64 * 2 ^ (64 * (i + j + 1)) =
      sum * 2 ^ (64 * (i + j)) := by
    rw [Limbs.pow_limb_succ, ← Nat.mul_assoc, ← Nat.add_mul, Nat.mul_comm (sum / 2 ^ 64),
      Nat.mod_add_div]
  have spread : sum * 2 ^ (64 * (i + j)) = (acc.1.getD (i + j) 0).toNat * 2 ^ (64 * (i + j)) +
      ((left.limbAt i).toNat * (right.limbAt j).toNat + acc.2) * 2 ^ (64 * (i + j)) := by
    rw [← cur, ← Nat.add_mul, Nat.add_assoc]
  omega

/-- The number that the first limbs make. -/
def lowPart (value : U256) (count : Nat) : Nat :=
  ∑ index ∈ Finset.range count, (value.limbAt index).toNat * 2 ^ (64 * index)

theorem lowPart_four (value : U256) : value.lowPart 4 = value.toNat := by
  unfold lowPart toNat
  simp only [Finset.sum_range_succ, Finset.sum_range_zero]
  omega

theorem foldl_mulLimb_length (left right : U256) (i : Nat) (columns : List Nat)
    (acc : List UInt64 × Nat) :
    (columns.foldl (mulLimb left right i) acc).1.length = acc.1.length := by
  induction columns generalizing acc with
  | nil => rfl
  | cons column columns ih => rw [List.foldl_cons, ih, mulLimb_length]

/-- The inner loop, after some of its columns. -/
theorem foldl_mulLimb_value (left right : U256) {res : List UInt64} {i count : Nat}
    (inside : i + count ≤ res.length) :
    Limbs.value ((List.range count).foldl (mulLimb left right i) (res, 0)).1 +
        ((List.range count).foldl (mulLimb left right i) (res, 0)).2 * 2 ^ (64 * (i + count)) =
      Limbs.value res + (left.limbAt i).toNat * right.lowPart count * 2 ^ (64 * i) := by
  induction count with
  | zero =>
      unfold lowPart
      simp
  | succ count ih =>
      rw [List.range_succ, List.foldl_append, List.foldl_cons, List.foldl_nil]
      have earlier := ih (Nat.le_of_succ_le inside)
      have fits : i + count < ((List.range count).foldl (mulLimb left right i) (res, 0)).1.length := by
        rw [foldl_mulLimb_length]
        exact inside
      have step := mulLimb_value left right fits
      have more : right.lowPart (count + 1) =
          right.lowPart count + (right.limbAt count).toNat * 2 ^ (64 * count) :=
        Finset.sum_range_succ _ _
      have shifted : (2 : Nat) ^ (64 * (i + count)) = 2 ^ (64 * count) * 2 ^ (64 * i) := by
        rw [Nat.mul_add, Nat.pow_add, Nat.mul_comm]
      have expand : (left.limbAt i).toNat *
            (right.lowPart count + (right.limbAt count).toNat * 2 ^ (64 * count)) * 2 ^ (64 * i) =
          (left.limbAt i).toNat * right.lowPart count * 2 ^ (64 * i) +
            (left.limbAt i).toNat * ((right.limbAt count).toNat * 2 ^ (64 * count)) *
              2 ^ (64 * i) := by
        ring
      rw [more, expand]
      rw [Nat.add_mul] at step
      have column : (left.limbAt i).toNat * (right.limbAt count).toNat * 2 ^ (64 * (i + count)) =
          (left.limbAt i).toNat * ((right.limbAt count).toNat * 2 ^ (64 * count)) * 2 ^ (64 * i) := by
        rw [shifted]
        ring
      rw [column] at step
      rw [← Nat.add_assoc i count 1]
      omega

/-- A row adds one limb's multiple of the other factor, up to what lies beyond the word. -/
theorem mulRow_value (left right : U256) {res : List UInt64} {i : Nat} (eight : res.length = 8)
    (inside : i < 4) :
    (mulRow left right res i).length = 8 ∧
      Limbs.value (mulRow left right res i) ≡
        Limbs.value res + (left.limbAt i).toNat * right.toNat * 2 ^ (64 * i) [MOD 2 ^ 256] := by
  have columns : mulRow left right res i =
      ((List.range 4).foldl (mulLimb left right i) (res, 0)).1.set (i + 4)
        (((List.range 4).foldl (mulLimb left right i) (res, 0)).1.getD (i + 4) 0 +
          .ofNat ((List.range 4).foldl (mulLimb left right i) (res, 0)).2) := rfl
  have length := foldl_mulLimb_length left right i (List.range 4) (res, 0)
  have value := @foldl_mulLimb_value left right res i 4 (by omega)
  rw [lowPart_four] at value
  rw [columns]
  generalize (List.range 4).foldl (mulLimb left right i) (res, 0) = row at *
  refine ⟨?_, ?_⟩
  · rw [List.length_set, length]
    exact eight
  · have within : i + 4 < row.1.length := by
      rw [length]
      change i + 4 < res.length
      omega
    have last := Limbs.value_set within (row.1.getD (i + 4) 0 + .ofNat row.2)
    have beyond : (2 : Nat) ^ (64 * (i + 4)) = 2 ^ 256 * 2 ^ (64 * i) := by
      rw [Nat.mul_add, Nat.pow_add, Nat.mul_comm]
    rw [beyond] at last value
    rw [← value]
    rw [Nat.mul_left_comm _ (2 ^ 256), Nat.mul_left_comm _ (2 ^ 256)] at last
    rw [Nat.mul_left_comm _ (2 ^ 256)]
    unfold Nat.ModEq
    omega

theorem toNat_mul (left right : U256) :
    left.toNat * right.toNat =
      0 + (left.limbAt 0).toNat * right.toNat * 2 ^ (64 * 0) +
        (left.limbAt 1).toNat * right.toNat * 2 ^ (64 * 1) +
        (left.limbAt 2).toNat * right.toNat * 2 ^ (64 * 2) +
        (left.limbAt 3).toNat * right.toNat * 2 ^ (64 * 3) := by
  have parts : left.toNat = (left.limbAt 0).toNat + (left.limbAt 1).toNat * 2 ^ 64 +
      (left.limbAt 2).toNat * 2 ^ 128 + (left.limbAt 3).toNat * 2 ^ 192 := rfl
  rw [parts]
  generalize right.toNat = factor
  ring

/-- The rows of the outer loop add up to the product. -/
theorem fullMul_value (left right : U256) :
    (left.fullMul right).length = 8 ∧
      Limbs.value (left.fullMul right) ≡ left.toNat * right.toNat [MOD 2 ^ 256] := by
  have start : (List.replicate 8 (0 : UInt64)).length = 8 := List.length_replicate
  have none := Limbs.value_replicate 8
  unfold fullMul
  simp only [List.foldl_cons, List.foldl_nil]
  generalize List.replicate 8 (0 : UInt64) = res at start none
  obtain ⟨length0, value0⟩ := mulRow_value left right start (by decide : 0 < 4)
  generalize mulRow left right res 0 = res0 at length0 value0
  obtain ⟨length1, value1⟩ := mulRow_value left right length0 (by decide : 1 < 4)
  generalize mulRow left right res0 1 = res1 at length1 value1
  obtain ⟨length2, value2⟩ := mulRow_value left right length1 (by decide : 2 < 4)
  generalize mulRow left right res1 2 = res2 at length2 value2
  obtain ⟨length3, value3⟩ := mulRow_value left right length2 (by decide : 3 < 4)
  rw [none] at value0
  rw [toNat_mul]
  refine ⟨length3, ?_⟩
  have sum1 := value1.trans (value0.add_right _)
  have sum2 := value2.trans (sum1.add_right _)
  exact value3.trans (sum2.add_right _)

theorem toNat_wrappingMul (left right : U256) :
    (left.wrappingMul right).toNat = left.toNat * right.toNat % 2 ^ 256 := by
  obtain ⟨eight, rows⟩ := fullMul_value left right
  have low : (left.wrappingMul right).toNat = Limbs.value ((left.fullMul right).take 4) := by
    unfold wrappingMul
    dsimp only
    generalize left.fullMul right = res at eight ⊢
    match res, eight with
    | [r0, r1, r2, r3, r4, r5, r6, r7], _ =>
        rw [toNat_eq_value]
        rfl
  rw [low, Limbs.value_take]
  exact rows

/-! ### Comparison -/

theorem compare_toNat (left right : UInt64) :
    compare left right = compare left.toNat right.toNat := by
  rcases Nat.lt_trichotomy left.toNat right.toNat with below | same | above
  · rw [Nat.compare_eq_lt.mpr below]
    exact Std.compare_eq_lt.mpr (UInt64.lt_iff_toNat_lt.mpr below)
  · rw [Nat.compare_eq_eq.mpr same]
    exact Std.compare_eq_eq_iff_eq.mpr (UInt64.toNat.inj same)
  · rw [Nat.compare_eq_gt.mpr above]
    exact Std.compare_eq_gt.mpr (UInt64.lt_iff_toNat_lt.mpr above)

/-- The upper part of a number is compared first. -/
theorem compare_then {high low high' low' base : Nat} (below : low < base) (below' : low' < base) :
    (compare high high').then (compare low low') =
      compare (low + base * high) (low' + base * high') := by
  rcases Nat.lt_trichotomy high high' with under | rfl | above
  · have order : low + base * high < low' + base * high' := by
      have step : base * (high + 1) ≤ base * high' := Nat.mul_le_mul_left _ under
      rw [Nat.mul_succ] at step
      omega
    rw [Nat.compare_eq_lt.mpr under, Nat.compare_eq_lt.mpr order]
    rfl
  · rw [Nat.compare_eq_eq.mpr rfl, Ordering.eq_then]
    rcases Nat.lt_trichotomy low low' with under | rfl | above
    · rw [Nat.compare_eq_lt.mpr under, Nat.compare_eq_lt.mpr (by omega)]
    · rw [Nat.compare_eq_eq.mpr rfl, Nat.compare_eq_eq.mpr rfl]
    · rw [Nat.compare_eq_gt.mpr above, Nat.compare_eq_gt.mpr (by omega)]
  · have order : low' + base * high' < low + base * high := by
      have step : base * (high' + 1) ≤ base * high := Nat.mul_le_mul_left _ above
      rw [Nat.mul_succ] at step
      omega
    rw [Nat.compare_eq_gt.mpr above, Nat.compare_eq_gt.mpr order]
    rfl

theorem cmpU_eq (left right : U256) : left.cmpU right = compare left.toNat right.toNat := by
  have l0 := (left.limbAt 0).toNat_lt
  have l1 := (left.limbAt 1).toNat_lt
  have l2 := (left.limbAt 2).toNat_lt
  have r0 := (right.limbAt 0).toNat_lt
  have r1 := (right.limbAt 1).toNat_lt
  have r2 := (right.limbAt 2).toNat_lt
  have leftParts : left.toNat = (left.limbAt 0).toNat + 2 ^ 64 * ((left.limbAt 1).toNat +
      2 ^ 64 * ((left.limbAt 2).toNat + 2 ^ 64 * (left.limbAt 3).toNat)) := by
    unfold toNat
    omega
  have rightParts : right.toNat = (right.limbAt 0).toNat + 2 ^ 64 * ((right.limbAt 1).toNat +
      2 ^ 64 * ((right.limbAt 2).toNat + 2 ^ 64 * (right.limbAt 3).toNat)) := by
    unfold toNat
    omega
  rw [leftParts, rightParts, ← compare_then l0 r0, ← compare_then l1 r1, ← compare_then l2 r2]
  unfold cmpU
  simp only [List.foldl_cons, List.foldl_nil, Ordering.eq_then, compare_toNat]

end U256

end Veilux
