/-
Bits, shifts and the long division of `evm/src/u256.rs` against natural numbers.
-/

import Veilux.Evm.WordArithmetic

namespace Veilux

namespace U256

/-! ### Bits -/

theorem eq_of_testBit {left right : Nat} (leftBound : left < 2 ^ 256) (rightBound : right < 2 ^ 256)
    (same : ∀ index < 256, left.testBit index = right.testBit index) : left = right := by
  apply Nat.eq_of_testBit_eq
  intro index
  by_cases inside : index < 256
  · exact same index inside
  · have large : 2 ^ 256 ≤ 2 ^ index := Nat.pow_le_pow_right (by decide) (Nat.le_of_not_lt inside)
    rw [Nat.testBit_lt_two_pow (leftBound.trans_le large),
      Nat.testBit_lt_two_pow (rightBound.trans_le large)]

theorem toNat_ofNat_small {count : Nat} (small : count < 64) :
    (UInt64.ofNat count).toNat % 64 = count := by
  rw [UInt64.toNat_ofNat']
  omega

theorem testBit_shiftLeft (limb : UInt64) {count index : Nat} (small : count < 64) :
    (limb <<< UInt64.ofNat count).toNat.testBit index =
      (decide (index < 64) && (decide (count ≤ index) && limb.toNat.testBit (index - count))) := by
  rw [UInt64.toNat_shiftLeft, toNat_ofNat_small small, Nat.testBit_mod_two_pow,
    Nat.testBit_shiftLeft]

theorem testBit_shiftRight (limb : UInt64) {count index : Nat} (small : count < 64) :
    (limb >>> UInt64.ofNat count).toNat.testBit index = limb.toNat.testBit (count + index) := by
  rw [UInt64.toNat_shiftRight, toNat_ofNat_small small, Nat.testBit_shiftRight]

theorem bit_eq_testBit (value : U256) (index : Nat) : value.bit index = value.toNat.testBit index := by
  unfold bit
  by_cases outside : 256 ≤ index
  · rw [if_pos outside, testBit_toNat_of_le value outside]
  · rw [if_neg outside, testBit_toNat value (Nat.lt_of_not_le outside)]
    have small : index % 64 < 64 := Nat.mod_lt _ (by decide)
    have shifted : (value.limbAt (index / 64) >>> UInt64.ofNat (index % 64)).toNat =
        (value.limbAt (index / 64)).toNat / 2 ^ (index % 64) := by
      rw [UInt64.toNat_shiftRight, toNat_ofNat_small small, Nat.shiftRight_eq_div_pow]
    rw [Nat.testBit_eq_decide_div_mod_eq, decide_eq_decide, ← UInt64.toNat_inj, UInt64.toNat_and,
      shifted]
    exact Eq.congr (Nat.and_one_is_mod _) rfl

/-! ### Shifts -/

/-- Each limb of a left shift is made of two neighbours. -/
theorem limbAt_shl (value : U256) {shift index : Nat} (inside : index < 4) (proper : shift < 256) :
    (value.shl shift).limbAt index =
      (if shift / 64 ≤ index then
          value.limbAt (index - shift / 64) <<< UInt64.ofNat (shift % 64) else 0) |||
        (if 0 < shift % 64 ∧ shift / 64 + 1 ≤ index then
          value.limbAt (index - shift / 64 - 1) >>> UInt64.ofNat (64 - shift % 64) else 0) := by
  unfold shl
  rw [if_neg (Nat.not_le.mpr proper)]
  have word : shift / 64 < 4 := by omega
  dsimp only
  generalize shift / 64 = words at word ⊢
  generalize shift % 64 = bits
  by_cases partly : 0 < bits
  · simp only [partly, if_true, true_and]
    interval_cases words <;> interval_cases index <;>
      simp [orLimb, ofList, List.replicate, UInt64.or_comm]
  · simp only [partly, if_false, false_and]
    interval_cases words <;> interval_cases index <;>
      simp [orLimb, ofList, List.replicate]

theorem limbAt_shr (value : U256) {shift index : Nat} (inside : index < 4) (proper : shift < 256) :
    (value.shr shift).limbAt index =
      (if index + shift / 64 < 4 then
          value.limbAt (index + shift / 64) >>> UInt64.ofNat (shift % 64) else 0) |||
        (if 0 < shift % 64 ∧ index + shift / 64 + 1 < 4 then
          value.limbAt (index + shift / 64 + 1) <<< UInt64.ofNat (64 - shift % 64) else 0) := by
  unfold shr
  rw [if_neg (Nat.not_le.mpr proper)]
  have word : shift / 64 < 4 := by omega
  dsimp only
  generalize shift / 64 = words at word ⊢
  generalize shift % 64 = bits
  by_cases partly : 0 < bits
  · simp only [partly, true_and]
    interval_cases words <;> interval_cases index <;>
      simp [orLimb, ofList, List.replicate, UInt64.or_comm]
  · simp only [partly, if_false, false_and]
    interval_cases words <;> interval_cases index <;>
      simp [orLimb, ofList, List.replicate]

theorem testBit_limb_of_le (limb : UInt64) {index : Nat} (outside : 64 ≤ index) :
    limb.toNat.testBit index = false :=
  Nat.testBit_lt_two_pow (limb.toNat_lt.trans_le (Nat.pow_le_pow_right (by decide) outside))

theorem toNat_shl (value : U256) (shift : Nat) :
    (value.shl shift).toNat = value.toNat * 2 ^ shift % 2 ^ 256 := by
  by_cases proper : shift < 256
  · apply eq_of_testBit (toNat_lt _) (Nat.mod_lt _ (Nat.two_pow_pos _))
    intro index inside
    have limb : index / 64 < 4 := by omega
    have place : index % 64 < 64 := Nat.mod_lt _ (by decide)
    have bits : shift % 64 < 64 := Nat.mod_lt _ (by decide)
    rw [testBit_toNat _ inside, limbAt_shl value limb proper, UInt64.toNat_or, Nat.testBit_or,
      Nat.testBit_mod_two_pow, ← Nat.shiftLeft_eq, Nat.testBit_shiftLeft, decide_eq_true inside,
      Bool.true_and]
    by_cases reaches : shift ≤ index
    · have source : index - shift < 256 := by omega
      rw [decide_eq_true reaches, Bool.true_and, testBit_toNat _ source, if_pos (by omega),
        testBit_shiftLeft _ bits, decide_eq_true place, Bool.true_and]
      by_cases aligned : shift % 64 ≤ index % 64
      · have limbs : (index - shift) / 64 = index / 64 - shift / 64 := by omega
        have places : (index - shift) % 64 = index % 64 - shift % 64 := by omega
        rw [decide_eq_true aligned, Bool.true_and, limbs, places]
        split
        · have beyond : 64 ≤ 64 - shift % 64 + index % 64 := by omega
          rw [testBit_shiftRight _ (by omega),
            testBit_limb_of_le (value.limbAt (index / 64 - shift / 64 - 1)) beyond, Bool.or_false]
        · rw [show (0 : UInt64).toNat = 0 from rfl, Nat.zero_testBit, Bool.or_false]
      · have limbs : (index - shift) / 64 = index / 64 - shift / 64 - 1 := by omega
        have places : (index - shift) % 64 = 64 - shift % 64 + index % 64 := by omega
        rw [decide_eq_false aligned, Bool.false_and, Bool.false_or, if_pos (by omega),
          testBit_shiftRight _ (by omega), limbs, places]
    · rw [decide_eq_false reaches, Bool.false_and]
      have late : ¬ (0 < shift % 64 ∧ shift / 64 + 1 ≤ index / 64) := by omega
      rw [if_neg late, show (0 : UInt64).toNat = 0 from rfl, Nat.zero_testBit, Bool.or_false]
      split
      · have misplaced : ¬ shift % 64 ≤ index % 64 := by omega
        rw [testBit_shiftLeft _ bits, decide_eq_false misplaced, Bool.false_and, Bool.and_false]
      · rw [show (0 : UInt64).toNat = 0 from rfl, Nat.zero_testBit]
  · have beyond : 2 ^ 256 ∣ value.toNat * 2 ^ shift :=
      Dvd.dvd.mul_left (Nat.pow_dvd_pow 2 (Nat.le_of_not_lt proper)) _
    unfold shl
    rw [if_pos (Nat.le_of_not_lt proper), toNat_zero, Nat.mod_eq_zero_of_dvd beyond]

theorem toNat_shr (value : U256) (shift : Nat) :
    (value.shr shift).toNat = value.toNat / 2 ^ shift := by
  have bound := value.toNat_lt
  by_cases proper : shift < 256
  · apply eq_of_testBit (toNat_lt _) ((Nat.div_le_self _ _).trans_lt bound)
    intro index inside
    have limb : index / 64 < 4 := by omega
    have place : index % 64 < 64 := Nat.mod_lt _ (by decide)
    have bits : shift % 64 < 64 := Nat.mod_lt _ (by decide)
    rw [testBit_toNat _ inside, limbAt_shr value limb proper, UInt64.toNat_or, Nat.testBit_or,
      ← Nat.shiftRight_eq_div_pow, Nat.testBit_shiftRight]
    by_cases reaches : shift + index < 256
    · rw [testBit_toNat _ reaches, if_pos (by omega), testBit_shiftRight _ bits]
      by_cases aligned : shift % 64 + index % 64 < 64
      · have limbs : (shift + index) / 64 = index / 64 + shift / 64 := by omega
        have places : (shift + index) % 64 = shift % 64 + index % 64 := by omega
        rw [limbs, places]
        split
        · have misplaced : ¬ 64 - shift % 64 ≤ index % 64 := by omega
          rw [testBit_shiftLeft _ (by omega), decide_eq_false misplaced, Bool.false_and,
            Bool.and_false, Bool.or_false]
        · rw [show (0 : UInt64).toNat = 0 from rfl, Nat.zero_testBit, Bool.or_false]
      · have limbs : (shift + index) / 64 = index / 64 + shift / 64 + 1 := by omega
        have places : (shift + index) % 64 = index % 64 - (64 - shift % 64) := by omega
        have aligned' : 64 - shift % 64 ≤ index % 64 := by omega
        rw [testBit_limb_of_le _ (by omega), Bool.false_or, if_pos (by omega),
          testBit_shiftLeft _ (by omega), decide_eq_true place, decide_eq_true aligned',
          Bool.true_and, Bool.true_and, limbs, places]
    · rw [testBit_toNat_of_le _ (by omega)]
      have late : ¬ (0 < shift % 64 ∧ index / 64 + shift / 64 + 1 < 4) := by omega
      rw [if_neg late, show (0 : UInt64).toNat = 0 from rfl, Nat.zero_testBit, Bool.or_false]
      split
      · rw [testBit_shiftRight _ bits, testBit_limb_of_le _ (by omega)]
      · rw [show (0 : UInt64).toNat = 0 from rfl, Nat.zero_testBit]
  · have beyond : value.toNat < 2 ^ shift :=
      bound.trans_le (Nat.pow_le_pow_right (by decide) (Nat.le_of_not_lt proper))
    unfold shr
    rw [if_pos (Nat.le_of_not_lt proper), toNat_zero, Nat.div_eq_of_lt beyond]

/-! ### Division -/

/-- A search from the top finds the highest place. -/
theorem find?_reverse_range (marked : Nat → Bool) (count : Nat) :
    match (List.range count).reverse.find? marked with
    | some found => found < count ∧ ∀ index, found < index → index < count → marked index = false
    | none => ∀ index < count, marked index = false := by
  induction count with
  | zero =>
      intro index below
      cases below
  | succ count ih =>
      rw [List.range_succ, List.reverse_append, List.reverse_singleton, List.singleton_append]
      cases top : marked count with
      | true =>
          rw [List.find?_cons_of_pos top]
          exact ⟨Nat.lt_succ_self _, fun index above below => by omega⟩
      | false =>
          rw [List.find?_cons_of_neg (by rw [top]; exact Bool.false_ne_true)]
          cases found : (List.range count).reverse.find? marked with
          | none =>
              rw [found] at ih
              intro index below
              rcases Nat.lt_succ_iff_lt_or_eq.mp below with under | rfl
              · exact ih index under
              · exact top
          | some place =>
              rw [found] at ih
              refine ⟨Nat.lt_succ_of_lt ih.1, ?_⟩
              intro index above below
              rcases Nat.lt_succ_iff_lt_or_eq.mp below with under | rfl
              · exact ih.2 index above under
              · exact top

theorem bitLen_spec (value : U256) : value.toNat < 2 ^ value.bitLen ∧ value.bitLen ≤ 256 := by
  have search := find?_reverse_range value.bit 256
  unfold bitLen
  cases found : (List.range 256).reverse.find? value.bit with
  | none =>
      rw [found] at search
      refine ⟨?_, Nat.zero_le _⟩
      apply Nat.lt_pow_two_of_testBit
      intro index _
      by_cases inside : index < 256
      · rw [← bit_eq_testBit]
        exact search index inside
      · exact testBit_toNat_of_le value (Nat.le_of_not_lt inside)
  | some place =>
      rw [found] at search
      refine ⟨?_, search.1⟩
      apply Nat.lt_pow_two_of_testBit
      intro index above
      by_cases inside : index < 256
      · rw [← bit_eq_testBit]
        exact search.2 index above inside
      · exact testBit_toNat_of_le value (Nat.le_of_not_lt inside)

theorem toNat_setBit_or (value : U256) {index : Nat} (inside : index < 256) :
    (value.setBit index).toNat = value.toNat ||| 2 ^ index := by
  have power : (2 : Nat) ^ index < 2 ^ 256 := Nat.pow_lt_pow_right (by decide) inside
  apply eq_of_testBit (toNat_lt _) (Nat.or_lt_two_pow value.toNat_lt power)
  intro place _
  have limbs : value.limbs.toList.length = 4 := Vector.length_toList
  have four : (orLimb value.limbs.toList (index / 64)
      ((1 : UInt64) <<< UInt64.ofNat (index % 64))).length = 4 := by
    rw [orLimb, List.length_set, limbs]
  have original : value.toNat = Limbs.value value.limbs.toList := by
    rw [← toNat_ofList limbs, ofList]
    exact congrArg toNat (ofLimbs_limbAt value).symm
  unfold setBit
  rw [toNat_ofList four, original, Nat.testBit_or, Nat.testBit_two_pow, Limbs.testBit_value,
    Limbs.testBit_value, orLimb]
  have bits : index % 64 < 64 := Nat.mod_lt _ (by decide)
  have one : ∀ shift, (1 : UInt64).toNat.testBit shift = decide (0 = shift) := by
    intro shift
    have power := @Nat.testBit_two_pow 0 shift
    exact power
  by_cases same : index / 64 = place / 64
  · have within : index / 64 < value.limbs.toList.length := by omega
    rw [← same, List.getD_eq_getElem?_getD, List.getElem?_set_self within, Option.getD_some,
      UInt64.toNat_or, Nat.testBit_or, testBit_shiftLeft _ bits, one]
    congr 1
    have small : place % 64 < 64 := Nat.mod_lt _ (by decide)
    rw [decide_eq_true small, Bool.true_and, ← Bool.decide_and, decide_eq_decide]
    omega
  · rw [List.getD_eq_getElem?_getD, List.getElem?_set_ne same, ← List.getD_eq_getElem?_getD]
    have apart : ¬ index = place := by
      intro equal
      exact same (congrArg (· / 64) equal)
    rw [decide_eq_false apart, Bool.or_false]

/-- A bit below everything else is added. -/
theorem toNat_setBit {value : U256} {index : Nat} (inside : index < 256)
    (clear : 2 ^ (index + 1) ∣ value.toNat) :
    (value.setBit index).toNat = value.toNat + 2 ^ index := by
  obtain ⟨upper, same⟩ := clear
  rw [toNat_setBit_or value inside, same]
  exact (Nat.two_pow_add_eq_or_of_lt (Nat.pow_lt_pow_right (by decide) (Nat.lt_succ_self _)) _).symm

/-- One round of the long division. -/
def divStep (left right : U256) (acc : U256 × U256) (index : Nat) : U256 × U256 :=
  let rem := acc.2.shl 1
  let rem := if left.bit index then rem.setBit 0 else rem
  if rem.cmpU right ≠ .lt then (acc.1.setBit index, rem.wrappingSub right)
  else (acc.1, rem)

/-- Quotient and remainder of the upper bits. -/
structure Divided (left right : U256) (index : Nat) (acc : U256 × U256) : Prop where
  quotient : acc.1.toNat = left.toNat / 2 ^ index / right.toNat * 2 ^ index
  remainder : acc.2.toNat = left.toNat / 2 ^ index % right.toNat

/-- The shifted remainder with the next bit; its top bit was clear. -/
theorem toNat_shifted {left right rem : U256} {index : Nat}
    (same : rem.toNat = left.toNat / 2 ^ (index + 1) % right.toNat) :
    (if left.bit index then (rem.shl 1).setBit 0 else rem.shl 1).toNat =
      2 * rem.toNat + left.toNat / 2 ^ index % 2 := by
  have small : rem.toNat < 2 ^ 255 := by
    have bound := left.toNat_lt
    have upper : left.toNat / 2 ^ (index + 1) ≤ left.toNat / 2 ^ 1 :=
      Nat.div_le_div_left (Nat.pow_le_pow_right (by decide) (Nat.le_add_left 1 index)) (by decide)
    have reduced := Nat.mod_le (left.toNat / 2 ^ (index + 1)) right.toNat
    omega
  have shifted : (rem.shl 1).toNat = 2 * rem.toNat := by
    rw [toNat_shl]
    omega
  have bit : left.bit index = decide (left.toNat / 2 ^ index % 2 = 1) := by
    rw [bit_eq_testBit, Nat.testBit_eq_decide_div_mod_eq]
  rw [bit]
  by_cases odd : left.toNat / 2 ^ index % 2 = 1
  · have even : 2 ^ (0 + 1) ∣ (rem.shl 1).toNat := by
      rw [shifted]
      exact Nat.dvd_mul_right _ _
    rw [decide_eq_true odd, if_pos rfl, toNat_setBit (by decide) even, shifted, odd,
      Nat.pow_zero]
  · rw [decide_eq_false odd, if_neg Bool.false_ne_true, shifted]
    omega

theorem Divided.step {left right : U256} {index : Nat} {acc : U256 × U256} (inside : index < 256)
    (positive : 0 < right.toNat) (divided : Divided left right (index + 1) acc) :
    Divided left right index (divStep left right acc index) := by
  have shifted := toNat_shifted divided.remainder
  have halves : left.toNat / 2 ^ (index + 1) = left.toNat / 2 ^ index / 2 := by
    rw [Nat.pow_succ, Nat.div_div_eq_div_mul]
  have remainder := divided.remainder
  have quotient := divided.quotient
  rw [halves] at remainder quotient
  have whole := Nat.div_add_mod (left.toNat / 2 ^ index / 2) right.toNat
  have smaller := Nat.mod_lt (left.toNat / 2 ^ index / 2) positive
  rw [← remainder] at whole smaller
  generalize left.toNat / 2 ^ index / 2 / right.toNat = upper at whole quotient
  have scaled : right.toNat * (2 * upper) = 2 * (right.toNat * upper) := by ring
  have clear : 2 ^ (index + 1) ∣ acc.1.toNat := by
    rw [quotient]
    exact Nat.dvd_mul_left _ _
  unfold divStep
  dsimp only
  generalize (if left.bit index then (acc.2.shl 1).setBit 0 else acc.2.shl 1) = rem at shifted ⊢
  rw [cmpU_eq]
  by_cases below : rem.toNat < right.toNat
  · rw [if_neg (not_not_intro (Nat.compare_eq_lt.mpr below))]
    have outcome : left.toNat / 2 ^ index / right.toNat = 2 * upper ∧
        left.toNat / 2 ^ index % right.toNat = rem.toNat := by
      rw [Nat.div_mod_unique positive]
      omega
    constructor
    · rw [outcome.1, quotient, Nat.pow_succ]
      ring
    · exact outcome.2.symm
  · have above : compare rem.toNat right.toNat ≠ .lt := fun less =>
      below (Nat.compare_eq_lt.mp less)
    rw [if_pos above]
    have outcome : left.toNat / 2 ^ index / right.toNat = 2 * upper + 1 ∧
        left.toNat / 2 ^ index % right.toNat = rem.toNat - right.toNat := by
      rw [Nat.div_mod_unique positive]
      have more : right.toNat * (2 * upper + 1) = 2 * (right.toNat * upper) + right.toNat := by ring
      omega
    constructor
    · rw [outcome.1]
      dsimp only
      rw [toNat_setBit inside clear, quotient, Nat.pow_succ]
      ring
    · rw [outcome.2]
      exact toNat_wrappingSub (Nat.le_of_not_lt below)

/-- The rounds below a place, from the top down. -/
theorem Divided.rounds {left right : U256} (positive : 0 < right.toNat) {count : Nat}
    (inside : count ≤ 256) {acc : U256 × U256} (divided : Divided left right count acc) :
    Divided left right 0 ((List.range count).reverse.foldl (divStep left right) acc) := by
  induction count generalizing acc with
  | zero => exact divided
  | succ count ih =>
      rw [List.range_succ, List.reverse_append, List.reverse_singleton, List.singleton_append,
        List.foldl_cons]
      exact ih (Nat.le_of_succ_le inside) (divided.step inside positive)

theorem toNat_divMod (left : U256) {right : U256} (positive : 0 < right.toNat) :
    (left.divMod right).1.toNat = left.toNat / right.toNat ∧
      (left.divMod right).2.toNat = left.toNat % right.toNat := by
  have nonzero : ¬ right.isZero = true := by
    rw [isZero_iff]
    omega
  unfold divMod
  rw [if_neg nonzero]
  by_cases below : left.lt right = true
  · rw [if_pos below]
    have less := (lt_iff left right).mp below
    rw [Nat.div_eq_of_lt less, Nat.mod_eq_of_lt less]
    exact ⟨toNat_zero, rfl⟩
  · rw [if_neg below]
    obtain ⟨bound, inside⟩ := bitLen_spec left
    have start : Divided left right left.bitLen (zero, zero) := by
      constructor
      · rw [Nat.div_eq_of_lt bound, Nat.zero_div, Nat.zero_mul]
        rfl
      · rw [Nat.div_eq_of_lt bound, Nat.zero_mod]
        rfl
    have divided := start.rounds positive inside
    have quotient := divided.quotient
    have remainder := divided.remainder
    rw [Nat.pow_zero, Nat.div_one] at quotient remainder
    rw [Nat.mul_one] at quotient
    exact ⟨quotient, remainder⟩

theorem divMod_zero {left right : U256} (none : right.toNat = 0) :
    left.divMod right = (zero, zero) := by
  unfold divMod
  rw [if_pos ((isZero_iff right).mpr none)]

end U256

end Veilux
