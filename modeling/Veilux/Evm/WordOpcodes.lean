/-
The words of `evm/src/u256.rs` as natural numbers modulo 2^256, and the signed, shifting,
exponentiating and modular opcodes of `evm/src/vm.rs` against two's-complement integers and
unbounded numbers.
-/

import Veilux.Evm.Interpreter
import Veilux.Evm.WordBytes

namespace Veilux

namespace U256

/-! ### Words -/

/-- The word arithmetic is arithmetic modulo 2^256, its flags say when a result does not fit,
and the bytes of a word are its big-endian digits. -/
theorem u256_arithmetic :
    (∀ left right : U256,
      (left.wrappingAdd right).toNat = (left.toNat + right.toNat) % 2 ^ 256 ∧
      (left.overflowingAdd right).1 = left.wrappingAdd right ∧
      (left.overflowingAdd right).2 = decide (2 ^ 256 ≤ left.toNat + right.toNat) ∧
      (left.wrappingSub right).toNat = (left.toNat + 2 ^ 256 - right.toNat) % 2 ^ 256 ∧
      (left.overflowingSub right).1 = left.wrappingSub right ∧
      (left.overflowingSub right).2 = decide (left.toNat < right.toNat) ∧
      (left.wrappingMul right).toNat = left.toNat * right.toNat % 2 ^ 256 ∧
      left.cmpU right = compare left.toNat right.toNat ∧
      (left.divMod right).1.toNat = left.toNat / right.toNat ∧
      (left.divMod right).2.toNat = if right = zero then 0 else left.toNat % right.toNat) ∧
    (∀ (value : U256) (shift : Nat),
      value.neg.toNat = (2 ^ 256 - value.toNat) % 2 ^ 256 ∧
      (value.shl shift).toNat = value.toNat * 2 ^ shift % 2 ^ 256 ∧
      (value.shr shift).toNat = value.toNat / 2 ^ shift) ∧
    (∀ value : U256, fromBigEndian value.toBigEndian.toList = value) ∧
    ∀ bytes : Vector UInt8 32, (fromBigEndian bytes.toList).toBigEndian = bytes := by
  refine ⟨?_, ?_, fromBigEndian_toBigEndian, ?_⟩
  · intro left right
    refine ⟨toNat_wrappingAdd left right, rfl, overflowingAdd_overflows left right,
      toNat_sub left right, rfl, (overflowingSub_spec left right).2, toNat_wrappingMul left right,
      cmpU_eq left right, ?_⟩
    by_cases none : right = zero
    · rw [if_pos none, none, divMod_zero toNat_zero, toNat_zero, Nat.div_zero]
      exact ⟨rfl, rfl⟩
    · have positive : 0 < right.toNat := by
        apply Nat.pos_of_ne_zero
        intro same
        exact none (toNat_injective (same.trans toNat_zero.symm))
      rw [if_neg none]
      exact toNat_divMod left positive
  · intro value shift
    exact ⟨toNat_neg value, toNat_shl value shift, toNat_shr value shift⟩
  · intro bytes
    exact Vector.toList_inj.mp (toBigEndian_fromBigEndian Vector.length_toList)

/-! ### Two's complement -/

/-- The integer a word stands for. -/
def toInt (value : U256) : Int :=
  if value.toNat < 2 ^ 255 then value.toNat else value.toNat - 2 ^ 256

/-- The word of an integer, as a number. -/
def residue (number : Int) : Nat := (number % 2 ^ 256).toNat

theorem isNeg_eq (value : U256) : value.isNeg = decide (2 ^ 255 ≤ value.toNat) := by
  have bound := value.toNat_lt
  unfold isNeg
  rw [bit_eq_testBit, Nat.testBit_eq_decide_div_mod_eq, decide_eq_decide]
  omega

/-- The absolute value as the code takes it. -/
def magnitude (value : U256) : U256 := if value.isNeg then value.neg else value

theorem toInt_eq (value : U256) :
    value.toInt = if value.isNeg then -(value.magnitude.toNat : Int) else value.magnitude.toNat := by
  have bound := value.toNat_lt
  have sign := isNeg_eq value
  unfold toInt magnitude
  by_cases negative : 2 ^ 255 ≤ value.toNat
  · have complement : (2 ^ 256 - value.toNat) % 2 ^ 256 = 2 ^ 256 - value.toNat := by omega
    rw [if_neg (Nat.not_lt.mpr negative), sign, decide_eq_true negative, if_pos rfl, if_pos rfl,
      toNat_neg, complement]
    omega
  · rw [if_pos (Nat.lt_of_not_le negative), sign, decide_eq_false negative,
      if_neg Bool.false_ne_true, if_neg Bool.false_ne_true]

theorem residue_natCast {number : Nat} (small : number < 2 ^ 256) : residue number = number := by
  unfold residue
  omega

theorem residue_neg {number : Nat} (small : number ≤ 2 ^ 256) :
    residue (-(number : Int)) = (2 ^ 256 - number) % 2 ^ 256 := by
  unfold residue
  omega

/-- A result with its sign put back. -/
theorem residue_signed (negative : Bool) (word : U256) :
    (if negative then word.neg else word).toNat =
      residue (if negative then -(word.toNat : Int) else word.toNat) := by
  have bound := word.toNat_lt
  cases negative with
  | true =>
      rw [if_pos rfl, if_pos rfl, toNat_neg, residue_neg bound.le]
  | false =>
      rw [if_neg Bool.false_ne_true, if_neg Bool.false_ne_true, residue_natCast bound]

theorem toNat_pos {value : U256} (nonzero : value ≠ zero) : 0 < value.toNat := by
  apply Nat.pos_of_ne_zero
  intro same
  exact nonzero (toNat_injective (same.trans toNat_zero.symm))

theorem magnitude_pos {value : U256} (nonzero : value ≠ zero) : 0 < value.magnitude.toNat := by
  have positive := toNat_pos nonzero
  have bound := value.toNat_lt
  unfold magnitude
  split
  · rw [toNat_neg]
    omega
  · exact positive

end U256

namespace Evm

open U256 (residue)

theorem toNat_boolU (value : Bool) : (boolU value).toNat = if value then 1 else 0 := by
  cases value <;> rfl

theorem toInt_zero : U256.zero.toInt = 0 := by
  unfold U256.toInt
  rw [U256.toNat_zero]
  rfl

theorem isZero_zero : U256.zero.isZero = true := (U256.isZero_iff _).mpr U256.toNat_zero

theorem not_isZero {value : U256} (nonzero : value ≠ .zero) : ¬ value.isZero = true := by
  unfold U256.isZero
  rw [decide_eq_true_eq]
  exact nonzero

theorem toNat_sdiv (left right : U256) :
    (sdiv left right).toNat = residue (left.toInt.tdiv right.toInt) := by
  unfold sdiv
  by_cases none : right = U256.zero
  · rw [none, if_pos isZero_zero, toInt_zero, Int.tdiv_zero]
    rfl
  · rw [if_neg (not_isZero none)]
    change (if left.isNeg ^^ right.isNeg then (left.magnitude.divMod right.magnitude).1.neg
      else (left.magnitude.divMod right.magnitude).1).toNat = _
    have quotient := (U256.toNat_divMod left.magnitude (U256.magnitude_pos none)).1
    rw [U256.residue_signed, quotient, left.toInt_eq, right.toInt_eq, Int.natCast_div]
    congr 1
    cases left.isNeg <;> cases right.isNeg
    · simp
    · simp [Int.tdiv_neg]
    · simp [Int.neg_tdiv]
    · simp [Int.neg_tdiv, Int.tdiv_neg]

theorem toNat_smod (left right : U256) :
    (smod left right).toNat =
      if right = .zero then 0 else residue (left.toInt.tmod right.toInt) := by
  unfold smod
  by_cases none : right = U256.zero
  · rw [none, if_pos isZero_zero, if_pos rfl, U256.toNat_zero]
  · rw [if_neg (not_isZero none), if_neg none]
    change (if left.isNeg then (left.magnitude.divMod right.magnitude).2.neg
      else (left.magnitude.divMod right.magnitude).2).toNat = _
    have remainder := (U256.toNat_divMod left.magnitude (U256.magnitude_pos none)).2
    rw [U256.residue_signed, remainder, left.toInt_eq, right.toInt_eq, Int.natCast_mod]
    congr 1
    cases left.isNeg <;> cases right.isNeg
    · simp [Int.tmod_eq_emod_of_nonneg]
    · simp [Int.tmod_eq_emod_of_nonneg]
    · simp [Int.neg_tmod, Int.tmod_eq_emod_of_nonneg]
    · simp [Int.neg_tmod, Int.tmod_neg, Int.tmod_eq_emod_of_nonneg]

theorem signedLt_eq (left right : U256) :
    signedLt left right = decide (left.toInt < right.toInt) := by
  have leftBound := left.toNat_lt
  have rightBound := right.toNat_lt
  have unsigned : left.lt right = decide (left.toNat < right.toNat) := by
    rw [Bool.eq_iff_iff, decide_eq_true_eq]
    exact U256.lt_iff left right
  unfold signedLt U256.toInt
  rw [U256.isNeg_eq, U256.isNeg_eq, unsigned]
  by_cases leftNegative : 2 ^ 255 ≤ left.toNat <;> by_cases rightNegative : 2 ^ 255 ≤ right.toNat
  · rw [decide_eq_true leftNegative, decide_eq_true rightNegative,
      if_neg (Nat.not_lt.mpr leftNegative), if_neg (Nat.not_lt.mpr rightNegative)]
    dsimp only
    rw [decide_eq_decide]
    omega
  · rw [decide_eq_true leftNegative, decide_eq_false rightNegative,
      if_neg (Nat.not_lt.mpr leftNegative), if_pos (Nat.lt_of_not_le rightNegative)]
    dsimp only
    rw [eq_comm, decide_eq_true_eq]
    omega
  · rw [decide_eq_false leftNegative, decide_eq_true rightNegative,
      if_pos (Nat.lt_of_not_le leftNegative), if_neg (Nat.not_lt.mpr rightNegative)]
    dsimp only
    rw [eq_comm, decide_eq_false_iff_not]
    omega
  · rw [decide_eq_false leftNegative, decide_eq_false rightNegative,
      if_pos (Nat.lt_of_not_le leftNegative), if_pos (Nat.lt_of_not_le rightNegative)]
    dsimp only
    rw [decide_eq_decide]
    omega

/-! ### Shifts -/

/-- A shift amount counts when it fits a machine word and stays inside the word. -/
theorem shift_proper_iff (shift : U256) :
    ¬ (¬ shift.bitsFitUsize ∨ 256 ≤ shift.lowUsize) ↔ shift.toNat < 256 := by
  have l0 := (shift.limbAt 0).toNat_lt
  have zero : ∀ limb : UInt64, limb = 0 ↔ limb.toNat = 0 := fun limb => UInt64.toNat_inj.symm
  unfold U256.bitsFitUsize U256.small U256.lowUsize U256.toNat
  simp only [Bool.and_eq_true, decide_eq_true_eq, zero]
  omega

theorem lowUsize_eq {shift : U256} (proper : shift.toNat < 256) : shift.lowUsize = shift.toNat := by
  unfold U256.lowUsize
  unfold U256.toNat at proper ⊢
  omega

theorem toNat_shiftL (shift value : U256) :
    (shiftL shift value).toNat = value.toNat * 2 ^ shift.toNat % 2 ^ 256 := by
  unfold shiftL
  by_cases proper : shift.toNat < 256
  · rw [if_neg ((shift_proper_iff shift).mpr proper), U256.toNat_shl, lowUsize_eq proper]
  · have outside := not_not.mp (mt (shift_proper_iff shift).mp proper)
    have beyond : 2 ^ 256 ∣ value.toNat * 2 ^ shift.toNat :=
      Dvd.dvd.mul_left (Nat.pow_dvd_pow 2 (Nat.le_of_not_lt proper)) _
    rw [if_pos outside, U256.toNat_zero, Nat.mod_eq_zero_of_dvd beyond]

theorem toNat_shiftR (shift value : U256) :
    (shiftR shift value).toNat = value.toNat / 2 ^ shift.toNat := by
  unfold shiftR
  by_cases proper : shift.toNat < 256
  · rw [if_neg ((shift_proper_iff shift).mpr proper), U256.toNat_shr, lowUsize_eq proper]
  · have outside := not_not.mp (mt (shift_proper_iff shift).mp proper)
    have beyond : value.toNat < 2 ^ shift.toNat :=
      value.toNat_lt.trans_le (Nat.pow_le_pow_right (by decide) (Nat.le_of_not_lt proper))
    rw [if_pos outside, U256.toNat_zero, Nat.div_eq_of_lt beyond]

theorem toNat_or (left right : U256) : (left.or right).toNat = left.toNat ||| right.toNat := by
  apply U256.eq_of_testBit (U256.toNat_lt _)
    (Nat.or_lt_two_pow left.toNat_lt right.toNat_lt)
  intro index inside
  have word : index / 64 < 4 := by omega
  rw [Nat.testBit_or, U256.testBit_toNat _ inside, U256.testBit_toNat _ inside,
    U256.testBit_toNat _ inside]
  have limbs : (left.or right).limbAt (index / 64) =
      left.limbAt (index / 64) ||| right.limbAt (index / 64) := by
    interval_cases index / 64 <;> rfl
  rw [limbs, UInt64.toNat_or, Nat.testBit_or]

/-- The sign bits that an arithmetic shift puts in. -/
theorem toNat_signMask {shift : Nat} (proper : shift < 256) :
    ((U256.one.shl (256 - shift)).wrappingSub .one).not.toNat = 2 ^ (256 - shift) * (2 ^ shift - 1) := by
  have whole : 2 ^ (256 - shift) * 2 ^ shift = 2 ^ 256 := by
    rw [← Nat.pow_add, Nat.sub_add_cancel proper.le]
  have product : 2 ^ (256 - shift) * (2 ^ shift - 1) = 2 ^ 256 - 2 ^ (256 - shift) := by
    rw [Nat.mul_sub, whole, Nat.mul_one]
  have positive : 0 < 2 ^ (256 - shift) := Nat.two_pow_pos _
  have fits : 2 ^ (256 - shift) ≤ 2 ^ 256 := Nat.pow_le_pow_right (by decide) (Nat.sub_le _ _)
  rw [U256.toNat_not, U256.toNat_sub, U256.toNat_shl, U256.toNat_one, Nat.one_mul, product]
  generalize 2 ^ (256 - shift) = power at positive fits
  omega

theorem toNat_sar (shift value : U256) :
    (sar shift value).toNat = residue (value.toInt / 2 ^ shift.toNat) := by
  have bound := value.toNat_lt
  have sign := value.isNeg_eq
  unfold sar
  dsimp only
  by_cases proper : shift.toNat < 256
  · rw [if_neg ((shift_proper_iff shift).mpr proper), lowUsize_eq proper]
    have whole : 2 ^ (256 - shift.toNat) * 2 ^ shift.toNat = 2 ^ 256 := by
      rw [← Nat.pow_add, Nat.sub_add_cancel proper.le]
    have positive : 0 < 2 ^ shift.toNat := Nat.two_pow_pos _
    have upper : value.toNat / 2 ^ shift.toNat < 2 ^ (256 - shift.toNat) := by
      rw [Nat.div_lt_iff_lt_mul positive, whole]
      exact bound
    unfold U256.toInt
    by_cases negative : 2 ^ 255 ≤ value.toNat
    · rw [sign, decide_eq_true negative, if_pos rfl, if_neg (Nat.not_lt.mpr negative), toNat_or,
        U256.toNat_shr, toNat_signMask proper, Nat.lor_comm,
        ← Nat.two_pow_add_eq_or_of_lt upper]
      have floored : ((value.toNat : Int) - 2 ^ 256) / 2 ^ shift.toNat =
          (value.toNat / 2 ^ shift.toNat : Nat) - (2 ^ (256 - shift.toNat) : Nat) := by
        have powers : (2 : Int) ^ 256 = (2 ^ (256 - shift.toNat) : Nat) * 2 ^ shift.toNat := by
          rw [← Nat.cast_ofNat (R := Int), ← Nat.cast_pow, ← Nat.cast_pow, ← Nat.cast_mul, whole]
        rw [powers, Int.sub_mul_ediv_right _ _ (by positivity), Int.natCast_div]
        norm_cast
      rw [floored, Nat.mul_sub, whole, Nat.mul_one]
      have fits : 2 ^ (256 - shift.toNat) ≤ 2 ^ 256 :=
        Nat.pow_le_pow_right (by decide) (Nat.sub_le _ _)
      unfold residue
      generalize value.toNat / 2 ^ shift.toNat = quotient at upper
      generalize 2 ^ (256 - shift.toNat) = power at upper fits
      omega
    · rw [sign, decide_eq_false negative, if_neg Bool.false_ne_true,
        if_pos (Nat.lt_of_not_le negative), U256.toNat_shr]
      have floored : (value.toNat : Int) / 2 ^ shift.toNat =
          (value.toNat / 2 ^ shift.toNat : Nat) := by
        rw [Int.natCast_div]
        norm_cast
      rw [floored, U256.residue_natCast ((Nat.div_le_self _ _).trans_lt bound)]
  · have outside := not_not.mp (mt (shift_proper_iff shift).mp proper)
    have large : (2 : Int) ^ 256 ≤ 2 ^ shift.toNat :=
      pow_le_pow_right₀ (by decide) (Nat.le_of_not_lt proper)
    rw [if_pos outside]
    unfold U256.toInt
    generalize (2 : Int) ^ shift.toNat = power at large
    have positive : 0 < power := by omega
    by_cases negative : 2 ^ 255 ≤ value.toNat
    · rw [sign, decide_eq_true negative, if_pos rfl, if_neg (Nat.not_lt.mpr negative),
        U256.toNat_not, U256.toNat_zero]
      have floored : ((value.toNat : Int) - 2 ^ 256) / power = -1 :=
        ((Int.ediv_emod_unique positive).mpr
          ⟨by omega, by omega, by omega⟩ : _ ∧ _ % power = value.toNat - 2 ^ 256 + power).1
      rw [floored]
      rfl
    · rw [sign, decide_eq_false negative, if_neg Bool.false_ne_true,
        if_pos (Nat.lt_of_not_le negative), U256.toNat_zero]
      have floored : (value.toNat : Int) / power = 0 :=
        Int.ediv_eq_zero_of_lt (by omega) (by omega)
      rw [floored]
      rfl

/-! ### Powers -/

/-- The body of the loop: base, exponent and result. -/
def expRound (acc : U256 × U256 × U256) : U256 × U256 × U256 :=
  (acc.1.wrappingMul acc.1, acc.2.1.shr 1,
    if acc.2.1.bit 0 then acc.2.2.wrappingMul acc.1 else acc.2.2)

theorem mul_pow_mod (factor base exponent modulus : Nat) :
    factor % modulus * (base % modulus) ^ exponent % modulus =
      factor * base ^ exponent % modulus :=
  (Nat.mod_modEq factor modulus).mul ((Nat.mod_modEq base modulus).pow exponent)

/-- Result times power stays what it is. -/
theorem toNat_expLoop {bits : Nat} {base e result : U256} (enough : e.toNat < 2 ^ bits) :
    (expLoop bits base e result).toNat = result.toNat * base.toNat ^ e.toNat % 2 ^ 256 := by
  induction bits generalizing base e result with
  | zero =>
      have none : e.toNat = 0 := by omega
      rw [none, Nat.pow_zero, Nat.mul_one, Nat.mod_eq_of_lt result.toNat_lt]
      rfl
  | succ bits ih =>
      unfold expLoop
      by_cases done : e.isZero = true
      · rw [if_pos done, (U256.isZero_iff e).mp done, Nat.pow_zero, Nat.mul_one,
          Nat.mod_eq_of_lt result.toNat_lt]
      · rw [if_neg done]
        have halved : (e.shr 1).toNat = e.toNat / 2 := U256.toNat_shr e 1
        have below : (e.shr 1).toNat < 2 ^ bits := by
          rw [halved]
          rw [Nat.pow_succ] at enough
          omega
        have odd : e.bit 0 = decide (e.toNat % 2 = 1) := by
          rw [U256.bit_eq_testBit, Nat.testBit_zero]
        rw [ih below, U256.toNat_wrappingMul, halved, odd]
        have squared : (base.toNat * base.toNat) ^ (e.toNat / 2) =
            base.toNat ^ (2 * (e.toNat / 2)) := by
          rw [← Nat.pow_two, ← Nat.pow_mul]
        by_cases parity : e.toNat % 2 = 1
        · have exponent : e.toNat = 2 * (e.toNat / 2) + 1 := by omega
          rw [decide_eq_true parity, if_pos rfl, U256.toNat_wrappingMul]
          conv_rhs => rw [exponent, Nat.pow_succ, ← squared]
          rw [mul_pow_mod]
          congr 1
          ring
        · have exponent : e.toNat = 2 * (e.toNat / 2) := by omega
          rw [decide_eq_false parity, if_neg Bool.false_ne_true]
          conv_rhs => rw [exponent, ← squared, ← mul_pow_mod, Nat.mod_eq_of_lt result.toNat_lt]

theorem toNat_exp (base e : U256) :
    (exp base e).toNat = base.toNat ^ e.toNat % 2 ^ 256 := by
  unfold exp
  rw [toNat_expLoop e.toNat_lt, U256.toNat_one, Nat.one_mul]

/-- Enough rounds make the exponent zero, and the result is the loop's. -/
theorem expRound_iterate {bits : Nat} {base e result : U256} (enough : e.toNat < 2 ^ bits) :
    ∃ rounds ≤ bits, (expRound^[rounds] (base, e, result)).2.1 = .zero ∧
      (expRound^[rounds] (base, e, result)).2.2 = expLoop bits base e result ∧
      ∀ earlier < rounds, (expRound^[earlier] (base, e, result)).2.1 ≠ .zero := by
  induction bits generalizing base e result with
  | zero =>
      have none : e = .zero := U256.toNat_injective (by rw [U256.toNat_zero]; omega)
      exact ⟨0, le_refl 0, none, rfl, fun earlier before => absurd before (Nat.not_lt_zero _)⟩
  | succ bits ih =>
      unfold expLoop
      by_cases done : e.isZero = true
      · rw [if_pos done]
        have none : e = .zero :=
          U256.toNat_injective (((U256.isZero_iff e).mp done).trans U256.toNat_zero.symm)
        exact ⟨0, Nat.zero_le _, none, rfl, fun earlier before => absurd before (Nat.not_lt_zero _)⟩
      · rw [if_neg done]
        have below : (e.shr 1).toNat < 2 ^ bits := by
          rw [U256.toNat_shr]
          rw [Nat.pow_succ] at enough
          omega
        obtain ⟨rounds, few, ends, same, before⟩ := @ih (base.wrappingMul base) (e.shr 1)
          (if e.bit 0 then result.wrappingMul base else result) below
        refine ⟨rounds + 1, Nat.succ_le_succ few, ends, same, ?_⟩
        intro earlier earlierBefore
        cases earlier with
        | zero =>
            intro none
            apply done
            have start : e = .zero := none
            rw [start, isZero_zero]
        | succ earlier => exact before earlier (Nat.lt_of_succ_lt_succ earlierBefore)

/-! ### The opcodes -/

section Opcodes

variable [Keccak256]

/-- The opcode replaces its two operands, the top one first, by a word of this value. -/
def Computes (op : Plain) (meaning : U256 → U256 → Nat) : Prop :=
  ∀ {H : Type} [Host H] (vm : Interpreter H) (a b : U256) (rest : List U256),
    ∃ word : U256, word.toNat = meaning a b ∧
      (plain op : VmM H Unit).run.run { vm with stack := a :: b :: rest } =
        (push word : VmM H Unit).run.run { vm with stack := rest }

theorem computes_bin {op : Plain} {f : U256 → U256 → U256} {meaning : U256 → U256 → Nat}
    (body : ∀ {H : Type} [Host H], (plain op : VmM H Unit) = bin f)
    (value : ∀ a b, (f a b).toNat = meaning a b) : Computes op meaning := by
  intro H _ vm a b rest
  refine ⟨f a b, value a b, ?_⟩
  rw [body]
  rfl

/-- Signed division truncates, its remainder has the sign of the dividend, arithmetic shifts
round down, shifts and powers are taken modulo 2^256, and the loop of the power ends by its own
condition. -/
theorem signed_opcodes :
    Computes .sdiv (fun a b => residue (a.toInt.tdiv b.toInt)) ∧
    Computes .smod (fun a b => if b = .zero then 0 else residue (a.toInt.tmod b.toInt)) ∧
    Computes .slt (fun a b => if a.toInt < b.toInt then 1 else 0) ∧
    Computes .sgt (fun a b => if b.toInt < a.toInt then 1 else 0) ∧
    Computes .sar (fun shift value => residue (value.toInt / 2 ^ shift.toNat)) ∧
    Computes .shl (fun shift value => value.toNat * 2 ^ shift.toNat % 2 ^ 256) ∧
    Computes .shr (fun shift value => value.toNat / 2 ^ shift.toNat) ∧
    Computes .exp (fun base e => base.toNat ^ e.toNat % 2 ^ 256) ∧
    ∀ base e : U256, ∃ rounds ≤ 256, (expRound^[rounds] (base, e, .one)).2.1 = .zero ∧
      (expRound^[rounds] (base, e, .one)).2.2 = exp base e ∧
      ∀ earlier < rounds, (expRound^[earlier] (base, e, .one)).2.1 ≠ .zero := by
  refine ⟨computes_bin rfl toNat_sdiv, computes_bin rfl toNat_smod, computes_bin rfl ?_,
    computes_bin rfl ?_, computes_bin rfl toNat_sar, computes_bin rfl toNat_shiftL,
    computes_bin rfl toNat_shiftR, computes_bin rfl toNat_exp, ?_⟩
  · intro a b
    simp only [toNat_boolU, signedLt_eq, decide_eq_true_eq]
  · intro a b
    simp only [toNat_boolU, signedLt_eq, decide_eq_true_eq]
  · intro base e
    exact expRound_iterate e.toNat_lt

example : residue ((-2 ^ 255 : Int).tdiv (-1)) = 2 ^ 255 := by decide

end Opcodes

/-! ### Sums and products with a modulus -/

section Moduli

/-- Reducing a wrapped number is reducing the number when the modulus divides what is
wrapped off. -/
theorem wrapped_mod_iff (number : Nat) (modulus : Nat) :
    number % 2 ^ 256 % modulus = number % modulus ↔ modulus ∣ number / 2 ^ 256 * 2 ^ 256 := by
  have parts : number = number % 2 ^ 256 + number / 2 ^ 256 * 2 ^ 256 := by omega
  have below : number % 2 ^ 256 ≤ number := Nat.mod_le _ _
  have cut : number - number % 2 ^ 256 = number / 2 ^ 256 * 2 ^ 256 := by omega
  have congruent := Nat.modEq_iff_dvd' (n := modulus) below
  rw [cut] at congruent
  exact congruent

theorem toNat_addmod (a b modulus : U256) :
    (addmod a b modulus).toNat =
      if modulus = .zero then 0 else (a.toNat + b.toNat) % 2 ^ 256 % modulus.toNat := by
  unfold addmod
  by_cases none : modulus = U256.zero
  · rw [none, if_pos isZero_zero, if_pos rfl, U256.toNat_zero]
  · have positive := U256.toNat_pos none
    rw [if_neg (not_isZero none), if_neg none, (U256.toNat_divMod _ positive).2]
    exact congrArg (· % modulus.toNat) (U256.toNat_wrappingAdd a b)

theorem toNat_mulmod (a b modulus : U256) :
    (mulmod a b modulus).toNat =
      if modulus = .zero then 0 else a.toNat * b.toNat % 2 ^ 256 % modulus.toNat := by
  unfold mulmod
  by_cases none : modulus = U256.zero
  · rw [none, if_pos isZero_zero, if_pos rfl, U256.toNat_zero]
  · have positive := U256.toNat_pos none
    rw [if_neg (not_isZero none), if_neg none, (U256.toNat_divMod _ positive).2,
      U256.toNat_wrappingMul]

variable [Keccak256]

/-- The opcode replaces its three operands by a word that has this value in these cases
only. -/
def ComputesWhen (op : Plain) (meaning : U256 → U256 → U256 → Nat)
    (proper : U256 → U256 → U256 → Prop) : Prop :=
  ∀ {H : Type} [Host H] (vm : Interpreter H) (a b m : U256) (rest : List U256),
    ∃ word : U256, (word.toNat = meaning a b m ↔ proper a b m) ∧
      (plain op : VmM H Unit).run.run { vm with stack := a :: b :: m :: rest } =
        (push word : VmM H Unit).run.run { vm with stack := rest }

/-- The sum and the product are cut to a word before they are reduced: the results are those
of unbounded intermediates when the modulus divides what is cut off. -/
theorem modular_opcodes_iff :
    ComputesWhen .addmod
      (fun a b m => if m = .zero then 0 else (a.toNat + b.toNat) % m.toNat)
      (fun a b m => m = .zero ∨ a.toNat + b.toNat < 2 ^ 256 ∨ m.toNat ∣ 2 ^ 256) ∧
    ComputesWhen .mulmod
      (fun a b m => if m = .zero then 0 else a.toNat * b.toNat % m.toNat)
      (fun a b m => m = .zero ∨ m.toNat ∣ a.toNat * b.toNat / 2 ^ 256 * 2 ^ 256) := by
  constructor
  · intro H _ vm a b m rest
    refine ⟨addmod a b m, ?_, rfl⟩
    have left := a.toNat_lt
    have right := b.toNat_lt
    rw [toNat_addmod]
    dsimp only
    by_cases none : m = .zero
    · rw [if_pos none, if_pos none]
      exact ⟨fun _ => .inl none, fun _ => rfl⟩
    · rw [if_neg none, if_neg none, wrapped_mod_iff]
      rcases Nat.lt_or_ge (a.toNat + b.toNat) (2 ^ 256) with fits | wraps
      · rw [Nat.div_eq_of_lt fits, Nat.zero_mul]
        exact ⟨fun _ => .inr (.inl fits), fun _ => Nat.dvd_zero _⟩
      · have once : (a.toNat + b.toNat) / 2 ^ 256 = 1 := by omega
        rw [once, Nat.one_mul]
        constructor
        · exact fun divides => .inr (.inr divides)
        · rintro (impossible | impossible | divides)
          · exact absurd impossible none
          · omega
          · exact divides
  · intro H _ vm a b m rest
    refine ⟨mulmod a b m, ?_, rfl⟩
    rw [toNat_mulmod]
    dsimp only
    by_cases none : m = .zero
    · rw [if_pos none, if_pos none]
      exact ⟨fun _ => .inl none, fun _ => rfl⟩
    · rw [if_neg none, if_neg none, wrapped_mod_iff]
      constructor
      · exact fun divides => .inr divides
      · rintro (impossible | divides)
        · exact absurd impossible none
        · exact divides

omit [Keccak256] in
/-- (2^256 - 1 + 2) mod 3 is 2, and 2^128 * 2^128 mod 3 is 1. -/
theorem intermediates_wrap :
    (addmod U256.zero.not (.fromU64 2) (.fromU64 3)).toNat = 1 ∧
      (U256.zero.not.toNat + (U256.fromU64 2).toNat) % (U256.fromU64 3).toNat = 2 ∧
    (mulmod (.ofLimbs 0 0 1 0) (.ofLimbs 0 0 1 0) (.fromU64 3)).toNat = 0 ∧
      (U256.ofLimbs 0 0 1 0).toNat * (U256.ofLimbs 0 0 1 0).toNat % (U256.fromU64 3).toNat = 1 := by
  rw [toNat_addmod, toNat_mulmod]
  decide +kernel

end Moduli

end Evm

end Veilux
