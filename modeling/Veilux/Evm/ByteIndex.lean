/-
The operands that name a byte of a word.  `SIGNEXTEND` and `BYTE` look at the low 64
bits of the index only, so they follow the specification where these do.
-/

import Veilux.Evm.WordOpcodes

namespace Veilux

namespace Evm

/-- The specification of `SIGNEXTEND`: the bits above the byte `i` repeat its highest one. -/
def signExtended (i x : Nat) : Nat :=
  if i < 31 then
    let width := 2 ^ (8 * i + 8)
    if x.testBit (8 * i + 7) then x % width + (2 ^ 256 - width) else x % width
  else x

/-- The specification of `BYTE`, counted from the most significant byte. -/
def byteAt (i x : Nat) : Nat := if i < 32 then x / 256 ^ (31 - i) % 256 else 0

theorem lowUsize_eq_mod (value : U256) : value.lowUsize = value.toNat % 2 ^ 64 := by
  have l0 := (value.limbAt 0).toNat_lt
  unfold U256.lowUsize U256.toNat
  omega

theorem lowU64_toNat (value : U256) : value.lowU64.toNat = value.toNat % 2 ^ 64 :=
  lowUsize_eq_mod value

theorem toNat_and (left right : U256) :
    (left.and right).toNat = left.toNat &&& right.toNat := by
  apply U256.eq_of_testBit (U256.toNat_lt _) (Nat.and_lt_two_pow _ right.toNat_lt)
  intro index inside
  have word : index / 64 < 4 := by omega
  rw [Nat.testBit_and, U256.testBit_toNat _ inside, U256.testBit_toNat _ inside,
    U256.testBit_toNat _ inside]
  have limbs : (left.and right).limbAt (index / 64) =
      left.limbAt (index / 64) &&& right.limbAt (index / 64) := by
    interval_cases index / 64 <;> rfl
  rw [limbs, UInt64.toNat_and, Nat.testBit_and]

/-- The bits up to the sign of the byte. -/
theorem toNat_lowMask {width : Nat} (proper : width < 256) :
    ((U256.one.shl width).wrappingSub .one).toNat = 2 ^ width - 1 := by
  have positive : 0 < 2 ^ width := Nat.two_pow_pos _
  have fits : 2 ^ width < 2 ^ 256 := Nat.pow_lt_pow_right (by decide) proper
  rw [U256.toNat_sub, U256.toNat_shl, U256.toNat_one, Nat.one_mul]
  generalize 2 ^ width = power at positive fits
  omega

/-- Setting the bits above a width keeps those below it. -/
theorem or_high (x : Nat) {width : Nat} (proper : width < 256) (bound : x < 2 ^ 256) :
    x ||| (2 ^ 256 - 2 ^ width) = x % 2 ^ width + (2 ^ 256 - 2 ^ width) := by
  have whole : 2 ^ width * 2 ^ (256 - width) = 2 ^ 256 := by
    rw [← Nat.pow_add, Nat.add_sub_cancel' proper.le]
  have product : 2 ^ width * (2 ^ (256 - width) - 1) = 2 ^ 256 - 2 ^ width := by
    rw [Nat.mul_sub, whole, Nat.mul_one]
  have low : x % 2 ^ width < 2 ^ width := Nat.mod_lt _ (Nat.two_pow_pos _)
  rw [← product, Nat.add_comm, Nat.two_pow_add_eq_or_of_lt low]
  apply U256.eq_of_testBit
  · exact Nat.or_lt_two_pow bound (by rw [product]; exact Nat.sub_lt (by decide) (Nat.two_pow_pos _))
  · refine Nat.or_lt_two_pow (by rw [product]; exact Nat.sub_lt (by decide) (Nat.two_pow_pos _)) ?_
    exact low.trans (Nat.pow_lt_pow_right (by decide) proper)
  intro index inside
  rw [Nat.testBit_or, Nat.testBit_or, Nat.testBit_two_pow_mul, Nat.testBit_two_pow_sub_one,
    Nat.testBit_mod_two_pow]
  by_cases above : width ≤ index
  · have inner : index - width < 256 - width := by omega
    simp [above, inner]
  · simp [above, Nat.lt_of_not_le above]

theorem toNat_signextend (i x : U256) :
    (signextend i x).toNat = signExtended (i.toNat % 2 ^ 64) x.toNat := by
  unfold signextend signExtended
  have index := lowU64_toNat i
  by_cases small : i.toNat % 2 ^ 64 < 31
  · have below : ¬ (31 : UInt64) ≤ i.lowU64 := by
      rw [UInt64.le_iff_toNat_le, index]
      exact Nat.not_le.mpr small
    rw [if_neg below, if_pos small, lowUsize_eq_mod]
    generalize i.toNat % 2 ^ 64 = byte at small
    have bits : byte * 8 + 7 + 1 = 8 * byte + 8 := by omega
    have proper : 8 * byte + 8 < 256 := by omega
    have sign : byte * 8 + 7 = 8 * byte + 7 := by omega
    dsimp only
    rw [bits, sign, U256.bit_eq_testBit]
    split
    · rw [toNat_or, U256.toNat_not, toNat_lowMask proper, ← or_high _ proper x.toNat_lt]
      have positive : 0 < 2 ^ (8 * byte + 8) := Nat.two_pow_pos _
      congr 1
      generalize 2 ^ (8 * byte + 8) = power at positive
      omega
    · rw [toNat_and, toNat_lowMask proper, Nat.and_two_pow_sub_one_eq_mod]
  · have above : (31 : UInt64) ≤ i.lowU64 := by
      rw [UInt64.le_iff_toNat_le, index]
      exact Nat.not_lt.mp small
    rw [if_pos above, if_neg small]

theorem toNat_byteOp (i x : U256) :
    (byteOp i x).toNat = byteAt (i.toNat % 2 ^ 64) x.toNat := by
  unfold byteOp byteAt
  have index := lowU64_toNat i
  by_cases small : i.toNat % 2 ^ 64 < 32
  · have below : ¬ (32 : UInt64) ≤ i.lowU64 := by
      rw [UInt64.le_iff_toNat_le, index]
      exact Nat.not_le.mpr small
    rw [if_neg below, if_pos small, lowUsize_eq_mod]
    generalize i.toNat % 2 ^ 64 = byte at small
    have word (digit : UInt8) : (U256.fromU64 digit.toUInt64).toNat = digit.toNat := by
      have l0 : (U256.fromU64 digit.toUInt64).limbAt 0 = digit.toUInt64 := rfl
      have l1 : (U256.fromU64 digit.toUInt64).limbAt 1 = 0 := rfl
      have l2 : (U256.fromU64 digit.toUInt64).limbAt 2 = 0 := rfl
      have l3 : (U256.fromU64 digit.toUInt64).limbAt 3 = 0 := rfl
      unfold U256.toNat
      rw [l0, l1, l2, l3, UInt8.toNat_toUInt64]
      simp
    have power : 256 ^ (31 - byte) = 2 ^ ((31 - byte) * 8) := by
      rw [Nat.mul_comm, Nat.pow_mul]
    rw [word, power]
    apply Nat.eq_of_testBit_eq
    intro bit
    have modulus : 256 = 2 ^ 8 := rfl
    rw [modulus, Nat.testBit_mod_two_pow, Nat.testBit_div_two_pow]
    by_cases low : bit < 8
    · rw [U256.testBit_toBigEndian x small low]
      simp [low, Nat.add_comm]
    · have digit := (x.toBigEndian.toList.getD byte 0).toNat_lt
      have large : 2 ^ 8 ≤ 2 ^ bit := Nat.pow_le_pow_right (by decide) (Nat.le_of_not_lt low)
      rw [Nat.testBit_lt_two_pow (digit.trans_le large)]
      simp [low]
  · have above : (32 : UInt64) ≤ i.lowU64 := by
      rw [UInt64.le_iff_toNat_le, index]
      exact Nat.not_lt.mp small
    rw [if_pos above, if_neg small]
    rfl

/-- `SIGNEXTEND` is right on every word exactly for the indices that fit, or whose low bits
are beyond the word too. -/
theorem signextend_iff (i : U256) :
    (∀ x : U256, (signextend i x).toNat = signExtended i.toNat x.toNat) ↔
      i.toNat < 2 ^ 64 ∨ 31 ≤ i.toNat % 2 ^ 64 := by
  constructor
  · intro right
    by_contra wrong
    obtain ⟨large, small⟩ := not_or.mp wrong
    have here := right (U256.ofLimbs 0 0 0 0x8000000000000000)
    have value : (U256.ofLimbs 0 0 0 0x8000000000000000).toNat = 2 ^ 255 := rfl
    have beyond : ¬ i.toNat < 31 := by omega
    rw [toNat_signextend, value] at here
    unfold signExtended at here
    rw [if_pos (Nat.lt_of_not_le small), if_neg beyond] at here
    generalize i.toNat % 2 ^ 64 = byte at small here
    have sign : (2 ^ 255).testBit (8 * byte + 7) = false := by
      rw [Nat.testBit_two_pow]
      exact decide_eq_false (by omega)
    have divides : 2 ^ 255 % 2 ^ (8 * byte + 8) = 0 :=
      Nat.mod_eq_zero_of_dvd (Nat.pow_dvd_pow 2 (by omega))
    dsimp only at here
    rw [sign, if_neg Bool.false_ne_true, divides] at here
    exact absurd here (by decide)
  · intro fits x
    rw [toNat_signextend]
    rcases fits with small | beyond
    · rw [Nat.mod_eq_of_lt small]
    · have large : ¬ i.toNat < 31 := by omega
      unfold signExtended
      rw [if_neg (Nat.not_lt.mpr beyond), if_neg large]

theorem byteOp_iff (i : U256) :
    (∀ x : U256, (byteOp i x).toNat = byteAt i.toNat x.toNat) ↔
      i.toNat < 2 ^ 64 ∨ 32 ≤ i.toNat % 2 ^ 64 := by
  constructor
  · intro right
    by_contra wrong
    obtain ⟨large, small⟩ := not_or.mp wrong
    have here := right U256.zero.not
    have value : U256.zero.not.toNat = 2 ^ 256 - 1 := rfl
    have beyond : ¬ i.toNat < 32 := by omega
    rw [toNat_byteOp, value] at here
    unfold byteAt at here
    rw [if_pos (Nat.lt_of_not_le small), if_neg beyond] at here
    generalize i.toNat % 2 ^ 64 = byte at small here
    have inside : byte < 32 := Nat.lt_of_not_le small
    interval_cases byte <;> exact absurd here (by decide)
  · intro fits x
    rw [toNat_byteOp]
    rcases fits with small | beyond
    · rw [Nat.mod_eq_of_lt small]
    · have large : ¬ i.toNat < 32 := by omega
      unfold byteAt
      rw [if_neg (Nat.not_lt.mpr beyond), if_neg large]

end Evm

end Veilux
