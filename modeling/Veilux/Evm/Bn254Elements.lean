/-
The prime of `evm/src/bn254.rs` and its field: reduced words stand for the elements, and the
operations on words are those of the field.
-/

import Veilux.Evm.Bn254Field

namespace Veilux

namespace Bn254

/-! ### The field prime -/

@[irreducible] def prime : Nat :=
  21888242871839275222246405745257275088696311157297823662689037894645226208583

theorem toNat_modulus : modulus.toNat = prime := by decide +kernel

/-- The prime factors of the numbers below that division alone finds. -/
def smallPrimes : List Nat :=
  [2, 3, 5, 7, 11, 13, 17, 19, 29, 37, 41, 67, 73, 89, 109, 229, 233, 271, 311, 911, 983, 1231,
    3557, 3691, 4999, 11003, 13327]

/-- Every number with a residue of full order, the larger factors before the numbers. -/
def primeTable : List Pratt.Entry :=
  [⟨327599, 19, [2, 19, 37, 233]⟩,
    ⟨1853641, 17, [2, 2, 2, 3, 3, 5, 19, 271]⟩,
    ⟨4562087, 5, [2, 17, 109, 1231]⟩,
    ⟨173171039, 13, [2, 73, 89, 13327]⟩,
    ⟨405928799, 22, [2, 11, 3691, 4999]⟩,
    ⟨1263766531, 10, [2, 3, 5, 13, 911, 3557]⟩,
    ⟨11465965001, 3, [2, 2, 2, 5, 5, 5, 5, 7, 327599]⟩,
    ⟨35385462869, 2, [2, 2, 7, 1263766531]⟩,
    ⟨2480874801745591, 6, [2, 3, 3, 5, 19, 41, 35385462869]⟩,
    ⟨13427688667394608761327070753331941386769, 17,
      [2, 2, 2, 2, 3, 7, 11, 1853641, 4562087, 173171039, 2480874801745591]⟩,
    ⟨prime, 3,
      [2, 3, 3, 13, 29, 67, 229, 311, 983, 11003, 405928799, 11465965001,
        13427688667394608761327070753331941386769]⟩]

theorem smallPrimes_prime : ∀ factor ∈ smallPrimes, factor.Prime := by
  simp only [smallPrimes, List.forall_mem_cons]
  norm_num

theorem prime_prime : prime.Prime := by
  have certified : Pratt.Certified 256 smallPrimes primeTable := by decide +kernel
  have last : ⟨prime, 3, [2, 3, 3, 13, 29, 67, 229, 311, 983, 11003, 405928799, 11465965001,
      13427688667394608761327070753331941386769]⟩ ∈ primeTable := List.mem_of_getLast? rfl
  exact Pratt.primes_of_certified certified smallPrimes_prime _ last

/-! ### Words as elements of the field -/

instance : Fact prime.Prime := ⟨prime_prime⟩

abbrev Element := ZMod prime

def element (a : U256) : Element := (a.toNat : Element)

/-- The word is below the field prime. -/
def Reduced (a : U256) : Prop := a.toNat < prime

instance (a : U256) : Decidable (Reduced a) := inferInstanceAs (Decidable (_ < _))

section Elements

variable {a b : U256}

theorem modulus_positive : 0 < modulus.toNat := by
  rw [toNat_modulus]
  exact prime_prime.pos

theorem modulus_room : modulus.toNat < 2 ^ 255 := by
  rw [toNat_modulus]
  decide +kernel

/-- A word that is a remainder is reduced and stands for the number's residue. -/
theorem of_remainder {number : Nat} (same : a.toNat = number % modulus.toNat) :
    Reduced a ∧ element a = (number : Element) := by
  rw [toNat_modulus] at same
  constructor
  · unfold Reduced
    rw [same]
    exact Nat.mod_lt _ prime_prime.pos
  · unfold element
    rw [same, ZMod.natCast_mod]

theorem Reduced.below (reduced : Reduced a) : a.toNat < modulus.toNat := by
  rw [toNat_modulus]
  exact reduced

theorem Reduced.injective (left : Reduced a) (right : Reduced b) (same : element a = element b) :
    a = b := by
  apply U256.toNat_injective
  have residues := (ZMod.natCast_eq_natCast_iff' a.toNat b.toNat prime).mp same
  rwa [Nat.mod_eq_of_lt left, Nat.mod_eq_of_lt right] at residues

theorem Reduced.val_element (reduced : Reduced a) : (element a).val = a.toNat :=
  ZMod.val_natCast_of_lt reduced

theorem element_zero : element .zero = 0 := Nat.cast_zero

theorem reduced_zero : Reduced .zero := prime_prime.pos

theorem Reduced.isZero_iff (reduced : Reduced a) : a.isZero = true ↔ element a = 0 := by
  rw [U256.isZero_iff]
  constructor
  · intro none
    unfold element
    rw [none, Nat.cast_zero]
  · intro none
    have same := reduced.injective reduced_zero (none.trans element_zero.symm)
    rw [same]
    rfl

theorem addmod_spec (left : Reduced a) (right : Reduced b) :
    Reduced (addmod a b modulus) ∧ element (addmod a b modulus) = element a + element b := by
  have spec := of_remainder (toNat_addmod left.below right.below modulus_room)
  rwa [Nat.cast_add] at spec

theorem submod_spec (left : Reduced a) (right : Reduced b) :
    Reduced (submod a b modulus) ∧ element (submod a b modulus) = element a - element b := by
  have spec := of_remainder (toNat_submod left.below right.below modulus_room)
  have zero : (modulus.toNat : Element) = 0 := by
    rw [toNat_modulus]
    exact ZMod.natCast_self prime
  rwa [Nat.cast_add, Nat.cast_sub right.below.le, zero, zero_sub, ← sub_eq_add_neg] at spec

theorem mulmod_spec :
    Reduced (mulmod a b modulus) ∧ element (mulmod a b modulus) = element a * element b := by
  have spec := of_remainder (@toNat_mulmod a b modulus modulus_positive modulus_room)
  rwa [Nat.cast_mul] at spec

/-- The rounds multiply the result by the power of the base. -/
theorem powLoop_spec {bits : Nat} {result base exp : U256} (fits : exp.toNat < 2 ^ bits)
    (reduced : Reduced result) :
    Reduced (powLoop modulus bits result base exp) ∧
      element (powLoop modulus bits result base exp) =
        element result * element base ^ exp.toNat := by
  induction bits generalizing result base exp with
  | zero =>
      rw [pow_zero, Nat.lt_one_iff] at fits
      rw [fits, pow_zero, mul_one]
      exact ⟨reduced, rfl⟩
  | succ bits ih =>
      unfold powLoop
      by_cases done : exp.toNat = 0
      · rw [if_pos ((U256.isZero_iff exp).mpr done), done, pow_zero, mul_one]
        exact ⟨reduced, rfl⟩
      · have more : ¬ exp.isZero = true := fun zero => done ((U256.isZero_iff exp).mp zero)
        have half : (exp.shr 1).toNat = exp.toNat / 2 := by
          rw [U256.toNat_shr, pow_one]
        have inside : (exp.shr 1).toNat < 2 ^ bits := by
          rw [half]
          rw [pow_succ] at fits
          omega
        have bit : exp.bit 0 = decide (exp.toNat % 2 = 1) := by
          rw [U256.bit_eq_testBit, Nat.testBit_zero]
        have square := @mulmod_spec base base
        rw [if_neg more, bit]
        by_cases odd : exp.toNat % 2 = 1
        · have whole : exp.toNat = 1 + 2 * (exp.toNat / 2) := by omega
          have step := @mulmod_spec result base
          obtain ⟨last, power⟩ := @ih (mulmod result base modulus) (mulmod base base modulus) _
            inside step.1
          rw [decide_eq_true odd, if_pos rfl]
          refine ⟨last, power.trans ?_⟩
          have bits : element base ^ exp.toNat =
              element base * element base ^ (2 * (exp.toNat / 2)) := by
            conv_lhs => rw [whole]
            rw [pow_add, pow_one]
          rw [step.2, square.2, half, ← pow_two, ← pow_mul, mul_assoc, bits]
        · have whole : exp.toNat = 2 * (exp.toNat / 2) := by omega
          obtain ⟨last, power⟩ := @ih result (mulmod base base modulus) _ inside reduced
          rw [decide_eq_false odd, if_neg Bool.false_ne_true]
          refine ⟨last, power.trans ?_⟩
          rw [square.2, half, ← pow_two, ← pow_mul, ← whole]

/-- The power of `p - 2` is the inverse, of zero too. -/
theorem invmod_spec (a : U256) :
    Reduced (invmod a modulus) ∧ element (invmod a modulus) = (element a)⁻¹ := by
  have exponent : (modulus.wrappingSub (.fromU64 2)).toNat = prime - 2 := by decide +kernel
  have base : element (a.divMod modulus).2 = element a :=
    (of_remainder (U256.toNat_divMod a modulus_positive).2).2
  have one : Reduced .one := prime_prime.one_lt
  have unit : element .one = 1 := Nat.cast_one
  obtain ⟨reduced, power⟩ := @powLoop_spec 256 .one (a.divMod modulus).2
    _ (modulus.wrappingSub (.fromU64 2)).toNat_lt one
  refine ⟨reduced, power.trans ?_⟩
  rw [unit, one_mul, base, exponent]
  by_cases zero : element a = 0
  · rw [zero, inv_zero]
    exact zero_pow (by decide +kernel)
  · apply eq_inv_of_mul_eq_one_left
    have fermat := ZMod.pow_card_sub_one_eq_one zero
    have next : prime - 2 + 1 = prime - 1 := by decide +kernel
    rw [← pow_succ, next]
    exact fermat

end Elements

end Bn254

end Veilux
