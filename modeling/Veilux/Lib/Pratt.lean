/-
Primes by the order of a residue.  A number is prime once some residue has the full order
below it; the factors of that order are named, and the powers are taken by squaring so that
they can be evaluated.
-/

import Mathlib.NumberTheory.LucasPrimality
import Mathlib.Data.List.Prime
import Mathlib.Tactic.Ring

namespace Pratt

/-- A power modulo a number, from the upper bits of the exponent down. -/
def powMod (base modulus : Nat) : Nat → Nat → Nat
  | 0, _ => 1 % modulus
  | bits + 1, exponent =>
      let root := powMod base modulus bits (exponent / 2)
      let square := root * root % modulus
      if exponent % 2 = 0 then square else square * base % modulus

theorem powMod_eq (base modulus : Nat) {bits exponent : Nat} (fits : exponent < 2 ^ bits) :
    powMod base modulus bits exponent = base ^ exponent % modulus := by
  induction bits generalizing exponent with
  | zero =>
      rw [pow_zero, Nat.lt_one_iff] at fits
      rw [fits, pow_zero]
      rfl
  | succ bits ih =>
      have half : exponent / 2 < 2 ^ bits := by
        rw [pow_succ] at fits
        omega
      have squared : base ^ (exponent / 2) % modulus * (base ^ (exponent / 2) % modulus) % modulus =
          base ^ (2 * (exponent / 2)) % modulus := by
        rw [← Nat.mul_mod, ← pow_add, ← Nat.two_mul]
      unfold powMod
      dsimp only
      rw [ih half, squared]
      by_cases even : exponent % 2 = 0
      · have whole : 2 * (exponent / 2) = exponent := by omega
        rw [if_pos even, whole]
      · have whole : exponent = 2 * (exponent / 2) + 1 := by omega
        rw [if_neg even, Nat.mod_mul_mod]
        conv_rhs => rw [whole, pow_succ]

/-- The base has order `number - 1`: the power by it is one, the powers by its quotients by
the prime factors are not. -/
def FullOrder (bits base number : Nat) (factors : List Nat) : Prop :=
  1 < number ∧ number < 2 ^ bits ∧ factors.prod = number - 1 ∧
    powMod base number bits (number - 1) = 1 ∧
    ∀ factor ∈ factors, powMod base number bits ((number - 1) / factor) ≠ 1

instance (bits base number : Nat) (factors : List Nat) :
    Decidable (FullOrder bits base number factors) :=
  inferInstanceAs (Decidable (_ ∧ _ ∧ _ ∧ _ ∧ _))

theorem residue_pow_eq_one {base number bits exponent : Nat} (large : 1 < number)
    (fits : exponent < 2 ^ bits) :
    (base : ZMod number) ^ exponent = 1 ↔ powMod base number bits exponent = 1 := by
  have one : 1 % number = 1 := Nat.mod_eq_of_lt large
  rw [powMod_eq base number fits, ← Nat.cast_pow, ← Nat.cast_one, ZMod.natCast_eq_natCast_iff', one]

theorem prime_of_fullOrder {bits base number : Nat} {factors : List Nat}
    (order : FullOrder bits base number factors) (primes : ∀ factor ∈ factors, factor.Prime) :
    number.Prime := by
  obtain ⟨large, fits, whole, returns, proper⟩ := order
  have below : ∀ exponent ≤ number - 1, exponent < 2 ^ bits := fun exponent small => by omega
  apply lucas_primality number (base : ZMod number)
  · exact (residue_pow_eq_one large (below _ le_rfl)).mpr returns
  · intro factor prime divides
    rw [← whole] at divides
    obtain ⟨listed, member, inside⟩ := (Prime.dvd_prod_iff prime.prime).mp divides
    have same : factor = listed :=
      (Nat.prime_dvd_prime_iff_eq prime (primes listed member)).mp inside
    rw [same]
    intro returned
    exact proper listed member
      ((residue_pow_eq_one large (below _ (Nat.div_le_self _ _))).mp returned)

/-! ### Tables -/

/-- A number, its base and the prime factors of the number less one. -/
structure Entry where
  number : Nat
  base : Nat
  factors : List Nat

/-- The factors of an entry are known or numbers of entries before it. -/
def Certified (bits : Nat) : List Nat → List Entry → Prop
  | _, [] => True
  | known, entry :: later =>
      FullOrder bits entry.base entry.number entry.factors ∧
        (∀ factor ∈ entry.factors, factor ∈ known) ∧ Certified bits (entry.number :: known) later

instance decidableCertified (bits : Nat) :
    (known : List Nat) → (table : List Entry) → Decidable (Certified bits known table)
  | _, [] => inferInstanceAs (Decidable True)
  | known, entry :: later =>
      have := decidableCertified bits (entry.number :: known) later
      inferInstanceAs (Decidable (_ ∧ _ ∧ _))

theorem primes_of_certified {bits : Nat} {known : List Nat} {table : List Entry}
    (certified : Certified bits known table) (primes : ∀ factor ∈ known, factor.Prime) :
    ∀ entry ∈ table, entry.number.Prime := by
  induction table generalizing known with
  | nil => nofun
  | cons entry later ih =>
      obtain ⟨order, listed, rest⟩ := certified
      have prime : entry.number.Prime :=
        prime_of_fullOrder order fun factor member => primes factor (listed factor member)
      have wider : ∀ factor ∈ entry.number :: known, factor.Prime :=
        List.forall_mem_cons.mpr ⟨prime, primes⟩
      exact List.forall_mem_cons.mpr ⟨prime, ih rest wider⟩

end Pratt
