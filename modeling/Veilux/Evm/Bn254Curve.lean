/-
The two contracts of `evm/src/bn254.rs` and the group of the curve `y^2 = x^3 + 3` over the
prime field: on reduced coordinates the code adds and multiplies points of that group.
-/

import Veilux.Evm.Bn254Elements
import Veilux.Evm.WordNumbers
import Veilux.Lib.ShortCurve

namespace Veilux

namespace Bn254

open Rlp (ofBeBytes)

abbrev Point := (ShortCurve.curve (3 : Element)).Point

/-- The equation of the curve. -/
def Solves (x y : Element) : Prop := y * y = x * x * x + 3

instance (x y : Element) : Decidable (Solves x y) := inferInstanceAs (Decidable (_ = _))

theorem nonsingular {x y : Element} (on : Solves x y) :
    (ShortCurve.curve (3 : Element)).Nonsingular x y := by
  apply ShortCurve.nonsingular_of _ on
  intro zero
  have vanishes : ((3888 : Nat) : Element) = 0 := by
    rw [← zero]
    norm_num
  have divides := (ZMod.natCast_eq_zero_iff 3888 prime).mp vanishes
  exact absurd (Nat.le_of_dvd (by decide) divides) (by decide +kernel)

theorem two_ne_zero : (2 : Element) ≠ 0 := by
  intro zero
  have divides := (ZMod.natCast_eq_zero_iff 2 prime).mp zero
  exact absurd (Nat.le_of_dvd (by decide) divides) (by decide +kernel)

/-! ### Points of the code -/

namespace G1

/-- The words of a point of the code stand for a point of the curve. -/
inductive Stands : G1 → Point → Prop
  | atInfinity {point : G1} (infinite : point.infinity = true) : Stands point 0
  | finite {point : G1} {x y : Element} (finite : point.infinity = false) (left : Reduced point.x)
      (right : Reduced point.y) (atX : element point.x = x) (atY : element point.y = y)
      (on : (ShortCurve.curve (3 : Element)).Nonsingular x y) : Stands point (.some x y on)

theorem isOnCurve_iff {point : G1} (finite : point.infinity = false) :
    point.isOnCurve = true ↔ Solves (element point.x) (element point.y) := by
  have square := @mulmod_spec point.y point.y
  have first := @mulmod_spec point.x point.x
  have cube := @mulmod_spec (mulmod point.x point.x modulus) point.x
  have three : Reduced (.fromU64 3) ∧ element (.fromU64 3) = 3 := ⟨by decide +kernel, rfl⟩
  have sum := addmod_spec cube.1 three.1
  unfold isOnCurve Solves
  rw [finite, if_neg Bool.false_ne_true]
  dsimp only
  rw [decide_eq_true_iff, ← first.2, ← cube.2, ← square.2, ← three.2, ← sum.2]
  exact ⟨fun same => congrArg element same, square.1.injective sum.1⟩

theorem not_solves_zero : ¬ Solves 0 0 := by decide +kernel

theorem new_finite {x y : U256} (nonzero : ¬ (x.isZero && y.isZero) = true) :
    new x y = { x := x, y := y, infinity := false } := by
  unfold new
  rw [if_neg nonzero]

/-- The pair of zeros is no solution, so a new point with reduced coordinates is the one they
give. -/
theorem Stands.of_new {x y : U256} {atX atY : Element} (left : Reduced x) (right : Reduced y)
    (xs : element x = atX) (ys : element y = atY)
    (on : (ShortCurve.curve (3 : Element)).Nonsingular atX atY) :
    Stands (new x y) (.some atX atY on) := by
  have nonzero : ¬ (x.isZero && y.isZero) = true := by
    rw [Bool.and_eq_true, left.isZero_iff, right.isZero_iff]
    intro ⟨first, second⟩
    have solves : Solves (element x) (element y) := by
      rw [xs, ys]
      exact ShortCurve.equation_of on
    rw [first, second] at solves
    exact not_solves_zero solves
  rw [new_finite nonzero]
  apply Stands.finite
  · rfl
  · exact left
  · exact right
  · exact xs
  · exact ys

theorem Stands.double {point : G1} {P : Point} (stands : Stands point P) :
    Stands point.double (P + P) := by
  cases stands with
  | atInfinity infinite =>
      unfold G1.double
      rw [infinite, Bool.true_or, if_pos rfl, add_zero]
      exact .atInfinity rfl
  | @finite x y finite left right atX atY on =>
      unfold G1.double
      rw [finite, Bool.false_or]
      by_cases flat : y = 0
      · have zero : point.y.isZero = true := right.isZero_iff.mpr (atY.trans flat)
        rw [if_pos zero, ShortCurve.flat_add on flat]
        exact .atInfinity rfl
      · have some : ¬ point.y.isZero = true := fun zero =>
          flat (atY.symm.trans (right.isZero_iff.mp zero))
        rw [if_neg some]
        dsimp only
        have three : element (.fromU64 3) = 3 := rfl
        have two : element (.fromU64 2) = 2 := rfl
        have square := @mulmod_spec point.x point.x
        have num := @mulmod_spec (.fromU64 3) (mulmod point.x point.x modulus)
        have twice := @mulmod_spec (.fromU64 2) point.y
        have den := invmod_spec (mulmod (.fromU64 2) point.y modulus)
        generalize mulmod (.fromU64 3) (mulmod point.x point.x modulus) modulus = numWord at num ⊢
        generalize invmod (mulmod (.fromU64 2) point.y modulus) modulus = denWord at den ⊢
        have slope := @mulmod_spec numWord denWord
        generalize mulmod numWord denWord modulus = lambda at slope ⊢
        have slopes := @mulmod_spec lambda lambda
        have xs := @mulmod_spec (.fromU64 2) point.x
        have x3 := submod_spec slopes.1 xs.1
        generalize submod (mulmod lambda lambda modulus) (mulmod (.fromU64 2) point.x modulus)
          modulus = x3Word at x3 ⊢
        have run := submod_spec left x3.1
        have rise := @mulmod_spec lambda (submod point.x x3Word modulus)
        have y3 := submod_spec rise.1 right
        rw [num.2, den.2, twice.2, square.2, three, two, atX, atY] at slope
        rw [slopes.2, xs.2, two, atX] at x3
        rw [rise.2, run.2, atX, atY] at y3
        obtain ⟨sum, total⟩ := ShortCurve.tangent_add (mul_ne_zero two_ne_zero flat) on slope.2 x3.2
          y3.2
        rw [total]
        exact .of_new x3.1 y3.1 rfl rfl sum

theorem Stands.add {point other : G1} {P Q : Point} (left : Stands point P)
    (right : Stands other Q) : Stands (point.add other) (P + Q) := by
  cases left with
  | atInfinity infinite =>
      unfold G1.add
      rw [if_pos infinite, zero_add]
      exact right
  | @finite x₁ y₁ finite₁ redX₁ redY₁ atX₁ atY₁ on₁ =>
      have whole : Stands point (.some x₁ y₁ on₁) := .finite finite₁ redX₁ redY₁ atX₁ atY₁ on₁
      cases right with
      | atInfinity infinite =>
          unfold G1.add
          rw [finite₁, if_neg Bool.false_ne_true, if_pos infinite, add_zero]
          exact whole
      | @finite x₂ y₂ finite₂ redX₂ redY₂ atX₂ atY₂ on₂ =>
          unfold G1.add
          rw [finite₁, finite₂, if_neg Bool.false_ne_true, if_neg Bool.false_ne_true]
          dsimp only
          by_cases upright : point.x = other.x
          · have sameX : x₁ = x₂ := by rw [← atX₁, ← atX₂, upright]
            subst sameX
            rw [if_pos upright]
            by_cases same : point.y = other.y
            · have sameY : y₁ = y₂ := by rw [← atY₁, ← atY₂, same]
              subst sameY
              rw [if_pos same]
              exact whole.double
            · have differ : y₁ ≠ y₂ := by
                rw [← atY₁, ← atY₂]
                exact fun equal => same (redY₁.injective redY₂ equal)
              rw [if_neg same, ShortCurve.opposite_add on₁ on₂ differ]
              exact .atInfinity rfl
          · have apart : x₁ ≠ x₂ := by
              rw [← atX₁, ← atX₂]
              exact fun equal => upright (redX₁.injective redX₂ equal)
            rw [if_neg upright]
            have rise := submod_spec redY₂ redY₁
            have width := submod_spec redX₂ redX₁
            have den := invmod_spec (submod other.x point.x modulus)
            generalize submod other.y point.y modulus = riseWord at rise ⊢
            generalize invmod (submod other.x point.x modulus) modulus = denWord at den ⊢
            have slope := @mulmod_spec riseWord denWord
            generalize mulmod riseWord denWord modulus = lambda at slope ⊢
            have slopes := @mulmod_spec lambda lambda
            have less := submod_spec slopes.1 redX₁
            have x3 := submod_spec less.1 redX₂
            generalize submod (submod (mulmod lambda lambda modulus) point.x modulus) other.x
              modulus = x3Word at x3 ⊢
            have run := submod_spec redX₁ x3.1
            have climb := @mulmod_spec lambda (submod point.x x3Word modulus)
            have y3 := submod_spec climb.1 redY₁
            rw [rise.2, den.2, width.2, atX₁, atX₂, atY₁, atY₂] at slope
            rw [less.2, slopes.2, atX₁, atX₂] at x3
            rw [climb.2, run.2, atX₁, atY₁] at y3
            obtain ⟨sum, total⟩ := ShortCurve.chord_add apart on₁ on₂ slope.2 x3.2 y3.2
            rw [total]
            exact .of_new x3.1 y3.1 rfl rfl sum

/-- The rounds add the multiple of the base to the result. -/
theorem Stands.mulLoop {bits : Nat} {result base : G1} {k : U256} {R P : Point}
    (fits : k.toNat < 2 ^ bits) (left : Stands result R) (right : Stands base P) :
    Stands (mulLoop bits result base k) (R + k.toNat • P) := by
  induction bits generalizing result base k R P with
  | zero =>
      rw [pow_zero, Nat.lt_one_iff] at fits
      rw [fits, zero_nsmul, add_zero]
      exact left
  | succ bits ih =>
      unfold G1.mulLoop
      by_cases done : k.toNat = 0
      · rw [if_pos ((U256.isZero_iff k).mpr done), done, zero_nsmul, add_zero]
        exact left
      · have more : ¬ k.isZero = true := fun zero => done ((U256.isZero_iff k).mp zero)
        have half : (k.shr 1).toNat = k.toNat / 2 := by
          rw [U256.toNat_shr, pow_one]
        have inside : (k.shr 1).toNat < 2 ^ bits := by
          rw [half]
          rw [pow_succ] at fits
          omega
        have bit : k.bit 0 = decide (k.toNat % 2 = 1) := by
          rw [U256.bit_eq_testBit, Nat.testBit_zero]
        have twice : (k.toNat / 2) • (P + P) = (2 * (k.toNat / 2)) • P := by
          rw [← two_nsmul, ← mul_nsmul]
        rw [if_neg more, bit]
        by_cases odd : k.toNat % 2 = 1
        · have whole : k.toNat = 1 + 2 * (k.toNat / 2) := by omega
          have bits : k.toNat • P = P + (2 * (k.toNat / 2)) • P := by
            conv_lhs => rw [whole]
            rw [add_nsmul, one_nsmul]
          have rounds := ih inside (left.add right) right.double
          rw [half, twice, add_assoc, ← bits] at rounds
          rw [decide_eq_true odd, if_pos rfl]
          exact rounds
        · have whole : k.toNat = 2 * (k.toNat / 2) := by omega
          have rounds := ih inside left right.double
          rw [half, twice, ← whole] at rounds
          rw [decide_eq_false odd, if_neg Bool.false_ne_true]
          exact rounds

theorem Stands.mul {point : G1} {P : Point} (stands : Stands point P) (scalar : U256) :
    Stands (point.mul scalar) (scalar.toNat • P) := by
  have rounds := Stands.mulLoop scalar.toNat_lt (@Stands.atInfinity G1.atInfinity rfl) stands
  rwa [zero_add] at rounds

end G1

/-! ### Encoded points -/

/-- The 64 bytes of an operand; what the input lacks is zero. -/
def operand (input : List UInt8) (offset : Nat) : List UInt8 :=
  Precompile.padded 64 (input.drop offset)

def xOf (bytes : List UInt8) : Nat := ofBeBytes (bytes.take 32)

def yOf (bytes : List UInt8) : Nat := ofBeBytes (bytes.drop 32)

/-- Both coordinates are below the prime. -/
def Below (bytes : List UInt8) : Prop := xOf bytes < prime ∧ yOf bytes < prime

instance (bytes : List UInt8) : Decidable (Below bytes) := inferInstanceAs (Decidable (_ ∧ _))

/-- Neither the point at infinity nor, modulo the prime, a solution of the equation. -/
def OffCurve (bytes : List UInt8) : Prop :=
  ¬ (xOf bytes = 0 ∧ yOf bytes = 0) ∧ ¬ Solves (xOf bytes : Element) (yOf bytes : Element)

instance (bytes : List UInt8) : Decidable (OffCurve bytes) := inferInstanceAs (Decidable (_ ∧ _))

/-- The point that 64 bytes encode: zeros for infinity, else the coordinates in big endian. -/
inductive Encodes : List UInt8 → Point → Prop
  | infinity : Encodes (List.replicate 64 0) 0
  | affine {bytes : List UInt8} {x y : Element} (length : bytes.length = 64)
      (atX : xOf bytes = x.val) (atY : yOf bytes = y.val)
      (on : (ShortCurve.curve (3 : Element)).Nonsingular x y) : Encodes bytes (.some x y on)

theorem operand_length (input : List UInt8) (offset : Nat) :
    (operand input offset).length = 64 := by
  unfold operand Precompile.padded
  rw [List.length_append, List.length_take, List.length_replicate]
  omega

/-- What is encoded is below the prime. -/
theorem Encodes.below {bytes : List UInt8} {P : Point} (encodes : Encodes bytes P) :
    Below bytes := by
  cases encodes with
  | infinity => decide +kernel
  | affine length atX atY on =>
      unfold Below
      rw [atX, atY]
      exact ⟨ZMod.val_lt _, ZMod.val_lt _⟩

namespace G1

theorem Stands.encodes {point : G1} {P : Point} (stands : Stands point P) :
    Encodes point.toBytes P := by
  cases stands with
  | atInfinity infinite =>
      unfold toBytes
      rw [if_pos infinite]
      exact .infinity
  | finite finite left right atX atY on =>
      have xLength : point.x.toBigEndian.toList.length = 32 := Vector.length_toList
      have yLength : point.y.toBigEndian.toList.length = 32 := Vector.length_toList
      unfold toBytes
      rw [finite, if_neg Bool.false_ne_true]
      apply Encodes.affine
      · rw [List.length_append, xLength, yLength]
      · rw [← atX, left.val_element, xOf, List.take_left' xLength, U256.ofBeBytes_toBigEndian]
      · rw [← atY, right.val_element, yOf, List.drop_left' xLength, U256.ofBeBytes_toBigEndian]

/-! ### The contracts -/

section Reads

variable {input : List UInt8} {offset : Nat}

/-- The two words of an operand. -/
theorem operand_words (input : List UInt8) (offset : Nat) :
    (U256.fromBigEndian ((operand input offset).take 32)).toNat = xOf (operand input offset) ∧
      (U256.fromBigEndian ((operand input offset).drop 32)).toNat = yOf (operand input offset) := by
  have length := operand_length input offset
  constructor
  · apply U256.toNat_fromBigEndian
    rw [List.length_take, length]
    decide
  · apply U256.toNat_fromBigEndian
    rw [List.length_drop, length]

/-- An operand of two zero words is the encoding of infinity. -/
theorem operand_zeros (left : xOf (operand input offset) = 0)
    (right : yOf (operand input offset) = 0) :
    operand input offset = List.replicate 64 0 := by
  have length := operand_length input offset
  have spelled {bytes : List UInt8} (full : bytes.length = 32) (none : ofBeBytes bytes = 0) :
      bytes = List.replicate 32 0 := by
    have word : U256.fromBigEndian bytes = .zero := by
      apply U256.toNat_injective
      rw [U256.toNat_fromBigEndian full.le, none]
      rfl
    rw [← U256.toBigEndian_fromBigEndian full, word]
    decide +kernel
  have first := spelled (by rw [List.length_take, length]; rfl) left
  have second := spelled (by rw [List.length_drop, length]) right
  rw [← List.take_append_drop 32 (operand input offset), first, second]
  rfl

/-- The point that an operand's two words make. -/
def operandPoint (input : List UInt8) (offset : Nat) : G1 :=
  new (U256.fromBigEndian ((operand input offset).take 32))
    (U256.fromBigEndian ((operand input offset).drop 32))

theorem readPoint_eq (input : List UInt8) (offset : Nat) :
    readPoint input offset =
      if (operandPoint input offset).isOnCurve then some (operandPoint input offset) else none :=
  rfl

theorem readPoint_spec (input : List UInt8) (offset : Nat) :
    (OffCurve (operand input offset) → readPoint input offset = none) ∧
      (¬ OffCurve (operand input offset) →
        readPoint input offset = some (operandPoint input offset) ∧
          (Below (operand input offset) →
            ∃ P, Encodes (operand input offset) P ∧ Stands (operandPoint input offset) P)) := by
  obtain ⟨atX, atY⟩ := operand_words input offset
  have length := operand_length input offset
  have zeros := @operand_zeros input offset
  rw [readPoint_eq]
  unfold OffCurve Below operandPoint
  generalize U256.fromBigEndian ((operand input offset).take 32) = x at atX ⊢
  generalize U256.fromBigEndian ((operand input offset).drop 32) = y at atY ⊢
  rw [← atX, ← atY] at zeros ⊢
  by_cases none : x.toNat = 0 ∧ y.toNat = 0
  · have infinite : new x y = atInfinity := by
      unfold new
      rw [(U256.isZero_iff x).mpr none.1, (U256.isZero_iff y).mpr none.2, Bool.and_self, if_pos rfl]
    rw [infinite]
    refine ⟨fun off => absurd none off.1, fun _ => ⟨rfl, fun _ => ⟨0, ?_, .atInfinity rfl⟩⟩⟩
    rw [zeros none.1 none.2]
    exact .infinity
  · have nonzero : ¬ (x.isZero && y.isZero) = true := by
      rw [Bool.and_eq_true, U256.isZero_iff, U256.isZero_iff]
      exact none
    have finite := new_finite nonzero
    have onCurve : (new x y).isOnCurve = true ↔ Solves (element x) (element y) := by
      rw [finite]
      exact isOnCurve_iff rfl
    constructor
    · intro off
      exact if_neg fun on => off.2 (onCurve.mp on)
    · intro inside
      have solves : Solves (element x) (element y) :=
        not_not.mp fun unsolved => inside ⟨none, unsolved⟩
      refine ⟨if_pos (onCurve.mpr solves), fun ⟨left, right⟩ => ?_⟩
      have on := nonsingular solves
      refine ⟨.some _ _ on, ?_, Stands.of_new left right rfl rfl on⟩
      apply Encodes.affine length
      · rw [Reduced.val_element left, atX]
      · rw [Reduced.val_element right, atY]

theorem ecAdd_of {point other : G1} (first : readPoint input 0 = some point)
    (second : readPoint input 64 = some other) : ecAdd input = some (point.add other).toBytes := by
  unfold ecAdd
  rw [first, second]

end Reads

/-- The sum of the two points comes out, or the input is refused, as it is with a coordinate that
is not below the prime. -/
def AddsPoints (input : List UInt8) : Prop :=
  (∀ out, ecAdd input = some out → ∃ P Q, Encodes (operand input 0) P ∧
    Encodes (operand input 64) Q ∧ Encodes out (P + Q)) ∧
  (¬ (Below (operand input 0) ∧ Below (operand input 64)) → ecAdd input = none)

def scalarOf (input : List UInt8) : Nat := ofBeBytes (Precompile.padded 32 (input.drop 64))

/-- The multiple of the point comes out, or the input is refused, as it is with a coordinate that
is not below the prime. -/
def MultipliesPoint (input : List UInt8) : Prop :=
  (∀ out, ecMul input = some out → ∃ P, Encodes (operand input 0) P ∧
    Encodes out (scalarOf input • P)) ∧
  (¬ Below (operand input 0) → ecMul input = none)

theorem addsPoints_iff (input : List UInt8) :
    AddsPoints input ↔ (Below (operand input 0) ∧ Below (operand input 64)) ∨
      OffCurve (operand input 0) ∨ OffCurve (operand input 64) := by
  obtain ⟨offLeft, onLeft⟩ := readPoint_spec input 0
  obtain ⟨offRight, onRight⟩ := readPoint_spec input 64
  have refused (off : OffCurve (operand input 0) ∨ OffCurve (operand input 64)) :
      ecAdd input = none := by
    unfold ecAdd
    rcases off with left | right
    · rw [offLeft left]
    · rw [offRight right]
      cases readPoint input 0 with
      | none => rfl
      | some point => rfl
  constructor
  · intro adds
    by_contra wrong
    obtain ⟨above, inside⟩ := not_or.mp wrong
    obtain ⟨left, right⟩ := not_or.mp inside
    have first := (onLeft left).1
    have second := (onRight right).1
    have none := adds.2 above
    rw [ecAdd_of first second] at none
    cases none
  · intro proper
    by_cases off : OffCurve (operand input 0) ∨ OffCurve (operand input 64)
    · have none := refused off
      exact ⟨fun out accepted => absurd (none.symm.trans accepted) nofun, fun _ => none⟩
    · obtain ⟨belowLeft, belowRight⟩ := proper.resolve_right off
      obtain ⟨left, right⟩ := not_or.mp off
      obtain ⟨first, standsLeft⟩ := onLeft left
      obtain ⟨second, standsRight⟩ := onRight right
      obtain ⟨P, encodesP, standsP⟩ := standsLeft belowLeft
      obtain ⟨Q, encodesQ, standsQ⟩ := standsRight belowRight
      refine ⟨fun out accepted => ⟨P, Q, encodesP, encodesQ, ?_⟩,
        fun above => absurd ⟨belowLeft, belowRight⟩ above⟩
      rw [ecAdd_of first second] at accepted
      cases accepted
      exact (standsP.add standsQ).encodes

theorem multipliesPoint_iff (input : List UInt8) :
    MultipliesPoint input ↔ Below (operand input 0) ∨ OffCurve (operand input 0) := by
  obtain ⟨off, on⟩ := readPoint_spec input 0
  constructor
  · intro multiplies
    by_contra wrong
    obtain ⟨above, inside⟩ := not_or.mp wrong
    have read := (on inside).1
    have none := multiplies.2 above
    unfold ecMul at none
    rw [read] at none
    cases none
  · intro proper
    by_cases outside : OffCurve (operand input 0)
    · have none : ecMul input = none := by
        unfold ecMul
        rw [off outside]
      exact ⟨fun out accepted => absurd (none.symm.trans accepted) nofun, fun _ => none⟩
    · have below := proper.resolve_right outside
      obtain ⟨read, stands⟩ := on outside
      obtain ⟨P, encodes, standsP⟩ := stands below
      have scalar : (U256.fromBigEndian (Precompile.padded 32 (input.drop 64))).toNat =
          scalarOf input := by
        apply U256.toNat_fromBigEndian
        unfold Precompile.padded
        rw [List.length_append, List.length_take, List.length_replicate]
        omega
      refine ⟨fun out accepted => ⟨P, encodes, ?_⟩, fun above => absurd below above⟩
      unfold ecMul at accepted
      rw [read] at accepted
      cases accepted
      rw [← scalar]
      exact (standsP.mul _).encodes

/-- Both contracts give the group's result, or refuse, exactly when the operands' coordinates are
below the prime or an operand is off the curve. -/
theorem contracts_right_iff (input : List UInt8) :
    (AddsPoints input ↔ (Below (operand input 0) ∧ Below (operand input 64)) ∨
      OffCurve (operand input 0) ∨ OffCurve (operand input 64)) ∧
    (MultipliesPoint input ↔ Below (operand input 0) ∨ OffCurve (operand input 0)) :=
  ⟨addsPoints_iff input, multipliesPoint_iff input⟩

/-- The generator with the prime added to its `x`. -/
def strayGenerator : List UInt8 :=
  (modulus.wrappingAdd .one).toBigEndian.toList ++ (U256.fromU64 2).toBigEndian.toList

/-- It is accepted and comes out as it went in. -/
theorem stray_generator_accepted :
    ecAdd strayGenerator = some strayGenerator ∧ ¬ AddsPoints strayGenerator ∧
      ¬ MultipliesPoint strayGenerator := by
  have above : ¬ Below (operand strayGenerator 0) := by decide +kernel
  have onLeft : ¬ OffCurve (operand strayGenerator 0) := by decide +kernel
  have onRight : ¬ OffCurve (operand strayGenerator 64) := by decide +kernel
  have unchanged : ((operandPoint strayGenerator 0).add (operandPoint strayGenerator 64)).toBytes =
      strayGenerator := by decide +kernel
  refine ⟨?_, ?_, ?_⟩
  · rw [ecAdd_of ((readPoint_spec strayGenerator 0).2 onLeft).1
      ((readPoint_spec strayGenerator 64).2 onRight).1, unchanged]
  · rw [addsPoints_iff]
    rintro (both | left | right)
    · exact above both.1
    · exact onLeft left
    · exact onRight right
  · rw [multipliesPoint_iff]
    rintro (below | off)
    · exact above below
    · exact onLeft off

end G1

end Bn254

end Veilux
