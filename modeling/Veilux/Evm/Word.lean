/-
The words of `evm/src/u256.rs`: four limbs, the loops over them written out, and
what addition, subtraction and comparison mean as natural numbers.
-/

import Veilux.Evm.Host

namespace Veilux

namespace U256

def limbAt (value : U256) (index : Nat) : UInt64 := value.limbs.toList.getD index 0

def ofLimbs (l0 l1 l2 l3 : UInt64) : U256 := ⟨#v[l0, l1, l2, l3]⟩

def one : U256 := ofLimbs 1 0 0 0

def fromU64 (value : UInt64) : U256 := ofLimbs value 0 0 0

def lowU64 (value : U256) : UInt64 := value.limbAt 0

/-- The limbs above the lowest are zero. -/
def small (value : U256) : Bool :=
  value.limbAt 1 = 0 && value.limbAt 2 = 0 && value.limbAt 3 = 0

def lowU64Saturating (value : U256) : UInt64 :=
  if value.small then value.limbAt 0 else 18446744073709551615

/-- `usize` has 64 bits. -/
def lowUsize (value : U256) : Nat := (value.limbAt 0).toNat

def bitsFitUsize (value : U256) : Bool := value.small

/-! ### Addition and subtraction -/

def overflowingAdd (left right : U256) : U256 × Bool :=
  let s0 := (left.limbAt 0).toNat + (right.limbAt 0).toNat
  let s1 := (left.limbAt 1).toNat + (right.limbAt 1).toNat + s0 / 2 ^ 64
  let s2 := (left.limbAt 2).toNat + (right.limbAt 2).toNat + s1 / 2 ^ 64
  let s3 := (left.limbAt 3).toNat + (right.limbAt 3).toNat + s2 / 2 ^ 64
  (ofLimbs (.ofNat s0) (.ofNat s1) (.ofNat s2) (.ofNat s3), decide (s3 / 2 ^ 64 ≠ 0))

def wrappingAdd (left right : U256) : U256 := (left.overflowingAdd right).1

/-- One limb of a difference, with the borrow for the next. -/
def subLimb (left right : UInt64) (borrow : Nat) : UInt64 × Nat :=
  if left.toNat < right.toNat + borrow then
    (.ofNat (left.toNat + 2 ^ 64 - right.toNat - borrow), 1)
  else (.ofNat (left.toNat - right.toNat - borrow), 0)

def overflowingSub (left right : U256) : U256 × Bool :=
  let d0 := subLimb (left.limbAt 0) (right.limbAt 0) 0
  let d1 := subLimb (left.limbAt 1) (right.limbAt 1) d0.2
  let d2 := subLimb (left.limbAt 2) (right.limbAt 2) d1.2
  let d3 := subLimb (left.limbAt 3) (right.limbAt 3) d2.2
  (ofLimbs d0.1 d1.1 d2.1 d3.1, decide (d3.2 ≠ 0))

def wrappingSub (left right : U256) : U256 := (left.overflowingSub right).1

/-! ### Multiplication -/

/-- One product of limbs added into the eight limbs of the result. -/
def mulLimb (left right : U256) (i : Nat) (acc : List UInt64 × Nat) (j : Nat) :
    List UInt64 × Nat :=
  let cur := (acc.1.getD (i + j) 0).toNat + (left.limbAt i).toNat * (right.limbAt j).toNat + acc.2
  (acc.1.set (i + j) (.ofNat cur), cur / 2 ^ 64)

def mulRow (left right : U256) (res : List UInt64) (i : Nat) : List UInt64 :=
  let row := [0, 1, 2, 3].foldl (mulLimb left right i) (res, 0)
  row.1.set (i + 4) (row.1.getD (i + 4) 0 + .ofNat row.2)

def fullMul (left right : U256) : List UInt64 :=
  [0, 1, 2, 3].foldl (mulRow left right) (List.replicate 8 0)

def wrappingMul (left right : U256) : U256 :=
  let res := left.fullMul right
  ofLimbs (res.getD 0 0) (res.getD 1 0) (res.getD 2 0) (res.getD 3 0)

/-! ### Comparison and bits -/

def cmpU (left right : U256) : Ordering :=
  [3, 2, 1, 0].foldl (fun order index =>
    order.then (compare (left.limbAt index) (right.limbAt index))) .eq

def lt (left right : U256) : Bool := decide (left.cmpU right = .lt)

def bit (value : U256) (index : Nat) : Bool :=
  if 256 ≤ index then false
  else decide ((value.limbAt (index / 64) >>> UInt64.ofNat (index % 64)) &&& 1 = 1)

def bitLen (value : U256) : Nat :=
  match (List.range 256).reverse.find? value.bit with
  | some index => index + 1
  | none => 0

/-- `limbs[index] |= bits`, beyond the last limb nothing. -/
def orLimb (limbs : List UInt64) (index : Nat) (bits : UInt64) : List UInt64 :=
  limbs.set index (limbs.getD index 0 ||| bits)

def ofList (limbs : List UInt64) : U256 :=
  ofLimbs (limbs.getD 0 0) (limbs.getD 1 0) (limbs.getD 2 0) (limbs.getD 3 0)

def shl (value : U256) (shift : Nat) : U256 :=
  if 256 ≤ shift then zero
  else
    let word := shift / 64
    let bits := shift % 64
    ofList <| [0, 1, 2, 3].foldl (fun out index =>
      let out := orLimb out (index + word) (value.limbAt index <<< .ofNat bits)
      if 0 < bits then
        orLimb out (index + word + 1) (value.limbAt index >>> .ofNat (64 - bits))
      else out) (List.replicate 4 0)

def shr (value : U256) (shift : Nat) : U256 :=
  if 256 ≤ shift then zero
  else
    let word := shift / 64
    let bits := shift % 64
    ofList <| [0, 1, 2, 3].foldl (fun out index =>
      if word ≤ index then
        let out := orLimb out (index - word) (value.limbAt index >>> .ofNat bits)
        if 0 < bits ∧ 1 ≤ index - word then
          orLimb out (index - word - 1) (value.limbAt index <<< .ofNat (64 - bits))
        else out
      else out) (List.replicate 4 0)

/-- `self.0[index / 64] |= 1 << (index % 64)`. -/
def setBit (value : U256) (index : Nat) : U256 :=
  ofList (orLimb value.limbs.toList (index / 64) ((1 : UInt64) <<< UInt64.ofNat (index % 64)))

/-- The long division of `div_mod`, from the highest bit of the dividend down. -/
def divMod (left right : U256) : U256 × U256 :=
  if right.isZero then (zero, zero)
  else if left.lt right then (zero, left)
  else
    (List.range left.bitLen).reverse.foldl (fun acc index =>
      let rem := acc.2.shl 1
      let rem := if left.bit index then rem.setBit 0 else rem
      if rem.cmpU right ≠ .lt then (acc.1.setBit index, rem.wrappingSub right)
      else (acc.1, rem)) (zero, zero)

def zipLimbs (combine : UInt64 → UInt64 → UInt64) (left right : U256) : U256 :=
  ofLimbs (combine (left.limbAt 0) (right.limbAt 0)) (combine (left.limbAt 1) (right.limbAt 1))
    (combine (left.limbAt 2) (right.limbAt 2)) (combine (left.limbAt 3) (right.limbAt 3))

def and : U256 → U256 → U256 := zipLimbs (· &&& ·)

def or : U256 → U256 → U256 := zipLimbs (· ||| ·)

def xor : U256 → U256 → U256 := zipLimbs (· ^^^ ·)

def not (value : U256) : U256 :=
  ofLimbs (~~~value.limbAt 0) (~~~value.limbAt 1) (~~~value.limbAt 2) (~~~value.limbAt 3)

def isNeg (value : U256) : Bool := value.bit 255

def neg (value : U256) : U256 := value.not.wrappingAdd one

/-! ### Words as numbers -/

def toNat (value : U256) : Nat :=
  (value.limbAt 0).toNat + (value.limbAt 1).toNat * 2 ^ 64 + (value.limbAt 2).toNat * 2 ^ 128 +
    (value.limbAt 3).toNat * 2 ^ 192

@[simp] theorem limbAt_ofLimbs_zero (l0 l1 l2 l3 : UInt64) :
    (ofLimbs l0 l1 l2 l3).limbAt 0 = l0 := rfl

@[simp] theorem limbAt_ofLimbs_one (l0 l1 l2 l3 : UInt64) :
    (ofLimbs l0 l1 l2 l3).limbAt 1 = l1 := rfl

@[simp] theorem limbAt_ofLimbs_two (l0 l1 l2 l3 : UInt64) :
    (ofLimbs l0 l1 l2 l3).limbAt 2 = l2 := rfl

@[simp] theorem limbAt_ofLimbs_three (l0 l1 l2 l3 : UInt64) :
    (ofLimbs l0 l1 l2 l3).limbAt 3 = l3 := rfl

theorem ofLimbs_limbAt (value : U256) :
    ofLimbs (value.limbAt 0) (value.limbAt 1) (value.limbAt 2) (value.limbAt 3) = value := by
  obtain ⟨⟨⟨limbs⟩, size⟩⟩ := value
  match limbs, size with
  | [_, _, _, _], _ => rfl

theorem toNat_lt (value : U256) : value.toNat < 2 ^ 256 := by
  have b0 := (value.limbAt 0).toNat_lt
  have b1 := (value.limbAt 1).toNat_lt
  have b2 := (value.limbAt 2).toNat_lt
  have b3 := (value.limbAt 3).toNat_lt
  unfold toNat
  omega

@[simp] theorem toNat_zero : zero.toNat = 0 := rfl

theorem toNat_injective {left right : U256} (same : left.toNat = right.toNat) : left = right := by
  have l0 := (left.limbAt 0).toNat_lt
  have l1 := (left.limbAt 1).toNat_lt
  have l2 := (left.limbAt 2).toNat_lt
  have r0 := (right.limbAt 0).toNat_lt
  have r1 := (right.limbAt 1).toNat_lt
  have r2 := (right.limbAt 2).toNat_lt
  unfold toNat at same
  have e0 : left.limbAt 0 = right.limbAt 0 := UInt64.toNat.inj (by omega)
  have e1 : left.limbAt 1 = right.limbAt 1 := UInt64.toNat.inj (by omega)
  have e2 : left.limbAt 2 = right.limbAt 2 := UInt64.toNat.inj (by omega)
  have e3 : left.limbAt 3 = right.limbAt 3 := UInt64.toNat.inj (by omega)
  rw [← ofLimbs_limbAt left, ← ofLimbs_limbAt right, e0, e1, e2, e3]

theorem isZero_iff (value : U256) : value.isZero = true ↔ value.toNat = 0 := by
  unfold isZero
  rw [decide_eq_true_eq]
  constructor
  · rintro rfl
    rfl
  · intro none
    exact toNat_injective (none.trans toNat_zero.symm)

theorem toNat_wrappingAdd (left right : U256) :
    (left.wrappingAdd right).toNat = (left.toNat + right.toNat) % 2 ^ 256 := by
  have l0 := (left.limbAt 0).toNat_lt
  have l1 := (left.limbAt 1).toNat_lt
  have l2 := (left.limbAt 2).toNat_lt
  have l3 := (left.limbAt 3).toNat_lt
  have r0 := (right.limbAt 0).toNat_lt
  have r1 := (right.limbAt 1).toNat_lt
  have r2 := (right.limbAt 2).toNat_lt
  have r3 := (right.limbAt 3).toNat_lt
  unfold wrappingAdd overflowingAdd toNat
  simp only [limbAt_ofLimbs_zero, limbAt_ofLimbs_one, limbAt_ofLimbs_two, limbAt_ofLimbs_three,
    UInt64.toNat_ofNat']
  omega

/-- A borrowed limb is the difference plus what the borrow stands for. -/
theorem subLimb_spec (left right : UInt64) {borrow : Nat} (single : borrow ≤ 1) :
    (subLimb left right borrow).1.toNat + right.toNat + borrow =
      left.toNat + (subLimb left right borrow).2 * 2 ^ 64 ∧ (subLimb left right borrow).2 ≤ 1 := by
  have l := left.toNat_lt
  have r := right.toNat_lt
  unfold subLimb
  split
  · rw [UInt64.toNat_ofNat']
    omega
  · rw [UInt64.toNat_ofNat']
    omega

theorem toNat_wrappingSub {left right : U256} (enough : right.toNat ≤ left.toNat) :
    (left.wrappingSub right).toNat = left.toNat - right.toNat := by
  obtain ⟨e0, c0⟩ := subLimb_spec (left.limbAt 0) (right.limbAt 0) (Nat.zero_le 1)
  obtain ⟨e1, c1⟩ := subLimb_spec (left.limbAt 1) (right.limbAt 1) c0
  obtain ⟨e2, c2⟩ := subLimb_spec (left.limbAt 2) (right.limbAt 2) c1
  obtain ⟨e3, c3⟩ := subLimb_spec (left.limbAt 3) (right.limbAt 3) c2
  have bound := toNat_lt (left.wrappingSub right)
  unfold wrappingSub overflowingSub toNat at *
  simp only [limbAt_ofLimbs_zero, limbAt_ofLimbs_one, limbAt_ofLimbs_two, limbAt_ofLimbs_three]
    at *
  omega

/-- Comparing two limbs first, and what is left on a tie. -/
theorem then_compare (left right : UInt64) (rest : Ordering) :
    (compare left right).then rest = .lt ↔
      left.toNat < right.toNat ∨ left.toNat = right.toNat ∧ rest = .lt := by
  rcases Nat.lt_trichotomy left.toNat right.toNat with below | same | above
  · have order : compare left right = .lt :=
      Std.compare_eq_lt.mpr (UInt64.lt_iff_toNat_lt.mpr below)
    simp [order, below]
  · have order : compare left right = .eq := Std.compare_eq_eq_iff_eq.mpr (UInt64.toNat.inj same)
    simp [order, same]
  · have order : compare left right = .gt :=
      Std.compare_eq_gt.mpr (UInt64.lt_iff_toNat_lt.mpr above)
    have apart : ¬ left.toNat < right.toNat ∧ ¬ left.toNat = right.toNat := by omega
    simp [order, apart]

theorem lt_iff (left right : U256) : left.lt right = true ↔ left.toNat < right.toNat := by
  have l0 := (left.limbAt 0).toNat_lt
  have l1 := (left.limbAt 1).toNat_lt
  have l2 := (left.limbAt 2).toNat_lt
  have r0 := (right.limbAt 0).toNat_lt
  have r1 := (right.limbAt 1).toNat_lt
  have r2 := (right.limbAt 2).toNat_lt
  have tail := then_compare (left.limbAt 0) (right.limbAt 0) .eq
  rw [Ordering.then_eq] at tail
  unfold lt cmpU toNat
  simp only [List.foldl_cons, List.foldl_nil, Ordering.eq_then, Ordering.then_assoc,
    decide_eq_true_eq, then_compare, tail, reduceCtorEq, and_false, or_false]
  clear tail
  constructor
  · intro below
    omega
  · intro below
    omega

theorem lt_self (value : U256) : value.lt value = false := by
  rw [Bool.eq_false_iff, Ne, lt_iff]
  exact lt_irrefl _

end U256

end Veilux
