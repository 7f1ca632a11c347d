/-
The bytes of the words of `evm/src/u256.rs`: a word and its thirty-two bytes determine
each other.
-/

import Veilux.Evm.WordShifts

namespace Veilux

namespace U256

/-- One byte more, below the bytes that are there. -/
theorem limb_shift {value : UInt64} {byte : UInt8} (room : value.toNat < 2 ^ 56) :
    ((value <<< 8) ||| byte.toUInt64).toNat = value.toNat * 256 + byte.toNat := by
  have small := byte.toNat_lt
  have shifted : (value <<< 8).toNat = value.toNat <<< 8 := by
    rw [UInt64.toNat_shiftLeft]
    change value.toNat <<< 8 % 2 ^ 64 = _
    rw [Nat.shiftLeft_eq]
    omega
  rw [UInt64.toNat_or, shifted, UInt8.toNat_toUInt64, ← Nat.shiftLeft_add_eq_or_of_lt small,
    Nat.shiftLeft_eq]

theorem foldl_limb (bytes : List UInt8) (value : UInt64)
    (room : value.toNat < 256 ^ (8 - bytes.length)) (short : bytes.length ≤ 8) :
    (bytes.foldl (fun (limb : UInt64) byte => (limb <<< 8) ||| byte.toUInt64) value).toNat =
      bytes.foldl (fun sum byte => sum * 256 + byte.toNat) value.toNat := by
  induction bytes generalizing value with
  | nil => rfl
  | cons byte rest ih =>
      rw [List.length_cons] at room short
      have wide : 256 ^ (8 - (rest.length + 1)) ≤ 2 ^ 56 := by
        calc 256 ^ (8 - (rest.length + 1)) ≤ 256 ^ 7 := Nat.pow_le_pow_right (by omega) (by omega)
          _ = 2 ^ 56 := by norm_num
      have next := @limb_shift value byte (lt_of_lt_of_le room wide)
      have small := byte.toNat_lt
      rw [List.foldl_cons, List.foldl_cons, ← next]
      apply ih
      · rw [next]
        have split : 8 - rest.length = 8 - (rest.length + 1) + 1 := by omega
        rw [split, pow_succ]
        omega
      · omega

theorem limb_byte {bytes : List UInt8} (eight : bytes.length = 8) {index : Nat}
    (inside : index < 8) :
    (limb bytes >>> UInt64.ofNat (56 - index * 8)).toUInt8 = bytes[index] := by
  match bytes, eight with
  | [a, b, c, d, e, f, g, h], _ =>
    have value := foldl_limb [a, b, c, d, e, f, g, h] 0 (by simp) (by simp)
    simp only [List.foldl_cons, List.foldl_nil, UInt64.toNat_zero] at value
    apply UInt8.toNat_inj.mp
    have read : (limb [a, b, c, d, e, f, g, h] >>> UInt64.ofNat (56 - index * 8)).toUInt8.toNat =
        (limb [a, b, c, d, e, f, g, h]).toNat / 2 ^ (56 - index * 8) % 256 := by
      rw [UInt64.toNat_toUInt8, UInt64.toNat_shiftRight, Nat.shiftRight_eq_div_pow]
      congr 3
      rw [UInt64.toNat_ofNat']
      omega
    rw [read]
    unfold limb
    simp only [List.foldl_cons, List.foldl_nil]
    rw [value]
    have := a.toNat_lt
    have := b.toNat_lt
    have := c.toNat_lt
    have := d.toNat_lt
    have := e.toNat_lt
    have := f.toNat_lt
    have := g.toNat_lt
    have := h.toNat_lt
    interval_cases index <;> simp only [List.getElem_cons_zero, List.getElem_cons_succ] <;> omega

theorem buffer_full {bytes : List UInt8} (full : bytes.length = 32) : buffer bytes = bytes := by
  unfold buffer
  rw [full]
  rfl

theorem limbs_fromBigEndian {bytes : List UInt8} (full : bytes.length = 32) {index : Nat}
    (inside : index < 32) :
    (fromBigEndian bytes).limbs.toList.getD (3 - index / 8) 0 =
      limb ((bytes.drop (index / 8 * 8)).take 8) := by
  unfold fromBigEndian
  simp only [buffer_full full]
  rw [List.getD_eq_getElem _ _ (by rw [Vector.length_toList]; omega), Vector.getElem_toList,
    Vector.getElem_ofFn]
  congr 3
  dsimp only
  omega

/-- Thirty-two bytes are read back from the word. -/
theorem toBigEndian_fromBigEndian {bytes : List UInt8} (full : bytes.length = 32) :
    (fromBigEndian bytes).toBigEndian.toList = bytes := by
  apply List.ext_getElem
  · rw [Vector.length_toList, full]
  · intro index inside bounded
    rw [full] at bounded
    rw [Vector.getElem_toList]
    unfold toBigEndian
    rw [Vector.getElem_ofFn, limbs_fromBigEndian full bounded,
      limb_byte (by simp; omega) (Nat.mod_lt _ (by omega)), List.getElem_take, List.getElem_drop]
    congr 1
    dsimp only
    omega

/-- A byte of a limb, bit by bit. -/
theorem testBit_toBigEndian (value : U256) {index bit : Nat} (inside : index < 32) (low : bit < 8) :
    (value.toBigEndian.toList.getD index 0).toNat.testBit bit =
      value.toNat.testBit ((31 - index) * 8 + bit) := by
  have listed : value.toBigEndian.toList.getD index 0 =
      ((value.limbs.toList.getD (3 - index / 8) 0) >>>
        UInt64.ofNat (56 - index % 8 * 8)).toUInt8 := by
    have length : value.toBigEndian.toList.length = 32 := Vector.length_toList
    rw [List.getD_eq_getElem _ _ (by rw [length]; exact inside), Vector.getElem_toList]
    unfold toBigEndian
    rw [Vector.getElem_ofFn]
  have place : (31 - index) * 8 + bit < 256 := by omega
  have limbs : ((31 - index) * 8 + bit) / 64 = 3 - index / 8 := by omega
  have bits : ((31 - index) * 8 + bit) % 64 = 56 - index % 8 * 8 + bit := by omega
  have byte : decide (bit < 8) = true := decide_eq_true low
  rw [listed, testBit_toNat value place, limbs, bits, UInt64.toNat_toUInt8,
    Nat.testBit_mod_two_pow, byte, Bool.true_and, testBit_shiftRight _ (by omega)]
  rfl

theorem toBigEndian_injective {left right : U256} (same : left.toBigEndian = right.toBigEndian) :
    left = right := by
  apply toNat_injective
  apply eq_of_testBit left.toNat_lt right.toNat_lt
  intro index inside
  have bytes := congrArg (fun bytes : Vector UInt8 32 =>
    (bytes.toList.getD (31 - index / 8) 0).toNat.testBit (index % 8)) same
  have low : index % 8 < 8 := Nat.mod_lt _ (by decide)
  have place : (31 - (31 - index / 8)) * 8 + index % 8 = index := by omega
  rw [testBit_toBigEndian left (by omega) low, testBit_toBigEndian right (by omega) low, place]
    at bytes
  exact bytes

/-- A word is read back from its bytes. -/
theorem fromBigEndian_toBigEndian (value : U256) :
    fromBigEndian value.toBigEndian.toList = value := by
  apply toBigEndian_injective
  apply Vector.toList_inj.mp
  exact toBigEndian_fromBigEndian Vector.length_toList

end U256

end Veilux
