/-
Words and big-endian numbers: a word is the number its bytes spell.
-/

import Veilux.Evm.RlpReads
import Veilux.Evm.WordBytes

namespace Bytes

theorem testBit_ofLeBytes (bytes : List UInt8) (index : Nat) :
    (ofLeBytes bytes).testBit index = (bytes.getD (index / 8) 0).toNat.testBit (index % 8) := by
  induction bytes generalizing index with
  | nil => simp [ofLeBytes]
  | cons byte rest ih =>
      have low := byte.toNat_lt
      rw [ofLeBytes, Nat.add_comm]
      change (2 ^ 8 * ofLeBytes rest + byte.toNat).testBit index = _
      rw [Nat.testBit_two_pow_mul_add _ low]
      by_cases first : index < 8
      · rw [if_pos first, Nat.div_eq_of_lt first, Nat.mod_eq_of_lt first]
        rfl
      · have quotient : index / 8 = (index - 8) / 8 + 1 := by omega
        have remainder : index % 8 = (index - 8) % 8 := by omega
        rw [if_neg first, ih, quotient, remainder]
        rfl

end Bytes

namespace Veilux

open Bytes (ofLeBytes)

namespace Rlp

theorem ofBeBytes_append (front back : List UInt8) :
    ofBeBytes (front ++ back) = ofBeBytes front * 256 ^ back.length + ofBeBytes back := by
  induction back using List.reverseRecOn with
  | nil => simp [ofBeBytes]
  | append_singleton back byte ih =>
      have last (bytes : List UInt8) :
          ofBeBytes (bytes ++ [byte]) = ofBeBytes bytes * 256 + byte.toNat := by
        rw [ofBeBytes, List.foldl_append]
        rfl
      rw [← List.append_assoc, last, last, ih, List.length_append, List.length_singleton,
        pow_succ]
      ring

theorem ofBeBytes_zeros (count : Nat) : ofBeBytes (List.replicate count 0) = 0 := by
  induction count with
  | zero => rfl
  | succ count ih => rw [List.replicate_succ, ofBeBytes_cons_zero, ih]

/-- The last bytes of a number are its remainder. -/
theorem ofBeBytes_drop (bytes : List UInt8) (count : Nat) :
    ofBeBytes (bytes.drop count) = ofBeBytes bytes % 256 ^ (bytes.length - count) := by
  have parts := ofBeBytes_append (bytes.take count) (bytes.drop count)
  have bound := ofBeBytes_lt (bytes.drop count)
  rw [List.take_append_drop] at parts
  rw [parts, ← List.length_drop, Nat.mul_add_mod', Nat.mod_eq_of_lt bound]

end Rlp

namespace U256

open Rlp (ofBeBytes)

theorem ofBeBytes_toBigEndian (value : U256) :
    ofBeBytes value.toBigEndian.toList = value.toNat := by
  have length : value.toBigEndian.toList.length = 32 := Vector.length_toList
  have bound := Rlp.ofBeBytes_lt value.toBigEndian.toList
  rw [length] at bound
  apply eq_of_testBit (bound.trans_le (by norm_num)) value.toNat_lt
  intro index inside
  have low : index % 8 < 8 := Nat.mod_lt _ (by decide)
  have place : (31 - (31 - index / 8)) * 8 + index % 8 = index := by omega
  have byte : value.toBigEndian.toList.reverse.getD (index / 8) 0 =
      value.toBigEndian.toList.getD (31 - index / 8) 0 := by
    have mirrored : 32 - 1 - index / 8 = 31 - index / 8 := by omega
    rw [List.getD_eq_getElem?_getD, List.getElem?_reverse (by rw [length]; omega), length,
      mirrored, List.getD_eq_getElem?_getD]
  rw [Rlp.ofBeBytes_eq, Bytes.testBit_ofLeBytes, byte, testBit_toBigEndian value (by omega) low,
    place]

/-- Up to thirty-two bytes are read as the number they spell. -/
theorem toNat_fromBigEndian {bytes : List UInt8} (fits : bytes.length ≤ 32) :
    (fromBigEndian bytes).toNat = ofBeBytes bytes := by
  have full : (List.replicate (32 - bytes.length) 0 ++ bytes).length = 32 := by
    rw [List.length_append, List.length_replicate]
    omega
  have padded : fromBigEndian bytes =
      fromBigEndian (List.replicate (32 - bytes.length) 0 ++ bytes) := by
    unfold fromBigEndian
    have same : buffer (List.replicate (32 - bytes.length) 0 ++ bytes) = buffer bytes := by
      rw [buffer_full full]
      unfold buffer
      rw [Nat.min_eq_left fits, Nat.sub_self, List.drop_zero]
    rw [same]
  rw [padded, ← ofBeBytes_toBigEndian, toBigEndian_fromBigEndian full, Rlp.ofBeBytes_append,
    Rlp.ofBeBytes_zeros, Nat.zero_mul, Nat.zero_add]

end U256

end Veilux
