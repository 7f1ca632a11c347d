/-
Fixed-width numbers and the bytes they are written as: the two readings between
them, in both directions.
-/

import Veilux.Lib.Bytes

namespace Bytes

/-- Reading bytes and writing them again fills up with zeros. -/
theorem leBytes_ofLeBytes {width : Nat} {bytes : List UInt8} (fits : bytes.length ≤ width) :
    leBytes width (ofLeBytes bytes) = bytes ++ List.replicate (width - bytes.length) 0 := by
  induction width generalizing bytes with
  | zero =>
      have empty : bytes = [] := List.length_eq_zero_iff.mp (by omega)
      rw [empty]
      rfl
  | succ width ih =>
      cases bytes with
      | nil =>
          have zeros := @ih [] (Nat.zero_le _)
          simp only [ofLeBytes, List.nil_append, List.length_nil, Nat.sub_zero] at zeros ⊢
          rw [leBytes, Nat.zero_div, zeros]
          rfl
      | cons byte rest =>
          have low : byte.toNat < 256 := byte.toNat_lt
          have high : (byte.toNat + 256 * ofLeBytes rest) / 256 = ofLeBytes rest := by
            omega
          have kept : UInt8.ofNat (byte.toNat + 256 * ofLeBytes rest) = byte := by
            apply UInt8.toNat_inj.mp
            rw [UInt8.toNat_ofNat']
            omega
          rw [ofLeBytes, leBytes, high, kept, ih (by simpa using fits), List.length_cons,
            Nat.add_sub_add_right]
          rfl

theorem ofLeBytes_lt (bytes : List UInt8) : ofLeBytes bytes < 256 ^ bytes.length := by
  induction bytes with
  | nil => simp [ofLeBytes]
  | cons byte rest ih =>
      have low : byte.toNat < 256 := byte.toNat_lt
      rw [ofLeBytes, List.length_cons, Nat.pow_succ]
      omega

end Bytes
