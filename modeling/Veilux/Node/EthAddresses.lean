/-
The addresses of created contracts: an address is read back from the word it is stored
in, and is cut from the digest of a text that is no public key.
-/

import Veilux.Evm.Frame
import Veilux.Evm.WordBytes
import Veilux.Node.Eth

namespace Veilux

namespace Eth

open Evm (Interpreter CreateArgs Host newAddress createAddress create2Address)

/-- An address is read back from its word. -/
theorem u256ToAddr_fromBigEndian {bytes : List UInt8} (twenty : bytes.length = 20) :
    (u256ToAddr (.fromBigEndian (List.replicate 12 0 ++ bytes))).toList = bytes := by
  have full : (List.replicate 12 (0 : UInt8) ++ bytes).length = 32 := by
    rw [List.length_append, List.length_replicate, twenty]
  unfold u256ToAddr
  rw [Vector.toList_drop, U256.toBigEndian_fromBigEndian full, List.drop_left']
  exact List.length_replicate

theorem u256ToAddr_addrToU256 (address : Address) : u256ToAddr (addrToU256 address) = address :=
  Vector.toList_inj.mp (u256ToAddr_fromBigEndian (Vector.length_toList))

variable [Keccak256]

/-- Addresses cut from the digest of something else than the 64 bytes of a public key. -/
def Contractual (address : Address) : Prop :=
  ∃ text : List UInt8, text.length ≠ 64 ∧ EthTx.addressOf (Keccak256.digest text) = address

theorem u256ToAddr_digest (text : List UInt8) :
    u256ToAddr (Evm.addrToU256 ((Keccak256.digest text).toList.drop 12)) =
      EthTx.addressOf (Keccak256.digest text) := by
  apply Vector.toList_inj.mp
  unfold Evm.addrToU256 EthTx.addressOf
  rw [u256ToAddr_fromBigEndian (by simp), Vector.toList_drop]

omit [Keccak256] in
theorem encodeStr_length (bytes : List UInt8) (short : bytes.length ≤ 55) :
    (Rlp.encodeStr bytes).length ≤ bytes.length + 1 := by
  have single (offset : UInt8) {length : Nat} (small : length < 56) :
      (Rlp.encodeLength length offset).length = 1 := by
    unfold Rlp.encodeLength
    rw [if_pos small]
    rfl
  unfold Rlp.encodeStr
  split
  · split
    · simp
    · rw [List.length_append, single _ (by omega)]
      simp
  · rw [List.length_append, single _ (by omega)]
    omega

omit [Keccak256] in
theorem trimmed_length (width value : Nat) : (Rlp.trimmed width value).length ≤ width := by
  unfold Rlp.trimmed
  refine (List.dropWhile_sublist _).length_le.trans ?_
  rw [Rlp.beBytes, List.length_reverse, Bytes.leBytes_length]

omit [Keccak256] in
/-- The text that a plain creation hashes is shorter than a key. -/
theorem creation_length {bytes : List UInt8} (twenty : bytes.length = 20) (nonce : UInt64) :
    (Rlp.encodeList [Rlp.encodeStr bytes, Rlp.encodeStr (Rlp.trimmed 8 nonce.toNat)]).length ≠
      64 := by
  have first := encodeStr_length bytes (by omega)
  have narrow := trimmed_length 8 nonce.toNat
  have second := encodeStr_length (Rlp.trimmed 8 nonce.toNat) (by omega)
  unfold Rlp.encodeList Rlp.encodeLength
  simp only [List.flatten_cons, List.flatten_nil, List.append_nil, List.length_append]
  rw [if_pos (by omega), List.length_singleton]
  omega

theorem contractAddress_contractual (deployer : Address) (nonce : UInt64) :
    Contractual (contractAddress deployer nonce) :=
  ⟨_, creation_length (Vector.length_toList) nonce, rfl⟩

omit [Keccak256] in
theorem addr20_length (value : U256) : (Evm.addr20 value).length = 20 := by
  unfold Evm.addr20
  rw [List.length_drop, Vector.length_toList]

/-- Every address that a creation computes. -/
theorem newAddress_contractual {H : Type} [Host H] (vm : Interpreter H) (args : CreateArgs) :
    Contractual (u256ToAddr (newAddress args vm)) := by
  unfold newAddress
  cases args.salt with
  | none =>
      refine ⟨_, creation_length (addr20_length vm.ctx.address)
        (Host.accountNonce vm.host vm.ctx.address), ?_⟩
      exact (u256ToAddr_digest _).symm
  | some salt =>
      refine ⟨_, ?_, (u256ToAddr_digest _).symm⟩
      simp [addr20_length]

end Eth

end Veilux
