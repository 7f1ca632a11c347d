/-
Signing a legacy transaction in `evm/src/lib.rs`, and the decoder on the result.
Trimmed integers, the folded `v` and the trimmed signature halves are all read
back, so the decoder rebuilds the payload that was signed.
-/

import Veilux.Evm.RlpCodec
import Veilux.Evm.Transaction

namespace Veilux

open Rlp (beBytes trimmed encodeStr encodeList ofBeBytes)

/-- The two halves of an ECDSA signature, as their 32 bytes. -/
structure EcdsaSignature where
  r : Vector UInt8 32
  s : Vector UInt8 32
  deriving DecidableEq

/-- `k256::ecdsa::SigningKey`: which secrets are keys, and what a key does. -/
class Secp256k1Signing where
  Key : Type
  signingKey : Vector UInt8 32 → Option Key
  /-- The uncompressed point of the verifying key. -/
  publicKey : Key → List UInt8
  signPrehash : Key → Vector UInt8 32 → Option (EcdsaSignature × UInt8)
  normalizeS : EcdsaSignature → Option EcdsaSignature

namespace EthTx

def trimLeft (bytes : List UInt8) : List UInt8 := bytes.dropWhile (· = 0)

section Signing

variable [Keccak256] [Secp256k1Signing]

def signLegacyTx (secretKey : Vector UInt8 32) (nonce : UInt64) (gasPrice : U128)
    (gasLimit : UInt64) (target : Option Address) (value : U128) (data : List UInt8)
    (chainId : UInt64) : Except EvmError (List UInt8) :=
  match Secp256k1Signing.signingKey secretKey with
  | none => .error .recoveryFailed
  | some signing =>
      let payload := encodeSigningListEip155 nonce gasPrice gasLimit target value data chainId
      match Secp256k1Signing.signPrehash signing (Keccak256.digest payload) with
      | none => .error .recoveryFailed
      | some (signed, recovery) =>
          let signature := (Secp256k1Signing.normalizeS signed).getD signed
          let v := chainId * 2 + 35 + (recovery &&& 1).toUInt64
          .ok (encodeList (signedFields nonce gasPrice gasLimit target value data ++
            [encodeStr (trimmed 8 v.toNat), encodeStr (trimLeft signature.r.toList),
              encodeStr (trimLeft signature.s.toList)]))

def addressFromSecret (secretKey : Vector UInt8 32) : Except EvmError Address :=
  match Secp256k1Signing.signingKey secretKey with
  | none => .error .recoveryFailed
  | some signing => .ok (addressFromPubkey (Secp256k1Signing.publicKey signing))

end Signing

/-- The payload whose digest the decoder recovers the sender from. -/
def signingPayload (tx : EthTx) : List UInt8 :=
  match tx.chainId with
  | some chainId =>
      encodeSigningListEip155 tx.nonce tx.gasPrice tx.gasLimit tx.target tx.value tx.data chainId
  | none => encodeSigningListLegacy tx.nonce tx.gasPrice tx.gasLimit tx.target tx.value tx.data

/-! ### Fields read back -/

theorem asU64_trimmed (value : UInt64) :
    (Rlp.str (trimmed 8 value.toNat)).asU64 = .ok value := by
  have small := Rlp.length_trimmed_le 8 value.toNat
  rw [Rlp.asU64, Rlp.asBytes]
  simp only
  rw [if_neg (Nat.not_lt.mpr small), Rlp.ofBeBytes_trimmed value.toNat_lt, UInt64.ofNat_toNat]

theorem beToU128_trimmed (value : U128) : beToU128 (trimmed 16 value.val) = .ok value := by
  have small := Rlp.length_trimmed_le 16 value.val
  have bounded : value.val < 256 ^ 16 := value.isLt
  rw [beToU128, if_neg (Nat.not_lt.mpr small), Rlp.ofBeBytes_trimmed bounded]
  congr 1
  apply Fin.ext
  exact Nat.mod_eq_of_lt value.isLt

theorem toAddress_toField (target : Option Address) : toAddress (toField target) = .ok target := by
  cases target with
  | none => rfl
  | some address =>
      have size : address.toList.length = 20 := address.length_toList
      have filled : address.toList.isEmpty = false := by
        rw [List.isEmpty_eq_false_iff_exists_mem]
        exact List.exists_mem_of_length_pos (by omega)
      rw [toField, toAddress, filled, dif_pos size]
      rfl

theorem leftPad32_trimLeft {bytes : List UInt8} (size : bytes.length = 32) :
    leftPad32 (trimLeft bytes) = .ok bytes := by
  have split := List.takeWhile_append_dropWhile (p := fun byte : UInt8 => decide (byte = 0))
    (l := bytes)
  have zeros : bytes.takeWhile (fun byte => decide (byte = 0)) =
      List.replicate (32 - (trimLeft bytes).length) 0 := by
    rw [List.eq_replicate_iff]
    constructor
    · have sum := congrArg List.length split
      rw [List.length_append, size] at sum
      rw [trimLeft]
      omega
    · intro byte member
      simpa using List.mem_takeWhile_imp member
  have shorter := (List.dropWhile_suffix (l := bytes) (fun byte => decide (byte = 0))).length_le
  rw [leftPad32, if_neg (by rw [trimLeft]; omega), ← zeros, trimLeft, split]

theorem splitV_signed {chainId : UInt64} {recovery : UInt8} (single : recovery.toNat < 2)
    (fits : 2 * chainId.toNat + 36 < 2 ^ 64) :
    splitV (chainId * 2 + 35 + recovery.toUInt64) = .ok (some chainId, recovery) := by
  have value : (chainId * 2 + 35 + recovery.toUInt64).toNat =
      2 * chainId.toNat + 35 + recovery.toNat := by
    simp only [UInt64.toNat_add, UInt64.toNat_mul, UInt8.toNat_toUInt64, UInt64.reduceToNat]
    omega
  generalize chainId * 2 + 35 + recovery.toUInt64 = v at value
  have plain : ¬ (v = 27 ∨ v = 28) := by
    simp only [← UInt64.toNat_inj, value, UInt64.reduceToNat]
    omega
  have above : 35 ≤ v := by
    rw [UInt64.le_iff_toNat_le, value]
    change 35 ≤ _
    omega
  have folded : (v - 35).toNat = 2 * chainId.toNat + recovery.toNat := by
    rw [UInt64.toNat_sub_of_le v 35 above, value]
    change 2 * chainId.toNat + 35 + recovery.toNat - 35 = _
    omega
  have chain : (v - 35) / 2 = chainId := by
    apply UInt64.toNat_inj.mp
    rw [UInt64.toNat_div, folded]
    change (2 * chainId.toNat + recovery.toNat) / 2 = chainId.toNat
    omega
  have id : ((v - 35) % 2).toUInt8 = recovery := by
    apply UInt8.toNat_inj.mp
    rw [UInt64.toNat_toUInt8, UInt64.toNat_mod, folded]
    change (2 * chainId.toNat + recovery.toNat) % 2 % 256 = recovery.toNat
    omega
  rw [splitV, if_neg plain, if_pos above, chain, id]

theorem and_one_lt (recovery : UInt8) : (recovery &&& 1).toNat < 2 := by
  rw [UInt8.toNat_and]
  change recovery.toNat &&& 1 < 2
  rw [Nat.and_one_is_mod]
  omega

/-! ### The signed list -/

/-- The nine texts of a signed transaction. -/
def signedItems (nonce : UInt64) (gasPrice : U128) (gasLimit : UInt64) (target : Option Address)
    (value : U128) (data : List UInt8) (v : UInt64) (r s : List UInt8) : List Rlp :=
  [.str (trimmed 8 nonce.toNat), .str (trimmed 16 gasPrice.val), .str (trimmed 8 gasLimit.toNat),
    .str (toField target), .str (trimmed 16 value.val), .str data, .str (trimmed 8 v.toNat),
    .str (trimLeft r), .str (trimLeft s)]

variable {nonce : UInt64} {gasPrice : U128} {gasLimit : UInt64} {target : Option Address}
  {value : U128} {data : List UInt8} {v : UInt64} {r s : List UInt8}

theorem encode_signedItems :
    Rlp.encode (.list (signedItems nonce gasPrice gasLimit target value data v r s)) =
      encodeList (signedFields nonce gasPrice gasLimit target value data ++
        [encodeStr (trimmed 8 v.toNat), encodeStr (trimLeft r), encodeStr (trimLeft s)]) := by
  simp only [Rlp.encode, Rlp.encodeAll, signedItems, signedFields, List.cons_append,
    List.nil_append]

theorem encodeStr_length_le (bytes : List UInt8) :
    (encodeStr bytes).length ≤ bytes.length + 9 := by
  have sized : (Rlp.encodeLength bytes.length 0x80).length ≤ 9 := by
    have small := Rlp.length_trimmed_le 8 bytes.length
    rw [Rlp.encodeLength]
    split
    · change 1 ≤ 9
      decide
    · rw [List.length_cons]
      omega
  have written := Rlp.encode_str_cases bytes
  rw [Rlp.encode] at written
  cases written with
  | inl single =>
      obtain ⟨byte, _, rfl, same⟩ := single
      rw [same]
      omega
  | inr plain =>
      rw [plain.1, List.length_append]
      omega

theorem trimLeft_length_le (bytes : List UInt8) : (trimLeft bytes).length ≤ bytes.length :=
  (List.dropWhile_suffix (l := bytes) (fun byte => decide (byte = 0))).length_le

theorem toField_length_le (target : Option Address) : (toField target).length ≤ 20 := by
  cases target with
  | none => exact Nat.zero_le _
  | some address => exact Nat.le_of_eq address.length_toList

theorem signedItems_fit (slice : data.length < 2 ^ 63) (rSize : r.length = 32)
    (sSize : s.length = 32) :
    (Rlp.payload (.list (signedItems nonce gasPrice gasLimit target value data v r s))).length <
      2 ^ 64 := by
  simp only [Rlp.payload, Rlp.encodeAll, Rlp.encode, signedItems, List.flatten_cons,
    List.flatten_nil, List.length_append, List.length_nil]
  have first := encodeStr_length_le (trimmed 8 nonce.toNat)
  have second := encodeStr_length_le (trimmed 16 gasPrice.val)
  have third := encodeStr_length_le (trimmed 8 gasLimit.toNat)
  have fourth := encodeStr_length_le (toField target)
  have fifth := encodeStr_length_le (trimmed 16 value.val)
  have sixth := encodeStr_length_le data
  have seventh := encodeStr_length_le (trimmed 8 v.toNat)
  have eighth := encodeStr_length_le (trimLeft r)
  have ninth := encodeStr_length_le (trimLeft s)
  have narrowNonce := Rlp.length_trimmed_le 8 nonce.toNat
  have narrowPrice := Rlp.length_trimmed_le 16 gasPrice.val
  have narrowLimit := Rlp.length_trimmed_le 8 gasLimit.toNat
  have narrowTarget := toField_length_le target
  have narrowValue := Rlp.length_trimmed_le 16 value.val
  have narrowV := Rlp.length_trimmed_le 8 v.toNat
  have narrowR := trimLeft_length_le r
  have narrowS := trimLeft_length_le s
  omega

theorem bind_ok {α β : Type} {first : Except EvmError α} {next : α → Except EvmError β}
    {result : β} (done : (first >>= next) = .ok result) :
    ∃ value, first = .ok value ∧ next value = .ok result := by
  cases first with
  | error error => cases done
  | ok value => exact ⟨value, rfl, done⟩

section Recovery

variable [Keccak256] [Secp256k1]

/-- The decoder's work on the nine items, up to the recovery of the sender. -/
theorem ofItems_signedItems (raw : List UInt8) {chainId : UInt64} {recovery : UInt8}
    (split : splitV v = .ok (some chainId, recovery)) :
    ofItems raw (signedItems nonce gasPrice gasLimit target value data v r s) =
      (recoverAddress (Keccak256.digest
        (encodeSigningListEip155 nonce gasPrice gasLimit target value data chainId))
        (trimLeft r) (trimLeft s) recovery).map fun sender =>
          { nonce := nonce
            gasPrice := gasPrice
            gasLimit := gasLimit
            target := target
            value := value
            data := data
            chainId := some chainId
            sender := sender
            hash := Keccak256.digest raw } := by
  simp only [ofItems, signedItems, asU64_trimmed, Rlp.asBytes, lift, beToU128_trimmed,
    toAddress_toField, split, bind, Except.bind, pure, Except.pure]
  cases recoverAddress (Keccak256.digest
    (encodeSigningListEip155 nonce gasPrice gasLimit target value data chainId))
    (trimLeft r) (trimLeft s) recovery with
  | error error => rfl
  | ok sender => rfl

/-- The last three of the nine items of a raw transaction. -/
def Carries (raw : List UInt8) (v : UInt64) (r s : List UInt8) : Prop :=
  ∃ nonce price limit target value data vItem rItem sItem,
    Rlp.decode raw =
      .ok (.list [nonce, price, limit, target, value, data, vItem, rItem, sItem]) ∧
      vItem.asU64 = .ok v ∧ rItem.asBytes = .ok r ∧ sItem.asBytes = .ok s

omit [Keccak256] [Secp256k1] in
theorem lift_ok {α : Type} {result : Except RlpError α} {value : α}
    (lifted : lift result = .ok value) : result = .ok value := by
  cases result with
  | error error => cases lifted
  | ok read => exact congrArg Except.ok (Except.ok.inj lifted)

/-- The items behind a decoded transaction, up to the recovery of the sender. -/
theorem decodeLegacyTx_carries {raw : List UInt8} {tx : EthTx}
    (read : decodeLegacyTx raw = .ok tx) :
    ∃ v r s recovery, Carries raw v r s ∧ splitV v = .ok (tx.chainId, recovery) ∧
      recoverAddress (Keccak256.digest tx.signingPayload) r s recovery = .ok tx.sender := by
  have body : (do
      let decoded ← lift (Rlp.decode raw)
      let items ← lift decoded.asList
      ofItems raw items) = .ok tx := by
    unfold decodeLegacyTx at read
    split at read
    · split at read
      · cases read
      · exact read
    · exact read
  obtain ⟨decoded, tree, read⟩ := bind_ok body
  obtain ⟨items, list, read⟩ := bind_ok read
  have tree := lift_ok tree
  have shape : decoded = .list items := by
    cases decoded with
    | str bytes => cases list
    | list inner => rw [Except.ok.inj list]
  unfold ofItems at read
  split at read
  · obtain ⟨nonce, _, read⟩ := bind_ok read
    obtain ⟨priceBytes, _, read⟩ := bind_ok read
    obtain ⟨gasPrice, _, read⟩ := bind_ok read
    obtain ⟨gasLimit, _, read⟩ := bind_ok read
    obtain ⟨targetBytes, _, read⟩ := bind_ok read
    obtain ⟨target, _, read⟩ := bind_ok read
    obtain ⟨valueBytes, _, read⟩ := bind_ok read
    obtain ⟨value, _, read⟩ := bind_ok read
    obtain ⟨data, _, read⟩ := bind_ok read
    obtain ⟨v, vRead, read⟩ := bind_ok read
    obtain ⟨r, rRead, read⟩ := bind_ok read
    obtain ⟨s, sRead, read⟩ := bind_ok read
    obtain ⟨⟨chainId, recovery⟩, split, read⟩ := bind_ok read
    obtain ⟨sender, recovered, read⟩ := bind_ok read
    injection read with tx_eq
    rw [shape] at tree
    refine ⟨v, r, s, recovery, ⟨_, _, _, _, _, _, _, _, _, tree, lift_ok vRead, lift_ok rRead,
      lift_ok sRead⟩, ?_, ?_⟩
    · rw [← tx_eq]
      exact split
    · rw [← tx_eq]
      cases chainId with
      | none => exact recovered
      | some chainId => exact recovered
  · cases read

/-- The sender of a decoded transaction comes from the digest of its signing payload. -/
theorem decodeLegacyTx_recovers {raw : List UInt8} {tx : EthTx}
    (read : decodeLegacyTx raw = .ok tx) :
    ∃ r s recovery, recoverAddress (Keccak256.digest tx.signingPayload) r s recovery =
      .ok tx.sender := by
  obtain ⟨_, r, s, recovery, _, _, recovered⟩ := decodeLegacyTx_carries read
  exact ⟨r, s, recovery, recovered⟩

/-- The decoder on the encoding of a list. -/
theorem decodeLegacyTx_encode {items : List Rlp}
    (fits : (Rlp.payload (.list items)).length < 2 ^ 64) :
    decodeLegacyTx (Rlp.encode (.list items)) = ofItems (Rlp.encode (.list items)) items := by
  have read := Rlp.reads_encode (.list items) fits []
  rw [List.append_nil, ← Rlp.decode_ok] at read
  obtain ⟨first, tail, _, written, above, _⟩ := Rlp.framed (.inr rfl) fits []
  rw [List.append_nil, Rlp.payload, ← Rlp.encode_list] at written
  have typed : ¬ first < 0x80 := by
    rw [UInt8.lt_iff_toNat_lt]
    rw [UInt8.le_iff_toNat_le] at above
    change 192 ≤ first.toNat at above
    change ¬ first.toNat < 128
    omega
  rw [decodeLegacyTx, read, written]
  simp only [List.head?_cons, typed, ↓reduceIte, lift, Rlp.asList]
  rfl

end Recovery

/-! ### The round trip -/

section RoundTrip

variable [Keccak256] [Secp256k1] [Secp256k1Signing]

/-- What the decoder relies on in `k256`: the signature of a digest is valid once normalized, and
the verifying key comes back from it. -/
def RecoversSigned : Prop :=
  ∀ (signing : Secp256k1Signing.Key) (digest : Vector UInt8 32) (signed : EcdsaSignature)
    (recovery : UInt8), Secp256k1Signing.signPrehash signing digest = some (signed, recovery) →
      ∀ signature, signature = (Secp256k1Signing.normalizeS signed).getD signed →
        Secp256k1.validSignature (signature.r.toList ++ signature.s.toList) = true ∧
          Secp256k1.recover digest (signature.r.toList ++ signature.s.toList) (recovery &&& 1) =
            some (Secp256k1Signing.publicKey signing)

omit [Secp256k1Signing] in
/-- Trimmed halves are padded again before the recovery. -/
theorem recoverAddress_signed {digest r s : Vector UInt8 32} {recovery : UInt8}
    {pubkey : List UInt8} (single : recovery.toNat < 2)
    (valid : Secp256k1.validSignature (r.toList ++ s.toList) = true)
    (recovered : Secp256k1.recover digest (r.toList ++ s.toList) recovery = some pubkey) :
    recoverAddress digest (trimLeft r.toList) (trimLeft s.toList) recovery =
      .ok (addressFromPubkey pubkey) := by
  have small : ¬ 3 < recovery := by
    rw [UInt8.lt_iff_toNat_lt]
    change ¬ 3 < recovery.toNat
    omega
  simp only [recoverAddress, leftPad32_trimLeft r.length_toList,
    leftPad32_trimLeft s.length_toList, bind, Except.bind, valid, small, recovered, ↓reduceIte]
  rfl

/-- The decoder gets back the fields, the chain and the payload that were signed, and the
signer's address. -/
theorem decode_sign {secretKey : Vector UInt8 32} {nonce : UInt64} {gasPrice : U128}
    {gasLimit : UInt64} {target : Option Address} {value : U128} {data : List UInt8}
    {chainId : UInt64} {raw : List UInt8} (recovers : RecoversSigned)
    (fits : 2 * chainId.toNat + 36 < 2 ^ 64) (slice : data.length < 2 ^ 63)
    (signed : signLegacyTx secretKey nonce gasPrice gasLimit target value data chainId =
      .ok raw) :
    ∃ tx, decodeLegacyTx raw = .ok tx ∧
      tx.nonce = nonce ∧ tx.gasPrice = gasPrice ∧ tx.gasLimit = gasLimit ∧
      tx.target = target ∧ tx.value = value ∧ tx.data = data ∧ tx.chainId = some chainId ∧
      tx.signingPayload =
        encodeSigningListEip155 nonce gasPrice gasLimit target value data chainId ∧
      addressFromSecret secretKey = .ok tx.sender ∧ tx.hash = Keccak256.digest raw := by
  unfold signLegacyTx at signed
  unfold addressFromSecret
  cases key : Secp256k1Signing.signingKey secretKey with
  | none =>
      rw [key] at signed
      cases signed
  | some signing =>
      simp only [key] at signed
      generalize payloadEq :
        encodeSigningListEip155 nonce gasPrice gasLimit target value data chainId = payload
          at signed
      cases made : Secp256k1Signing.signPrehash signing (Keccak256.digest payload) with
      | none =>
          rw [made] at signed
          cases signed
      | some pair =>
          obtain ⟨first, recovery⟩ := pair
          simp only [made] at signed
          generalize normal : (Secp256k1Signing.normalizeS first).getD first = signature at signed
          obtain ⟨valid, recovered⟩ := recovers _ _ _ _ made signature normal.symm
          rw [← encode_signedItems] at signed
          injection signed with raw_eq
          have split := splitV_signed (and_one_lt recovery) fits
          have sender := recoverAddress_signed (and_one_lt recovery) valid recovered
          refine ⟨{
            nonce := nonce
            gasPrice := gasPrice
            gasLimit := gasLimit
            target := target
            value := value
            data := data
            chainId := some chainId
            sender := addressFromPubkey (Secp256k1Signing.publicKey signing)
            hash := Keccak256.digest raw }, ?_, rfl, rfl, rfl, rfl, rfl, rfl, rfl, payloadEq, rfl,
            rfl⟩
          rw [← raw_eq, decodeLegacyTx_encode
              (signedItems_fit slice signature.r.length_toList signature.s.length_toList),
            ofItems_signedItems _ split, payloadEq, sender]
          rfl

end RoundTrip

section Fixed

/-! The transaction of the source's signing test, with the key of 32 sevens. -/

def bytes32 (value : Nat) : Vector UInt8 32 :=
  ⟨(beBytes 32 value).toArray, by simp [beBytes]⟩

def sevenDigest : Vector UInt8 32 :=
  bytes32 0xc91fbcf48aa31875cae3f63803138fd4f3753114ad5c6a50e8ae65f3a4bf2e3b

def sevenSignature : EcdsaSignature where
  r := bytes32 0x2fb45b9c3e7ed5ce44ec2a3c14c8c750ef8ea23ed1a2cb8d857c2f5a473fc47a
  s := bytes32 0x74b685f6b97ebbaa0e4ce5953c95ec3f9a08f122bd08f1048c6597221db36836

def sevenPubkey : List UInt8 :=
  4 :: beBytes 32 0x989c0b76cb563971fdc9bef31ec06c3560f3249d6ee9e5d83c57625596e05f6f ++
    beBytes 32 0x631f4d05b3ae518776ee08755a7703e64b2ebc32547504de0b55a142d4ecdf80

def sevenRaw : List UInt8 :=
  encodeList (signedFields 3 1000000000 21000 (some (Vector.replicate 20 0x35)) 5000 [] ++
    [encodeStr [119], encodeStr sevenSignature.r.toList, encodeStr sevenSignature.s.toList])

/-- The digests of the payload, of the public key and of the transaction, by their lengths. -/
@[reducible] def sevenKeccak : Keccak256 where
  digest bytes :=
    if bytes.length = 38 then sevenDigest
    else if bytes.length = 64 then
      bytes32 0x704f64d16f07c8f7e50973174a62316623ad457f02cdc5d997ded67a383ec569
    else bytes32 0x4189c6310a6f1b83083403ae77b37a7c89a3b26b0a6b80f2c7f51a4c70899c17

@[reducible] def sevenCurve : Secp256k1 where
  validSignature bytes := bytes = sevenSignature.r.toList ++ sevenSignature.s.toList
  recover digest bytes recovery :=
    if digest = sevenDigest ∧ bytes = sevenSignature.r.toList ++ sevenSignature.s.toList ∧
      recovery = 0 then some sevenPubkey else none

@[reducible] def sevenSigning : Secp256k1Signing where
  Key := Unit
  signingKey secret := if secret = Vector.replicate 32 7 then some () else none
  publicKey _ := sevenPubkey
  signPrehash _ digest := if digest = sevenDigest then some (sevenSignature, 0) else none
  normalizeS _ := none

attribute [local instance] sevenKeccak sevenCurve sevenSigning

theorem sevenSigning_recovers : RecoversSigned := by
  intro signing digest signed recovery made signature normal
  change (if digest = sevenDigest then some (sevenSignature, (0 : UInt8)) else none) =
    some (signed, recovery) at made
  by_cases same : digest = sevenDigest
  · rw [if_pos same] at made
    obtain ⟨rfl, rfl⟩ := Prod.mk.inj (Option.some.inj made)
    have normal : signature = sevenSignature := normal
    rw [normal, same]
    refine ⟨by decide +kernel, ?_⟩
    change Secp256k1.recover sevenDigest (sevenSignature.r.toList ++ sevenSignature.s.toList)
      (0 &&& 1) = some sevenPubkey
    decide +kernel
  · rw [if_neg same] at made
    cases made

theorem decode_sign_seven :
    signLegacyTx (Vector.replicate 32 7) 3 1000000000 21000 (some (Vector.replicate 20 0x35))
        5000 [] 42 = .ok sevenRaw ∧
      ∃ tx, decodeLegacyTx sevenRaw = .ok tx ∧
        tx.nonce = 3 ∧ tx.gasPrice = 1000000000 ∧ tx.gasLimit = 21000 ∧
        tx.target = some (Vector.replicate 20 0x35) ∧ tx.value = 5000 ∧ tx.data = [] ∧
        tx.chainId = some 42 ∧
        tx.signingPayload = encodeSigningListEip155 3 1000000000 21000
          (some (Vector.replicate 20 0x35)) 5000 [] 42 ∧
        addressFromSecret (Vector.replicate 32 7) = .ok tx.sender ∧
        tx.hash = Keccak256.digest sevenRaw := by
  have signed : signLegacyTx (Vector.replicate 32 7) 3 1000000000 21000
      (some (Vector.replicate 20 0x35)) 5000 [] 42 = .ok sevenRaw := by
    decide +kernel
  exact ⟨signed, decode_sign sevenSigning_recovers (by decide) (by decide) signed⟩

end Fixed

end EthTx

end Veilux
