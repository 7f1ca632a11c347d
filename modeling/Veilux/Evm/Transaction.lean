/-
Legacy transactions of `evm/src/lib.rs`: the nine-item list, the split of `v`
into chain and recovery id, and the sender recovered from the signature.
-/

import Veilux.Evm.Rlp
import Veilux.Kernel.Serde

namespace Veilux

open Rlp (beBytes trimmed encodeStr encodeList)

/-- `sha3::Keccak256`, a function of the whole input. -/
class Keccak256 where
  digest : List UInt8 → Vector UInt8 32

/-- `k256::ecdsa`: which 64 bytes are a signature, and the uncompressed public key
recovered from one. -/
class Secp256k1 where
  validSignature : List UInt8 → Bool
  recover : Vector UInt8 32 → List UInt8 → UInt8 → Option (List UInt8)

abbrev Address := Vector UInt8 20

inductive EvmError where
  | rlp (error : RlpError)
  | badShape
  | unsupportedType (byte : UInt8)
  | badRecoveryId
  | recoveryFailed
  | overflow
  deriving DecidableEq

/-- The `Display` texts. -/
def EvmError.text : EvmError → String
  | .rlp error => "rlp error: " ++ error.text
  | .badShape => "transaction is not a legacy/EIP-155 transaction list of 9 items"
  | .unsupportedType byte => "unsupported transaction type byte 0x" ++ Bytes.hexEncode [byte] ++
      " (only legacy/EIP-155 supported)"
  | .badRecoveryId => "invalid signature recovery id"
  | .recoveryFailed => "signature recovery failed"
  | .overflow => "value too large"

structure EthTx where
  nonce : UInt64
  gasPrice : U128
  gasLimit : UInt64
  target : Option Address
  value : U128
  data : List UInt8
  chainId : Option UInt64
  sender : Address
  hash : Vector UInt8 32
  deriving DecidableEq

namespace EthTx

/-- A result of the decoder with its error wrapped, as `?` does. -/
def lift {α : Type} (result : Except RlpError α) : Except EvmError α :=
  match result with
  | .error error => .error (.rlp error)
  | .ok value => .ok value

/-- The last 20 bytes of a digest. -/
def addressOf (digest : Vector UInt8 32) : Address := digest.drop 12

def beToU128 (bytes : List UInt8) : Except EvmError U128 :=
  if 16 < bytes.length then .error .overflow
  else .ok (Fin.ofNat (2 ^ 128) (Rlp.ofBeBytes bytes))

def toAddress (bytes : List UInt8) : Except EvmError (Option Address) :=
  if bytes.isEmpty then .ok none
  else if exact : bytes.length = 20 then .ok (some ⟨bytes.toArray, by simpa using exact⟩)
  else .error .badShape

def splitV (v : UInt64) : Except EvmError (Option UInt64 × UInt8) :=
  if v = 27 ∨ v = 28 then .ok (none, (v - 27).toUInt8)
  else if 35 ≤ v then .ok (some ((v - 35) / 2), ((v - 35) % 2).toUInt8)
  else if v = 0 ∨ v = 1 then .ok (none, v.toUInt8)
  else .error .badRecoveryId

def leftPad32 (bytes : List UInt8) : Except EvmError (List UInt8) :=
  if 32 < bytes.length then .error .overflow
  else .ok (List.replicate (32 - bytes.length) 0 ++ bytes)

def toField : Option Address → List UInt8
  | some target => target.toList
  | none => []

/-- The six fields that both signing payloads start with. -/
def signedFields (nonce : UInt64) (gasPrice : U128) (gasLimit : UInt64)
    (target : Option Address) (value : U128) (data : List UInt8) : List (List UInt8) :=
  [encodeStr (trimmed 8 nonce.toNat), encodeStr (trimmed 16 gasPrice.val),
    encodeStr (trimmed 8 gasLimit.toNat), encodeStr (toField target),
    encodeStr (trimmed 16 value.val), encodeStr data]

def encodeSigningListEip155 (nonce : UInt64) (gasPrice : U128) (gasLimit : UInt64)
    (target : Option Address) (value : U128) (data : List UInt8) (chainId : UInt64) :
    List UInt8 :=
  encodeList (signedFields nonce gasPrice gasLimit target value data ++
    [encodeStr (trimmed 8 chainId.toNat), encodeStr [], encodeStr []])

def encodeSigningListLegacy (nonce : UInt64) (gasPrice : U128) (gasLimit : UInt64)
    (target : Option Address) (value : U128) (data : List UInt8) : List UInt8 :=
  encodeList (signedFields nonce gasPrice gasLimit target value data)

section Recovery

variable [Keccak256] [Secp256k1]

omit [Secp256k1] in
/-- The point without its format byte is hashed. -/
def addressFromPubkey (uncompressed : List UInt8) : Address :=
  addressOf (Keccak256.digest
    (if uncompressed.length = 65 then uncompressed.drop 1 else uncompressed))

def recoverAddress (sighash : Vector UInt8 32) (r s : List UInt8) (recovery : UInt8) :
    Except EvmError Address := do
  let r32 ← leftPad32 r
  let s32 ← leftPad32 s
  if Secp256k1.validSignature (r32 ++ s32) then
    -- `RecoveryId::from_byte` knows the ids 0 to 3.
    if 3 < recovery then throw .badRecoveryId
    match Secp256k1.recover sighash (r32 ++ s32) recovery with
    | none => throw .recoveryFailed
    | some uncompressed => return addressFromPubkey uncompressed
  else throw .recoveryFailed

/-- The nine items, read in order. -/
def ofItems (raw : List UInt8) (items : List Rlp) : Except EvmError EthTx :=
  match items with
  | [nonceItem, priceItem, limitItem, targetItem, valueItem, dataItem, vItem, rItem, sItem] => do
      let nonce ← lift nonceItem.asU64
      let gasPrice ← beToU128 (← lift priceItem.asBytes)
      let gasLimit ← lift limitItem.asU64
      let target ← toAddress (← lift targetItem.asBytes)
      let value ← beToU128 (← lift valueItem.asBytes)
      let data ← lift dataItem.asBytes
      let v ← lift vItem.asU64
      let r ← lift rItem.asBytes
      let s ← lift sItem.asBytes
      let (chainId, recovery) ← splitV v
      let payload :=
        match chainId with
        | some chainId =>
            encodeSigningListEip155 nonce gasPrice gasLimit target value data chainId
        | none => encodeSigningListLegacy nonce gasPrice gasLimit target value data
      let sender ← recoverAddress (Keccak256.digest payload) r s recovery
      return {
        nonce := nonce
        gasPrice := gasPrice
        gasLimit := gasLimit
        target := target
        value := value
        data := data
        chainId := chainId
        sender := sender
        hash := Keccak256.digest raw }
  | _ => .error .badShape

def decodeLegacyTx (raw : List UInt8) : Except EvmError EthTx := do
  match raw.head? with
  | some first => if first < 0x80 then throw (.unsupportedType first)
  | none => pure ()
  let decoded ← lift (Rlp.decode raw)
  let items ← lift decoded.asList
  ofItems raw items

end Recovery

end EthTx

end Veilux
