/-
The precompiled contracts of `evm/src/precompile.rs`, at the addresses 1 to 7.
-/

import Veilux.Evm.Word

namespace Veilux

/-- `sha2::Sha256`. -/
class Sha256 where
  digest : List UInt8 → Vector UInt8 32

/-- `ripemd::Ripemd160`. -/
class Ripemd160 where
  digest : List UInt8 → Vector UInt8 20

/-- The curve operations of `evm/src/bn254.rs`. -/
class Bn254 where
  ecAdd : List UInt8 → Option (List UInt8)
  ecMul : List UInt8 → Option (List UInt8)

namespace Precompile

def lowAddress (address : U256) : UInt64 :=
  let bytes := address.toBigEndian.toList
  if (bytes.take 24).any (fun byte => byte ≠ 0) then 0
  else .ofNat (Rlp.ofBeBytes (bytes.drop 24))

def isPrecompile (address : U256) : Bool :=
  decide (1 ≤ lowAddress address ∧ lowAddress address ≤ 7)

/-- The first `width` bytes, padded with zeros on the right. -/
def padded (width : Nat) (input : List UInt8) : List UInt8 :=
  input.take width ++ List.replicate (width - input.length) 0

def word (bytes : List UInt8) : List UInt8 := List.replicate (32 - bytes.length) 0 ++ bytes

def ecrecover [Keccak256] [Secp256k1] (input : List UInt8) : List UInt8 :=
  let buf := padded 128 input
  let v := buf.getD 63 0
  if v ≠ 27 ∧ v ≠ 28 then []
  else
    let signature := (buf.drop 64).take 64
    if Secp256k1.validSignature signature then
      match Secp256k1.recover (Vector.ofFn fun index : Fin 32 => buf.getD index.val 0) signature
          (v - 27) with
      | none => []
      | some uncompressed => word (EthTx.addressOf (Keccak256.digest (uncompressed.drop 1))).toList
    else []

/-- `saturating_mul(256).saturating_add(byte)` along the bytes. -/
def beUsize (bytes : List UInt8) : Nat :=
  bytes.foldl (fun value byte =>
    min (min (value * 256) (2 ^ 64 - 1) + byte.toNat) (2 ^ 64 - 1)) 0

def readU256 (data : List UInt8) (offset len : Nat) : U256 :=
  if len = 0 then .zero
  else U256.fromBigEndian ((data.drop offset).take len)

/-- Square and multiply; the exponent has 256 bits. -/
def modExpLoop (modulus : U256) : Nat → U256 → U256 → U256 → U256
  | 0, _, _, result => result
  | bits + 1, base, exp, result =>
      if exp.isZero then result
      else
        modExpLoop modulus bits ((base.wrappingMul base).divMod modulus).2 (exp.shr 1)
          (if exp.bit 0 then ((result.wrappingMul base).divMod modulus).2 else result)

def modExp (base exp modulus : U256) : U256 :=
  if modulus = .one then .zero else modExpLoop modulus 256 (base.divMod modulus).2 exp .one

def modexp (input : List UInt8) : List UInt8 :=
  let buf := padded 96 input
  let blen := beUsize (buf.take 32)
  let elen := beUsize ((buf.drop 32).take 32)
  let mlen := beUsize ((buf.drop 64).take 32)
  if 32 < blen ∨ 32 < elen ∨ 32 < mlen then List.replicate (min mlen 32) 0
  else
    let data := input.drop 96
    let modulus := readU256 data (blen + elen) mlen
    let result :=
      if modulus.isZero then .zero
      else modExp (readU256 data 0 blen) (readU256 data blen elen) modulus
    result.toBigEndian.toList.drop (32 - mlen)

section Execute

variable [Keccak256] [Secp256k1] [Sha256] [Ripemd160] [Bn254]

def execute (address : U256) (input : List UInt8) : Option (List UInt8) :=
  match (lowAddress address).toNat with
  | 1 => some (ecrecover input)
  | 2 => some (Sha256.digest input).toList
  | 3 => some (word (Ripemd160.digest input).toList)
  | 4 => some input
  | 5 => some (modexp input)
  | 6 => some ((Bn254.ecAdd input).getD (List.replicate 64 0))
  | 7 => some ((Bn254.ecMul input).getD (List.replicate 64 0))
  | _ => none

end Execute

def gasCost (address : U256) (input : List UInt8) : UInt64 :=
  let words : UInt64 := (.ofNat input.length + 31) / 32
  match (lowAddress address).toNat with
  | 1 => 3000
  | 2 => 60 + 12 * words
  | 3 => 600 + 120 * words
  | 4 => 15 + 3 * words
  | 5 => 200
  | 6 => 150
  | 7 => 6000
  | _ => 0

end Precompile

end Veilux
