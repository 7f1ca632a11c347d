/-
Party identities and signature checks of `veil/src/identity.rs`.  The signature
scheme is a parameter; the model keeps the length checks in front of it and
relies on it only to accept the signatures it produces.
-/

import Veilux.Kernel.Types

namespace Veilux

/-- `ed25519_dalek`: key decoding, verification, and the signer's side. -/
class Ed25519 where
  validKey : Vector UInt8 32 → Bool
  verify : Vector UInt8 32 → List UInt8 → Vector UInt8 64 → Bool
  publicKey : Vector UInt8 32 → Vector UInt8 32
  sign : Vector UInt8 32 → List UInt8 → Vector UInt8 64
  validKey_publicKey : ∀ seed, validKey (publicKey seed) = true
  verify_sign : ∀ seed message, verify (publicKey seed) message (sign seed message) = true

/-- Signatures that repeat the key and a checksum of the message, to evaluate the
model on concrete inputs. -/
@[reducible] def Ed25519.keyed : Ed25519 where
  validKey _ := true
  verify key message tag := decide (tag = key ++ Blake3.polynomial.digest message)
  publicKey seed := seed
  sign seed message := seed ++ Blake3.polynomial.digest message
  validKey_publicKey _ := rfl
  verify_sign _ _ := decide_eq_true rfl

inductive IdentityError where
  | badPublicKey
  | badSignature
  | verificationFailed
  | partyKeyMismatch
  deriving DecidableEq

namespace IdentityError

/-- The `Display` texts. -/
def text : IdentityError → String
  | .badPublicKey => "malformed public key"
  | .badSignature => "malformed signature"
  | .verificationFailed => "signature verification failed"
  | .partyKeyMismatch => "submitter party does not match signing key"

end IdentityError

/-- `<[u8; N]>::try_from` on a slice. -/
def exactly (size : Nat) (bytes : List UInt8) : Option (Vector UInt8 size) :=
  if length : bytes.length = size then some ⟨bytes.toArray, by simpa using length⟩ else none

@[simp] theorem exactly_toList {size : Nat} (bytes : Vector UInt8 size) :
    exactly size bytes.toList = some bytes := by
  simp only [exactly, Vector.length_toList, dif_pos]
  rfl

structure PartyIdentity where
  party : PartyId
  signingKey : Vector UInt8 32

/-- An identity whose seed repeats one byte. -/
def PartyIdentity.repeated (name : String) (seed : UInt8) : PartyIdentity :=
  { party := ⟨name⟩
    signingKey := Vector.replicate 32 seed }

section Signatures

variable [Ed25519]

namespace PartyIdentity

def publicKey (identity : PartyIdentity) : List UInt8 :=
  (Ed25519.publicKey identity.signingKey).toList

def signBytes (identity : PartyIdentity) (message : List UInt8) : List UInt8 :=
  (Ed25519.sign identity.signingKey message).toList

def signForChain (identity : PartyIdentity) (command : Command) (chainId : UInt64) :
    SignedCommand :=
  { command := command
    publicKey := identity.publicKey
    signature := identity.signBytes (command.signingBytesForChain chainId)
    chainId := chainId }

end PartyIdentity

def verifyBytes (publicKey message signature : List UInt8) : Except IdentityError Unit :=
  match exactly 32 publicKey with
  | none => .error .badPublicKey
  | some key =>
      if Ed25519.validKey key then
        match exactly 64 signature with
        | none => .error .badSignature
        | some tag =>
            if Ed25519.verify key message tag then .ok () else .error .verificationFailed
      else .error .badPublicKey

/-- The same checks in the same order, over the chain-bound command bytes. -/
def verifySigned (signed : SignedCommand) : Except IdentityError Unit :=
  verifyBytes signed.publicKey (signed.command.signingBytesForChain signed.chainId)
    signed.signature

theorem verifyBytes_signBytes (identity : PartyIdentity) (message : List UInt8) :
    verifyBytes identity.publicKey message (identity.signBytes message) = .ok () := by
  simp only [verifyBytes, PartyIdentity.publicKey, PartyIdentity.signBytes, exactly_toList,
    Ed25519.validKey_publicKey, Ed25519.verify_sign, if_true]

theorem verifySigned_signForChain (identity : PartyIdentity) (command : Command)
    (chainId : UInt64) : verifySigned (identity.signForChain command chainId) = .ok () :=
  verifyBytes_signBytes identity (command.signingBytesForChain chainId)

end Signatures

end Veilux
