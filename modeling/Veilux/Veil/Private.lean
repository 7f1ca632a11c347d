/-
Private envelopes and root attestations (`veil/src/private.rs`,
`veil/src/attest.rs`), as far as a node receives them: checking and opening an
envelope, attesting the private root it led to, and arbitrating attestations.
-/

import Veilux.Veil.Identity
import Veilux.Veil.View

namespace Veilux

open Bytes (utf8)

/-- `x25519_dalek`: the shared secret of a static secret and a public key. -/
class X25519 where
  diffieHellman : (secret peer : Vector UInt8 32) → Vector UInt8 32

/-- Byte-wise exclusive or, to evaluate the model on concrete inputs. -/
@[reducible] def X25519.masked : X25519 where
  diffieHellman secret peer := Vector.zipWith (· ^^^ ·) secret peer

/-! ### Envelopes -/

structure SealedShare where
  recipient : PartyId
  nonce : Vector UInt8 12
  ciphertext : List UInt8
  deriving DecidableEq

structure PrivateEnvelope where
  commitment : Hash
  salt : Hash
  ephemeralPublic : Vector UInt8 32
  stakeholders : List PartyId
  shares : List SealedShare
  deriving DecidableEq

instance : Serialize SealedShare where
  toJson share := .obj
    [("recipient", toJson share.recipient), ("nonce", toJson share.nonce),
      ("ciphertext", toJson share.ciphertext)]
  toJson_injective := by
    intro left right same
    cases left
    cases right
    simpa using same

instance : Serialize PrivateEnvelope where
  toJson envelope := .obj
    [("commitment", toJson envelope.commitment), ("salt", toJson envelope.salt),
      ("ephemeral_public", toJson envelope.ephemeralPublic),
      ("stakeholders", toJson envelope.stakeholders), ("shares", toJson envelope.shares)]
  toJson_injective := by
    intro left right same
    cases left
    cases right
    simpa using same

def privateKdfDomain : String := "veilux/veil/private-x25519/v1"
def privateCommitDomain : String := "veilux/veil/private-commit/v1"

namespace PrivateEnvelope

def isStakeholder (envelope : PrivateEnvelope) (party : PartyId) : Bool :=
  envelope.stakeholders.any fun stakeholder => stakeholder = party

variable [Blake3]

/-- Stakeholders and shares enter as parts of their own, without counts. -/
def expectedCommitment (salt : Hash) (ephemeralPublic : Vector UInt8 32)
    (stakeholders : List PartyId) (shares : List SealedShare) : Hash :=
  Hash.commit "private-envelope"
    ([utf8 privateCommitDomain, salt.asBytes, ephemeralPublic.toList] ++
      stakeholders.map PartyId.bytes ++
      shares.flatMap fun share => [share.recipient.bytes, share.nonce.toList, share.ciphertext])

def verifyCommitment (envelope : PrivateEnvelope) : Bool :=
  decide (expectedCommitment envelope.salt envelope.ephemeralPublic envelope.stakeholders
    envelope.shares = envelope.commitment)

end PrivateEnvelope

section Opening

variable [Blake3]

def sharedKey (shared : Vector UInt8 32) (salt : Hash) (party : PartyId) : Vector UInt8 32 :=
  Blake3.digest (utf8 privateKdfDomain ++ shared.toList ++ salt.asBytes ++ party.bytes)

def ViewKeyring.x25519Secret (keyring : ViewKeyring) : Vector UInt8 32 :=
  Blake3.digest (utf8 "veilux/veil/x25519-static/v1" ++ keyring.seed.toList)

variable [ChaCha20Poly1305] [X25519] [SerdeJson]

def openPrivate (envelope : PrivateEnvelope) (keyring : ViewKeyring) :
    Except ViewError Command :=
  match envelope.shares.find? (fun share => share.recipient = keyring.party) with
  | none => .error (.noKey keyring.party.name)
  | some share =>
      let shared := X25519.diffieHellman keyring.x25519Secret envelope.ephemeralPublic
      let key := sharedKey shared envelope.salt keyring.party
      match ChaCha20Poly1305.decrypt key share.nonce envelope.salt.asBytes share.ciphertext with
      | none => .error .decryption
      | some plaintext =>
          match fromSlice Command plaintext with
          | .error text => .error (.serialization text)
          | .ok command => .ok command

end Opening

/-! ### Attestations -/

structure RootAttestation where
  party : PartyId
  commitment : Hash
  privateRoot : Hash
  publicKey : List UInt8
  signature : List UInt8
  deriving DecidableEq

def attestationMessage (commitment privateRoot : Hash) (party : PartyId) : List UInt8 :=
  utf8 "veilux/veil/private-root-attestation/v1" ++ 0xff :: commitment.asBytes ++
    0xff :: privateRoot.asBytes ++ 0xff :: party.bytes

namespace RootAttestation

def signedMessage (attestation : RootAttestation) : List UInt8 :=
  attestationMessage attestation.commitment attestation.privateRoot attestation.party

variable [Ed25519]

def create (identity : PartyIdentity) (commitment privateRoot : Hash) : RootAttestation :=
  { party := identity.party
    commitment := commitment
    privateRoot := privateRoot
    publicKey := identity.publicKey
    signature :=
      identity.signBytes (attestationMessage commitment privateRoot identity.party) }

def verify (attestation : RootAttestation) : Except IdentityError Unit :=
  verifyBytes attestation.publicKey attestation.signedMessage attestation.signature

end RootAttestation

structure AttestationBook where
  entries : List RootAttestation
  deriving DecidableEq

inductive AttestationOutcome where
  | recorded
  | duplicate
  | divergence (existing incoming : Hash)
  | invalid
  deriving DecidableEq

structure EquivocatingPair where
  party : PartyId
  publicKey : List UInt8
  a : RootAttestation
  b : RootAttestation

namespace AttestationBook

def empty : AttestationBook := ⟨[]⟩

/-- A party's second root is reported without being stored; a first root that
differs from another party's is stored and reported. -/
def record [Ed25519] (book : AttestationBook) (attestation : RootAttestation) :
    AttestationOutcome × AttestationBook :=
  match attestation.verify with
  | .error _ => (.invalid, book)
  | .ok () =>
      match book.entries.find? (fun entry =>
          entry.commitment = attestation.commitment ∧ entry.party = attestation.party) with
      | some entry =>
          if entry.privateRoot = attestation.privateRoot then (.duplicate, book)
          else (.divergence entry.privateRoot attestation.privateRoot, book)
      | none =>
          let stored : AttestationBook := ⟨book.entries ++ [attestation]⟩
          match book.entries.find? (fun entry =>
              entry.commitment = attestation.commitment ∧ entry.party ≠ attestation.party) with
          | some peer =>
              if peer.privateRoot ≠ attestation.privateRoot then
                (.divergence peer.privateRoot attestation.privateRoot, stored)
              else (.recorded, stored)
          | none => (.recorded, stored)

def selfEquivocation (book : AttestationBook) (incoming : RootAttestation) :
    Option EquivocatingPair :=
  (book.entries.find? (fun entry =>
      entry.commitment = incoming.commitment ∧ entry.party = incoming.party ∧
        entry.privateRoot ≠ incoming.privateRoot)).map fun existing =>
    { party := incoming.party
      publicKey := incoming.publicKey
      a := existing
      b := incoming }

def agreement (book : AttestationBook) (commitment : Hash) : List RootAttestation :=
  book.entries.filter fun entry => entry.commitment = commitment

/-- One more vote for a root, at the place where it was first counted. -/
def countRoot (root : Hash) : List (Hash × Nat) → List (Hash × Nat)
  | [] => [(root, 1)]
  | (counted, votes) :: rest =>
      if counted = root then (counted, votes + 1) :: rest
      else (counted, votes) :: countRoot root rest

/-- `sort_by` is stable, so ties keep the order of counting. -/
def canonicalRoot (book : AttestationBook) (commitment : Hash) (stakeholderCount : Nat) :
    Option Hash :=
  let tally := (book.agreement commitment).foldl
    (fun tally vote => countRoot vote.privateRoot tally) []
  match tally.insertionSort (fun left right => right.2 ≤ left.2) with
  | [] => none
  | (topRoot, topCount) :: _ =>
      if stakeholderCount / 2 + 1 ≤ topCount then some topRoot else none

def minorityOffenders (book : AttestationBook) (commitment : Hash) (stakeholderCount : Nat) :
    List RootAttestation :=
  match book.canonicalRoot commitment stakeholderCount with
  | none => []
  | some canonical => book.entries.filter fun entry =>
      entry.commitment = commitment ∧ entry.privateRoot ≠ canonical

end AttestationBook

end Veilux
