/-
Sealing private commands (`veil/src/private.rs`): one share for every recipient, under a
key agreed between an ephemeral secret and the recipient's public key.  Nothing else goes
in: whoever knows names and public keys can seal any command.
-/

import Veilux.Veil.Private

namespace Veilux

open Bytes (utf8)

/-- The public half of `x25519_dalek`; both sides of an exchange agree. -/
class X25519Public [X25519] where
  publicKey : Vector UInt8 32 → Vector UInt8 32
  agree : ∀ secret other, X25519.diffieHellman secret (publicKey other) =
    X25519.diffieHellman other (publicKey secret)

attribute [local instance] X25519.masked in
/-- Under byte-wise exclusive or every secret is its own public key. -/
@[reducible] def X25519Public.masked : X25519Public where
  publicKey secret := secret
  agree secret other := by
    apply Vector.ext
    intro index bound
    simp [X25519.diffieHellman, UInt8.xor_comm]

structure Recipient where
  party : PartyId
  x25519Public : Vector UInt8 32
  deriving DecidableEq

def privateNonceDomain : String := "veilux/veil/private-nonce/v1"

section Sealing

variable [Blake3]

def shareNonce (salt : Hash) (party : PartyId) : Vector UInt8 12 :=
  firstTwelve (Blake3.digest (utf8 privateNonceDomain ++ salt.asBytes ++ party.bytes))

variable [X25519] [X25519Public]

def ViewKeyring.x25519Public (keyring : ViewKeyring) : Vector UInt8 32 :=
  X25519Public.publicKey keyring.x25519Secret

def ViewKeyring.recipient (keyring : ViewKeyring) : Recipient :=
  { party := keyring.party
    x25519Public := keyring.x25519Public }

def recipientsFromKeyrings (parties : List PartyId) (keyrings : List ViewKeyring) :
    List Recipient :=
  parties.filterMap fun party =>
    (keyrings.find? fun keyring => keyring.party = party).map fun keyring =>
      { party := party
        x25519Public := keyring.x25519Public }

variable [ChaCha20Poly1305]

/-- One turn of the loop of `seal_private_to`. -/
def sealShare (ephemeral : Vector UInt8 32) (plaintext : List UInt8) (salt : Hash)
    (recipient : Recipient) : SealedShare :=
  let shared := X25519.diffieHellman ephemeral recipient.x25519Public
  let key := sharedKey shared salt recipient.party
  let nonce := shareNonce salt recipient.party
  { recipient := recipient.party
    nonce := nonce
    ciphertext := ChaCha20Poly1305.encrypt key nonce salt.asBytes plaintext }

/-- The ephemeral secret is drawn from the system's randomness. -/
def sealPrivateTo (ephemeral : Vector UInt8 32) (inner : Command) (recipients : List Recipient)
    (salt : Hash) : PrivateEnvelope :=
  let ephemeralPublic := X25519Public.publicKey ephemeral
  let shares := recipients.map (sealShare ephemeral (toVec inner) salt)
  let stakeholders := recipients.map Recipient.party
  { commitment := PrivateEnvelope.expectedCommitment salt ephemeralPublic stakeholders shares
    salt := salt
    ephemeralPublic := ephemeralPublic
    stakeholders := stakeholders
    shares := shares }

def sealPrivate (ephemeral : Vector UInt8 32) (inner : Command) (stakeholders : List PartyId)
    (keyrings : List ViewKeyring) (salt : Hash) : PrivateEnvelope :=
  sealPrivateTo ephemeral inner (recipientsFromKeyrings stakeholders keyrings) salt

theorem verifyCommitment_sealed (ephemeral : Vector UInt8 32) (inner : Command)
    (recipients : List Recipient) (salt : Hash) :
    (sealPrivateTo ephemeral inner recipients salt).verifyCommitment = true :=
  decide_eq_true rfl

/-- The recipient recovers the command, whoever sealed it. -/
theorem openPrivate_sealed [SerdeJson] (ephemeral : Vector UInt8 32) (inner : Command)
    (keyring : ViewKeyring) (others : List Recipient) (salt : Hash) :
    openPrivate (sealPrivateTo ephemeral inner (keyring.recipient :: others) salt) keyring =
      .ok inner := by
  have share : (sealPrivateTo ephemeral inner (keyring.recipient :: others) salt).shares.find?
      (fun share => share.recipient = keyring.party) =
        some (sealShare ephemeral (toVec inner) salt keyring.recipient) := by
    change List.find? _ (sealShare ephemeral (toVec inner) salt keyring.recipient :: _) = _
    rw [List.find?_cons_of_pos]
    exact decide_eq_true rfl
  have key : X25519.diffieHellman keyring.x25519Secret
      (sealPrivateTo ephemeral inner (keyring.recipient :: others) salt).ephemeralPublic =
        X25519.diffieHellman ephemeral keyring.x25519Public :=
    X25519Public.agree keyring.x25519Secret ephemeral
  have opened : ChaCha20Poly1305.decrypt
      (sharedKey (X25519.diffieHellman ephemeral keyring.x25519Public) salt keyring.party)
      (sealShare ephemeral (toVec inner) salt keyring.recipient).nonce salt.asBytes
      (sealShare ephemeral (toVec inner) salt keyring.recipient).ciphertext =
        some (toVec inner) := ChaCha20Poly1305.decrypt_encrypt _ _ _ _
  unfold openPrivate
  rw [share]
  dsimp only
  have bound : (sealPrivateTo ephemeral inner (keyring.recipient :: others) salt).salt =
      salt := rfl
  rw [key, bound, opened]
  dsimp only
  rw [fromSlice_toVec]

end Sealing

end Veilux
