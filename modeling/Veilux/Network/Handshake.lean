/-
The handshake of `network/src/auth.rs`.  Both sides say hello with a fresh challenge and
a fresh ephemeral key, then prove their identity by signing the other's challenge, their
own name and their own ephemeral key.
-/

import Veilux.Network.Session
import Veilux.Prism.Name
import Veilux.Veil.Sealing

namespace Veilux

namespace Auth

open Bytes (utf8)

structure PeerKey where
  party : String
  publicKey : List UInt8
  deriving DecidableEq

structure AuthConfig where
  party : String
  secretSeed : Vector UInt8 32
  peers : List PeerKey
  deriving DecidableEq

namespace AuthConfig

/-- `PartyIdentity::from_seed`. -/
def identity (cfg : AuthConfig) : PartyIdentity :=
  { party := ⟨cfg.party⟩
    signingKey := cfg.secretSeed }

/-- The registered key of a party; of several entries the last one is in the table. -/
def expected (cfg : AuthConfig) (party : String) : Option (List UInt8) :=
  (cfg.peers.reverse.find? fun peer => peer.party = party).map PeerKey.publicKey

end AuthConfig

structure PeerInfo where
  party : String
  publicKey : List UInt8
  deriving DecidableEq

inductive AuthMsg where
  | hello (party : String) (publicKey nonce ephemeral : List UInt8)
  | proof (signature : List UInt8)
  deriving DecidableEq

/-- Adjacently tagged: the variant under `a`, its fields under `d`. -/
instance : Serialize AuthMsg where
  toJson
    | .hello party publicKey nonce ephemeral => .obj
        [("a", .str "Hello"), ("d", .obj
          [("party", toJson party), ("public_key", toJson publicKey), ("nonce", toJson nonce),
            ("ephemeral", toJson ephemeral)])]
    | .proof signature => .obj
        [("a", .str "Proof"), ("d", .obj [("signature", toJson signature)])]
  toJson_injective := by
    intro left right same
    cases left <;> cases right <;> simp_all

def handshakeDomain : String := "veilux/net-handshake/v1"

def proofMessage (challengerNonce : List UInt8) (signerParty : String)
    (signerEphemeral : List UInt8) : List UInt8 :=
  utf8 handshakeDomain ++ 0xff :: challengerNonce ++ 0xff :: utf8 signerParty ++
    0xff :: signerEphemeral

/-- `read_msg` on a line, or on the end of the stream. -/
def readMsg [SerdeJson] : Option String → Except AuthError AuthMsg
  | none => .error .closed
  | some line =>
      match fromSlice AuthMsg (utf8 (String.ofList (NamePrism.trim line.toList))) with
      | .error text => .error (.encode text)
      | .ok msg => .ok msg

/-- What a run of the handshake draws. -/
structure Drawn where
  nonce : Vector UInt8 32
  ephemeral : Vector UInt8 32
  deriving DecidableEq

/-- What a run has read of the peer's hello. -/
structure PeerHello where
  party : String
  publicKey : List UInt8
  nonce : List UInt8
  ephemeral : List UInt8
  deriving DecidableEq

section Handshake

variable [Ed25519] [X25519] [X25519Public] [Blake3Xof]

def Drawn.ephemeralPublic (drawn : Drawn) : List UInt8 :=
  (X25519Public.publicKey drawn.ephemeral).toList

/-- The first message of a run. -/
def hello (cfg : AuthConfig) (drawn : Drawn) : AuthMsg :=
  .hello cfg.party cfg.identity.publicKey drawn.nonce.toList drawn.ephemeralPublic

omit [Ed25519] [X25519] [X25519Public] [Blake3Xof] in
/-- The checks on the peer's first message. -/
def greet (cfg : AuthConfig) : AuthMsg → Except AuthError PeerHello
  | .proof _ => .error .unexpected
  | .hello party publicKey nonce ephemeral =>
      match cfg.expected party with
      | none => .error (.unknownPeer party)
      | some expected =>
          if expected ≠ publicKey then .error (.keyMismatch party)
          else .ok
            { party := party
              publicKey := publicKey
              nonce := nonce
              ephemeral := ephemeral }

/-- The second message of a run. -/
def proof (cfg : AuthConfig) (drawn : Drawn) (peer : PeerHello) : AuthMsg :=
  .proof (cfg.identity.signBytes (proofMessage peer.nonce cfg.party drawn.ephemeralPublic))

/-- The checks on the peer's second message; the length of its key is checked last. -/
def finish (drawn : Drawn) (peer : PeerHello) : AuthMsg → Except AuthError (PeerInfo × Session)
  | .hello _ _ _ _ => .error .unexpected
  | .proof signature =>
      match verifyBytes peer.publicKey
          (proofMessage drawn.nonce.toList peer.party peer.ephemeral) signature with
      | .error _ => .error .badProof
      | .ok () =>
          match exactly 32 peer.ephemeral with
          | none => .error .badEphemeralKey
          | some ephemeral =>
              let shared := X25519.diffieHellman drawn.ephemeral ephemeral
              .ok
                ({ party := peer.party
                   publicKey := peer.publicKey },
                  buildSession shared drawn.ephemeralPublic peer.ephemeral)

/-- A whole run on the two messages it reads: what it writes and how it ends. -/
def performHandshake (cfg : AuthConfig) (drawn : Drawn) (first second : Except AuthError AuthMsg) :
    List AuthMsg × Except AuthError (PeerInfo × Session) :=
  match first with
  | .error error => ([hello cfg drawn], .error error)
  | .ok msg =>
      match greet cfg msg with
      | .error error => ([hello cfg drawn], .error error)
      | .ok peer =>
          match second with
          | .error error => ([hello cfg drawn, proof cfg drawn peer], .error error)
          | .ok msg => ([hello cfg drawn, proof cfg drawn peer], finish drawn peer msg)

end Handshake

end Auth

end Veilux
