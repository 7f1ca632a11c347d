/-
Sessions between peers, from `network/src/auth.rs`: two keys, one for each direction, and
a counter for each that enters the nonce.  The roles are told from the order of the
ephemeral keys.
-/

import Veilux.Veil.Private

namespace Veilux

namespace Auth

open Bytes (leBytes utf8)

/-! ### Keys and sessions -/

/-- `blake3::Hasher::finalize_xof`, the first 64 bytes it yields. -/
class Blake3Xof where
  fill : List UInt8 → Vector UInt8 64

inductive AuthError where
  | io (text : String)
  | encode (text : String)
  | closed
  | unexpected
  | unknownPeer (party : String)
  | keyMismatch (party : String)
  | badProof
  | badEphemeralKey
  | decryption
  deriving DecidableEq

namespace AuthError

/-- The `Display` texts. -/
def text : AuthError → String
  | .io text => "io error: " ++ text
  | .encode text => "encode error: " ++ text
  | .closed => "peer closed connection during handshake"
  | .unexpected => "unexpected handshake message"
  | .unknownPeer party => "peer party " ++ party ++ " is not a known validator"
  | .keyMismatch party => "peer public key does not match the registered key for " ++ party
  | .badProof => "peer proof signature is invalid"
  | .badEphemeralKey => "malformed ephemeral key"
  | .decryption => "frame decryption failed (tampered or out-of-order ciphertext)"

end AuthError

def sessionKdfDomain : String := "veilux/net-session/v1"

/-- The cipher of a direction is determined by its key. -/
structure Session where
  sendKey : Vector UInt8 32
  recvKey : Vector UInt8 32
  sendCounter : UInt64
  recvCounter : UInt64
  deriving DecidableEq

structure Sender where
  key : Vector UInt8 32
  counter : UInt64
  deriving DecidableEq

structure Receiver where
  key : Vector UInt8 32
  counter : UInt64
  deriving DecidableEq

/-- Four zero bytes and the counter, most significant byte first. -/
def counterNonce (counter : UInt64) : Vector UInt8 12 :=
  ⟨(List.replicate 4 0 ++ (leBytes 8 counter.toNat).reverse).toArray, by
    simp [Bytes.leBytes_length]⟩

section Keys

variable [Blake3Xof]

def kdfInput (shared initiatorEph responderEph : List UInt8) : List UInt8 :=
  utf8 sessionKdfDomain ++ shared ++ initiatorEph ++ responderEph

def deriveSessionKeys (shared : Vector UInt8 32) (initiatorEph responderEph : List UInt8) :
    Vector UInt8 64 :=
  Blake3Xof.fill (kdfInput shared.toList initiatorEph responderEph)

/-- The 32 bytes of the derived keys from an offset on. -/
def keyAt (keys : Vector UInt8 64) (second : Bool) : Vector UInt8 32 :=
  Vector.ofFn fun index : Fin 32 => if second then keys[index.val + 32] else keys[index.val]

end Keys

namespace Session

def new (sendKey recvKey : Vector UInt8 32) : Session :=
  { sendKey := sendKey
    recvKey := recvKey
    sendCounter := 0
    recvCounter := 0 }

def split (session : Session) : Sender × Receiver :=
  ({ key := session.sendKey
     counter := session.sendCounter },
   { key := session.recvKey
     counter := session.recvCounter })

end Session

/-- Byte strings are compared lexicographically. -/
def buildSession [Blake3Xof] (shared : Vector UInt8 32) (myEph peerEph : List UInt8) : Session :=
  if myEph < peerEph then
    let keys := deriveSessionKeys shared myEph peerEph
    .new (keyAt keys false) (keyAt keys true)
  else
    let keys := deriveSessionKeys shared peerEph myEph
    .new (keyAt keys true) (keyAt keys false)

section Frames

variable [ChaCha20Poly1305]

namespace Sender

def sealFrame (sender : Sender) (plaintext : List UInt8) : List UInt8 × Sender :=
  (ChaCha20Poly1305.encrypt sender.key (counterNonce sender.counter) [] plaintext,
    { sender with counter := sender.counter + 1 })

end Sender

namespace Receiver

/-- The counter advances on a failed attempt as well. -/
def openFrame (receiver : Receiver) (ciphertext : List UInt8) :
    Except AuthError (List UInt8) × Receiver :=
  let receiver' := { receiver with counter := receiver.counter + 1 }
  match ChaCha20Poly1305.decrypt receiver.key (counterNonce receiver.counter) [] ciphertext with
  | none => (.error .decryption, receiver')
  | some plaintext => (.ok plaintext, receiver')

end Receiver

namespace Session

def sealFrame (session : Session) (plaintext : List UInt8) : List UInt8 × Session :=
  (ChaCha20Poly1305.encrypt session.sendKey (counterNonce session.sendCounter) [] plaintext,
    { session with sendCounter := session.sendCounter + 1 })

def openFrame (session : Session) (ciphertext : List UInt8) :
    Except AuthError (List UInt8) × Session :=
  let session' := { session with recvCounter := session.recvCounter + 1 }
  match ChaCha20Poly1305.decrypt session.recvKey (counterNonce session.recvCounter) []
      ciphertext with
  | none => (.error .decryption, session')
  | some plaintext => (.ok plaintext, session')

end Session

/-! ### Ends of a session -/

/-- One end of a session, whole or split. -/
inductive End where
  | whole (session : Session)
  | halves (sender : Sender) (receiver : Receiver)
  deriving DecidableEq

namespace End

def sendKey : End → Vector UInt8 32
  | .whole session => session.sendKey
  | .halves sender _ => sender.key

def recvKey : End → Vector UInt8 32
  | .whole session => session.recvKey
  | .halves _ receiver => receiver.key

def sendCounter : End → UInt64
  | .whole session => session.sendCounter
  | .halves sender _ => sender.counter

def recvCounter : End → UInt64
  | .whole session => session.recvCounter
  | .halves _ receiver => receiver.counter

def sealFrame : End → List UInt8 → List UInt8 × End
  | .whole session, plaintext =>
      let (frame, session) := session.sealFrame plaintext
      (frame, .whole session)
  | .halves sender receiver, plaintext =>
      let (frame, sender) := sender.sealFrame plaintext
      (frame, .halves sender receiver)

def openFrame : End → List UInt8 → Except AuthError (List UInt8) × End
  | .whole session, ciphertext =>
      let (result, session) := session.openFrame ciphertext
      (result, .whole session)
  | .halves sender receiver, ciphertext =>
      let (result, receiver) := receiver.openFrame ciphertext
      (result, .halves sender receiver)

/-- `split` consumes the session, so the halves stay as they are. -/
def split : End → End
  | .whole session => .halves session.split.1 session.split.2
  | .halves sender receiver => .halves sender receiver

end End

/-- A use of an end. -/
inductive Use where
  | send (plaintext : List UInt8)
  | receive (ciphertext : List UInt8)
  | split
  deriving DecidableEq

def Use.plaintext? : Use → Option (List UInt8)
  | .send plaintext => some plaintext
  | _ => none

def Use.ciphertext? : Use → Option (List UInt8)
  | .receive ciphertext => some ciphertext
  | _ => none

/-- The frames an end seals over some uses, and what its attempts to open frames yield. -/
def traffic : End → List Use → List (List UInt8) × List (Except AuthError (List UInt8))
  | _, [] => ([], [])
  | side, .send plaintext :: uses =>
      let (frame, side) := side.sealFrame plaintext
      let (frames, results) := traffic side uses
      (frame :: frames, results)
  | side, .receive ciphertext :: uses =>
      let (result, side) := side.openFrame ciphertext
      let (frames, results) := traffic side uses
      (frames, result :: results)
  | side, .split :: uses => traffic side.split uses

end Frames

end Auth

end Veilux
