/-
The messages validators exchange, from `network/src/message.rs`.
-/

import Veilux.Consensus.Vote
import Veilux.Veil.Private

namespace Veilux

open Bytes (leBytes utf8)

structure ViewChange where
  height : Nat
  view : UInt32
  voter : PartyId
  publicKey : List UInt8
  signature : List UInt8
  deriving DecidableEq

/-- The carried key is not among the signed bytes. -/
def ViewChange.signingBytes (change : ViewChange) : List UInt8 :=
  utf8 "veilux/view-change/v1" ++ 0xff :: leBytes 8 change.height ++
    leBytes 4 change.view.toNat ++ change.voter.bytes

inductive NetMessage where
  | hello (nodeId : String) (height : Nat)
  | command (signed : SignedCommand)
  | proposal (round : UInt32) (block : Block)
  | vote (vote : Vote)
  | block (block : Block)
  | requestBlocks (fromHeight : Nat)
  | blocks (blocks : List Block)
  | viewChange (change : ViewChange)
  | privateEnvelope (envelope : PrivateEnvelope)
  | privateRoot (attestation : RootAttestation)

end Veilux
