/-
The equivocation watch of `node/src/slash_watch.rs`: it remembers the first
signed vote of every voter, round and kind, and reports a second one that
differs, once per offender.
-/

import Veilux.Consensus.Vote
import Veilux.Prism.Evidence

namespace Veilux

structure SeenVote where
  blockHash : Hash
  message : List UInt8
  signature : List UInt8
  deriving DecidableEq

structure EquivocationWatch where
  seen : AList (fun _ : Nat × UInt32 × UInt8 × String => SeenVote)
  slashed : List String

namespace EquivocationWatch

def new : EquivocationWatch :=
  { seen := ∅
    slashed := [] }

/-- `retain` over the keys of the map. -/
def pruneBelow (watch : EquivocationWatch) (height : Nat) : EquivocationWatch :=
  { watch with
    seen := ⟨watch.seen.entries.filter fun entry => height ≤ entry.1.1,
      watch.seen.nodupKeys.sublist List.filter_sublist⟩ }

def observe (watch : EquivocationWatch) (vote : Vote) (publicKey : List UInt8) :
    Option EquivocationProof × EquivocationWatch :=
  if vote.signature.isEmpty then (none, watch)
  else
    let key := (vote.height, vote.round, Vote.kindByte vote.kind, vote.voter.name)
    match watch.seen.lookup key with
    | some previous =>
        if previous.blockHash ≠ vote.blockHash then
          if watch.slashed.contains vote.voter.name then (none, watch)
          else
            (some
              { offender := vote.voter
                publicKey := Bytes.hexEncode publicKey
                messageA := Bytes.hexEncode previous.message
                signatureA := Bytes.hexEncode previous.signature
                messageB := Bytes.hexEncode vote.signingBytes
                signatureB := Bytes.hexEncode vote.signature },
              { watch with slashed := watch.slashed.insert vote.voter.name })
        else (none, watch)
    | none =>
        (none, { watch with
          seen := watch.seen.insert key
            { blockHash := vote.blockHash
              message := vote.signingBytes
              signature := vote.signature } })

end EquivocationWatch

end Veilux
