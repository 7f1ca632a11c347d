/-
The commands a validator composes itself: the heartbeat blob of
`prisms/storage/src/lib.rs` and the slashing evidence of
`prisms/staking/src/lib.rs`.
-/

import Veilux.Veil.Private

namespace Veilux

/-! ### Storage -/

inductive StorageOp where
  | pin (cid : Hash)
  | unpin (cid : Hash)
  deriving DecidableEq

inductive StorageCommand where
  | put (key : String) (data : List UInt8)
  | op (operation : StorageOp)
  deriving DecidableEq

/-- Untagged: a put is told from the tagged operations by its fields. -/
instance : Serialize StorageCommand where
  toJson
    | .put key data => .obj [("key", toJson key), ("data", toJson data)]
    | .op (.pin cid) => .obj [("op", .str "pin"), ("cid", toJson cid)]
    | .op (.unpin cid) => .obj [("op", .str "unpin"), ("cid", toJson cid)]
  toJson_injective := by
    intro left right same
    cases left with
    | put key data =>
        cases right with
        | put other otherData => simpa using same
        | op operation => cases operation <;> simp at same
    | op operation =>
        cases right with
        | put key data => cases operation <;> simp at same
        | op other => cases operation <;> cases other <;> simp_all

def putCommand (submitter : PartyId) (visibility : Visibility) (nonce : UInt64) (key : String)
    (data : List UInt8) : Command :=
  { prism := "storage"
    submitter := submitter
    visibility := visibility
    payload := toVec (StorageCommand.put key data)
    nonce := nonce }

/-! ### Slashing evidence -/

structure EquivocationProof where
  offender : PartyId
  publicKey : String
  messageA : String
  signatureA : String
  messageB : String
  signatureB : String
  deriving DecidableEq

instance : Serialize EquivocationProof where
  toJson proof := .obj
    [("offender", toJson proof.offender), ("public_key", toJson proof.publicKey),
      ("message_a", toJson proof.messageA), ("signature_a", toJson proof.signatureA),
      ("message_b", toJson proof.messageB), ("signature_b", toJson proof.signatureB)]
  toJson_injective := by
    intro left right same
    cases left
    cases right
    simpa using same

structure AttestationStatement where
  party : PartyId
  publicKey : String
  signature : String
  root : String
  deriving DecidableEq

instance : Serialize AttestationStatement where
  toJson statement := .obj
    [("party", toJson statement.party), ("public_key", toJson statement.publicKey),
      ("signature", toJson statement.signature), ("root", toJson statement.root)]
  toJson_injective := by
    intro left right same
    cases left
    cases right
    simpa using same

structure QuorumFraudProof where
  offender : PartyId
  envelope : PrivateEnvelope
  offenderStmt : AttestationStatement
  majority : List AttestationStatement
  deriving DecidableEq

instance : Serialize QuorumFraudProof where
  toJson proof := .obj
    [("offender", toJson proof.offender), ("envelope", toJson proof.envelope),
      ("offender_stmt", toJson proof.offenderStmt), ("majority", toJson proof.majority)]
  toJson_injective := by
    intro left right same
    cases left
    cases right
    simpa using same

inductive StakingCommand where
  | stake (amount : U128)
  | unstake (amount : U128)
  | delegate (validator : PartyId) (amount : U128)
  | undelegate (validator : PartyId) (amount : U128)
  | propose (title description : String) (votingPeriod : UInt64)
  | vote (proposalId : Hash) (approve : Bool)
  | finalize (proposalId : Hash)
  | slash (proof : EquivocationProof)
  | slashQuorum (proof : QuorumFraudProof)
  | fundRewards (amount : U128)
  | claimRewards
  deriving DecidableEq

namespace StakingCommand

/-- The `op` tag of a variant. -/
def tag : StakingCommand → String
  | .stake _ => "stake"
  | .unstake _ => "unstake"
  | .delegate _ _ => "delegate"
  | .undelegate _ _ => "undelegate"
  | .propose _ _ _ => "propose"
  | .vote _ _ => "vote"
  | .finalize _ => "finalize"
  | .slash _ => "slash"
  | .slashQuorum _ => "slash_quorum"
  | .fundRewards _ => "fund_rewards"
  | .claimRewards => "claim_rewards"

def fields : StakingCommand → List (String × Json)
  | .stake amount => [("amount", toJson amount)]
  | .unstake amount => [("amount", toJson amount)]
  | .delegate validator amount => [("validator", toJson validator), ("amount", toJson amount)]
  | .undelegate validator amount => [("validator", toJson validator), ("amount", toJson amount)]
  | .propose title description votingPeriod =>
      [("title", toJson title), ("description", toJson description),
        ("voting_period", toJson votingPeriod)]
  | .vote proposalId approve =>
      [("proposal_id", toJson proposalId), ("approve", toJson approve)]
  | .finalize proposalId => [("proposal_id", toJson proposalId)]
  | .slash proof => [("proof", toJson proof)]
  | .slashQuorum proof => [("proof", toJson proof)]
  | .fundRewards amount => [("amount", toJson amount)]
  | .claimRewards => []

instance : Serialize StakingCommand where
  toJson command := .obj (("op", .str command.tag) :: command.fields)
  toJson_injective := by
    intro left right same
    simp only [Json.obj.injEq, List.cons.injEq, Prod.mk.injEq, true_and, Json.str.injEq] at same
    obtain ⟨tags, fields⟩ := same
    cases left <;> cases right <;> simp_all [tag, StakingCommand.fields]

end StakingCommand

/-- The height rides behind the JSON text. -/
def stakingCommand (submitter : PartyId) (visibility : Visibility) (nonce : UInt64) (height : Nat)
    (command : StakingCommand) : Command :=
  { prism := "staking"
    submitter := submitter
    visibility := visibility
    payload := toVec command ++ Bytes.leBytes 8 height
    nonce := nonce }

end Veilux
