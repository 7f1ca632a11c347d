/-
The staking prism of `prisms/staking/src/lib.rs`: bonding, delegation, rewards,
stake-weighted governance and slashing.

A stake is kept in four places, the records and delegations, the locked amount per
party and the total, and lock changes pay the pending reward on the way.  Signed
128-bit differences are integers wrapped to that width.
-/

import Veilux.Prism.Evidence
import Veilux.Prism.Token

namespace Veilux

open Bytes (leBytes utf8)

/-! ### Signed differences -/

namespace I128

/-- The value of a 128-bit pattern read as a signed number. -/
def wrap (value : Int) : Int := value.bmod (2 ^ 128)

/-- `value as i128`. -/
def ofU128 (value : U128) : Int := wrap value.val

/-- `(left + right).max(0) as u128`. -/
def addClamped (left right : Int) : U128 :=
  Fin.ofNat (2 ^ 128) (max (wrap (left + right)) 0).toNat

end I128

/-! ### Records -/

inductive ProposalStatus where
  | active
  | passed
  | rejected
  | executed
  deriving DecidableEq

instance : Serialize ProposalStatus where
  toJson
    | .active => .str "active"
    | .passed => .str "passed"
    | .rejected => .str "rejected"
    | .executed => .str "executed"
  toJson_injective := by
    intro left right same
    cases left <;> cases right <;> simp_all

structure StakeRecord where
  owner : PartyId
  selfBonded : U128
  delegatedIn : U128
  deriving DecidableEq

namespace StakeRecord

instance : Serialize StakeRecord where
  toJson record := .obj
    [("owner", toJson record.owner), ("self_bonded", toJson record.selfBonded),
      ("delegated_in", toJson record.delegatedIn)]
  toJson_injective := by
    intro left right same
    cases left
    cases right
    simpa using same

def empty (owner : PartyId) : StakeRecord :=
  { owner := owner
    selfBonded := 0
    delegatedIn := 0 }

def votingPower (record : StakeRecord) : U128 := record.selfBonded + record.delegatedIn

end StakeRecord

structure Proposal where
  id : Hash
  proposer : PartyId
  title : String
  description : String
  status : ProposalStatus
  yesPower : U128
  noPower : U128
  deadlineHeight : UInt64
  deriving DecidableEq

instance : Serialize Proposal where
  toJson proposal := .obj
    [("id", toJson proposal.id), ("proposer", toJson proposal.proposer),
      ("title", toJson proposal.title), ("description", toJson proposal.description),
      ("status", toJson proposal.status), ("yes_power", toJson proposal.yesPower),
      ("no_power", toJson proposal.noPower), ("deadline_height", toJson proposal.deadlineHeight)]
  toJson_injective := by
    intro left right same
    cases left
    cases right
    simpa using same

inductive StakingEvent where
  | staked (who : PartyId) (amount totalSelf : U128)
  | unstaked (who : PartyId) (amount totalSelf : U128)
  | delegated (delegator validator : PartyId) (amount : U128)
  | undelegated (delegator validator : PartyId) (amount : U128)
  | proposalOpened (proposalId : Hash) (proposer : PartyId) (title : String)
      (deadlineHeight : UInt64)
  | voted (proposalId : Hash) (voter : PartyId) (approve : Bool) (power : U128)
  | proposalFinalized (proposalId : Hash) (status : ProposalStatus) (yesPower noPower : U128)
  | slashed (offender : PartyId) (burned remainingSelf : U128)
  | rewardsFunded (funder : PartyId) (amount : U128)
  | rewardsClaimed (who : PartyId) (amount : U128)
  deriving DecidableEq

namespace StakingEvent

/-- The `kind` tag of a variant. -/
def tag : StakingEvent → String
  | .staked .. => "staked"
  | .unstaked .. => "unstaked"
  | .delegated .. => "delegated"
  | .undelegated .. => "undelegated"
  | .proposalOpened .. => "proposal_opened"
  | .voted .. => "voted"
  | .proposalFinalized .. => "proposal_finalized"
  | .slashed .. => "slashed"
  | .rewardsFunded .. => "rewards_funded"
  | .rewardsClaimed .. => "rewards_claimed"

def fields : StakingEvent → List (String × Json)
  | .staked who amount totalSelf =>
      [("who", toJson who), ("amount", toJson amount), ("total_self", toJson totalSelf)]
  | .unstaked who amount totalSelf =>
      [("who", toJson who), ("amount", toJson amount), ("total_self", toJson totalSelf)]
  | .delegated delegator validator amount =>
      [("delegator", toJson delegator), ("validator", toJson validator), ("amount", toJson amount)]
  | .undelegated delegator validator amount =>
      [("delegator", toJson delegator), ("validator", toJson validator), ("amount", toJson amount)]
  | .proposalOpened proposalId proposer title deadlineHeight =>
      [("proposal_id", toJson proposalId), ("proposer", toJson proposer), ("title", toJson title),
        ("deadline_height", toJson deadlineHeight)]
  | .voted proposalId voter approve power =>
      [("proposal_id", toJson proposalId), ("voter", toJson voter), ("approve", toJson approve),
        ("power", toJson power)]
  | .proposalFinalized proposalId status yesPower noPower =>
      [("proposal_id", toJson proposalId), ("status", toJson status),
        ("yes_power", toJson yesPower), ("no_power", toJson noPower)]
  | .slashed offender burned remainingSelf =>
      [("offender", toJson offender), ("burned", toJson burned),
        ("remaining_self", toJson remainingSelf)]
  | .rewardsFunded funder amount => [("funder", toJson funder), ("amount", toJson amount)]
  | .rewardsClaimed who amount => [("who", toJson who), ("amount", toJson amount)]

instance : Serialize StakingEvent where
  toJson event := .obj (("kind", .str event.tag) :: event.fields)
  toJson_injective := by
    intro left right same
    simp only [Json.obj.injEq, List.cons.injEq, Prod.mk.injEq, true_and, Json.str.injEq] at same
    obtain ⟨tags, fields⟩ := same
    cases left <;> cases right <;> simp_all [tag, StakingEvent.fields]

end StakingEvent

/-- The last eight bytes of a payload are a height; shorter payloads have height 0. -/
def splitHeight (payload : List UInt8) : List UInt8 × UInt64 :=
  if payload.length < 8 then (payload, 0)
  else
    (payload.take (payload.length - 8),
      UInt64.ofNat (Bytes.ofLeBytes (payload.drop (payload.length - 8))))

namespace StakingPrism

open TokenPrism (amountAt burnFrom moveBalance nativeTokenId)

/-! ### State layout -/

def stakePrefix : String := "staking/stake/"
def delegPrefix : String := "staking/delegation/"
def proposalPrefix : String := "gov/proposal/"
def votePrefix : String := "gov/vote/"
def slashPrefix : String := "staking/slashed/"
def rewardAccKey : String := "staking/reward_acc"
def rewardDebtPrefix : String := "staking/reward_debt/"
def lockedPrefix : String := "staking/locked/"
def totalStakeKey : String := "staking/total_stake"

def accScale : U128 := 1000000000000
def defaultSlashBps : UInt16 := 2000

def escrowAccount : PartyId := ⟨"staking/escrow"⟩
def rewardPoolAccount : PartyId := ⟨"staking/rewards"⟩

def stakeKey (party : PartyId) : String := stakePrefix ++ party.name

def delegKey (delegator validator : PartyId) : String :=
  delegPrefix ++ delegator.name ++ "/" ++ validator.name

def proposalKey (id : Hash) : String := proposalPrefix ++ id.toHex

def voteKey (id : Hash) (voter : PartyId) : String := votePrefix ++ id.toHex ++ "/" ++ voter.name

def slashKey (offence : Hash) : String := slashPrefix ++ offence.toHex

def rewardDebtKey (who : PartyId) : String := rewardDebtPrefix ++ who.name

def lockedKey (who : PartyId) : String := lockedPrefix ++ who.name

section Handlers

variable [SerdeJson]

/-! ### Reading and writing -/

def readU128 (state : StateTree) (key : String) : U128 := amountAt state key

def writeU128 (key : String) (value : U128) : PrismM Unit :=
  modify fun state => state.putJson key value.toText

def lockedOf (state : StateTree) (who : PartyId) : U128 := readU128 state (lockedKey who)

def totalStake (state : StateTree) : U128 := readU128 state totalStakeKey

def rewardAcc (state : StateTree) : U128 := readU128 state rewardAccKey

def delegation (state : StateTree) (delegator validator : PartyId) : U128 :=
  readU128 state (delegKey delegator validator)

def setDelegation (delegator validator : PartyId) (value : U128) : PrismM Unit :=
  writeU128 (delegKey delegator validator) value

def stakeOf (state : StateTree) (who : PartyId) : StakeRecord :=
  (state.getJson? StakeRecord (stakeKey who)).getD (StakeRecord.empty who)

def saveStake (record : StakeRecord) : PrismM Unit :=
  modify fun state => state.putJson (stakeKey record.owner) record

/-! ### Rewards and locks -/

/-- `power.saturating_mul(acc) / ACC_SCALE`. -/
def entitled (power acc : U128) : U128 := power.saturatingMul acc / accScale

def pendingReward (state : StateTree) (who : PartyId) (power : U128) : U128 :=
  (entitled power (rewardAcc state)).saturatingSub (readU128 state (rewardDebtKey who))

def settleRewardDebt (who : PartyId) (power : U128) : PrismM Unit := do
  let acc := rewardAcc (← get)
  writeU128 (rewardDebtKey who) (entitled power acc)

variable [Blake3]

def harvestPending (who : PartyId) : PrismM U128 := do
  let locked := lockedOf (← get) who
  let pending := pendingReward (← get) who locked
  if 0 < pending then
    moveBalance nativeTokenId rewardPoolAccount who pending
  return pending

omit [Blake3] in
def addTotalStake (delta : Int) : PrismM Unit := do
  let cur := I128.ofU128 (totalStake (← get))
  writeU128 totalStakeKey (I128.addClamped cur delta)

def updateLock (who : PartyId) (delta : Int) : PrismM Unit := do
  let _ ← harvestPending who
  let cur := I128.ofU128 (lockedOf (← get) who)
  let next := I128.addClamped cur delta
  writeU128 (lockedKey who) next
  addTotalStake delta
  settleRewardDebt who next

omit [SerdeJson] in
def event (command : Command) (payload : StakingEvent) : Event :=
  { sourceCommand := command.id
    prism := "staking"
    visibility := command.visibility
    payload := toVec payload }

/-! ### Stake and delegation -/

def stake (command : Command) (amount : U128) : PrismM PrismOutput := do
  let me := command.submitter
  if amount = 0 then
    throw (.invalidPayload "amount must be > 0")
  moveBalance nativeTokenId me escrowAccount amount
  let record := stakeOf (← get) me
  let record := { record with selfBonded := record.selfBonded + amount }
  saveStake record
  updateLock me (I128.ofU128 amount)
  return .single (event command (.staked me amount record.selfBonded)) 3000

def unstake (command : Command) (amount : U128) : PrismM PrismOutput := do
  let me := command.submitter
  let record := stakeOf (← get) me
  if record.selfBonded < amount then
    throw (.limitExceeded "not enough self-bonded stake")
  moveBalance nativeTokenId escrowAccount me amount
  let record := { record with selfBonded := record.selfBonded - amount }
  saveStake record
  updateLock me (I128.wrap (-I128.ofU128 amount))
  return .single (event command (.unstaked me amount record.selfBonded)) 3000

def delegate (command : Command) (validator : PartyId) (amount : U128) : PrismM PrismOutput := do
  let me := command.submitter
  if amount = 0 then
    throw (.invalidPayload "amount must be > 0")
  moveBalance nativeTokenId me escrowAccount amount
  let cur := delegation (← get) me validator
  setDelegation me validator (cur + amount)
  let record := stakeOf (← get) validator
  saveStake { record with delegatedIn := record.delegatedIn + amount }
  updateLock me (I128.ofU128 amount)
  return .single (event command (.delegated me validator amount)) 3500

def undelegate (command : Command) (validator : PartyId) (amount : U128) :
    PrismM PrismOutput := do
  let me := command.submitter
  let cur := delegation (← get) me validator
  if cur < amount then
    throw (.limitExceeded "not enough delegated")
  moveBalance nativeTokenId escrowAccount me amount
  setDelegation me validator (cur - amount)
  let record := stakeOf (← get) validator
  saveStake { record with delegatedIn := record.delegatedIn.saturatingSub amount }
  updateLock me (I128.wrap (-I128.ofU128 amount))
  return .single (event command (.undelegated me validator amount)) 3500

def fundRewards (command : Command) (amount : U128) : PrismM PrismOutput := do
  let me := command.submitter
  if amount = 0 then
    throw (.invalidPayload "amount must be > 0")
  let total := totalStake (← get)
  if total = 0 then
    throw (.invalidPayload "no stake to reward yet")
  moveBalance nativeTokenId me rewardPoolAccount amount
  let acc := rewardAcc (← get)
  let added := amount.saturatingMul accScale / total
  writeU128 rewardAccKey (acc.saturatingAdd added)
  return .single (event command (.rewardsFunded me amount)) 2000

def claimRewards (command : Command) : PrismM PrismOutput := do
  let me := command.submitter
  let claimed ← harvestPending me
  let locked := lockedOf (← get) me
  settleRewardDebt me locked
  return .single (event command (.rewardsClaimed me claimed)) 2500

/-! ### Governance -/

def proposalId (command : Command) (title : String) : Hash :=
  Hash.commit "gov/proposal"
    [command.submitter.bytes, utf8 title, leBytes 8 command.nonce.toNat]

def propose (command : Command) (height : UInt64) (title description : String)
    (votingPeriod : UInt64) : PrismM PrismOutput := do
  let me := command.submitter
  if (stakeOf (← get) me).selfBonded = 0 then
    throw (.unauthorized "only bonded stakers can open proposals")
  let id := proposalId command title
  if (← get).contains (proposalKey id) then
    throw (.invalidPayload "proposal already exists")
  let deadline := height + max votingPeriod 1
  let proposal : Proposal :=
    { id := id
      proposer := me
      title := title
      description := description
      status := .active
      yesPower := 0
      noPower := 0
      deadlineHeight := deadline }
  modify fun state => state.putJson (proposalKey id) proposal
  return .single (event command (.proposalOpened id me title deadline)) 5000

omit [Blake3] in
def loadProposal (id : Hash) : PrismM Proposal := do
  match (← get).getJson Proposal (proposalKey id) with
  | .error error => throw (.internal error.text)
  | .ok none => throw (.notFound "proposal")
  | .ok (some proposal) => return proposal

def vote (command : Command) (height : UInt64) (proposalId : Hash) (approve : Bool) :
    PrismM PrismOutput := do
  let me := command.submitter
  let proposal ← loadProposal proposalId
  if proposal.status ≠ .active then
    throw (.invalidPayload "proposal not active")
  if proposal.deadlineHeight < height then
    throw (.invalidPayload "voting period ended")
  if (← get).contains (voteKey proposalId me) then
    throw (.invalidPayload "already voted")
  let power := (stakeOf (← get) me).votingPower
  if power = 0 then
    throw (.unauthorized "no voting power")
  let proposal :=
    if approve then { proposal with yesPower := proposal.yesPower + power }
    else { proposal with noPower := proposal.noPower + power }
  modify fun state => state.putJson (voteKey proposalId me) approve
  modify fun state => state.putJson (proposalKey proposalId) proposal
  return .single (event command (.voted proposalId me approve power)) 2000

def finalize (command : Command) (height : UInt64) (proposalId : Hash) : PrismM PrismOutput := do
  let proposal ← loadProposal proposalId
  if proposal.status ≠ .active then
    throw (.invalidPayload "already finalized")
  if height ≤ proposal.deadlineHeight then
    throw (.invalidPayload "voting period not over")
  let proposal := { proposal with
    status := if proposal.noPower < proposal.yesPower then .passed else .rejected }
  modify fun state => state.putJson (proposalKey proposalId) proposal
  return .single (event command
    (.proposalFinalized proposalId proposal.status proposal.yesPower proposal.noPower)) 2500

/-! ### Slashing -/

/-- What both slashing operations end with: an offence is punished once, by a share
of the offender's own bond. -/
def punish (command : Command) (offence : Hash) (offender : PartyId) : PrismM PrismOutput := do
  if (← get).contains (slashKey offence) then
    throw (.invalidPayload "offence already slashed")
  let record := stakeOf (← get) offender
  let burned := record.selfBonded * Fin.ofNat (2 ^ 128) defaultSlashBps.toNat /
    Fin.ofNat (2 ^ 128) 10000
  let remaining := record.selfBonded - burned
  if 0 < burned then
    tryCatch (burnFrom nativeTokenId escrowAccount burned)
      fun _ => throw (.internal "slash burn failed")
    saveStake { record with selfBonded := remaining }
    updateLock offender (I128.wrap (-I128.ofU128 burned))
  modify fun state => state.putJson (slashKey offence) true
  return .single (event command (.slashed offender burned remaining)) 7000

omit [SerdeJson] [Blake3] in
/-- `hex::decode(text.trim_start_matches("0x"))` with the error of the field. -/
def decodeHex (text error : String) : PrismM (List UInt8) :=
  match Bytes.hexDecode (Bytes.trimHex text.toList) with
  | none => throw (.invalidPayload error)
  | some bytes => return bytes

variable [Ed25519]

omit [SerdeJson] [Blake3] in
/-- `verify_bytes(..).map_err(|_| Unauthorized(error))`. -/
def requireSignature (publicKey message signature : List UInt8) (error : String) :
    PrismM Unit :=
  match verifyBytes publicKey message signature with
  | .error _ => throw (.unauthorized error)
  | .ok () => return ()

omit [SerdeJson] in
/-- Both orders of two messages are one offence. -/
def equivocationOffence (offender : PartyId) (messageA messageB : List UInt8) : Hash :=
  if messageA ≤ messageB then
    Hash.commit "staking/equivocation" [offender.bytes, messageA, messageB]
  else Hash.commit "staking/equivocation" [offender.bytes, messageB, messageA]

def slash (command : Command) (proof : EquivocationProof) : PrismM PrismOutput := do
  let publicKey ← decodeHex proof.publicKey "bad public key hex"
  let messageA ← decodeHex proof.messageA "bad message_a hex"
  let messageB ← decodeHex proof.messageB "bad message_b hex"
  let signatureA ← decodeHex proof.signatureA "bad signature_a hex"
  let signatureB ← decodeHex proof.signatureB "bad signature_b hex"
  if messageA = messageB then
    throw (.invalidPayload "messages are identical — not equivocation")
  requireSignature publicKey messageA signatureA "signature_a invalid"
  requireSignature publicKey messageB signatureB "signature_b invalid"
  punish command (equivocationOffence proof.offender messageA messageB) proof.offender

omit [SerdeJson] [Blake3] in
/-- The closure `verify_stmt`: a stakeholder's signature over the decoded root. -/
def verifyStmt (envelope : PrivateEnvelope) (statement : AttestationStatement) :
    PrismM Unit := do
  if ¬ envelope.stakeholders.contains statement.party then
    throw (.unauthorized "attester is not a stakeholder of this confidential tx")
  let rootBytes ← decodeHex statement.root "bad root hex"
  match exactly 32 rootBytes with
  | none => throw (.invalidPayload "root must be 32 bytes")
  | some root =>
      let expected := attestationMessage envelope.commitment ⟨root⟩ statement.party
      let publicKey ← decodeHex statement.publicKey "bad public key hex"
      let signature ← decodeHex statement.signature "bad signature hex"
      requireSignature publicKey expected signature
        "attestation signature invalid for this commitment"

omit [SerdeJson] [Blake3] in
/-- The loop over the majority statements; roots are compared as texts. -/
def checkMajority (envelope : PrivateEnvelope) (offender : PartyId) :
    List AttestationStatement → List PartyId → Option String → PrismM (Option String)
  | [], _, canonical => return canonical
  | statement :: rest, seen, canonical => do
      verifyStmt envelope statement
      if seen.contains statement.party then
        throw (.invalidPayload "duplicate party in majority set")
      if statement.party = offender then
        throw (.invalidPayload "offender cannot be in the majority set")
      match canonical with
      | none =>
          checkMajority envelope offender rest (seen ++ [statement.party]) (some statement.root)
      | some root =>
          if root ≠ statement.root then
            throw (.invalidPayload "majority set does not agree on one root")
          checkMajority envelope offender rest (seen ++ [statement.party]) (some root)

omit [SerdeJson] in
def quorumOffence (proof : QuorumFraudProof) : Hash :=
  Hash.commit "staking/quorum-fraud"
    [proof.offender.bytes, proof.envelope.commitment.asBytes, utf8 proof.offenderStmt.root]

def slashQuorum (command : Command) (proof : QuorumFraudProof) : PrismM PrismOutput := do
  if ¬ proof.envelope.verifyCommitment then
    throw (.invalidPayload "envelope commitment does not bind its contents")
  let count := proof.envelope.stakeholders.length
  if proof.offenderStmt.party ≠ proof.offender then
    throw (.invalidPayload "offender statement party mismatch")
  verifyStmt proof.envelope proof.offenderStmt
  match ← checkMajority proof.envelope proof.offender proof.majority [] none with
  | none => throw (.invalidPayload "empty majority set")
  | some canonical =>
      if proof.offenderStmt.root = canonical then
        throw (.invalidPayload "offender agrees with the canonical root — nothing to slash")
      if proof.majority.length < count / 2 + 1 then
        throw (.invalidPayload "majority set does not meet the quorum threshold")
      punish command (quorumOffence proof) proof.offender

/-! ### Dispatch -/

def execute (command : Command) (height : UInt64) : StakingCommand → PrismM PrismOutput
  | .stake amount => stake command amount
  | .unstake amount => unstake command amount
  | .delegate validator amount => delegate command validator amount
  | .undelegate validator amount => undelegate command validator amount
  | .propose title description votingPeriod => propose command height title description votingPeriod
  | .vote proposalId approve => vote command height proposalId approve
  | .finalize proposalId => finalize command height proposalId
  | .slash proof => slash command proof
  | .slashQuorum proof => slashQuorum command proof
  | .fundRewards amount => fundRewards command amount
  | .claimRewards => claimRewards command

def handle (command : Command) : PrismM PrismOutput :=
  let (body, height) := splitHeight command.payload
  match fromSlice StakingCommand body with
  | .error text => throw (.invalidPayload text)
  | .ok operation => execute command height operation

def prism : Prism :=
  { name := "staking"
    handle := handle }

omit [Blake3] [Ed25519] in
def votingPowerOf (state : StateTree) (who : PartyId) : U128 := (stakeOf state who).votingPower

omit [Blake3] [Ed25519] in
def pendingRewardsOf (state : StateTree) (who : PartyId) : U128 :=
  pendingReward state who (lockedOf state who)

end Handlers

end StakingPrism

end Veilux
