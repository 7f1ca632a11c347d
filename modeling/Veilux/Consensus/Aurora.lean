/-
The Aurora engine of `consensus/src/lib.rs`: proposal checks, vote intake from
the network and from the local validator, and the tally that commits a height.
-/

import Veilux.Consensus.Vote

namespace Veilux

inductive ConsensusError where
  | noValidators
  | wrongProposer (expected got : String)
  | proposerNotValidator (name : String)
  | parentMismatch
  | badHeight (expected got : Nat)
  | eventsRootMismatch
  | badVoteSignature (text : String)
  | vote (error : VoteError)
  deriving DecidableEq

inductive CommitOutcome where
  | pending
  | alreadyCommitted
  | committed (height : Nat) (blockHash : Hash) (committers : List PartyId) (power : UInt64)
  deriving DecidableEq

structure Aurora where
  validators : ValidatorSet
  me : Option PartyId
  rounds : AList (fun _ : Nat × UInt32 => VoteSet)
  committed : AList (fun _ : Nat => Hash)

namespace Aurora

def new (validators : ValidatorSet) (me : Option PartyId) : Aurora :=
  { validators := validators
    me := me
    rounds := ∅
    committed := ∅ }

def proposerFor (aurora : Aurora) (height : Nat) (round : UInt32) : Option PartyId :=
  aurora.validators.proposerFor height round

def isLocalProposer (aurora : Aurora) (height : Nat) (round : UInt32) : Bool :=
  match aurora.me, aurora.proposerFor height round with
  | some me, some proposer => decide (me = proposer)
  | _, _ => false

def verifyProposal [Blake3] (aurora : Aurora) (block : Block) (parentHash : Hash)
    (round : UInt32) : Except ConsensusError Unit :=
  match aurora.proposerFor block.height round with
  | none => .error .noValidators
  | some expected =>
      if block.proposer ≠ expected then
        .error (.wrongProposer expected.name block.proposer.name)
      else if ¬ aurora.validators.isValidator block.proposer then
        .error (.proposerNotValidator block.proposer.name)
      else if block.parent ≠ parentHash then .error .parentMismatch
      else if block.computeEventsRoot ≠ block.eventsRoot then .error .eventsRootMismatch
      else .ok ()

/-- The vote set of a round, as `entry(..).or_default()` finds it. -/
def votesAt (aurora : Aurora) (height : Nat) (round : UInt32) : VoteSet :=
  (aurora.rounds.lookup (height, round)).getD VoteSet.new

def tallyVote (aurora : Aurora) (vote : Vote) : Except ConsensusError CommitOutcome × Aurora :=
  if (aurora.committed.lookup vote.height).isSome then (.ok .alreadyCommitted, aurora)
  else
    let quorum := aurora.validators.quorumThreshold
    let added := (aurora.votesAt vote.height vote.round).add vote aurora.validators
    let aurora := { aurora with
      rounds := aurora.rounds.insert (vote.height, vote.round) added.2 }
    match added.1 with
    | .error error => (.error (.vote error), aurora)
    | .ok false => (.ok .pending, aurora)
    | .ok true =>
        if vote.kind = .precommit then
          let power := added.2.precommitPower vote.blockHash aurora.validators
          if quorum ≤ power then
            (.ok (.committed vote.height vote.blockHash
              (added.2.precommitters vote.blockHash) power),
              { aurora with committed := aurora.committed.insert vote.height vote.blockHash })
          else (.ok .pending, aurora)
        else (.ok .pending, aurora)

/-- A vote from the network: known voter, signature present and valid under the
registered key. -/
def addVote [Ed25519] (aurora : Aurora) (vote : Vote) :
    Except ConsensusError CommitOutcome × Aurora :=
  match aurora.validators.get vote.voter with
  | none => (.error (.vote (.notValidator vote.voter.name)), aurora)
  | some validator =>
      if vote.signature.isEmpty then
        (.error (.badVoteSignature "missing vote signature"), aurora)
      else
        match verifyBytes validator.publicKey vote.signingBytes vote.signature with
        | .error error => (.error (.badVoteSignature error.text), aurora)
        | .ok () => aurora.tallyVote vote

/-- A vote of the local validator, not yet signed. -/
def addLocalVote (aurora : Aurora) (vote : Vote) :
    Except ConsensusError CommitOutcome × Aurora :=
  if aurora.me = some vote.voter then aurora.tallyVote vote
  else (.error (.badVoteSignature "add_local_vote called for a non-local voter"), aurora)

def hasPrevoteQuorum (aurora : Aurora) (height : Nat) (round : UInt32) (block : Hash) : Bool :=
  match aurora.rounds.lookup (height, round) with
  | none => false
  | some votes =>
      decide (aurora.validators.quorumThreshold ≤ votes.prevotePower block aurora.validators)

def isCommitted (aurora : Aurora) (height : Nat) : Option Hash := aurora.committed.lookup height

/-! ### What the tally can do -/

/-- The vote sets after a vote was offered to its round. -/
def roundsWith (aurora : Aurora) (vote : Vote) : AList (fun _ : Nat × UInt32 => VoteSet) :=
  aurora.rounds.insert (vote.height, vote.round)
    ((aurora.votesAt vote.height vote.round).add vote aurora.validators).2

/-- A tally leaves the engine alone, files the vote, or files it and commits. -/
inductive Tallied (aurora : Aurora) (vote : Vote) :
    Except ConsensusError CommitOutcome × Aurora → Prop
  | skipped (closed : (aurora.committed.lookup vote.height).isSome = true) :
      Tallied aurora vote (.ok .alreadyCommitted, aurora)
  | filed (result : Except ConsensusError CommitOutcome)
      (quiet : ∀ height block committers power,
        result ≠ .ok (.committed height block committers power)) :
      Tallied aurora vote (result, { aurora with rounds := aurora.roundsWith vote })
  | decided (committers : List PartyId) (power : UInt64)
      (pending : aurora.committed.lookup vote.height = none)
      (isPrecommit : vote.kind = .precommit)
      (quorum : aurora.validators.quorumThreshold ≤
        (((aurora.votesAt vote.height vote.round).add vote aurora.validators).2).precommitPower
          vote.blockHash aurora.validators) :
      Tallied aurora vote
        (.ok (.committed vote.height vote.blockHash committers power),
          { aurora with
            rounds := aurora.roundsWith vote
            committed := aurora.committed.insert vote.height vote.blockHash })

theorem tallyVote_tallied (aurora : Aurora) (vote : Vote) :
    Tallied aurora vote (aurora.tallyVote vote) := by
  unfold tallyVote
  split
  · rename_i closed
    exact .skipped closed
  · rename_i pending
    dsimp only
    split
    · exact .filed _ (by simp)
    · exact .filed _ (by simp)
    · split
      · rename_i isPrecommit
        split
        · rename_i quorum
          exact .decided _ _ (Option.not_isSome_iff_eq_none.mp pending) isPrecommit quorum
        · exact .filed _ (by simp)
      · exact .filed _ (by simp)

/-- A vote from the network is tallied only behind its voter's registered key. -/
theorem addVote_cases [Ed25519] (aurora : Aurora) (vote : Vote) :
    (∃ error, aurora.addVote vote = (.error error, aurora)) ∨
    (∃ validator, aurora.validators.get vote.voter = some validator ∧
      verifyBytes validator.publicKey vote.signingBytes vote.signature = .ok () ∧
      aurora.addVote vote = aurora.tallyVote vote) := by
  unfold addVote
  cases found : aurora.validators.get vote.voter with
  | none => exact .inl ⟨_, rfl⟩
  | some validator =>
      dsimp only
      split
      · exact .inl ⟨_, rfl⟩
      · split
        · exact .inl ⟨_, rfl⟩
        · rename_i verified
          exact .inr ⟨validator, rfl, verified, rfl⟩

theorem addLocalVote_cases (aurora : Aurora) (vote : Vote) :
    (∃ error, aurora.addLocalVote vote = (.error error, aurora)) ∨
    (aurora.me = some vote.voter ∧ aurora.addLocalVote vote = aurora.tallyVote vote) := by
  unfold addLocalVote
  split
  · rename_i isLocal
    exact .inr ⟨isLocal, rfl⟩
  · exact .inl ⟨_, rfl⟩

end Aurora

end Veilux
