/-
The round machine of `node/src/driver.rs`.  A handler works on the machine
itself, the shared Aurora and the actions collected so far; a `Turn` holds the
three, and every handler returns the turn it ends with.
-/

import Veilux.Consensus.Aurora

namespace Veilux

inductive Outbound where
  | proposal (round : UInt32) (block : Block)
  | vote (vote : Vote)

inductive Action where
  | broadcast (message : Outbound)
  | commit (blockHash : Hash)
  | none

inductive Phase where
  | idle
  | prevoted
  | precommitted
  | committed
  deriving DecidableEq

structure RoundMachine where
  height : Nat
  round : UInt32
  phase : Phase
  seenBlocks : AList (fun _ : Hash => Block)
  ownBlock : Option Hash
  myVotes : List Vote

namespace RoundMachine

def newRound (height : Nat) (round : UInt32) : RoundMachine :=
  { height := height
    round := round
    phase := .idle
    seenBlocks := ∅
    ownBlock := none
    myVotes := [] }

def block (machine : RoundMachine) (hash : Hash) : Option Block := machine.seenBlocks.lookup hash

def ownProposedBlock (machine : RoundMachine) : Option Block :=
  machine.ownBlock.bind machine.seenBlocks.lookup

def makeVote (machine : RoundMachine) (me : PartyId) (blockHash : Hash) (kind : VoteKind) :
    Vote :=
  { height := machine.height
    round := machine.round
    blockHash := blockHash
    voter := me
    kind := kind
    signature := [] }

end RoundMachine

structure Turn where
  machine : RoundMachine
  aurora : Aurora
  actions : List Action

namespace Turn

/-- A handler starts without actions. -/
def start (machine : RoundMachine) (aurora : Aurora) : Turn :=
  { machine := machine
    aurora := aurora
    actions := [] }

/-- `seen_blocks.insert`. -/
def storeBlock (turn : Turn) (hash : Hash) (block : Block) : Turn :=
  { turn with
    machine := { turn.machine with seenBlocks := turn.machine.seenBlocks.insert hash block } }

def enter (turn : Turn) (phase : Phase) : Turn :=
  { turn with machine := { turn.machine with phase := phase } }

def castOwnVote (turn : Turn) (me : PartyId) (blockHash : Hash) (kind : VoteKind) :
    Option CommitOutcome × Turn :=
  let vote := turn.machine.makeVote me blockHash kind
  let added := turn.aurora.addLocalVote vote
  (added.1.toOption,
    { machine := { turn.machine with myVotes := turn.machine.myVotes ++ [vote] }
      aurora := added.2
      actions := turn.actions ++ [.broadcast (.vote vote)] })

def collectCommit (turn : Turn) (outcome : CommitOutcome) : Turn :=
  match outcome with
  | .committed _ blockHash _ _ =>
      if turn.machine.phase ≠ .committed then
        let turn := turn.enter .committed
        { turn with actions := turn.actions ++ [.commit blockHash] }
      else turn
  | _ => turn

/-- The precommit behind a prevote quorum; `on_vote` repeats the same lines. -/
def tryAdvanceAfterPrevote (turn : Turn) (me : PartyId) (blockHash : Hash) : Turn :=
  if turn.machine.phase = .prevoted ∧
      turn.aurora.hasPrevoteQuorum turn.machine.height turn.machine.round blockHash = true ∧
      turn.aurora.validators.isValidator me = true then
    match (turn.enter .precommitted).castOwnVote me blockHash .precommit with
    | (some outcome, turn) => turn.collectCommit outcome
    | (none, turn) => turn
  else turn

/-- `if actions.is_empty() { actions.push(Action::None) }`. -/
def orNone (turn : Turn) : Turn :=
  if turn.actions.isEmpty then { turn with actions := [.none] } else turn

/-- The prevote of an idle validator for a block it has just stored. -/
def prevoteFor (turn : Turn) (me : PartyId) (hash : Hash) : Turn :=
  (((turn.enter .prevoted).castOwnVote me hash .prevote).2).tryAdvanceAfterPrevote me hash

end Turn

namespace RoundMachine

section Handlers

variable [Blake3]

def onLocalProposal (machine : RoundMachine) (aurora : Aurora) (block : Block) (me : PartyId) :
    Turn :=
  let hash := block.hash
  let turn := (Turn.start machine aurora).storeBlock hash block
  let turn := { turn with
    machine := { turn.machine with ownBlock := some hash }
    actions := [.broadcast (.proposal machine.round block)] }
  if aurora.validators.isValidator me = true ∧ machine.phase = .idle then turn.prevoteFor me hash
  else turn

def onProposal (machine : RoundMachine) (aurora : Aurora) (block : Block) (me : PartyId)
    (parentHash : Hash) : Turn :=
  let start := Turn.start machine aurora
  if block.height ≠ machine.height then { start with actions := [.none] }
  else
    match aurora.verifyProposal block parentHash machine.round with
    | .error _ => { start with actions := [.none] }
    | .ok () =>
        let turn := start.storeBlock block.hash block
        if aurora.validators.isValidator me = true ∧ machine.phase = .idle then
          turn.prevoteFor me block.hash
        else { turn with actions := [.none] }

variable [Ed25519]

omit [Blake3] in
def onVote (machine : RoundMachine) (aurora : Aurora) (vote : Vote) (me : PartyId) : Turn :=
  let start := Turn.start machine aurora
  if vote.height ≠ machine.height then { start with actions := [.none] }
  else
    match aurora.addVote vote with
    | (.error _, aurora) => { start with aurora := aurora, actions := [.none] }
    | (.ok outcome, aurora) =>
        let turn := { start with aurora := aurora }.collectCommit outcome
        let turn :=
          if vote.kind = .prevote then turn.tryAdvanceAfterPrevote me vote.blockHash else turn
        turn.orNone

end Handlers

end RoundMachine

/-! ### Checking an invariant of a turn piece by piece -/

namespace Aurora

/-- A reported commit is of the vote just tallied, a precommit. -/
theorem tallyVote_committed_eq {aurora : Aurora} {vote : Vote} {height : Nat} {block : Hash}
    {committers : List PartyId} {power : UInt64}
    (reported : (aurora.tallyVote vote).1 = .ok (.committed height block committers power)) :
    height = vote.height ∧ block = vote.blockHash ∧ vote.kind = .precommit := by
  have tallied := tallyVote_tallied aurora vote
  generalize aurora.tallyVote vote = result at tallied reported
  cases tallied with
  | skipped closed => cases reported
  | filed result quiet => exact absurd reported (quiet _ _ _ _)
  | decided committers power pending isPrecommit quorum =>
      cases reported
      exact ⟨rfl, rfl, isPrecommit⟩

theorem addVote_committed_eq [Ed25519] {aurora : Aurora} {vote : Vote} {height : Nat}
    {block : Hash} {committers : List PartyId} {power : UInt64}
    (reported : (aurora.addVote vote).1 = .ok (.committed height block committers power)) :
    height = vote.height ∧ block = vote.blockHash ∧ vote.kind = .precommit := by
  rcases addVote_cases aurora vote with ⟨error, rejected⟩ | ⟨_, _, _, added⟩
  · rw [rejected] at reported
    cases reported
  · rw [added] at reported
    exact tallyVote_committed_eq reported

theorem addLocalVote_committed_eq {aurora : Aurora} {vote : Vote} {height : Nat}
    {block : Hash} {committers : List PartyId} {power : UInt64}
    (reported : (aurora.addLocalVote vote).1 = .ok (.committed height block committers power)) :
    height = vote.height ∧ block = vote.blockHash ∧ vote.kind = .precommit := by
  rcases addLocalVote_cases aurora vote with ⟨error, rejected⟩ | ⟨_, added⟩
  · rw [rejected] at reported
    cases reported
  · rw [added] at reported
    exact tallyVote_committed_eq reported

end Aurora

theorem toOption_eq_some {ε α : Type} {result : Except ε α} {value : α}
    (found : result.toOption = some value) : result = .ok value := by
  cases result with
  | error error => cases found
  | ok other => exact congrArg Except.ok (Option.some.inj found)

namespace Turn

theorem collectCommit_preserves {holds : Turn → Prop} {turn : Turn} {outcome : CommitOutcome}
    (initially : holds turn)
    (finalized : ∀ height hash committers power,
      outcome = .committed height hash committers power → turn.machine.phase ≠ .committed →
      holds { turn.enter .committed with actions := turn.actions ++ [.commit hash] }) :
    holds (turn.collectCommit outcome) := by
  cases outcome with
  | pending => exact initially
  | alreadyCommitted => exact initially
  | committed height hash committers power =>
      unfold collectCommit
      dsimp only
      split
      · rename_i unfinished
        exact finalized height hash committers power rfl unfinished
      · exact initially

theorem orNone_preserves {holds : Turn → Prop} {turn : Turn}
    (silent : ∀ turn, turn.actions = [] → holds turn → holds { turn with actions := [.none] })
    (initially : holds turn) : holds turn.orNone := by
  unfold orNone
  split
  · rename_i empty
    exact silent turn (List.isEmpty_iff.mp empty) initially
  · exact initially

/-- A precommit is cast behind a prevote quorum of the machine's round, and may
complete the commit of its own block. -/
theorem tryAdvanceAfterPrevote_preserves {holds : Turn → Prop} {turn : Turn} {me : PartyId}
    {blockHash : Hash} (initially : holds turn)
    (precommitted : turn.machine.phase = .prevoted →
      turn.aurora.hasPrevoteQuorum turn.machine.height turn.machine.round blockHash = true →
      turn.aurora.validators.isValidator me = true →
      holds ((turn.enter .precommitted).castOwnVote me blockHash .precommit).2)
    (finalized : turn.machine.phase = .prevoted → ∀ height committers power,
      (turn.aurora.addLocalVote (turn.machine.makeVote me blockHash .precommit)).1 =
        .ok (.committed height blockHash committers power) →
      holds ((turn.enter .precommitted).castOwnVote me blockHash .precommit).2 →
      holds { ((turn.enter .precommitted).castOwnVote me blockHash .precommit).2.enter
          .committed with
        actions := turn.actions ++
          [.broadcast (.vote (turn.machine.makeVote me blockHash .precommit))] ++
          [.commit blockHash] }) :
    holds (turn.tryAdvanceAfterPrevote me blockHash) := by
  unfold tryAdvanceAfterPrevote
  split
  · rename_i ready
    have cast := precommitted ready.1 ready.2.1 ready.2.2
    change holds (match (((turn.enter .precommitted).castOwnVote me blockHash .precommit).1,
        ((turn.enter .precommitted).castOwnVote me blockHash .precommit).2) with
      | (some outcome, turn) => turn.collectCommit outcome
      | (none, turn) => turn)
    cases reported : ((turn.enter .precommitted).castOwnVote me blockHash .precommit).1 with
    | none => exact cast
    | some outcome =>
        apply collectCommit_preserves cast
        intro height hash committers power same _
        subst same
        have result : (turn.aurora.addLocalVote
            (turn.machine.makeVote me blockHash .precommit)).1 =
            .ok (.committed height hash committers power) :=
          toOption_eq_some reported
        have sameHash : hash = blockHash := (Aurora.addLocalVote_committed_eq result).2.1
        subst sameHash
        exact finalized ready.1 height committers power result cast
  · exact initially

end Turn

namespace RoundMachine

section Rules

variable {holds : Turn → Prop} {machine : RoundMachine} {aurora : Aurora} {me : PartyId}

theorem onLocalProposal_preserves [Blake3] {block : Block}
    (stored : holds
      { machine := { machine with
          seenBlocks := machine.seenBlocks.insert block.hash block
          ownBlock := some block.hash }
        aurora := aurora
        actions := [.broadcast (.proposal machine.round block)] })
    (prevote : ∀ turn, machine.phase = .idle → aurora.validators.isValidator me = true →
      turn.machine.phase = .idle → holds turn → holds (turn.prevoteFor me block.hash)) :
    holds (machine.onLocalProposal aurora block me) := by
  unfold onLocalProposal
  dsimp only
  split
  · rename_i ready
    exact prevote _ ready.2 ready.1 ready.2 stored
  · exact stored

theorem onProposal_preserves [Blake3] {block : Block} {parentHash : Hash}
    (ignored : holds
      { machine := machine
        aurora := aurora
        actions := [.none] })
    (stored : ∀ actions, actions = [] ∨ actions = [.none] → block.height = machine.height →
      aurora.verifyProposal block parentHash machine.round = .ok () →
      holds
        { machine := { machine with seenBlocks := machine.seenBlocks.insert block.hash block }
          aurora := aurora
          actions := actions })
    (prevote : ∀ turn, machine.phase = .idle → aurora.validators.isValidator me = true →
      block.height = machine.height →
      aurora.verifyProposal block parentHash machine.round = .ok () →
      turn.machine.phase = .idle → holds turn → holds (turn.prevoteFor me block.hash)) :
    holds (machine.onProposal aurora block me parentHash) := by
  unfold onProposal
  dsimp only
  split
  · exact ignored
  · rename_i sameHeight
    have height := Decidable.not_not.mp sameHeight
    split
    · exact ignored
    · rename_i verified
      split
      · rename_i ready
        exact prevote _ ready.2 ready.1 height verified ready.2
          (stored [] (.inl rfl) height verified)
      · exact stored [.none] (.inr rfl) height verified

theorem onVote_preserves [Ed25519] {vote : Vote}
    (ignored : holds
      { machine := machine
        aurora := aurora
        actions := [.none] })
    (rejected : vote.height = machine.height → holds
      { machine := machine
        aurora := (aurora.addVote vote).2
        actions := [.none] })
    (counted : vote.height = machine.height → holds
      { machine := machine
        aurora := (aurora.addVote vote).2
        actions := [] })
    (finalized : vote.height = machine.height → ∀ committers power,
      (aurora.addVote vote).1 = .ok (.committed vote.height vote.blockHash committers power) →
      machine.phase ≠ .committed →
      holds
        { machine := { machine with phase := .committed }
          aurora := (aurora.addVote vote).2
          actions := [.commit vote.blockHash] })
    (advanced : ∀ turn, vote.kind = .prevote → holds turn →
      holds (turn.tryAdvanceAfterPrevote me vote.blockHash))
    (silent : ∀ turn, turn.actions = [] → holds turn → holds { turn with actions := [.none] }) :
    holds (machine.onVote aurora vote me) := by
  unfold onVote
  dsimp only
  split
  · exact ignored
  · rename_i sameHeight
    have height := Decidable.not_not.mp sameHeight
    have collected : ∀ outcome, (aurora.addVote vote).1 = .ok outcome →
        holds (Turn.collectCommit
          { machine := machine
            aurora := (aurora.addVote vote).2
            actions := [] } outcome) := by
      intro outcome result
      apply Turn.collectCommit_preserves (counted height)
      intro reported hash committers power same unfinished
      subst same
      obtain ⟨rfl, rfl, _⟩ := Aurora.addVote_committed_eq result
      exact finalized height committers power result unfinished
    have failed := rejected height
    generalize aurora.addVote vote = added at collected failed
    obtain ⟨result, after⟩ := added
    cases result with
    | error error => exact failed
    | ok outcome =>
        have done := collected outcome rfl
        have advance : holds
            (if vote.kind = .prevote then
              (Turn.collectCommit
                { machine := machine
                  aurora := after
                  actions := [] } outcome).tryAdvanceAfterPrevote me vote.blockHash
              else Turn.collectCommit
                { machine := machine
                  aurora := after
                  actions := [] } outcome) := by
          split
          · rename_i isPrevote
            exact advanced _ isPrevote done
          · exact done
        exact Turn.orNone_preserves silent advance

end Rules

/-! ### The blocks a machine holds -/

end RoundMachine

namespace Turn

theorem tryAdvance_seenBlocks (turn : Turn) (me : PartyId) (hash : Hash) :
    (turn.tryAdvanceAfterPrevote me hash).machine.seenBlocks = turn.machine.seenBlocks := by
  let holds : Turn → Prop := fun after => after.machine.seenBlocks = turn.machine.seenBlocks
  change holds (turn.tryAdvanceAfterPrevote me hash)
  apply tryAdvanceAfterPrevote_preserves
  · rfl
  · exact fun _ _ _ => rfl
  · exact fun _ _ _ _ _ _ => rfl

theorem prevoteFor_seenBlocks (turn : Turn) (me : PartyId) (hash : Hash) :
    (turn.prevoteFor me hash).machine.seenBlocks = turn.machine.seenBlocks :=
  tryAdvance_seenBlocks _ me hash

end Turn

namespace RoundMachine

variable {machine : RoundMachine} {aurora : Aurora} {me : PartyId}

theorem onLocalProposal_seenBlocks [Blake3] (block : Block) :
    (machine.onLocalProposal aurora block me).machine.seenBlocks =
      machine.seenBlocks.insert block.hash block := by
  unfold onLocalProposal
  dsimp only
  split
  · rw [Turn.prevoteFor_seenBlocks]
    rfl
  · rfl

/-- A proposal is stored when it is for the machine's height and passes the checks. -/
theorem onProposal_seenBlocks [Blake3] (block : Block) (parentHash : Hash) :
    (machine.onProposal aurora block me parentHash).machine.seenBlocks = machine.seenBlocks ∨
    (block.height = machine.height ∧
      aurora.verifyProposal block parentHash machine.round = .ok () ∧
      (machine.onProposal aurora block me parentHash).machine.seenBlocks =
        machine.seenBlocks.insert block.hash block) := by
  unfold onProposal
  dsimp only
  split
  · exact .inl rfl
  · rename_i sameHeight
    split
    · exact .inl rfl
    · rename_i verified
      right
      refine ⟨Decidable.not_not.mp sameHeight, verified, ?_⟩
      split
      · rw [Turn.prevoteFor_seenBlocks]
        rfl
      · rfl

theorem onVote_seenBlocks [Ed25519] (vote : Vote) :
    (machine.onVote aurora vote me).machine.seenBlocks = machine.seenBlocks := by
  let holds : Turn → Prop := fun after => after.machine.seenBlocks = machine.seenBlocks
  change holds (machine.onVote aurora vote me)
  apply onVote_preserves
  · rfl
  · exact fun _ => rfl
  · exact fun _ => rfl
  · exact fun _ _ _ _ _ => rfl
  · exact fun turn _ held => (Turn.tryAdvance_seenBlocks turn me _).trans held
  · exact fun _ _ held => held

end RoundMachine

end Veilux
