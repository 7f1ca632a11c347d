/-
An honest validator never equivocates.  Heights and views of the machines that
follow one another increase lexicographically, a machine prevotes once when idle
and precommits once behind its prevote, and only votes that were cast are sent.
-/

import Veilux.Node.Shape

namespace Veilux

@[simp] theorem votesIn_append (front back : List Action) :
    votesIn (front ++ back) = votesIn front ++ votesIn back :=
  List.filterMap_append

@[simp] theorem votesIn_vote (vote : Vote) : votesIn [.broadcast (.vote vote)] = [vote] := rfl

@[simp] theorem votesIn_commit (hash : Hash) : votesIn [.commit hash] = [] := rfl

/-- The votes cast up to a machine's present phase. -/
structure Ballots (me : PartyId) (cast : List Vote) (machine : RoundMachine) : Prop where
  own : ∀ vote ∈ cast, vote.voter = me
  reached : ∀ vote ∈ cast, vote.height < machine.height ∨
    vote.height = machine.height ∧ vote.round.toNat ≤ machine.round.toNat
  idle : machine.phase = .idle → ∀ vote ∈ cast,
    ¬ (vote.height = machine.height ∧ vote.round = machine.round)
  prevoted : machine.phase = .prevoted → ∀ vote ∈ cast, vote.height = machine.height →
    vote.round = machine.round → vote.kind = .prevote
  unique : ∀ first ∈ cast, ∀ second ∈ cast, first.height = second.height →
    first.round = second.round → first.kind = second.kind → first.blockHash = second.blockHash
  mine : ∀ vote ∈ machine.myVotes, vote ∈ cast

namespace Ballots

variable {me : PartyId} {cast : List Vote} {machine : RoundMachine}

/-- A later machine starts without votes of its own round. -/
theorem newRound (ballots : Ballots me cast machine) {height : Nat} {round : UInt32}
    (later : machine.height < height ∨
      machine.height = height ∧ machine.round.toNat < round.toNat) :
    Ballots me cast (RoundMachine.newRound height round) := by
  have past : ∀ vote ∈ cast, vote.height < height ∨
      vote.height = height ∧ vote.round.toNat < round.toNat := by
    intro vote member
    rcases ballots.reached vote member with lower | ⟨same, round⟩
    · omega
    · omega
  refine ⟨ballots.own, ?_, ?_, ?_, ballots.unique, ?_⟩
  · intro vote member
    change vote.height < height ∨ vote.height = height ∧ vote.round.toNat ≤ round.toNat
    rcases past vote member with lower | ⟨same, less⟩
    · exact .inl lower
    · exact .inr ⟨same, Nat.le_of_lt less⟩
  · intro _ vote member here
    rcases past vote member with lower | ⟨same, less⟩
    · exact Nat.ne_of_lt lower here.1
    · exact Nat.ne_of_lt less (congrArg UInt32.toNat here.2)
  · intro phase
    cases phase
  · intro vote member
    cases member

/-- A further phase without a vote. -/
theorem enter (ballots : Ballots me cast machine) {phase : Phase} (notIdle : phase ≠ .idle)
    (notPrevoted : phase ≠ .prevoted) : Ballots me cast { machine with phase := phase } :=
  { ballots with
    idle := fun same => absurd same notIdle
    prevoted := fun same => absurd same notPrevoted }

/-- One vote more: a prevote of an idle machine, or the precommit behind it. -/
theorem vote (ballots : Ballots me cast machine) (hash : Hash) {kind : VoteKind} {phase : Phase}
    (turn : kind = .prevote ∧ machine.phase = .idle ∧ phase = .prevoted ∨
      kind = .precommit ∧ machine.phase = .prevoted ∧ phase = .precommitted) :
    Ballots me (cast ++ [machine.makeVote me hash kind])
      { machine with
        phase := phase
        myVotes := machine.myVotes ++ [machine.makeVote me hash kind] } := by
  -- No earlier vote of this round has the kind of the new one.
  have fresh : ∀ vote ∈ cast, vote.height = machine.height → vote.round = machine.round →
      vote.kind ≠ kind := by
    intro vote member height round same
    rcases turn with ⟨rfl, idle, _⟩ | ⟨rfl, prevoted, _⟩
    · exact ballots.idle idle vote member ⟨height, round⟩
    · have earlier := ballots.prevoted prevoted vote member height round
      rw [same] at earlier
      cases earlier
  refine ⟨?_, ?_, ?_, ?_, ?_, ?_⟩
  · intro vote member
    rcases List.mem_append.mp member with earlier | last
    · exact ballots.own vote earlier
    · rw [List.mem_singleton.mp last]
      rfl
  · intro vote member
    rcases List.mem_append.mp member with earlier | last
    · exact ballots.reached vote earlier
    · rw [List.mem_singleton.mp last]
      exact .inr ⟨rfl, Nat.le_refl _⟩
  · intro same
    rcases turn with ⟨_, _, entered⟩ | ⟨_, _, entered⟩ <;>
      · rw [entered] at same
        cases same
  · intro same vote member height round
    rcases turn with ⟨isPrevote, idle, _⟩ | ⟨_, _, entered⟩
    · rcases List.mem_append.mp member with earlier | last
      · exact absurd ⟨height, round⟩ (ballots.idle idle vote earlier)
      · rw [List.mem_singleton.mp last]
        exact isPrevote
    · rw [entered] at same
      cases same
  · intro first firstIn second secondIn height round same
    rcases List.mem_append.mp firstIn with firstEarlier | firstLast
    · rcases List.mem_append.mp secondIn with secondEarlier | secondLast
      · exact ballots.unique first firstEarlier second secondEarlier height round same
      · rw [List.mem_singleton.mp secondLast] at height round same
        exact absurd same (fresh first firstEarlier height round)
    · rw [List.mem_singleton.mp firstLast] at height round same ⊢
      rcases List.mem_append.mp secondIn with secondEarlier | secondLast
      · exact absurd same.symm (fresh second secondEarlier height.symm round.symm)
      · rw [List.mem_singleton.mp secondLast]
  · intro vote member
    rcases List.mem_append.mp member with earlier | last
    · exact List.mem_append_left _ (ballots.mine vote earlier)
    · exact List.mem_append_right _ last

end Ballots

/-- The votes cast before a turn and in it. -/
def Turn.Balloted (me : PartyId) (past : List Vote) (turn : Turn) : Prop :=
  Ballots me (past ++ votesIn turn.actions) turn.machine

namespace Turn.Balloted

variable {me : PartyId} {past : List Vote} {turn : Turn} {machine : RoundMachine}
  {aurora : Aurora}

theorem cast (balloted : Balloted me past turn) (hash : Hash) {kind : VoteKind} {phase : Phase}
    (next : kind = .prevote ∧ turn.machine.phase = .idle ∧ phase = .prevoted ∨
      kind = .precommit ∧ turn.machine.phase = .prevoted ∧ phase = .precommitted) :
    Balloted me past ((turn.enter phase).castOwnVote me hash kind).2 := by
  unfold Balloted
  change Ballots me (past ++ votesIn (turn.actions ++
    [.broadcast (.vote (turn.machine.makeVote me hash kind))])) _
  rw [votesIn_append, votesIn_vote, ← List.append_assoc]
  exact Ballots.vote balloted hash next

theorem tryAdvance (balloted : Balloted me past turn) (hash : Hash) :
    Balloted me past (turn.tryAdvanceAfterPrevote me hash) := by
  apply Turn.tryAdvanceAfterPrevote_preserves balloted
  · intro prevoted _ _
    exact balloted.cast hash (.inr ⟨rfl, prevoted, rfl⟩)
  · intro _ _ _ _ _ voted
    unfold Balloted at voted ⊢
    change Ballots me (past ++ votesIn (turn.actions ++
      [.broadcast (.vote (turn.machine.makeVote me hash .precommit))])) _ at voted
    rw [votesIn_append, votesIn_commit, List.append_nil]
    exact voted.enter (by decide) (by decide)

theorem prevoteFor (balloted : Balloted me past turn) (idle : turn.machine.phase = .idle)
    (hash : Hash) : Balloted me past (turn.prevoteFor me hash) :=
  (balloted.cast hash (.inl ⟨rfl, idle, rfl⟩)).tryAdvance hash

/-- Storing blocks and sending other things casts no vote. -/
theorem silent (ballots : Ballots me past machine) {actions : List Action}
    (quiet : votesIn actions = []) (blocks : AList (fun _ : Hash => Block))
    (own : Option Hash) :
    Balloted me past
      { machine := { machine with
          seenBlocks := blocks
          ownBlock := own }
        aurora := aurora
        actions := actions } := by
  unfold Balloted
  change Ballots me (past ++ votesIn actions) _
  rw [quiet, List.append_nil]
  exact { ballots with }

theorem onLocalProposal [Blake3] (ballots : Ballots me past machine) (block : Block) :
    Balloted me past (machine.onLocalProposal aurora block me) := by
  apply RoundMachine.onLocalProposal_preserves
  · exact silent ballots rfl _ _
  · exact fun turn _ _ idle held => held.prevoteFor idle block.hash

theorem onProposal [Blake3] (ballots : Ballots me past machine) (block : Block)
    (parentHash : Hash) : Balloted me past (machine.onProposal aurora block me parentHash) := by
  apply RoundMachine.onProposal_preserves
  · exact silent ballots rfl _ _
  · intro actions quiet _ _
    apply silent ballots
    rcases quiet with rfl | rfl <;> rfl
  · exact fun turn _ _ _ _ idle held => held.prevoteFor idle block.hash

theorem onVote [Ed25519] (ballots : Ballots me past machine) (vote : Vote) :
    Balloted me past (machine.onVote aurora vote me) := by
  apply RoundMachine.onVote_preserves
  · exact silent ballots rfl _ _
  · exact fun _ => silent ballots rfl _ _
  · exact fun _ => silent ballots rfl _ _
  · intro _ committers power _ _
    unfold Balloted
    change Ballots me (past ++ []) _
    rw [List.append_nil]
    exact ballots.enter (by decide) (by decide)
  · exact fun turn _ held => held.tryAdvance vote.blockHash
  · intro turn empty held
    unfold Balloted at held ⊢
    rw [empty] at held
    exact held

end Turn.Balloted

namespace Session

theorem signVote_sameBallot [Ed25519] (identity : PartyIdentity) (vote : Vote) :
    (signVote identity vote).SameBallot vote := by
  unfold signVote
  split
  · exact ⟨rfl, rfl, rfl, rfl, rfl⟩
  · exact ⟨rfl, rfl, rfl, rfl, rfl⟩

/-- The votes a session cast are consistent, and it sent no others. -/
structure Balloted (me : PartyId) (session : Session) : Prop where
  ballots : Ballots me session.cast session.engine.machine
  sent : ∀ vote, .vote vote ∈ session.sent → ∃ ballot ∈ session.cast, vote.SameBallot ballot

namespace Balloted

variable {me : PartyId} {session : Session}

theorem start (identity : PartyIdentity) (vset : ValidatorSet) (node : Node) :
    Balloted me (Session.start identity vset node) := by
  constructor
  · exact
      { own := fun _ member => absurd member List.not_mem_nil
        reached := fun _ member => absurd member List.not_mem_nil
        idle := fun _ _ member => absurd member List.not_mem_nil
        prevoted := fun _ _ member => absurd member List.not_mem_nil
        unique := fun _ member => absurd member List.not_mem_nil
        mine := fun _ member => absurd member List.not_mem_nil }
  · exact fun _ member => absurd member List.not_mem_nil

theorem broadcast (balloted : Balloted me session) {message : NetMessage}
    (other : ∀ vote, message ≠ .vote vote) : Balloted me (session.broadcast message) := by
  refine ⟨balloted.ballots, ?_⟩
  intro vote member
  rcases List.mem_append.mp member with earlier | last
  · exact balloted.sent vote earlier
  · exact absurd (List.mem_singleton.mp last).symm (other vote)

section Steps

variable [Ed25519]

theorem tends {after : Session} (balloted : Balloted me session) (tends : Tends session after) :
    Balloted me after := by
  obtain ⟨node, watch, _, engine⟩ := tends.engine
  obtain ⟨messages, sent, clean⟩ := tends.sent
  constructor
  · rw [tends.cast, engine]
    exact balloted.ballots
  · intro vote member
    rw [sent] at member
    rw [tends.cast]
    rcases List.mem_append.mp member with earlier | added
    · exact balloted.sent vote earlier
    · exact absurd added (clean vote)

theorem broadcastVote (balloted : Balloted me session) {vote : Vote}
    (cast : vote ∈ session.cast) :
    Balloted me (session.broadcast (.vote (signVote session.engine.identity vote))) := by
  refine ⟨balloted.ballots, ?_⟩
  intro other member
  rcases List.mem_append.mp member with earlier | last
  · exact balloted.sent other earlier
  · cases List.mem_singleton.mp last
    exact ⟨vote, cast, signVote_sameBallot _ vote⟩

theorem rebroadcast (balloted : Balloted me session) : Balloted me session.rebroadcast := by
  refine ⟨balloted.ballots, ?_⟩
  intro vote member
  rcases List.mem_append.mp member with earlier | added
  · exact balloted.sent vote earlier
  · obtain ⟨own, inMachine, same⟩ := List.mem_map.mp added
    cases same
    exact ⟨own, balloted.ballots.mine own inMachine, signVote_sameBallot _ own⟩

variable [Blake3] {vset : ValidatorSet} {identity : PartyIdentity}

omit [Ed25519] in
theorem resetHeight (balloted : Balloted me session) (shaped : Shaped vset identity session)
    (behind : session.engine.height ≤ session.engine.node.head.height) :
    Balloted me session.resetHeight := by
  refine ⟨?_, balloted.sent⟩
  apply balloted.ballots.newRound
  have height : session.engine.machine.height = session.engine.height := shaped.frame.atHeight
  omega

omit [Ed25519] in
theorem recordView (balloted : Balloted me session) (shaped : Shaped vset identity session)
    (height : Nat) (view : UInt32) (voter : PartyId) :
    Balloted me (session.recordView height view voter) := by
  apply recordView_preserves
  · exact { balloted with }
  · intro chosen _ higher
    refine ⟨balloted.ballots.newRound (.inr ⟨shaped.frame.atHeight, ?_⟩), balloted.sent⟩
    have round : session.engine.machine.round = session.engine.view := shaped.frame.atRound
    rw [round]
    exact UInt32.lt_iff_toNat_lt.mp higher

omit [Ed25519] [Blake3] in
theorem absorb (balloted : Balloted me session) {turn : Turn}
    (turned : turn.Balloted me session.cast) : Balloted me (session.absorb turn) := by
  refine ⟨turned, ?_⟩
  intro vote member
  obtain ⟨ballot, cast, same⟩ := balloted.sent vote member
  exact ⟨ballot, List.mem_append_left _ cast, same⟩

variable [SerdeJson] [ChaCha20Poly1305] [X25519]

theorem handle (balloted : Balloted identity.party session)
    (shaped : Shaped vset identity session) (stimulus : Stimulus) :
    Balloted identity.party (session.handle stimulus) := by
  apply handle_rule shaped balloted
  · exact fun _ tends held => held.tends tends
  · exact fun _ _ _ held => { held with }
  · exact fun _ _ _ _ here _ held => held.recordView here _ _ _
  · exact fun _ here behind held => held.resetHeight here behind
  · exact fun _ _ _ cast held => held.broadcastVote cast
  · exact fun _ _ held => held.rebroadcast
  · exact fun _ _ _ _ _ _ _ held => { held with }
  · exact fun _ _ _ _ _ held => { held with }
  · intro node block _ _ _ _ _ _ held
    exact held.absorb (Turn.Balloted.onLocalProposal held.ballots block)
  · intro round block _
    exact balloted.absorb (Turn.Balloted.onProposal balloted.ballots block _)
  · intro before vote _ _ _ held
    exact held.absorb (Turn.Balloted.onVote held.ballots vote)

end Steps

end Balloted

/-! ### Runs -/

section Runs

variable [Ed25519] [Blake3] [SerdeJson] [ChaCha20Poly1305] [X25519]

theorem run_balloted (identity : PartyIdentity) (vset : ValidatorSet) (node : Node)
    (stimuli : List Stimulus) :
    Shaped vset identity (Run.run handle (Session.start identity vset node) stimuli) ∧
      Balloted identity.party (Run.run handle (Session.start identity vset node) stimuli) := by
  induction stimuli using List.reverseRecOn with
  | nil => exact ⟨Shaped.start identity vset node, Balloted.start identity vset node⟩
  | append_singleton stimuli stimulus ih =>
      rw [Run.run_snoc]
      exact ⟨ih.1.handle stimulus, ih.2.handle ih.1 stimulus⟩

/-- Votes for one height, round and kind name one block. -/
def Agree (sent : List NetMessage) : Prop :=
  ∀ first second : Vote, .vote first ∈ sent → .vote second ∈ sent →
    first.height = second.height → first.round = second.round → first.kind = second.kind →
    first.blockHash = second.blockHash

/-- Whatever reaches a validator in whatever order, the votes it signs and sends
agree. -/
theorem never_equivocates (identity : PartyIdentity) (vset : ValidatorSet) (node : Node)
    (stimuli : List Stimulus) :
    Agree (Run.run handle (Session.start identity vset node) stimuli).sent := by
  obtain ⟨_, balloted⟩ := run_balloted identity vset node stimuli
  intro first second firstSent secondSent height round kind
  obtain ⟨left, leftCast, leftHeight, leftRound, leftHash, _, leftKind⟩ :=
    balloted.sent first firstSent
  obtain ⟨right, rightCast, rightHeight, rightRound, rightHash, _, rightKind⟩ :=
    balloted.sent second secondSent
  rw [leftHash, rightHash]
  apply balloted.ballots.unique left leftCast right rightCast
  · rw [← leftHeight, ← rightHeight, height]
  · rw [← leftRound, ← rightRound, round]
  · rw [← leftKind, ← rightKind, kind]

end Runs

end Session

end Veilux
