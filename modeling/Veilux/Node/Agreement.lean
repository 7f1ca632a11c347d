/-
Agreement within a view.  Whatever an engine counts and commits is backed by votes that
reached it under registered keys or that it cast; over a network whose honest members' votes
are not forged, engines that commit different blocks at one height have certificates of
different rounds.
-/

import Veilux.Node.Ballots

namespace Veilux

theorem Vote.SameBallot.trans {first second third : Vote} (left : first.SameBallot second)
    (right : second.SameBallot third) : first.SameBallot third := by
  obtain ⟨height, round, block, voter, kind⟩ := left
  obtain ⟨height', round', block', voter', kind'⟩ := right
  exact ⟨height.trans height', round.trans round', block.trans block', voter.trans voter',
    kind.trans kind'⟩

/-- A vote under the key that is registered for its voter. -/
def Verified [Ed25519] (vset : ValidatorSet) (vote : Vote) : Prop :=
  ∃ validator, vset.get vote.voter = some validator ∧
    verifyBytes validator.publicKey vote.signingBytes vote.signature = .ok ()

/-- Ballots of own votes and of verified votes that were heard. -/
def Witnessed [Ed25519] (vset : ValidatorSet) (heard cast : List Vote) : Evidence :=
  fun height round kind voter block =>
    ∃ vote : Vote, (vote ∈ cast ∨ vote ∈ heard ∧ Verified vset vote) ∧ vote.height = height ∧
      vote.round = round ∧ vote.kind = kind ∧ vote.voter = voter ∧ vote.blockHash = block

section Witnessed

variable [Ed25519] {vset : ValidatorSet} {heard cast : List Vote}

theorem Witnessed.mono {moreHeard moreCast : List Vote} (heardIn : heard ⊆ moreHeard)
    (castIn : cast ⊆ moreCast) {height : Nat} {round : UInt32} {kind : VoteKind}
    {voter : PartyId} {block : Hash}
    (witnessed : Witnessed vset heard cast height round kind voter block) :
    Witnessed vset moreHeard moreCast height round kind voter block := by
  obtain ⟨vote, source, fields⟩ := witnessed
  refine ⟨vote, ?_, fields⟩
  rcases source with own | ⟨arrived, verified⟩
  · exact .inl (castIn own)
  · exact .inr ⟨heardIn arrived, verified⟩

/-- A quorum of precommits of one round for the block. -/
def Finalizes (vset : ValidatorSet) (heard cast : List Vote) (height : Nat) (block : Hash) :
    Prop :=
  ∃ round, Nonempty (Certificate vset fun voter =>
    Witnessed vset heard cast height round .precommit voter block)

theorem Finalizes.mono {moreHeard moreCast : List Vote} (heardIn : heard ⊆ moreHeard)
    (castIn : cast ⊆ moreCast) {height : Nat} {block : Hash}
    (finalizes : Finalizes vset heard cast height block) :
    Finalizes vset moreHeard moreCast height block := by
  obtain ⟨round, ⟨certificate⟩⟩ := finalizes
  exact ⟨round, ⟨certificate.mono fun _ => Witnessed.mono heardIn castIn⟩⟩

end Witnessed

namespace Aurora

section Reported

variable [Ed25519] {vset : ValidatorSet} {heard cast : List Vote} {aurora : Aurora} {vote : Vote}

omit [Ed25519] in
/-- A commit that was just reported has its certificate. -/
theorem Sound.reported {evidence : Evidence} (sound : Sound evidence aurora)
    (backed : evidence vote.height vote.round vote.kind vote.voter vote.blockHash)
    {height : Nat} {block : Hash} {committers : List PartyId} {power : UInt64}
    (reported : (aurora.tallyVote vote).1 = .ok (.committed height block committers power)) :
    Nonempty (Certificate aurora.validators fun voter =>
      evidence vote.height vote.round .precommit voter vote.blockHash) := by
  have tallied := tallyVote_tallied aurora vote
  generalize aurora.tallyVote vote = result at tallied reported
  cases tallied with
  | skipped closed => cases reported
  | filed result quiet => exact absurd reported (quiet _ _ _ _)
  | decided committers power pending isPrecommit quorum => exact sound.decided backed quorum

end Reported

end Aurora

/-- What a turn of the machine at a height has counted and committed. -/
structure Turn.Backed [Ed25519] (vset : ValidatorSet) (heard past : List Vote) (height : Nat)
    (round : UInt32) (turn : Turn) : Prop where
  validators : turn.aurora.validators = vset
  atHeight : turn.machine.height = height
  atRound : turn.machine.round = round
  votes : ∀ vote ∈ votesIn turn.actions, vote.height = height ∧ vote.round = round
  sound : turn.aurora.Sound (Witnessed vset heard (past ++ votesIn turn.actions))
  commits : ∀ hash ∈ commitsIn turn.actions,
    Finalizes vset heard (past ++ votesIn turn.actions) height hash

theorem commitsIn_append (front back : List Action) :
    commitsIn (front ++ back) = commitsIn front ++ commitsIn back :=
  List.filterMap_append

namespace Turn.Backed

variable [Ed25519] {vset : ValidatorSet} {heard past : List Vote} {height : Nat} {round : UInt32}
  {turn : Turn}

theorem enter (backed : Backed vset heard past height round turn) (phase : Phase) :
    Backed vset heard past height round (turn.enter phase) := { backed with }

/-- The own vote is evidence of itself. -/
theorem cast (backed : Backed vset heard past height round turn) (me : PartyId) (hash : Hash)
    (kind : VoteKind) : Backed vset heard past height round (turn.castOwnVote me hash kind).2 := by
  have grown : past ++ votesIn turn.actions ⊆
      past ++ votesIn (turn.castOwnVote me hash kind).2.actions := by
    change _ ⊆ past ++ votesIn (turn.actions ++ _)
    rw [votesIn_append, ← List.append_assoc]
    exact List.subset_append_left _ _
  have last : turn.machine.makeVote me hash kind ∈
      past ++ votesIn (turn.castOwnVote me hash kind).2.actions := by
    change _ ∈ past ++ votesIn (turn.actions ++ _)
    rw [votesIn_append, votesIn_vote, ← List.append_assoc]
    exact List.mem_append_right _ List.mem_cons_self
  exact
    { validators := (Aurora.addLocalVote_validators _ _).trans backed.validators
      atHeight := backed.atHeight
      atRound := backed.atRound
      votes := by
        intro vote member
        change vote ∈ votesIn (turn.actions ++ _) at member
        rw [votesIn_append, votesIn_vote] at member
        rcases List.mem_append.mp member with earlier | last
        · exact backed.votes vote earlier
        · rw [List.mem_singleton.mp last]
          exact ⟨backed.atHeight, backed.atRound⟩
      sound := by
        have sound := backed.sound.mono fun _ _ _ _ _ =>
          Witnessed.mono (List.Subset.refl heard) grown
        exact sound.addLocalVote fun _ => ⟨_, .inl last, rfl, rfl, rfl, rfl, rfl⟩
      commits := by
        intro other member
        change other ∈ commitsIn (turn.actions ++ _) at member
        rw [commitsIn_append] at member
        exact (backed.commits other ((List.mem_append.mp member).resolve_right
          List.not_mem_nil)).mono (List.Subset.refl heard) grown }

theorem commit (backed : Backed vset heard past height round turn) {hash : Hash} {phase : Phase}
    (finalizes : Finalizes vset heard (past ++ votesIn turn.actions) height hash) :
    Backed vset heard past height round
      { turn.enter phase with actions := turn.actions ++ [.commit hash] } := by
  have same : votesIn (turn.actions ++ [.commit hash]) = votesIn turn.actions := by
    rw [votesIn_append, votesIn_commit, List.append_nil]
  exact
    { validators := backed.validators
      atHeight := backed.atHeight
      atRound := backed.atRound
      votes := by
        intro vote member
        rw [same] at member
        exact backed.votes vote member
      sound := by
        rw [same]
        exact backed.sound
      commits := by
        intro other member
        rw [same]
        rw [commitsIn_append] at member
        rcases List.mem_append.mp member with earlier | last
        · exact backed.commits other earlier
        · rw [List.mem_singleton.mp last]
          exact finalizes }

/-- The precommit behind a prevote quorum may be the one that commits. -/
theorem tryAdvance (backed : Backed vset heard past height round turn) (me : PartyId)
    (hash : Hash) : Backed vset heard past height round (turn.tryAdvanceAfterPrevote me hash) := by
  apply Turn.tryAdvanceAfterPrevote_preserves backed
  · exact fun _ _ _ => (backed.enter .precommitted).cast me hash .precommit
  · intro _ committed committers power reported voted
    let vote := turn.machine.makeVote me hash .precommit
    have ballot : vote ∈ past ++ votesIn
        ((turn.enter .precommitted).castOwnVote me hash .precommit).2.actions := by
      change _ ∈ past ++ votesIn (turn.actions ++ _)
      rw [votesIn_append, votesIn_vote, ← List.append_assoc]
      exact List.mem_append_right _ List.mem_cons_self
    have grown : past ++ votesIn turn.actions ⊆ past ++ votesIn
        ((turn.enter .precommitted).castOwnVote me hash .precommit).2.actions := by
      change _ ⊆ past ++ votesIn (turn.actions ++ _)
      rw [votesIn_append, ← List.append_assoc]
      exact List.subset_append_left _ _
    have sound := backed.sound.mono fun _ _ _ _ _ => Witnessed.mono (List.Subset.refl heard) grown
    have tallied : (turn.aurora.tallyVote vote).1 =
        .ok (.committed committed hash committers power) := by
      rcases Aurora.addLocalVote_cases turn.aurora vote with ⟨error, rejected⟩ | ⟨_, added⟩
      · rw [rejected] at reported
        cases reported
      · rw [added] at reported
        exact reported
    have backing : Witnessed vset heard (past ++ votesIn
        ((turn.enter .precommitted).castOwnVote me hash .precommit).2.actions) vote.height
        vote.round vote.kind vote.voter vote.blockHash :=
      ⟨vote, .inl ballot, rfl, rfl, rfl, rfl, rfl⟩
    have certificate := sound.reported backing tallied
    rw [backed.validators] at certificate
    have here : vote.height = height := backed.atHeight
    rw [here] at certificate
    exact voted.commit ⟨vote.round, certificate⟩

theorem prevoteFor (backed : Backed vset heard past height round turn) (me : PartyId)
    (hash : Hash) : Backed vset heard past height round (turn.prevoteFor me hash) :=
  (((backed.enter .prevoted).cast me hash .prevote)).tryAdvance me hash

section Handlers

variable {machine : RoundMachine} {aurora : Aurora} {me : PartyId}

/-- A turn without votes and commits. -/
theorem quiet (validators : aurora.validators = vset)
    (sound : aurora.Sound (Witnessed vset heard past)) (atHeight : machine.height = height)
    (atRound : machine.round = round) {actions : List Action} (votes : votesIn actions = [])
    (commits : commitsIn actions = []) :
    Backed vset heard past height round
      { machine := machine
        aurora := aurora
        actions := actions } where
  validators := validators
  atHeight := atHeight
  atRound := atRound
  votes vote member := by
    rw [votes] at member
    cases member
  sound := by
    rw [votes, List.append_nil]
    exact sound
  commits hash member := by
    rw [commits] at member
    cases member

theorem onLocalProposal [Blake3] (validators : aurora.validators = vset)
    (sound : aurora.Sound (Witnessed vset heard past)) (atHeight : machine.height = height)
    (atRound : machine.round = round) (block : Block) :
    Backed vset heard past height round (machine.onLocalProposal aurora block me) := by
  apply RoundMachine.onLocalProposal_preserves
  · refine quiet validators sound ?_ ?_ (by rfl) (by rfl)
    · exact atHeight
    · exact atRound
  · exact fun _ _ _ _ held => held.prevoteFor me _

theorem onProposal [Blake3] (validators : aurora.validators = vset)
    (sound : aurora.Sound (Witnessed vset heard past)) (atHeight : machine.height = height)
    (atRound : machine.round = round) (block : Block) (parentHash : Hash) :
    Backed vset heard past height round (machine.onProposal aurora block me parentHash) := by
  apply RoundMachine.onProposal_preserves
  · exact quiet validators sound atHeight atRound (by rfl) (by rfl)
  · intro actions quietly _ _
    rcases quietly with rfl | rfl
    · refine quiet validators sound ?_ ?_ (by rfl) (by rfl)
      · exact atHeight
      · exact atRound
    · refine quiet validators sound ?_ ?_ (by rfl) (by rfl)
      · exact atHeight
      · exact atRound
  · exact fun _ _ _ _ _ _ held => held.prevoteFor me _

/-- A vote that arrived is counted under the registered key only. -/
theorem onVote (validators : aurora.validators = vset)
    (sound : aurora.Sound (Witnessed vset heard past)) (atHeight : machine.height = height)
    (atRound : machine.round = round) {vote : Vote} (arrived : vote ∈ heard) :
    Backed vset heard past height round (machine.onVote aurora vote me) := by
  have witnessed (validator : Validator) (found : aurora.validators.get vote.voter = some validator)
      (verified : verifyBytes validator.publicKey vote.signingBytes vote.signature = .ok ()) :
      Witnessed vset heard past vote.height vote.round vote.kind vote.voter vote.blockHash := by
    rw [validators] at found
    exact ⟨vote, .inr ⟨arrived, validator, found, verified⟩, rfl, rfl, rfl, rfl, rfl⟩
  have counted : (aurora.addVote vote).2.Sound (Witnessed vset heard past) :=
    sound.addVote witnessed
  have same : (aurora.addVote vote).2.validators = vset :=
    (Aurora.addVote_validators _ _).trans validators
  apply RoundMachine.onVote_preserves
  · exact quiet validators sound atHeight atRound (by rfl) (by rfl)
  · exact fun _ => quiet same counted atHeight atRound (by rfl) (by rfl)
  · exact fun _ => quiet same counted atHeight atRound (by rfl) (by rfl)
  · intro here committers power reported _
    have silent : Backed vset heard past height round ⟨machine, (aurora.addVote vote).2, []⟩ :=
      quiet same counted atHeight atRound (by rfl) (by rfl)
    refine silent.commit ?_
    rcases Aurora.addVote_cases aurora vote with
      ⟨error, rejected⟩ | ⟨validator, found, verified, added⟩
    · rw [rejected] at reported
      cases reported
    · rw [added] at reported
      have certificate := sound.reported (witnessed validator found verified) reported
      rw [validators, here, atHeight] at certificate
      change Finalizes vset heard (past ++ []) height vote.blockHash
      rw [List.append_nil]
      exact ⟨vote.round, certificate⟩
  · exact fun _ _ held => held.tryAdvance me _
  · intro turn empty held
    have same : votesIn turn.actions = votesIn [Action.none] := by
      rw [empty]
      rfl
    exact
      { validators := held.validators
        atHeight := held.atHeight
        atRound := held.atRound
        votes := same ▸ held.votes
        sound := same ▸ held.sound
        commits := fun _ member => by cases member }

end Handlers

end Turn.Backed

namespace Session

/-- The votes that have reached an engine. -/
def heardVotes (stimuli : List Stimulus) : List Vote :=
  stimuli.filterMap fun stimulus =>
    match stimulus.input with
    | .net (.vote vote) => some vote
    | _ => none

theorem heardVotes_append (front back : List Stimulus) :
    heardVotes (front ++ back) = heardVotes front ++ heardVotes back :=
  List.filterMap_append

section Sessions

variable [Ed25519]

/-- The blocks that peers handed over. -/
def gossip (stimuli : List Stimulus) : List Block :=
  stimuli.flatMap fun stimulus =>
    match stimulus.input with
    | .net (.block block) => [block]
    | .net (.blocks blocks) => blocks
    | _ => []

omit [Ed25519] in
theorem gossip_append (front back : List Stimulus) :
    gossip (front ++ back) = gossip front ++ gossip back :=
  List.flatMap_append

/-- Everything the engine of a session counts and has committed, with the origin of the blocks
on its chain. -/
structure Backed [Blake3] (vset : ValidatorSet) (heard : List Vote) (first offered : List Block)
    (session : Session) : Prop where
  sound : session.engine.aurora.Sound (Witnessed vset heard session.cast)
  commits : ∀ height hash, (height, hash) ∈ session.commits →
    Finalizes vset heard session.cast height hash
  view : session.engine.view = 0 ∨ (session.engine.height, session.engine.view) ∈ session.adopted
  voted : ∀ vote ∈ session.cast, vote.round = 0 ∨ (vote.height, vote.round) ∈ session.adopted
  blocks : ∀ block ∈ session.engine.node.blocks, block ∈ first ∨
    Finalizes vset heard session.cast block.height block.hash ∨
    ∃ other ∈ offered, other.hash = block.hash

namespace Backed

section Steps

variable [Blake3] {vset : ValidatorSet} {heard : List Vote} {first offered : List Block}
  {session : Session}

theorem mono {more : List Vote} {moreOffered : List Block}
    (backed : Backed vset heard first offered session) (heardIn : heard ⊆ more)
    (offeredIn : offered ⊆ moreOffered) : Backed vset more first moreOffered session where
  sound := backed.sound.mono fun _ _ _ _ _ => Witnessed.mono heardIn (List.Subset.refl _)
  commits height hash member :=
    (backed.commits height hash member).mono heardIn (List.Subset.refl _)
  view := backed.view
  voted := backed.voted
  blocks block member := by
    rcases backed.blocks block member with start | finalizes | ⟨other, given, same⟩
    · exact .inl start
    · exact .inr (.inl (finalizes.mono heardIn (List.Subset.refl _)))
    · exact .inr (.inr ⟨other, offeredIn given, same⟩)

theorem start (identity : PartyIdentity) (node : Node) :
    Backed vset heard node.blocks offered (Session.start identity vset node) where
  sound := Aurora.sound_new vset _
  commits _ _ member := by cases member
  view := .inl rfl
  voted _ member := by cases member
  blocks _ member := .inl member

theorem tends {after : Session} (backed : Backed vset heard first offered session)
    (tends : Tends session after) : Backed vset heard first offered after := by
  obtain ⟨node, watch, kept, engine⟩ := tends.engine
  constructor
  · rw [engine, tends.cast]
    exact backed.sound
  · rw [tends.commits, tends.cast]
    exact backed.commits
  · rw [engine, tends.adopted]
    exact backed.view
  · rw [tends.cast, tends.adopted]
    exact backed.voted
  · rw [engine, tends.cast]
    dsimp only
    rw [kept.blocks]
    exact backed.blocks

theorem absorb (backed : Backed vset heard first offered session) {turn : Turn}
    (turned : turn.Backed vset heard session.cast session.engine.height session.engine.view) :
    Backed vset heard first offered (session.absorb turn) where
  sound := turned.sound
  view := backed.view
  voted vote member := by
    rcases List.mem_append.mp member with earlier | added
    · exact backed.voted vote earlier
    · obtain ⟨height, round⟩ := turned.votes vote added
      rw [height, round]
      exact backed.view
  commits height hash member := by
    rcases List.mem_append.mp member with earlier | added
    · exact (backed.commits height hash earlier).mono (List.Subset.refl _)
        (List.subset_append_left _ _)
    · obtain ⟨other, emitted, same⟩ := List.mem_map.mp added
      cases same
      rw [turned.atHeight]
      exact turned.commits hash emitted
  blocks block member := by
    rcases backed.blocks block member with start | finalizes | given
    · exact .inl start
    · exact .inr (.inl (finalizes.mono (List.Subset.refl _) (List.subset_append_left _ _)))
    · exact .inr (.inr given)

variable [SerdeJson] [ChaCha20Poly1305]

/-- A block that is executed is appended, without its events looked at, or not at all. -/
theorem execute (backed : Backed vset heard first offered session) (env : Env) {block : Block}
    (origin : Finalizes vset heard session.cast block.height block.hash ∨
      ∃ other ∈ offered, other.hash = block.hash) :
    Backed vset heard first offered (session.execute env block) :=
  { sound := backed.sound
    commits := backed.commits
    view := backed.view
    voted := backed.voted
    blocks := by
      intro known member
      change known ∈ (session.engine.node.commitBlock env block).2.blocks at member
      have committed := Node.commitBlock_committed env session.engine.node block
      generalize session.engine.node.commitBlock env block = result at committed member
      cases committed with
      | refused error ledgers => exact backed.blocks known member
      | appended result events state ledgers store verified =>
          rcases List.mem_append.mp member with earlier | last
          · exact backed.blocks known earlier
          · rw [List.mem_singleton.mp last]
            exact .inr origin }

variable [X25519] {identity : PartyIdentity}

theorem handle (backed : Backed vset heard first offered session)
    (shaped : Shaped vset identity session) {stimulus : Stimulus}
    (arrived : ∀ vote, stimulus.input = .net (.vote vote) → vote ∈ heard)
    (given : gossip [stimulus] ⊆ offered) :
    Backed vset heard first offered (session.handle stimulus) := by
  apply handle_rule shaped backed
  · exact fun _ tends held => held.tends tends
  · exact fun _ _ _ held => { held with }
  · intro before height view voter _ _ held
    apply recordView_preserves
    · exact { held with }
    · intro chosen _ _
      exact
        { sound := held.sound
          commits := held.commits
          view := .inr (List.mem_append_right _ List.mem_cons_self)
          voted := fun vote member =>
            (held.voted vote member).imp_right (List.mem_append_left _)
          blocks := held.blocks }
  · exact fun _ _ _ held => { held with view := .inl rfl }
  · exact fun _ _ _ _ held => { held with }
  · exact fun _ _ held => { held with }
  · intro before index hash block framed stored emitted held
    obtain ⟨named, height⟩ := framed.frame.stored hash block stored
    have finalizes := held.commits _ _ emitted
    rw [← named] at finalizes
    have same : before.engine.machine.height = block.height :=
      framed.frame.atHeight.trans height.symm
    rw [same] at finalizes
    exact held.execute _ (.inl finalizes)
  · intro before index block _ gossiped held
    refine held.execute _ (.inr ⟨block, given ?_, rfl⟩)
    unfold gossip
    rw [List.flatMap_singleton]
    cases gossiped with
    | block block delivered reaches =>
        rw [delivered]
        exact List.mem_cons_self
    | batch front block back delivered reaches =>
        rw [delivered]
        exact List.mem_append_right _ List.mem_cons_self
  · intro node block _ framed _ _ _ _ held
    exact held.absorb
      (Turn.Backed.onLocalProposal framed.frame.validators held.sound framed.frame.atHeight
        framed.frame.atRound block)
  · intro round block _
    exact backed.absorb (Turn.Backed.onProposal shaped.frame.validators backed.sound
      shaped.frame.atHeight shaped.frame.atRound block _)
  · intro before vote delivered _ framed held
    exact held.absorb
      (Turn.Backed.onVote framed.frame.validators held.sound framed.frame.atHeight
        framed.frame.atRound (arrived vote delivered))

/-- Along every run, by the votes and the blocks that the run delivers. -/
theorem run (node : Node) (stimuli : List Stimulus) :
    Backed vset (heardVotes stimuli) node.blocks (gossip stimuli)
      (Run.run Session.handle (Session.start identity vset node) stimuli) := by
  induction stimuli using List.reverseRecOn with
  | nil => exact start identity node
  | append_singleton stimuli stimulus ih =>
      rw [Run.run_snoc]
      have shaped := (run_balloted identity vset node stimuli).1
      rw [heardVotes_append, gossip_append]
      refine (ih.mono (List.subset_append_left _ _) (List.subset_append_left _ _)).handle
        shaped ?_ (List.subset_append_right _ _)
      intro vote arrived
      refine List.mem_append_right _ (List.mem_filterMap.mpr ⟨stimulus, List.mem_cons_self, ?_⟩)
      rw [arrived]

end Steps

end Backed

theorem handle_cast [Blake3] [SerdeJson] [ChaCha20Poly1305] [X25519] {vset : ValidatorSet}
    {identity : PartyIdentity} {session : Session} (shaped : Shaped vset identity session)
    (stimulus : Stimulus) : session.cast ⊆ (session.handle stimulus).cast := by
  let holds : Session → Prop := fun after => session.cast ⊆ after.cast
  change holds (session.handle stimulus)
  have absorbed {before : Session} (held : holds before) (turn : Turn) :
      holds (before.absorb turn) :=
    List.Subset.trans held (List.subset_append_left _ _)
  apply handle_rule shaped (List.Subset.refl _)
  · intro before after _ tends held
    change session.cast ⊆ after.cast
    rw [tends.cast]
    exact held
  · exact fun _ _ _ held => held
  · intro before height view voter _ _ held
    apply recordView_preserves
    · exact held
    · exact fun _ _ _ => held
  · exact fun _ _ _ held => held
  · exact fun _ _ _ _ held => held
  · exact fun _ _ held => held
  · exact fun _ _ _ _ _ _ _ held => held
  · exact fun _ _ _ _ _ held => held
  · exact fun _ _ _ _ _ _ _ _ held => absorbed held _
  · exact fun _ _ _ => absorbed (List.Subset.refl _) _
  · exact fun _ _ _ _ _ held => absorbed held _

end Sessions

end Session

/-! ### Networks -/

/-- What reaches one engine next. -/
structure Arrival where
  receiver : PartyId
  stimulus : Stimulus

/-- The engines of a network, by the party that runs them. -/
abbrev Network := PartyId → Session

namespace Network

section Networks

variable [Ed25519] [Blake3] [SerdeJson] [ChaCha20Poly1305] [X25519]

omit [Ed25519] [SerdeJson] [ChaCha20Poly1305] [X25519] [Blake3] in
def start (vset : ValidatorSet) (identities : PartyId → PartyIdentity) (nodes : PartyId → Node) :
    Network :=
  fun party => Session.start (identities party) vset (nodes party)

def deliver (network : Network) (delivery : Arrival) : Network :=
  Function.update network delivery.receiver
    ((network delivery.receiver).handle delivery.stimulus)

omit [Ed25519] [SerdeJson] [ChaCha20Poly1305] [X25519] [Blake3] in
def inbox (party : PartyId) (deliveries : List Arrival) : List Stimulus :=
  (deliveries.filter fun delivery => delivery.receiver = party).map Arrival.stimulus

omit [Ed25519] [SerdeJson] [ChaCha20Poly1305] [X25519] [Blake3] in
theorem inbox_append (party : PartyId) (front back : List Arrival) :
    inbox party (front ++ back) = inbox party front ++ inbox party back := by
  unfold inbox
  rw [List.filter_append, List.map_append]

/-- Whatever the interleaving, an engine has seen its own inbox. -/
theorem run_deliver (network : Network) (deliveries : List Arrival) (party : PartyId) :
    Run.run deliver network deliveries party =
      Run.run Session.handle (network party) (inbox party deliveries) := by
  induction deliveries generalizing network with
  | nil => rfl
  | cons delivery rest ih =>
      rw [Run.run_cons, ih]
      by_cases here : delivery.receiver = party
      · subst here
        have first : inbox delivery.receiver (delivery :: rest) =
            delivery.stimulus :: inbox delivery.receiver rest := by
          unfold inbox
          rw [List.filter_cons_of_pos (by simp), List.map_cons]
        rw [first, Run.run_cons]
        unfold deliver
        rw [Function.update_self]
      · have same : inbox party (delivery :: rest) = inbox party rest := by
          unfold inbox
          rw [List.filter_cons_of_neg (by simpa using here)]
        rw [same]
        unfold deliver
        rw [Function.update_of_ne (Ne.symm here)]

/-- Votes of honest members are not forged: one that verifies under the registered key was sent
by the member's engine. -/
def Genuine (vset : ValidatorSet) (faulty : Finset PartyId) (network : Network)
    (delivery : Arrival) : Prop :=
  ∀ vote, delivery.stimulus.input = .net (.vote vote) → vote.voter ∉ faulty →
    Verified vset vote →
    ∃ sent, .vote sent ∈ (network vote.voter).sent ∧ vote.SameBallot sent

variable {vset : ValidatorSet} {identities : PartyId → PartyIdentity} {nodes : PartyId → Node}
  {faulty : Finset PartyId} {deliveries : List Arrival}

theorem engine (deliveries : List Arrival) (party : PartyId) :
    Run.run deliver (start vset identities nodes) deliveries party =
      Run.run Session.handle (Session.start (identities party) vset (nodes party))
        (inbox party deliveries) :=
  run_deliver _ deliveries party

theorem balloted (deliveries : List Arrival) (party : PartyId) :
    Session.Balloted (identities party).party
      (Run.run deliver (start vset identities nodes) deliveries party) := by
  rw [engine]
  exact (Session.run_balloted (identities party) vset (nodes party) (inbox party deliveries)).2

theorem backed (deliveries : List Arrival) (party : PartyId) :
    Session.Backed vset (Session.heardVotes (inbox party deliveries)) (nodes party).blocks
      (Session.gossip (inbox party deliveries))
      (Run.run deliver (start vset identities nodes) deliveries party) := by
  rw [engine]
  exact Session.Backed.run (nodes party) (inbox party deliveries)

/-- A vote once cast stays cast. -/
theorem cast_grows (deliveries : List Arrival) (delivery : Arrival) (party : PartyId) :
    (Run.run deliver (start vset identities nodes) deliveries party).cast ⊆
      (Run.run deliver (start vset identities nodes) (deliveries ++ [delivery]) party).cast := by
  have shaped : Session.Shaped vset (identities delivery.receiver)
      (Run.run deliver (start vset identities nodes) deliveries delivery.receiver) := by
    rw [engine]
    exact (Session.run_balloted (identities _) vset (nodes _) _).1
  rw [Run.run_snoc]
  generalize Run.run deliver (start vset identities nodes) deliveries = network at shaped ⊢
  unfold deliver
  by_cases here : party = delivery.receiver
  · subst here
    rw [Function.update_self]
    exact Session.handle_cast shaped delivery.stimulus
  · rw [Function.update_of_ne here]
    exact List.Subset.refl _

/-- What honest members are heard to vote, they have cast. -/
theorem heard_cast (genuine : Run.Along deliver (Genuine vset faulty)
      (start vset identities nodes) deliveries) {party : PartyId} {vote : Vote}
    (heard : vote ∈ Session.heardVotes (inbox party deliveries)) (honest : vote.voter ∉ faulty)
    (verified : Verified vset vote) :
    ∃ ballot ∈ (Run.run deliver (start vset identities nodes) deliveries vote.voter).cast,
      vote.SameBallot ballot := by
  induction deliveries using List.reverseRecOn with
  | nil => cases heard
  | append_singleton deliveries delivery ih =>
      obtain ⟨before, last, _⟩ := (Run.along_append deliver).mp genuine
      rw [inbox_append, Session.heardVotes_append] at heard
      have cast : ∃ ballot ∈ (Run.run deliver (start vset identities nodes) deliveries
          vote.voter).cast, vote.SameBallot ballot := by
        rcases List.mem_append.mp heard with earlier | now
        · exact ih before earlier
        · have input : delivery.stimulus.input = .net (.vote vote) := by
            unfold inbox Session.heardVotes at now
            obtain ⟨stimulus, arrived, read⟩ := List.mem_filterMap.mp now
            obtain ⟨other, inside, rfl⟩ := List.mem_map.mp arrived
            rw [List.mem_singleton.mp (List.mem_of_mem_filter inside)] at read
            split at read
            · rename_i found
              rw [found, Option.some.inj read]
            · cases read
          obtain ⟨sent, broadcast, same⟩ := last vote input honest verified
          obtain ⟨ballot, own, ballots⟩ := (balloted deliveries vote.voter).sent sent broadcast
          exact ⟨ballot, own, Vote.SameBallot.trans same ballots⟩
      obtain ⟨ballot, own, same⟩ := cast
      exact ⟨ballot, cast_grows deliveries delivery vote.voter own, same⟩

/-- A quorum of precommits that one engine knows of. -/
def Certified (vset : ValidatorSet) (identities : PartyId → PartyIdentity)
    (nodes : PartyId → Node) (deliveries : List Arrival) (party : PartyId) (height : Nat)
    (round : UInt32) (block : Hash) : Prop :=
  Nonempty (Certificate vset fun voter =>
    Witnessed vset (Session.heardVotes (inbox party deliveries))
      (Run.run deliver (start vset identities nodes) deliveries party).cast height round
      .precommit voter block)

/-- An honest voter in a certificate has cast that precommit. -/
theorem witnessed_cast (genuine : Run.Along deliver (Genuine vset faulty)
      (start vset identities nodes) deliveries)
    (named : ∀ party, party ∉ faulty → (identities party).party = party) {party voter : PartyId}
    (trusted : party ∉ faulty) (honest : voter ∉ faulty) {height : Nat} {round : UInt32}
    {kind : VoteKind} {block : Hash}
    (witnessed : Witnessed vset (Session.heardVotes (inbox party deliveries))
      (Run.run deliver (start vset identities nodes) deliveries party).cast height round kind
      voter block) :
    ∃ ballot ∈ (Run.run deliver (start vset identities nodes) deliveries voter).cast,
      ballot.height = height ∧ ballot.round = round ∧ ballot.kind = kind ∧
        ballot.blockHash = block := by
  obtain ⟨vote, source, rfl, rfl, rfl, rfl, rfl⟩ := witnessed
  rcases source with own | ⟨heard, verified⟩
  · have voter := (balloted deliveries party).ballots.own vote own
    rw [named party trusted] at voter
    exact ⟨vote, voter ▸ own, rfl, rfl, rfl, rfl⟩
  · obtain ⟨ballot, cast, height, round, block, _, kind⟩ := heard_cast genuine heard honest verified
    exact ⟨ballot, cast, height.symm, round.symm, kind.symm, block.symm⟩

/-- With less than a third of the stake faulty, certificates of one round name one block. -/
theorem certified_unique (bound : Quorum.power vset.weight vset.electorate < 2 ^ 63)
    (minority : 3 * Quorum.power vset.weight (vset.electorate ∩ faulty) <
      Quorum.power vset.weight vset.electorate)
    (named : ∀ party, party ∉ faulty → (identities party).party = party)
    (genuine : Run.Along deliver (Genuine vset faulty) (start vset identities nodes) deliveries)
    {left right : PartyId} (leftHonest : left ∉ faulty) (rightHonest : right ∉ faulty)
    {height : Nat} {round : UInt32} {leftBlock rightBlock : Hash}
    (leftCertified : Certified vset identities nodes deliveries left height round leftBlock)
    (rightCertified : Certified vset identities nodes deliveries right height round rightBlock) :
    leftBlock = rightBlock := by
  obtain ⟨first⟩ := leftCertified
  obtain ⟨second⟩ := rightCertified
  have firstQuorum := first.quorum
  have secondQuorum := second.quorum
  rw [vset.quorumThreshold_toNat bound] at firstQuorum secondQuorum
  obtain ⟨voter, inFirst, inSecond, honest⟩ := Quorum.exists_common_outside vset.weight
    first.active second.active firstQuorum secondQuorum minority
  obtain ⟨one, oneCast, oneHeight, oneRound, oneKind, oneBlock⟩ :=
    witnessed_cast genuine named leftHonest honest (first.signed voter inFirst)
  obtain ⟨other, otherCast, otherHeight, otherRound, otherKind, otherBlock⟩ :=
    witnessed_cast genuine named rightHonest honest (second.signed voter inSecond)
  rw [← oneBlock, ← otherBlock]
  exact (balloted deliveries voter).ballots.unique one oneCast other otherCast
    (oneHeight.trans otherHeight.symm) (oneRound.trans otherRound.symm)
    (oneKind.trans otherKind.symm)

/-- A certificate of a later round has an honest member behind it that adopted that view. -/
theorem certified_adopted (bound : Quorum.power vset.weight vset.electorate < 2 ^ 63)
    (minority : 3 * Quorum.power vset.weight (vset.electorate ∩ faulty) <
      Quorum.power vset.weight vset.electorate)
    (named : ∀ party, party ∉ faulty → (identities party).party = party)
    (genuine : Run.Along deliver (Genuine vset faulty) (start vset identities nodes) deliveries)
    {party : PartyId} (trusted : party ∉ faulty) {height : Nat} {round : UInt32} {block : Hash}
    (certified : Certified vset identities nodes deliveries party height round block)
    (later : round ≠ 0) :
    ∃ member, member ∉ faulty ∧
      (height, round) ∈ (Run.run deliver (start vset identities nodes) deliveries
        member).adopted := by
  obtain ⟨certificate⟩ := certified
  have quorum := certificate.quorum
  rw [vset.quorumThreshold_toNat bound] at quorum
  obtain ⟨voter, inside, honest⟩ :=
    Quorum.exists_outside vset.weight certificate.active quorum minority
  obtain ⟨ballot, cast, rfl, rfl, _⟩ :=
    witnessed_cast genuine named trusted honest (certificate.signed voter inside)
  exact ⟨voter, honest, ((backed deliveries voter).voted ballot cast).resolve_left later⟩

/-- Different certified blocks of one height: an honest member has changed its view there. -/
theorem conflict_adopted (bound : Quorum.power vset.weight vset.electorate < 2 ^ 63)
    (minority : 3 * Quorum.power vset.weight (vset.electorate ∩ faulty) <
      Quorum.power vset.weight vset.electorate)
    (named : ∀ party, party ∉ faulty → (identities party).party = party)
    (genuine : Run.Along deliver (Genuine vset faulty) (start vset identities nodes) deliveries)
    {left right : PartyId} (leftHonest : left ∉ faulty) (rightHonest : right ∉ faulty)
    {height : Nat} {leftRound rightRound : UInt32} {leftBlock rightBlock : Hash}
    (first : Certified vset identities nodes deliveries left height leftRound leftBlock)
    (second : Certified vset identities nodes deliveries right height rightRound rightBlock)
    (different : leftBlock ≠ rightBlock) :
    ∃ member round, member ∉ faulty ∧ (height, round) ∈
      (Run.run deliver (start vset identities nodes) deliveries member).adopted := by
  by_cases leftFirst : leftRound = 0
  · have rightLater : rightRound ≠ 0 := by
      intro rightFirst
      subst leftFirst rightFirst
      exact different (certified_unique bound minority named genuine leftHonest rightHonest
        first second)
    obtain ⟨member, honest, adopted⟩ :=
      certified_adopted bound minority named genuine rightHonest second rightLater
    exact ⟨member, rightRound, honest, adopted⟩
  · obtain ⟨member, honest, adopted⟩ :=
      certified_adopted bound minority named genuine leftHonest first leftFirst
    exact ⟨member, leftRound, honest, adopted⟩

/-- Blocks that an engine has neither started with nor been handed by a peer. -/
def Own (nodes : PartyId → Node) (deliveries : List Arrival) (party : PartyId) (block : Block) :
    Prop :=
  block ∉ (nodes party).blocks ∧
    ∀ other ∈ Session.gossip (inbox party deliveries), other.hash ≠ block.hash

theorem own_certified {party : PartyId} {block : Block}
    (member : block ∈
      (Run.run deliver (start vset identities nodes) deliveries party).engine.node.blocks)
    (own : Own nodes deliveries party block) :
    ∃ round, Certified vset identities nodes deliveries party block.height round block.hash := by
  rcases (backed deliveries party).blocks block member with
    initial | finalizes | ⟨other, given, same⟩
  · exact absurd initial own.1
  · exact finalizes
  · exact absurd same (own.2 other given)

/-- Agreement.  Whatever the interleaving, a block that an engine commits, or that is on its
chain without a peer's help, has a quorum of precommits of one view; honest engines'
certificates of one view name one block; and when two honest engines commit different blocks at
one height, or have them on their chains, an honest member has changed its view there. -/
theorem agreement (bound : Quorum.power vset.weight vset.electorate < 2 ^ 63)
    (minority : 3 * Quorum.power vset.weight (vset.electorate ∩ faulty) <
      Quorum.power vset.weight vset.electorate)
    (named : ∀ party, party ∉ faulty → (identities party).party = party)
    (genuine : Run.Along deliver (Genuine vset faulty) (start vset identities nodes) deliveries) :
    let network := Run.run deliver (start vset identities nodes) deliveries
    (∀ party height block, (height, block) ∈ (network party).commits →
      ∃ round, Certified vset identities nodes deliveries party height round block) ∧
    (∀ party, ∀ block ∈ (network party).engine.node.blocks, Own nodes deliveries party block →
      ∃ round, Certified vset identities nodes deliveries party block.height round block.hash) ∧
    (∀ left right height round leftBlock rightBlock, left ∉ faulty → right ∉ faulty →
      Certified vset identities nodes deliveries left height round leftBlock →
      Certified vset identities nodes deliveries right height round rightBlock →
      leftBlock = rightBlock) ∧
    (∀ left right height leftBlock rightBlock, left ∉ faulty → right ∉ faulty →
      (height, leftBlock) ∈ (network left).commits →
      (height, rightBlock) ∈ (network right).commits → leftBlock ≠ rightBlock →
      ∃ member round, member ∉ faulty ∧ (height, round) ∈ (network member).adopted) ∧
    (∀ left right, left ∉ faulty → right ∉ faulty →
      ∀ leftBlock ∈ (network left).engine.node.blocks,
      ∀ rightBlock ∈ (network right).engine.node.blocks,
      Own nodes deliveries left leftBlock → Own nodes deliveries right rightBlock →
      leftBlock.height = rightBlock.height → leftBlock.hash ≠ rightBlock.hash →
      ∃ member round, member ∉ faulty ∧
        (leftBlock.height, round) ∈ (network member).adopted) := by
  refine ⟨fun party height block => (backed deliveries party).commits height block,
    fun party block => own_certified, ?_, ?_, ?_⟩
  · intro left right height round leftBlock rightBlock leftHonest rightHonest first second
    exact certified_unique bound minority named genuine leftHonest rightHonest first second
  · intro left right height leftBlock rightBlock leftHonest rightHonest leftIn rightIn different
    obtain ⟨leftRound, first⟩ := (backed deliveries left).commits height leftBlock leftIn
    obtain ⟨rightRound, second⟩ := (backed deliveries right).commits height rightBlock rightIn
    exact conflict_adopted bound minority named genuine leftHonest rightHonest first second
      different
  · intro left right leftHonest rightHonest leftBlock leftIn rightBlock rightIn leftOwn rightOwn
      level different
    obtain ⟨leftRound, first⟩ := own_certified leftIn leftOwn
    obtain ⟨rightRound, second⟩ := own_certified rightIn rightOwn
    rw [← level] at second
    exact conflict_adopted bound minority named genuine leftHonest rightHonest first second
      different

end Networks

/-! ### A validator on its own -/

section Lone

attribute [local instance] SerdeJson.compact Blake3.polynomial Ed25519.keyed ChaCha20Poly1305.keyed
  X25519.masked

def loneSet : ValidatorSet :=
  ValidatorSet.new.add (.new ⟨"v1"⟩ (PartyIdentity.repeated "v1" 1).publicKey 100)

/-- It takes every heartbeat and does nothing. -/
def silentStorage : Prism :=
  { name := "storage"
    handle := fun _ => pure ⟨[], [], 0⟩ }

def loneNode : Node := Node.new ⟨"v1"⟩ (Cascade.empty.install silentStorage)

def everybody (party : PartyId) : PartyIdentity := .repeated party.name 1

def firstTick : List Arrival :=
  [{ receiver := ⟨"v1"⟩
     stimulus := { envs := fun _ => .healthy 10, input := .tick } }]

/-- The first tick of a lone validator commits a block. -/
theorem agreement_lone :
    ∃ block, (1, block) ∈ (Run.run deliver (start loneSet everybody fun _ => loneNode) firstTick
        ⟨"v1"⟩).commits ∧
      ∃ round, Certified loneSet everybody (fun _ => loneNode) firstTick ⟨"v1"⟩ 1 round block := by
  have emitted : ((Run.run deliver (start loneSet everybody fun _ => loneNode) firstTick
      ⟨"v1"⟩).commits.map Prod.fst) = [1] := by
    decide +kernel
  obtain ⟨⟨height, block⟩, member, rfl⟩ := List.mem_map.mp (emitted ▸ List.mem_cons_self)
  have bound : Quorum.power loneSet.weight loneSet.electorate < 2 ^ 63 := by
    decide +kernel
  have minority : 3 * Quorum.power loneSet.weight (loneSet.electorate ∩ ∅) <
      Quorum.power loneSet.weight loneSet.electorate := by
    decide +kernel
  have genuine : Run.Along deliver (Genuine loneSet ∅) (start loneSet everybody fun _ => loneNode)
      firstTick :=
    ⟨fun vote arrived => Input.noConfusion arrived, trivial⟩
  exact ⟨block, member, (agreement bound minority (fun _ _ => rfl) genuine).1 _ 1 block member⟩

end Lone

end Network

end Veilux
