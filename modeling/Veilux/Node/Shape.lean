/-
The shape every session keeps: engine, round machine and view coordinator agree on
height and view, the engine is at most one block ahead of its head, and the machine
files blocks of its own height under their own hashes.
-/

import Veilux.Consensus.Certificate
import Veilux.Node.Steps

namespace Veilux

namespace Aurora

@[simp] theorem addLocalVote_validators (aurora : Aurora) (vote : Vote) :
    (aurora.addLocalVote vote).2.validators = aurora.validators := by
  rcases addLocalVote_cases aurora vote with ⟨error, rejected⟩ | ⟨_, added⟩
  · rw [rejected]
  · rw [added, tallyVote_validators]

@[simp] theorem addLocalVote_me (aurora : Aurora) (vote : Vote) :
    (aurora.addLocalVote vote).2.me = aurora.me := by
  rcases addLocalVote_cases aurora vote with ⟨error, rejected⟩ | ⟨_, added⟩
  · rw [rejected]
  · rw [added, tallyVote_me]

@[simp] theorem addVote_validators [Ed25519] (aurora : Aurora) (vote : Vote) :
    (aurora.addVote vote).2.validators = aurora.validators := by
  rcases addVote_cases aurora vote with ⟨error, rejected⟩ | ⟨_, _, _, added⟩
  · rw [rejected]
  · rw [added, tallyVote_validators]

@[simp] theorem addVote_me [Ed25519] (aurora : Aurora) (vote : Vote) :
    (aurora.addVote vote).2.me = aurora.me := by
  rcases addVote_cases aurora vote with ⟨error, rejected⟩ | ⟨_, _, _, added⟩
  · rw [rejected]
  · rw [added, tallyVote_me]

end Aurora

/-- A machine at a height and round beside the Aurora of a validator. -/
structure Framed [Blake3] (vset : ValidatorSet) (me : PartyId) (height : Nat) (round : UInt32)
    (turn : Turn) : Prop where
  atHeight : turn.machine.height = height
  atRound : turn.machine.round = round
  validators : turn.aurora.validators = vset
  voter : turn.aurora.me = some me
  stored : ∀ hash block, turn.machine.block hash = some block →
    block.hash = hash ∧ block.height = height

namespace Framed

variable [Blake3] {vset : ValidatorSet} {me : PartyId} {height : Nat} {round : UInt32}
  {machine : RoundMachine} {aurora : Aurora} {turn : Turn}

theorem newRound (framed : Framed vset me height round (Turn.start machine aurora))
    (newHeight : Nat) (newRound : UInt32) :
    Framed vset me newHeight newRound
      (Turn.start (RoundMachine.newRound newHeight newRound) aurora) :=
  { atHeight := rfl
    atRound := rfl
    validators := framed.validators
    voter := framed.voter
    stored := by
      intro hash block found
      cases found }

theorem store (framed : Framed vset me height round (Turn.start machine aurora)) {block : Block}
    (sameHeight : block.height = height) (own : Option Hash) (actions : List Action) :
    Framed vset me height round
      { machine := { machine with
          seenBlocks := machine.seenBlocks.insert block.hash block
          ownBlock := own }
        aurora := aurora
        actions := actions } := by
  refine { framed with stored := ?_ }
  intro hash other found
  change (machine.seenBlocks.insert block.hash block).lookup hash = some other at found
  by_cases same : hash = block.hash
  · rw [same, AList.lookup_insert] at found
    cases found
    exact ⟨same.symm, sameHeight⟩
  · rw [AList.lookup_insert_ne same] at found
    exact framed.stored hash other found

theorem cast (framed : Framed vset me height round turn) (phase : Phase) (hash : Hash)
    (kind : VoteKind) :
    Framed vset me height round ((turn.enter phase).castOwnVote me hash kind).2 :=
  { atHeight := framed.atHeight
    atRound := framed.atRound
    validators := (Aurora.addLocalVote_validators _ _).trans framed.validators
    voter := (Aurora.addLocalVote_me _ _).trans framed.voter
    stored := framed.stored }

theorem tryAdvance (framed : Framed vset me height round turn) (hash : Hash) :
    Framed vset me height round (turn.tryAdvanceAfterPrevote me hash) := by
  apply Turn.tryAdvanceAfterPrevote_preserves framed
  · intro _ _ _
    exact framed.cast .precommitted hash .precommit
  · intro _ _ _ _ _ cast
    exact { cast with }

theorem prevoteFor (framed : Framed vset me height round turn) (hash : Hash) :
    Framed vset me height round (turn.prevoteFor me hash) :=
  (framed.cast .prevoted hash .prevote).tryAdvance hash

theorem onLocalProposal (framed : Framed vset me height round (Turn.start machine aurora))
    {block : Block} (sameHeight : block.height = height) :
    Framed vset me height round (machine.onLocalProposal aurora block me) := by
  apply RoundMachine.onLocalProposal_preserves
  · exact framed.store sameHeight _ _
  · exact fun turn _ _ _ held => held.prevoteFor block.hash

theorem onProposal (framed : Framed vset me height round (Turn.start machine aurora))
    (block : Block) (parentHash : Hash) :
    Framed vset me height round (machine.onProposal aurora block me parentHash) := by
  apply RoundMachine.onProposal_preserves
  · exact { framed with }
  · intro actions _ sameHeight _
    exact framed.store (sameHeight.trans framed.atHeight) machine.ownBlock actions
  · exact fun turn _ _ _ _ _ held => held.prevoteFor block.hash

theorem onVote [Ed25519] (framed : Framed vset me height round (Turn.start machine aurora))
    (vote : Vote) : Framed vset me height round (machine.onVote aurora vote me) := by
  have counted : Framed vset me height round (Turn.start machine (aurora.addVote vote).2) :=
    { framed with
      validators := (Aurora.addVote_validators _ _).trans framed.validators
      voter := (Aurora.addVote_me _ _).trans framed.voter }
  apply RoundMachine.onVote_preserves
  · exact { framed with }
  · exact fun _ => { counted with }
  · exact fun _ => counted
  · exact fun _ _ _ _ _ => { counted with }
  · exact fun turn _ held => held.tryAdvance vote.blockHash
  · exact fun turn _ held => { held with }

end Framed

namespace Session

structure Shaped [Blake3] (vset : ValidatorSet) (identity : PartyIdentity)
    (session : Session) : Prop where
  signer : session.engine.identity = identity
  me : session.engine.me = identity.party
  frame : Framed vset identity.party session.engine.height session.engine.view
    (Turn.start session.engine.machine session.engine.aurora)
  ahead : session.engine.height ≤ session.engine.node.head.height + 1
  viewsync : session.engine.viewsync.height = session.engine.height

namespace Shaped

variable [Blake3] {vset : ValidatorSet} {identity : PartyIdentity} {session : Session}

theorem start (identity : PartyIdentity) (vset : ValidatorSet) (node : Node) :
    Shaped vset identity (Session.start identity vset node) := by
  refine ⟨rfl, rfl, ⟨rfl, rfl, rfl, rfl, ?_⟩, Nat.le_refl _, rfl⟩
  intro hash block found
  cases found

theorem broadcast (shaped : Shaped vset identity session) (message : NetMessage) :
    Shaped vset identity (session.broadcast message) := { shaped with }

theorem resetHeight (shaped : Shaped vset identity session) :
    Shaped vset identity session.resetHeight :=
  { signer := shaped.signer
    me := shaped.me
    frame := shaped.frame.newRound _ _
    ahead := Nat.le_refl _
    viewsync := rfl }

theorem recordView (shaped : Shaped vset identity session) (height : Nat) (view : UInt32)
    (voter : PartyId) : Shaped vset identity (session.recordView height view voter) := by
  have sameHeight : (session.engine.viewsync.record height view voter
      session.engine.aurora.validators).2.height = session.engine.height := by
    unfold ViewCoordinator.record
    split
    · exact shaped.viewsync
    · split
      · exact shaped.viewsync
      · exact shaped.viewsync
  apply recordView_preserves
  · exact { shaped with viewsync := sameHeight }
  · intro chosen _ _
    exact { shaped with
      frame := shaped.frame.newRound _ _
      viewsync := sameHeight }

/-- After the first half of a tick the engine is exactly one block ahead. -/
theorem timeout [Ed25519] (shaped : Shaped vset identity session) :
    Shaped vset identity session.timeout ∧
      session.timeout.engine.height = session.timeout.engine.node.head.height + 1 := by
  unfold Session.timeout
  dsimp only
  split
  · exact ⟨shaped.resetHeight, rfl⟩
  · rename_i behind
    have level : session.engine.height = session.engine.node.head.height + 1 := by
      have ahead := shaped.ahead
      omega
    split
    · split
      · have idle : Shaped vset identity
            { session with
              engine := { session.engine with staleTicks := 0 }
              asked := session.asked ++ [(session.engine.height, session.engine.view + 1)] } :=
          { shaped with }
        refine ⟨(idle.recordView _ _ _).broadcast _, ?_⟩
        change (Session.recordView _ _ _ _).engine.height =
          (Session.recordView _ _ _ _).engine.node.head.height + 1
        unfold Session.recordView Session.adoptView
        dsimp only
        split
        · split
          · exact level
          · exact level
        · exact level
      · exact ⟨{ shaped with }, level⟩
    · exact ⟨shaped, level⟩

theorem absorb (shaped : Shaped vset identity session) {turn : Turn}
    (framed : Framed vset identity.party session.engine.height session.engine.view turn) : Shaped vset identity (session.absorb turn) :=
  { shaped with frame := { framed with } }

theorem tends [Ed25519] {after : Session} (shaped : Shaped vset identity session)
    (tends : Tends session after) : Shaped vset identity after := by
  obtain ⟨node, watch, kept, same⟩ := tends.engine
  have ahead : session.engine.height ≤ node.head.height + 1 := by
    rw [kept.head]
    exact shaped.ahead
  constructor <;> rw [same]
  · exact shaped.signer
  · exact shaped.me
  · exact shaped.frame
  · exact ahead
  · exact shaped.viewsync

section Steps

variable [SerdeJson] [ChaCha20Poly1305]

theorem execute (shaped : Shaped vset identity session) (env : Env) (block : Block) :
    Shaped vset identity (session.execute env block) := by
  refine { shaped with ahead := ?_ }
  have ahead := shaped.ahead
  change session.engine.height ≤ (session.engine.node.commitBlock env block).2.head.height + 1
  rcases Node.commitBlock_height env session.engine.node block with same | grown
  · omega
  · omega

theorem runCommit (shaped : Shaped vset identity session) (env : Env) (hash : Hash) :
    Shaped vset identity (session.runCommit env hash) := by
  apply runCommit_preserves shaped
  · exact fun block _ => shaped.execute env block
  · exact fun after message _ _ _ held => (held.broadcast message).resetHeight

theorem acceptExternal (shaped : Shaped vset identity session) (env : Env) (block : Block) :
    Shaped vset identity (session.acceptExternal env block).2 := by
  rcases acceptExternal_eq env session block with same | ⟨_, same⟩
  · rw [same]
    exact shaped
  · rw [same]
    exact shaped.execute env block

theorem acceptAll (shaped : Shaped vset identity session) (envs : Nat → Env)
    (blocks : List Block) (applied : Nat) :
    Shaped vset identity (session.acceptAll envs blocks applied).2 := by
  induction blocks generalizing envs applied session with
  | nil => exact shaped
  | cons block rest ih => exact ih (shaped.acceptExternal (envs 0) block) _ _

theorem onBlock (shaped : Shaped vset identity session) (env : Env) (block : Block) :
    Shaped vset identity (session.onBlock env block) := by
  have accepted := shaped.acceptExternal env block
  unfold Session.onBlock
  dsimp only
  split
  · exact shaped.broadcast _
  · split
    · rename_i result
      rw [result] at accepted
      exact accepted.resetHeight
    · rename_i result
      rw [result] at accepted
      exact accepted

theorem onBlocks (shaped : Shaped vset identity session) (envs : Nat → Env)
    (blocks : List Block) : Shaped vset identity (session.onBlocks envs blocks) := by
  have accepted := shaped.acceptAll envs blocks 0
  unfold Session.onBlocks
  split
  · rename_i result
    rw [result] at accepted
    exact accepted
  · rename_i result
    rw [result] at accepted
    exact accepted.resetHeight

variable [Ed25519]

theorem follow (shaped : Shaped vset identity session) (envs : Nat → Env) {turn : Turn}
    (framed : Framed vset identity.party session.engine.height session.engine.view turn) : Shaped vset identity (session.follow envs turn) := by
  apply follow_preserves
  · exact fun _ _ _ held => held.broadcast _
  · exact fun _ _ _ held => held.broadcast _
  · exact fun _ _ _ _ _ held => held.runCommit _ _
  · exact shaped.absorb framed

/-- The proposer's block sits at the engine's height. -/
theorem propose (shaped : Shaped vset identity session)
    (level : session.engine.height = session.engine.node.head.height + 1) (envs : Nat → Env) :
    Shaped vset identity (session.propose envs) := by
  unfold Session.propose
  dsimp only
  split
  · rcases buildOrReuseBlock_cases envs session.engine.node session.engine.identity
      session.engine.height session.engine.machine with
      ⟨existing, found, built⟩ | ⟨error, node, kept, built⟩ | ⟨submitted, node, first, kept, built⟩
    · rw [built]
      obtain ⟨hash, _, stored⟩ := Option.bind_eq_some_iff.mp found
      rw [shaped.me]
      exact shaped.follow _ (shaped.frame.onLocalProposal (shaped.frame.stored hash _ stored).2)
    · rw [built]
      exact shaped.tends (withNode_tends kept)
    · rw [built]
      have sameHeight : (submitted.assembledBlock (envs 1)).height = session.engine.height := by
        change submitted.head.height + 1 = _
        rw [first.head, level]
      rw [shaped.me]
      exact (shaped.tends (withNode_tends (first.trans kept))).follow _
        (shaped.frame.onLocalProposal sameHeight)
  · exact shaped

omit [SerdeJson] [ChaCha20Poly1305] in
theorem rebroadcast (shaped : Shaped vset identity session) :
    Shaped vset identity session.rebroadcast := { shaped with }

theorem onProposal (shaped : Shaped vset identity session) (envs : Nat → Env) (block : Block) :
    Shaped vset identity (session.onProposal envs block) := by
  unfold Session.onProposal
  dsimp only
  rw [shaped.me]
  exact shaped.follow envs (shaped.frame.onProposal block _)

theorem onVote (shaped : Shaped vset identity session) (envs : Nat → Env) (vote : Vote) :
    Shaped vset identity (session.onVote envs vote) := by
  have watched := shaped.tends (detectEquivocation_tends (envs 0) session vote)
  unfold Session.onVote
  dsimp only
  rw [watched.me]
  exact watched.follow _ (watched.frame.onVote vote)

omit [SerdeJson] [ChaCha20Poly1305] in
theorem onViewChange (shaped : Shaped vset identity session) (change : ViewChange) :
    Shaped vset identity (session.onViewChange change) := by
  unfold Session.onViewChange
  split
  · exact shaped.recordView _ _ _
  · exact shaped

variable [X25519]

theorem handle (shaped : Shaped vset identity session) (stimulus : Stimulus) :
    Shaped vset identity (session.handle stimulus) := by
  apply handle_preserves shaped
  · exact fun tends => shaped.tends tends
  · intro _
    obtain ⟨waited, level⟩ := shaped.timeout
    exact (waited.propose level stimulus.envs).rebroadcast
  · exact fun _ block _ => shaped.onProposal stimulus.envs block
  · exact fun vote _ => shaped.onVote stimulus.envs vote
  · exact fun change _ => shaped.onViewChange change
  · exact fun block _ => shaped.onBlock (stimulus.envs 0) block
  · exact fun blocks _ => shaped.onBlocks stimulus.envs blocks

end Steps

end Shaped

/-! ### The rule for invariants of a session -/

/-- Who asks for a view: the engine after its timeout, or a peer whose message
verifies. -/
inductive Asked [Ed25519] (input : Input) (session : Session) : Nat → UInt32 → PartyId → Prop
  | own (ticked : input = .tick)
      (listed : (session.engine.height, session.engine.view + 1) ∈ session.asked) :
      Asked input session session.engine.height (session.engine.view + 1) session.engine.me
  | peer (change : ViewChange) (delivered : input = .net (.viewChange change))
      (verified : verifyViewChange change session.engine.aurora.validators = true) :
      Asked input session change.height change.view change.voter

/-- A peer's block on its way into `commit_block`: alone, or in a batch whose front
has been applied. -/
inductive Gossiped [Blake3] [SerdeJson] [ChaCha20Poly1305] (stimulus : Stimulus)
    (session : Session) : Session → Block → Prop
  | block (block : Block) (delivered : stimulus.input = .net (.block block))
      (reaches : reachesCommit session.engine.node block = true) :
      Gossiped stimulus session session block
  | batch (front : List Block) (block : Block) (back : List Block)
      (delivered : stimulus.input = .net (.blocks (front ++ block :: back)))
      (reaches : reachesCommit (session.acceptAll stimulus.envs front 0).2.engine.node block =
        true) :
      Gossiped stimulus session (session.acceptAll stimulus.envs front 0).2 block

section Rule

variable [Blake3] [SerdeJson] [ChaCha20Poly1305]

theorem acceptAll_snoc (session : Session) (envs : Nat → Env) (front : List Block)
    (block : Block) (applied : Nat) :
    (session.acceptAll envs (front ++ [block]) applied).2 =
      ((session.acceptAll envs front applied).2.acceptExternal (envs front.length) block).2 := by
  induction front generalizing session envs applied with
  | nil => rfl
  | cons first rest ih => exact ih _ _ _

/-- Every applied block has raised the head by one. -/
theorem acceptAll_height (session : Session) (envs : Nat → Env) (blocks : List Block)
    (applied : Nat) :
    (session.acceptAll envs blocks applied).2.engine.height = session.engine.height ∧
      session.engine.node.head.height + (session.acceptAll envs blocks applied).1 ≤
        (session.acceptAll envs blocks applied).2.engine.node.head.height + applied := by
  induction blocks generalizing session envs applied with
  | nil => exact ⟨rfl, Nat.le_refl _⟩
  | cons block rest ih =>
      unfold acceptAll
      dsimp only
      rcases acceptExternal_eq (envs 0) session block with same | ⟨_, same⟩
      · rw [same]
        exact ih _ _ _
      · rw [same]
        have head : (session.execute (envs 0) block).engine.node =
            (session.engine.node.commitBlock (envs 0) block).2 := rfl
        cases outcome : (session.engine.node.commitBlock (envs 0) block).1 with
        | ok summary =>
            have raised := Node.commitBlock_height_ok outcome
            obtain ⟨height, grown⟩ := ih (session.execute (envs 0) block)
              (fun index => envs (index + 1)) (applied + 1)
            rw [head] at grown
            simp only [if_true]
            exact ⟨height, by omega⟩
        | error error =>
            have kept := Node.commitBlock_height (envs 0) session.engine.node block
            obtain ⟨height, grown⟩ := ih (session.execute (envs 0) block)
              (fun index => envs (index + 1)) applied
            rw [head] at grown
            simp only [Bool.false_eq_true, if_false]
            exact ⟨height, by omega⟩

variable [Ed25519] {vset : ValidatorSet} {identity : PartyIdentity}

/-- A turn of the machine: it is absorbed, its votes are sent, and the block of an
emitted commit is executed by the machine that holds it. -/
theorem follow_rule {holds : Session → Prop} {session : Session} {envs : Nat → Env} {turn : Turn}
    (shaped : Shaped vset identity session)
    (framed : Framed vset identity.party session.engine.height session.engine.view turn)
    (tended : ∀ {before after : Session}, Shaped vset identity before → Tends before after →
      holds before → holds after)
    (reset : ∀ before, Shaped vset identity before →
      before.engine.height ≤ before.engine.node.head.height → holds before →
      holds before.resetHeight)
    (ballot : ∀ before vote, Shaped vset identity before → vote ∈ before.cast → holds before →
      holds (before.broadcast (.vote (signVote before.engine.identity vote))))
    (committed : ∀ before index hash block, Shaped vset identity before →
      before.engine.machine.block hash = some block →
      (before.engine.machine.height, hash) ∈ before.commits → holds before →
      holds (before.execute (envs index) block))
    (absorbed : holds (session.absorb turn)) : holds (session.follow envs turn) := by
  have rule := @follow_preserves _ _ _ _
    (fun after => Shaped vset identity after ∧ holds after)
    (fun before round block held => ⟨held.1.broadcast _,
      tended held.1 (broadcast_tends before (by simp)) held.2⟩)
    (fun before vote cast held => ⟨held.1.broadcast _, ballot before vote held.1 cast held.2⟩)
    envs session turn
  apply (rule _ ⟨shaped.absorb framed, absorbed⟩).2
  intro before index hash same emitted held
  refine ⟨held.1.runCommit _ hash, ?_⟩
  have run := @runCommit_preserves _ _ _
    (fun after => Shaped vset identity after ∧ holds after) (envs index) before hash held
  apply (run _ _).2
  · intro block found
    refine ⟨held.1.execute _ block, committed before index hash block held.1 found ?_ held.2⟩
    rw [same]
    exact emitted
  · intro after message raised height other executed
    have sent := broadcast_tends after other
    have later := executed.1.tends sent
    refine ⟨later.resetHeight, reset _ later ?_ (tended executed.1 sent executed.2)⟩
    have ahead := held.1.ahead
    change after.engine.height ≤ after.engine.node.head.height
    omega

variable [X25519]

/-- An invariant is preserved by every step when the pieces of a step preserve it:
tending, recording a view, moving to the next height, executing a block of a peer or
of the machine, and absorbing a turn of the machine. -/
theorem handle_rule {holds : Session → Prop} {session : Session} {stimulus : Stimulus}
    (shaped : Shaped vset identity session) (initially : holds session)
    (tended : ∀ {before after : Session}, Shaped vset identity before → Tends before after →
      holds before → holds after)
    (stale : ∀ before ticks asked, holds before →
      holds { before with
        engine := { before.engine with staleTicks := ticks }
        asked := before.asked ++ asked })
    (viewed : ∀ before height view voter, Shaped vset identity before →
      Asked stimulus.input before height view voter → holds before →
      holds (before.recordView height view voter))
    (reset : ∀ before, Shaped vset identity before →
      before.engine.height ≤ before.engine.node.head.height → holds before →
      holds before.resetHeight)
    (ballot : ∀ before vote, Shaped vset identity before → vote ∈ before.cast → holds before →
      holds (before.broadcast (.vote (signVote before.engine.identity vote))))
    (rebroadcast : ∀ before, Shaped vset identity before → holds before →
      holds before.rebroadcast)
    (committed : ∀ before index hash block, Shaped vset identity before →
      before.engine.machine.block hash = some block →
      (before.engine.machine.height, hash) ∈ before.commits → holds before →
      holds (before.execute (stimulus.envs index) block))
    (accepted : ∀ before index block, Shaped vset identity before →
      Gossiped stimulus session before block → holds before →
      holds (before.execute (stimulus.envs index) block))
    (own : ∀ node block, stimulus.input = .tick → Shaped vset identity session.timeout →
      holds session.timeout →
      buildOrReuseBlock stimulus.envs session.timeout.engine.node
        session.timeout.engine.identity session.timeout.engine.height
        session.timeout.engine.machine = (.ok block, node) →
      session.timeout.engine.aurora.isLocalProposer session.timeout.engine.height
        session.timeout.engine.view = true →
      Node.Kept session.timeout.engine.node node → holds (session.timeout.withNode node) →
      holds ((session.timeout.withNode node).absorb
        (session.timeout.engine.machine.onLocalProposal session.timeout.engine.aurora block
          identity.party)))
    (offered : ∀ round block, stimulus.input = .net (.proposal round block) →
      holds (session.absorb (session.engine.machine.onProposal
        session.engine.aurora block identity.party session.engine.node.head.hash)))
    (counted : ∀ before vote, stimulus.input = .net (.vote vote) → Tends session before →
      Shaped vset identity before → holds before →
      holds (before.absorb
        (before.engine.machine.onVote before.engine.aurora vote identity.party))) :
    holds (session.handle stimulus) := by
  have waited := shaped.timeout
  apply handle_preserves initially
  · exact fun tends => tended shaped tends initially
  · intro ticked
    have held : holds session.timeout := by
      unfold Session.timeout
      dsimp only
      split
      · rename_i behind
        exact reset session shaped behind initially
      · split
        · split
          · have idle : Shaped vset identity
                { session with
                  engine := { session.engine with staleTicks := 0 }
                  asked := session.asked ++ [(session.engine.height, session.engine.view + 1)] } :=
              { shaped with }
            have asked := viewed _ _ _ _ idle
              (.own ticked (List.mem_append_right _ (List.mem_singleton_self _)))
              (stale session 0 _ initially)
            exact tended (idle.recordView _ _ _) (broadcast_tends _ (by simp)) asked
          · have counted := stale session (session.engine.staleTicks + 1) [] initially
            rw [List.append_nil] at counted
            exact counted
        · exact initially
    have proposed : holds (session.timeout.propose stimulus.envs) := by
      unfold Session.propose
      dsimp only
      rw [waited.1.me]
      -- A block that was built or repeated sits at the engine's height.
      have turned : ∀ node block, Node.Kept session.timeout.engine.node node →
          block.height = session.timeout.engine.height →
          holds ((session.timeout.withNode node).absorb
            (session.timeout.engine.machine.onLocalProposal session.timeout.engine.aurora block
              identity.party)) →
          holds ((session.timeout.withNode node).follow (fun index => stimulus.envs (index + 2))
            (session.timeout.engine.machine.onLocalProposal session.timeout.engine.aurora block
              identity.party)) := by
        intro node block kept sameHeight absorbed
        exact follow_rule (waited.1.tends (withNode_tends kept))
          (waited.1.frame.onLocalProposal sameHeight) tended reset ballot
          (fun before index => committed before (index + 2)) absorbed
      split
      · rename_i ready
        rcases buildOrReuseBlock_cases stimulus.envs session.timeout.engine.node
          session.timeout.engine.identity session.timeout.engine.height
          session.timeout.engine.machine with
          ⟨existing, found, built⟩ | ⟨error, node, kept, built⟩ |
            ⟨submitted, node, first, kept, built⟩
        · rw [built]
          obtain ⟨hash, _, stored⟩ := Option.bind_eq_some_iff.mp found
          exact turned _ existing (Node.Kept.refl _) (waited.1.frame.stored hash _ stored).2
            (own _ existing ticked waited.1 held built ready.1 (Node.Kept.refl _) held)
        · rw [built]
          exact tended waited.1 (withNode_tends kept) held
        · rw [built]
          have sameHeight : (submitted.assembledBlock (stimulus.envs 1)).height =
              session.timeout.engine.height := by
            change submitted.head.height + 1 = _
            rw [first.head, waited.2]
          have both := first.trans kept
          exact turned node _ both sameHeight (own node _ ticked waited.1 held built ready.1 both
            (tended waited.1 (withNode_tends both) held))
      · exact held
    exact rebroadcast _ (waited.1.propose waited.2 stimulus.envs) proposed
  · intro round block delivered
    unfold Session.onProposal
    dsimp only
    rw [shaped.me]
    exact follow_rule shaped (shaped.frame.onProposal block _) tended reset ballot committed
      (offered round block delivered)
  · intro vote delivered
    have tends := detectEquivocation_tends (stimulus.envs 0) session vote
    have watched := shaped.tends tends
    unfold Session.onVote
    dsimp only
    rw [watched.me]
    exact follow_rule watched (watched.frame.onVote vote) tended reset ballot
      (fun before index => committed before (index + 1))
      (counted _ vote delivered tends watched (tended shaped tends initially))
  · intro change delivered
    unfold Session.onViewChange
    split
    · rename_i verified
      exact viewed session _ _ _ shaped (.peer change delivered verified) initially
    · exact initially
  · intro block delivered
    unfold Session.onBlock
    dsimp only
    split
    · exact tended shaped (broadcast_tends session (by simp)) initially
    · rcases acceptExternal_eq (stimulus.envs 0) session block with same | ⟨reaches, same⟩
      · rw [same]
        exact initially
      · have executed := accepted session 0 block shaped (.block block delivered reaches) initially
        rw [same]
        cases outcome : (session.engine.node.commitBlock (stimulus.envs 0) block).1 with
        | error error => exact executed
        | ok summary =>
            apply reset _ (shaped.execute _ block) _ executed
            have ahead := shaped.ahead
            have raised := Node.commitBlock_height_ok outcome
            change session.engine.height ≤
              (session.engine.node.commitBlock (stimulus.envs 0) block).2.head.height
            omega
  · intro blocks delivered
    have applied : ∀ front back, blocks = front ++ back →
        holds (session.acceptAll stimulus.envs front 0).2 := by
      intro front
      induction front using List.reverseRecOn with
      | nil => exact fun back _ => initially
      | append_singleton front block ih =>
          intro back split
          rw [List.append_assoc, List.singleton_append] at split
          have earlier := ih (block :: back) split
          rw [acceptAll_snoc]
          rcases acceptExternal_eq (stimulus.envs front.length)
            (session.acceptAll stimulus.envs front 0).2 block with same | ⟨reaches, same⟩
          · rw [same]
            exact earlier
          · rw [same]
            rw [split] at delivered
            exact accepted _ _ block (shaped.acceptAll _ front 0)
              (.batch front block back delivered reaches) earlier
    have held := applied blocks [] (List.append_nil blocks).symm
    have grown := acceptAll_height session stimulus.envs blocks 0
    have later := shaped.acceptAll stimulus.envs blocks 0
    unfold Session.onBlocks
    generalize session.acceptAll stimulus.envs blocks 0 = result at held grown later
    obtain ⟨count, after⟩ := result
    cases count with
    | zero => exact held
    | succ count =>
        apply reset after later _ held
        have ahead := shaped.ahead
        obtain ⟨height, raised⟩ := grown
        dsimp only at height raised ⊢
        omega

end Rule

end Session

end Veilux
