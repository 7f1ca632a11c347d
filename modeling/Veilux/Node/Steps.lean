/-
What a step of a session can do.  Intake, private envelopes and evidence only tend
the node; the other handlers are composed of absorbing a turn of the machine,
running its actions, executing a block and moving to another height or view.  An
invariant is checked on these pieces.
-/

import Veilux.Lib.Run
import Veilux.Node.Engine

namespace Veilux

namespace Node

/-- A verified block sits on the head. -/
theorem verifyBlock_extends [SerdeJson] [Blake3] {env : Env} {node : Node} {block : Block}
    {executed : List Event × StateTree} (verified : node.verifyBlock env block = .ok executed) :
    block.parent = node.head.hash ∧ block.height = node.head.height + 1 := by
  unfold verifyBlock at verified
  split at verified
  · cases verified
  · rename_i sits
    exact ⟨Decidable.not_not.mp fun other => sits (.inl other),
      Decidable.not_not.mp fun other => sits (.inr other)⟩

theorem head_append (node : Node) (block : Block) : (node.append block).head = block :=
  List.getLast_append_singleton _

variable [SerdeJson] [Blake3] [ChaCha20Poly1305]

/-- The head after a commit: the old one, or the block on top of it. -/
theorem commitBlock_height (env : Env) (node : Node) (block : Block) :
    (node.commitBlock env block).2.head.height = node.head.height ∨
      (node.commitBlock env block).2.head.height = node.head.height + 1 := by
  have committed := commitBlock_committed env node block
  generalize node.commitBlock env block = result at committed
  cases committed with
  | refused error ledgers => exact .inl rfl
  | appended result events state ledgers store verified =>
      right
      change (Node.append _ _).head.height = _
      rw [head_append]
      exact (verifyBlock_extends verified).2

theorem commitBlock_height_ok {env : Env} {node : Node} {block : Block} {summary : BlockSummary}
    (done : (node.commitBlock env block).1 = .ok summary) :
    (node.commitBlock env block).2.head.height = node.head.height + 1 := by
  have committed := commitBlock_committed env node block
  generalize node.commitBlock env block = result at committed done
  cases committed with
  | refused error ledgers => cases done
  | appended result events state ledgers store verified =>
      change (Node.append _ _).head.height = _
      rw [head_append]
      exact (verifyBlock_extends verified).2

end Node

namespace Session

/-! ### Tending the node -/

/-- Only the node's intake and the slash watch changed, and no vote was sent. -/
structure Tends [Ed25519] (session after : Session) : Prop where
  engine : ∃ node watch, Node.Kept session.engine.node node ∧
    after.engine = { session.engine with
      node := node
      slashWatch := watch }
  sent : ∃ messages, after.sent = session.sent ++ messages ∧ ∀ vote, .vote vote ∉ messages
  cast : after.cast = session.cast
  commits : after.commits = session.commits
  asked : after.asked = session.asked
  adopted : after.adopted = session.adopted
  executed : after.executed = session.executed

section Tends

variable [Ed25519]

theorem Tends.refl (session : Session) : Tends session session :=
  { engine := ⟨session.engine.node, session.engine.slashWatch, Node.Kept.refl _, rfl⟩
    sent := ⟨[], (List.append_nil _).symm, fun _ => List.not_mem_nil⟩
    cast := rfl
    commits := rfl
    asked := rfl
    adopted := rfl
    executed := rfl }

theorem Tends.trans {session middle after : Session} (first : Tends session middle)
    (second : Tends middle after) : Tends session after := by
  obtain ⟨node, watch, kept, middleEngine⟩ := first.engine
  obtain ⟨later, laterWatch, laterKept, afterEngine⟩ := second.engine
  obtain ⟨front, frontSent, frontClean⟩ := first.sent
  obtain ⟨back, backSent, backClean⟩ := second.sent
  refine ⟨⟨later, laterWatch, ?_, ?_⟩, ⟨front ++ back, ?_, ?_⟩, second.cast.trans first.cast,
    second.commits.trans first.commits, second.asked.trans first.asked,
    second.adopted.trans first.adopted, second.executed.trans first.executed⟩
  · rw [middleEngine] at laterKept
    exact kept.trans laterKept
  · rw [afterEngine, middleEngine]
  · rw [backSent, frontSent, List.append_assoc]
  · intro vote member
    rcases List.mem_append.mp member with inFront | inBack
    · exact frontClean vote inFront
    · exact backClean vote inBack

theorem withNode_tends {session : Session} {node : Node}
    (kept : Node.Kept session.engine.node node) : Tends session (session.withNode node) :=
  { Tends.refl session with
    engine := ⟨node, session.engine.slashWatch, kept, rfl⟩ }

theorem broadcast_tends (session : Session) {message : NetMessage}
    (other : ∀ vote, message ≠ .vote vote) : Tends session (session.broadcast message) :=
  { Tends.refl session with
    sent := ⟨[message], rfl, fun vote member => other vote (List.mem_singleton.mp member).symm⟩ }

theorem submitSlash_tends (env : Env) (session : Session) (command : StakingCommand) :
    Tends session (session.submitSlash env command) := by
  unfold submitSlash
  dsimp only
  have kept := Node.submitSigned_kept env session.engine.node
    (session.engine.identity.signForChain (stakingCommand session.engine.me .pub
      (session.engine.node.expectedNonce session.engine.identity.party) session.engine.height
      command) session.engine.node.chainId)
  split
  · rename_i submitted
    rw [submitted] at kept
    exact withNode_tends kept
  · rename_i submitted
    rw [submitted] at kept
    exact (withNode_tends kept).trans (broadcast_tends _ (by simp))

theorem submitQuorumSlashes_tends (proofs : List QuorumFraudProof) :
    ∀ (envs : Nat → Env) (session : Session),
      Tends session (submitQuorumSlashes envs proofs session) := by
  induction proofs with
  | nil => exact fun envs session => Tends.refl session
  | cons proof rest ih =>
      exact fun envs session => (submitSlash_tends (envs 0) session _).trans (ih _ _)

theorem detectEquivocation_tends (env : Env) (session : Session) (vote : Vote) :
    Tends session (session.detectEquivocation env vote) := by
  unfold detectEquivocation
  split
  · exact Tends.refl session
  · rename_i validator _
    dsimp only
    have observed : Tends session { session with engine := { session.engine with
        slashWatch := (session.engine.slashWatch.observe vote validator.publicKey).2 } } :=
      { Tends.refl session with
        engine := ⟨session.engine.node, _, Node.Kept.refl _, rfl⟩ }
    split
    · exact observed
    · exact observed.trans (submitSlash_tends env _ _)

theorem onCommand_tends (env : Env) (session : Session) (signed : SignedCommand) :
    Tends session (session.onCommand env signed) :=
  withNode_tends (Node.submitSigned_kept env session.engine.node signed)

theorem ingress_tends (env : Env) (session : Session) (signed : SignedCommand) :
    Tends session (session.ingress env signed) := by
  have kept := Node.submitSigned_kept env session.engine.node signed
  unfold ingress
  split
  · rename_i submitted
    rw [submitted] at kept
    exact withNode_tends kept
  · rename_i submitted
    rw [submitted] at kept
    exact (withNode_tends kept).trans (broadcast_tends _ (by simp))

theorem attest_tends (session : Session) (attestation : Option RootAttestation) :
    Tends session (session.attest attestation) := by
  cases attestation with
  | none => exact Tends.refl session
  | some signed => exact broadcast_tends session (by simp)

theorem onRequestBlocks_tends (session : Session) (fromHeight : Nat) :
    Tends session (session.onRequestBlocks fromHeight) := by
  unfold onRequestBlocks
  dsimp only
  split
  · exact Tends.refl session
  · exact broadcast_tends session (by simp)

theorem reportDivergence_tends (env : Env) (session : Session) (attestation : RootAttestation) :
    Tends session (session.reportDivergence env attestation) := by
  unfold reportDivergence
  split
  · exact submitSlash_tends env session _
  · exact Tends.refl session

theorem onPrivateRoot_tends (envs : Nat → Env) (session : Session)
    (attestation : RootAttestation) :
    Tends session (session.onPrivateRoot envs attestation) := by
  have reported := reportDivergence_tends (envs 0) session attestation
  unfold onPrivateRoot
  dsimp only
  generalize session.reportDivergence (envs 0) attestation = middle at reported
  have recorded := reported.trans
    (withNode_tends (Node.recordAttestation_kept middle.engine.node attestation))
  split
  · exact recorded.trans (submitQuorumSlashes_tends _ _ _)
  · exact recorded

variable [Blake3] [SerdeJson] [ChaCha20Poly1305] [X25519]

theorem ingressPrivate_tends (env : Env) (session : Session) (envelope : PrivateEnvelope) :
    Tends session (session.ingressPrivate env envelope) := by
  have kept := Node.applyPrivateEnvelope_kept env session.engine.node envelope
  unfold ingressPrivate
  split
  · rename_i applied
    rw [applied] at kept
    exact withNode_tends kept
  · rename_i applied
    rw [applied] at kept
    exact ((withNode_tends kept).trans (broadcast_tends _ (by simp))).trans (attest_tends _ _)

theorem onPrivate_tends (env : Env) (session : Session) (envelope : PrivateEnvelope) :
    Tends session (session.onPrivate env envelope) := by
  have kept := Node.applyPrivateEnvelope_kept env session.engine.node envelope
  unfold onPrivate
  split
  · rename_i applied
    rw [applied] at kept
    exact withNode_tends kept
  · rename_i applied
    rw [applied] at kept
    split
    · exact (withNode_tends kept).trans (attest_tends _ _)
    · exact withNode_tends kept

end Tends

/-! ### Views -/

/-- A recorded view change touches the coordinator, and the machine only when a
quorum asked for a higher view. -/
theorem recordView_preserves {holds : Session → Prop} {session : Session} {height : Nat}
    {view : UInt32} {voter : PartyId}
    (recorded : holds { session with engine := { session.engine with
      viewsync := (session.engine.viewsync.record height view voter
        session.engine.aurora.validators).2 } })
    (adopted : ∀ chosen, (session.engine.viewsync.record height view voter
        session.engine.aurora.validators).1 = some chosen → session.engine.view < chosen →
      holds
        { session with
          engine := { session.engine with
            viewsync := (session.engine.viewsync.record height view voter
              session.engine.aurora.validators).2
            view := chosen
            staleTicks := 0
            machine := RoundMachine.newRound session.engine.height chosen }
          adopted := session.adopted ++ [(session.engine.height, chosen)] }) :
    holds (session.recordView height view voter) := by
  unfold recordView
  dsimp only
  split
  · rename_i chosen reported
    unfold adoptView
    split
    · rename_i higher
      exact adopted chosen reported higher
    · exact recorded
  · exact recorded

/-! ### Building a block -/

section Building

variable [Ed25519] [Blake3] [SerdeJson] {envs : Nat → Env} {node : Node}
  {identity : PartyIdentity} {height : Nat}

/-- A block is repeated from the machine, or assembled after the heartbeat was
submitted; the chain is left alone. -/
theorem buildOrReuseBlock_cases (envs : Nat → Env) (node : Node) (identity : PartyIdentity)
    (height : Nat) (machine : RoundMachine) :
    (∃ existing, machine.ownProposedBlock = some existing ∧
      buildOrReuseBlock envs node identity height machine = (.ok existing, node)) ∨
    (∃ error after, Node.Kept node after ∧
      buildOrReuseBlock envs node identity height machine = (.error error, after)) ∨
    (∃ submitted after, Node.Kept node submitted ∧ Node.Kept submitted after ∧
      buildOrReuseBlock envs node identity height machine =
        (.ok (submitted.assembledBlock (envs 1)), after)) := by
  unfold buildOrReuseBlock
  split
  · rename_i existing found
    exact .inl ⟨existing, found, rfl⟩
  · right
    unfold buildLocalBlock
    dsimp only
    have submitted := Node.submitSigned_kept (envs 0) node
      (identity.signForChain (heartbeat identity (node.expectedNonce identity.party) height)
        node.chainId)
    generalize node.submitSigned (envs 0) (identity.signForChain
      (heartbeat identity (node.expectedNonce identity.party) height) node.chainId) = result
      at submitted
    obtain ⟨outcome, later⟩ := result
    cases outcome with
    | error error => exact .inl ⟨error, later, submitted, rfl⟩
    | ok done =>
        dsimp only
        have assembled := Node.assembleBlock_kept (envs 1) later
        cases made : later.assembleBlock (envs 1) with
        | mk outcome after =>
            rw [made] at assembled
            cases outcome with
            | error error => exact .inl ⟨error, after, submitted.trans assembled, rfl⟩
            | ok block =>
                right
                refine ⟨later, after, submitted, assembled, ?_⟩
                rw [Node.assembleBlock_block (congrArg Prod.fst made)]

end Building

/-! ### Checking an invariant piece by piece -/

section Pieces

variable [Ed25519] [Blake3] [SerdeJson] [ChaCha20Poly1305]

omit [Ed25519] [ChaCha20Poly1305] [SerdeJson] in
theorem reachesCommit_iff (node : Node) (block : Block) :
    reachesCommit node block = true ↔
      (block.parent = node.head.hash ∧ block.height = node.head.height + 1) ∧
        ¬ (node.blocks.any fun known => known.hash = block.hash) = true := by
  unfold reachesCommit
  rw [Bool.and_eq_true, decide_eq_true_iff, Bool.not_eq_true', Bool.not_eq_true]

omit [Ed25519] in
/-- A peer's block that passes the first checks is executed, and counts as applied
when that succeeds. -/
theorem acceptExternal_of_reaches (env : Env) {session : Session} {block : Block}
    (reaches : reachesCommit session.engine.node block = true) :
    session.acceptExternal env block =
      (match (session.engine.node.commitBlock env block).1 with
        | .ok _ => true
        | .error _ => false, session.execute env block) := by
  obtain ⟨sits, fresh⟩ := (reachesCommit_iff _ _).mp reaches
  have level : ¬ (block.parent ≠ session.engine.node.head.hash ∨
      block.height ≠ session.engine.node.head.height + 1) := by
    rintro (other | other)
    · exact other sits.1
    · exact other sits.2
  unfold acceptExternal execute Node.acceptExternalBlock
  rw [if_neg level, if_neg fresh]
  simp only [reaches, if_true]
  generalize session.engine.node.commitBlock env block = result
  obtain ⟨outcome, node⟩ := result
  cases outcome with
  | error error => rfl
  | ok summary => rfl

omit [Ed25519] in
theorem acceptExternal_eq (env : Env) (session : Session) (block : Block) :
    session.acceptExternal env block = (false, session) ∨
    (reachesCommit session.engine.node block = true ∧
      session.acceptExternal env block =
        (match (session.engine.node.commitBlock env block).1 with
          | .ok _ => true
          | .error _ => false, session.execute env block)) := by
  by_cases reaches : reachesCommit session.engine.node block = true
  · exact .inr ⟨reaches, acceptExternal_of_reaches env reaches⟩
  · left
    have refused : session.engine.node.acceptExternalBlock env block =
        (.ok false, session.engine.node) := by
      rw [reachesCommit_iff, not_and_or] at reaches
      unfold Node.acceptExternalBlock
      split
      · rfl
      · rename_i level
        rcases reaches with apart | known
        · exact absurd ⟨Decidable.not_not.mp fun other => level (.inl other),
            Decidable.not_not.mp fun other => level (.inr other)⟩ apart
        · rw [if_pos (Decidable.not_not.mp known)]
    unfold acceptExternal
    rw [refused, if_neg reaches]
    rfl

omit [Ed25519] in
/-- A peer's block that can be committed is, and the engine moves on. -/
theorem onBlock_of_commits {env : Env} {session : Session} {block : Block}
    (reaches : reachesCommit session.engine.node block = true)
    (committed : ∃ summary, (session.engine.node.commitBlock env block).1 = .ok summary) :
    session.onBlock env block = (session.execute env block).resetHeight := by
  obtain ⟨⟨_, height⟩, _⟩ := (reachesCommit_iff _ _).mp reaches
  obtain ⟨summary, done⟩ := committed
  unfold onBlock
  rw [if_neg (by omega), acceptExternal_of_reaches env reaches, done]

omit [Ed25519] in
theorem runCommit_cast (env : Env) (session : Session) (hash : Hash) :
    (session.runCommit env hash).cast = session.cast ∧
      (session.runCommit env hash).commits = session.commits ∧
      ((session.runCommit env hash).engine.machine = session.engine.machine ∨
        (session.runCommit env hash).engine.machine.seenBlocks = ∅) := by
  unfold runCommit
  split
  · exact ⟨rfl, rfl, .inl rfl⟩
  · dsimp only
    split
    · exact ⟨rfl, rfl, .inl rfl⟩
    · exact ⟨rfl, rfl, .inr rfl⟩

theorem runAction_cast (env : Env) (session : Session) (action : Action) :
    (session.runAction env action).cast = session.cast ∧
      (session.runAction env action).commits = session.commits ∧
      ((session.runAction env action).engine.machine = session.engine.machine ∨
        (session.runAction env action).engine.machine.seenBlocks = ∅) := by
  cases action with
  | broadcast message =>
      cases message with
      | proposal round block => exact ⟨rfl, rfl, .inl rfl⟩
      | vote vote => exact ⟨rfl, rfl, .inl rfl⟩
  | commit hash => exact runCommit_cast env session hash
  | none => exact ⟨rfl, rfl, .inl rfl⟩

/-- Running the actions of an absorbed turn: every vote sent was cast, and every
commit that finds a block was emitted by the machine that holds it. -/
theorem runActions_preserves {holds : Session → Prop} {machine : RoundMachine}
    (proposal : ∀ session round block, holds session →
      holds (session.broadcast (.proposal round block)))
    (ballot : ∀ session vote, vote ∈ session.cast → holds session →
      holds (session.broadcast (.vote (signVote session.engine.identity vote))))
    {actions : List Action} {envs : Nat → Env} {session : Session}
    (commit : ∀ session index hash, session.engine.machine = machine →
      (machine.height, hash) ∈ session.commits → holds session →
      holds (session.runCommit (envs index) hash))
    (current : session.engine.machine = machine ∨ session.engine.machine.seenBlocks = ∅)
    (votes : ∀ vote ∈ votesIn actions, vote ∈ session.cast)
    (hashes : ∀ hash ∈ commitsIn actions, (machine.height, hash) ∈ session.commits)
    (initially : holds session) : holds (runActions envs actions session) := by
  induction actions generalizing envs session with
  | nil => exact initially
  | cons action rest ih =>
      obtain ⟨cast, commits, kept⟩ := runAction_cast (envs 0) session action
      apply ih (fun session index => commit session (index + 1))
      · rcases kept with same | empty
        · rw [same]
          exact current
        · exact .inr empty
      · intro vote member
        rw [cast]
        apply votes
        exact List.Sublist.subset (List.Sublist.filterMap _ (List.sublist_cons_self _ _)) member
      · intro hash member
        rw [commits]
        apply hashes
        exact List.Sublist.subset (List.Sublist.filterMap _ (List.sublist_cons_self _ _)) member
      · cases action with
        | broadcast message =>
            cases message with
            | proposal round block => exact proposal session round block initially
            | vote vote => exact ballot session vote (votes vote List.mem_cons_self) initially
        | commit hash =>
            rcases current with same | empty
            · exact commit session 0 hash same (hashes hash List.mem_cons_self) initially
            · -- A machine that was replaced meanwhile holds no block.
              have missing : session.engine.machine.block hash = none := by
                unfold RoundMachine.block
                rw [empty]
                rfl
              have idle : session.runCommit (envs 0) hash = session := by
                unfold runCommit
                rw [missing]
              change holds (session.runCommit (envs 0) hash)
              rw [idle]
              exact initially
        | none => exact initially

theorem follow_preserves {holds : Session → Prop}
    (proposal : ∀ session round block, holds session →
      holds (session.broadcast (.proposal round block)))
    (ballot : ∀ session vote, vote ∈ session.cast → holds session →
      holds (session.broadcast (.vote (signVote session.engine.identity vote))))
    {envs : Nat → Env} {session : Session} {turn : Turn}
    (commit : ∀ session index hash, session.engine.machine = turn.machine →
      (turn.machine.height, hash) ∈ session.commits → holds session →
      holds (session.runCommit (envs index) hash))
    (absorbed : holds (session.absorb turn)) : holds (session.follow envs turn) := by
  unfold follow
  apply runActions_preserves proposal ballot commit (.inl rfl) _ _ absorbed
  · exact fun vote member => List.mem_append_right _ member
  · exact fun hash member => List.mem_append_right _ (List.mem_map.mpr ⟨hash, member, rfl⟩)

omit [Ed25519] in
/-- A commit executes the machine's block; when that succeeds the head has grown
and the engine moves on. -/
theorem runCommit_preserves {holds : Session → Prop} {env : Env} {session : Session} {hash : Hash}
    (initially : holds session)
    (executed : ∀ block, session.engine.machine.block hash = some block →
      holds (session.execute env block))
    (moved : ∀ after message, after.engine.node.head.height =
        session.engine.node.head.height + 1 → after.engine.height = session.engine.height →
      (∀ vote, message ≠ .vote vote) → holds after →
      holds (after.broadcast message).resetHeight) :
    holds (session.runCommit env hash) := by
  unfold runCommit
  split
  · exact initially
  · rename_i block found
    dsimp only
    split
    · exact executed block found
    · rename_i summary done
      exact moved _ _ (Node.commitBlock_height_ok done) rfl (by simp) (executed block found)

variable [X25519]

/-- One step: quiet inputs tend the node, the others are the consensus handlers. -/
theorem handle_preserves {holds : Session → Prop} {session : Session} {stimulus : Stimulus}
    (initially : holds session)
    (tended : ∀ {after : Session}, Tends session after → holds after)
    (ticked : stimulus.input = .tick → holds (session.onTick stimulus.envs))
    (proposed : ∀ round block, stimulus.input = .net (.proposal round block) →
      holds (session.onProposal stimulus.envs block))
    (voted : ∀ vote, stimulus.input = .net (.vote vote) →
      holds (session.onVote stimulus.envs vote))
    (viewChanged : ∀ change, stimulus.input = .net (.viewChange change) →
      holds (session.onViewChange change))
    (accepted : ∀ block, stimulus.input = .net (.block block) →
      holds (session.onBlock (stimulus.envs 0) block))
    (synced : ∀ blocks, stimulus.input = .net (.blocks blocks) →
      holds (session.onBlocks stimulus.envs blocks)) :
    holds (session.handle stimulus) := by
  obtain ⟨envs, input⟩ := stimulus
  cases input with
  | tick => exact ticked rfl
  | net message =>
      cases message with
      | hello nodeId height => exact initially
      | command signed => exact tended (onCommand_tends _ _ _)
      | proposal round block => exact proposed round block rfl
      | vote vote => exact voted vote rfl
      | block block => exact accepted block rfl
      | requestBlocks fromHeight => exact tended (onRequestBlocks_tends _ _)
      | blocks blocks => exact synced blocks rfl
      | viewChange change => exact viewChanged change rfl
      | privateEnvelope envelope => exact tended (onPrivate_tends _ _ _)
      | privateRoot attestation => exact tended (onPrivateRoot_tends _ _ _)
  | ingress signed => exact tended (ingress_tends _ _ _)
  | ingressPrivate envelope => exact tended (ingressPrivate_tends _ _ _)

end Pieces

end Session

end Veilux
