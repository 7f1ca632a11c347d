/-
What the equivocation watch makes of the votes a validator receives.  Votes reach the
watch before their signatures are checked: two conflicting votes of one slot always lead
to a report, but a forged vote that is remembered or compared enters the evidence.
-/

import Veilux.Node.Shape

namespace Veilux

namespace EquivocationWatch

/-! ### Pruning -/

/-- What a watch has lost after some time: entries below a height, and nothing else. -/
structure Trimmed (watch after : EquivocationWatch) (bound : Nat) : Prop where
  slashed : after.slashed = watch.slashed
  earlier : ∀ key seen, after.seen.lookup key = some seen → watch.seen.lookup key = some seen
  retained : ∀ key seen, bound ≤ key.1 → watch.seen.lookup key = some seen →
    after.seen.lookup key = some seen

theorem Trimmed.refl (watch : EquivocationWatch) (bound : Nat) : Trimmed watch watch bound :=
  { slashed := rfl
    earlier := fun _ _ found => found
    retained := fun _ _ _ found => found }

theorem Trimmed.trans {watch middle after : EquivocationWatch} {lower bound : Nat}
    (first : Trimmed watch middle lower) (second : Trimmed middle after bound)
    (rising : lower ≤ bound) : Trimmed watch after bound :=
  { slashed := second.slashed.trans first.slashed
    earlier := fun key seen found => first.earlier key seen (second.earlier key seen found)
    retained := fun key seen above found =>
      second.retained key seen above (first.retained key seen (rising.trans above) found) }

theorem pruneBelow_trimmed (watch : EquivocationWatch) (height : Nat) :
    Trimmed watch (watch.pruneBelow height) height where
  slashed := rfl
  earlier key seen found := by
    have inside := List.mem_filter.mp (AList.mem_lookup_iff.mp found)
    exact AList.mem_lookup_iff.mpr inside.1
  retained key seen above found := by
    apply AList.mem_lookup_iff.mpr
    exact List.mem_filter.mpr ⟨AList.mem_lookup_iff.mp found, by simpa using above⟩

/-! ### One vote -/

def slot (vote : Vote) : Nat × UInt32 × UInt8 × String :=
  (vote.height, vote.round, Vote.kindByte vote.kind, vote.voter.name)

def record (vote : Vote) : SeenVote :=
  { blockHash := vote.blockHash
    message := vote.signingBytes
    signature := vote.signature }

/-- The evidence of a remembered vote and a new one. -/
def evidence (previous : SeenVote) (vote : Vote) (publicKey : List UInt8) : EquivocationProof :=
  { offender := vote.voter
    publicKey := Bytes.hexEncode publicKey
    messageA := Bytes.hexEncode previous.message
    signatureA := Bytes.hexEncode previous.signature
    messageB := Bytes.hexEncode vote.signingBytes
    signatureB := Bytes.hexEncode vote.signature }

/-- The watch takes no note of the vote: it is unsigned, or its slot is remembered with the
same block or for a validator that has been reported. -/
def Ignores (watch : EquivocationWatch) (vote : Vote) : Prop :=
  vote.signature.isEmpty = true ∨
    ∃ previous, watch.seen.lookup (slot vote) = some previous ∧
      (previous.blockHash = vote.blockHash ∨ vote.voter.name ∈ watch.slashed)

theorem observe_cases (watch : EquivocationWatch) (vote : Vote) (publicKey : List UInt8) :
    (watch.Ignores vote ∧ watch.observe vote publicKey = (none, watch)) ∨
    (∃ previous, watch.seen.lookup (slot vote) = some previous ∧
      previous.blockHash ≠ vote.blockHash ∧ vote.voter.name ∉ watch.slashed ∧
      ¬ watch.Ignores vote ∧
      watch.observe vote publicKey = (some (evidence previous vote publicKey),
        { watch with slashed := watch.slashed.insert vote.voter.name })) ∨
    (watch.seen.lookup (slot vote) = none ∧ ¬ watch.Ignores vote ∧
      watch.observe vote publicKey =
        (none, { watch with seen := watch.seen.insert (slot vote) (record vote) })) := by
  by_cases unsigned : vote.signature.isEmpty = true
  · left
    unfold observe
    exact ⟨.inl unsigned, if_pos unsigned⟩
  · cases found : watch.seen.lookup (slot vote) with
    | none =>
        refine .inr (.inr ⟨rfl, ?_, ?_⟩)
        · rintro (empty | ⟨previous, known, _⟩)
          · exact unsigned empty
          · rw [found] at known
            cases known
        · unfold slot at found
          simp only [observe, if_neg unsigned, found]
          rfl
    | some previous =>
        unfold slot at found
        by_cases same : previous.blockHash = vote.blockHash
        · left
          refine ⟨.inr ⟨previous, found, .inl same⟩, ?_⟩
          simp only [observe, if_neg unsigned, found, ne_eq, same, not_true_eq_false, if_false]
        · by_cases reported : vote.voter.name ∈ watch.slashed
          · left
            refine ⟨.inr ⟨previous, found, .inr reported⟩, ?_⟩
            simp [observe, unsigned, found, same, reported]
          · refine .inr (.inl ⟨previous, rfl, same, reported, ?_, ?_⟩)
            · rintro (empty | ⟨other, known, either⟩)
              · exact unsigned empty
              · obtain rfl := Option.some.inj (found.symm.trans known)
                exact either.elim same reported
            · simp [observe, unsigned, found, same, reported, evidence]

end EquivocationWatch

namespace Session

/-! ### The watch beside the other work of a session -/

/-- From one session to another the height has not fallen, and the watch has lost at most the
entries that are eight blocks below it. -/
def Settles (session after : Session) : Prop :=
  session.engine.height ≤ session.engine.node.head.height + 1 →
    after.engine.height ≤ after.engine.node.head.height + 1 ∧
      session.engine.height ≤ after.engine.height ∧
      EquivocationWatch.Trimmed session.engine.slashWatch after.engine.slashWatch
        (after.engine.height - 8)

theorem Settles.refl (session : Session) : Settles session session :=
  fun level => ⟨level, Nat.le_refl _, .refl _ _⟩

theorem Settles.trans {session middle after : Session} (first : Settles session middle)
    (second : Settles middle after) : Settles session after := by
  intro level
  obtain ⟨middleLevel, rising, trimmed⟩ := first level
  obtain ⟨afterLevel, risingOn, trimmedOn⟩ := second middleLevel
  exact ⟨afterLevel, rising.trans risingOn, trimmed.trans trimmedOn (by omega)⟩

theorem settles_still {session after : Session}
    (height : after.engine.height = session.engine.height)
    (head : session.engine.node.head.height ≤ after.engine.node.head.height)
    (watch : after.engine.slashWatch = session.engine.slashWatch) : Settles session after := by
  intro level
  rw [height, watch]
  exact ⟨by omega, Nat.le_refl _, .refl _ _⟩

theorem resetHeight_settles (session : Session) : Settles session session.resetHeight := by
  intro level
  exact ⟨Nat.le_refl _, level, session.engine.slashWatch.pruneBelow_trimmed _⟩

theorem broadcast_settles (session : Session) (message : NetMessage) :
    Settles session (session.broadcast message) :=
  settles_still rfl (Nat.le_refl _) rfl

theorem recordView_settles (session : Session) (height : Nat) (view : UInt32)
    (voter : PartyId) : Settles session (session.recordView height view voter) := by
  apply recordView_preserves
  · exact settles_still rfl (Nat.le_refl _) rfl
  · exact fun _ _ _ => settles_still rfl (Nat.le_refl _) rfl

theorem absorb_settles (session : Session) (turn : Turn) :
    Settles session (session.absorb turn) :=
  settles_still rfl (Nat.le_refl _) rfl

section Settling

variable [Ed25519]

theorem withNode_settles {session : Session} {node : Node}
    (kept : Node.Kept session.engine.node node) : Settles session (session.withNode node) := by
  refine settles_still rfl ?_ rfl
  change _ ≤ node.head.height
  rw [kept.head]

theorem submitSlash_settles (env : Env) (session : Session)
    (command : StakingCommand) : Settles session (session.submitSlash env command) := by
  have kept := Node.submitSigned_kept env session.engine.node
    (session.engine.identity.signForChain (stakingCommand session.engine.me .pub
      (session.engine.node.expectedNonce session.engine.identity.party) session.engine.height
      command) session.engine.node.chainId)
  unfold submitSlash
  dsimp only
  split
  · next submitted =>
      rw [submitted] at kept
      exact withNode_settles kept
  · next submitted =>
      rw [submitted] at kept
      exact (withNode_settles kept).trans (broadcast_settles _ _)

theorem submitQuorumSlashes_settles (proofs : List QuorumFraudProof) :
    ∀ (envs : Nat → Env) (session : Session),
      Settles session (submitQuorumSlashes envs proofs session) := by
  induction proofs with
  | nil => exact fun envs session => Settles.refl session
  | cons proof rest ih =>
      exact fun envs session => (submitSlash_settles (envs 0) session _).trans (ih _ _)

omit [Ed25519] in
theorem attest_settles (session : Session) (attestation : Option RootAttestation) :
    Settles session (session.attest attestation) := by
  cases attestation with
  | none => exact Settles.refl session
  | some signed => exact broadcast_settles session _

theorem ingress_settles (env : Env) (session : Session)
    (signed : SignedCommand) : Settles session (session.ingress env signed) := by
  have kept := Node.submitSigned_kept env session.engine.node signed
  unfold ingress
  split
  · next submitted =>
      rw [submitted] at kept
      exact withNode_settles kept
  · next submitted =>
      rw [submitted] at kept
      exact (withNode_settles kept).trans (broadcast_settles _ _)

theorem onPrivateRoot_settles (envs : Nat → Env) (session : Session)
    (attestation : RootAttestation) :
    Settles session (session.onPrivateRoot envs attestation) := by
  have reported : Settles session (session.reportDivergence (envs 0) attestation) := by
    unfold reportDivergence
    split
    · exact submitSlash_settles (envs 0) session _
    · exact Settles.refl session
  unfold onPrivateRoot
  dsimp only
  generalize session.reportDivergence (envs 0) attestation = middle at reported
  have recorded := reported.trans
    (withNode_settles (Node.recordAttestation_kept middle.engine.node attestation))
  split
  · exact recorded.trans (submitQuorumSlashes_settles _ _ _)
  · exact recorded

theorem timeout_settles (session : Session) : Settles session session.timeout := by
  unfold timeout
  dsimp only
  split
  · exact resetHeight_settles session
  · split
    · split
      · refine Settles.trans ?_ (broadcast_settles _ _)
        refine Settles.trans ?_ (recordView_settles _ _ _ _)
        exact settles_still rfl (Nat.le_refl _) rfl
      · exact settles_still rfl (Nat.le_refl _) rfl
    · exact Settles.refl session

section Blocks

variable [Blake3] [SerdeJson] [ChaCha20Poly1305]

omit [Ed25519] in
theorem execute_settles (env : Env) (session : Session) (block : Block) :
    Settles session (session.execute env block) := by
  refine settles_still rfl ?_ rfl
  change _ ≤ (session.engine.node.commitBlock env block).2.head.height
  rcases Node.commitBlock_height env session.engine.node block with same | grown
  · omega
  · omega

omit [Ed25519] in
theorem runCommit_settles (env : Env) (session : Session) (hash : Hash) :
    Settles session (session.runCommit env hash) := by
  apply runCommit_preserves (Settles.refl session)
  · exact fun block _ => execute_settles env session block
  · exact fun after message _ _ _ settled =>
      (settled.trans (broadcast_settles after message)).trans (resetHeight_settles _)

theorem follow_settles (envs : Nat → Env) (session : Session) (turn : Turn) :
    Settles session (session.follow envs turn) := by
  apply follow_preserves
  · exact fun middle _ _ settled => settled.trans (broadcast_settles middle _)
  · exact fun middle _ _ settled => settled.trans (broadcast_settles middle _)
  · exact fun middle _ _ _ _ settled => settled.trans (runCommit_settles _ middle _)
  · exact absorb_settles session turn

omit [Ed25519] in
theorem acceptExternal_settles (env : Env) (session : Session) (block : Block) :
    Settles session (session.acceptExternal env block).2 := by
  rcases acceptExternal_eq env session block with same | ⟨_, same⟩
  · rw [same]
    exact Settles.refl session
  · rw [same]
    exact execute_settles env session block

omit [Ed25519] in
theorem acceptAll_settles (envs : Nat → Env) (session : Session) (blocks : List Block)
    (applied : Nat) : Settles session (session.acceptAll envs blocks applied).2 := by
  induction blocks generalizing envs applied session with
  | nil => exact Settles.refl session
  | cons block rest ih => exact (acceptExternal_settles (envs 0) session block).trans (ih _ _ _)

omit [Ed25519] in
theorem onBlock_settles (env : Env) (session : Session) (block : Block) :
    Settles session (session.onBlock env block) := by
  have accepted := acceptExternal_settles env session block
  unfold onBlock
  dsimp only
  split
  · exact broadcast_settles session _
  · split
    · next result =>
        rw [result] at accepted
        exact accepted.trans (resetHeight_settles _)
    · next result =>
        rw [result] at accepted
        exact accepted

omit [Ed25519] in
theorem onBlocks_settles (envs : Nat → Env) (session : Session) (blocks : List Block) :
    Settles session (session.onBlocks envs blocks) := by
  have accepted := acceptAll_settles envs session blocks 0
  unfold onBlocks
  split
  · next result =>
      rw [result] at accepted
      exact accepted
  · next result =>
      rw [result] at accepted
      exact accepted.trans (resetHeight_settles _)

theorem propose_settles (envs : Nat → Env) (session : Session) :
    Settles session (session.propose envs) := by
  unfold propose
  dsimp only
  split
  · rcases buildOrReuseBlock_cases envs session.engine.node session.engine.identity
      session.engine.height session.engine.machine with
      ⟨existing, found, built⟩ | ⟨error, node, kept, built⟩ | ⟨submitted, node, first, kept, built⟩
    · rw [built]
      exact follow_settles _ session _
    · rw [built]
      exact withNode_settles kept
    · rw [built]
      exact (withNode_settles (first.trans kept)).trans (follow_settles _ _ _)
  · exact Settles.refl session

theorem onTick_settles (envs : Nat → Env) (session : Session) :
    Settles session (session.onTick envs) :=
  ((timeout_settles session).trans (propose_settles envs _)).trans
    (settles_still rfl (Nat.le_refl _) rfl)

/-! ### One step -/

/-- What the watch reports on the vote that a stimulus brings. -/
def reported (session : Session) (stimulus : Stimulus) : Option EquivocationProof :=
  match stimulus.input with
  | .net (.vote vote) =>
      match session.engine.aurora.validators.get vote.voter with
      | none => none
      | some validator => (session.engine.slashWatch.observe vote validator.publicKey).1
  | _ => none

/-- The session with the watch as it is once it has seen the vote that a stimulus brings. -/
def watched (session : Session) (stimulus : Stimulus) : Session :=
  match stimulus.input with
  | .net (.vote vote) =>
      match session.engine.aurora.validators.get vote.voter with
      | none => session
      | some validator =>
          { session with
            engine := { session.engine with
              slashWatch := (session.engine.slashWatch.observe vote validator.publicKey).2 } }
  | _ => session

omit [Blake3] [SerdeJson] [ChaCha20Poly1305] in
/-- What the watch reports is submitted for slashing. -/
theorem detectEquivocation_eq (env : Env) (session : Session) (envs : Nat → Env) (vote : Vote) :
    session.detectEquivocation env vote =
      match session.reported { envs := envs, input := .net (.vote vote) } with
      | none => session.watched { envs := envs, input := .net (.vote vote) }
      | some proof =>
          (session.watched { envs := envs, input := .net (.vote vote) }).submitSlash env
            (.slash proof) := by
  unfold detectEquivocation reported watched
  dsimp only
  cases session.engine.aurora.validators.get vote.voter with
  | none => rfl
  | some validator => rfl

theorem onVote_settles (envs : Nat → Env) (session : Session) (vote : Vote) :
    Settles (session.watched { envs := envs, input := .net (.vote vote) })
      (session.onVote envs vote) := by
  unfold onVote
  dsimp only
  refine Settles.trans ?_ (follow_settles _ _ _)
  rw [detectEquivocation_eq (envs 0) session envs vote]
  split
  · exact Settles.refl _
  · exact submitSlash_settles _ _ _

variable [X25519]

theorem ingressPrivate_settles (env : Env) (session : Session) (envelope : PrivateEnvelope) :
    Settles session (session.ingressPrivate env envelope) := by
  have kept := Node.applyPrivateEnvelope_kept env session.engine.node envelope
  unfold ingressPrivate
  split
  · next applied =>
      rw [applied] at kept
      exact withNode_settles kept
  · next applied =>
      rw [applied] at kept
      exact ((withNode_settles kept).trans (broadcast_settles _ _)).trans (attest_settles _ _)

theorem onPrivate_settles (env : Env) (session : Session) (envelope : PrivateEnvelope) :
    Settles session (session.onPrivate env envelope) := by
  have kept := Node.applyPrivateEnvelope_kept env session.engine.node envelope
  unfold onPrivate
  split
  · next applied =>
      rw [applied] at kept
      exact withNode_settles kept
  · next applied =>
      rw [applied] at kept
      split
      · exact (withNode_settles kept).trans (attest_settles _ _)
      · exact withNode_settles kept

/-- A step is what the watch makes of the vote, and then work that leaves the watch alone up to
pruning. -/
theorem handle_settles (session : Session) (stimulus : Stimulus) :
    Settles (session.watched stimulus) (session.handle stimulus) := by
  obtain ⟨envs, input⟩ := stimulus
  cases input with
  | tick => exact onTick_settles envs session
  | net message =>
      cases message with
      | hello nodeId height => exact Settles.refl session
      | command signed => exact withNode_settles (Node.submitSigned_kept _ _ _)
      | proposal round block => exact follow_settles envs session _
      | vote vote => exact onVote_settles envs session vote
      | block block => exact onBlock_settles _ session block
      | requestBlocks height =>
          change Settles session (session.onRequestBlocks height)
          unfold onRequestBlocks
          dsimp only
          split
          · exact Settles.refl session
          · exact broadcast_settles session _
      | blocks blocks => exact onBlocks_settles envs session blocks
      | viewChange change =>
          change Settles session (session.onViewChange change)
          unfold onViewChange
          split
          · exact recordView_settles session _ _ _
          · exact Settles.refl session
      | privateEnvelope envelope => exact onPrivate_settles _ session envelope
      | privateRoot attestation => exact onPrivateRoot_settles envs session attestation
  | ingress signed => exact ingress_settles _ session signed
  | ingressPrivate envelope => exact ingressPrivate_settles _ session envelope

end Blocks

end Settling

end Session

end Veilux
