/-
What a node does between blocks: taking commands in, handling private envelopes
and assembling leave the chain and the configuration alone, never rebind an
account, and put only authentic commands into the mempool.
-/

import Veilux.Node.Blocks
import Veilux.Node.Private

namespace Veilux

namespace Node

/-- Signed for this chain, under an admissible name, with the key bound to it. -/
def Authentic [Ed25519] (node : Node) (command : Command) : Prop :=
  reserved command.submitter = false ∧ ∃ signed : SignedCommand,
    signed.command = command ∧ signed.chainId = node.chainId ∧ verifySigned signed = .ok () ∧
      node.accounts.lookup command.submitter = some signed.publicKey

/-- The node after anything but a commit. -/
structure Kept [Ed25519] (node after : Node) : Prop where
  blocks : after.blocks = node.blocks
  state : after.state = node.state
  cascade : after.cascade = node.cascade
  limits : after.limits = node.limits
  feePolicy : after.feePolicy = node.feePolicy
  keyrings : after.keyrings = node.keyrings
  chainId : after.chainId = node.chainId
  accounts : ∀ party key, node.accounts.lookup party = some key →
    after.accounts.lookup party = some key
  mempool : ∀ command ∈ after.mempool, command ∈ node.mempool ∨ Authentic after command

section Kept

variable [Ed25519] {node after : Node}

theorem Authentic.of_bound {command : Command} (authentic : Authentic node command)
    (chainId : after.chainId = node.chainId)
    (accounts : ∀ party key, node.accounts.lookup party = some key →
      after.accounts.lookup party = some key) : Authentic after command := by
  obtain ⟨named, signed, same, chain, verified, bound⟩ := authentic
  refine ⟨named, signed, same, ?_, verified, accounts _ _ bound⟩
  rw [chainId]
  exact chain

theorem Authentic.kept {command : Command} (authentic : Authentic node command)
    (kept : Kept node after) : Authentic after command :=
  authentic.of_bound kept.chainId kept.accounts

theorem Kept.refl (node : Node) : Kept node node :=
  { blocks := rfl
    state := rfl
    cascade := rfl
    limits := rfl
    feePolicy := rfl
    keyrings := rfl
    chainId := rfl
    accounts := fun _ _ bound => bound
    mempool := fun _ member => .inl member }

theorem Kept.trans {later : Node} (first : Kept node after) (second : Kept after later) :
    Kept node later :=
  { blocks := second.blocks.trans first.blocks
    state := second.state.trans first.state
    cascade := second.cascade.trans first.cascade
    limits := second.limits.trans first.limits
    feePolicy := second.feePolicy.trans first.feePolicy
    keyrings := second.keyrings.trans first.keyrings
    chainId := second.chainId.trans first.chainId
    accounts := fun party key bound => second.accounts party key (first.accounts party key bound)
    mempool := by
      intro command member
      rcases second.mempool command member with earlier | authentic
      · rcases first.mempool command earlier with original | authentic
        · exact .inl original
        · exact .inr (authentic.kept second)
      · exact .inr authentic }

theorem Kept.head (kept : Kept node after) : after.head = node.head := by
  have same := kept.blocks
  unfold Node.head
  congr 1

/-- The checks of a commit read only the chain and the configuration. -/
theorem Kept.verifyBlock [Blake3] [SerdeJson] (kept : Kept node after) (env : Env) (block : Block) :
    after.verifyBlock env block = node.verifyBlock env block := by
  unfold Node.verifyBlock Node.opening Node.openingState
  rw [kept.head, kept.cascade, kept.feePolicy, kept.state, kept.limits]

/-! ### The operations -/

theorem submitSigned_kept (env : Env) (node : Node) (signed : SignedCommand) :
    Kept node (node.submitSigned env signed).2 := by
  have ingested := ingestSigned_ingested env node signed true
  unfold submitSigned
  generalize node.ingestSigned env signed true = result at ingested
  cases ingested with
  | refused error accounts kept =>
      exact { Kept.refl node with
        accounts := kept
        mempool := fun _ member => .inl member }
  | unlogged error accounts store admissible =>
      exact { Kept.refl node with
        accounts := admissible.account.2
        mempool := fun _ member => .inl member }
  | admitted accounts store admissible =>
      refine { Kept.refl node with
        accounts := admissible.account.2
        mempool := ?_ }
      intro command member
      rcases List.mem_append.mp member with earlier | last
      · exact .inl earlier
      · right
        rw [List.mem_singleton.mp last]
        exact ⟨admissible.name, signed, rfl, admissible.chain, admissible.signature,
          admissible.account.1⟩

/-- Writing to the store is not seen by the rest of the node. -/
theorem persist_kept (node : Node) (write : Store → Except StoreError Unit × Store) :
    Kept node (node.persist write).2 := by
  obtain ⟨store, same⟩ := persist_eq node write
  rw [same]
  exact { Kept.refl node with }

theorem recordAttestation_kept (node : Node) (attestation : RootAttestation) :
    Kept node (node.recordAttestation attestation).2 :=
  { Kept.refl node with }

variable [Blake3] [SerdeJson]

theorem syncPersistedMempool_kept (env : Env) (node : Node) :
    Kept node (node.syncPersistedMempool env).2 := by
  obtain ⟨store, same⟩ := syncPersistedMempool_eq env node
  rw [same]
  exact { Kept.refl node with }

omit [SerdeJson] in
theorem withoutCommands_kept (node : Node) (commands : List Command) :
    Kept node (node.withoutCommands commands) :=
  { Kept.refl node with
    mempool := fun _ member => .inl (List.mem_filter.mp member).1 }

theorem assembleBlock_kept (env : Env) (node : Node) : Kept node (node.assembleBlock env).2 := by
  have dropped := withoutCommands_kept node (node.assembly env).rejected
  have synced := dropped.trans (syncPersistedMempool_kept env _)
  unfold assembleBlock
  dsimp only
  split
  · exact Kept.refl node
  · generalize (node.withoutCommands (node.assembly env).rejected).syncPersistedMempool env =
      result at synced
    obtain ⟨outcome, after⟩ := result
    cases outcome with
    | error error => exact synced
    | ok done => exact synced

omit [Ed25519] in
theorem assembleBlock_block {env : Env} {block : Block}
    (assembled : (node.assembleBlock env).1 = .ok block) : block = node.assembledBlock env := by
  unfold assembleBlock at assembled
  dsimp only at assembled
  split at assembled
  · cases assembled
    rfl
  · split at assembled
    · cases assembled
    · cases assembled
      rfl

variable [ChaCha20Poly1305] [X25519]

theorem executePrivate_kept (env : Env) (node : Node) (envelope : PrivateEnvelope)
    (keyring : ViewKeyring) : Kept node (node.executePrivate env envelope keyring).2 := by
  unfold executePrivate
  split
  · exact Kept.refl node
  · rename_i inner _
    split
    · exact Kept.refl node
    · split
      · exact { Kept.refl node with }
      · rename_i receipt state _
        dsimp only
        have executed : Kept node { node with
            privateState := state
            attestations := (node.attestations.record (RootAttestation.create
              (hostedIdentity keyring) envelope.commitment state.root)).2 } :=
          { Kept.refl node with }
        have kept := executed.trans (persist_kept _ (Store.savePrivateState env state))
        generalize persist _ (Store.savePrivateState env state) = result at kept
        obtain ⟨outcome, after⟩ := result
        cases outcome with
        | error error => exact kept
        | ok done => exact kept

theorem applyPrivateEnvelope_kept (env : Env) (node : Node) (envelope : PrivateEnvelope) :
    Kept node (node.applyPrivateEnvelope env envelope).2 := by
  unfold applyPrivateEnvelope
  split
  · exact Kept.refl node
  · split
    · exact Kept.refl node
    · dsimp only
      have noted : Kept node { node with
          privateCommitments := node.privateCommitments ++ [envelope.commitment]
          privateEnvelopes := node.privateEnvelopes.insert envelope.commitment envelope } :=
        { Kept.refl node with }
      have kept := noted.trans (persist_kept _ (Store.savePrivateCommitments env
        (node.privateCommitments ++ [envelope.commitment])))
      generalize persist _ (Store.savePrivateCommitments env
        (node.privateCommitments ++ [envelope.commitment])) = result at kept
      obtain ⟨outcome, after⟩ := result
      cases outcome with
      | error error => exact kept
      | ok done =>
          dsimp only
          split
          · exact kept.trans (executePrivate_kept env after envelope _)
          · exact kept

end Kept

end Node

end Veilux
