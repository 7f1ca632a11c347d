/-
The data directory as values.  A store that only the program has written holds
the texts of a chain, a snapshot, the private files and a pending log; loading
gives these back, and every write of a node is a change of one of them.
-/

import Veilux.Node.Chain
import Veilux.Node.Private
import Veilux.Node.Submission

namespace Veilux

/-- What the files of a data directory are the texts of. -/
structure Directory where
  chain : List Block
  saved : Option StateTree
  privateState : Option StateTree
  commitments : Option (List Hash)
  pending : List SignedCommand

namespace Directory

def empty : Directory :=
  { chain := []
    saved := none
    privateState := none
    commitments := none
    pending := [] }

def store (directory : Directory) : Store :=
  { blocks := directory.chain.map toVec
    state := directory.saved.map toVec
    privateState := directory.privateState.map toVec
    privateCommitments := directory.commitments.map toVec
    pending := directory.pending.map toVec }

/-- The pending log with the commands that are still queued. -/
def pruned [Blake3] (directory : Directory) (mempool : List Command) : Directory :=
  { directory with
    pending := directory.pending.filter fun signed =>
      (mempool.map Command.id).contains signed.command.id }

/-- The log and the snapshot after a block. -/
def extended (directory : Directory) (block : Block) (state : StateTree) : Directory :=
  { directory with
    chain := directory.chain ++ [block]
    saved := some state }

/-- A directory without a chain gets the genesis block when it is opened. -/
def founded (directory : Directory) : Directory :=
  if directory.chain.isEmpty then { directory with chain := [Block.deterministicGenesis] }
  else directory

theorem founded_nonempty (directory : Directory) : directory.founded.chain ≠ [] := by
  unfold founded
  split
  · exact List.cons_ne_nil _ _
  · rename_i present
    exact fun none => present (List.isEmpty_iff.mpr none)

@[simp] theorem founded_saved (directory : Directory) : directory.founded.saved = directory.saved := by
  unfold founded
  split
  · rfl
  · rfl

@[simp] theorem founded_pending (directory : Directory) :
    directory.founded.pending = directory.pending := by
  unfold founded
  split
  · rfl
  · rfl

/-! ### Reading it back -/

section Loading

variable [SerdeJson]

omit [SerdeJson] in
/-- The text of a record starts with a brace, so its line is not blank. -/
theorem blank_obj (fields : List (String × Json)) : Store.blank (Json.obj fields).toVec = false := by
  have front : ∃ rest, (Json.obj fields).print = Char.ofNat 0x7b :: rest := by
    cases fields with
    | nil => exact ⟨_, by rw [Json.print]⟩
    | cons first rest =>
        obtain ⟨name, value⟩ := first
        exact ⟨_, by rw [Json.print]⟩
  obtain ⟨rest, printed⟩ := front
  unfold Json.toVec Store.blank
  rw [printed]
  have bytes : Bytes.utf8 (String.ofList (Char.ofNat 0x7b :: rest)) =
      0x7b :: Bytes.utf8 (String.ofList rest) := by
    unfold Bytes.utf8
    rw [← String.utf8Encode_toList, ← String.utf8Encode_toList, String.toList_ofList,
      String.toList_ofList, List.utf8Encode, List.utf8Encode, List.data_toByteArray,
      List.data_toByteArray, List.flatMap_cons]
    rfl
  rw [bytes]
  rfl

theorem parseBlocks_map (number : Nat) (chain : List Block) :
    Store.parseBlocks number (chain.map toVec) = .ok chain := by
  induction chain generalizing number with
  | nil => rfl
  | cons block rest ih =>
      have solid : Store.blank (toVec block) = false := blank_obj _
      rw [List.map_cons, Store.parseBlocks, solid, if_neg Bool.false_ne_true, fromSlice_toVec]
      dsimp only
      rw [ih]

variable {env : Env} (healthy : ∀ op, env.io op = none) (directory : Directory)
include healthy

theorem loadBlocks_store : directory.store.loadBlocks env = .ok directory.chain := by
  unfold Store.loadBlocks Store.read
  rw [healthy .loadBlocks]
  exact parseBlocks_map 1 directory.chain

theorem loadSnapshot_map {α : Type} [Serialize α] (op : StoreOp) (value : Option α) :
    Store.loadSnapshot α env op (value.map toVec) = .ok value := by
  unfold Store.loadSnapshot Store.read
  rw [healthy op]
  cases value with
  | none => rfl
  | some value =>
      dsimp only [Option.map_some]
      rw [fromSlice_toVec]

theorem loadState_store : directory.store.loadState env = .ok directory.saved :=
  loadSnapshot_map healthy .loadState directory.saved

theorem loadPrivateState_store : directory.store.loadPrivateState env = .ok directory.privateState :=
  loadSnapshot_map healthy .loadPrivateState directory.privateState

theorem loadPrivateCommitments_store :
    directory.store.loadPrivateCommitments env = .ok (directory.commitments.getD []) := by
  unfold Store.loadPrivateCommitments
  have loaded := loadSnapshot_map healthy .loadPrivateCommitments directory.commitments
  change (Store.loadSnapshot (List Hash) env .loadPrivateCommitments
    (directory.commitments.map toVec)).map _ = _
  rw [loaded]
  rfl

theorem loadPending_store : directory.store.loadPending env = .ok directory.pending := by
  unfold Store.loadPending Store.read
  rw [healthy .loadPending]
  dsimp only [store]
  congr 1
  induction directory.pending with
  | nil => rfl
  | cons signed rest ih =>
      have solid : Store.blank (toVec signed) = false := blank_obj _
      rw [List.map_cons, List.filter_cons_of_pos (by rw [solid]; rfl),
        List.filterMap_cons_some (by rw [fromSlice_toVec]; rfl), ih]

end Loading

end Directory

namespace Node

/-! ### What a node writes -/

section Writing

variable {env : Env} (healthy : ∀ op, env.io op = none) {node : Node} {directory : Directory}
include healthy

theorem persist_write {store : Store} (stored : node.store = some store) (op : StoreOp)
    (update : Store → Store) :
    node.persist (Store.write env op update) =
      (.ok (), { node with store := some (update store) }) := by
  unfold persist Store.write
  rw [stored, healthy op]

theorem persistAnchor_directory (stored : node.store = some directory.store) (block : Block) :
    node.persistAnchor env block = (.ok (), { node with
      store := some (directory.extended block node.state).store }) := by
  unfold persistAnchor Store.appendBlock Store.saveState Store.write
  rw [stored]
  dsimp only
  rw [healthy .appendBlock]
  dsimp only
  rw [healthy .saveState]
  simp only [Directory.extended, Directory.store, List.map_append, List.map_singleton,
    Option.map_some]

variable [SerdeJson] [Blake3]

theorem syncPersistedMempool_directory (stored : node.store = some directory.store) :
    node.syncPersistedMempool env = (.ok (), { node with
      store := some (directory.pruned node.mempool).store }) := by
  unfold syncPersistedMempool
  rw [stored]
  dsimp only
  rw [directory.loadPending_store healthy]
  exact persist_write healthy stored .rewritePending _

theorem persistBlock_directory (stored : node.store = some directory.store) (block : Block) :
    node.persistBlock env block = (.ok (), { node with
      store := some ((directory.extended block node.state).pruned node.mempool).store }) := by
  have appended := persist_write healthy stored .appendBlock fun store =>
    { store with blocks := store.blocks ++ [toVec block] }
  unfold persistBlock Store.appendBlock
  rw [appended]
  dsimp only
  have saved := @persist_write env healthy { node with
      store := some { directory.store with
        blocks := directory.store.blocks ++ [toVec block] } } _ rfl .saveState fun store =>
    { store with state := some (toVec node.state) }
  unfold Store.saveState
  rw [saved]
  dsimp only
  have extended : some ({ directory.store with
      blocks := directory.store.blocks ++ [toVec block]
      state := some (toVec node.state) } : Store) =
      some (directory.extended block node.state).store := by
    simp only [Directory.extended, Directory.store, List.map_append, List.map_singleton,
      Option.map_some]
  exact syncPersistedMempool_directory healthy extended

/-- Assembly drops what it rejects from the mempool and from the log. -/
theorem assembleBlock_directory (stored : node.store = some directory.store) :
    node.assembleBlock env = (.ok (node.assembledBlock env),
      if (node.assembly env).rejected.isEmpty then node
      else { node.withoutCommands (node.assembly env).rejected with
        store := some (directory.pruned
          (node.withoutCommands (node.assembly env).rejected).mempool).store }) := by
  unfold assembleBlock
  dsimp only
  split
  · rename_i none
    rfl
  · have synced := @syncPersistedMempool_directory env healthy
      (node.withoutCommands (node.assembly env).rejected) directory _ _ stored
    rw [synced]

variable [ChaCha20Poly1305]

/-- A commit delivers views and fails, or appends the block and writes it through. -/
theorem commitBlock_directory (stored : node.store = some directory.store) (block : Block) :
    (∃ error ledgers, node.commitBlock env block = (.error error, { node with
        subLedgers := ledgers })) ∨
      ∃ summary events state ledgers, node.verifyBlock env block = .ok (events, state) ∧
        node.commitBlock env block = (.ok summary, { (({ node with
            subLedgers := ledgers
            state := state } : Node).withoutCommands block.commands).append
              { block with events := events } with
          store := some ((directory.extended { block with events := events } state).pruned
            (node.withoutCommands block.commands).mempool).store }) := by
  unfold commitBlock
  cases verified : node.verifyBlock env block with
  | error error => exact Or.inl ⟨error, node.subLedgers, rfl⟩
  | ok executed =>
      obtain ⟨events, state⟩ := executed
      dsimp only
      cases deliver block.height (projectBlock { block with events := events } node.keyrings)
          node.keyrings 0 node.subLedgers with
      | mk result ledgers =>
          cases result with
          | error error => exact Or.inl ⟨.view error, ledgers, rfl⟩
          | ok delivered =>
              dsimp only
              have written := @persistBlock_directory env healthy
                ((({ node with
                    subLedgers := ledgers
                    state := state } : Node).withoutCommands block.commands).append
                  { block with events := events }) directory _ _ stored
                { block with events := events }
              rw [written]
              exact Or.inr ⟨_, events, state, ledgers, rfl, rfl⟩

omit [ChaCha20Poly1305] in
/-- A raw transaction leaves no trace, or its anchor block and state are written. -/
theorem ethApplyRaw_directory [Keccak256] [Secp256k1] [Evm]
    (stored : node.store = some directory.store) (raw : List UInt8) :
    (node.ethApplyRaw env raw).2 = node ∨
      ∃ tx run, Anchors node raw tx run ∧
        (node.ethApplyRaw env raw).2 =
          let sealed := { node with
            state := node.ethRecorded tx (Eth.ethNonce node.state tx.sender) run }
          let block := sealed.anchorBlock env node.head.timestamp
          { sealed.append block with
            store := some (directory.extended block sealed.state).store } := by
  rcases ethApplyRaw_cases env node raw with refused | ⟨tx, run, anchors, sealed, _⟩
  · exact Or.inl refused
  · refine Or.inr ⟨tx, run, anchors, ?_⟩
    rw [sealed]
    unfold sealAnchorBlock
    dsimp only
    have written := @persistAnchor_directory env healthy (({ node with
        state := node.ethRecorded tx (Eth.ethNonce node.state tx.sender) run } : Node).append
      (({ node with
        state := node.ethRecorded tx (Eth.ethNonce node.state tx.sender) run } : Node).anchorBlock
          env node.head.timestamp)) directory stored
    rw [written]
    rfl

end Writing

/-! ### Intake and envelopes -/

section Intake

variable [Ed25519] {env : Env} {node : Node} {signed : SignedCommand} {directory : Directory}

/-- Without the log, an accepted command is just taken in. -/
theorem ingestSigned_restores (accepted : Accepted node signed) :
    node.ingestSigned env signed false = (.ok (), node.queued signed) := by
  rw [ingestSigned_accepted accepted]
  rfl

theorem submitSigned_admits (healthy : ∀ op, env.io op = none)
    (stored : node.store = some directory.store) (accepted : Accepted node signed) :
    node.submitSigned env signed = (.ok (), { node.queued signed with
      store := some ({ directory with
        pending := directory.pending ++ [signed] } : Directory).store }) := by
  unfold submitSigned
  rw [ingestSigned_accepted accepted]
  unfold logged logPending Store.appendPending
  rw [if_pos rfl]
  have written := @persist_write env healthy { node with
      accounts := node.boundAccounts signed
      nonces := node.consumedNonces signed } _ stored .appendPending fun store =>
    { store with pending := store.pending ++ [toVec signed] }
  rw [written]
  simp only [queued, Directory.store, List.map_append, List.map_singleton]

variable [Blake3] [SerdeJson] [ChaCha20Poly1305] [X25519]

/-- What an envelope may write: the private files and nothing else. -/
theorem applyPrivateEnvelope_directory (healthy : ∀ op, env.io op = none)
    (stored : node.store = some directory.store) (envelope : PrivateEnvelope) :
    ∃ privateState commitments envelopes attestations files filed,
      (node.applyPrivateEnvelope env envelope).2 = { node with
        privateState := privateState
        privateCommitments := commitments
        privateEnvelopes := envelopes
        attestations := attestations
        store := some ({ directory with
          privateState := files
          commitments := filed } : Directory).store } := by
  have kept : ({ node with store := some directory.store } : Node) = node := by
    rw [← stored]
  have untouched : ∃ privateState commitments envelopes attestations files filed,
      node = { node with
        privateState := privateState
        privateCommitments := commitments
        privateEnvelopes := envelopes
        attestations := attestations
        store := some ({ directory with
          privateState := files
          commitments := filed } : Directory).store } :=
    ⟨node.privateState, node.privateCommitments, node.privateEnvelopes, node.attestations,
      directory.privateState, directory.commitments, kept.symm⟩
  unfold applyPrivateEnvelope
  split
  · exact untouched
  · split
    · exact untouched
    · dsimp only
      have noted := @persist_write env healthy { node with
          privateCommitments := node.privateCommitments ++ [envelope.commitment]
          privateEnvelopes := node.privateEnvelopes.insert envelope.commitment envelope } _ stored
        .savePrivateCommitments fun store =>
          { store with
            privateCommitments := some (toVec (node.privateCommitments ++ [envelope.commitment])) }
      unfold Store.savePrivateCommitments
      rw [noted]
      dsimp only
      split
      · rename_i keyring hosted
        unfold executePrivate
        split
        · exact ⟨_, _, _, _, directory.privateState, some _, rfl⟩
        · split
          · exact ⟨_, _, _, _, directory.privateState, some _, rfl⟩
          · split
            · exact ⟨_, _, _, _, directory.privateState, some _, rfl⟩
            · rename_i receipt state _
              dsimp only
              have executed := @persist_write env healthy { node with
                  privateState := state
                  privateCommitments := node.privateCommitments ++ [envelope.commitment]
                  privateEnvelopes :=
                    node.privateEnvelopes.insert envelope.commitment envelope
                  attestations := (node.attestations.record (RootAttestation.create
                    (hostedIdentity keyring) envelope.commitment state.root)).2
                  store := some { directory.store with
                    privateCommitments :=
                      some (toVec (node.privateCommitments ++ [envelope.commitment])) } } _ rfl
                .savePrivateState fun store =>
                  { store with privateState := some (toVec state) }
              unfold Store.savePrivateState
              rw [executed]
              exact ⟨_, _, _, _, some state, some _, rfl⟩
      · exact ⟨_, _, _, _, directory.privateState, some _, rfl⟩

end Intake

/-! ### Opening a directory -/

section Opening

variable [Ed25519] [Blake3] [SerdeJson] {env : Env}

/-- The node before its mempool is restored. -/
def loaded (proposer : PartyId) (cascade : Cascade) (directory : Directory)
    (nonempty : directory.chain ≠ []) : Node :=
  { Node.new proposer cascade with
    blocks := directory.chain
    nonempty := nonempty
    state := directory.saved.getD StateTree.empty
    privateState := directory.privateState.getD StateTree.empty
    privateCommitments := directory.commitments.getD []
    store := some directory.store }

/-- The node behind `with_store`. -/
def resumed (env : Env) (proposer : PartyId) (cascade : Cascade) (directory : Directory)
    (nonempty : directory.chain ≠ []) : Node :=
  if directory.pending.isEmpty then loaded proposer cascade directory nonempty
  else
    let restored := (loaded proposer cascade directory nonempty).reingest env directory.pending
    { restored with store := some (directory.pruned restored.mempool).store }

omit [Blake3] [SerdeJson] in
/-- Restoring touches the registries and the queue. -/
theorem reingest_eq (node : Node) (pending : List SignedCommand) :
    ∃ accounts nonces mempool, node.reingest env pending = { node with
      accounts := accounts
      nonces := nonces
      mempool := mempool } := by
  unfold reingest
  induction pending generalizing node with
  | nil => exact ⟨node.accounts, node.nonces, node.mempool, rfl⟩
  | cons signed rest ih =>
      rw [List.foldl_cons]
      by_cases accepted : Accepted node signed
      · rw [ingestSigned_restores accepted]
        exact ih (node.queued signed)
      · obtain ⟨error, accounts, refused⟩ := @ingestSigned_refused _ env _ _ accepted false
        rw [refused]
        exact ih { node with accounts := accounts }

omit [SerdeJson] [Ed25519] in
/-- Pruning a log without entries writes nothing new. -/
theorem pruned_of_empty {directory : Directory} (none : directory.pending = [])
    (mempool : List Command) : directory.pruned mempool = directory := by
  unfold Directory.pruned
  rw [none, List.filter_nil, ← none]

/-- The mempool is restored, and the log rewritten to what came back. -/
theorem restoreMempool_directory (healthy : ∀ op, env.io op = none) {node : Node}
    {directory : Directory} (stored : node.store = some directory.store) :
    node.restoreMempool env = (.ok (), { node.reingest env directory.pending with
      store := some (directory.pruned (node.reingest env directory.pending).mempool).store }) := by
  unfold restoreMempool
  rw [stored]
  dsimp only
  rw [directory.loadPending_store healthy]
  dsimp only
  by_cases quiet : directory.pending.isEmpty
  · have none : directory.pending = [] := List.isEmpty_iff.mp quiet
    rw [if_pos quiet, pruned_of_empty none, none, ← stored]
    rfl
  · rw [if_neg quiet]
    obtain ⟨accounts, nonces, mempool, restored⟩ := @reingest_eq _ env node directory.pending
    apply syncPersistedMempool_directory healthy
    rw [restored]
    exact stored

omit [SerdeJson] in
theorem resumed_eq (proposer : PartyId) (cascade : Cascade) (directory : Directory)
    (nonempty : directory.chain ≠ []) :
    resumed env proposer cascade directory nonempty =
      { (loaded proposer cascade directory nonempty).reingest env directory.pending with
        store := some (directory.pruned
          ((loaded proposer cascade directory nonempty).reingest env
            directory.pending).mempool).store } := by
  unfold resumed
  by_cases quiet : directory.pending.isEmpty
  · have none : directory.pending = [] := List.isEmpty_iff.mp quiet
    rw [if_pos quiet, pruned_of_empty none, none]
    rfl
  · rw [if_neg quiet]

theorem withStore_directory (healthy : ∀ op, env.io op = none) (proposer : PartyId)
    (cascade : Cascade) (directory : Directory) (nonempty : directory.chain ≠ []) :
    Node.withStore env proposer cascade directory.store =
      .ok (resumed env proposer cascade directory nonempty) := by
  unfold Node.withStore
  dsimp only
  rw [directory.loadBlocks_store healthy]
  dsimp only
  rw [dif_pos nonempty, directory.loadState_store healthy]
  dsimp only
  rw [directory.loadPrivateState_store healthy]
  dsimp only
  rw [directory.loadPrivateCommitments_store healthy]
  dsimp only
  have stored : (loaded proposer cascade directory nonempty).store = some directory.store := rfl
  have restored := restoreMempool_directory healthy stored
  split
  · rename_i failed
    cases failed.symm.trans restored
  · rename_i done
    rw [(Prod.mk.inj (done.symm.trans restored)).2, resumed_eq]

/-- A new directory is empty, and opening it writes the genesis block. -/
theorem withStore_founded (healthy : ∀ op, env.io op = none) (proposer : PartyId)
    (cascade : Cascade) {directory : Directory}
    (fresh : directory.chain = [] → directory = Directory.empty) :
    Node.withStore env proposer cascade directory.store =
      .ok (resumed env proposer cascade directory.founded directory.founded_nonempty) := by
  by_cases absent : directory.chain = []
  · rw [fresh absent]
    unfold Node.withStore
    dsimp only
    rw [Directory.empty.loadBlocks_store healthy]
    dsimp only
    rw [dif_neg (fun some => some rfl)]
    unfold Store.appendBlock Store.write Store.loadPrivateState Store.loadPrivateCommitments
      Store.loadSnapshot Store.read
    rw [healthy .appendBlock]
    dsimp only
    rw [healthy .loadPrivateState]
    dsimp only [Directory.empty, Directory.store, Option.map_none]
    rw [healthy .loadPrivateCommitments]
    dsimp only [Except.map, Option.getD_none]
    unfold restoreMempool Store.loadPending Store.read
    dsimp only
    rw [healthy .loadPending]
    rfl
  · have kept : directory.founded = directory := by
      unfold Directory.founded
      rw [if_neg (fun none => absent (List.isEmpty_iff.mp none))]
    have opened := withStore_directory healthy proposer cascade directory absent
    rw [opened]
    congr 1
    simp only [kept]

end Opening

end Node

end Veilux
