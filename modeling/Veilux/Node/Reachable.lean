/-
Reachable nodes and the order of their mempool: along the mempool the nonces of
every submitter increase, because intake accepts only nonces above the last one
and nothing else adds commands.
-/

import Veilux.Node.Blocks

namespace Veilux

namespace Node

/-- The nonce whose successor wraps around. -/
def maxNonce : UInt64 := 18446744073709551615

/-- Nonces increase along the mempool and are recorded below `u64::MAX`. -/
structure Ordered (node : Node) : Prop where
  increasing : node.mempool.Pairwise fun first second =>
    first.submitter = second.submitter → first.nonce < second.nonce
  recorded : ∀ command ∈ node.mempool, ∃ last,
    node.nonces.lookup command.submitter = some last ∧ command.nonce ≤ last
  bounded : ∀ party last, node.nonces.lookup party = some last → last < maxNonce

theorem ordered_new (proposer : PartyId) (cascade : Cascade) : Ordered (Node.new proposer cascade) := by
  refine ⟨List.Pairwise.nil, ?_, ?_⟩
  · intro command member
    cases member
  · intro party last found
    cases found

/-- Only the mempool and the nonces matter, and commands may leave. -/
theorem Ordered.sublist {node other : Node} (ordered : Ordered node)
    (fewer : other.mempool.Sublist node.mempool) (nonces : other.nonces = node.nonces) :
    Ordered other := by
  refine ⟨ordered.increasing.sublist fewer, ?_, ?_⟩
  · rw [nonces]
    exact fun command member => ordered.recorded command (fewer.subset member)
  · rw [nonces]
    exact ordered.bounded

theorem expectedNonce_gt {node : Node} (ordered : Ordered node) {party : PartyId}
    {last nonce : UInt64} (found : node.nonces.lookup party = some last)
    (enough : node.expectedNonce party ≤ nonce) : last < nonce := by
  unfold expectedNonce at enough
  rw [found] at enough
  have room := UInt64.lt_iff_toNat_lt.mp (ordered.bounded party last found)
  change last.toNat < 18446744073709551615 at room
  rw [UInt64.lt_iff_toNat_lt]
  have above := UInt64.le_iff_toNat_le.mp enough
  rw [UInt64.toNat_add] at above
  change (last.toNat + 1) % 2 ^ 64 ≤ nonce.toNat at above
  omega

section Intake

variable [Ed25519] {node : Node} {signed : SignedCommand}

/-- A nonce recorded for an admissible command, with or without the command. -/
theorem Ordered.consume (ordered : Ordered node)
    {accounts : AList (fun _ : PartyId => List UInt8)} (store : Option Store)
    (admissible : Admissible node signed accounts) (bound : signed.command.nonce < maxNonce) :
    Ordered { node with
      accounts := accounts
      nonces := node.nonces.insert signed.command.submitter signed.command.nonce
      store := store } := by
  refine ⟨ordered.increasing, ?_, ?_⟩
  · intro command member
    obtain ⟨last, found, below⟩ := ordered.recorded command member
    by_cases same : command.submitter = signed.command.submitter
    · refine ⟨signed.command.nonce, ?_, ?_⟩
      · change (node.nonces.insert _ _).lookup command.submitter = _
        rw [same, AList.lookup_insert]
      · rw [same] at found
        exact UInt64.le_of_lt
          (UInt64.lt_of_le_of_lt below (expectedNonce_gt ordered found admissible.nonce))
    · refine ⟨last, ?_, below⟩
      change (node.nonces.insert _ _).lookup command.submitter = _
      rw [AList.lookup_insert_ne same]
      exact found
  · intro party last found
    change (node.nonces.insert _ _).lookup party = _ at found
    by_cases same : party = signed.command.submitter
    · rw [same, AList.lookup_insert] at found
      cases found
      exact bound
    · rw [AList.lookup_insert_ne same] at found
      exact ordered.bounded party last found

theorem Ordered.ingestSigned (ordered : Ordered node) (env : Env) (durable : Bool)
    (bound : signed.command.nonce < maxNonce) :
    Ordered (node.ingestSigned env signed durable).2 := by
  have ingested := ingestSigned_ingested env node signed durable
  generalize node.ingestSigned env signed durable = result at ingested
  cases ingested with
  | refused error accounts kept => exact ordered.sublist (List.Sublist.refl _) rfl
  | unlogged error accounts store admissible => exact ordered.consume store admissible bound
  | admitted accounts store admissible =>
      have consumed := ordered.consume store admissible bound
      refine ⟨?_, ?_, consumed.bounded⟩
      · refine List.pairwise_append.mpr ⟨ordered.increasing, List.pairwise_singleton _ _, ?_⟩
        intro command member last isLast same
        rw [List.mem_singleton.mp isLast] at same ⊢
        obtain ⟨recorded, found, below⟩ := ordered.recorded command member
        rw [same] at found
        exact UInt64.lt_of_le_of_lt below (expectedNonce_gt ordered found admissible.nonce)
      · intro command member
        rcases List.mem_append.mp member with earlier | last
        · exact consumed.recorded command earlier
        · rw [List.mem_singleton.mp last]
          exact ⟨signed.command.nonce, AList.lookup_insert _, UInt64.le_refl _⟩

theorem Ordered.reingest (ordered : Ordered node) (env : Env) {pending : List SignedCommand}
    (bound : ∀ signed ∈ pending, signed.command.nonce < maxNonce) :
    Ordered (node.reingest env pending) := by
  unfold Node.reingest
  induction pending generalizing node with
  | nil => exact ordered
  | cons signed rest ih =>
      apply ih (ordered.ingestSigned env false (bound signed List.mem_cons_self))
      exact fun other member => bound other (List.mem_cons_of_mem _ member)

end Intake

section Blocks

variable [Ed25519] [SerdeJson] [Blake3] {node : Node}

omit [Ed25519] in
theorem Ordered.syncPersistedMempool (ordered : Ordered node) (env : Env) :
    Ordered (node.syncPersistedMempool env).2 := by
  obtain ⟨store, same⟩ := syncPersistedMempool_eq env node
  rw [same]
  exact ordered.sublist (List.Sublist.refl _) rfl

omit [Ed25519] in
theorem Ordered.assembleBlock (ordered : Ordered node) (env : Env) :
    Ordered (node.assembleBlock env).2 := by
  have dropped : Ordered (node.withoutCommands (node.assembly env).rejected) :=
    ordered.sublist List.filter_sublist rfl
  have synced := dropped.syncPersistedMempool env
  unfold Node.assembleBlock
  dsimp only
  split
  · exact ordered
  · generalize (node.withoutCommands (node.assembly env).rejected).syncPersistedMempool env =
      result at synced
    obtain ⟨outcome, after⟩ := result
    cases outcome with
    | error error => exact synced
    | ok done => exact synced

omit [Ed25519] in
theorem Ordered.commitBlock [ChaCha20Poly1305] (ordered : Ordered node) (env : Env)
    (block : Block) : Ordered (node.commitBlock env block).2 := by
  have committed := commitBlock_committed env node block
  generalize node.commitBlock env block = result at committed
  cases committed with
  | refused error ledgers => exact ordered.sublist (List.Sublist.refl _) rfl
  | appended result events state ledgers store verified =>
      exact ordered.sublist List.filter_sublist rfl

theorem Ordered.restoreMempool (ordered : Ordered node) (env : Env)
    (bound : ∀ store pending, node.store = some store → store.loadPending env = .ok pending →
      ∀ signed ∈ pending, signed.command.nonce < maxNonce) :
    Ordered (node.restoreMempool env).2 := by
  unfold Node.restoreMempool
  split
  · exact ordered
  · rename_i store present
    split
    · exact ordered
    · rename_i pending loaded
      split
      · exact ordered
      · exact (ordered.reingest env (bound store pending present loaded)).syncPersistedMempool env

/-- Opening a store starts from an empty mempool and takes the logged commands in. -/
theorem ordered_withStore {env : Env} {proposer : PartyId} {cascade : Cascade} {store : Store}
    (opened : withStore env proposer cascade store = .ok node)
    (bound : ∀ pending, store.loadPending env = .ok pending →
      ∀ signed ∈ pending, signed.command.nonce < maxNonce) : Ordered node := by
  have fresh := ordered_new proposer cascade
  -- The only write before the mempool is read is the genesis block's log line.
  have logged : ∀ block store', store.appendBlock env block = (.ok (), store') →
      store'.loadPending env = store.loadPending env := by
    intro block store' appended
    unfold Store.appendBlock Store.write at appended
    split at appended
    · cases appended
    · cases appended
      rfl
  unfold withStore at opened
  dsimp only at opened
  split at opened
  · cases opened
  · split at opened
    · cases opened
    · rename_i base store' prepared
      have start : Ordered base ∧ store'.loadPending env = store.loadPending env := by
        split at prepared
        · split at prepared
          · cases prepared
          · cases prepared
            exact ⟨fresh.sublist (List.Sublist.refl _) rfl, rfl⟩
        · split at prepared
          · cases prepared
          · rename_i appended
            cases prepared
            exact ⟨fresh, logged _ _ appended⟩
      split at opened
      · cases opened
      · rename_i privateState _
        split at opened
        · cases opened
        · rename_i commitments _
          have ordered : Ordered { base with
              privateState := privateState.getD base.privateState
              privateCommitments := commitments
              store := some store' } := start.1.sublist (List.Sublist.refl _) rfl
          have restored := ordered.restoreMempool env (by
            intro found pending present loaded
            cases present
            rw [start.2] at loaded
            exact bound pending loaded)
          split at opened
          · cases opened
          · rename_i result finished
            cases opened
            rw [finished] at restored
            exact restored

/-- Nodes as the program can have them: created or opened, then any calls in any
order.  Nonces stay below `u64::MAX`; whatever leaves mempool and nonces alone
(hosting, seeding, private envelopes, configuration) is one case. -/
inductive Reachable [ChaCha20Poly1305] : Node → Prop
  | created (proposer : PartyId) (cascade : Cascade) : Reachable (Node.new proposer cascade)
  | opened {env : Env} {proposer : PartyId} {cascade : Cascade} {store : Store} {node : Node}
      (loaded : withStore env proposer cascade store = .ok node)
      (bound : ∀ pending, store.loadPending env = .ok pending →
        ∀ signed ∈ pending, signed.command.nonce < maxNonce) : Reachable node
  | submitted {node : Node} (earlier : Reachable node) (env : Env) (signed : SignedCommand)
      (bound : signed.command.nonce < maxNonce) : Reachable (node.submitSigned env signed).2
  | assembled {node : Node} (earlier : Reachable node) (env : Env) :
      Reachable (node.assembleBlock env).2
  | committed {node : Node} (earlier : Reachable node) (env : Env) (block : Block) :
      Reachable (node.commitBlock env block).2
  | adjusted {node other : Node} (earlier : Reachable node)
      (mempool : other.mempool = node.mempool) (nonces : other.nonces = node.nonces) :
      Reachable other

theorem Reachable.ordered [ChaCha20Poly1305] (reachable : Reachable node) : Ordered node := by
  induction reachable with
  | created proposer cascade => exact ordered_new proposer cascade
  | opened loaded bound => exact ordered_withStore loaded bound
  | submitted earlier env signed bound ordered => exact ordered.ingestSigned env true bound
  | assembled earlier env ordered => exact ordered.assembleBlock env
  | committed earlier env block ordered => exact ordered.commitBlock env block
  | adjusted earlier mempool nonces ordered =>
      apply ordered.sublist _ nonces
      rw [mempool]

end Blocks

/-- Submitter and nonce name a command of an ordered mempool. -/
theorem Ordered.eq_of_nonce {node : Node} (ordered : Ordered node) {first second : Command}
    (firstIn : first ∈ node.mempool) (secondIn : second ∈ node.mempool)
    (submitter : first.submitter = second.submitter) (nonce : first.nonce = second.nonce) :
    first = second := by
  have distinct : (node.mempool.map fun command => (command.submitter, command.nonce)).Nodup := by
    apply List.pairwise_map.mpr
    apply ordered.increasing.imp
    intro earlier later increases same
    have less := increases (congrArg Prod.fst same)
    rw [(Prod.mk.inj same).2] at less
    exact absurd less (UInt64.lt_irrefl _)
  exact List.inj_on_of_nodup_map distinct firstIn secondIn (Prod.ext submitter nonce)

/-- The digest keeps the mempool's commands apart: no two different inputs among
theirs collide, and their parts have 64-bit lengths. -/
structure Separated [Blake3] (mempool : List Command) : Prop where
  sizes : ∀ command ∈ mempool, ∀ part ∈ command.idParts, part.length < 2 ^ 64
  digests : ∀ first ∈ mempool, ∀ second ∈ mempool,
    Blake3.digest (Hash.commitBytes "command" first.idParts) =
      Blake3.digest (Hash.commitBytes "command" second.idParts) →
    Hash.commitBytes "command" first.idParts = Hash.commitBytes "command" second.idParts

theorem Ordered.eq_of_id [Blake3] {node : Node} (ordered : Ordered node)
    (separated : Separated node.mempool) {first second : Command}
    (firstIn : first ∈ node.mempool) (secondIn : second ∈ node.mempool)
    (same : first.id = second.id) : first = second := by
  have parts := Hash.commitBytes_injective (separated.sizes first firstIn)
    (separated.sizes second secondIn)
    (separated.digests first firstIn second secondIn (Hash.mk.inj same))
  simp only [Command.idParts, List.cons.injEq, and_true] at parts
  obtain ⟨_, submitter, nonce, _⟩ := parts
  apply ordered.eq_of_nonce firstIn secondIn (PartyId.bytes_injective submitter)
  apply UInt64.toNat_inj.mp
  exact Bytes.leBytes_injective (by simpa using first.nonce.toNat_lt)
    (by simpa using second.nonce.toNat_lt) nonce

/-- Removing commands by id removes exactly those commands. -/
theorem filter_ids [Blake3] {node : Node} (ordered : Ordered node)
    (separated : Separated node.mempool) {kept commands : List Command}
    (fewer : kept ⊆ node.mempool) (inside : commands ⊆ node.mempool) :
    (kept.filter fun command => !(commands.map Command.id).contains command.id) =
      kept.filter fun command => command ∉ commands := by
  apply List.filter_congr
  intro command member
  rw [Bool.eq_iff_iff]
  simp only [Bool.not_eq_true', List.contains_eq_mem, List.mem_map, decide_eq_false_iff_not,
    decide_eq_true_eq, not_exists, not_and]
  constructor
  · intro noneSame included
    exact noneSame command included rfl
  · intro excluded other included same
    apply excluded
    rw [← ordered.eq_of_id separated (inside included) (fewer member) same]
    exact included

end Node

end Veilux
