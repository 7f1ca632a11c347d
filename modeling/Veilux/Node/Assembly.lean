/-
Proposer and verifier agree: the block assembled from a mempool is accepted by
`commit_block` on the same node.  The probing loop of assembly is related to the
strict loop of commit; the mempool's nonces keep its commands apart.
-/

import Veilux.Node.Reachable

namespace Veilux

namespace Node

theorem saturatingAdd64_toNat (left right : UInt64) :
    (saturatingAdd64 left right).toNat = min (left.toNat + right.toNat) (2 ^ 64 - 1) := by
  unfold saturatingAdd64
  rw [UInt64.toNat_ofNat']
  exact Nat.mod_eq_of_lt (by omega)

theorem blockTime_toNat (env : Env) (node : Node) :
    (node.blockTime env).toNat = max env.now.toNat node.head.timestamp.toNat := by
  unfold blockTime
  change (if env.now ≤ node.head.timestamp then node.head.timestamp else env.now).toNat = _
  split
  · rename_i later
    exact (Nat.max_eq_right (UInt64.le_iff_toNat_le.mp later)).symm
  · rename_i earlier
    exact (Nat.max_eq_left (Nat.le_of_lt (UInt64.lt_iff_toNat_lt.mp (UInt64.not_le.mp earlier)))).symm

section Loops

variable [SerdeJson] [Blake3]

/-- The commands assembly includes execute strictly to the state it ends with. -/
theorem assembleAll_spec (cascade : Cascade) (maxGas : UInt64) (policy : FeePolicy)
    (price : U128) (proposer : PartyId) (candidates : List Command) (acc : Assembly) :
    ∃ included dropped,
      (assembleAll cascade maxGas policy price proposer candidates acc).commands =
        acc.commands ++ included ∧
      (assembleAll cascade maxGas policy price proposer candidates acc).rejected =
        acc.rejected ++ dropped ∧
      executeAll cascade policy price proposer included acc.exec =
        .ok (assembleAll cascade maxGas policy price proposer candidates acc).exec ∧
      (acc.exec.gas ≤ maxGas →
        (assembleAll cascade maxGas policy price proposer candidates acc).exec.gas ≤ maxGas) ∧
      included ⊆ candidates ∧ dropped ⊆ candidates := by
  induction candidates generalizing acc with
  | nil => exact ⟨[], [], by simp [assembleAll], by simp [assembleAll], rfl, id, by simp, by simp⟩
  | cons command rest ih =>
      unfold assembleAll
      cases probed : cascade.apply command acc.exec.state with
      | mk result probe =>
          cases result with
          | error error =>
              obtain ⟨included, dropped, commands, rejected, executed, gas, inside, outside⟩ :=
                ih { acc with rejected := acc.rejected ++ [command] }
              refine ⟨included, command :: dropped, commands, ?_, executed, gas, ?_, ?_⟩
              · rw [rejected, List.append_assoc, List.singleton_append]
              · exact fun other member => List.mem_cons_of_mem _ (inside member)
              · exact List.cons_subset_cons _ outside
          | ok receipt =>
              dsimp only
              split
              · exact ⟨[], [], by simp, by simp, rfl, id, by simp, by simp⟩
              · rename_i within
                obtain ⟨included, dropped, commands, rejected, executed, gas, inside, outside⟩ :=
                  ih { acc with
                    exec := acc.exec.charge policy price proposer command receipt probe
                    commands := acc.commands ++ [command] }
                refine ⟨command :: included, dropped, ?_, rejected, ?_, ?_, ?_, ?_⟩
                · rw [commands, List.append_assoc, List.singleton_append]
                · unfold executeAll
                  rw [probed]
                  exact executed
                · exact fun _ => gas (UInt64.not_lt.mp within)
                · exact List.cons_subset_cons _ inside
                · exact fun other member => List.mem_cons_of_mem _ (outside member)

theorem assembly_spec (env : Env) (node : Node) :
    executeAll node.cascade node.feePolicy
        (basePrice (node.openingState (node.blockTime env)) node.feePolicy) node.proposer
        (node.assembly env).commands (node.opening (node.blockTime env)) =
      .ok (node.assembly env).exec ∧
    (node.assembly env).exec.gas ≤ node.limits.maxBlockGas ∧
    (node.assembly env).commands ⊆ node.mempool ∧
    (node.assembly env).rejected ⊆ node.mempool := by
  obtain ⟨included, dropped, commands, rejected, executed, gas, inside, outside⟩ :=
    assembleAll_spec node.cascade node.limits.maxBlockGas node.feePolicy
      (basePrice (node.openingState (node.blockTime env)) node.feePolicy) node.proposer
      (node.mempool.take (min node.mempool.length node.limits.maxBlockCommands))
      ⟨node.opening (node.blockTime env), [], []⟩
  change (node.assembly env).commands = [] ++ included at commands
  change (node.assembly env).rejected = [] ++ dropped at rejected
  rw [List.nil_append] at commands rejected
  rw [commands, rejected]
  refine ⟨executed, gas (UInt64.zero_le), ?_, ?_⟩
  · exact fun other member => List.mem_of_mem_take (inside member)
  · exact fun other member => List.mem_of_mem_take (outside member)

/-- The checks of a commit, one by one. -/
theorem verifyBlock_ok {env : Env} {node : Node} {block : Block}
    {exec : Execution}
    (parent : block.parent = node.head.hash) (height : block.height = node.head.height + 1)
    (early : node.head.timestamp ≤ block.timestamp)
    (late : block.timestamp ≤ saturatingAdd64 env.now maxFutureDriftSecs)
    (executed : executeAll node.cascade node.feePolicy
      (basePrice (node.openingState block.timestamp) node.feePolicy) block.proposer
      block.commands (node.opening block.timestamp) = .ok exec)
    (gas : exec.gas ≤ node.limits.maxBlockGas)
    (eventsRoot : block.eventsRoot = merkleRoot (exec.events.map Event.commitment))
    (stateRoot : block.stateRoot = (adjustBasePrice exec.state node.feePolicy exec.gas).root) :
    node.verifyBlock env block =
      .ok (exec.events, adjustBasePrice exec.state node.feePolicy exec.gas) := by
  have sits : ¬ (block.parent ≠ node.head.hash ∨ block.height ≠ node.head.height + 1) := by
    rintro (other | other)
    · exact other parent
    · exact other height
  have time : ¬ (block.timestamp < node.head.timestamp ∨
      saturatingAdd64 env.now maxFutureDriftSecs < block.timestamp) := by
    rintro (other | other)
    · exact UInt64.not_lt.mpr early other
    · exact UInt64.not_lt.mpr late other
  unfold verifyBlock
  rw [if_neg sits, if_neg time, executed]
  dsimp only
  rw [if_neg (UInt64.not_lt.mpr gas), if_neg (not_not_intro eventsRoot.symm),
    if_neg (not_not_intro stateRoot.symm)]

/-- The assembled block passes every check of a commit that is not earlier. -/
theorem verifyBlock_assembled (env later : Env) (node : Node)
    (clock : env.now.toNat ≤ later.now.toNat)
    (drift : node.head.timestamp.toNat ≤ later.now.toNat + maxFutureDriftSecs.toNat) :
    node.verifyBlock later (node.assembledBlock env) =
      .ok ((node.assembly env).exec.events, node.trialState env) := by
  obtain ⟨executed, gas, _, _⟩ := node.assembly_spec env
  have early : node.head.timestamp ≤ node.blockTime env := by
    rw [UInt64.le_iff_toNat_le, blockTime_toNat]
    omega
  have late : node.blockTime env ≤ saturatingAdd64 later.now maxFutureDriftSecs := by
    have top := (node.blockTime env).toNat_lt
    rw [UInt64.le_iff_toNat_le, saturatingAdd64_toNat]
    rw [blockTime_toNat] at top ⊢
    omega
  exact verifyBlock_ok rfl rfl early late executed gas rfl rfl

end Loops

/-! ### Delivery and persistence succeed -/

section Delivery

variable [SerdeJson] [Blake3] [ChaCha20Poly1305]

omit [SerdeJson] [Blake3] [ChaCha20Poly1305] in
theorem find_hosted {keyrings : List ViewKeyring}
    (distinct : (keyrings.map ViewKeyring.party).Nodup) {keyring : ViewKeyring}
    (member : keyring ∈ keyrings) :
    keyrings.find? (fun other => other.party = keyring.party) = some keyring := by
  cases found : keyrings.find? (fun other => other.party = keyring.party) with
  | none =>
      have absent := List.find?_eq_none.mp found keyring member
      simp only [decide_true, not_true_eq_false] at absent
  | some other =>
      have same : other.party = keyring.party := by
        simpa using List.find?_some found
      have inside := List.mem_of_find?_eq_some found
      rw [List.inj_on_of_nodup_map distinct inside member same]

theorem deliver_ok (height : Nat) {projection : Projection} {keyrings rest : List ViewKeyring}
    (distinct : (keyrings.map ViewKeyring.party).Nodup)
    (valid : Sealed keyrings projection.viewsByParty) (subset : rest ⊆ keyrings)
    (delivered : Nat) (ledgers : AList (fun _ : PartyId => SubLedger)) :
    ∃ count after, deliver height projection rest delivered ledgers = (.ok count, after) := by
  induction rest generalizing delivered ledgers with
  | nil => exact ⟨delivered, ledgers, rfl⟩
  | cons keyring rest ih =>
      have tail : rest ⊆ keyrings := fun other member => subset (List.mem_cons_of_mem _ member)
      unfold deliver
      cases views : projection.viewsByParty.lookup keyring.party with
      | none => exact ih tail delivered ledgers
      | some filed =>
          cases ledgers.lookup keyring.party with
          | none => exact ih tail delivered ledgers
          | some ledger =>
              have own : ∀ view ∈ filed, ∃ event, view = keyring.sealView event := by
                intro view member
                obtain ⟨sealer, event, found, same⟩ := valid keyring.party filed views view member
                rw [find_hosted distinct (subset List.mem_cons_self)] at found
                cases found
                exact ⟨event, same⟩
              obtain ⟨applied, after, opened⟩ :=
                applyViews_ok ledger height projection.eventsRoot filed keyring own
              dsimp only
              rw [opened]
              exact ih tail _ _

variable {env : Env}

omit [SerdeJson] [Blake3] [ChaCha20Poly1305] in
theorem persist_ok (node : Node) {write : Store → Except StoreError Unit × Store}
    (works : ∀ store, (write store).1 = .ok ()) : (node.persist write).1 = .ok () := by
  unfold persist
  cases node.store with
  | none => rfl
  | some store =>
      have written := works store
      dsimp only
      cases result : write store with
      | mk outcome after =>
          rw [result] at written
          cases written
          rfl

omit [SerdeJson] [Blake3] [ChaCha20Poly1305] in
theorem write_ok (healthy : ∀ op, env.io op = none) (op : StoreOp) (update : Store → Store)
    (store : Store) : (Store.write env op update store).1 = .ok () := by
  unfold Store.write
  rw [healthy op]

omit [ChaCha20Poly1305] in
theorem syncPersistedMempool_ok (healthy : ∀ op, env.io op = none) (node : Node) :
    (node.syncPersistedMempool env).1 = .ok () := by
  unfold syncPersistedMempool
  cases node.store with
  | none => rfl
  | some store =>
      have loaded : ∃ pending, store.loadPending env = .ok pending := by
        unfold Store.loadPending Store.read
        rw [healthy .loadPending]
        exact ⟨_, rfl⟩
      obtain ⟨pending, loaded⟩ := loaded
      dsimp only
      rw [loaded]
      exact persist_ok node (write_ok healthy .rewritePending _)

omit [ChaCha20Poly1305] in
theorem persistBlock_ok (healthy : ∀ op, env.io op = none) (node : Node) (block : Block) :
    (node.persistBlock env block).1 = .ok () := by
  have appended := node.persist_ok (write_ok healthy .appendBlock fun store =>
    { store with blocks := store.blocks ++ [toVec block] })
  unfold persistBlock
  change (node.persist (Store.appendBlock env block)).1 = .ok () at appended
  generalize node.persist (Store.appendBlock env block) = logged at appended
  obtain ⟨result, logged⟩ := logged
  cases appended
  dsimp only
  have saved := logged.persist_ok (write_ok healthy .saveState fun store =>
    { store with state := some (toVec logged.state) })
  change (logged.persist (Store.saveState env logged.state)).1 = .ok () at saved
  generalize logged.persist (Store.saveState env logged.state) = stored at saved
  obtain ⟨result, stored⟩ := stored
  cases saved
  exact stored.syncPersistedMempool_ok healthy

/-- A verified block is committed when the hosted parties are distinct and the
disk works. -/
theorem commitBlock_ok (healthy : ∀ op, env.io op = none) {node : Node} {block : Block}
    {events : List Event} {state : StateTree}
    (verified : node.verifyBlock env block = .ok (events, state))
    (distinct : (node.keyrings.map ViewKeyring.party).Nodup) :
    ∃ summary ledgers store, node.commitBlock env block = (.ok summary,
      (({ node with
          subLedgers := ledgers
          state := state
          store := store } : Node).withoutCommands block.commands).append
        { block with events := events }) := by
  obtain ⟨count, ledgers, delivered⟩ := deliver_ok block.height distinct
    (projectBlock_sealed { block with events := events } node.keyrings)
    (List.Subset.refl node.keyrings) 0 node.subLedgers
  unfold commitBlock
  rw [verified]
  dsimp only
  rw [delivered]
  dsimp only
  have persisted := persistBlock_ok healthy
    ((({ node with
        subLedgers := ledgers
        state := state } : Node).withoutCommands block.commands).append
      { block with events := events }) { block with events := events }
  obtain ⟨store, same⟩ := persistBlock_eq env
    ((({ node with
        subLedgers := ledgers
        state := state } : Node).withoutCommands block.commands).append
      { block with events := events }) { block with events := events }
  generalize persistBlock env
    ((({ node with
        subLedgers := ledgers
        state := state } : Node).withoutCommands block.commands).append
      { block with events := events }) { block with events := events } = stored at persisted same
  obtain ⟨result, after⟩ := stored
  cases persisted
  cases same
  exact ⟨_, ledgers, store, rfl⟩

/-! ### Assembly, then commit -/

omit [ChaCha20Poly1305] in
/-- Assembly returns its block and drops what failed its probe. -/
theorem assembleBlock_ok (healthy : ∀ op, env.io op = none) (node : Node) :
    ∃ store, node.assembleBlock env = (.ok (node.assembledBlock env),
      ({ node with store := store } : Node).withoutCommands (node.assembly env).rejected) := by
  unfold assembleBlock
  dsimp only
  by_cases clean : (node.assembly env).rejected.isEmpty = true
  · rw [if_pos clean, List.isEmpty_iff.mp clean]
    refine ⟨node.store, ?_⟩
    simp only [withoutCommands, List.map_nil, List.contains_nil, Bool.not_false,
      List.filter_true]
  · rw [if_neg clean]
    have synced := syncPersistedMempool_ok healthy
      (node.withoutCommands (node.assembly env).rejected)
    obtain ⟨store, same⟩ := syncPersistedMempool_eq env
      (node.withoutCommands (node.assembly env).rejected)
    generalize (node.withoutCommands (node.assembly env).rejected).syncPersistedMempool env =
      result at synced same
    obtain ⟨outcome, after⟩ := result
    cases synced
    cases same
    exact ⟨store, rfl⟩

/-- On a reachable node whose disk works, at a clock that does not run backwards
and with the parent not too far ahead of it, the assembled block is committed; the
state is the one assembly ended with, and the mempool loses exactly the commands
included and those that failed their probe. -/
theorem assembled_block_commits [Ed25519] {node : Node} (reachable : Reachable node)
    {later : Env} (healthy : ∀ op, env.io op = none) (laterHealthy : ∀ op, later.io op = none)
    (clock : env.now ≤ later.now)
    (drift : node.head.timestamp.toNat ≤ later.now.toNat + maxFutureDriftSecs.toNat)
    (distinct : (node.keyrings.map ViewKeyring.party).Nodup)
    (separated : Separated node.mempool) :
    ∃ assembled summary committed,
      node.assembleBlock env = (.ok (node.assembledBlock env), assembled) ∧
      assembled.commitBlock later (node.assembledBlock env) = (.ok summary, committed) ∧
      committed.state = node.trialState env ∧
      committed.mempool = node.mempool.filter fun command =>
        command ∉ (node.assembly env).commands ∧ command ∉ (node.assembly env).rejected := by
  have ordered := reachable.ordered
  obtain ⟨_, _, included, rejected⟩ := node.assembly_spec env
  obtain ⟨store, assembled⟩ := assembleBlock_ok healthy node
  -- The checks of a commit read neither the mempool nor the store.
  have verified : (({ node with store := store } : Node).withoutCommands
      (node.assembly env).rejected).verifyBlock later (node.assembledBlock env) =
      .ok ((node.assembly env).exec.events, node.trialState env) :=
    verifyBlock_assembled env later node (UInt64.le_iff_toNat_le.mp clock) drift
  obtain ⟨summary, ledgers, after, committed⟩ :=
    commitBlock_ok laterHealthy verified distinct
  refine ⟨_, summary, _, assembled, committed, rfl, ?_⟩
  have dropped := filter_ids ordered separated (List.Subset.refl _) rejected
  have removed := filter_ids ordered separated
    (fun command member => (List.mem_filter.mp member).1 :
      (node.mempool.filter fun command => command ∉ (node.assembly env).rejected) ⊆ node.mempool)
    included
  change ((node.mempool.filter _).filter _) = _
  rw [dropped]
  refine removed.trans ?_
  rw [List.filter_filter]
  apply List.filter_congr
  intro command member
  rw [Bool.decide_and]

end Delivery

/-! ### One pending command -/

section Pending

attribute [local instance] SerdeJson.compact Blake3.polynomial Ed25519.keyed ChaCha20Poly1305.keyed

def pendingCommand : Command :=
  { prism := "token"
    submitter := ⟨"alice"⟩
    visibility := .pub
    payload := []
    nonce := 0 }

/-- A token node that took in one signed command. -/
noncomputable def pendingNode : Node :=
  ((Node.new ⟨"v1"⟩ (Cascade.empty.install TokenPrism.prism)).submitSigned (.healthy 10)
    ((PartyIdentity.repeated "alice" 1).signForChain pendingCommand 0)).2

theorem pendingNode_mempool : pendingNode.mempool = [pendingCommand] := by
  decide +kernel

theorem assembled_block_commits_pending :
    Reachable pendingNode ∧ ∃ assembled summary committed,
      pendingNode.assembleBlock (.healthy 20) =
        (.ok (pendingNode.assembledBlock (.healthy 20)), assembled) ∧
      assembled.commitBlock (.healthy 30) (pendingNode.assembledBlock (.healthy 20)) =
        (.ok summary, committed) ∧
      committed.state = pendingNode.trialState (.healthy 20) ∧
      committed.mempool = pendingNode.mempool.filter fun command =>
        command ∉ (pendingNode.assembly (.healthy 20)).commands ∧
          command ∉ (pendingNode.assembly (.healthy 20)).rejected := by
  have reachable : Reachable pendingNode :=
    .submitted (.created ⟨"v1"⟩ (Cascade.empty.install TokenPrism.prism)) (.healthy 10) _
      (by decide)
  have separated : Separated pendingNode.mempool := by
    rw [pendingNode_mempool]
    constructor
    · intro command member
      rw [List.mem_singleton.mp member]
      decide +kernel
    · intro first firstIn second secondIn _
      rw [List.mem_singleton.mp firstIn, List.mem_singleton.mp secondIn]
  have drift : pendingNode.head.timestamp.toNat ≤
      (Env.healthy 30).now.toNat + maxFutureDriftSecs.toNat := by
    decide +kernel
  have distinct : (pendingNode.keyrings.map ViewKeyring.party).Nodup := by
    decide +kernel
  exact ⟨reachable, assembled_block_commits reachable (fun _ => rfl) (fun _ => rfl) (by decide)
    drift distinct separated⟩

end Pending

end Node

end Veilux
