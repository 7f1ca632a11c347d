/-
The chain a node keeps, over any sequence of the calls that touch it: heights
count up from the genesis block, every block sits on the hash of the one before
and is not earlier, and the head's state root is the state's.  A call that fails,
unless the disk did, leaves chain and state alone.
-/

import Veilux.Node.Assembly
import Veilux.Node.Eth
import Veilux.Node.Steps

namespace Veilux

open Eth

namespace Node

/-! ### Linked chains -/

section Linked

variable [Blake3]

structure Linked (node : Node) : Prop where
  heights : ∀ (index : Nat) (block : Block), node.blocks[index]? = some block → block.height = index
  parents : node.blocks.IsChain fun earlier later => later.parent = earlier.hash
  times : node.blocks.IsChain fun earlier later => earlier.timestamp ≤ later.timestamp
  root : 1 ≤ node.head.height → node.head.stateRoot = node.state.root

/-- One block more, on top of the head and with the root of the new state. -/
structure Grown (node after : Node) (block : Block) : Prop where
  blocks : after.blocks = node.blocks ++ [block]
  height : block.height = node.head.height + 1
  parent : block.parent = node.head.hash
  time : node.head.timestamp ≤ block.timestamp
  root : block.stateRoot = after.state.root

/-- What a call can do to chain and state. -/
inductive Moved (node after : Node) : Prop
  | stayed (blocks : after.blocks = node.blocks) (state : after.state = node.state)
  | grown (block : Block) (grown : Grown node after block)

omit [Blake3] in
theorem getElem?_head (node : Node) :
    node.blocks[node.blocks.length - 1]? = some node.head := by
  rw [← List.getLast?_eq_getElem?]
  exact List.getLast?_eq_some_getLast node.nonempty

omit [Blake3] in
theorem head_congr {node after : Node} (blocks : after.blocks = node.blocks) :
    after.head = node.head := by
  apply Option.some.inj
  rw [← getElem?_head, ← getElem?_head, blocks]

omit [Blake3] in
theorem head_of_snoc {node after : Node} {block : Block}
    (blocks : after.blocks = node.blocks ++ [block]) : after.head = block := by
  apply Option.some.inj
  rw [← getElem?_head, blocks]
  simp

omit [Blake3] in
/-- A relation along a chain goes on when the head stands in it to the new block. -/
theorem isChain_snoc {relation : Block → Block → Prop} {node : Node} {block : Block}
    (chain : node.blocks.IsChain relation) (last : relation node.head block) :
    (node.blocks ++ [block]).IsChain relation := by
  refine List.isChain_append.mpr ⟨chain, List.isChain_singleton _, ?_⟩
  intro earlier isLast later isFirst
  rw [List.getLast?_eq_some_getLast node.nonempty] at isLast
  cases isLast
  cases isFirst
  exact last

theorem Linked.grown {node after : Node} {block : Block} (linked : Linked node)
    (grown : Grown node after block) : Linked after where
  heights := by
    intro index other found
    rw [grown.blocks] at found
    by_cases earlier : index < node.blocks.length
    · rw [List.getElem?_append_left earlier] at found
      exact linked.heights index other found
    · rw [List.getElem?_append_right (by omega)] at found
      have here : index - node.blocks.length = 0 := by
        obtain ⟨bound, _⟩ := List.getElem?_eq_some_iff.mp found
        simpa using bound
      rw [here] at found
      cases found
      have below := linked.heights _ _ node.getElem?_head
      have some := List.length_pos_of_ne_nil node.nonempty
      have above := grown.height
      omega
  parents := by
    rw [grown.blocks]
    exact isChain_snoc linked.parents grown.parent
  times := by
    rw [grown.blocks]
    exact isChain_snoc linked.times grown.time
  root := by
    intro _
    rw [head_of_snoc grown.blocks]
    exact grown.root

theorem Linked.moved {node after : Node} (linked : Linked node) (moved : Moved node after) :
    Linked after := by
  cases moved with
  | stayed blocks state =>
      have head := head_congr blocks
      exact
        { heights := by rw [blocks]; exact linked.heights
          parents := by rw [blocks]; exact linked.parents
          times := by rw [blocks]; exact linked.times
          root := by rw [head, state]; exact linked.root }
  | grown block grown => exact linked.grown grown

theorem Linked.of_genesis {node : Node} (origin : node.blocks = [Block.deterministicGenesis]) :
    Linked node where
  heights := by
    intro index block found
    rw [origin] at found
    have here : index = 0 := by
      obtain ⟨bound, _⟩ := List.getElem?_eq_some_iff.mp found
      simpa using bound
    subst here
    cases found
    rfl
  parents := by
    rw [origin]
    exact List.isChain_singleton _
  times := by
    rw [origin]
    exact List.isChain_singleton _
  root := by
    intro above
    have genesis : node.head = Block.deterministicGenesis := by
      apply Option.some.inj
      rw [← getElem?_head, origin]
      rfl
    rw [genesis] at above
    exact absurd above (by decide)

end Linked

/-! ### Commits -/

section Commits

variable [SerdeJson] [Blake3]

/-- Every check of a commit, with the execution it is about. -/
structure Verified (env : Env) (node : Node) (block : Block) (exec : Execution) : Prop where
  parent : block.parent = node.head.hash
  height : block.height = node.head.height + 1
  early : node.head.timestamp ≤ block.timestamp
  late : block.timestamp ≤ saturatingAdd64 env.now maxFutureDriftSecs
  executed : executeAll node.cascade node.feePolicy
    (basePrice (node.openingState block.timestamp) node.feePolicy) block.proposer
    block.commands (node.opening block.timestamp) = .ok exec
  gas : exec.gas ≤ node.limits.maxBlockGas
  eventsRoot : block.eventsRoot = merkleRoot (exec.events.map Event.commitment)
  stateRoot : block.stateRoot = (adjustBasePrice exec.state node.feePolicy exec.gas).root

theorem verifyBlock_verified {env : Env} {node : Node} {block : Block} {events : List Event}
    {state : StateTree} (verified : node.verifyBlock env block = .ok (events, state)) :
    ∃ exec, Verified env node block exec ∧ events = exec.events ∧
      state = adjustBasePrice exec.state node.feePolicy exec.gas := by
  have sits := verifyBlock_extends verified
  unfold verifyBlock at verified
  rw [if_neg (by simp [sits])] at verified
  split at verified
  · cases verified
  · rename_i time
    split at verified
    · cases verified
    · rename_i exec ran
      dsimp only at verified
      split at verified
      · cases verified
      · rename_i gas
        split at verified
        · cases verified
        · rename_i eventsRoot
          split at verified
          · cases verified
          · rename_i stateRoot
            cases verified
            refine ⟨exec, ?_, rfl, rfl⟩
            exact
              { parent := sits.1
                height := sits.2
                early := UInt64.not_lt.mp fun early => time (Or.inl early)
                late := UInt64.not_lt.mp fun late => time (Or.inr late)
                executed := ran
                gas := UInt64.not_lt.mp gas
                eventsRoot := (Decidable.not_not.mp eventsRoot).symm
                stateRoot := (Decidable.not_not.mp stateRoot).symm }

omit [SerdeJson] [Blake3] in
theorem persist_error {node : Node} {write : Store → Except StoreError Unit × Store}
    {error : NodeError} (failed : (node.persist write).1 = .error error) :
    ∃ text, error = .store text := by
  unfold persist at failed
  split at failed
  · cases failed
  · split at failed
    · cases failed
      exact ⟨_, rfl⟩
    · cases failed

theorem syncPersistedMempool_error {env : Env} {node : Node} {error : NodeError}
    (failed : (node.syncPersistedMempool env).1 = .error error) : ∃ text, error = .store text := by
  unfold syncPersistedMempool at failed
  split at failed
  · cases failed
  · split at failed
    · cases failed
      exact ⟨_, rfl⟩
    · exact persist_error failed

theorem persistBlock_error {env : Env} {node : Node} {block : Block} {error : NodeError}
    (failed : (node.persistBlock env block).1 = .error error) : ∃ text, error = .store text := by
  unfold persistBlock at failed
  split at failed
  · rename_i fault after written
    cases failed
    exact persist_error (congrArg Prod.fst written)
  · split at failed
    · rename_i fault after written
      cases failed
      exact persist_error (congrArg Prod.fst written)
    · exact syncPersistedMempool_error failed

variable [ChaCha20Poly1305]

theorem commitBlock_moved (env : Env) (node : Node) (block : Block) :
    Moved node (node.commitBlock env block).2 := by
  have committed := commitBlock_committed env node block
  generalize node.commitBlock env block = result at committed
  cases committed with
  | refused error ledgers => exact .stayed rfl rfl
  | appended result events state ledgers store verified =>
      obtain ⟨exec, checks, _, rfl⟩ := verifyBlock_verified verified
      exact .grown { block with events := events }
        { blocks := rfl
          height := checks.height
          parent := checks.parent
          time := checks.early
          root := checks.stateRoot }

/-- A commit that fails, unless in the store, has only delivered views. -/
theorem commitBlock_error {env : Env} {node : Node} {block : Block} {error : NodeError}
    (failed : (node.commitBlock env block).1 = .error error) :
    (∃ text, error = .store text) ∨
      ∃ ledgers, (node.commitBlock env block).2 = { node with subLedgers := ledgers } := by
  unfold commitBlock at failed ⊢
  split at failed
  · exact Or.inr ⟨node.subLedgers, rfl⟩
  · dsimp only at failed ⊢
    split at failed
    · rename_i fault ledgers undelivered
      exact Or.inr ⟨ledgers, rfl⟩
    · split at failed
      · rename_i fault after unsaved
        cases failed
        exact Or.inl (persistBlock_error (congrArg Prod.fst unsaved))
      · cases failed

/-! ### Produced and accepted blocks -/

omit [ChaCha20Poly1305] in
/-- Assembly drops rejected commands from the mempool and the pending log. -/
theorem assembleBlock_eq (env : Env) (node : Node) :
    ∃ mempool store, (node.assembleBlock env).2 = { node with
      mempool := mempool
      store := store } := by
  unfold assembleBlock
  dsimp only
  split
  · exact ⟨node.mempool, node.store, rfl⟩
  · obtain ⟨store, synced⟩ := syncPersistedMempool_eq env
      (node.withoutCommands (node.assembly env).rejected)
    generalize syncPersistedMempool env (node.withoutCommands (node.assembly env).rejected) =
      result at synced
    obtain ⟨outcome, after⟩ := result
    cases synced
    cases outcome with
    | error error => exact ⟨_, store, rfl⟩
    | ok done => exact ⟨_, store, rfl⟩

omit [ChaCha20Poly1305] in
theorem assembleBlock_error {env : Env} {node : Node} {error : NodeError}
    (failed : (node.assembleBlock env).1 = .error error) : ∃ text, error = .store text := by
  unfold assembleBlock at failed
  dsimp only at failed
  split at failed
  · cases failed
  · split at failed
    · rename_i fault after unsaved
      cases failed
      exact syncPersistedMempool_error (congrArg Prod.fst unsaved)
    · cases failed

/-- Producing either stops with the node assembly leaves or commits on it. -/
theorem produceBlock_cases (env later : Env) (node : Node) :
    (node.produceBlock env later).2 = node ∨
      ∃ mempool store, (node.produceBlock env later).2 = { node with
          mempool := mempool
          store := store } ∨
        node.produceBlock env later = ({ node with
          mempool := mempool
          store := store } : Node).commitBlock later (node.assembledBlock env) := by
  unfold produceBlock
  split
  · exact Or.inl rfl
  · right
    obtain ⟨mempool, store, assembled⟩ := assembleBlock_eq env node
    have known : ∀ block, (node.assembleBlock env).1 = .ok block →
        block = node.assembledBlock env := fun block => assembleBlock_block
    refine ⟨mempool, store, ?_⟩
    generalize node.assembleBlock env = result at assembled known
    obtain ⟨outcome, after⟩ := result
    cases assembled
    cases outcome with
    | error error => exact Or.inl rfl
    | ok block =>
        right
        dsimp only
        rw [known block rfl]

theorem produceBlock_moved (env later : Env) (node : Node) :
    Moved node (node.produceBlock env later).2 := by
  rcases produceBlock_cases env later node with same | ⟨mempool, store, stopped | commits⟩
  · rw [same]
    exact .stayed rfl rfl
  · rw [stopped]
    exact .stayed rfl rfl
  · rw [commits]
    cases commitBlock_moved later ({ node with
        mempool := mempool
        store := store } : Node) (node.assembledBlock env) with
    | stayed blocks state => exact .stayed blocks state
    | grown block grown =>
        exact .grown block
          { blocks := grown.blocks
            height := grown.height
            parent := grown.parent
            time := grown.time
            root := grown.root }

theorem produceBlock_error {env later : Env} {node : Node} {error : NodeError}
    (failed : (node.produceBlock env later).1 = .error error) :
    (∃ text, error = .store text) ∨
      (node.produceBlock env later).2.blocks = node.blocks ∧
        (node.produceBlock env later).2.state = node.state := by
  rcases produceBlock_cases env later node with same | ⟨mempool, store, stopped | commits⟩
  · rw [same]
    exact Or.inr ⟨rfl, rfl⟩
  · rw [stopped]
    exact Or.inr ⟨rfl, rfl⟩
  · rw [commits] at failed ⊢
    rcases commitBlock_error failed with disk | ⟨ledgers, delivered⟩
    · exact Or.inl disk
    · rw [delivered]
      exact Or.inr ⟨rfl, rfl⟩

/-- Accepting stops without a trace or is a commit. -/
theorem acceptExternalBlock_cases (env : Env) (node : Node) (block : Block) :
    node.acceptExternalBlock env block = (.ok false, node) ∨
      (node.acceptExternalBlock env block).2 = (node.commitBlock env block).2 ∧
        ∀ error, (node.acceptExternalBlock env block).1 = .error error →
          (node.commitBlock env block).1 = .error error := by
  unfold acceptExternalBlock
  split
  · exact Or.inl rfl
  · split
    · exact Or.inl rfl
    · right
      cases node.commitBlock env block with
      | mk result after =>
          cases result with
          | error fault =>
              refine ⟨rfl, ?_⟩
              intro error failed
              cases failed
              rfl
          | ok summary =>
              refine ⟨rfl, ?_⟩
              intro error failed
              cases failed

end Commits

/-! ### Anchor blocks -/

section Anchors

theorem persistAnchor_eq (env : Env) (node : Node) (block : Block) :
    ∃ store, (node.persistAnchor env block).2 = { node with store := store } := by
  unfold persistAnchor
  split
  · exact ⟨node.store, rfl⟩
  · split
    · exact ⟨_, rfl⟩
    · split
      · exact ⟨_, rfl⟩
      · exact ⟨_, rfl⟩

theorem write_error {env : Env} {op : StoreOp} {update : Store → Store} {store : Store}
    {error : StoreError} (failed : (Store.write env op update store).1 = .error error) :
    ∃ cause, error = .io cause := by
  unfold Store.write at failed
  split at failed
  · cases failed
    exact ⟨_, rfl⟩
  · cases failed

theorem persistAnchor_error {env : Env} {node : Node} {block : Block} {error : EthError}
    (failed : (node.persistAnchor env block).1 = .error error) :
    ∃ cause, error = .node (StoreError.io cause).text := by
  unfold persistAnchor at failed
  split at failed
  · cases failed
  · split at failed
    · rename_i fault after unwritten
      cases failed
      obtain ⟨cause, rfl⟩ := write_error (congrArg Prod.fst unwritten)
      exact ⟨cause, rfl⟩
    · split at failed
      · rename_i fault after unwritten
        cases failed
        obtain ⟨cause, rfl⟩ := write_error (congrArg Prod.fst unwritten)
        exact ⟨cause, rfl⟩
      · cases failed

variable [SerdeJson] [Blake3] [Keccak256] [Secp256k1] [Evm]

/-- A raw transaction that passes every check and runs through. -/
structure Anchors (node : Node) (raw : List UInt8) (tx : EthTx) (run : EthExecution) : Prop where
  decoded : EthTx.decodeLegacyTx raw = .ok tx
  chain : tx.chainId = none ∨ tx.chainId = some node.chainId
  nonce : tx.nonce = ethNonce node.state tx.sender
  executed : node.ethExecute tx = .ok run

/-- A raw transaction is refused without a trace, or an anchor block is sealed over
the state it left. -/
theorem ethApplyRaw_cases (env : Env) (node : Node) (raw : List UInt8) :
    (node.ethApplyRaw env raw).2 = node ∨
      ∃ tx run, Anchors node raw tx run ∧
        (node.ethApplyRaw env raw).2 = (({ node with
            state := node.ethRecorded tx (ethNonce node.state tx.sender) run } :
          Node).sealAnchorBlock env node.head.timestamp).2 ∧
        ∀ error, (node.ethApplyRaw env raw).1 = .error error →
          ∃ cause, error = .node (StoreError.io cause).text := by
  unfold ethApplyRaw
  split
  · exact Or.inl rfl
  · rename_i tx decoded
    split
    · exact Or.inl rfl
    · rename_i chain
      dsimp only
      split
      · exact Or.inl rfl
      · rename_i nonce
        split
        · exact Or.inl rfl
        · rename_i run executed
          have anchors : Anchors node raw tx run :=
            { decoded := decoded
              chain := by
                cases given : tx.chainId with
                | none => exact Or.inl rfl
                | some id =>
                    rw [given] at chain
                    right
                    by_contra other
                    exact chain ⟨rfl, other⟩
              nonce := Decidable.not_not.mp nonce
              executed := executed }
          refine Or.inr ⟨tx, run, anchors, ?_⟩
          have sealed := @persistAnchor_error env (({ node with
              state := node.ethRecorded tx (ethNonce node.state tx.sender) run } :
            Node).append (({ node with
              state := node.ethRecorded tx (ethNonce node.state tx.sender) run } :
            Node).anchorBlock env node.head.timestamp)) (({ node with
              state := node.ethRecorded tx (ethNonce node.state tx.sender) run } :
            Node).anchorBlock env node.head.timestamp)
          change ∀ error, (sealAnchorBlock env ({ node with
              state := node.ethRecorded tx (ethNonce node.state tx.sender) run } : Node)
            node.head.timestamp).1 = .error error → _ at sealed
          generalize sealAnchorBlock env ({ node with
              state := node.ethRecorded tx (ethNonce node.state tx.sender) run } : Node)
            node.head.timestamp = result at sealed
          obtain ⟨outcome, after⟩ := result
          cases outcome with
          | error fault =>
              refine ⟨rfl, ?_⟩
              intro error failed
              cases failed
              exact sealed fault rfl
          | ok done =>
              refine ⟨rfl, ?_⟩
              intro error failed
              cases failed

omit [Secp256k1] [Evm] [Keccak256] [SerdeJson] in
theorem anchorBlock_late (env : Env) (node : Node) (timestamp : UInt64) :
    timestamp ≤ (node.anchorBlock env timestamp).timestamp := by
  change timestamp ≤ max (max env.now node.head.timestamp) timestamp
  rw [UInt64.max_def]
  split
  · exact UInt64.le_refl _
  · rename_i greater
    exact UInt64.le_of_lt (UInt64.not_le.mp greater)

omit [Secp256k1] [Evm] [Keccak256] [SerdeJson] in
theorem sealAnchorBlock_moved (env : Env) (node : Node) (state : StateTree) :
    Moved node (({ node with state := state } : Node).sealAnchorBlock env
      node.head.timestamp).2 := by
  obtain ⟨store, sealed⟩ := persistAnchor_eq env
    (({ node with state := state } : Node).append
      (({ node with state := state } : Node).anchorBlock env node.head.timestamp))
    (({ node with state := state } : Node).anchorBlock env node.head.timestamp)
  unfold sealAnchorBlock
  dsimp only
  rw [sealed]
  exact .grown (({ node with state := state } : Node).anchorBlock env node.head.timestamp)
    { blocks := rfl
      height := rfl
      parent := rfl
      time := anchorBlock_late env _ _
      root := rfl }

end Anchors

/-! ### Calls -/

inductive CallError where
  | node (error : NodeError)
  | eth (error : EthError)

/-- The disk failed.  `eth.rs` turns the store's error into text. -/
def CallError.IsStore : CallError → Prop
  | .node (.store _) => True
  | .eth (.node text) => ∃ cause, text = (StoreError.io cause).text
  | _ => False

inductive Call where
  | submit (env : Env) (signed : SignedCommand)
  | produce (env later : Env)
  | commit (env : Env) (block : Block)
  | accept (env : Env) (block : Block)
  | ethApply (env : Env) (raw : List UInt8)

/-- The error of a result, if it is one. -/
def failure {ε α : Type} : Except ε α → Option ε
  | .error error => some error
  | .ok _ => none

/-- Everything the failure of a call may not touch. -/
structure Undisturbed (node after : Node) (call : Call) : Prop where
  blocks : after.blocks = node.blocks
  state : after.state = node.state
  mempool : ∀ env block, call = .commit env block ∨ call = .accept env block →
    after.mempool = node.mempool

section Calls

variable [SerdeJson] [Blake3] [Ed25519] [ChaCha20Poly1305] [Keccak256] [Secp256k1] [Evm]

def Call.perform (node : Node) : Call → Option CallError × Node
  | .submit env signed =>
      ((failure (node.submitSigned env signed).1).map .node, (node.submitSigned env signed).2)
  | .produce env later =>
      ((failure (node.produceBlock env later).1).map .node, (node.produceBlock env later).2)
  | .commit env block =>
      ((failure (node.commitBlock env block).1).map .node, (node.commitBlock env block).2)
  | .accept env block =>
      ((failure (node.acceptExternalBlock env block).1).map .node,
        (node.acceptExternalBlock env block).2)
  | .ethApply env raw =>
      ((failure (node.ethApplyRaw env raw).1).map .eth, (node.ethApplyRaw env raw).2)

def called (node : Node) (call : Call) : Node := (call.perform node).2

/-! ### What a call can do -/

theorem Call.moved (call : Call) (node : Node) : Moved node (called node call) := by
  unfold called Call.perform
  cases call with
  | submit env signed =>
      have kept := submitSigned_kept env node signed
      exact .stayed kept.blocks kept.state
  | produce env later => exact produceBlock_moved env later node
  | commit env block => exact commitBlock_moved env node block
  | accept env block =>
      rcases acceptExternalBlock_cases env node block with ignored | ⟨committed, _⟩
      · dsimp only
        rw [ignored]
        exact .stayed rfl rfl
      · dsimp only
        rw [committed]
        exact commitBlock_moved env node block
  | ethApply env raw =>
      rcases ethApplyRaw_cases env node raw with refused | ⟨tx, run, _, sealed, _⟩
      · dsimp only
        rw [refused]
        exact .stayed rfl rfl
      · dsimp only
        rw [sealed]
        exact sealAnchorBlock_moved env node _

omit [SerdeJson] [Blake3] [Ed25519] [ChaCha20Poly1305] [Keccak256] [Secp256k1] [Evm] in
theorem failure_eq_some {ε α : Type} {result : Except ε α} {error : ε}
    (failed : failure result = some error) : result = .error error := by
  cases result with
  | error fault =>
      cases failed
      rfl
  | ok value => cases failed

theorem Call.undisturbed {call : Call} {node : Node} {error : CallError}
    (failed : (call.perform node).1 = some error) (disk : ¬ error.IsStore) :
    Undisturbed node (called node call) call := by
  cases call with
  | submit env signed =>
      have kept := submitSigned_kept env node signed
      exact ⟨kept.blocks, kept.state, by simp⟩
  | produce env later =>
      obtain ⟨fault, found, rfl⟩ := Option.map_eq_some_iff.mp failed
      rcases produceBlock_error (failure_eq_some found) with ⟨text, rfl⟩ | ⟨blocks, state⟩
      · exact absurd trivial disk
      · exact ⟨blocks, state, by simp⟩
  | commit env block =>
      obtain ⟨fault, found, rfl⟩ := Option.map_eq_some_iff.mp failed
      rcases commitBlock_error (failure_eq_some found) with ⟨text, rfl⟩ | ⟨ledgers, delivered⟩
      · exact absurd trivial disk
      · change Undisturbed node (node.commitBlock env block).2 _
        rw [delivered]
        exact ⟨rfl, rfl, fun _ _ _ => rfl⟩
  | accept env block =>
      obtain ⟨fault, found, rfl⟩ := Option.map_eq_some_iff.mp failed
      change Undisturbed node (node.acceptExternalBlock env block).2 _
      rcases acceptExternalBlock_cases env node block with ignored | ⟨committed, errors⟩
      · rw [ignored]
        exact ⟨rfl, rfl, fun _ _ _ => rfl⟩
      · rw [committed]
        rcases commitBlock_error (errors fault (failure_eq_some found)) with
          ⟨text, rfl⟩ | ⟨ledgers, delivered⟩
        · exact absurd trivial disk
        · rw [delivered]
          exact ⟨rfl, rfl, fun _ _ _ => rfl⟩
  | ethApply env raw =>
      obtain ⟨fault, found, rfl⟩ := Option.map_eq_some_iff.mp failed
      change Undisturbed node (node.ethApplyRaw env raw).2 _
      rcases ethApplyRaw_cases env node raw with refused | ⟨tx, run, _, _, errors⟩
      · rw [refused]
        exact ⟨rfl, rfl, fun _ _ _ => rfl⟩
      · obtain ⟨cause, rfl⟩ := errors fault (failure_eq_some found)
        exact absurd ⟨cause, rfl⟩ disk

theorem chain_invariant {start : Node} (origin : start.blocks = [Block.deterministicGenesis])
    (calls : List Call) :
    Linked (Run.run called start calls) ∧
      ∀ call error after, call.perform (Run.run called start calls) = (some error, after) →
        ¬ error.IsStore → Undisturbed (Run.run called start calls) after call := by
  constructor
  · induction calls using List.reverseRecOn with
    | nil => exact Linked.of_genesis origin
    | append_singleton earlier call ih =>
        rw [Run.run_snoc]
        exact ih.moved (call.moved _)
  · intro call error after performed disk
    have left : called (Run.run called start calls) call = after := congrArg Prod.snd performed
    rw [← left]
    exact Call.undisturbed (congrArg Prod.fst performed) disk

end Calls

/-! ### A transaction that is refused -/

section Witness

attribute [local instance] SerdeJson.compact Blake3.polynomial Ed25519.keyed ChaCha20Poly1305.keyed

/-- An interpreter that stops at once; the refused transaction never reaches it. -/
@[reducible] def stopping : Evm where
  executeFrame _ _ host _ _ := (.error .outOfGas, host)

@[reducible] def blankKeccak : Keccak256 where
  digest _ := Vector.replicate 32 0

/-- Nothing is a signature. -/
@[reducible] def noSignature : Secp256k1 where
  validSignature _ := false
  recover _ _ _ := none

attribute [local instance] stopping blankKeccak noSignature

theorem chain_invariant_typed_transaction :
    (Call.ethApply (.healthy 20) [0x02]).perform
        (Run.run called (Node.new ⟨"v1"⟩ Cascade.empty) [.produce (.healthy 5) (.healthy 1)]) =
      (some (.eth (.decode (.unsupportedType 2))), Node.new ⟨"v1"⟩ Cascade.empty) ∧
    Linked (Run.run called (Node.new ⟨"v1"⟩ Cascade.empty) [.produce (.healthy 5) (.healthy 1)]) :=
  ⟨rfl, (chain_invariant rfl _).1⟩

end Witness

end Node

end Veilux
