/-
Blocks in `node/src/node.rs`: fees and the base price, assembling a block from
the mempool, and committing a block by executing it again.
-/

import Veilux.Node.Node
import Veilux.Prism.Token

namespace Veilux

/-- `u64::saturating_add`. -/
def saturatingAdd64 (left right : UInt64) : UInt64 :=
  UInt64.ofNat (min (left.toNat + right.toNat) (2 ^ 64 - 1))

namespace Node

def basePriceKey : String := "fee/base_price"
def maxFutureDriftSecs : UInt64 := 7200

section Fees

variable [SerdeJson]

def basePrice (state : StateTree) (policy : FeePolicy) : U128 :=
  ((state.getJson? String basePriceKey).bind U128.parse).getD policy.pricePerGas

def adjustBasePrice (state : StateTree) (policy : FeePolicy) (blockGas : UInt64) : StateTree :=
  if policy.dynamic then
    let current := basePrice state policy
    let target : U128 := Fin.ofNat (2 ^ 128) policy.targetGas.toNat
    let used : U128 := Fin.ofNat (2 ^ 128) blockGas.toNat
    let delta : U128 := max current 1 / 8
    let next :=
      if target < used then
        let scaled := delta.saturatingMul (used - target) / target
        current.saturatingAdd (max scaled 1)
      else if used < target then
        let scaled := delta.saturatingMul (target - used) / target
        max (current.saturatingSub scaled) (max policy.pricePerGas 1)
      else current
    state.putJson basePriceKey next.toText
  else state

variable [Blake3]

/-- Whatever `collect_fee` wrote stays, and its result is ignored. -/
def chargeFee (policy : FeePolicy) (price : U128) (state : StateTree) (payer proposer : PartyId)
    (gasUsed : UInt64) : StateTree :=
  if ¬ policy.enabled ∨ price = 0 then state
  else
    let fee := price.saturatingMul (Fin.ofNat (2 ^ 128) gasUsed.toNat)
    if fee = 0 then state
    else
      ((TokenPrism.collectFee TokenPrism.nativeTokenId payer proposer fee
        policy.burnBps).run.run state).2

end Fees

/-! ### Execution -/

/-- State, events and gas as the execution loops accumulate them. -/
structure Execution where
  state : StateTree
  events : List Event
  gas : UInt64

section Execution

variable [SerdeJson] [Blake3]

/-- One command whose cascade succeeded: its fee, gas and events. -/
def Execution.charge (acc : Execution) (policy : FeePolicy) (price : U128)
    (proposer : PartyId) (command : Command) (receipt : CascadeReceipt) (state : StateTree) :
    Execution :=
  { state := chargeFee policy price state command.submitter proposer receipt.totalCost
    events := acc.events ++ receipt.events
    gas := saturatingAdd64 acc.gas receipt.totalCost }

/-- The strict loop of `commit_block`. -/
def executeAll (cascade : Cascade) (policy : FeePolicy) (price : U128) (proposer : PartyId) :
    List Command → Execution → Except CascadeError Execution
  | [], acc => .ok acc
  | command :: rest, acc =>
      match cascade.apply command acc.state with
      | (.error error, _) => .error error
      | (.ok receipt, state) =>
          executeAll cascade policy price proposer rest
            (acc.charge policy price proposer command receipt state)

theorem executeAll_single {cascade : Cascade} {policy : FeePolicy} {price : U128}
    {proposer : PartyId} {command : Command} {acc : Execution} {receipt : CascadeReceipt}
    {state : StateTree} (applied : cascade.apply command acc.state = (.ok receipt, state)) :
    executeAll cascade policy price proposer [command] acc =
      .ok (acc.charge policy price proposer command receipt state) := by
  unfold executeAll
  rw [applied]
  rfl

/-- What `assemble_block` collects: the execution so far, the commands included
and those whose probe failed. -/
structure Assembly where
  exec : Execution
  commands : List Command
  rejected : List Command

/-- The probing loop of `assemble_block`; a command over the gas limit ends it. -/
def assembleAll (cascade : Cascade) (maxGas : UInt64) (policy : FeePolicy) (price : U128)
    (proposer : PartyId) : List Command → Assembly → Assembly
  | [], acc => acc
  | command :: rest, acc =>
      match cascade.apply command acc.exec.state with
      | (.error _, _) =>
          assembleAll cascade maxGas policy price proposer rest
            { acc with rejected := acc.rejected ++ [command] }
      | (.ok receipt, probe) =>
          if maxGas < saturatingAdd64 acc.exec.gas receipt.totalCost then acc
          else
            assembleAll cascade maxGas policy price proposer rest
              { acc with
                exec := acc.exec.charge policy price proposer command receipt probe
                commands := acc.commands ++ [command] }

/-- The state a block starts from: the chain's, with the block's time. -/
def openingState (node : Node) (timestamp : UInt64) : StateTree :=
  node.state.putJson "chain/now" timestamp

def opening (node : Node) (timestamp : UInt64) : Execution :=
  { state := node.openingState timestamp
    events := []
    gas := 0 }

def blockTime (env : Env) (node : Node) : UInt64 := max env.now node.head.timestamp

/-- The loop of `assemble_block` over the front of the mempool. -/
def assembly (env : Env) (node : Node) : Assembly :=
  assembleAll node.cascade node.limits.maxBlockGas node.feePolicy
    (basePrice (node.openingState (node.blockTime env)) node.feePolicy) node.proposer
    (node.mempool.take (min node.mempool.length node.limits.maxBlockCommands))
    ⟨node.opening (node.blockTime env), [], []⟩

/-- The state assembly ends with. -/
def trialState (env : Env) (node : Node) : StateTree :=
  adjustBasePrice (node.assembly env).exec.state node.feePolicy (node.assembly env).exec.gas

def assembledBlock (env : Env) (node : Node) : Block :=
  { height := node.head.height + 1
    parent := node.head.hash
    eventsRoot := merkleRoot ((node.assembly env).exec.events.map Event.commitment)
    stateRoot := (node.trialState env).root
    timestamp := node.blockTime env
    proposer := node.proposer
    events := (node.assembly env).exec.events
    commands := (node.assembly env).commands }

def withoutCommands (node : Node) (commands : List Command) : Node :=
  let drop := commands.map Command.id
  { node with mempool := node.mempool.filter fun command => !drop.contains command.id }

def assembleBlock (env : Env) (node : Node) : Except NodeError Block × Node :=
  let rejected := (node.assembly env).rejected
  let block := node.assembledBlock env
  if rejected.isEmpty then (.ok block, node)
  else
    match (node.withoutCommands rejected).syncPersistedMempool env with
    | (.error error, node) => (.error error, node)
    | (.ok (), node) => (.ok block, node)

/-! ### Commit -/

structure BlockSummary where
  height : Nat
  hash : Hash
  events : Nat
  eventsRoot : Hash
  stateRoot : Hash
  totalCost : UInt64
  viewsDelivered : Nat
  deriving DecidableEq

/-- Everything `commit_block` checks before it writes, with the events and the
state of the second execution. -/
def verifyBlock (env : Env) (node : Node) (block : Block) :
    Except NodeError (List Event × StateTree) :=
  if block.parent ≠ node.head.hash ∨ block.height ≠ node.head.height + 1 then .error .badParent
  else if block.timestamp < node.head.timestamp ∨
      saturatingAdd64 env.now maxFutureDriftSecs < block.timestamp then
    .error (.badTimestamp block.timestamp node.head.timestamp)
  else
    match executeAll node.cascade node.feePolicy
        (basePrice (node.openingState block.timestamp) node.feePolicy) block.proposer
        block.commands (node.opening block.timestamp) with
    | .error error => .error (.cascade error)
    | .ok exec =>
        if node.limits.maxBlockGas < exec.gas then
          .error (.blockGasExceeded exec.gas node.limits.maxBlockGas)
        else
          let state := adjustBasePrice exec.state node.feePolicy exec.gas
          if merkleRoot (exec.events.map Event.commitment) ≠ block.eventsRoot then
            .error (.rootMismatch "events_root")
          else if state.root ≠ block.stateRoot then .error (.rootMismatch "state_root")
          else .ok (exec.events, state)

variable [ChaCha20Poly1305]

/-- Sub-ledgers are filled keyring by keyring; those before a failure stay filled. -/
def deliver (height : Nat) (projection : Projection) : List ViewKeyring → Nat →
    AList (fun _ : PartyId => SubLedger) →
    Except ViewError Nat × AList (fun _ : PartyId => SubLedger)
  | [], delivered, ledgers => (.ok delivered, ledgers)
  | keyring :: rest, delivered, ledgers =>
      match projection.viewsByParty.lookup keyring.party, ledgers.lookup keyring.party with
      | some views, some ledger =>
          match ledger.applyViews height projection.eventsRoot views keyring with
          | (.error error, ledger) => (.error error, ledgers.insert keyring.party ledger)
          | (.ok applied, ledger) =>
              deliver height projection rest (delivered + applied)
                (ledgers.insert keyring.party ledger)
      | _, _ => deliver height projection rest delivered ledgers

def append (node : Node) (block : Block) : Node :=
  { node with
    blocks := node.blocks ++ [block]
    nonempty := List.append_ne_nil_of_right_ne_nil _ (List.cons_ne_nil _ _) }

/-- The writes behind a pushed block: the log, the snapshot, the pending log. -/
def persistBlock (env : Env) (node : Node) (block : Block) : Except NodeError Unit × Node :=
  match node.persist (Store.appendBlock env block) with
  | (.error error, node) => (.error error, node)
  | (.ok (), node) =>
      match node.persist (Store.saveState env node.state) with
      | (.error error, node) => (.error error, node)
      | (.ok (), node) => node.syncPersistedMempool env

def summary (block : Block) (delivered : Nat) : BlockSummary :=
  { height := block.height
    hash := block.hash
    events := block.events.length
    eventsRoot := block.eventsRoot
    stateRoot := block.stateRoot
    totalCost := 0
    viewsDelivered := delivered }

def commitBlock (env : Env) (node : Node) (block : Block) :
    Except NodeError BlockSummary × Node :=
  match node.verifyBlock env block with
  | .error error => (.error error, node)
  | .ok (events, state) =>
      let block := { block with events := events }
      match deliver block.height (projectBlock block node.keyrings) node.keyrings 0
          node.subLedgers with
      | (.error error, ledgers) => (.error (.view error), { node with subLedgers := ledgers })
      | (.ok delivered, ledgers) =>
          let node := ({ node with
            subLedgers := ledgers
            state := state }.withoutCommands block.commands).append block
          match node.persistBlock env block with
          | (.error error, node) => (.error error, node)
          | (.ok (), node) => (.ok (summary block delivered), node)

/-- The clock and the disk are consulted anew for the commit. -/
def produceBlock (env later : Env) (node : Node) : Except NodeError BlockSummary × Node :=
  if node.mempool.isEmpty then (.error .emptyMempool, node)
  else
    match node.assembleBlock env with
    | (.error error, node) => (.error error, node)
    | (.ok block, node) => node.commitBlock later block

def acceptExternalBlock (env : Env) (node : Node) (block : Block) :
    Except NodeError Bool × Node :=
  if block.parent ≠ node.head.hash ∨ block.height ≠ node.head.height + 1 then (.ok false, node)
  else if node.blocks.any fun known => known.hash = block.hash then (.ok false, node)
  else
    match node.commitBlock env block with
    | (.error error, node) => (.error error, node)
    | (.ok _, node) => (.ok true, node)

/-! ### What a commit can do -/

/-- A commit refuses the block and keeps the chain, or appends it with the events
of its own execution; a store failure is reported after the append. -/
inductive Committed (env : Env) (node : Node) (block : Block) :
    Except NodeError BlockSummary × Node → Prop
  | refused (error : NodeError) (ledgers : AList (fun _ : PartyId => SubLedger)) :
      Committed env node block (.error error, { node with subLedgers := ledgers })
  | appended (result : Except NodeError BlockSummary) (events : List Event) (state : StateTree)
      (ledgers : AList (fun _ : PartyId => SubLedger)) (store : Option Store)
      (verified : node.verifyBlock env block = .ok (events, state)) :
      Committed env node block (result,
        (({ node with
            subLedgers := ledgers
            state := state
            store := store } : Node).withoutCommands block.commands).append
          { block with events := events })

omit [ChaCha20Poly1305] in
theorem persistBlock_eq (env : Env) (node : Node) (block : Block) :
    ∃ store, (node.persistBlock env block).2 = { node with store := store } := by
  unfold persistBlock
  obtain ⟨first, logged⟩ := persist_eq node (Store.appendBlock env block)
  generalize node.persist (Store.appendBlock env block) = appended at logged
  obtain ⟨result, after⟩ := appended
  cases logged
  cases result with
  | error error => exact ⟨first, rfl⟩
  | ok done =>
      dsimp only
      obtain ⟨second, saved⟩ :=
        persist_eq ({ node with store := first } : Node) (Store.saveState env node.state)
      generalize persist ({ node with store := first } : Node)
        (Store.saveState env node.state) = stored at saved
      obtain ⟨result, after⟩ := stored
      cases saved
      cases result with
      | error error => exact ⟨second, rfl⟩
      | ok done =>
          obtain ⟨third, synced⟩ :=
            syncPersistedMempool_eq env ({ node with store := second } : Node)
          exact ⟨third, synced⟩

theorem commitBlock_committed (env : Env) (node : Node) (block : Block) :
    Committed env node block (node.commitBlock env block) := by
  unfold commitBlock
  cases verified : node.verifyBlock env block with
  | error error => exact .refused error node.subLedgers
  | ok executed =>
      obtain ⟨events, state⟩ := executed
      dsimp only
      cases deliver block.height (projectBlock { block with events := events } node.keyrings)
          node.keyrings 0 node.subLedgers with
      | mk result ledgers =>
          cases result with
          | error error => exact .refused (.view error) ledgers
          | ok delivered =>
              dsimp only
              obtain ⟨store, persisted⟩ := persistBlock_eq env
                ((({ node with
                    subLedgers := ledgers
                    state := state } : Node).withoutCommands block.commands).append
                  { block with events := events }) { block with events := events }
              generalize persistBlock env
                ((({ node with
                    subLedgers := ledgers
                    state := state } : Node).withoutCommands block.commands).append
                  { block with events := events }) { block with events := events } = stored
                at persisted
              obtain ⟨result, after⟩ := stored
              cases persisted
              cases result with
              | error error => exact .appended _ events state ledgers store verified
              | ok done => exact .appended _ events state ledgers store verified

end Execution

end Node

end Veilux
