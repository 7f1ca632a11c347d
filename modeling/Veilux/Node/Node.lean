/-
The node of `node/src/node.rs`: configuration and memory, opening from a store,
and the intake of signed commands into the mempool.

Every operation returns the node in the failing case too: what was written
before an early return stays written.
-/

import Veilux.Kernel.Cascade
import Veilux.Node.Store
import Veilux.Veil.Private

namespace Veilux

inductive NodeError where
  | cascade (error : CascadeError)
  | view (error : ViewError)
  | emptyMempool
  | badSignature (text : String)
  | unknownPrism (name : String)
  | badNonce (party : String) (got expected : UInt64)
  | keyMismatch (name : String)
  | reservedAccount (name : String)
  | wrongChainId (got expected : UInt64)
  | tooLarge (size : Nat)
  | mempoolFull
  | store (text : String)
  | badParent
  | badTimestamp (got parent : UInt64)
  | blockGasExceeded (used limit : UInt64)
  | rootMismatch (name : String)
  | badPrivateCommitment
  | duplicatePrivateCommitment
  deriving DecidableEq

structure Limits where
  maxPayloadBytes : Nat
  maxBlockCommands : Nat
  maxBlockGas : UInt64
  maxMempool : Nat

def Limits.default : Limits :=
  { maxPayloadBytes := 1024 * 1024
    maxBlockCommands := 10000
    maxBlockGas := 30000000
    maxMempool := 100000 }

structure FeePolicy where
  pricePerGas : U128
  burnBps : UInt16
  targetGas : UInt64

namespace FeePolicy

def default : FeePolicy :=
  { pricePerGas := 0
    burnBps := 5000
    targetGas := 0 }

def enabled (policy : FeePolicy) : Bool := decide (0 < policy.pricePerGas)

def dynamic (policy : FeePolicy) : Bool := policy.enabled && decide (0 < policy.targetGas)

end FeePolicy

structure Node where
  cascade : Cascade
  state : StateTree
  privateState : StateTree
  privateCommitments : List Hash
  privateEnvelopes : AList (fun _ : Hash => PrivateEnvelope)
  attestations : AttestationBook
  blocks : List Block
  nonempty : blocks ≠ []
  mempool : List Command
  keyrings : List ViewKeyring
  subLedgers : AList (fun _ : PartyId => SubLedger)
  proposer : PartyId
  accounts : AList (fun _ : PartyId => List UInt8)
  nonces : AList (fun _ : PartyId => UInt64)
  limits : Limits
  feePolicy : FeePolicy
  chainId : UInt64
  store : Option Store

namespace Node

def new (proposer : PartyId) (cascade : Cascade) : Node :=
  { cascade := cascade
    state := StateTree.empty
    privateState := StateTree.empty
    privateCommitments := []
    privateEnvelopes := ∅
    attestations := AttestationBook.empty
    blocks := [Block.deterministicGenesis]
    nonempty := List.cons_ne_nil _ _
    mempool := []
    keyrings := []
    subLedgers := ∅
    proposer := proposer
    accounts := ∅
    nonces := ∅
    limits := Limits.default
    feePolicy := FeePolicy.default
    chainId := 0
    store := none }

def head (node : Node) : Block := node.blocks.getLast node.nonempty

def blocksFrom (node : Node) (fromHeight max : Nat) : List Block :=
  (node.blocks.filter fun block => fromHeight ≤ block.height && 0 < block.height).take max

def hostParty (node : Node) (keyring : ViewKeyring) : Node :=
  { node with
    subLedgers :=
      if (node.subLedgers.lookup keyring.party).isSome then node.subLedgers
      else node.subLedgers.insert keyring.party (SubLedger.new keyring.party)
    keyrings := node.keyrings ++ [keyring] }

def isFresh (node : Node) : Bool := decide (node.blocks.length = 1) && node.state.isEmpty

/-! ### Writing through to the store -/

/-- `if let Some(store) = &self.store { ..map_err(NodeError::Store)? }`. -/
def persist (node : Node) (write : Store → Except StoreError Unit × Store) :
    Except NodeError Unit × Node :=
  match node.store with
  | none => (.ok (), node)
  | some store =>
      match write store with
      | (.error error, store) => (.error (.store error.text), { node with store := some store })
      | (.ok (), store) => (.ok (), { node with store := some store })

theorem persist_eq (node : Node) (write : Store → Except StoreError Unit × Store) :
    ∃ store, (node.persist write).2 = { node with store := store } := by
  unfold persist
  cases node.store with
  | none => exact ⟨node.store, rfl⟩
  | some store =>
      dsimp only
      cases write store with
      | mk result store =>
          cases result with
          | error error => exact ⟨_, rfl⟩
          | ok done => exact ⟨_, rfl⟩

/-- `seed_genesis_state` with a seeder that ran through. -/
def seedGenesisState (env : Env) (node : Node) (seeder : StateTree → StateTree) :
    Except NodeError Bool × Node :=
  if node.isFresh then
    let node := { node with state := seeder node.state }
    match node.persist (Store.saveState env node.state) with
    | (.error error, node) => (.error error, node)
    | (.ok (), node) => (.ok true, node)
  else (.ok false, node)

section Intake

variable [Blake3] [Ed25519] [SerdeJson]

/-- The pending log keeps the signed commands that are still in the mempool. -/
def syncPersistedMempool (env : Env) (node : Node) : Except NodeError Unit × Node :=
  match node.store with
  | none => (.ok (), node)
  | some store =>
      match store.loadPending env with
      | .error error => (.error (.store error.text), node)
      | .ok pending =>
          let alive := node.mempool.map Command.id
          node.persist (Store.rewritePending env
            (pending.filter fun signed => alive.contains signed.command.id))

/-- Names that no signed command may act under. -/
def reserved (party : PartyId) : Bool :=
  party.name.toList.contains '/' || party.name.isEmpty

/-- The binding of a name to its first key; `none` for another key. -/
def bindAccount (node : Node) (party : PartyId) (publicKey : List UInt8) : Option Node :=
  match node.accounts.lookup party with
  | some existing => if existing = publicKey then some node else none
  | none => some { node with accounts := node.accounts.insert party publicKey }

def expectedNonce (node : Node) (party : PartyId) : UInt64 :=
  match node.nonces.lookup party with
  | some last => last + 1
  | none => 0

def logPending (env : Env) (node : Node) (signed : SignedCommand) (durable : Bool) :
    Except NodeError Unit × Node :=
  if durable then node.persist (Store.appendPending env signed) else (.ok (), node)

def ingestSigned (env : Env) (node : Node) (signed : SignedCommand) (durable : Bool) :
    Except NodeError Unit × Node :=
  let command := signed.command
  if node.limits.maxPayloadBytes < command.payload.length then
    (.error (.tooLarge command.payload.length), node)
  else if reserved command.submitter then
    (.error (.reservedAccount command.submitter.name), node)
  else if signed.chainId ≠ node.chainId then
    (.error (.wrongChainId signed.chainId node.chainId), node)
  else
    match verifySigned signed with
    | .error error => (.error (.badSignature error.text), node)
    | .ok () =>
        match node.bindAccount command.submitter signed.publicKey with
        | none => (.error (.keyMismatch command.submitter.name), node)
        | some node =>
            if ¬ node.cascade.has command.prism then
              (.error (.unknownPrism command.prism), node)
            else if command.nonce < node.expectedNonce command.submitter then
              (.error (.badNonce command.submitter.name command.nonce
                (node.expectedNonce command.submitter)), node)
            else if node.limits.maxMempool ≤ node.mempool.length then
              (.error .mempoolFull, node)
            else
              let node := { node with
                nonces := node.nonces.insert command.submitter command.nonce }
              match node.logPending env signed durable with
              | (.error error, node) => (.error error, node)
              | (.ok (), node) => (.ok (), { node with mempool := node.mempool ++ [command] })

def submitSigned (env : Env) (node : Node) (signed : SignedCommand) :
    Except NodeError Unit × Node :=
  node.ingestSigned env signed true

/-- The loop of `restore_mempool`: rejected entries are passed over. -/
def reingest (env : Env) (node : Node) (pending : List SignedCommand) : Node :=
  pending.foldl (fun node signed => (node.ingestSigned env signed false).2) node

def restoreMempool (env : Env) (node : Node) : Except NodeError Unit × Node :=
  match node.store with
  | none => (.ok (), node)
  | some store =>
      match store.loadPending env with
      | .error error => (.error (.store error.text), node)
      | .ok pending =>
          if pending.isEmpty then (.ok (), node)
          else (node.reingest env pending).syncPersistedMempool env

/-- `with_store`: the chain, state and private data on disk, then the mempool. -/
def withStore (env : Env) (proposer : PartyId) (cascade : Cascade) (store : Store) :
    Except NodeError Node :=
  let node := Node.new proposer cascade
  match store.loadBlocks env with
  | .error error => .error (.store error.text)
  | .ok existing =>
      let opened : Except NodeError (Node × Store) :=
        if found : existing ≠ [] then
          match store.loadState env with
          | .error error => .error (.store error.text)
          | .ok state =>
              .ok ({ node with
                blocks := existing
                nonempty := found
                state := state.getD node.state }, store)
        else
          match store.appendBlock env node.head with
          | (.error error, _) => .error (.store error.text)
          | (.ok (), store) => .ok (node, store)
      match opened with
      | .error error => .error error
      | .ok (node, store) =>
          match store.loadPrivateState env with
          | .error error => .error (.store error.text)
          | .ok privateState =>
              match store.loadPrivateCommitments env with
              | .error error => .error (.store error.text)
              | .ok commitments =>
                  match { node with
                      privateState := privateState.getD node.privateState
                      privateCommitments := commitments
                      store := some store }.restoreMempool env with
                  | (.error error, _) => .error error
                  | (.ok (), node) => .ok node

/-! ### What intake can do -/

omit [Ed25519] in
theorem syncPersistedMempool_eq (env : Env) (node : Node) :
    ∃ store, (node.syncPersistedMempool env).2 = { node with store := store } := by
  unfold syncPersistedMempool
  split
  · exact ⟨node.store, rfl⟩
  · split
    · exact ⟨node.store, rfl⟩
    · exact persist_eq node _

/-- The bindings after a signed command was checked against its submitter's. -/
def Binds (before after : AList (fun _ : PartyId => List UInt8)) (party : PartyId)
    (publicKey : List UInt8) : Prop :=
  after.lookup party = some publicKey ∧
    ∀ other key, before.lookup other = some key → after.lookup other = some key

/-- Everything `ingest_signed` has checked when a command may enter the mempool. -/
structure Admissible (node : Node) (signed : SignedCommand)
    (accounts : AList (fun _ : PartyId => List UInt8)) : Prop where
  name : reserved signed.command.submitter = false
  chain : signed.chainId = node.chainId
  signature : verifySigned signed = .ok ()
  account : Binds node.accounts accounts signed.command.submitter signed.publicKey
  nonce : node.expectedNonce signed.command.submitter ≤ signed.command.nonce

/-- Intake refuses, perhaps after binding the key; or consumes the nonce and then
fails to log the command; or admits it. -/
inductive Ingested (node : Node) (signed : SignedCommand) :
    Except NodeError Unit × Node → Prop
  | refused (error : NodeError) (accounts : AList (fun _ : PartyId => List UInt8))
      (kept : ∀ other key, node.accounts.lookup other = some key →
        accounts.lookup other = some key) :
      Ingested node signed (.error error, { node with accounts := accounts })
  | unlogged (error : NodeError) (accounts : AList (fun _ : PartyId => List UInt8))
      (store : Option Store) (admissible : Admissible node signed accounts) :
      Ingested node signed (.error error, { node with
        accounts := accounts
        nonces := node.nonces.insert signed.command.submitter signed.command.nonce
        store := store })
  | admitted (accounts : AList (fun _ : PartyId => List UInt8)) (store : Option Store)
      (admissible : Admissible node signed accounts) :
      Ingested node signed (.ok (), { node with
        accounts := accounts
        nonces := node.nonces.insert signed.command.submitter signed.command.nonce
        store := store
        mempool := node.mempool ++ [signed.command] })

omit [Blake3] [Ed25519] [SerdeJson] in
theorem bindAccount_eq {node bound : Node} {party : PartyId} {publicKey : List UInt8}
    (found : node.bindAccount party publicKey = some bound) :
    ∃ accounts, bound = { node with accounts := accounts } ∧
      Binds node.accounts accounts party publicKey := by
  unfold bindAccount at found
  cases known : node.accounts.lookup party with
  | some existing =>
      rw [known] at found
      dsimp only at found
      split at found
      · rename_i same
        cases found
        refine ⟨node.accounts, rfl, ?_, fun _ _ earlier => earlier⟩
        rw [known, same]
      · cases found
  | none =>
      rw [known] at found
      cases found
      refine ⟨_, rfl, AList.lookup_insert _, fun other key earlier => ?_⟩
      have different : other ≠ party := by
        intro same
        rw [same, known] at earlier
        cases earlier
      rw [AList.lookup_insert_ne different]
      exact earlier

omit [Blake3] [Ed25519] [SerdeJson] in
theorem logPending_eq (env : Env) (node : Node) (signed : SignedCommand) (durable : Bool) :
    ∃ store, (node.logPending env signed durable).2 = { node with store := store } := by
  unfold logPending
  split
  · exact persist_eq node _
  · exact ⟨node.store, rfl⟩

omit [Blake3] [SerdeJson] in
theorem ingestSigned_ingested (env : Env) (node : Node) (signed : SignedCommand)
    (durable : Bool) : Ingested node signed (node.ingestSigned env signed durable) := by
  have unbound : ∀ error, Ingested node signed (.error error, node) :=
    fun error => .refused error node.accounts fun _ _ earlier => earlier
  unfold ingestSigned
  dsimp only
  split
  · exact unbound _
  · split
    · exact unbound _
    · rename_i named
      split
      · exact unbound _
      · rename_i chain
        split
        · exact unbound _
        · rename_i verified
          split
          · exact unbound _
          · rename_i bound found
            obtain ⟨accounts, rfl, binds⟩ := bindAccount_eq found
            dsimp only
            split
            · exact .refused _ accounts binds.2
            · split
              · exact .refused _ accounts binds.2
              · rename_i fresh
                split
                · exact .refused _ accounts binds.2
                · have admissible : Admissible node signed accounts :=
                    { name := Bool.eq_false_of_not_eq_true named
                      chain := Decidable.not_not.mp chain
                      signature := verified
                      account := binds
                      nonce := UInt64.not_lt.mp fresh }
                  obtain ⟨store, logged⟩ := logPending_eq env ({ node with
                    accounts := accounts
                    nonces := node.nonces.insert signed.command.submitter
                      signed.command.nonce } : Node) signed durable
                  generalize logPending env ({ node with
                    accounts := accounts
                    nonces := node.nonces.insert signed.command.submitter
                      signed.command.nonce } : Node) signed durable = result at logged
                  obtain ⟨outcome, after⟩ := result
                  cases logged
                  cases outcome with
                  | error error => exact .unlogged error accounts store admissible
                  | ok done => exact .admitted accounts store admissible

end Intake

end Node

end Veilux
