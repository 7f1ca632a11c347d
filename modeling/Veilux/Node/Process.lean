/-
The life of a validator process: `run_validator` opens the data directory, applies
the chain specification and serves requests until the process stops.  What one
request does to the node and to its directory is said once, in `Turn`.
-/

import Veilux.Node.Directory
import Veilux.Node.Rpc

namespace Veilux

/-! ### Start-up -/

structure GenesisAlloc where
  party : String
  amount : UInt64

/-- The genesis file of `node/src/genesis.rs`, without the network's label. -/
structure ChainSpec where
  tokenName : String
  tokenSymbol : String
  tokenDecimals : UInt8
  treasury : String
  allocations : List GenesisAlloc
  feePricePerGas : U128
  feeBurnBps : UInt16
  feeTargetGas : UInt64
  chainId : UInt64

namespace ChainSpec

def default : ChainSpec :=
  { tokenName := "Veilux"
    tokenSymbol := "LUX"
    tokenDecimals := 18
    treasury := "treasury"
    allocations := [⟨"treasury", 1000000000⟩]
    feePricePerGas := 0
    feeBurnBps := 5000
    feeTargetGas := 0
    chainId := 1 }

def feePolicy (spec : ChainSpec) : FeePolicy :=
  { pricePerGas := spec.feePricePerGas
    burnBps := spec.feeBurnBps
    targetGas := spec.feeTargetGas }

def seed [SerdeJson] [Blake3] (spec : ChainSpec) (state : StateTree) :
    Except NodeError StateTree :=
  let scale := 10 ^ spec.tokenDecimals.toNat
  let allocations : List (PartyId × U128) := spec.allocations.map fun alloc =>
    (⟨alloc.party⟩, Fin.ofNat (2 ^ 128) (alloc.amount.toNat * scale))
  match (TokenPrism.seedNativeToken spec.tokenName spec.tokenSymbol spec.tokenDecimals
      ⟨spec.treasury⟩ allocations).run.run state with
  | (.error error, _) => .error (.store error.text)
  | (.ok _, state) => .ok state

end ChainSpec

/-- What `run_validator` reads of its configuration to build the node. -/
structure ValidatorConfig where
  name : String
  cascade : Cascade
  genesis : Option ChainSpec
  hostParties : List ViewKeyring

/-- The chain id the node ends up with. -/
def ValidatorConfig.chainId (config : ValidatorConfig) : UInt64 :=
  match config.genesis with
  | none => 0
  | some spec => spec.chainId

inductive Process where
  | down (store : Store)
  | up (node : Node)

namespace Node

def hostParties (node : Node) (keyrings : List ViewKeyring) : Node :=
  keyrings.foldl hostParty node

section Starting

variable [SerdeJson] [Blake3]

/-- `seed_genesis_state` with the specification as its seeder; a seeder that fails
ends the start. -/
def seeded (env : Env) (node : Node) (spec : ChainSpec) : Except NodeError Unit × Node :=
  match spec.seed node.state with
  | .error error => if node.isFresh then (.error error, node) else (.ok (), node)
  | .ok state =>
      match node.seedGenesisState env fun _ => state with
      | (.error error, node) => (.error error, node)
      | (.ok _, node) => (.ok (), node)

/-- The part of `run_validator` between opening the store and joining the network. -/
def configured (env : Env) (node : Node) (config : ValidatorConfig) :
    Except NodeError Unit × Node :=
  match config.genesis with
  | none => (.ok (), node.hostParties config.hostParties)
  | some spec =>
      match node.seeded env spec with
      | (.error error, node) => (.error error, node)
      | (.ok (), node) =>
          (.ok (), { node with
            feePolicy := spec.feePolicy
            chainId := spec.chainId }.hostParties config.hostParties)

variable [Ed25519]

/-- A start that fails leaves the process down. -/
def runValidator (env : Env) (config : ValidatorConfig) (store : Store) : Process :=
  match Node.withStore env ⟨config.name⟩ config.cascade store with
  | .error _ => .down store
  | .ok node =>
      match node.configured env config with
      | (.error _, node) => .down (node.store.getD store)
      | (.ok (), node) => .up node

end Starting

end Node

/-- A validator is started, serves requests and is stopped between two of them. -/
inductive Happening where
  | start (env : Env)
  | stop
  | request (request : Node.Request)

namespace Process

variable [SerdeJson] [Blake3] [Ed25519] [ChaCha20Poly1305] [X25519]
  [Keccak256] [Secp256k1] [Evm]

def happen (config : ValidatorConfig) : Process → Happening → Process
  | .down store, .start env => Node.runValidator env config store
  | .down store, _ => .down store
  | .up node, .start _ => .up node
  | .up node, .stop => .down (node.store.getD Store.empty)
  | .up node, .request request => .up (Node.served node request)

end Process

namespace Node

def Request.envs : Request → List Env
  | .call (.submit env _) => [env]
  | .call (.produce env later) => [env, later]
  | .call (.commit env _) => [env]
  | .call (.accept env _) => [env]
  | .call (.ethApply env _) => [env]
  | .submit env assembling later _ => [env, assembling, later]
  | .submitPrivate env _ => [env]
  | .contractVerify _ => []

/-- The disk works throughout. -/
def Request.Healthy (request : Request) : Prop :=
  ∀ env ∈ request.envs, ∀ op, env.io op = none

/-! ### Turns -/

/-- The store and the chain of a node are those of a directory. -/
structure Filed (node : Node) (directory : Directory) : Prop where
  store : node.store = some directory.store
  chain : directory.chain = node.blocks

/-- What no request changes. -/
structure SameTerms (node after : Node) : Prop where
  cascade : after.cascade = node.cascade
  limits : after.limits = node.limits
  chainId : after.chainId = node.chainId

/-- The registries after anything but an accepted submission. -/
structure SameIntake (node after : Node) : Prop where
  rules : SameTerms node after
  nonces : after.nonces = node.nonces
  accounts : ∀ party key, node.accounts.lookup party = some key →
    after.accounts.lookup party = some key

/-- What the parts of a request do, one at a time.  `admits` and `seals` say which
submissions and which lists of commands are meant. -/
inductive Turn [Blake3] [Ed25519] (admits : SignedCommand → Prop) (seals : List Command → Prop)
    (node : Node) (directory : Directory) (after : Node) (kept : Directory) : Prop
  | quiet (intake : SameIntake node after) (blocks : after.blocks = node.blocks)
      (mempool : after.mempool = node.mempool) (chain : kept.chain = directory.chain)
      (saved : kept.saved = directory.saved) (pending : kept.pending = directory.pending)
  | admitted (signed : SignedCommand) (meant : admits signed) (accepted : Accepted node signed)
      (rules : SameTerms node after) (nonces : after.nonces = node.consumedNonces signed)
      (accounts : after.accounts = node.boundAccounts signed)
      (blocks : after.blocks = node.blocks)
      (mempool : after.mempool = node.mempool ++ [signed.command])
      (chain : kept.chain = directory.chain) (saved : kept.saved = directory.saved)
      (pending : kept.pending = directory.pending ++ [signed])
  | dropped (commands : List Command) (intake : SameIntake node after)
      (blocks : after.blocks = node.blocks)
      (mempool : after.mempool = (node.withoutCommands commands).mempool)
      (chain : kept.chain = directory.chain) (saved : kept.saved = directory.saved)
      (pending : kept.pending = (directory.pruned after.mempool).pending)
  | committed (block : Block) (state : StateTree) (meant : seals block.commands)
      (intake : SameIntake node after) (blocks : after.blocks = node.blocks ++ [block])
      (root : block.stateRoot = state.root)
      (mempool : after.mempool = (node.withoutCommands block.commands).mempool)
      (chain : kept.chain = directory.chain ++ [block]) (saved : kept.saved = some state)
      (pending : kept.pending = (directory.pruned after.mempool).pending)
  | anchored (block : Block) (state : StateTree) (plain : block.commands = [])
      (intake : SameIntake node after) (blocks : after.blocks = node.blocks ++ [block])
      (root : block.stateRoot = state.root) (mempool : after.mempool = node.mempool)
      (chain : kept.chain = directory.chain ++ [block]) (saved : kept.saved = some state)
      (pending : kept.pending = directory.pending)

section Turns

variable [SerdeJson] [Blake3] [Ed25519] {node : Node} {directory : Directory} {env : Env}

omit [SerdeJson] [Blake3] [Ed25519] in
theorem SameTerms.refl (node : Node) : SameTerms node node := ⟨rfl, rfl, rfl⟩

omit [SerdeJson] [Blake3] [Ed25519] in
theorem SameIntake.refl (node : Node) : SameIntake node node :=
  ⟨.refl node, rfl, fun _ _ found => found⟩

omit [SerdeJson] [Blake3] [Ed25519] in
theorem Filed.snoc (filed : Filed node directory) (block : Block) :
    directory.chain ++ [block] = node.blocks ++ [block] := by
  rw [filed.chain]

omit [SerdeJson] [Blake3] [Ed25519] in
theorem boundAccounts_extends (node : Node) (signed : SignedCommand) (party : PartyId)
    (key : List UInt8) (found : node.accounts.lookup party = some key) :
    (node.boundAccounts signed).lookup party = some key := by
  unfold boundAccounts
  cases known : node.accounts.lookup signed.command.submitter with
  | some existing => exact found
  | none =>
      have different : party ≠ signed.command.submitter := by
        intro same
        rw [same, known] at found
        cases found
      dsimp only
      rw [AList.lookup_insert_ne different]
      exact found

omit [SerdeJson] in
/-- A submission that is refused may bind its key; an accepted one is logged. -/
theorem submitSigned_turn (healthy : ∀ op, env.io op = none) (filed : Filed node directory)
    (signed : SignedCommand) :
    ∃ kept, Filed (node.submitSigned env signed).2 kept ∧
      Turn (fun other => other = signed ∧ Accepted node signed) (fun _ => False) node directory
        (node.submitSigned env signed).2 kept := by
  by_cases accepted : Accepted node signed
  · rw [submitSigned_admits healthy filed.store accepted]
    refine ⟨_, ⟨rfl, filed.chain⟩, ?_⟩
    exact .admitted signed ⟨rfl, accepted⟩ accepted ⟨rfl, rfl, rfl⟩ rfl rfl rfl rfl rfl rfl rfl
  · have taken := ingestSigned_taken env node signed true
    unfold submitSigned
    generalize node.ingestSigned env signed true = result at taken
    refine ⟨directory, ?_⟩
    cases taken with
    | unauthenticated error failed => exact ⟨filed, .quiet (.refl node) rfl rfl rfl rfl rfl⟩
    | foreign error failed => exact ⟨filed, .quiet (.refl node) rfl rfl rfl rfl rfl⟩
    | unacceptable error authenticated owns failed =>
        refine ⟨⟨filed.store, filed.chain⟩, .quiet ?_ rfl rfl rfl rfl rfl⟩
        exact ⟨⟨rfl, rfl, rfl⟩, rfl, boundAccounts_extends node signed⟩
    | accepted passed => exact absurd passed accepted

theorem assembleBlock_turn (healthy : ∀ op, env.io op = none) (filed : Filed node directory)
    (admits : SignedCommand → Prop) (seals : List Command → Prop) :
    ∃ kept, Filed (node.assembleBlock env).2 kept ∧
      Turn admits seals node directory (node.assembleBlock env).2 kept := by
  rw [assembleBlock_directory healthy filed.store]
  dsimp only
  split
  · exact ⟨directory, filed, .quiet (.refl node) rfl rfl rfl rfl rfl⟩
  · refine ⟨_, ⟨rfl, filed.chain⟩, .dropped (node.assembly env).rejected ?_ rfl rfl rfl rfl rfl⟩
    exact ⟨⟨rfl, rfl, rfl⟩, rfl, fun _ _ found => found⟩

variable [ChaCha20Poly1305]

theorem commitBlock_turn (healthy : ∀ op, env.io op = none) (filed : Filed node directory)
    (block : Block) (admits : SignedCommand → Prop) :
    ∃ kept, Filed (node.commitBlock env block).2 kept ∧
      Turn admits (fun commands => commands = block.commands) node directory
        (node.commitBlock env block).2 kept := by
  rcases commitBlock_directory healthy filed.store block with
    ⟨error, ledgers, refused⟩ | ⟨summary, events, state, ledgers, verified, appended⟩
  · rw [refused]
    refine ⟨directory, ⟨filed.store, filed.chain⟩, .quiet ?_ rfl rfl rfl rfl rfl⟩
    exact ⟨⟨rfl, rfl, rfl⟩, rfl, fun _ _ found => found⟩
  · obtain ⟨exec, checks, _, rfl⟩ := verifyBlock_verified verified
    rw [appended]
    refine ⟨_, ⟨rfl, filed.snoc { block with events := events }⟩, ?_⟩
    refine .committed { block with events := events } _ rfl ?_ rfl checks.stateRoot rfl rfl rfl rfl
    exact ⟨⟨rfl, rfl, rfl⟩, rfl, fun _ _ found => found⟩

theorem acceptExternalBlock_turn (healthy : ∀ op, env.io op = none)
    (filed : Filed node directory) (block : Block) (admits : SignedCommand → Prop) :
    ∃ kept, Filed (node.acceptExternalBlock env block).2 kept ∧
      Turn admits (fun commands => commands = block.commands) node directory
        (node.acceptExternalBlock env block).2 kept := by
  rcases acceptExternalBlock_cases env node block with ignored | ⟨committed, _⟩
  · rw [ignored]
    exact ⟨directory, filed, .quiet (.refl node) rfl rfl rfl rfl rfl⟩
  · rw [committed]
    exact commitBlock_turn healthy filed block admits

omit [ChaCha20Poly1305] in
theorem ethApplyRaw_turn [Keccak256] [Secp256k1] [Evm] (healthy : ∀ op, env.io op = none)
    (filed : Filed node directory) (raw : List UInt8) (admits : SignedCommand → Prop)
    (seals : List Command → Prop) :
    ∃ kept, Filed (node.ethApplyRaw env raw).2 kept ∧
      Turn admits seals node directory (node.ethApplyRaw env raw).2 kept := by
  rcases ethApplyRaw_directory healthy filed.store raw with refused | ⟨tx, run, _, sealed⟩
  · rw [refused]
    exact ⟨directory, filed, .quiet (.refl node) rfl rfl rfl rfl rfl⟩
  · rw [sealed]
    dsimp only
    refine ⟨_, ⟨rfl, filed.snoc _⟩, ?_⟩
    refine .anchored _ _ rfl ?_ rfl rfl rfl rfl rfl rfl
    exact ⟨⟨rfl, rfl, rfl⟩, rfl, fun _ _ found => found⟩

theorem applyPrivateEnvelope_turn [X25519] (healthy : ∀ op, env.io op = none)
    (filed : Filed node directory) (envelope : PrivateEnvelope) (admits : SignedCommand → Prop)
    (seals : List Command → Prop) :
    ∃ kept, Filed (node.applyPrivateEnvelope env envelope).2 kept ∧
      Turn admits seals node directory (node.applyPrivateEnvelope env envelope).2 kept := by
  obtain ⟨privateState, commitments, envelopes, attestations, files, listed, applied⟩ :=
    applyPrivateEnvelope_directory healthy filed.store envelope
  rw [applied]
  refine ⟨_, ⟨rfl, filed.chain⟩, .quiet ?_ rfl rfl rfl rfl rfl⟩
  exact ⟨⟨rfl, rfl, rfl⟩, rfl, fun _ _ found => found⟩

omit [ChaCha20Poly1305] in
/-- The record of a verification stays in memory until the next snapshot. -/
theorem contractVerify_turn (filed : Filed node directory) (request : Rpc.VerifyRequest)
    (admits : SignedCommand → Prop) (seals : List Command → Prop) :
    ∃ kept, Filed (node.contractVerify request).2 kept ∧
      Turn admits seals node directory (node.contractVerify request).2 kept := by
  have still : SameIntake node node := .refl node
  refine ⟨directory, ?_⟩
  unfold contractVerify
  dsimp only
  split
  · exact ⟨filed, .quiet still rfl rfl rfl rfl rfl⟩
  · split
    · exact ⟨filed, .quiet still rfl rfl rfl rfl rfl⟩
    · refine ⟨⟨filed.store, filed.chain⟩, .quiet ?_ rfl rfl rfl rfl rfl⟩
      exact ⟨⟨rfl, rfl, rfl⟩, rfl, fun _ _ found => found⟩

end Turns

/-! ### Requests -/

section Requests

variable [SerdeJson] [Blake3] [Ed25519]

omit [SerdeJson] in
theorem Turn.mono {admits meant : SignedCommand → Prop} {seals wanted : List Command → Prop}
    {node after : Node} {directory kept : Directory}
    (turn : Turn admits seals node directory after kept)
    (admitted : ∀ signed, admits signed → meant signed)
    (sealed : ∀ commands, seals commands → wanted commands) :
    Turn meant wanted node directory after kept := by
  cases turn with
  | quiet intake blocks mempool chain saved pending =>
      exact .quiet intake blocks mempool chain saved pending
  | admitted signed inside accepted rules nonces accounts blocks mempool chain saved pending =>
      exact .admitted signed (admitted signed inside) accepted rules nonces accounts blocks mempool
        chain saved pending
  | dropped commands intake blocks mempool chain saved pending =>
      exact .dropped commands intake blocks mempool chain saved pending
  | committed block state inside intake blocks root mempool chain saved pending =>
      exact .committed block state (sealed _ inside) intake blocks root mempool chain saved pending
  | anchored block state plain intake blocks root mempool chain saved pending =>
      exact .anchored block state plain intake blocks root mempool chain saved pending

/-- What is asked of a request: of a command it gets accepted, and of the commands
of a block it brings along. -/
def Request.Meets (admits : Node → SignedCommand → Prop) (seals : Node → List Command → Prop)
    (node : Node) : Request → Prop
  | .call (.submit _ signed) => Accepted node signed → admits node signed
  | .submit _ _ _ signed => Accepted node signed → admits node signed
  | .call (.commit _ block) => seals node block.commands
  | .call (.accept _ block) => seals node block.commands
  | _ => True

variable [ChaCha20Poly1305] [X25519] [Keccak256] [Secp256k1] [Evm]
  {admits : Node → SignedCommand → Prop} {seals : Node → List Command → Prop}
  {holds : Node → Directory → Prop}
  (turned : ∀ {node directory after kept}, Filed node directory → holds node directory →
    Turn (admits node) (seals node) node directory after kept → holds after kept)
  (produced : ∀ {env node directory}, Filed node directory → holds node directory →
    (∀ op, env.io op = none) →
      seals (node.assembleBlock env).2 (node.assembly env).commands)
include turned

omit [SerdeJson] [ChaCha20Poly1305] [X25519] [Keccak256] [Secp256k1] [Evm] in
theorem submitSigned_preserves {env : Env} {node : Node} {directory : Directory}
    {signed : SignedCommand} (healthy : ∀ op, env.io op = none) (filed : Filed node directory)
    (holding : holds node directory) (meets : Accepted node signed → admits node signed) :
    ∃ kept, Filed (node.submitSigned env signed).2 kept ∧
      holds (node.submitSigned env signed).2 kept := by
  obtain ⟨kept, filedAfter, turn⟩ := submitSigned_turn healthy filed signed
  refine ⟨kept, filedAfter, turned filed holding (turn.mono ?_ ?_)⟩
  · rintro other ⟨rfl, accepted⟩
    exact meets accepted
  · exact fun _ impossible => impossible.elim

omit [X25519] [Keccak256] [Secp256k1] [Evm] in
theorem commitBlock_preserves {env : Env} {node : Node} {directory : Directory} {block : Block}
    (healthy : ∀ op, env.io op = none) (filed : Filed node directory)
    (holding : holds node directory) (meets : seals node block.commands) :
    ∃ kept, Filed (node.commitBlock env block).2 kept ∧
      holds (node.commitBlock env block).2 kept := by
  obtain ⟨kept, filedAfter, turn⟩ := commitBlock_turn healthy filed block (admits node)
  refine ⟨kept, filedAfter, turned filed holding (turn.mono (fun _ inside => inside) ?_)⟩
  intro commands same
  rw [same]
  exact meets

omit [X25519] [Keccak256] [Secp256k1] [Evm] in
include produced in
/-- Assembly and commit are two turns. -/
theorem produceBlock_preserves {env later : Env} {node : Node} {directory : Directory}
    (healthy : ∀ op, env.io op = none) (still : ∀ op, later.io op = none)
    (filed : Filed node directory) (holding : holds node directory) :
    ∃ kept, Filed (node.produceBlock env later).2 kept ∧
      holds (node.produceBlock env later).2 kept := by
  unfold produceBlock
  split
  · exact ⟨directory, filed, holding⟩
  · obtain ⟨kept, filedAfter, turn⟩ :=
      assembleBlock_turn healthy filed (admits node) (seals node)
    have assembled : (node.assembleBlock env).1 = .ok (node.assembledBlock env) := by
      rw [assembleBlock_directory healthy filed.store]
    have meets := produced filed holding healthy
    have holdingAfter := turned filed holding turn
    generalize node.assembleBlock env = result at assembled filedAfter meets holdingAfter
    obtain ⟨outcome, after⟩ := result
    cases assembled
    exact commitBlock_preserves turned still filedAfter holdingAfter meets

include produced in
/-- The rule for what holds of a node and its directory along requests. -/
theorem served_preserves {node : Node} {directory : Directory} {request : Request}
    (healthy : request.Healthy) (filed : Filed node directory) (holding : holds node directory)
    (meets : request.Meets admits seals node) :
    ∃ kept, Filed (served node request) kept ∧ holds (served node request) kept := by
  cases request with
  | call call =>
      cases call with
      | submit env signed =>
          have works := healthy env List.mem_cons_self
          exact submitSigned_preserves turned works filed holding meets
      | produce env later =>
          have works := healthy env List.mem_cons_self
          have still := healthy later (List.mem_cons_of_mem _ List.mem_cons_self)
          exact produceBlock_preserves turned produced works still filed holding
      | commit env block =>
          have works := healthy env List.mem_cons_self
          exact commitBlock_preserves turned works filed holding meets
      | accept env block =>
          have works := healthy env List.mem_cons_self
          obtain ⟨kept, filedAfter, turn⟩ :=
            acceptExternalBlock_turn works filed block (admits node)
          refine ⟨kept, filedAfter, turned filed holding (turn.mono (fun _ inside => inside) ?_)⟩
          intro commands same
          rw [same]
          exact meets
      | ethApply env raw =>
          have works := healthy env List.mem_cons_self
          obtain ⟨kept, filedAfter, turn⟩ :=
            ethApplyRaw_turn works filed raw (admits node) (seals node)
          exact ⟨kept, filedAfter, turned filed holding turn⟩
  | submit env assembling later signed =>
      have works := healthy env List.mem_cons_self
      have midway := healthy assembling (List.mem_cons_of_mem _ List.mem_cons_self)
      have still := healthy later
        (List.mem_cons_of_mem _ (List.mem_cons_of_mem _ List.mem_cons_self))
      obtain ⟨kept, filedAfter, holdingAfter⟩ :=
        submitSigned_preserves turned works filed holding meets
      change ∃ kept, Filed (node.rpcSubmit env assembling later signed).2 kept ∧
        holds (node.rpcSubmit env assembling later signed).2 kept
      unfold rpcSubmit
      generalize node.submitSigned env signed = result at filedAfter holdingAfter
      obtain ⟨outcome, after⟩ := result
      cases outcome with
      | error error => exact ⟨kept, filedAfter, holdingAfter⟩
      | ok done => exact produceBlock_preserves turned produced midway still filedAfter holdingAfter
  | submitPrivate env envelope =>
      have works := healthy env List.mem_cons_self
      obtain ⟨kept, filedAfter, turn⟩ :=
        applyPrivateEnvelope_turn works filed envelope (admits node) (seals node)
      exact ⟨kept, filedAfter, turned filed holding turn⟩
  | contractVerify request =>
      obtain ⟨kept, filedAfter, turn⟩ :=
        contractVerify_turn filed request (admits node) (seals node)
      exact ⟨kept, filedAfter, turned filed holding turn⟩

end Requests

/-! ### Starting again -/

/-- Start-up after the store is open: chain, registries and queue stay, and the
snapshot is written only on a chain without blocks. -/
structure Prepared (node : Node) (directory : Directory) (after : Node) (kept : Directory) :
    Prop where
  filed : Filed after kept
  blocks : after.blocks = node.blocks
  mempool : after.mempool = node.mempool
  nonces : after.nonces = node.nonces
  accounts : after.accounts = node.accounts
  cascade : after.cascade = node.cascade
  limits : after.limits = node.limits
  chain : kept.chain = directory.chain
  pending : kept.pending = directory.pending
  saved : kept.saved = directory.saved ∨ node.blocks.length = 1

/-- The seeder of the specification, if there is one, works on the empty state. -/
def Seeds [SerdeJson] [Blake3] (config : ValidatorConfig) : Prop :=
  ∀ spec, config.genesis = some spec → ∃ state, spec.seed StateTree.empty = .ok state

section Starting

variable {env : Env} {node : Node} {directory : Directory}

theorem hostParties_eq (node : Node) (keyrings : List ViewKeyring) :
    ∃ ledgers hosted, node.hostParties keyrings = { node with
      subLedgers := ledgers
      keyrings := hosted } := by
  unfold hostParties
  induction keyrings generalizing node with
  | nil => exact ⟨node.subLedgers, node.keyrings, rfl⟩
  | cons keyring rest ih =>
      rw [List.foldl_cons]
      obtain ⟨ledgers, hosted, same⟩ := ih (node.hostParty keyring)
      rw [same]
      exact ⟨ledgers, hosted, rfl⟩

theorem isFresh_state (fresh : node.isFresh = true) :
    node.blocks.length = 1 ∧ node.state = StateTree.empty := by
  unfold isFresh at fresh
  rw [Bool.and_eq_true, decide_eq_true_eq] at fresh
  refine ⟨fresh.1, StateTree.ext ?_⟩
  exact Std.ExtTreeMap.isEmpty_iff.mp fresh.2

variable [SerdeJson] [Blake3]

theorem seeded_directory (healthy : ∀ op, env.io op = none) (filed : Filed node directory)
    (spec : ChainSpec) :
    ∃ result state saved, node.seeded env spec = (result, { node with
        state := state
        store := some ({ directory with saved := saved } : Directory).store }) ∧
      (saved = directory.saved ∨ node.blocks.length = 1) ∧
      ((∃ state, spec.seed StateTree.empty = .ok state) → result = .ok ()) ∧
      (node.isFresh = true → result = .ok () → ∃ state, spec.seed StateTree.empty = .ok state) := by
  have kept : ({ node with
      state := node.state
      store := some ({ directory with saved := directory.saved } : Directory).store } : Node) =
      node := by
    rw [← filed.store]
  unfold seeded
  cases sown : spec.seed node.state with
  | error error =>
      dsimp only
      by_cases fresh : node.isFresh = true
      · rw [if_pos fresh]
        refine ⟨.error error, node.state, directory.saved, by rw [kept], Or.inl rfl, ?_, ?_⟩
        · rintro ⟨state, works⟩
          rw [(isFresh_state fresh).2, works] at sown
          cases sown
        · intro _ impossible
          cases impossible
      · rw [if_neg fresh]
        refine ⟨.ok (), node.state, directory.saved, by rw [kept], Or.inl rfl, fun _ => rfl, ?_⟩
        exact fun impossible => absurd impossible fresh
  | ok state =>
      dsimp only
      unfold seedGenesisState
      by_cases fresh : node.isFresh = true
      · rw [if_pos fresh]
        have written := @persist_write env healthy { node with state := state } _ filed.store
          .saveState fun store => { store with state := some (toVec state) }
        dsimp only [Store.saveState]
        rw [written]
        refine ⟨.ok (), state, some state, rfl, Or.inr (isFresh_state fresh).1, fun _ => rfl, ?_⟩
        intro _ _
        rw [(isFresh_state fresh).2] at sown
        exact ⟨state, sown⟩
      · rw [if_neg fresh]
        refine ⟨.ok (), node.state, directory.saved, by rw [kept], Or.inl rfl, fun _ => rfl, ?_⟩
        exact fun impossible => absurd impossible fresh

theorem configured_prepared (healthy : ∀ op, env.io op = none) (filed : Filed node directory)
    (config : ValidatorConfig) (unset : node.chainId = 0) :
    ∃ result after kept, node.configured env config = (result, after) ∧
      Prepared node directory after kept ∧
      (result = .ok () → after.chainId = config.chainId) ∧
      (Seeds config → result = .ok ()) ∧
      (node.isFresh = true → result = .ok () → Seeds config) := by
  unfold configured ValidatorConfig.chainId Seeds
  cases config.genesis with
  | none =>
      obtain ⟨ledgers, hosted, same⟩ := hostParties_eq node config.hostParties
      dsimp only
      rw [same]
      refine ⟨.ok (), _, directory, rfl, ?_, fun _ => unset, fun _ => rfl, ?_⟩
      · exact ⟨⟨filed.store, filed.chain⟩, rfl, rfl, rfl, rfl, rfl, rfl, rfl, rfl, Or.inl rfl⟩
      · intro _ _ spec impossible
        cases impossible
  | some spec =>
      obtain ⟨result, state, saved, seeded, written, works, fresh⟩ :=
        seeded_directory healthy filed spec
      dsimp only
      rw [seeded]
      cases result with
      | error error =>
          refine ⟨.error error, _, { directory with saved := saved }, rfl, ?_, ?_, ?_, ?_⟩
          · exact ⟨⟨rfl, filed.chain⟩, rfl, rfl, rfl, rfl, rfl, rfl, rfl, rfl, written⟩
          · intro impossible
            cases impossible
          · exact fun seeds => absurd (works (seeds spec rfl)) (by rintro ⟨⟩)
          · intro _ impossible
            cases impossible
      | ok done =>
          obtain ⟨ledgers, hosted, same⟩ := hostParties_eq ({ node with
            state := state
            store := some ({ directory with saved := saved } : Directory).store
            feePolicy := spec.feePolicy
            chainId := spec.chainId } : Node) config.hostParties
          dsimp only
          rw [same]
          refine ⟨.ok (), _, { directory with saved := saved }, rfl, ?_, fun _ => rfl,
            fun _ => rfl, ?_⟩
          · exact ⟨⟨rfl, filed.chain⟩, rfl, rfl, rfl, rfl, rfl, rfl, rfl, rfl, written⟩
          · intro isFresh _ other known
            cases known
            exact fresh isFresh rfl

variable [Ed25519]

/-- The entries of the pending log that `with_store` takes in again. -/
def restored (env : Env) (config : ValidatorConfig) (directory : Directory) : Node :=
  (loaded ⟨config.name⟩ config.cascade directory.founded directory.founded_nonempty).reingest env
    directory.founded.pending

omit [SerdeJson] [Blake3] in
/-- Before start-up is through, the limits are the default ones and the chain id is zero. -/
theorem restored_eq (env : Env) (config : ValidatorConfig) (directory : Directory) :
    ∃ accounts nonces mempool, restored env config directory =
      { loaded ⟨config.name⟩ config.cascade directory.founded directory.founded_nonempty with
        accounts := accounts
        nonces := nonces
        mempool := mempool } :=
  reingest_eq _ directory.founded.pending

/-- Starting on a directory the program wrote: the process is up, or its seeder failed
on a chain without blocks. -/
theorem runValidator_prepared (healthy : ∀ op, env.io op = none) (config : ValidatorConfig)
    (fresh : directory.chain = [] → directory = Directory.empty) :
    ∃ after kept,
      Prepared (restored env config directory)
        (directory.founded.pruned (restored env config directory).mempool) after kept ∧
      (runValidator env config directory.store = .up after ∧ after.chainId = config.chainId ∨
        runValidator env config directory.store = .down kept.store) ∧
      (Seeds config → runValidator env config directory.store = .up after) ∧
      (directory.founded.chain.length = 1 → directory.saved = none →
        runValidator env config directory.store = .up after → Seeds config) := by
  obtain ⟨accounts, nonces, mempool, same⟩ := restored_eq env config directory
  have opened := withStore_founded healthy ⟨config.name⟩ config.cascade fresh
  rw [resumed_eq] at opened
  change Node.withStore env ⟨config.name⟩ config.cascade directory.store =
    .ok { restored env config directory with
      store := some (directory.founded.pruned (restored env config directory).mempool).store }
    at opened
  have filed : Filed { restored env config directory with
      store := some (directory.founded.pruned (restored env config directory).mempool).store }
      (directory.founded.pruned (restored env config directory).mempool) := by
    refine ⟨rfl, ?_⟩
    rw [same]
    rfl
  obtain ⟨result, after, kept, ran, prepared, identified, works, seeds⟩ :=
    configured_prepared healthy filed config (by rw [same]; rfl)
  refine ⟨after, kept, ?_, ?_⟩
  · exact ⟨prepared.filed, prepared.blocks, prepared.mempool, prepared.nonces, prepared.accounts,
      prepared.cascade, prepared.limits, prepared.chain, prepared.pending, prepared.saved⟩
  · unfold runValidator
    rw [opened]
    dsimp only
    rw [ran]
    cases result with
    | error error =>
        dsimp only
        rw [prepared.filed.store]
        refine ⟨Or.inr rfl, fun seeding => ?_, ?_⟩
        · cases works seeding
        · intro _ _ impossible
          cases impossible
    | ok done =>
        refine ⟨Or.inl ⟨rfl, identified rfl⟩, fun _ => rfl, ?_⟩
        intro short unsaved _
        have started : isFresh { restored env config directory with
            store := some (directory.founded.pruned
              (restored env config directory).mempool).store } = true := by
          have still : directory.founded.saved.getD StateTree.empty = StateTree.empty := by
            rw [Directory.founded_saved, unsaved]
            rfl
          rw [same]
          unfold isFresh loaded
          dsimp only
          rw [short, still]
          rfl
        exact seeds started rfl

end Starting

end Node

def Happening.Healthy : Happening → Prop
  | .start env => ∀ op, env.io op = none
  | .stop => True
  | .request served => served.Healthy

end Veilux
