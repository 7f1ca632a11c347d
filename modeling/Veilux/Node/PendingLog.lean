/-
The pending log beside the mempool.  Intake appends to both, assembly and commit drop
from both by id, and `with_store` takes the log in again while the chain id is still zero.
-/

import Veilux.Evm.Metering
import Veilux.Lib.Kept
import Veilux.Node.Process
import Veilux.Node.Reachable

namespace Veilux

namespace Node

/-! ### A log that is tracked -/

section Tracking

variable [Ed25519] {node after : Node} {signed : SignedCommand} {log : List SignedCommand}

/-- An entry that has passed intake. -/
structure Logged (node : Node) (signed : SignedCommand) : Prop where
  payload : signed.command.payload.length ≤ node.limits.maxPayloadBytes
  name : reserved signed.command.submitter = false
  signature : verifySigned signed = .ok ()
  prism : node.cascade.has signed.command.prism = true
  key : node.accounts.lookup signed.command.submitter = some signed.publicKey
  nonce : signed.command.nonce < maxNonce

/-- A log of entries that have passed intake, with the commands of the mempool. -/
structure Tracked (node : Node) (log : List SignedCommand) : Prop where
  listed : log.map SignedCommand.command = node.mempool
  ordered : Ordered node
  entries : ∀ signed ∈ log, Logged node signed
  room : node.mempool.length ≤ node.limits.maxMempool

theorem Logged.mono (logged : Logged node signed) (rules : SameTerms node after)
    (accounts : ∀ party key, node.accounts.lookup party = some key →
      after.accounts.lookup party = some key) : Logged after signed := by
  constructor
  · rw [rules.limits]
    exact logged.payload
  · exact logged.name
  · exact logged.signature
  · rw [rules.cascade]
    exact logged.prism
  · exact accounts _ _ logged.key
  · exact logged.nonce

omit [Ed25519] in
theorem boundAccounts_own (owns : Owns node signed) :
    (node.boundAccounts signed).lookup signed.command.submitter = some signed.publicKey := by
  cases known : node.accounts.lookup signed.command.submitter with
  | none => exact boundAccounts_of_free known
  | some key => rw [boundAccounts_of_known known, known, owns key known]

/-- An accepted command is a new entry. -/
theorem Accepted.logged (accepted : Accepted node signed) (nonce : signed.command.nonce < maxNonce)
    (rules : SameTerms node after) (accounts : after.accounts = node.boundAccounts signed) :
    Logged after signed := by
  constructor
  · rw [rules.limits]
    exact accepted.authenticated.payload
  · exact accepted.authenticated.name
  · exact accepted.authenticated.signature
  · rw [rules.cascade]
    exact accepted.acceptable.prism
  · rw [accounts]
    exact boundAccounts_own accepted.owns
  · exact nonce

theorem Accepted.ordered (accepted : Accepted node signed) (ordered : Ordered node)
    (nonce : signed.command.nonce < maxNonce) : Ordered (node.queued signed) := by
  have taken := ordered.ingestSigned (Env.healthy 0) false nonce
  rwa [ingestSigned_restores accepted] at taken

/-- Whatever keeps queue and nonces and forgets no key keeps the log tracked. -/
theorem Tracked.quiet (tracked : Tracked node log) (intake : SameIntake node after)
    (mempool : after.mempool = node.mempool) : Tracked after log := by
  constructor
  · rw [mempool]
    exact tracked.listed
  · exact tracked.ordered.sublist (by rw [mempool]) intake.nonces
  · exact fun signed member => (tracked.entries signed member).mono intake.rules intake.accounts
  · rw [mempool, intake.rules.limits]
    exact tracked.room

theorem Tracked.admitted (tracked : Tracked node log) (accepted : Accepted node signed)
    (nonce : signed.command.nonce < maxNonce) (rules : SameTerms node after)
    (nonces : after.nonces = node.consumedNonces signed)
    (accounts : after.accounts = node.boundAccounts signed)
    (mempool : after.mempool = node.mempool ++ [signed.command]) :
    Tracked after (log ++ [signed]) := by
  constructor
  · rw [List.map_append, tracked.listed, mempool]
    rfl
  · apply (accepted.ordered tracked.ordered nonce).sublist _ nonces
    rw [mempool]
    exact List.Sublist.refl _
  · intro entry member
    rcases List.mem_append.mp member with earlier | last
    · apply (tracked.entries entry earlier).mono rules
      rw [accounts]
      exact boundAccounts_extends node signed
    · rw [List.mem_singleton.mp last]
      exact accepted.logged nonce rules accounts
  · rw [mempool, rules.limits, List.length_append]
    exact accepted.acceptable.room

variable [Blake3]

omit [Ed25519] in
theorem listed_dropped (listed : log.map SignedCommand.command = node.mempool)
    (commands : List Command) :
    (log.filter fun signed => ((node.withoutCommands commands).mempool.map Command.id).contains
        signed.command.id).map SignedCommand.command = (node.withoutCommands commands).mempool := by
  have left : (node.withoutCommands commands).mempool = (log.filter fun signed =>
      !(commands.map Command.id).contains signed.command.id).map SignedCommand.command := by
    change node.mempool.filter (fun command =>
      !(commands.map Command.id).contains command.id) = _
    rw [← listed, List.filter_map]
    rfl
  rw [left, List.map_map]
  exact congrArg (List.map SignedCommand.command)
    (@Kept.filter_keys_left _ _ _ (fun signed : SignedCommand => signed.command.id) log
      fun id => (commands.map Command.id).contains id)

/-- Commands dropped from the queue by id are dropped from the log. -/
theorem Tracked.dropped (tracked : Tracked node log) {commands : List Command}
    (intake : SameIntake node after)
    (mempool : after.mempool = (node.withoutCommands commands).mempool) :
    Tracked after (log.filter fun signed =>
      (after.mempool.map Command.id).contains signed.command.id) := by
  have fewer : after.mempool.Sublist node.mempool := by
    rw [mempool]
    exact List.filter_sublist
  constructor
  · rw [mempool]
    exact listed_dropped tracked.listed commands
  · exact tracked.ordered.sublist fewer intake.nonces
  · intro signed member
    exact (tracked.entries signed (List.mem_filter.mp member).1).mono intake.rules intake.accounts
  · rw [intake.rules.limits]
    exact fewer.length_le.trans tracked.room

/-- One turn keeps the log of the directory tracked. -/
theorem Tracked.turn {directory kept : Directory} {admits : SignedCommand → Prop}
    {seals : List Command → Prop} (bounded : ∀ signed, admits signed →
      signed.command.nonce < maxNonce) (tracked : Tracked node directory.pending)
    (turn : Turn admits seals node directory after kept) : Tracked after kept.pending := by
  cases turn with
  | quiet intake blocks mempool chain saved pending =>
      rw [pending]
      exact tracked.quiet intake mempool
  | admitted signed meant accepted rules nonces accounts blocks mempool chain saved pending =>
      rw [pending]
      exact tracked.admitted accepted (bounded signed meant) rules nonces accounts mempool
  | dropped commands intake blocks mempool chain saved pending =>
      rw [pending]
      exact tracked.dropped intake mempool
  | committed block state meant intake blocks root mempool chain saved pending =>
      rw [pending]
      exact tracked.dropped intake mempool
  | anchored block state plain intake blocks root mempool chain saved pending =>
      rw [pending]
      exact tracked.quiet intake mempool

end Tracking

/-! ### Taking a log in again -/

section Restoring

variable [Ed25519] {node : Node} {signed : SignedCommand} {log rest : List SignedCommand}
  {env : Env}

/-- A refused entry leaves the queue and what intake recorded. -/
theorem reingest_refused (refused : ¬ Accepted node signed) :
    ∃ accounts, (node.ingestSigned env signed false).2 = { node with accounts := accounts } ∧
      ∀ party key, node.accounts.lookup party = some key → accounts.lookup party = some key := by
  have taken := ingestSigned_taken env node signed false
  generalize node.ingestSigned env signed false = result at taken
  cases taken with
  | unauthenticated error failed => exact ⟨node.accounts, rfl, fun _ _ found => found⟩
  | foreign error failed => exact ⟨node.accounts, rfl, fun _ _ found => found⟩
  | unacceptable error authenticated owns failed =>
      exact ⟨_, rfl, boundAccounts_extends node signed⟩
  | accepted accepted => exact absurd accepted refused

/-- Some of the entries are taken in, and these are tracked. -/
theorem Tracked.reingest (tracked : Tracked node log) (env : Env) {pending : List SignedCommand}
    (bounded : ∀ signed ∈ pending, signed.command.nonce < maxNonce) :
    ∃ taken, taken.Sublist pending ∧ Tracked (node.reingest env pending) (log ++ taken) := by
  unfold Node.reingest
  induction pending generalizing node log with
  | nil => exact ⟨[], List.Sublist.refl _, by rwa [List.append_nil]⟩
  | cons signed rest ih =>
      have later : ∀ other ∈ rest, other.command.nonce < maxNonce := fun other member =>
        bounded other (List.mem_cons_of_mem _ member)
      rw [List.foldl_cons]
      by_cases accepted : Accepted node signed
      · rw [ingestSigned_restores accepted]
        have more : Tracked (node.queued signed) (log ++ [signed]) :=
          tracked.admitted accepted (bounded signed List.mem_cons_self) ⟨rfl, rfl, rfl⟩ rfl rfl rfl
        obtain ⟨taken, fewer, after⟩ := ih more later
        refine ⟨signed :: taken, fewer.cons_cons signed, ?_⟩
        rwa [List.append_assoc] at after
      · obtain ⟨accounts, same, kept⟩ := @reingest_refused _ _ _ env accepted
        rw [same]
        have still : Tracked { node with accounts := accounts } log :=
          tracked.quiet ⟨⟨rfl, rfl, rfl⟩, rfl, kept⟩ rfl
        obtain ⟨taken, fewer, after⟩ := ih still later
        exact ⟨taken, fewer.cons signed, after⟩

/-- Entries that intake takes one after the other as long as their chain id is the node's. -/
structure Restorable (node : Node) (rest : List SignedCommand) : Prop where
  payload : ∀ signed ∈ rest, signed.command.payload.length ≤ node.limits.maxPayloadBytes
  name : ∀ signed ∈ rest, reserved signed.command.submitter = false
  signature : ∀ signed ∈ rest, verifySigned signed = .ok ()
  prism : ∀ signed ∈ rest, node.cascade.has signed.command.prism = true
  bounded : ∀ signed ∈ rest, signed.command.nonce < maxNonce
  fresh : ∀ signed ∈ rest, node.expectedNonce signed.command.submitter ≤ signed.command.nonce
  owns : ∀ signed ∈ rest, Owns node signed
  increasing : rest.Pairwise fun first second =>
    first.command.submitter = second.command.submitter →
      first.command.nonce < second.command.nonce ∧ first.publicKey = second.publicKey
  room : node.mempool.length + rest.length ≤ node.limits.maxMempool

omit [Ed25519] in
theorem expectedNonce_queued (node : Node) (signed : SignedCommand) :
    (node.queued signed).expectedNonce signed.command.submitter = signed.command.nonce + 1 := by
  unfold expectedNonce queued
  dsimp only
  rw [consumedNonces_lookup]

omit [Ed25519] in
theorem expectedNonce_queued_ne (node : Node) {party : PartyId}
    (different : party ≠ signed.command.submitter) :
    (node.queued signed).expectedNonce party = node.expectedNonce party := by
  unfold expectedNonce queued consumedNonces
  dsimp only
  rw [AList.lookup_insert_ne different]

theorem Restorable.accepted (restorable : Restorable node (signed :: rest))
    (chain : signed.chainId = node.chainId) : Accepted node signed := by
  have first : signed ∈ signed :: rest := List.mem_cons_self
  have room := restorable.room
  rw [List.length_cons] at room
  refine ⟨⟨restorable.payload signed first, restorable.name signed first, chain,
    restorable.signature signed first⟩, restorable.owns signed first,
    ⟨restorable.prism signed first, restorable.fresh signed first, ?_⟩⟩
  omega

theorem Restorable.tail (restorable : Restorable node (signed :: rest)) : Restorable node rest := by
  have inside : ∀ {other}, other ∈ rest → other ∈ signed :: rest := List.mem_cons_of_mem _
  have room := restorable.room
  rw [List.length_cons] at room
  exact
    { payload := fun other member => restorable.payload other (inside member)
      name := fun other member => restorable.name other (inside member)
      signature := fun other member => restorable.signature other (inside member)
      prism := fun other member => restorable.prism other (inside member)
      bounded := fun other member => restorable.bounded other (inside member)
      fresh := fun other member => restorable.fresh other (inside member)
      owns := fun other member => restorable.owns other (inside member)
      increasing := restorable.increasing.of_cons
      room := by omega }

/-- Taking the first entry in leaves the others restorable. -/
theorem Restorable.queued (restorable : Restorable node (signed :: rest)) :
    Restorable (node.queued signed) rest := by
  have tail := restorable.tail
  have ahead := (List.pairwise_cons.mp restorable.increasing).1
  have room := restorable.room
  rw [List.length_cons] at room
  refine ⟨tail.payload, tail.name, tail.signature, tail.prism, tail.bounded, ?_, ?_,
    tail.increasing, ?_⟩
  · intro other member
    by_cases same : other.command.submitter = signed.command.submitter
    · rw [same, expectedNonce_queued]
      have below := UInt64.lt_iff_toNat_lt.mp (ahead other member same.symm).1
      have bound := UInt64.lt_iff_toNat_lt.mp (restorable.bounded signed List.mem_cons_self)
      change _ < 18446744073709551615 at bound
      rw [UInt64.le_iff_toNat_le, UInt64.toNat_add]
      change (_ + 1) % 2 ^ 64 ≤ _
      omega
    · rw [expectedNonce_queued_ne node same]
      exact tail.fresh other member
  · intro other member key found
    change (node.boundAccounts signed).lookup other.command.submitter = some key at found
    by_cases same : other.command.submitter = signed.command.submitter
    · rw [same, boundAccounts_own (restorable.owns signed List.mem_cons_self)] at found
      cases found
      exact (ahead other member same.symm).2
    · apply tail.owns other member key
      unfold boundAccounts at found
      cases known : node.accounts.lookup signed.command.submitter with
      | some existing =>
          rw [known] at found
          exact found
      | none =>
          rw [known] at found
          dsimp only at found
          rwa [AList.lookup_insert_ne same] at found
  · change (node.mempool ++ [signed.command]).length + rest.length ≤ node.limits.maxMempool
    rw [List.length_append, List.length_singleton]
    omega

/-- An entry for another chain is passed over. -/
theorem ingestSigned_foreign (foreign : signed.chainId ≠ node.chainId) :
    (node.ingestSigned env signed false).2 = node := by
  have taken := ingestSigned_taken env node signed false
  generalize node.ingestSigned env signed false = result at taken
  cases taken with
  | unauthenticated error failed => rfl
  | foreign error failed => rfl
  | unacceptable error authenticated owns failed => exact absurd authenticated.chain foreign
  | accepted accepted => exact absurd accepted.authenticated.chain foreign

/-- Restoring brings back the entries with the node's chain id, in their order. -/
theorem Restorable.reingest (restorable : Restorable node rest) (env : Env) :
    (node.reingest env rest).mempool =
      node.mempool ++ (rest.filter fun signed => signed.chainId = node.chainId).map
        SignedCommand.command := by
  unfold Node.reingest
  induction rest generalizing node with
  | nil => exact (List.append_nil _).symm
  | cons signed rest ih =>
      rw [List.foldl_cons]
      by_cases chain : signed.chainId = node.chainId
      · rw [ingestSigned_restores (restorable.accepted chain), ih restorable.queued,
          List.filter_cons, if_pos (decide_eq_true chain), List.map_cons]
        exact List.append_assoc _ _ _
      · rw [ingestSigned_foreign chain, ih restorable.tail,
          List.filter_cons, if_neg (by rw [decide_eq_true_iff]; exact chain)]

/-- A tracked log can be restored by a node that has taken nothing in. -/
theorem Tracked.restorable {base : Node} (tracked : Tracked node log)
    (limits : base.limits = node.limits) (cascade : base.cascade = node.cascade)
    (nonces : ∀ party, base.nonces.lookup party = none)
    (accounts : ∀ party, base.accounts.lookup party = none) (empty : base.mempool = []) :
    Restorable base log := by
  have listed := tracked.listed
  refine
    { payload := fun signed member => ?_
      name := fun signed member => (tracked.entries signed member).name
      signature := fun signed member => (tracked.entries signed member).signature
      prism := fun signed member => ?_
      bounded := fun signed member => (tracked.entries signed member).nonce
      fresh := fun signed member => ?_
      owns := fun signed member => ?_
      increasing := ?_
      room := ?_ }
  · rw [limits]
    exact (tracked.entries signed member).payload
  · rw [cascade]
    exact (tracked.entries signed member).prism
  · unfold expectedNonce
    rw [nonces]
    exact UInt64.le_iff_toNat_le.mpr (Nat.zero_le _)
  · intro key found
    rw [accounts] at found
    cases found
  · have increasing := tracked.ordered.increasing
    rw [← listed, List.pairwise_map] at increasing
    apply increasing.imp_of_mem
    intro first second inFirst inSecond below same
    refine ⟨below same, ?_⟩
    have key := (tracked.entries first inFirst).key
    rw [same, (tracked.entries second inSecond).key] at key
    exact (Option.some.inj key).symm
  · have room := tracked.room
    rw [← listed, List.length_map] at room
    rw [empty, limits, List.length_nil, Nat.zero_add]
    exact room

end Restoring

/-! ### Opening a directory -/

section Opening

variable [SerdeJson] [Blake3] [Ed25519] {env : Env} {proposer : PartyId} {cascade : Cascade}
  {directory : Directory}

/-- A node that `with_store` has not restored anything into yet. -/
structure Blank (cascade : Cascade) (base : Node) : Prop where
  mempool : base.mempool = []
  nonces : ∀ party, base.nonces.lookup party = none
  accounts : ∀ party, base.accounts.lookup party = none
  chainId : base.chainId = 0
  limits : base.limits = Limits.default
  cascade : base.cascade = cascade

/-- The node over a directory without blocks before its mempool is restored. -/
def unrestored (proposer : PartyId) (cascade : Cascade) (directory : Directory) : Node :=
  { Node.new proposer cascade with
    privateState := directory.founded.privateState.getD StateTree.empty
    privateCommitments := directory.founded.commitments.getD []
    store := some directory.founded.store }

theorem withStore_restores (healthy : ∀ op, env.io op = none) (proposer : PartyId)
    (cascade : Cascade) (directory : Directory) :
    ∃ base, Blank cascade base ∧ Filed base directory.founded ∧
      Node.withStore env proposer cascade directory.store =
        .ok { base.reingest env directory.pending with
          store := some (directory.founded.pruned
            (base.reingest env directory.pending).mempool).store } := by
  by_cases absent : directory.chain = []
  · have founded : directory.founded =
        { directory with chain := [Block.deterministicGenesis] } := by
      unfold Directory.founded
      rw [absent]
      rfl
    refine ⟨unrestored proposer cascade directory, ⟨rfl, fun _ => rfl, fun _ => rfl, rfl, rfl, rfl⟩,
      ⟨rfl, ?_⟩, ?_⟩
    · rw [founded]
      rfl
    · have written : ({ directory.store with
          blocks := directory.store.blocks ++ [toVec (Node.new proposer cascade).head] } : Store) =
          directory.founded.store := by
        rw [founded]
        unfold Directory.store
        rw [absent]
        rfl
      unfold Node.withStore
      dsimp only
      rw [directory.loadBlocks_store healthy, absent]
      dsimp only
      rw [dif_neg (fun some => some rfl)]
      unfold Store.appendBlock Store.write
      rw [healthy .appendBlock]
      dsimp only
      rw [written, directory.founded.loadPrivateState_store healthy]
      dsimp only
      rw [directory.founded.loadPrivateCommitments_store healthy]
      dsimp only
      have stored : (unrestored proposer cascade directory).store =
        some directory.founded.store := rfl
      have restored := restoreMempool_directory healthy stored
      split
      · rename_i failed
        cases failed.symm.trans restored
      · rename_i done
        rw [(Prod.mk.inj (done.symm.trans restored)).2, directory.founded_pending]
  · have kept : directory.founded = directory := by
      unfold Directory.founded
      rw [if_neg (fun none => absent (List.isEmpty_iff.mp none))]
    refine ⟨loaded proposer cascade directory absent, ⟨rfl, fun _ => rfl, fun _ => rfl, rfl, rfl, rfl⟩,
      ⟨?_, ?_⟩, ?_⟩
    · rw [kept]
      rfl
    · rw [kept]
      rfl
    · rw [withStore_directory healthy proposer cascade directory absent, resumed_eq, kept]

end Opening

/-! ### Runs -/

/-- A request, or an assembly whose block is not committed yet. -/
inductive Pooling where
  | serve (request : Request)
  | assemble (env : Env)

/-- The nonce of a submission is below the largest one. -/
def Request.Bounded : Request → Prop
  | .call (.submit _ signed) => signed.command.nonce < maxNonce
  | .submit _ _ _ signed => signed.command.nonce < maxNonce
  | _ => True

/-- The disk works, and nonces stay below the largest one. -/
def Pooling.Proper : Pooling → Prop
  | .serve request => request.Healthy ∧ request.Bounded
  | .assemble env => ∀ op, env.io op = none

section Runs

variable [SerdeJson] [Blake3] [Ed25519] {node after : Node} {directory kept : Directory}

omit [SerdeJson] [Blake3] [Ed25519] in
theorem SameTerms.trans {last : Node} (first : SameTerms node after)
    (second : SameTerms after last) : SameTerms node last :=
  ⟨second.cascade.trans first.cascade, second.limits.trans first.limits,
    second.chainId.trans first.chainId⟩

omit [SerdeJson] in
theorem Turn.sameTerms {admits : SignedCommand → Prop} {seals : List Command → Prop}
    (turn : Turn admits seals node directory after kept) : SameTerms node after := by
  cases turn with
  | quiet intake => exact intake.rules
  | admitted signed meant accepted rules => exact rules
  | dropped commands intake => exact intake.rules
  | committed block state meant intake => exact intake.rules
  | anchored block state plain intake => exact intake.rules

variable [ChaCha20Poly1305] [X25519] [Keccak256] [Secp256k1] [Evm]

def pooled (node : Node) : Pooling → Node
  | .serve request => served node request
  | .assemble env => (node.assembleBlock env).2

/-- The log of the directory is tracked, and the terms are those of the start. -/
structure Pools (start node : Node) (directory : Directory) : Prop where
  filed : Filed node directory
  tracked : Tracked node directory.pending
  rules : SameTerms start node

omit [SerdeJson] [Blake3] [ChaCha20Poly1305] [X25519] [Keccak256] [Secp256k1] [Evm] in
theorem Request.Bounded.meets {request : Request} (bounded : request.Bounded) (node : Node) :
    request.Meets (fun _ signed => signed.command.nonce < maxNonce) (fun _ _ => True) node := by
  cases request with
  | call call =>
      cases call with
      | submit env signed => exact fun _ => bounded
      | produce env later => trivial
      | commit env block => trivial
      | accept env block => trivial
      | ethApply env raw => trivial
  | submit env assembling later signed => exact fun _ => bounded
  | submitPrivate env envelope => trivial
  | contractVerify request => trivial

theorem Pools.pooled {start : Node} (pools : Pools start node directory) {call : Pooling}
    (proper : call.Proper) : ∃ kept, Pools start (node.pooled call) kept := by
  let admits (_ : Node) (signed : SignedCommand) : Prop := signed.command.nonce < maxNonce
  let seals (_ : Node) (_ : List Command) : Prop := True
  let holds (node : Node) (directory : Directory) : Prop :=
    Tracked node directory.pending ∧ SameTerms start node
  have turned : ∀ {node directory after kept}, Filed node directory → holds node directory →
      Turn (admits node) (seals node) node directory after kept → holds after kept := by
    intro node directory after kept _ held turn
    exact ⟨held.1.turn (fun _ bounded => bounded) turn, held.2.trans turn.sameTerms⟩
  have holding : holds node directory := ⟨pools.tracked, pools.rules⟩
  cases call with
  | serve request =>
      have meets : request.Meets admits seals node := proper.2.meets node
      obtain ⟨kept, filed, tracked, rules⟩ := served_preserves turned (fun _ _ _ => trivial)
        proper.1 pools.filed holding meets
      exact ⟨kept, filed, tracked, rules⟩
  | assemble env =>
      obtain ⟨kept, filed, turn⟩ := assembleBlock_turn proper pools.filed (admits node) (seals node)
      obtain ⟨tracked, rules⟩ := turned pools.filed holding turn
      exact ⟨kept, filed, tracked, rules⟩

theorem Pools.run {start : Node} {calls : List Pooling} (pools : Pools start node directory)
    (proper : ∀ call ∈ calls, call.Proper) :
    ∃ kept, Pools start (Run.run Node.pooled node calls) kept := by
  induction calls generalizing node directory with
  | nil => exact ⟨directory, pools⟩
  | cons call rest ih =>
      obtain ⟨kept, next⟩ := pools.pooled (proper call List.mem_cons_self)
      exact ih next fun other member => proper other (List.mem_cons_of_mem _ member)

omit [SerdeJson] [Blake3] [ChaCha20Poly1305] [X25519] [Keccak256] [Secp256k1] [Evm] in
theorem Blank.tracked {cascade : Cascade} {base : Node} (blank : Blank cascade base) :
    Tracked base [] := by
  constructor
  · rw [blank.mempool]
    rfl
  · refine ⟨?_, ?_, ?_⟩
    · rw [blank.mempool]
      exact List.Pairwise.nil
    · rw [blank.mempool]
      intro command member
      cases member
    · intro party last found
      rw [blank.nonces] at found
      cases found
  · intro signed member
    cases member
  · rw [blank.mempool]
    exact Nat.zero_le _

omit [SerdeJson] [Blake3] [ChaCha20Poly1305] [X25519] [Keccak256] [Secp256k1] [Evm] in
/-- Start-up after the store is open may change the chain id, and keeps the log tracked. -/
theorem Tracked.prepared (tracked : Tracked node directory.pending)
    (prepared : Prepared node directory after kept) : Tracked after kept.pending := by
  rw [prepared.pending]
  constructor
  · rw [prepared.mempool]
    exact tracked.listed
  · exact tracked.ordered.sublist (by rw [prepared.mempool]) prepared.nonces
  · intro signed member
    have logged := tracked.entries signed member
    refine ⟨?_, logged.name, logged.signature, ?_, ?_, logged.nonce⟩
    · rw [prepared.limits]
      exact logged.payload
    · rw [prepared.cascade]
      exact logged.prism
    · rw [prepared.accounts]
      exact logged.key
  · rw [prepared.mempool, prepared.limits]
    exact tracked.room

omit [ChaCha20Poly1305] [X25519] [Keccak256] [Secp256k1] [Evm] in
/-- Opening a directory whose log lists no command twice. -/
theorem withStore_tracked {env : Env} (healthy : ∀ op, env.io op = none) (proposer : PartyId)
    (cascade : Cascade)
    (distinct : (directory.pending.map fun signed => signed.command.id).Nodup)
    (bounded : ∀ signed ∈ directory.pending, signed.command.nonce < maxNonce) :
    ∃ opened files, Node.withStore env proposer cascade directory.store = .ok opened ∧
      Filed opened files ∧ Tracked opened files.pending ∧ opened.limits = Limits.default ∧
      opened.cascade = cascade := by
  obtain ⟨base, blank, filed, restored⟩ :=
    @withStore_restores _ _ _ env healthy proposer cascade directory
  obtain ⟨taken, fewer, tracked⟩ := blank.tracked.reingest env bounded
  obtain ⟨accounts, nonces, mempool, same⟩ := @reingest_eq _ env base directory.pending
  have left : (directory.founded.pruned (base.reingest env directory.pending).mempool).pending =
      taken := by
    unfold Directory.pruned
    dsimp only
    rw [← tracked.listed, directory.founded_pending, List.map_map, List.nil_append]
    exact @Kept.filter_keys_of_sublist _ _ _ (fun signed : SignedCommand => signed.command.id) _ _
      fewer distinct
  refine ⟨_, directory.founded.pruned (base.reingest env directory.pending).mempool, restored,
    ⟨rfl, ?_⟩, ?_, ?_, ?_⟩
  · rw [same]
    exact filed.chain
  · rw [left]
    exact tracked.quiet ⟨⟨rfl, rfl, rfl⟩, rfl, fun _ _ found => found⟩ rfl
  · rw [same]
    exact blank.limits
  · rw [same]
    exact blank.cascade

/-- The log lists the commands of the mempool, in their order and each once. -/
structure Agrees (node : Node) (store : Store) (log : List SignedCommand) : Prop where
  attached : node.store = some store
  read : ∀ env, (∀ op, env.io op = none) → store.loadPending env = .ok log
  listed : log.map SignedCommand.command = node.mempool
  once : node.mempool.Nodup

/-- Opening the store again brings the mempool back as it was. -/
def Recovers (proposer : PartyId) (cascade : Cascade) (node : Node) (store : Store) : Prop :=
  ∀ env, (∀ op, env.io op = none) → ∃ again,
    Node.withStore env proposer cascade store = .ok again ∧ again.mempool = node.mempool

omit [Blake3] [ChaCha20Poly1305] [X25519] [Keccak256] [Secp256k1] [Evm] in
theorem Filed.agrees (filed : Filed node directory) (tracked : Tracked node directory.pending) :
    Agrees node directory.store directory.pending := by
  refine ⟨filed.store, fun env healthy => directory.loadPending_store healthy, tracked.listed, ?_⟩
  apply tracked.ordered.increasing.imp
  rintro first _ below rfl
  exact UInt64.lt_irrefl _ (below rfl)

omit [ChaCha20Poly1305] [X25519] [Keccak256] [Secp256k1] [Evm] in
/-- What `with_store` brings back is what was signed for the chain id zero. -/
theorem recovers_iff (tracked : Tracked node directory.pending) {cascade : Cascade}
    (limits : node.limits = Limits.default) (same : node.cascade = cascade) (proposer : PartyId) :
    Recovers proposer cascade node directory.store ↔
      ∀ signed ∈ directory.pending, signed.chainId = 0 := by
  have reopened : ∀ env, (∀ op, env.io op = none) → ∃ again,
      Node.withStore env proposer cascade directory.store = .ok again ∧
        again.mempool = (directory.pending.filter fun signed => signed.chainId = 0).map
          SignedCommand.command := by
    intro env healthy
    obtain ⟨base, blank, _, restored⟩ :=
      @withStore_restores _ _ _ env healthy proposer cascade directory
    have restorable := tracked.restorable (blank.limits.trans limits.symm)
      (blank.cascade.trans same.symm) blank.nonces blank.accounts blank.mempool
    refine ⟨_, restored, ?_⟩
    have back := restorable.reingest env
    rw [blank.mempool, blank.chainId, List.nil_append] at back
    exact back
  constructor
  · intro recovers
    obtain ⟨again, opened, whole⟩ := recovers (.healthy 0) fun _ => rfl
    obtain ⟨other, twice, part⟩ := reopened (.healthy 0) fun _ => rfl
    rw [opened] at twice
    cases twice
    rw [whole, ← tracked.listed] at part
    have lengths := congrArg List.length part
    rw [List.length_map, List.length_map] at lengths
    have all := List.filter_sublist.eq_of_length lengths.symm
    intro signed member
    rw [← all] at member
    exact of_decide_eq_true (List.mem_filter.mp member).2
  · intro portable env healthy
    obtain ⟨again, opened, part⟩ := reopened env healthy
    refine ⟨again, opened, ?_⟩
    rw [part, ← tracked.listed]
    congr 1
    exact List.filter_eq_self.mpr fun signed member => decide_eq_true (portable signed member)

/-- Mempool and log agree along every run behind an opening whose log lists no command
twice, and a crash loses nothing exactly while every entry is signed for the chain id zero. -/
theorem pending_log_agrees (proposer : PartyId) (cascade : Cascade) (directory : Directory)
    (env : Env) (healthy : ∀ op, env.io op = none)
    (distinct : (directory.pending.map fun signed => signed.command.id).Nodup)
    (bounded : ∀ signed ∈ directory.pending, signed.command.nonce < maxNonce) :
    ∃ opened files, Node.withStore env proposer cascade directory.store = .ok opened ∧
      Filed opened files ∧ ∀ node kept, Prepared opened files node kept →
        ∀ calls : List Pooling, (∀ call ∈ calls, call.Proper) →
          ∃ store log, Agrees (Run.run pooled node calls) store log ∧
            (Recovers proposer cascade (Run.run pooled node calls) store ↔
              ∀ signed ∈ log, signed.chainId = 0) := by
  obtain ⟨opened, files, loads, filed, tracked, limits, installed⟩ :=
    withStore_tracked healthy proposer cascade distinct bounded
  refine ⟨opened, files, loads, filed, ?_⟩
  intro node kept prepared calls proper
  have start : Pools node node kept := ⟨prepared.filed, tracked.prepared prepared, .refl node⟩
  obtain ⟨last, pools⟩ := start.run proper
  refine ⟨last.store, last.pending, pools.filed.agrees pools.tracked, ?_⟩
  apply recovers_iff pools.tracked
  · exact (pools.rules.limits.trans prepared.limits).trans limits
  · exact (pools.rules.cascade.trans prepared.cascade).trans installed

omit [SerdeJson] [Blake3] [Ed25519] [ChaCha20Poly1305] [X25519] [Keccak256] [Secp256k1] [Evm] in
theorem Prepared.identified (filed : Filed node directory) (chainId : UInt64) :
    Prepared node directory { node with chainId := chainId } directory :=
  ⟨⟨filed.store, filed.chain⟩, rfl, rfl, rfl, rfl, rfl, rfl, rfl, rfl, .inl rfl⟩

omit [ChaCha20Poly1305] [X25519] [Keccak256] [Secp256k1] [Evm] in
/-- The first command on a new directory, after the chain id was set as the program sets it. -/
theorem first_submission {proposer : PartyId} {cascade : Cascade} {signed : SignedCommand}
    (payload : signed.command.payload = []) (name : reserved signed.command.submitter = false)
    (signature : verifySigned signed = .ok ())
    (prism : cascade.has signed.command.prism = true) (nonce : signed.command.nonce = 0) :
    ∃ opened files after store,
      Node.withStore (.healthy 10) proposer cascade Directory.empty.store = .ok opened ∧
      Prepared opened files { opened with chainId := signed.chainId } files ∧
      ({ opened with chainId := signed.chainId } : Node).submitSigned (.healthy 10) signed =
        (.ok (), after) ∧
      Agrees after store [signed] ∧
      (Recovers proposer cascade after store ↔ signed.chainId = 0) := by
  have healthy : ∀ op, (Env.healthy 10).io op = none := fun _ => rfl
  obtain ⟨base, blank, filed, loads⟩ :=
    @withStore_restores _ _ _ (.healthy 10) healthy proposer cascade Directory.empty
  let files := Directory.empty.founded.pruned base.mempool
  let opened : Node := { base with store := some files.store }
  let node : Node := { opened with chainId := signed.chainId }
  have held : Filed opened files := ⟨rfl, filed.chain⟩
  have prepared : Prepared opened files node files := Prepared.identified held signed.chainId
  have unlisted : files.pending = [] := rfl
  have accepted : Accepted node signed := by
    refine ⟨⟨?_, name, rfl, signature⟩, ?_, ⟨?_, ?_, ?_⟩⟩
    · rw [payload]
      exact Nat.zero_le _
    · intro key found
      change base.accounts.lookup _ = _ at found
      rw [blank.accounts] at found
      cases found
    · change base.cascade.has _ = true
      rw [blank.cascade]
      exact prism
    · have nonces : node.nonces.lookup signed.command.submitter = none := blank.nonces _
      unfold expectedNonce
      rw [nonces]
      exact UInt64.le_iff_toNat_le.mpr (Nat.zero_le _)
    · change base.mempool.length < base.limits.maxMempool
      rw [blank.mempool, blank.limits]
      decide
  have submitted := submitSigned_admits healthy prepared.filed.store accepted
  have tracked : Tracked opened files.pending := by
    rw [unlisted]
    exact blank.tracked.quiet ⟨⟨rfl, rfl, rfl⟩, rfl, fun _ _ found => found⟩ rfl
  have bound : signed.command.nonce < maxNonce := by
    rw [nonce]
    decide
  let last : Directory := { files with pending := files.pending ++ [signed] }
  let after : Node := { node.queued signed with store := some last.store }
  have grown : Tracked after last.pending :=
    (tracked.prepared prepared).admitted accepted bound ⟨rfl, rfl, rfl⟩ rfl rfl rfl
  have kept : Filed after last := ⟨rfl, filed.chain⟩
  refine ⟨opened, files, after, last.store, loads, prepared, submitted, kept.agrees grown, ?_⟩
  rw [recovers_iff grown blank.limits blank.cascade proposer]
  exact List.forall_mem_singleton

end Runs

section Fixed

attribute [local instance] SerdeJson.compact Blake3.polynomial Ed25519.keyed
  ChaCha20Poly1305.keyed X25519.masked Evm.onesKeccak Evm.blankSha256 Evm.blankRipemd160
  Evm.emptyCurve Evm.noRecovery Evm.interpreter

noncomputable def poolCascade : Cascade := Cascade.empty.install TokenPrism.prism

/-- Signed by alice for a chain. -/
noncomputable def aliceSigned (chainId : UInt64) : SignedCommand :=
  (PartyIdentity.repeated "alice" 5).signForChain
    { prism := "token"
      submitter := ⟨"alice"⟩
      visibility := .pub
      payload := []
      nonce := 0 } chainId

noncomputable def aliceSubmits : Pooling :=
  .serve (.call (.submit (.healthy 10) (aliceSigned 0)))

theorem aliceSubmits_proper : aliceSubmits.Proper := by
  refine ⟨?_, ?_⟩
  · intro env member op
    rw [List.mem_singleton.mp member]
    rfl
  · change (0 : UInt64) < maxNonce
    decide

/-- The theorem on a new directory, where alice submits one command. -/
theorem pending_log_agrees_alice :
    ∃ opened store log,
      Node.withStore (.healthy 10) ⟨"dev-node"⟩ poolCascade Directory.empty.store = .ok opened ∧
      Agrees (Run.run pooled opened [aliceSubmits]) store log ∧
      (Recovers ⟨"dev-node"⟩ poolCascade (Run.run pooled opened [aliceSubmits]) store ↔
        ∀ signed ∈ log, signed.chainId = 0) := by
  obtain ⟨opened, files, loads, filed, agrees⟩ := pending_log_agrees ⟨"dev-node"⟩ poolCascade
    Directory.empty (.healthy 10) (fun _ => rfl) List.nodup_nil
    (by intro signed member; cases member)
  have prepared : Prepared opened files opened files :=
    ⟨filed, rfl, rfl, rfl, rfl, rfl, rfl, rfl, rfl, .inl rfl⟩
  have proper : ∀ call ∈ [aliceSubmits], call.Proper := by
    intro call member
    rw [List.mem_singleton.mp member]
    exact aliceSubmits_proper
  obtain ⟨store, log, holds⟩ := agrees opened files prepared [aliceSubmits] proper
  exact ⟨opened, store, log, loads, holds⟩

/-- With the default chain id of the genesis file, an accepted command is gone after a
restart. -/
theorem accepted_command_lost :
    ∃ opened files after store,
      Node.withStore (.healthy 10) ⟨"dev-node"⟩ poolCascade Directory.empty.store = .ok opened ∧
      Prepared opened files { opened with chainId := ChainSpec.default.chainId } files ∧
      ({ opened with chainId := ChainSpec.default.chainId } : Node).submitSigned (.healthy 10)
        (aliceSigned 1) = (.ok (), after) ∧
      Agrees after store [aliceSigned 1] ∧
      ¬ Recovers ⟨"dev-node"⟩ poolCascade after store := by
  obtain ⟨opened, files, after, store, loads, prepared, submitted, agrees, recovers⟩ :=
    @first_submission _ _ _ ⟨"dev-node"⟩ poolCascade (aliceSigned 1) rfl (by decide)
      (verifySigned_signForChain _ _ _) (by decide) rfl
  refine ⟨opened, files, after, store, loads, prepared, submitted, agrees, ?_⟩
  rw [recovers]
  decide

end Fixed

end Node

end Veilux
