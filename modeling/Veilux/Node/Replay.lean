/-
Replaying a chain on a fresh node.  A peer executes the commands of each block
again, so it ends where the chain's node is as long as nothing but commands wrote
to the state and the commands do the same on both nodes.
-/

import Veilux.Kernel.Binding
import Veilux.Kernel.PrefixScan
import Veilux.Kernel.Visits
import Veilux.Node.Rpc

namespace Veilux

open Eth Rpc

/-- A block's hash input starts with its height. -/
theorem Block.height_eq_of_commitBytes [Blake3] {left right : Block}
    (leftFits : left.height < 2 ^ 64) (rightFits : right.height < 2 ^ 64)
    (same : Hash.commitBytes "block" left.hashParts = Hash.commitBytes "block" right.hashParts) :
    left.height = right.height := by
  unfold Hash.commitBytes hashParts at same
  simp only [List.append_cancel_left_eq, List.cons.injEq, true_and, List.flatMap_cons,
    List.append_assoc, Bytes.leBytes_length] at same
  obtain ⟨heights, _⟩ := List.append_inj same (by simp)
  exact Bytes.leBytes_injective leftFits rightFits heights

namespace Node

/-! ### The handlers behind a block -/

section Visits

variable [SerdeJson] [Blake3]

/-- Every handler run by the strict loop of a commit. -/
def executeVisits (cascade : Cascade) (policy : FeePolicy) (price : U128) (proposer : PartyId) :
    List Command → Execution → List (Command × StateTree)
  | [], _ => []
  | command :: rest, acc =>
      cascade.visits command acc.state ++
        match cascade.apply command acc.state with
        | (.error _, _) => []
        | (.ok receipt, state) =>
            executeVisits cascade policy price proposer rest
              (acc.charge policy price proposer command receipt state)

theorem executeVisits_single {cascade : Cascade} {policy : FeePolicy} {price : U128}
    {proposer : PartyId} {command : Command} {acc : Execution} {receipt : CascadeReceipt}
    {state : StateTree} (applied : cascade.apply command acc.state = (.ok receipt, state)) :
    executeVisits cascade policy price proposer [command] acc =
      cascade.visits command acc.state := by
  unfold executeVisits
  rw [applied]
  exact List.append_nil _

def blockVisits (node : Node) (block : Block) : List (Command × StateTree) :=
  executeVisits node.cascade node.feePolicy
    (basePrice (node.openingState block.timestamp) node.feePolicy) block.proposer
    block.commands (node.opening block.timestamp)

theorem executeAll_eq {left right : Cascade} {policy : FeePolicy} {price : U128}
    {proposer : PartyId} {commands : List Command} {acc : Execution}
    (alike : ∀ visit ∈ executeVisits left policy price proposer commands acc,
      Cascade.Alike left right visit) :
    executeAll left policy price proposer commands acc =
      executeAll right policy price proposer commands acc := by
  induction commands generalizing acc with
  | nil => rfl
  | cons command rest ih =>
      unfold executeVisits at alike
      unfold executeAll
      have same : left.apply command acc.state = right.apply command acc.state :=
        Cascade.apply_eq fun visit member => alike visit (List.mem_append_left _ member)
      rw [← same]
      cases ran : left.apply command acc.state with
      | mk result state =>
          rw [ran] at alike
          cases result with
          | error error => rfl
          | ok receipt => exact ih fun visit member => alike visit (List.mem_append_right _ member)

/-- The same prisms under the same names; a contract prism iterates its storage in
an order of its own on every node. -/
def SamePrisms (left right : Cascade) : Prop :=
  ∀ name, match left.prisms.lookup name, right.prisms.lookup name with
    | none, none => True
    | some first, some second => first = second ∨
        ∃ one other, first = ContractPrism.prism one ∧ second = ContractPrism.prism other
    | _, _ => False

theorem SamePrisms.refl (cascade : Cascade) : SamePrisms cascade cascade := by
  intro name
  cases cascade.prisms.lookup name with
  | none => trivial
  | some prism => exact Or.inl rfl

theorem SamePrisms.install (cascade : Cascade) (one other : IterationOrder) :
    SamePrisms (cascade.install (ContractPrism.prism one))
      (cascade.install (ContractPrism.prism other)) := by
  intro name
  unfold Cascade.install
  by_cases contract : name = "contract"
  · have first : (cascade.prisms.insert "contract" (ContractPrism.prism one)).lookup name =
        some (ContractPrism.prism one) := by
      rw [contract, AList.lookup_insert]
    have second : (cascade.prisms.insert "contract" (ContractPrism.prism other)).lookup name =
        some (ContractPrism.prism other) := by
      rw [contract, AList.lookup_insert]
    change match (cascade.prisms.insert "contract" (ContractPrism.prism one)).lookup name,
      (cascade.prisms.insert "contract" (ContractPrism.prism other)).lookup name with
      | none, none => True
      | some _, some _ => _
      | _, _ => False
    rw [first, second]
    exact Or.inr ⟨one, other, rfl, rfl⟩
  · have first : (cascade.prisms.insert "contract" (ContractPrism.prism one)).lookup name =
        cascade.prisms.lookup name := AList.lookup_insert_ne contract
    have second : (cascade.prisms.insert "contract" (ContractPrism.prism other)).lookup name =
        cascade.prisms.lookup name := AList.lookup_insert_ne contract
    change match (cascade.prisms.insert "contract" (ContractPrism.prism one)).lookup name,
      (cascade.prisms.insert "contract" (ContractPrism.prism other)).lookup name with
      | none, none => True
      | some _, some _ => _
      | _, _ => False
    rw [first, second]
    exact SamePrisms.refl cascade name

/-- No contract call behind the block leaves two slots to iterate. -/
def Steady (node : Node) (block : Block) : Prop :=
  ∀ visit ∈ node.blockVisits block, ∀ order,
    node.cascade.prisms.lookup visit.1.prism = some (ContractPrism.prism order) →
      ContractPrism.OneSlot visit.2 visit.1

theorem SamePrisms.alike {left right : Cascade} (same : SamePrisms left right)
    {visit : Command × StateTree}
    (single : ∀ order, left.prisms.lookup visit.1.prism = some (ContractPrism.prism order) →
      ContractPrism.OneSlot visit.2 visit.1) :
    Cascade.Alike left right visit := by
  have here := same visit.1.prism
  unfold Cascade.Alike
  cases first : left.prisms.lookup visit.1.prism with
  | none =>
      rw [first] at here
      cases second : right.prisms.lookup visit.1.prism with
      | none => trivial
      | some other =>
          rw [second] at here
          exact here
  | some prism =>
      rw [first] at here single
      cases second : right.prisms.lookup visit.1.prism with
      | none =>
          rw [second] at here
          exact here
      | some other =>
          rw [second] at here
          dsimp only at here ⊢
          rcases here with equal | ⟨one, another, isOne, isOther⟩
          · rw [equal]
          · rw [isOne, isOther]
            exact ContractPrism.handle_order_eq (single one (congrArg some isOne)) one another

end Visits

/-! ### Following a chain -/

section Following

variable [SerdeJson] [Blake3]

/-- A node that stands where another stands, with the same rules. -/
structure Follows (node peer : Node) : Prop where
  blocks : peer.blocks = node.blocks
  state : peer.state = node.state
  prisms : SamePrisms node.cascade peer.cascade
  limits : peer.limits = node.limits
  feePolicy : peer.feePolicy = node.feePolicy
  keyrings : peer.keyrings = []

theorem Follows.new {proposer other : PartyId} {cascade installed : Cascade}
    (same : SamePrisms cascade installed) :
    Follows (Node.new proposer cascade) (Node.new other installed) where
  blocks := rfl
  state := rfl
  prisms := same
  limits := rfl
  feePolicy := rfl
  keyrings := rfl

omit [SerdeJson] [Blake3] in
theorem saturatingAdd64_mono {left right : UInt64} (below : left ≤ right) (drift : UInt64) :
    saturatingAdd64 left drift ≤ saturatingAdd64 right drift := by
  rw [UInt64.le_iff_toNat_le] at below ⊢
  rw [saturatingAdd64_toNat, saturatingAdd64_toNat]
  omega

/-- What one node verified, a follower with a later clock verifies. -/
theorem Follows.verifyBlock {node peer : Node} (follows : Follows node peer) {env : Env}
    {block : Block} {events : List Event} {state : StateTree}
    (verified : node.verifyBlock env block = .ok (events, state)) (steady : Steady node block)
    {later : Env} (clock : env.now ≤ later.now) :
    peer.verifyBlock later { block with events := events } = .ok (events, state) := by
  obtain ⟨exec, checks, rfl, rfl⟩ := verifyBlock_verified verified
  have head : peer.head = node.head := head_congr follows.blocks
  have opening : peer.opening block.timestamp = node.opening block.timestamp := by
    unfold Node.opening openingState
    rw [follows.state]
  have executed : executeAll peer.cascade node.feePolicy
      (basePrice (node.openingState block.timestamp) node.feePolicy) block.proposer
      block.commands (node.opening block.timestamp) = .ok exec := by
    rw [← checks.executed]
    exact (executeAll_eq fun visit member => follows.prisms.alike (steady visit member)).symm
  have replayed := @verifyBlock_ok _ _ later peer { block with events := exec.events } exec
    (by rw [head]; exact checks.parent) (by rw [head]; exact checks.height)
    (by rw [head]; exact checks.early)
    (UInt64.le_trans checks.late (saturatingAdd64_mono clock _))
    (by
      rw [follows.feePolicy, opening]
      unfold openingState
      rw [follows.state]
      exact executed)
    (by rw [follows.limits]; exact checks.gas) checks.eventsRoot
    (by rw [follows.feePolicy]; exact checks.stateRoot)
  rw [follows.feePolicy] at replayed
  exact replayed

variable [ChaCha20Poly1305]

theorem commitBlock_appends {env : Env} (healthy : ∀ op, env.io op = none) {node : Node}
    {block : Block} {events : List Event} {state : StateTree}
    (verified : node.verifyBlock env block = .ok (events, state))
    (distinct : (node.keyrings.map ViewKeyring.party).Nodup) :
    (node.commitBlock env block).2.blocks = node.blocks ++ [{ block with events := events }] ∧
      (node.commitBlock env block).2.state = state := by
  obtain ⟨summary, ledgers, store, committed⟩ := commitBlock_ok healthy verified distinct
  rw [committed]
  exact ⟨rfl, rfl⟩

/-- A follower accepts the block as it was appended, and still follows. -/
theorem Follows.accepts {node after peer : Node} (follows : Follows node peer) {env : Env}
    {block : Block} {events : List Event} {state : StateTree}
    (verified : node.verifyBlock env block = .ok (events, state)) (steady : Steady node block)
    (blocks : after.blocks = node.blocks ++ [{ block with events := events }])
    (written : after.state = state) (cascade : after.cascade = node.cascade)
    (limits : after.limits = node.limits) (feePolicy : after.feePolicy = node.feePolicy)
    (fresh : ∀ known ∈ node.blocks, known.hash ≠ block.hash) {now : UInt64}
    (clock : env.now ≤ now) :
    ∃ next, peer.acceptExternalBlock (.healthy now) { block with events := events } =
        (.ok true, next) ∧ Follows after next := by
  have passes := @Follows.verifyBlock _ _ _ _ follows env block events state verified steady
    (.healthy now) clock
  have sits := verifyBlock_extends passes
  obtain ⟨summary, ledgers, store, committed⟩ := @commitBlock_ok _ _ _ (.healthy now)
    (fun _ => rfl) peer { block with events := events } events state passes (by
      rw [follows.keyrings]
      exact List.nodup_nil)
  unfold acceptExternalBlock
  have onTop : ¬ (block.parent ≠ peer.head.hash ∨ block.height ≠ peer.head.height + 1) := by
    rintro (other | other)
    · exact other sits.1
    · exact other sits.2
  rw [if_neg onTop, if_neg, committed]
  · refine ⟨_, rfl, ?_⟩
    exact
      { blocks := by
          rw [blocks, ← follows.blocks]
          rfl
        state := written.symm
        prisms := by
          rw [cascade]
          exact follows.prisms
        limits := by
          rw [limits]
          exact follows.limits
        feePolicy := by
          rw [feePolicy]
          exact follows.feePolicy
        keyrings := follows.keyrings }
  · rw [follows.blocks]
    intro known
    obtain ⟨other, member, same⟩ := List.any_eq_true.mp known
    exact fresh other member (of_decide_eq_true same)

end Following

/-! ### Requests that a replay can reproduce -/

section Requests

variable [SerdeJson] [Blake3] [Ed25519] [ChaCha20Poly1305] [X25519]
  [Keccak256] [Secp256k1] [Evm]

/-- The block a request may append, with the clock of its commit. -/
def candidate (node : Node) : Request → Option (Env × Block)
  | .call (.produce env later) => some (later, node.assembledBlock env)
  | .call (.commit env block) => some (env, block)
  | .call (.accept env block) => some (env, block)
  | .submit env assembling later signed =>
      some (later, (node.submitSigned env signed).2.assembledBlock assembling)
  | _ => none

/-- No raw transaction runs through, no verification changes a record, and the blocks
that pass the checks call contracts steadily. -/
structure Reproducible (node : Node) (request : Request) : Prop where
  steady : ∀ env block executed, node.candidate request = some (env, block) →
    node.verifyBlock env block = .ok executed → Steady node block
  plain : ∀ env raw, request = .call (.ethApply env raw) → ∀ tx run, ¬ Anchors node raw tx run
  recorded : ∀ asked record, request = .contractVerify asked →
    node.verification asked = some record →
      node.state.get (verifiedKey asked.address) = some (toVec record)

theorem served_commit (node : Node) (env : Env) (block : Block) :
    served node (.call (.commit env block)) = (node.commitBlock env block).2 := rfl

omit [SerdeJson] [Blake3] [Ed25519] [ChaCha20Poly1305] [X25519] [Keccak256] [Secp256k1] [Evm] in
structure SameRules (node after : Node) : Prop where
  cascade : after.cascade = node.cascade
  limits : after.limits = node.limits
  feePolicy : after.feePolicy = node.feePolicy

/-- Chain and state after a reproducible request: as before, or one verified and
steady block further. -/
inductive Recorded (latest : UInt64) (node after : Node) : Prop
  | stayed (rules : SameRules node after) (blocks : after.blocks = node.blocks)
      (state : after.state = node.state)
  | appended (env : Env) (block : Block) (events : List Event) (rules : SameRules node after)
      (clock : env.now ≤ latest)
      (verified : node.verifyBlock env block = .ok (events, after.state))
      (steady : Steady node block)
      (blocks : after.blocks = node.blocks ++ [{ block with events := events }])

omit [X25519] [Keccak256] [Secp256k1] [Evm] [ChaCha20Poly1305] in
theorem Recorded.of_kept {latest : UInt64} {node after : Node} (kept : Kept node after) :
    Recorded latest node after :=
  .stayed ⟨kept.cascade, kept.limits, kept.feePolicy⟩ kept.blocks kept.state

omit [X25519] [Keccak256] [Secp256k1] [Evm] in
/-- A commit on a node that was only tended in between. -/
theorem Recorded.commit {latest : UInt64} {node between : Node} {env : Env} {block : Block}
    (kept : Kept node between) (clock : env.now ≤ latest)
    (steady : ∀ executed, node.verifyBlock env block = .ok executed → Steady node block) :
    Recorded latest node (between.commitBlock env block).2 := by
  have committed := commitBlock_committed env between block
  generalize between.commitBlock env block = result at committed
  cases committed with
  | refused error ledgers => exact .of_kept { kept with }
  | appended result events state ledgers store verified =>
      rw [kept.verifyBlock] at verified
      refine .appended env block events ⟨kept.cascade, kept.limits, kept.feePolicy⟩ clock verified
        (steady _ verified) ?_
      change between.blocks ++ _ = _
      rw [kept.blocks]

omit [X25519] [Keccak256] [Secp256k1] [Evm] in
theorem Recorded.produce {latest : UInt64} {node between : Node} {env later : Env}
    (kept : Kept node between) (clock : later.now ≤ latest)
    (steady : ∀ executed, node.verifyBlock later (between.assembledBlock env) = .ok executed →
      Steady node (between.assembledBlock env)) :
    Recorded latest node (between.produceBlock env later).2 := by
  have assembled := assembleBlock_kept env between
  unfold produceBlock
  split
  · exact .of_kept kept
  · have known : ∀ block, (between.assembleBlock env).1 = .ok block →
        block = between.assembledBlock env := fun block => assembleBlock_block
    generalize between.assembleBlock env = result at assembled known
    obtain ⟨outcome, after⟩ := result
    cases outcome with
    | error error => exact .of_kept (kept.trans assembled)
    | ok block =>
        dsimp only
        rw [known block rfl]
        exact .commit (kept.trans assembled) clock steady

omit [Ed25519] [ChaCha20Poly1305] [X25519] [Keccak256] [Secp256k1] [Evm] [SerdeJson] [Blake3] in
/-- Writing what a key holds changes nothing. -/
theorem put_of_get {state : StateTree} {key : String} {value : List UInt8}
    (found : state.get key = some value) : state.put key value = state := by
  apply StateTree.ext_get
  intro other
  by_cases same : key = other
  · rw [← same, StateTree.get_put_self, found]
  · exact StateTree.get_put_ne state value same

theorem served_recorded {latest : UInt64} {node : Node} {request : Request}
    (reproducible : Reproducible node request) (clocks : ∀ now ∈ request.clocks, now ≤ latest) :
    Recorded latest node (served node request) := by
  cases request with
  | call call =>
      cases call with
      | submit env signed => exact .of_kept (submitSigned_kept env node signed)
      | produce env later =>
          exact .produce (Kept.refl node) (clocks _ (List.mem_cons_of_mem _ List.mem_cons_self))
            fun executed => reproducible.steady later _ executed rfl
      | commit env block =>
          exact .commit (Kept.refl node) (clocks _ List.mem_cons_self)
            fun executed => reproducible.steady env block executed rfl
      | accept env block =>
          have committed : Recorded latest node (node.commitBlock env block).2 :=
            .commit (Kept.refl node) (clocks _ List.mem_cons_self)
              fun executed => reproducible.steady env block executed rfl
          change Recorded latest node (node.acceptExternalBlock env block).2
          rcases acceptExternalBlock_cases env node block with ignored | ⟨accepted, _⟩
          · rw [ignored]
            exact .of_kept (Kept.refl node)
          · rw [accepted]
            exact committed
      | ethApply env raw =>
          change Recorded latest node (node.ethApplyRaw env raw).2
          rcases ethApplyRaw_cases env node raw with refused | ⟨tx, run, anchors, _⟩
          · rw [refused]
            exact .of_kept (Kept.refl node)
          · exact absurd anchors (reproducible.plain env raw rfl tx run)
  | submit env assembling later signed =>
      have kept := submitSigned_kept env node signed
      have steady := fun executed => reproducible.steady later _ executed rfl
      change Recorded latest node (node.rpcSubmit env assembling later signed).2
      unfold rpcSubmit
      generalize node.submitSigned env signed = result at kept steady
      obtain ⟨outcome, after⟩ := result
      cases outcome with
      | error error => exact .of_kept kept
      | ok done =>
          refine .produce kept (clocks _ ?_) steady
          exact List.mem_cons_of_mem _ (List.mem_cons_of_mem _ List.mem_cons_self)
  | submitPrivate env envelope => exact .of_kept (applyPrivateEnvelope_kept env node envelope)
  | contractVerify asked =>
      change Recorded latest node (node.contractVerify asked).2
      unfold contractVerify
      dsimp only
      split
      · exact .of_kept (Kept.refl node)
      · split
        · exact .of_kept (Kept.refl node)
        · rename_i record granted
          refine .stayed ⟨rfl, rfl, rfl⟩ rfl ?_
          exact put_of_get (reproducible.recorded asked record rfl granted)

omit [Ed25519] [ChaCha20Poly1305] [X25519] [Keccak256] [Secp256k1] [Evm] in
theorem Recorded.moved {latest : UInt64} {node after : Node}
    (recorded : Recorded latest node after) : Moved node after := by
  cases recorded with
  | stayed rules blocks state => exact .stayed blocks state
  | appended env block events rules clock verified steady blocks =>
      obtain ⟨exec, checks, _, written⟩ := verifyBlock_verified verified
      exact .grown { block with events := events }
        { blocks := blocks
          height := checks.height
          parent := checks.parent
          time := checks.early
          root := by
            rw [written]
            exact checks.stateRoot }

/-! ### Catching up -/

omit [Ed25519] [X25519] [Keccak256] [Secp256k1] [Evm] in
/-- The blocks handed to `accept_external_block` one after the other, each of which
must be accepted. -/
def catchUp (clock : Nat → UInt64) (peer : Node) : List Block → Option Node
  | [] => some peer
  | block :: rest =>
      match peer.acceptExternalBlock (.healthy (clock block.height)) block with
      | (.ok true, peer) => catchUp clock peer rest
      | _ => none

omit [Ed25519] [X25519] [Keccak256] [Secp256k1] [Evm] in
theorem catchUp_single {clock : Nat → UInt64} {peer next : Node} {block : Block}
    (accepted : peer.acceptExternalBlock (.healthy (clock block.height)) block =
      (.ok true, next)) : catchUp clock peer [block] = some next := by
  rw [catchUp, accepted]
  rfl

omit [Ed25519] [X25519] [Keccak256] [Secp256k1] [Evm] in
theorem catchUp_snoc (clock : Nat → UInt64) (peer : Node) (blocks : List Block) (block : Block) :
    catchUp clock peer (blocks ++ [block]) =
      (catchUp clock peer blocks).bind fun next => catchUp clock next [block] := by
  induction blocks generalizing peer with
  | nil => rfl
  | cons first rest ih =>
      rw [List.cons_append, catchUp, catchUp]
      split
      · rename_i next accepted
        exact ih next
      · rfl

omit [SerdeJson] [Ed25519] [ChaCha20Poly1305] [X25519] [Keccak256] [Secp256k1] [Evm] in
/-- The hash inputs of a chain's blocks, on which the digest must not collide. -/
def hashInputs (node : Node) : Set (List UInt8) :=
  {input | ∃ block ∈ node.blocks, Hash.commitBytes "block" block.hashParts = input}

omit [SerdeJson] [Ed25519] [ChaCha20Poly1305] [X25519] [Keccak256] [Secp256k1] [Evm] in
theorem hashInputs_free_of_two {node : Node} {first second : Block}
    (blocks : node.blocks = [first] ++ [second]) (differ : first.hash ≠ second.hash) :
    CollisionFree node.hashInputs := by
  have two : ∀ block ∈ node.blocks, block = first ∨ block = second := by
    rw [blocks]
    intro block member
    simpa using member
  rintro _ ⟨left, leftIn, rfl⟩ _ ⟨right, rightIn, rfl⟩ same
  rcases two left leftIn with isFirst | isSecond
  · rcases two right rightIn with isFirst' | isSecond'
    · rw [isFirst, isFirst']
    · rw [isFirst, isSecond'] at same
      exact absurd same differ
  · rcases two right rightIn with isFirst' | isSecond'
    · rw [isSecond, isFirst'] at same
      exact absurd same.symm differ
    · rw [isSecond, isSecond']

omit [SerdeJson] [Ed25519] [ChaCha20Poly1305] [X25519] [Keccak256] [Secp256k1] [Evm] in
/-- A new block does not share its hash with an earlier one. -/
theorem Linked.hash_ne {node after : Node} {block : Block} (linked : Linked node)
    (height : block.height = node.head.height + 1)
    (blocks : after.blocks = node.blocks ++ [block]) (free : CollisionFree after.hashInputs)
    (short : after.blocks.length ≤ 2 ^ 64) :
    ∀ known ∈ node.blocks, known.hash ≠ block.hash := by
  intro known member same
  obtain ⟨index, bound, found⟩ := List.getElem_of_mem member
  have knownHeight := linked.heights index known (List.getElem?_eq_some_iff.mpr ⟨bound, found⟩)
  have headHeight := linked.heights _ _ node.getElem?_head
  have size : after.blocks.length = node.blocks.length + 1 := by
    rw [blocks, List.length_append, List.length_singleton]
  have inputs := free _ ⟨known, by rw [blocks]; exact List.mem_append_left _ member, rfl⟩
    _ ⟨block, by rw [blocks]; exact List.mem_append_right _ (List.mem_singleton_self _), rfl⟩ same
  have equal := Block.height_eq_of_commitBytes (by omega) (by omega) inputs
  omega

omit [SerdeJson] [Ed25519] [ChaCha20Poly1305] [X25519] [Keccak256] [Secp256k1] [Evm] in
theorem Moved.hashInputs_subset {node after : Node} (moved : Moved node after) :
    node.hashInputs ⊆ after.hashInputs ∧ node.blocks.length ≤ after.blocks.length := by
  cases moved with
  | stayed blocks state =>
      unfold hashInputs
      rw [blocks]
      exact ⟨subset_rfl, le_rfl⟩
  | grown block grown =>
      unfold hashInputs
      rw [grown.blocks]
      constructor
      · rintro input ⟨known, member, same⟩
        exact ⟨known, List.mem_append_left _ member, same⟩
      · rw [List.length_append]
        omega

omit [Ed25519] [X25519] [Keccak256] [Secp256k1] [Evm] in
/-- One reproducible request further, a peer that caught up catches up again. -/
theorem Recorded.follows {start fresh last after : Node} {clock : Nat → UInt64}
    (linked : Linked start) (caught : catchUp clock fresh start.blocks.tail = some last)
    (follows : Follows start last)
    (recorded : Recorded (clock (start.head.height + 1)) start after)
    (free : CollisionFree after.hashInputs) (short : after.blocks.length ≤ 2 ^ 64) :
    ∃ next, catchUp clock fresh after.blocks.tail = some next ∧ Follows after next := by
  cases recorded with
  | stayed rules blocks state =>
      refine ⟨last, by rw [blocks]; exact caught, ?_⟩
      exact
        { blocks := follows.blocks.trans blocks.symm
          state := follows.state.trans state.symm
          prisms := by
            rw [rules.cascade]
            exact follows.prisms
          limits := follows.limits.trans rules.limits.symm
          feePolicy := follows.feePolicy.trans rules.feePolicy.symm
          keyrings := follows.keyrings }
  | appended env block events rules now verified steady blocks =>
      have height : block.height = start.head.height + 1 := (verifyBlock_extends verified).2
      have distinct := @Linked.hash_ne _ start after { block with events := events } linked height
        blocks free short
      rw [← height] at now
      obtain ⟨next, accepted, goesOn⟩ := follows.accepts verified steady blocks rfl rules.cascade
        rules.limits rules.feePolicy distinct now
      refine ⟨next, ?_, goesOn⟩
      rw [blocks, List.tail_append_of_ne_nil start.nonempty, catchUp_snoc, caught]
      simp only [Option.bind_some, catchUp, accepted]

theorem chain_replays {start fresh : Node} (origin : start.blocks = [Block.deterministicGenesis])
    (same : Follows start fresh) (requests : List Request)
    (reproducible : Run.Along served Reproducible start requests) (clock : Nat → UInt64)
    (later : ∀ request ∈ requests, ∀ now ∈ request.clocks, ∀ height, now ≤ clock height)
    (free : CollisionFree (Run.run served start requests).hashInputs)
    (short : (Run.run served start requests).blocks.length ≤ 2 ^ 64) :
    ∃ last, catchUp clock fresh (Run.run served start requests).blocks.tail = some last ∧
      last.state.root = (Run.run served start requests).state.root := by
  have caught : Linked (Run.run served start requests) ∧
      ∃ last, catchUp clock fresh (Run.run served start requests).blocks.tail = some last ∧
        Follows (Run.run served start requests) last := by
    induction requests using List.reverseRecOn with
    | nil =>
        refine ⟨Linked.of_genesis origin, fresh, ?_, same⟩
        rw [Run.run_nil, origin]
        rfl
    | append_singleton earlier request ih =>
        rw [Run.run_snoc] at free short ⊢
        obtain ⟨before, now⟩ := (Run.along_append served).mp reproducible
        have recorded : Recorded (clock ((Run.run served start earlier).head.height + 1))
            (Run.run served start earlier) (served (Run.run served start earlier) request) :=
          served_recorded now.1 fun now member =>
            later request (List.mem_append_right _ (List.mem_singleton_self _)) now member _
        have grows := recorded.moved.hashInputs_subset
        obtain ⟨linked, last, reached, follows⟩ := ih before
          (fun other member => later other (List.mem_append_left _ member))
          (fun left inLeft right inRight => free left (grows.1 inLeft) right (grows.1 inRight))
          (grows.2.trans short)
        exact ⟨linked.moved recorded.moved,
          recorded.follows linked reached follows free short⟩
  obtain ⟨_, last, reached, follows⟩ := caught
  exact ⟨last, reached, by rw [follows.state]⟩

end Requests

/-! ### A verified contract -/

section Deployed

attribute [local instance] SerdeJson.compact Blake3.polynomial Ed25519.keyed
  ChaCha20Poly1305.keyed X25519.masked stopping blankKeccak noSignature

open ContractPrism (leading)

/-- Deploys a contract that stops at once. -/
def deployCommand : Command :=
  { prism := "contract"
    submitter := ⟨"alice"⟩
    visibility := .pub
    payload := toVec (ContractCommand.deploy [0x00])
    nonce := 0 }

def deployedAt : Hash :=
  Hash.commit "contract/address"
    [deployCommand.submitter.bytes, Bytes.leBytes 8 deployCommand.nonce.toNat, [0x00]]

def deployedMeta : ContractMeta :=
  { address := deployedAt
    deployer := ⟨"alice"⟩
    code := [0x00]
    codeSize := 1 }

def deployEvent : Event := ContractPrism.event deployCommand (.deployed deployedAt 1)

def deployState : StateTree :=
  (StateTree.empty.putJson "chain/now" (10 : UInt64)).putJson (ContractPrism.codeKey deployedAt)
    deployedMeta

def deployBlock : Block :=
  { height := 1
    parent := Block.deterministicGenesis.hash
    eventsRoot := merkleRoot ([deployEvent].map Event.commitment)
    stateRoot := deployState.root
    timestamp := 10
    proposer := ⟨"v2"⟩
    events := []
    commands := [deployCommand] }

noncomputable def contractNode : Node :=
  Node.new ⟨"v1"⟩ (Cascade.empty.install (ContractPrism.prism (leading 1)))

theorem deployCommand_handled :
    (ContractPrism.handle (leading 1) deployCommand).run.run
        (StateTree.empty.putJson "chain/now" (10 : UInt64)) =
      (.ok (.single deployEvent 32200), deployState) := by
  unfold ContractPrism.handle
  have parsed : fromSlice ContractCommand deployCommand.payload = .ok (.deploy [0x00]) :=
    fromSlice_toVec _
  rw [parsed]
  rfl

theorem contractNode_installed :
    contractNode.cascade.prisms.lookup deployCommand.prism =
      some (ContractPrism.prism (leading 1)) :=
  AList.lookup_insert _

theorem deployBlock_executed :
    executeAll contractNode.cascade contractNode.feePolicy
        (basePrice (contractNode.openingState deployBlock.timestamp) contractNode.feePolicy)
        deployBlock.proposer deployBlock.commands (contractNode.opening deployBlock.timestamp) =
      .ok ⟨deployState, [deployEvent], 32200⟩ := by
  change (match contractNode.cascade.apply deployCommand
      (StateTree.empty.putJson "chain/now" (10 : UInt64)) with
    | (.error error, _) => Except.error error
    | (.ok receipt, state) =>
        executeAll contractNode.cascade contractNode.feePolicy _ _ [] _) = _
  rw [Cascade.apply_single contractNode_installed deployCommand_handled]
  rfl

theorem deployBlock_verified :
    contractNode.verifyBlock (.healthy 10) deployBlock = .ok ([deployEvent], deployState) := by
  have unchanged : adjustBasePrice deployState contractNode.feePolicy 32200 = deployState :=
    if_neg (by decide)
  have verified := @verifyBlock_ok _ _ (.healthy 10) contractNode deployBlock
    ⟨deployState, [deployEvent], 32200⟩ rfl rfl (by decide) (by decide)
    deployBlock_executed (by decide) rfl (by rw [unchanged, deployBlock])
  rw [unchanged] at verified
  exact verified

theorem deployBlock_steady : Steady contractNode deployBlock := by
  intro visit member order _
  have only : contractNode.blockVisits deployBlock =
      [(deployCommand, StateTree.empty.putJson "chain/now" (10 : UInt64))] := by
    change contractNode.cascade.visits deployCommand
        (StateTree.empty.putJson "chain/now" (10 : UInt64)) ++
      (match contractNode.cascade.apply deployCommand
          (StateTree.empty.putJson "chain/now" (10 : UInt64)) with
        | (.error _, _) => []
        | (.ok receipt, state) => executeVisits _ _ _ _ [] _) = _
    rw [Cascade.visits_single contractNode_installed deployCommand_handled,
      Cascade.apply_single contractNode_installed deployCommand_handled]
    rfl
  rw [only] at member
  cases List.mem_singleton.mp member
  have parsed : fromSlice ContractCommand deployCommand.payload = .ok (.deploy [0x00]) :=
    fromSlice_toVec _
  unfold ContractPrism.OneSlot
  dsimp only
  rw [parsed]
  trivial

theorem contractNode_follows : Follows contractNode contractNode :=
  Follows.new (SamePrisms.refl _)

def deployRequest : Request := .call (.commit (.healthy 10) deployBlock)

def storedBlock : Block := { deployBlock with events := [deployEvent] }

/-- The block is appended and the contract is in the state. -/
theorem served_deployRequest :
    (served contractNode deployRequest).blocks = contractNode.blocks ++ [storedBlock] ∧
      (served contractNode deployRequest).state = deployState := by
  have distinct : (contractNode.keyrings.map ViewKeyring.party).Nodup := List.nodup_nil
  have appended := @commitBlock_appends _ _ _ (.healthy 10) (fun _ => rfl) contractNode deployBlock
    _ _ deployBlock_verified distinct
  rw [deployRequest, served_commit]
  exact appended

def stopSource : VerifyRequest :=
  { address := deployedAt.toHex
    name := "Stop"
    source := "stop"
    bytecodeHex := "0x00"
    compiler := "photon"
    abi := "" }

def stopRecord : VerificationRecord :=
  { address := deployedAt.toHex
    name := "Stop"
    source := "stop"
    compiler := "photon"
    abi := ""
    codeHash := (Hash.digest [0x00]).toHex
    verifiedAtHeight := 1 }

theorem readContractCode_found {state : StateTree} {address : String} {info : Json}
    (read : state.getJson? Json ("contract/code/" ++ address) = some info) :
    readContractCode state address =
      { address := address
        found := true
        deployer := (field "deployer" info).bind asStr
        bytecodeHex := Bytes.hexEncode (codeOf info)
        codeSize := (codeOf info).length
        codeHash := (Hash.digest (codeOf info)).toHex
        verified := state.contains (verifiedKey address) } := by
  unfold readContractCode
  rw [read]

theorem readContractCode_deployed :
    readContractCode deployState deployedAt.toHex =
      { address := deployedAt.toHex
        found := true
        deployer := some "alice"
        bytecodeHex := "00"
        codeSize := 1
        codeHash := (Hash.digest [0x00]).toHex
        verified := deployState.contains (verifiedKey deployedAt.toHex) } := by
  have read : deployState.getJson? Json ("contract/code/" ++ deployedAt.toHex) =
      some (toJson deployedMeta) :=
    StateTree.getJson?_putJson _ (ContractPrism.codeKey deployedAt) (toJson deployedMeta)
  have code : codeOf (toJson deployedMeta) = [0x00] := rfl
  rw [readContractCode_found read, code]
  rfl

theorem verification_deployed {node : Node} (state : node.state = deployState)
    (height : node.head.height = 1) : node.verification stopSource = some stopRecord := by
  have code : readContractCode node.state stopSource.address = _ :=
    (congrArg (fun tree => readContractCode tree deployedAt.toHex) state).trans
      readContractCode_deployed
  rw [verification_granted (by rw [code]) (by rw [code]; decide), code, height]
  rfl

theorem stopRecord_changes_root :
    (deployState.putJson (verifiedKey deployedAt.toHex) stopRecord).root ≠ deployState.root := by
  rw [StateTree.putJson, toVec_eq_flatMap]
  decide +kernel

theorem contractVerify_granted {node : Node} {request : VerifyRequest}
    {record : VerificationRecord}
    (found : (readContractCode node.state request.address).found = true)
    (granted : node.verification request = some record) :
    (served node (.contractVerify request)).blocks = node.blocks ∧
      (served node (.contractVerify request)).state =
        node.state.putJson (verifiedKey request.address) record := by
  change (node.contractVerify request).2.blocks = _ ∧ (node.contractVerify request).2.state = _
  unfold contractVerify
  dsimp only
  rw [if_neg (not_not_intro found), granted]
  exact ⟨rfl, rfl⟩

theorem head_storedBlock {node : Node} (blocks : node.blocks = contractNode.blocks ++ [storedBlock]) :
    node.head.height = 1 := by
  rw [head_of_snoc blocks]
  rfl

theorem deployBlock_hash_ne : ∀ known ∈ contractNode.blocks, known.hash ≠ deployBlock.hash := by
  intro known member
  rw [List.mem_singleton.mp member]
  decide +kernel

theorem exists_catchUp_storedBlock :
    ∃ last, catchUp (fun _ => 10) contractNode [storedBlock] = some last ∧
      last.state = deployState := by
  obtain ⟨last, accepted, follows⟩ := @Follows.accepts _ _ _ contractNode
    (({ contractNode with state := deployState } : Node).append storedBlock) contractNode
    contractNode_follows (.healthy 10) deployBlock _ _ deployBlock_verified deployBlock_steady
    rfl rfl rfl rfl rfl deployBlock_hash_ne 10 (UInt64.le_refl _)
  exact ⟨last, catchUp_single accepted, follows.state⟩

/-- A peer takes the block of the deployment, but not the record of the verification. -/
theorem verified_contract_not_replayed :
    let node := Run.run served contractNode [deployRequest, .contractVerify stopSource]
    node.blocks.tail = [storedBlock] ∧ Follows contractNode contractNode ∧
      ¬ ∃ last, catchUp (fun _ => 10) contractNode node.blocks.tail = some last ∧
        last.state.root = node.state.root := by
  dsimp only
  rw [Run.run_cons, Run.run_cons, Run.run_nil]
  obtain ⟨blocks, state⟩ := served_deployRequest
  generalize served contractNode deployRequest = deployed at blocks state
  have granted := verification_deployed state (head_storedBlock blocks)
  have found : (readContractCode deployed.state stopSource.address).found = true := by
    rw [state, stopSource, readContractCode_deployed]
  obtain ⟨same, written⟩ := contractVerify_granted found granted
  have tail : (served deployed (.contractVerify stopSource)).blocks.tail = [storedBlock] := by
    rw [same, blocks]
    rfl
  refine ⟨tail, contractNode_follows, ?_⟩
  rintro ⟨last, caught, root⟩
  obtain ⟨peer, reached, stands⟩ := exists_catchUp_storedBlock
  rw [tail, reached] at caught
  cases caught
  rw [written, state, stands] at root
  exact stopRecord_changes_root root.symm

/-- The same prisms, with the slots of a contract listed the other way round. -/
noncomputable def otherNode : Node :=
  Node.new ⟨"v9"⟩ (Cascade.empty.install (ContractPrism.prism (leading 2)))

theorem otherNode_follows : Follows contractNode otherNode :=
  Follows.new (SamePrisms.install Cascade.empty (leading 1) (leading 2))

theorem deployRequest_reproducible : Reproducible contractNode deployRequest where
  steady := by
    intro env block executed isCandidate _
    cases isCandidate
    exact deployBlock_steady
  plain := by
    intro env raw request
    cases request
  recorded := by
    intro asked record request
    cases request

theorem deployed_hashInputs_free :
    CollisionFree (served contractNode deployRequest).hashInputs := by
  have genesis : Block.deterministicGenesis ∈ contractNode.blocks := List.mem_singleton_self _
  have differ : Block.deterministicGenesis.hash ≠ storedBlock.hash :=
    fun same => deployBlock_hash_ne _ genesis
      (same.trans (Block.hash_with_events deployBlock [deployEvent]))
  exact hashInputs_free_of_two served_deployRequest.1 differ

theorem deployed_chain_replays :
    ∃ last, catchUp (fun _ => 20) otherNode
        (Run.run served contractNode [deployRequest]).blocks.tail = some last ∧
      last.state.root = (Run.run served contractNode [deployRequest]).state.root := by
  have length : (served contractNode deployRequest).blocks.length = 2 := by
    rw [served_deployRequest.1]
    rfl
  refine chain_replays rfl otherNode_follows [deployRequest]
    ⟨deployRequest_reproducible, trivial⟩ (fun _ => 20) ?_ deployed_hashInputs_free ?_
  · intro request member now clock height
    cases List.mem_singleton.mp member
    cases List.mem_singleton.mp clock
    decide
  · rw [Run.run_cons, Run.run_nil, length]
    decide

end Deployed

end Node

end Veilux
