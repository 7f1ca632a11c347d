/-
Command authenticity.  Signatures and names are checked where commands enter the
mempool; blocks carry commands without signatures, and neither the checks of a
proposal nor `commit_block` look for them.
-/

import Veilux.Node.Assembly
import Veilux.Node.Shape
import Veilux.Prism.TokenSupply

namespace Veilux

namespace Node

variable [SerdeJson] [Blake3] [ChaCha20Poly1305]

/-- A commit changes neither the bound keys nor the chain, and adds no commands. -/
theorem commitBlock_accounts (env : Env) (node : Node) (block : Block) :
    (node.commitBlock env block).2.accounts = node.accounts ∧
      (node.commitBlock env block).2.chainId = node.chainId ∧
      (node.commitBlock env block).2.mempool ⊆ node.mempool := by
  have committed := commitBlock_committed env node block
  generalize node.commitBlock env block = result at committed
  cases committed with
  | refused error ledgers => exact ⟨rfl, rfl, List.Subset.refl _⟩
  | appended result events state ledgers store verified =>
      exact ⟨rfl, rfl, fun _ member => (List.mem_filter.mp member).1⟩

end Node

namespace Session

/-- The blocks a session takes from its peers: one that reaches `commit_block`, or a
proposal that passes the checks and is kept for voting. -/
inductive Taken [Blake3] [SerdeJson] [ChaCha20Poly1305] (stimulus : Stimulus)
    (session : Session) : Block → Prop
  | gossiped (before : Session) (block : Block)
      (reaches : Gossiped stimulus session before block) : Taken stimulus session block
  | proposed (round : UInt32) (block : Block)
      (delivered : stimulus.input = .net (.proposal round block))
      (atHeight : block.height = session.engine.machine.height)
      (verified : session.engine.aurora.verifyProposal block session.engine.node.head.hash
        session.engine.machine.round = .ok ()) : Taken stimulus session block

theorem Taken.delivered [Blake3] [SerdeJson] [ChaCha20Poly1305] {stimulus : Stimulus}
    {session : Session} {block : Block} (taken : Taken stimulus session block) :
    stimulus.input = .net (.block block) ∨
      (∃ front back, stimulus.input = .net (.blocks (front ++ block :: back))) ∨
      ∃ round, stimulus.input = .net (.proposal round block) := by
  cases taken with
  | gossiped before block reaches =>
      cases reaches with
      | block block delivered reaches => exact .inl delivered
      | batch front block back delivered reaches => exact .inr (.inl ⟨front, back, delivered⟩)
  | proposed round block delivered atHeight verified => exact .inr (.inr ⟨round, delivered⟩)

variable [Ed25519]

/-- Every command of a block is authentic on the node. -/
def Genuine (node : Node) (block : Block) : Prop :=
  ∀ command ∈ block.commands, Node.Authentic node command

/-- The blocks taken in a step carry only commands that are authentic here. -/
def TakesGenuine [Blake3] [SerdeJson] [ChaCha20Poly1305] (session : Session)
    (stimulus : Stimulus) : Prop :=
  ∀ block, Taken stimulus session block → Genuine session.engine.node block

/-- Authentic commands wherever the session has commands. -/
structure Authenticated (session : Session) : Prop where
  mempool : ∀ command ∈ session.engine.node.mempool,
    Node.Authentic session.engine.node command
  stored : ∀ hash block, session.engine.machine.block hash = some block →
    Genuine session.engine.node block
  executed : ∀ block ∈ session.executed, Genuine session.engine.node block

/-- Bindings are only added, on the same chain. -/
structure Rebinds (node after : Node) : Prop where
  chainId : after.chainId = node.chainId
  accounts : ∀ party key, node.accounts.lookup party = some key →
    after.accounts.lookup party = some key

omit [Ed25519] in
theorem Rebinds.trans {node middle after : Node} (first : Rebinds node middle)
    (second : Rebinds middle after) : Rebinds node after :=
  { chainId := second.chainId.trans first.chainId
    accounts := fun party key bound => second.accounts party key (first.accounts party key bound) }

theorem Genuine.rebinds {node after : Node} {block : Block} (genuine : Genuine node block)
    (rebinds : Rebinds node after) : Genuine after block :=
  fun command member => (genuine command member).of_bound rebinds.chainId rebinds.accounts

namespace Authenticated

variable {session : Session}

/-- Another node with more bindings and no foreign commands. -/
theorem rebind (authenticated : Authenticated session) {node : Node}
    (rebinds : Rebinds session.engine.node node)
    (mempool : ∀ command ∈ node.mempool,
      command ∈ session.engine.node.mempool ∨ Node.Authentic node command) :
    Authenticated (session.withNode node) := by
  constructor
  · intro command member
    rcases mempool command member with earlier | authentic
    · exact (authenticated.mempool command earlier).of_bound rebinds.chainId rebinds.accounts
    · exact authentic
  · exact fun hash block found => (authenticated.stored hash block found).rebinds rebinds
  · exact fun block member => (authenticated.executed block member).rebinds rebinds

theorem tends {after : Session} (authenticated : Authenticated session)
    (tends : Tends session after) :
    Authenticated after ∧ Rebinds session.engine.node after.engine.node := by
  obtain ⟨node, watch, kept, engine⟩ := tends.engine
  have rebinds : Rebinds session.engine.node node := ⟨kept.chainId, kept.accounts⟩
  have rebound := authenticated.rebind rebinds kept.mempool
  rw [engine]
  refine ⟨⟨?_, ?_, ?_⟩, rebinds⟩
  · rw [engine]
    exact rebound.mempool
  · rw [engine]
    exact rebound.stored
  · rw [engine, tends.executed]
    exact rebound.executed

theorem newRound (authenticated : Authenticated session) {after : Session}
    (node : after.engine.node = session.engine.node)
    (empty : after.engine.machine.seenBlocks = ∅) (executed : after.executed = session.executed) :
    Authenticated after := by
  constructor
  · rw [node]
    exact authenticated.mempool
  · intro hash block found
    unfold RoundMachine.block at found
    rw [empty] at found
    cases found
  · rw [node, executed]
    exact authenticated.executed

/-- A block with authentic commands is executed. -/
theorem execute [Blake3] [SerdeJson] [ChaCha20Poly1305] (authenticated : Authenticated session)
    {block : Block} (genuine : Genuine session.engine.node block) (env : Env) :
    Authenticated (session.execute env block) ∧
      Rebinds session.engine.node (session.execute env block).engine.node := by
  obtain ⟨accounts, chainId, mempool⟩ :=
    Node.commitBlock_accounts env session.engine.node block
  have rebinds : Rebinds session.engine.node (session.engine.node.commitBlock env block).2 := by
    refine ⟨chainId, fun party key bound => ?_⟩
    rw [accounts]
    exact bound
  have rebound := authenticated.rebind rebinds fun command member => .inl (mempool member)
  refine ⟨⟨rebound.mempool, rebound.stored, ?_⟩, rebinds⟩
  intro other member
  rcases List.mem_append.mp member with earlier | last
  · exact rebound.executed other earlier
  · rw [List.mem_singleton.mp last]
    exact genuine.rebinds rebinds

/-- A turn whose machine holds at most one block more. -/
theorem absorb [Blake3] (authenticated : Authenticated session) {turn : Turn}
    (stored : turn.machine.seenBlocks = session.engine.machine.seenBlocks ∨
      ∃ block, Genuine session.engine.node block ∧
        turn.machine.seenBlocks = session.engine.machine.seenBlocks.insert block.hash block) :
    Authenticated (session.absorb turn) := by
  refine ⟨authenticated.mempool, ?_, authenticated.executed⟩
  intro hash other found
  change turn.machine.seenBlocks.lookup hash = some other at found
  rcases stored with same | ⟨block, genuine, inserted⟩
  · rw [same] at found
    exact authenticated.stored hash other found
  · rw [inserted] at found
    by_cases here : hash = block.hash
    · rw [here, AList.lookup_insert] at found
      cases found
      exact genuine
    · rw [AList.lookup_insert_ne here] at found
      exact authenticated.stored hash other found

/-- Own blocks are filled from the mempool. -/
theorem built [Blake3] [SerdeJson] (authenticated : Authenticated session) {envs : Nat → Env}
    {node : Node} {block : Block}
    (built : buildOrReuseBlock envs session.engine.node session.engine.identity
      session.engine.height session.engine.machine = (.ok block, node)) :
    Genuine node block := by
  rcases buildOrReuseBlock_cases envs session.engine.node session.engine.identity
    session.engine.height session.engine.machine with
    ⟨existing, found, same⟩ | ⟨error, after, kept, same⟩ | ⟨submitted, after, first, kept, same⟩
  · rw [built] at same
    cases same
    obtain ⟨hash, _, stored⟩ := Option.bind_eq_some_iff.mp found
    exact authenticated.stored hash _ stored
  · rw [built] at same
    cases same
  · rw [built] at same
    cases same
    intro command member
    obtain ⟨_, _, included, _⟩ := submitted.assembly_spec (envs 1)
    rcases first.mempool command (included member) with earlier | authentic
    · exact ((authenticated.mempool command earlier).kept first).kept kept
    · exact authentic.kept kept

theorem recordView (authenticated : Authenticated session) (height : Nat) (view : UInt32)
    (voter : PartyId) :
    Authenticated (session.recordView height view voter) ∧
      (session.recordView height view voter).engine.node = session.engine.node := by
  let holds : Session → Prop := fun after =>
    Authenticated after ∧ after.engine.node = session.engine.node
  change holds (session.recordView height view voter)
  apply recordView_preserves
  · exact ⟨{ authenticated with }, rfl⟩
  · exact fun _ _ _ => ⟨authenticated.newRound rfl rfl rfl, rfl⟩

end Authenticated

/-- Authentic throughout, with no binding lost since an earlier node. -/
structure AuthenticatedSince (node : Node) (session : Session) : Prop where
  authenticated : Authenticated session
  rebinds : Rebinds node session.engine.node

namespace AuthenticatedSince

variable [Blake3] [SerdeJson] [ChaCha20Poly1305] {session : Session} {node : Node}

theorem execute (since : AuthenticatedSince node session) {block : Block}
    (genuine : Genuine session.engine.node block) (env : Env) :
    AuthenticatedSince node (session.execute env block) := by
  obtain ⟨later, rebinds⟩ := since.authenticated.execute genuine env
  exact ⟨later, since.rebinds.trans rebinds⟩

variable [X25519] {vset : ValidatorSet} {identity : PartyIdentity}

theorem handle (authenticated : Authenticated session) (shaped : Shaped vset identity session)
    (stimulus : Stimulus) (takes : TakesGenuine session stimulus) :
    AuthenticatedSince session.engine.node (session.handle stimulus) := by
  have initially : AuthenticatedSince session.engine.node session :=
    ⟨authenticated, ⟨rfl, fun _ _ bound => bound⟩⟩
  apply handle_rule shaped initially
  · intro before after _ tends held
    obtain ⟨later, rebinds⟩ := held.authenticated.tends tends
    exact ⟨later, held.rebinds.trans rebinds⟩
  · exact fun _ _ _ held => ⟨{ held.authenticated with }, held.rebinds⟩
  · intro before height view voter _ _ held
    obtain ⟨later, same⟩ := held.authenticated.recordView height view voter
    refine ⟨later, ?_⟩
    rw [same]
    exact held.rebinds
  · exact fun _ _ _ held => ⟨held.authenticated.newRound rfl rfl rfl, held.rebinds⟩
  · exact fun _ _ _ _ held => ⟨{ held.authenticated with }, held.rebinds⟩
  · exact fun _ _ held => ⟨{ held.authenticated with }, held.rebinds⟩
  · exact fun _ _ hash block _ found _ held =>
      held.execute (held.authenticated.stored hash block found) _
  · intro before index block _ gossiped held
    have genuine := takes block (.gossiped before block gossiped)
    exact held.execute (genuine.rebinds held.rebinds) _
  · intro node block _ _ waited built _ _ held
    have genuine : Genuine node block := waited.authenticated.built built
    exact ⟨held.authenticated.absorb
      (.inr ⟨block, genuine, RoundMachine.onLocalProposal_seenBlocks block⟩), held.rebinds⟩
  · intro round block delivered
    refine ⟨?_, initially.rebinds⟩
    rcases RoundMachine.onProposal_seenBlocks block _ with same | ⟨atHeight, verified, stored⟩
    · exact authenticated.absorb (.inl same)
    · have genuine := takes block (.proposed round block delivered atHeight verified)
      exact authenticated.absorb (.inr ⟨block, genuine, stored⟩)
  · intro before vote _ _ _ held
    exact ⟨held.authenticated.absorb (.inl (RoundMachine.onVote_seenBlocks vote)), held.rebinds⟩

end AuthenticatedSince

/-! ### Runs -/

section Runs

variable [Blake3] [SerdeJson] [ChaCha20Poly1305] [X25519]

end Runs

end Session

/-! ### A block from a peer -/

namespace Session

theorem execute_accounts [Blake3] [SerdeJson] [ChaCha20Poly1305] (session : Session) (env : Env)
    (block : Block) : (session.execute env block).resetHeight.engine.node.accounts =
      session.engine.node.accounts :=
  (Node.commitBlock_accounts env session.engine.node block).1

/-- A peer's block that the node can verify becomes its head. -/
theorem onBlock_executed [Ed25519] [Blake3] [SerdeJson] [ChaCha20Poly1305] {env : Env}
    {session : Session} {node : Node} {block : Block}
    {events : List Event} {state : StateTree} (healthy : ∀ op, env.io op = none)
    (kept : Node.Kept node session.engine.node) (reaches : reachesCommit node block = true)
    (verified : node.verifyBlock env block = .ok (events, state))
    (distinct : (node.keyrings.map ViewKeyring.party).Nodup) :
    session.onBlock env block = (session.execute env block).resetHeight ∧
      block ∈ (session.onBlock env block).executed ∧
      (session.onBlock env block).engine.node.head = { block with events := events } := by
  have same : reachesCommit session.engine.node block = true := by
    unfold reachesCommit
    rw [kept.head, kept.blocks]
    exact reaches
  rw [← kept.keyrings] at distinct
  obtain ⟨summary, ledgers, store, committed⟩ :=
    Node.commitBlock_ok healthy ((kept.verifyBlock env block).trans verified) distinct
  have moved := onBlock_of_commits same ⟨summary, congrArg Prod.fst committed⟩
  refine ⟨moved, ?_, ?_⟩
  · rw [moved]
    exact List.mem_append_right _ (List.mem_singleton_self _)
  · rw [moved]
    change (session.engine.node.commitBlock env block).2.head = _
    rw [committed]
    exact Node.head_append _ _

/-! ### Gold in the name of alice -/

section Forged

attribute [local instance] SerdeJson.compact Blake3.polynomial Ed25519.keyed
  ChaCha20Poly1305.keyed X25519.masked

open TokenPrism (goldId tokenCommand)

def goldCommand : Command := tokenCommand "alice" 0 (.create "Gold" "GLD" 18 1000 true)

def goldEvent : Event := TokenPrism.event goldCommand (.created goldId "GLD" 1000)

/-- The state it leaves on an empty chain at time 10. -/
def goldState : StateTree :=
  TokenPrism.withBalance
    ((StateTree.empty.putJson "chain/now" (10 : UInt64)).putJson (TokenPrism.metaKey goldId)
      ({ tokenId := goldId
         name := "Gold"
         symbol := "GLD"
         decimals := 18
         totalSupply := 1000
         owner := ⟨"alice"⟩
         mintable := true } : TokenMeta)) goldId ⟨"alice"⟩ 1000

/-- A first block with this command and correct roots. -/
def goldBlock : Block :=
  { height := 1
    parent := Block.deterministicGenesis.hash
    eventsRoot := merkleRoot ([goldEvent].map Event.commitment)
    stateRoot := goldState.root
    timestamp := 10
    proposer := ⟨"v2"⟩
    events := []
    commands := [goldCommand] }

noncomputable def tokenNode : Node := Node.new ⟨"v1"⟩ (Cascade.empty.install TokenPrism.prism)

theorem goldCommand_handled :
    (TokenPrism.handle goldCommand).run.run (StateTree.empty.putJson "chain/now" (10 : UInt64)) =
      (.ok (.single goldEvent 5000), goldState) := by
  have absent : (StateTree.empty.putJson "chain/now" (10 : UInt64)).contains
      (TokenPrism.metaKey goldId) = false := by
    decide +kernel
  change PrismM.Accepts _ _ _ _
  unfold TokenPrism.handle goldCommand tokenCommand
  rw [fromSlice_toVec]
  simp only [TokenPrism.execute, TokenPrism.create, TokenPrism.setMeta, TokenPrism.setBalance,
    PrismM.accepts_bind, PrismM.accepts_get, PrismM.accepts_ite, PrismM.accepts_throw,
    PrismM.accepts_modify, PrismM.accepts_pure]
  exact ⟨_, _, ⟨rfl, rfl⟩, .inr ⟨ne_true_of_eq_false absent, (), _, rfl, (), _, rfl, rfl, rfl⟩⟩

theorem goldCommand_applied :
    tokenNode.cascade.apply goldCommand (StateTree.empty.putJson "chain/now" (10 : UInt64)) =
      (.ok
        { events := [goldEvent]
          totalCost := 5000
          depth := 1 }, goldState) := by
  have installed : tokenNode.cascade.prisms.lookup goldCommand.prism = some TokenPrism.prism :=
    AList.lookup_insert _
  exact Cascade.apply_single installed goldCommand_handled

theorem goldBlock_verified :
    tokenNode.verifyBlock (.healthy 10) goldBlock = .ok ([goldEvent], goldState) := by
  have ran : Node.executeAll tokenNode.cascade tokenNode.feePolicy
      (Node.basePrice (tokenNode.openingState goldBlock.timestamp) tokenNode.feePolicy)
      goldBlock.proposer goldBlock.commands (tokenNode.opening goldBlock.timestamp) =
      .ok ⟨goldState, [goldEvent], 5000⟩ := by
    have applied : tokenNode.cascade.apply goldCommand
        (tokenNode.opening goldBlock.timestamp).state = (.ok ⟨[goldEvent], 5000, 1⟩, goldState) :=
      goldCommand_applied
    exact Node.executeAll_single applied
  have unchanged : Node.adjustBasePrice goldState tokenNode.feePolicy 5000 = goldState :=
    if_neg (by decide)
  have verified := @Node.verifyBlock_ok _ _ (.healthy 10) tokenNode goldBlock
    ⟨goldState, [goldEvent], 5000⟩ rfl rfl (by decide) (by decide) ran
    (by decide) rfl (by rw [unchanged, goldBlock])
  rw [unchanged] at verified
  exact verified

theorem goldCommand_mem : goldCommand ∈ goldBlock.commands := by
  simp only [goldBlock, List.mem_singleton]

theorem goldBlock_reaches : reachesCommit tokenNode goldBlock = true := by
  decide +kernel

/-- A session of the first of four equal validators. -/
noncomputable def tokenSession : Session :=
  Session.start (.repeated "v1" 1) Aurora.fourSet tokenNode

/-- A signed command is submitted here. -/
def submitted (signed : SignedCommand) : Stimulus :=
  { envs := fun _ => .healthy 10
    input := .ingress signed }

theorem handle_submitted (session : Session) (signed : SignedCommand) :
    session.handle (submitted signed) = session.ingress (.healthy 10) signed := rfl

def goldSigned : SignedCommand :=
  (PartyIdentity.repeated "alice" 5).signForChain goldCommand 0

/-- The block arrives from a peer. -/
def delivered (block : Block) : Stimulus :=
  { envs := fun _ => .healthy 10
    input := .net (.block block) }

theorem run_delivered (session : Session) (block : Block) :
    Run.run handle session [delivered block] = session.onBlock (.healthy 10) block := rfl

end Forged

end Session

end Veilux
