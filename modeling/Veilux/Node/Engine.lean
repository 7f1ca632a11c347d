/-
The validator loop of `node/src/validator_loop.rs`.  A session is the engine with
what it has broadcast, and with the observations the properties are about: the
votes its round machines cast and the commits they emitted, the views it asked for
and those it adopted, and the blocks it handed to `commit_block`.

Whatever consults the clock or the disk takes its own reading; the readings of one
step are numbered from zero.
-/

import Veilux.Network.Message
import Veilux.Node.Authentic
import Veilux.Node.Driver
import Veilux.Node.SlashWatch
import Veilux.Node.ViewSync

namespace Veilux

open Bytes (utf8)

def viewTimeoutTicks : Nat := 3

structure Engine where
  node : Node
  aurora : Aurora
  identity : PartyIdentity
  me : PartyId
  height : Nat
  view : UInt32
  staleTicks : Nat
  machine : RoundMachine
  viewsync : ViewCoordinator
  slashWatch : EquivocationWatch

namespace Engine

/-- The engine `run_validator` builds around an opened node. -/
def start (identity : PartyIdentity) (vset : ValidatorSet) (node : Node) : Engine :=
  { node := node
    aurora := Aurora.new vset (some identity.party)
    identity := identity
    me := identity.party
    height := node.head.height + 1
    view := 0
    staleTicks := 0
    machine := RoundMachine.newRound (node.head.height + 1) 0
    viewsync := ViewCoordinator.new (node.head.height + 1)
    slashWatch := EquivocationWatch.new }

def resetHeight (eng : Engine) : Engine :=
  { eng with
    height := eng.node.head.height + 1
    view := 0
    staleTicks := 0
    machine := RoundMachine.newRound (eng.node.head.height + 1) 0
    viewsync := eng.viewsync.reset (eng.node.head.height + 1)
    slashWatch := eng.slashWatch.pruneBelow (eng.node.head.height + 1 - 8) }

/-- The engine at a higher view of its height. -/
def atView (eng : Engine) (view : UInt32) : Engine :=
  { eng with
    view := view
    staleTicks := 0
    machine := RoundMachine.newRound eng.height view }

end Engine

structure Session where
  engine : Engine
  sent : List NetMessage
  cast : List Vote
  commits : List (Nat × Hash)
  asked : List (Nat × UInt32)
  adopted : List (Nat × UInt32)
  executed : List Block

def votesIn (actions : List Action) : List Vote :=
  actions.filterMap fun action =>
    match action with
    | .broadcast (.vote vote) => some vote
    | _ => none

def commitsIn (actions : List Action) : List Hash :=
  actions.filterMap fun action =>
    match action with
    | .commit blockHash => some blockHash
    | _ => none

inductive Input where
  | tick
  | net (message : NetMessage)
  | ingress (signed : SignedCommand)
  | ingressPrivate (envelope : PrivateEnvelope)

structure Stimulus where
  envs : Nat → Env
  input : Input

def signVote [Ed25519] (identity : PartyIdentity) (vote : Vote) : Vote :=
  if vote.voter = identity.party ∧ vote.signature.isEmpty then
    { vote with signature := identity.signBytes vote.signingBytes }
  else vote

def makeViewChange [Ed25519] (identity : PartyIdentity) (height : Nat) (view : UInt32) :
    ViewChange :=
  let unsigned : ViewChange :=
    { height := height
      view := view
      voter := identity.party
      publicKey := identity.publicKey
      signature := [] }
  { unsigned with signature := identity.signBytes unsigned.signingBytes }

/-- The signature is checked under the key the message itself carries. -/
def verifyViewChange [Ed25519] (change : ViewChange) (vset : ValidatorSet) : Bool :=
  if vset.isValidator change.voter then
    match verifyBytes change.publicKey change.signingBytes change.signature with
    | .ok () => true
    | .error _ => false
  else false

section Building

variable [Ed25519] [Blake3] [SerdeJson]

def heartbeat (identity : PartyIdentity) (nonce : UInt64) (height : Nat) : Command :=
  putCommand identity.party .pub nonce "block-heartbeat" (utf8 ("h" ++ Nat.repr height))

/-- The heartbeat is submitted first, so an own block is never empty. -/
def buildLocalBlock (envs : Nat → Env) (node : Node) (identity : PartyIdentity) (height : Nat) :
    Except NodeError Block × Node :=
  let command := heartbeat identity (node.expectedNonce identity.party) height
  match node.submitSigned (envs 0) (identity.signForChain command node.chainId) with
  | (.error error, node) => (.error error, node)
  | (.ok (), node) => node.assembleBlock (envs 1)

def buildOrReuseBlock (envs : Nat → Env) (node : Node) (identity : PartyIdentity) (height : Nat)
    (machine : RoundMachine) : Except NodeError Block × Node :=
  match machine.ownProposedBlock with
  | some existing => (.ok existing, node)
  | none => buildLocalBlock envs node identity height

end Building

namespace Session

def start (identity : PartyIdentity) (vset : ValidatorSet) (node : Node) : Session :=
  { engine := Engine.start identity vset node
    sent := []
    cast := []
    commits := []
    asked := []
    adopted := []
    executed := [] }

def broadcast (session : Session) (message : NetMessage) : Session :=
  { session with sent := session.sent ++ [message] }

def withNode (session : Session) (node : Node) : Session :=
  { session with engine := { session.engine with node := node } }

def resetHeight (session : Session) : Session :=
  { session with engine := session.engine.resetHeight }

def adoptView (session : Session) (view : UInt32) : Session :=
  if session.engine.view < view then
    { session with
      engine := session.engine.atView view
      adopted := session.adopted ++ [(session.engine.height, view)] }
  else session

/-- A view-change vote is recorded, and a view asked for by a quorum adopted. -/
def recordView (session : Session) (height : Nat) (view : UInt32) (voter : PartyId) : Session :=
  let recorded :=
    session.engine.viewsync.record height view voter session.engine.aurora.validators
  let session := { session with engine := { session.engine with viewsync := recorded.2 } }
  match recorded.1 with
  | some quorum => session.adoptView quorum
  | none => session

section Steps

variable [Ed25519] [Blake3] [SerdeJson] [ChaCha20Poly1305]

/-! ### Actions -/

/-- A block is handed to `commit_block`. -/
def execute (env : Env) (session : Session) (block : Block) : Session :=
  { session.withNode (session.engine.node.commitBlock env block).2 with
    executed := session.executed ++ [block] }

/-- `Action::Commit`: the machine's block, if it still has it, is committed. -/
def runCommit (env : Env) (session : Session) (blockHash : Hash) : Session :=
  match session.engine.machine.block blockHash with
  | none => session
  | some block =>
      let executed := session.execute env block
      match (session.engine.node.commitBlock env block).1 with
      | .error _ => executed
      | .ok _ => (executed.broadcast (.block executed.engine.node.head)).resetHeight

def runAction (env : Env) (session : Session) : Action → Session
  | .broadcast (.proposal round block) => session.broadcast (.proposal round block)
  | .broadcast (.vote vote) => session.broadcast (.vote (signVote session.engine.identity vote))
  | .commit blockHash => session.runCommit env blockHash
  | .none => session

def runActions (envs : Nat → Env) : List Action → Session → Session
  | [], session => session
  | action :: rest, session =>
      runActions (fun index => envs (index + 1)) rest (session.runAction (envs 0) action)

/-- The engine takes over what a handler of the machine ended with. -/
def absorb (session : Session) (turn : Turn) : Session :=
  { session with
    engine := { session.engine with
      machine := turn.machine
      aurora := turn.aurora }
    cast := session.cast ++ votesIn turn.actions
    commits := session.commits ++
      (commitsIn turn.actions).map fun blockHash => (turn.machine.height, blockHash) }

def follow (envs : Nat → Env) (session : Session) (turn : Turn) : Session :=
  runActions envs turn.actions (session.absorb turn)

/-! ### Ticks -/

/-- The first half of `on_tick`: catch up with the head, or count towards the view
timeout and ask for the next view. -/
def timeout (session : Session) : Session :=
  let eng := session.engine
  if eng.height ≤ eng.node.head.height then session.resetHeight
  else if eng.machine.phase ≠ .committed then
    if viewTimeoutTicks ≤ eng.staleTicks + 1 then
      let next := eng.view + 1
      let session := { session with
        engine := { eng with staleTicks := 0 }
        asked := session.asked ++ [(eng.height, next)] }
      (session.recordView eng.height next eng.me).broadcast
        (.viewChange (makeViewChange eng.identity eng.height next))
    else { session with engine := { eng with staleTicks := eng.staleTicks + 1 } }
  else session

/-- The second half: the proposer of the view builds or repeats its block. -/
def propose (envs : Nat → Env) (session : Session) : Session :=
  let eng := session.engine
  if eng.aurora.isLocalProposer eng.height eng.view = true ∧ eng.machine.phase ≠ .committed then
    match buildOrReuseBlock envs eng.node eng.identity eng.height eng.machine with
    | (.error _, node) => session.withNode node
    | (.ok block, node) =>
        (session.withNode node).follow (fun index => envs (index + 2))
          (eng.machine.onLocalProposal eng.aurora block eng.me)
  else session

/-- Own votes of the current round are repeated on every tick. -/
def rebroadcast (session : Session) : Session :=
  { session with
    sent := session.sent ++ session.engine.machine.myVotes.map fun vote =>
      .vote (signVote session.engine.identity vote) }

def onTick (envs : Nat → Env) (session : Session) : Session :=
  ((session.timeout).propose envs).rebroadcast

/-! ### Intake and evidence -/

/-- A slash command of the engine's own: submitted, and gossiped when admitted. -/
def submitSlash (env : Env) (session : Session) (command : StakingCommand) : Session :=
  let eng := session.engine
  let signed := eng.identity.signForChain
    (stakingCommand eng.me .pub (eng.node.expectedNonce eng.identity.party) eng.height command)
    eng.node.chainId
  match eng.node.submitSigned env signed with
  | (.error _, node) => session.withNode node
  | (.ok (), node) => (session.withNode node).broadcast (.command signed)

def submitPrivateSlash (env : Env) (session : Session) (proof : EquivocationProof) : Session :=
  session.submitSlash env (.slash proof)

def submitQuorumSlash (env : Env) (session : Session) (proof : QuorumFraudProof) : Session :=
  session.submitSlash env (.slashQuorum proof)

def submitQuorumSlashes (envs : Nat → Env) : List QuorumFraudProof → Session → Session
  | [], session => session
  | proof :: rest, session =>
      submitQuorumSlashes (fun index => envs (index + 1)) rest
        (session.submitQuorumSlash (envs 0) proof)

def detectEquivocation (env : Env) (session : Session) (vote : Vote) : Session :=
  match session.engine.aurora.validators.get vote.voter with
  | none => session
  | some validator =>
      let observed := session.engine.slashWatch.observe vote validator.publicKey
      let session := { session with engine := { session.engine with slashWatch := observed.2 } }
      match observed.1 with
      | none => session
      | some proof => session.submitSlash env (.slash proof)

def onCommand (env : Env) (session : Session) (signed : SignedCommand) : Session :=
  session.withNode (session.engine.node.submitSigned env signed).2

def ingress (env : Env) (session : Session) (signed : SignedCommand) : Session :=
  match session.engine.node.submitSigned env signed with
  | (.error _, node) => session.withNode node
  | (.ok (), node) => (session.withNode node).broadcast (.command signed)

def attest (session : Session) : Option RootAttestation → Session
  | none => session
  | some attestation => session.broadcast (.privateRoot attestation)

section Private

variable [X25519]

def ingressPrivate (env : Env) (session : Session) (envelope : PrivateEnvelope) : Session :=
  match session.engine.node.applyPrivateEnvelope env envelope with
  | (.error _, node) => session.withNode node
  | (.ok outcome, node) =>
      ((session.withNode node).broadcast (.privateEnvelope envelope)).attest outcome.attestation

def onPrivate (env : Env) (session : Session) (envelope : PrivateEnvelope) : Session :=
  match session.engine.node.applyPrivateEnvelope env envelope with
  | (.error _, node) => session.withNode node
  | (.ok outcome, node) =>
      if outcome.executed then (session.withNode node).attest outcome.attestation
      else session.withNode node

end Private

/-- A stakeholder that signed a second root is reported with both. -/
def reportDivergence (env : Env) (session : Session) (attestation : RootAttestation) : Session :=
  match session.engine.node.privateDivergenceProof attestation with
  | some proof => session.submitPrivateSlash env proof
  | none => session

/-- A stakeholder's signed root is recorded; behind a divergence the minority
signers are reported. -/
def onPrivateRoot (envs : Nat → Env) (session : Session) (attestation : RootAttestation) :
    Session :=
  let session := session.reportDivergence (envs 0) attestation
  let recorded := session.engine.node.recordAttestation attestation
  let session := session.withNode recorded.2
  match recorded.1 with
  | .divergence _ _ =>
      submitQuorumSlashes (fun index => envs (index + 1))
        (session.engine.node.privateQuorumFraudProofs attestation.commitment) session
  | _ => session

/-! ### Blocks from peers -/

/-- The checks in front of `commit_block` in `accept_external_block`. -/
def reachesCommit (node : Node) (block : Block) : Bool :=
  decide (block.parent = node.head.hash ∧ block.height = node.head.height + 1) &&
    !(node.blocks.any fun known => known.hash = block.hash)

/-- `accept_external_block(..).unwrap_or(false)`. -/
def acceptExternal (env : Env) (session : Session) (block : Block) : Bool × Session :=
  let accepted := session.engine.node.acceptExternalBlock env block
  let session := { session.withNode accepted.2 with
    executed :=
      if reachesCommit session.engine.node block then session.executed ++ [block]
      else session.executed }
  match accepted.1 with
  | .error _ => (false, session)
  | .ok applied => (applied, session)

def acceptAll (envs : Nat → Env) : List Block → Nat → Session → Nat × Session
  | [], applied, session => (applied, session)
  | block :: rest, applied, session =>
      let accepted := session.acceptExternal (envs 0) block
      acceptAll (fun index => envs (index + 1)) rest
        (if accepted.1 then applied + 1 else applied) accepted.2

def onBlock (env : Env) (session : Session) (block : Block) : Session :=
  let ourHead := session.engine.node.head.height
  if ourHead + 1 < block.height then session.broadcast (.requestBlocks (ourHead + 1))
  else
    match session.acceptExternal env block with
    | (true, session) => session.resetHeight
    | (false, session) => session

def onBlocks (envs : Nat → Env) (session : Session) (blocks : List Block) : Session :=
  match session.acceptAll envs blocks 0 with
  | (0, session) => session
  | (_ + 1, session) => session.resetHeight

def onRequestBlocks (session : Session) (fromHeight : Nat) : Session :=
  let blocks := session.engine.node.blocksFrom fromHeight 256
  if blocks.isEmpty then session else session.broadcast (.blocks blocks)

/-! ### Consensus messages -/

def onProposal (envs : Nat → Env) (session : Session) (block : Block) : Session :=
  let eng := session.engine
  session.follow envs (eng.machine.onProposal eng.aurora block eng.me eng.node.head.hash)

def onVote (envs : Nat → Env) (session : Session) (vote : Vote) : Session :=
  let session := session.detectEquivocation (envs 0) vote
  let eng := session.engine
  session.follow (fun index => envs (index + 1)) (eng.machine.onVote eng.aurora vote eng.me)

def onViewChange (session : Session) (change : ViewChange) : Session :=
  if verifyViewChange change session.engine.aurora.validators then
    session.recordView change.height change.view change.voter
  else session

variable [X25519]

def handleMessage (envs : Nat → Env) (session : Session) : NetMessage → Session
  | .hello _ _ => session
  | .command signed => session.onCommand (envs 0) signed
  | .proposal _ block => session.onProposal envs block
  | .vote vote => session.onVote envs vote
  | .block block => session.onBlock (envs 0) block
  | .requestBlocks fromHeight => session.onRequestBlocks fromHeight
  | .blocks blocks => session.onBlocks envs blocks
  | .viewChange change => session.onViewChange change
  | .privateEnvelope envelope => session.onPrivate (envs 0) envelope
  | .privateRoot attestation => session.onPrivateRoot envs attestation

/-- One turn of the loop's `select!`. -/
def handle (session : Session) (stimulus : Stimulus) : Session :=
  match stimulus.input with
  | .tick => session.onTick stimulus.envs
  | .net message => session.handleMessage stimulus.envs message
  | .ingress signed => session.ingress (stimulus.envs 0) signed
  | .ingressPrivate envelope => session.ingressPrivate (stimulus.envs 0) envelope

end Steps

end Session

end Veilux
