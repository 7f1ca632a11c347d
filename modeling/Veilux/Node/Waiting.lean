/-
Commands that wait for a block across restarts.  Beside the process runs the list of what was
accepted and neither came into a block nor was dropped by an assembly; a start brings it back
exactly where the configured chain id is the one that `with_store` restores under.
-/

import Veilux.Node.PendingLog
import Veilux.Prism.NativeToken

namespace Veilux

namespace Node

section Waiting

variable [SerdeJson] [Blake3] [Ed25519]

def accepts (node : Node) (env : Env) (signed : SignedCommand) : List SignedCommand :=
  match (node.submitSigned env signed).1 with
  | .ok () => [signed]
  | .error _ => []

omit [Ed25519] in
/-- What the assembly of a production drops. -/
def drops (node : Node) (env : Env) : List Command :=
  if node.mempool.isEmpty then [] else (node.assembly env).rejected

/-- What a request gets accepted. -/
def Request.accepted (node : Node) : Request → List SignedCommand
  | .call (.submit env signed) => node.accepts env signed
  | .submit env _ _ signed => node.accepts env signed
  | _ => []

/-- What the assemblies of a request drop. -/
def Request.dropped (node : Node) : Request → List Command
  | .call (.produce env _) => node.drops env
  | .submit env assembling _ signed =>
      match node.submitSigned env signed with
      | (.ok (), after) => after.drops assembling
      | (.error _, _) => []
  | _ => []

omit [SerdeJson] [Blake3] [Ed25519] in
/-- The commands of the blocks by which a chain has grown. -/
def included (node after : Node) : List Command :=
  (after.blocks.drop node.blocks.length).flatMap Block.commands

omit [SerdeJson] [Ed25519] in
/-- A list without the commands that are named. -/
def without (waiting : List SignedCommand) (commands : List Command) : List SignedCommand :=
  waiting.filter fun signed => !(commands.map Command.id).contains signed.command.id

variable [ChaCha20Poly1305] [X25519] [Keccak256] [Secp256k1] [Evm]

/-- The waiting list behind a request. -/
def waits (node : Node) (waiting : List SignedCommand) (request : Request) : List SignedCommand :=
  without (waiting ++ request.accepted node)
    (request.dropped node ++ node.included (served node request))

end Waiting

end Node

namespace Node

section Leaving

variable [SerdeJson] [Blake3] [Ed25519] {node after : Node} {directory : Directory} {env : Env}

omit [SerdeJson] [Ed25519] in
theorem without_nil (waiting : List SignedCommand) : without waiting [] = waiting :=
  List.filter_eq_self.mpr fun _ _ => rfl

omit [SerdeJson] [Ed25519] in
theorem without_without (waiting : List SignedCommand) (first second : List Command) :
    without (without waiting first) second = without waiting (first ++ second) := by
  unfold without
  rw [List.filter_filter]
  congr 1
  funext signed
  rw [List.map_append, List.contains_eq_mem, List.contains_eq_mem, List.contains_eq_mem,
    decide_eq_decide.mpr List.mem_append, Bool.decide_or, Bool.not_or, Bool.and_comm]

omit [SerdeJson] [Ed25519] in
theorem without_listed {log : List SignedCommand}
    (listed : log.map SignedCommand.command = node.mempool) (commands : List Command) :
    (node.withoutCommands commands).mempool =
      (without log commands).map SignedCommand.command := by
  change node.mempool.filter (fun command => !(commands.map Command.id).contains command.id) = _
  rw [← listed, List.filter_map]
  rfl

omit [SerdeJson] [Ed25519] in
/-- What assembly and commit leave in the log. -/
theorem pruned_listed (listed : directory.pending.map SignedCommand.command = node.mempool)
    (commands : List Command) :
    (directory.pruned (node.withoutCommands commands).mempool).pending =
      without directory.pending commands := by
  unfold Directory.pruned
  rw [without_listed listed, List.map_map]
  exact @Kept.filter_keys_left _ _ _ (fun signed : SignedCommand => signed.command.id)
    directory.pending fun id => (commands.map Command.id).contains id

/-- Behind a request the log lists the mempool, and is the one before it with what was admitted
and without what was removed. -/
def Leaves (directory : Directory) (admitted : List SignedCommand) (removed : List Command)
    (after : Node) : Prop :=
  ∃ kept, Filed after kept ∧ kept.pending.map SignedCommand.command = after.mempool ∧
    kept.pending = without (directory.pending ++ admitted) removed

omit [SerdeJson] [Ed25519] in
theorem Leaves.none (filed : Filed after directory)
    (listed : directory.pending.map SignedCommand.command = after.mempool) :
    Leaves directory [] [] after :=
  ⟨directory, filed, listed, by rw [List.append_nil, without_nil]⟩

omit [SerdeJson] [Blake3] [Ed25519] in
theorem included_self (node : Node) : node.included node = [] := by
  unfold included
  rw [List.drop_length]
  rfl

omit [SerdeJson] [Blake3] [Ed25519] in
theorem included_snoc {block : Block} (grown : after.blocks = node.blocks ++ [block]) :
    node.included after = block.commands := by
  unfold included
  rw [grown, List.drop_left, List.flatMap_singleton]

omit [SerdeJson] in
theorem submitSigned_leaves (healthy : ∀ op, env.io op = none) (filed : Filed node directory)
    (listed : directory.pending.map SignedCommand.command = node.mempool)
    (signed : SignedCommand) :
    Leaves directory (node.accepts env signed) [] (node.submitSigned env signed).2 ∧
      (node.submitSigned env signed).2.blocks = node.blocks := by
  unfold accepts
  by_cases accepted : Accepted node signed
  · rw [submitSigned_admits healthy filed.store accepted]
    refine ⟨⟨{ directory with pending := directory.pending ++ [signed] }, ⟨rfl, filed.chain⟩,
      ?_, ?_⟩, rfl⟩
    · dsimp only
      rw [List.map_append, listed]
      rfl
    · rw [without_nil]
  · have taken := ingestSigned_taken env node signed true
    unfold submitSigned
    generalize node.ingestSigned env signed true = result at taken
    cases taken with
    | unauthenticated error failed => exact ⟨Leaves.none filed listed, rfl⟩
    | foreign error failed => exact ⟨Leaves.none filed listed, rfl⟩
    | unacceptable error authenticated owns failed =>
        exact ⟨Leaves.none ⟨filed.store, filed.chain⟩ listed, rfl⟩
    | accepted passed => exact absurd passed accepted

omit [Ed25519] in
theorem assembleBlock_leaves (healthy : ∀ op, env.io op = none) (filed : Filed node directory)
    (listed : directory.pending.map SignedCommand.command = node.mempool) :
    Leaves directory [] (node.assembly env).rejected (node.assembleBlock env).2 ∧
      (node.assembleBlock env).2.blocks = node.blocks := by
  rw [assembleBlock_directory healthy filed.store]
  dsimp only
  by_cases none : (node.assembly env).rejected.isEmpty = true
  · rw [if_pos none, List.isEmpty_iff.mp none]
    exact ⟨Leaves.none filed listed, rfl⟩
  · rw [if_neg none]
    have left := pruned_listed listed (node.assembly env).rejected
    refine ⟨⟨_, ⟨rfl, filed.chain⟩, ?_, ?_⟩, rfl⟩
    · rw [left]
      exact (without_listed listed _).symm
    · rw [left, List.append_nil]

variable [ChaCha20Poly1305]

omit [Ed25519] in
theorem commitBlock_leaves (healthy : ∀ op, env.io op = none) (filed : Filed node directory)
    (listed : directory.pending.map SignedCommand.command = node.mempool) (block : Block) :
    Leaves directory [] (node.included (node.commitBlock env block).2)
      (node.commitBlock env block).2 := by
  rcases commitBlock_directory healthy filed.store block with
    ⟨error, ledgers, refused⟩ | ⟨summary, events, state, ledgers, verified, appended⟩
  · have same : node.included { node with subLedgers := ledgers } = [] := included_self node
    rw [refused]
    dsimp only
    rw [same]
    exact Leaves.none ⟨filed.store, filed.chain⟩ listed
  · rw [appended, included_snoc rfl]
    have left := pruned_listed listed block.commands
    refine ⟨_, ⟨rfl, filed.snoc { block with events := events }⟩, ?_, ?_⟩
    · exact (congrArg (List.map SignedCommand.command) left).trans (without_listed listed _).symm
    · rw [List.append_nil]
      exact left

omit [Ed25519] in
/-- Assembly and commit, one after the other. -/
theorem produceBlock_leaves {later : Env} (healthy : ∀ op, env.io op = none)
    (still : ∀ op, later.io op = none) (filed : Filed node directory)
    (listed : directory.pending.map SignedCommand.command = node.mempool) :
    Leaves directory [] (node.drops env ++ node.included (node.produceBlock env later).2)
      (node.produceBlock env later).2 := by
  unfold produceBlock drops
  by_cases none : node.mempool.isEmpty = true
  · rw [if_pos none, if_pos none, included_self]
    exact Leaves.none filed listed
  · have assembled : (node.assembleBlock env).1 = .ok (node.assembledBlock env) := by
      rw [assembleBlock_directory healthy filed.store]
    obtain ⟨⟨midway, filed, listed, first⟩, blocks⟩ := assembleBlock_leaves healthy filed listed
    rw [if_neg none, if_neg none]
    generalize node.assembleBlock env = result at assembled filed listed blocks
    obtain ⟨outcome, after⟩ := result
    cases assembled
    dsimp only at blocks filed listed ⊢
    obtain ⟨kept, filedAfter, listedAfter, second⟩ :=
      commitBlock_leaves still filed listed (node.assembledBlock env)
    have included : node.included (after.commitBlock later (node.assembledBlock env)).2 =
        after.included (after.commitBlock later (node.assembledBlock env)).2 := by
      unfold Node.included
      rw [blocks]
    refine ⟨kept, filedAfter, listedAfter, ?_⟩
    rw [second, first, List.append_nil, List.append_nil, without_without, included]

variable [X25519] [Keccak256] [Secp256k1] [Evm]

omit [SerdeJson] [Ed25519] [X25519] [Keccak256] [Secp256k1] [Evm] [ChaCha20Poly1305] in
/-- A request that keeps queue and log, and whose blocks have no commands. -/
theorem Leaves.quiet {kept : Directory} (filed : Filed after kept)
    (listed : directory.pending.map SignedCommand.command = node.mempool)
    (mempool : after.mempool = node.mempool) (pending : kept.pending = directory.pending)
    (plain : node.included after = []) :
    Leaves directory [] ([] ++ node.included after) after := by
  refine ⟨kept, filed, ?_, ?_⟩
  · rw [pending, mempool]
    exact listed
  · rw [plain, List.append_nil, List.append_nil, without_nil]
    exact pending

theorem served_leaves {request : Request} (healthy : request.Healthy) (filed : Filed node directory)
    (listed : directory.pending.map SignedCommand.command = node.mempool) :
    Leaves directory (request.accepted node)
      (request.dropped node ++ node.included (served node request)) (served node request) := by
  cases request with
  | call call =>
      cases call with
      | submit env signed =>
          obtain ⟨leaves, blocks⟩ :=
            submitSigned_leaves (healthy env List.mem_cons_self) filed listed signed
          have none : node.included (node.submitSigned env signed).2 = [] := by
            unfold included
            rw [blocks, List.drop_length]
            rfl
          change Leaves directory (node.accepts env signed)
            ([] ++ node.included (node.submitSigned env signed).2) (node.submitSigned env signed).2
          rw [none]
          exact leaves
      | produce env later =>
          have works := healthy env List.mem_cons_self
          have still := healthy later (List.mem_cons_of_mem _ List.mem_cons_self)
          exact produceBlock_leaves works still filed listed
      | commit env block =>
          exact commitBlock_leaves (healthy env List.mem_cons_self) filed listed block
      | accept env block =>
          have works := healthy env List.mem_cons_self
          change Leaves directory []
            ([] ++ node.included (node.acceptExternalBlock env block).2)
            (node.acceptExternalBlock env block).2
          rcases acceptExternalBlock_cases env node block with ignored | ⟨committed, _⟩
          · rw [ignored, included_self]
            exact Leaves.none filed listed
          · rw [committed]
            exact commitBlock_leaves works filed listed block
      | ethApply env raw =>
          have works := healthy env List.mem_cons_self
          change Leaves directory [] ([] ++ node.included (node.ethApplyRaw env raw).2)
            (node.ethApplyRaw env raw).2
          rcases ethApplyRaw_directory works filed.store raw with refused | ⟨tx, run, _, sealed⟩
          · rw [refused]
            exact Leaves.quiet filed listed rfl rfl (included_self node)
          · rw [sealed]
            dsimp only
            refine Leaves.quiet ⟨rfl, filed.snoc _⟩ listed (?_ : _ = node.mempool) rfl ?_
            · rfl
            · change ((node.blocks ++ [_]).drop node.blocks.length).flatMap Block.commands = []
              rw [List.drop_left, List.flatMap_singleton]
              rfl
  | submit env assembling later signed =>
      have works := healthy env List.mem_cons_self
      have midway := healthy assembling (List.mem_cons_of_mem _ List.mem_cons_self)
      have still := healthy later
        (List.mem_cons_of_mem _ (List.mem_cons_of_mem _ List.mem_cons_self))
      obtain ⟨⟨kept, filedAfter, listedAfter, first⟩, blocks⟩ :=
        submitSigned_leaves works filed listed signed
      change Leaves directory (node.accepts env signed)
        (Request.dropped node (.submit env assembling later signed) ++
          node.included (node.rpcSubmit env assembling later signed).2)
        (node.rpcSubmit env assembling later signed).2
      unfold rpcSubmit Request.dropped
      dsimp only
      generalize node.submitSigned env signed = result at filedAfter listedAfter blocks
      obtain ⟨outcome, after⟩ := result
      dsimp only at filedAfter listedAfter blocks
      cases outcome with
      | error error =>
          have none : node.included after = [] := by
            unfold included
            rw [blocks, List.drop_length]
            rfl
          dsimp only
          rw [none]
          exact ⟨kept, filedAfter, listedAfter, first⟩
      | ok done =>
          obtain ⟨last, filedLast, listedLast, second⟩ :=
            produceBlock_leaves midway still filedAfter listedAfter
          have included : node.included (after.produceBlock assembling later).2 =
              after.included (after.produceBlock assembling later).2 := by
            unfold Node.included
            rw [blocks]
          refine ⟨last, filedLast, listedLast, ?_⟩
          dsimp only
          rw [second, first, List.append_nil, without_without, included]
          rfl
  | submitPrivate env envelope =>
      have works := healthy env List.mem_cons_self
      obtain ⟨privateState, commitments, envelopes, attestations, files, held, applied⟩ :=
        applyPrivateEnvelope_directory works filed.store envelope
      change Leaves directory [] ([] ++ node.included (node.applyPrivateEnvelope env envelope).2)
        (node.applyPrivateEnvelope env envelope).2
      rw [applied]
      exact Leaves.quiet ⟨rfl, filed.chain⟩ listed rfl rfl (included_self node)
  | contractVerify request =>
      change Leaves directory [] ([] ++ node.included (node.contractVerify request).2)
        (node.contractVerify request).2
      unfold contractVerify
      dsimp only
      split
      · exact Leaves.quiet filed listed rfl rfl (included_self node)
      · split
        · exact Leaves.quiet filed listed rfl rfl (included_self node)
        · exact Leaves.quiet ⟨filed.store, filed.chain⟩ listed rfl rfl (included_self node)

end Leaving

/-! ### Starting again -/

/-- What a stopped process leaves: a log that can be restored, signed for the configured chain. -/
structure Stored [Ed25519] (config : ValidatorConfig) (directory : Directory) : Prop where
  whole : directory.chain = [] → directory = Directory.empty
  chain : ∀ signed ∈ directory.pending, signed.chainId = config.chainId
  tracked : ∃ node, Tracked node directory.pending ∧ node.limits = Limits.default ∧
    node.cascade = config.cascade

/-- A running process over such a directory. -/
structure Running [Ed25519] (config : ValidatorConfig) (node : Node) (directory : Directory) :
    Prop where
  filed : Filed node directory
  tracked : Tracked node directory.pending
  limits : node.limits = Limits.default
  cascade : node.cascade = config.cascade
  chainId : node.chainId = config.chainId
  chain : ∀ signed ∈ directory.pending, signed.chainId = config.chainId

section Restarting

variable [Ed25519] {config : ValidatorConfig} {node : Node} {directory : Directory} {env : Env}

theorem Running.stored (running : Running config node directory) : Stored config directory := by
  refine ⟨fun none => ?_, running.chain, node, running.tracked, running.limits, running.cascade⟩
  have nonempty := node.nonempty
  rw [← running.filed.chain, none] at nonempty
  exact absurd rfl nonempty

/-- What a start takes back of a log. -/
def takenBack (config : ValidatorConfig) (log : List SignedCommand) : List SignedCommand :=
  if config.chainId = 0 then log else []

variable [Blake3]

theorem Stored.restored (stored : Stored config directory) (env : Env) :
    Tracked (restored env config directory) (takenBack config directory.pending) ∧
      (directory.founded.pruned (Node.restored env config directory).mempool).pending =
        takenBack config directory.pending := by
  obtain ⟨node, tracked, limits, cascade⟩ := stored.tracked
  have blank : Blank config.cascade
      (loaded ⟨config.name⟩ config.cascade directory.founded directory.founded_nonempty) :=
    ⟨rfl, fun _ => rfl, fun _ => rfl, rfl, rfl, rfl⟩
  have restorable := tracked.restorable (blank.limits.trans limits.symm)
    (blank.cascade.trans cascade.symm) blank.nonces blank.accounts blank.mempool
  have back := restorable.reingest env
  obtain ⟨taken, fewer, kept⟩ := blank.tracked.reingest env fun signed member =>
    (tracked.entries signed member).nonce
  have listed := kept.listed
  rw [List.nil_append] at kept listed
  rw [blank.mempool, blank.chainId, List.nil_append, ← listed] at back
  unfold Node.restored Directory.pruned
  dsimp only
  rw [directory.founded_pending, ← listed]
  unfold takenBack
  by_cases zero : config.chainId = 0
  · have all : (directory.pending.filter fun signed => signed.chainId = 0) = directory.pending :=
      List.filter_eq_self.mpr fun signed member =>
        decide_eq_true ((stored.chain signed member).trans zero)
    have lengths := congrArg List.length back
    rw [all, List.length_map, List.length_map] at lengths
    have whole := fewer.eq_of_length lengths
    rw [whole] at kept
    rw [if_pos zero, whole]
    refine ⟨kept, List.filter_eq_self.mpr fun signed member => ?_⟩
    rw [List.contains_iff_mem, List.map_map]
    exact List.mem_map_of_mem member
  · have none : (directory.pending.filter fun signed => signed.chainId = 0) = [] :=
      List.filter_eq_nil_iff.mpr fun signed member zeroed =>
        zero ((stored.chain signed member).symm.trans (of_decide_eq_true zeroed))
    rw [none] at back
    have empty : taken = [] := List.map_eq_nil_iff.mp back
    rw [empty] at kept
    rw [if_neg zero, empty]
    exact ⟨kept, List.filter_eq_nil_iff.mpr fun _ _ => Bool.false_ne_true⟩

variable [SerdeJson]

/-- A start on what a stopped process left comes up, or leaves a directory of the same kind. -/
theorem Stored.start (stored : Stored config directory) (healthy : ∀ op, env.io op = none) :
    ∃ kept, kept.pending = takenBack config directory.pending ∧
      ((∃ after, runValidator env config directory.store = .up after ∧ Running config after kept) ∨
        runValidator env config directory.store = .down kept.store ∧ Stored config kept) ∧
      (Seeds config → ∃ after, runValidator env config directory.store = .up after ∧
        Running config after kept) := by
  obtain ⟨tracked, left⟩ := stored.restored env
  obtain ⟨after, kept, prepared, outcome, works, _⟩ :=
    runValidator_prepared healthy config stored.whole
  obtain ⟨accounts, nonces, mempool, same⟩ := restored_eq env config directory
  rw [← left] at tracked
  have pending : kept.pending = takenBack config directory.pending := prepared.pending.trans left
  have chain : ∀ signed ∈ kept.pending, signed.chainId = config.chainId := by
    intro signed member
    rw [pending] at member
    unfold takenBack at member
    split at member
    · exact stored.chain signed member
    · cases member
  have limits : after.limits = Limits.default := by
    rw [prepared.limits, same]
    rfl
  have cascade : after.cascade = config.cascade := by
    rw [prepared.cascade, same]
    rfl
  have running (identified : after.chainId = config.chainId) : Running config after kept :=
    ⟨prepared.filed, tracked.prepared prepared, limits, cascade, identified, chain⟩
  refine ⟨kept, pending, ?_, fun seeds => ?_⟩
  · rcases outcome with ⟨up, identified⟩ | down
    · exact .inl ⟨after, up, running identified⟩
    · refine .inr ⟨down, fun none => ?_, chain, after, tracked.prepared prepared, limits, cascade⟩
      have nonempty := after.nonempty
      rw [← prepared.filed.chain, none] at nonempty
      exact absurd rfl nonempty
  · rcases outcome with ⟨up, identified⟩ | down
    · exact ⟨after, up, running identified⟩
    · rw [works seeds] at down
      cases down

omit [Blake3] [SerdeJson] in
theorem accepts_chain {signed entry : SignedCommand} (member : entry ∈ node.accepts env signed) :
    entry.chainId = node.chainId := by
  unfold accepts submitSigned at member
  have taken := ingestSigned_taken env node signed true
  generalize node.ingestSigned env signed true = result at taken member
  cases taken with
  | unauthenticated error failed => cases member
  | foreign error failed => cases member
  | unacceptable error authenticated owns failed => cases member
  | accepted accepted =>
      split at member
      · rw [List.mem_singleton.mp member]
        exact accepted.authenticated.chain
      · cases member

variable [ChaCha20Poly1305] [X25519] [Keccak256] [Secp256k1] [Evm]

/-- A request leaves in the log what waits behind it. -/
theorem Running.serve {request : Request} (running : Running config node directory)
    (healthy : request.Healthy) (bounded : request.Bounded) :
    ∃ kept, Running config (served node request) kept ∧
      kept.pending = node.waits directory.pending request := by
  have start : Pools node node directory := ⟨running.filed, running.tracked, .refl node⟩
  have proper : (Pooling.serve request).Proper := ⟨healthy, bounded⟩
  obtain ⟨kept, pools⟩ := start.pooled proper
  obtain ⟨other, filed, _, pending⟩ := served_leaves healthy running.filed running.tracked.listed
  have same : kept.pending = other.pending := by
    have stores : kept.store = other.store :=
      Option.some.inj (pools.filed.store.symm.trans filed.store)
    have first := @Directory.loadPending_store _ (.healthy 0) (fun _ => rfl) kept
    rw [stores, @Directory.loadPending_store _ (.healthy 0) (fun _ => rfl) other] at first
    exact (Except.ok.inj first).symm
  refine ⟨kept, ⟨pools.filed, pools.tracked, pools.rules.limits.trans running.limits,
    pools.rules.cascade.trans running.cascade, pools.rules.chainId.trans running.chainId, ?_⟩,
    same.trans pending⟩
  intro signed member
  rw [same, pending] at member
  rcases List.mem_append.mp (List.mem_filter.mp member).1 with earlier | admitted
  · exact running.chain signed earlier
  · rw [← running.chainId]
    cases request with
    | call call =>
        cases call with
        | submit env signed => exact accepts_chain admitted
        | produce env later => cases admitted
        | commit env block => cases admitted
        | accept env block => cases admitted
        | ethApply env raw => cases admitted
    | submit env assembling later signed => exact accepts_chain admitted
    | submitPrivate env envelope => cases admitted
    | contractVerify request => cases admitted

end Restarting

end Node

/-- The disk works, and the nonce of a submission is below the largest one. -/
def Happening.Proper : Happening → Prop
  | .start env => ∀ op, env.io op = none
  | .stop => True
  | .request served => served.Healthy ∧ served.Bounded

/-- A process and what waits in it. -/
structure Watched where
  process : Process
  waiting : List SignedCommand

namespace Watched

section Watching

variable [SerdeJson] [Blake3] [Ed25519] [ChaCha20Poly1305] [X25519] [Keccak256] [Secp256k1] [Evm]

def happen (config : ValidatorConfig) (watched : Watched) (happening : Happening) : Watched :=
  { process := watched.process.happen config happening
    waiting :=
      match watched.process, happening with
      | .up node, .request request => node.waits watched.waiting request
      | _, _ => watched.waiting }

/-- A validator on a new directory. -/
def fresh : Watched :=
  { process := .down Directory.empty.store
    waiting := [] }

/-- When the process is stopped and comes up again, what waits is in the mempool, in its order,
and in the log. -/
def Survives (config : ValidatorConfig) (watched : Watched) : Prop :=
  ∀ env, (∀ op, env.io op = none) → ∀ node,
    (watched.process.happen config .stop).happen config (.start env) = .up node →
      (watched.waiting.map SignedCommand.command).Sublist node.mempool ∧
        ∃ store log, node.store = some store ∧ (∀ later, (∀ op, later.io op = none) →
          store.loadPending later = .ok log) ∧ watched.waiting.Sublist log

/-- The directory is the one of the process. -/
def Keeps (config : ValidatorConfig) (directory : Directory) : Process → Prop
  | .down store => store = directory.store ∧ Node.Stored config directory
  | .up node => Node.Running config node directory

/-- What waits is in the log, for a chain id that a start restores under. -/
def Holds (config : ValidatorConfig) (watched : Watched) : Prop :=
  ∃ directory, (config.chainId = 0 → watched.waiting = directory.pending) ∧
    Keeps config directory watched.process

variable {config : ValidatorConfig} {watched : Watched}

omit [SerdeJson] [Blake3] [ChaCha20Poly1305] [X25519] [Keccak256] [Secp256k1] [Evm] in
theorem holds_fresh : Holds config fresh := by
  refine ⟨Directory.empty, fun _ => rfl, rfl, fun _ => rfl, fun _ member => (List.not_mem_nil member).elim,
    ?_⟩
  exact ⟨Node.new ⟨config.name⟩ config.cascade,
    Node.Blank.tracked ⟨rfl, fun _ => rfl, fun _ => rfl, rfl, rfl, rfl⟩, rfl, rfl⟩

theorem Holds.stopped (holds : Holds config watched) :
    ∃ directory, (config.chainId = 0 → watched.waiting = directory.pending) ∧
      watched.process.happen config .stop = .down directory.store ∧
      Node.Stored config directory := by
  obtain ⟨process, waiting⟩ := watched
  obtain ⟨directory, listed, held⟩ := holds
  cases process with
  | down store =>
      obtain ⟨rfl, stored⟩ := held
      exact ⟨directory, listed, rfl, stored⟩
  | up node =>
      refine ⟨directory, listed, ?_, Node.Running.stored held⟩
      change Process.down (node.store.getD Store.empty) = _
      rw [Node.Running.filed held |>.store]
      rfl

theorem Holds.happen {happening : Happening} (holds : Holds config watched)
    (proper : happening.Proper) : Holds config (watched.happen config happening) := by
  obtain ⟨process, waiting⟩ := watched
  cases process with
  | down store =>
      obtain ⟨directory, listed, rfl, stored⟩ := holds
      cases happening with
      | start env =>
          obtain ⟨kept, pending, outcome, _⟩ := stored.start proper
          have still : config.chainId = 0 → waiting = kept.pending := by
            intro zero
            rw [pending, Node.takenBack, if_pos zero]
            exact listed zero
          refine ⟨kept, still, ?_⟩
          change Keeps config kept (Node.runValidator env config directory.store)
          rcases outcome with ⟨after, up, running⟩ | ⟨down, left⟩
          · rw [up]
            exact running
          · rw [down]
            exact ⟨rfl, left⟩
      | stop => exact ⟨directory, listed, rfl, stored⟩
      | request request => exact ⟨directory, listed, rfl, stored⟩
  | up node =>
      obtain ⟨directory, listed, running⟩ := holds
      cases happening with
      | start env => exact ⟨directory, listed, running⟩
      | stop =>
          refine ⟨directory, listed, ?_, Node.Running.stored running⟩
          rw [Node.Running.filed running |>.store]
          rfl
      | request request =>
          obtain ⟨kept, after, pending⟩ := Node.Running.serve running proper.1 proper.2
          refine ⟨kept, fun zero => ?_, after⟩
          rw [pending, ← listed zero]
          rfl

theorem Holds.run {happenings : List Happening} (holds : Holds config watched)
    (proper : ∀ each ∈ happenings, each.Proper) :
    Holds config (Run.run (Watched.happen config) watched happenings) := by
  induction happenings generalizing watched with
  | nil => exact holds
  | cons happening rest ih =>
      have next := holds.happen (proper happening List.mem_cons_self)
      exact ih next fun each member => proper each (List.mem_cons_of_mem _ member)

/-- A start brings everything back under the chain id zero, and nothing under another one. -/
theorem Holds.survives_iff (holds : Holds config watched) :
    (config.chainId = 0 ∨ watched.waiting = [] → Survives config watched) ∧
      (Node.Seeds config → Survives config watched →
        config.chainId = 0 ∨ watched.waiting = []) := by
  obtain ⟨directory, listed, stopped, stored⟩ := holds.stopped
  unfold Survives
  rw [stopped]
  refine ⟨fun kept env healthy node up => ?_, fun seeds survives => ?_⟩
  · obtain ⟨log, pending, outcome, _⟩ := stored.start healthy
    change Node.runValidator env config directory.store = .up node at up
    rcases outcome with ⟨after, started, running⟩ | ⟨down, _⟩
    · rw [started] at up
      cases up
      have back : watched.waiting.Sublist log.pending := by
        rw [pending, Node.takenBack]
        rcases kept with zero | none
        · rw [if_pos zero, listed zero]
        · rw [none]
          exact List.nil_sublist _
      refine ⟨?_, log.store, log.pending, running.filed.store, fun later still =>
        log.loadPending_store still, back⟩
      rw [← running.tracked.listed]
      exact back.map _
    · rw [down] at up
      cases up
  · by_contra lost
    obtain ⟨other, some⟩ := not_or.mp lost
    have healthy : ∀ op, (Env.healthy 0).io op = none := fun _ => rfl
    obtain ⟨log, pending, _, up⟩ := stored.start healthy
    obtain ⟨after, started, running⟩ := up seeds
    have back := (survives (Env.healthy 0) healthy after started).1
    rw [Node.takenBack, if_neg other] at pending
    rw [← running.tracked.listed, pending, List.map_nil, List.sublist_nil,
      List.map_eq_nil_iff] at back
    exact some back

/-- In every run on a new directory, with disks that work and nonces below the largest one, what
waits survives a restart if the configured chain id is zero or nothing waits; where the genesis
can be seeded, only then. -/
theorem restart_keeps_waiting_iff (config : ValidatorConfig) (happenings : List Happening)
    (proper : ∀ each ∈ happenings, each.Proper) :
    (config.chainId = 0 ∨ (Run.run (Watched.happen config) fresh happenings).waiting = [] →
      Survives config (Run.run (Watched.happen config) fresh happenings)) ∧
    (Node.Seeds config → Survives config (Run.run (Watched.happen config) fresh happenings) →
      config.chainId = 0 ∨ (Run.run (Watched.happen config) fresh happenings).waiting = []) :=
  (holds_fresh.run proper).survives_iff

/-- A new directory, a start, and one submission for the configured chain. -/
def firstSubmission (signed : SignedCommand) : List Happening :=
  [.start (.healthy 10), .request (.call (.submit (.healthy 10) signed))]

omit [SerdeJson] [Blake3] [Ed25519] [ChaCha20Poly1305] [X25519] [Keccak256] [Secp256k1] [Evm] in
theorem firstSubmission_proper {signed : SignedCommand} (nonce : signed.command.nonce = 0) :
    ∀ each ∈ firstSubmission signed, each.Proper := by
  have request : Happening.Proper (.request (.call (.submit (.healthy 10) signed))) := by
    refine ⟨fun env member op => ?_, ?_⟩
    · rw [List.mem_singleton.mp member]
      rfl
    · change signed.command.nonce < Node.maxNonce
      rw [nonce]
      decide
  have start : Happening.Proper (.start (.healthy 10)) := fun _ => rfl
  exact List.forall_mem_cons.mpr ⟨start, List.forall_mem_singleton.mpr request⟩

/-- The command is accepted, and waits. -/
theorem firstSubmission_waits {signed : SignedCommand} (seeds : Node.Seeds config)
    (payload : signed.command.payload = [])
    (name : Node.reserved signed.command.submitter = false)
    (signature : verifySigned signed = .ok ())
    (prism : config.cascade.has signed.command.prism = true)
    (chain : signed.chainId = config.chainId) :
    (Run.run (Watched.happen config) fresh (firstSubmission signed)).waiting = [signed] := by
  have healthy : ∀ op, (Env.healthy 10).io op = none := fun _ => rfl
  obtain ⟨node, kept, prepared, outcome, works, _⟩ :=
    @Node.runValidator_prepared (.healthy 10) Directory.empty _ _ _ healthy config fun _ => rfl
  obtain ⟨accounts, nonces, mempool, same⟩ :=
    Node.restored_eq (.healthy 10) config Directory.empty
  have up := works seeds
  have identified : node.chainId = config.chainId := by
    rcases outcome with ⟨_, identified⟩ | down
    · exact identified
    · rw [up] at down
      cases down
  have untouched : Node.restored (.healthy 10) config Directory.empty =
      Node.loaded ⟨config.name⟩ config.cascade Directory.empty.founded
        Directory.empty.founded_nonempty := rfl
  have accepted : Node.Accepted node signed := by
    refine ⟨⟨?_, name, chain.trans identified.symm, signature⟩, ?_, ⟨?_, ?_, ?_⟩⟩
    · rw [payload]
      exact Nat.zero_le _
    · intro key found
      rw [prepared.accounts, untouched] at found
      cases found
    · rw [prepared.cascade, untouched]
      exact prism
    · unfold Node.expectedNonce
      rw [prepared.nonces, untouched]
      exact UInt64.le_iff_toNat_le.mpr (Nat.zero_le _)
    · rw [prepared.mempool, prepared.limits, untouched]
      change 0 < Limits.default.maxMempool
      decide
  have submitted := Node.submitSigned_admits healthy prepared.filed.store accepted
  have start : fresh.happen config (.start (.healthy 10)) = ⟨.up node, []⟩ := by
    unfold happen fresh Process.happen
    dsimp only
    rw [up]
  unfold firstSubmission
  rw [Run.run_cons, Run.run_cons, Run.run_nil, start]
  change node.waits [] (.call (.submit (.healthy 10) signed)) = [signed]
  unfold Node.waits
  change Node.without ([] ++ node.accepts (.healthy 10) signed)
    ([] ++ node.included (node.submitSigned (.healthy 10) signed).2) = [signed]
  unfold Node.accepts
  rw [submitted]
  exact (congrArg (Node.without [signed]) (Node.included_self node)).trans (Node.without_nil _)

end Watching

section Fixed

attribute [local instance] SerdeJson.compact Blake3.polynomial Ed25519.keyed
  ChaCha20Poly1305.keyed X25519.masked Evm.onesKeccak Evm.blankSha256 Evm.blankRipemd160
  Evm.emptyCurve Evm.noRecovery Evm.interpreter

open Node (aliceSigned poolCascade)

noncomputable def poolConfig (genesis : Option ChainSpec) : ValidatorConfig :=
  { name := "dev-node"
    cascade := poolCascade
    genesis := genesis
    hostParties := [] }

/-- The genesis file's own token can be seeded. -/
theorem seeds_default : Node.Seeds (poolConfig (some .default)) := by
  intro spec known
  obtain rfl : ChainSpec.default = spec := Option.some.inj known
  have absent : StateTree.empty.contains
      (TokenPrism.metaKey TokenPrism.nativeTokenId) = false := by
    rw [StateTree.contains_eq_isSome, StateTree.get_empty]
    rfl
  have empty : TokenPrism.total StateTree.empty TokenPrism.nativeTokenId = 0 := by
    rcases TokenPrism.noTokens_empty.ledger TokenPrism.nativeTokenId with
      ⟨_, sum⟩ | ⟨info, stored, _⟩
    · exact sum
    · rw [StateTree.get_empty] at stored
      cases stored
  obtain ⟨after, seeded, _⟩ := TokenPrism.seedNativeToken_spec "Veilux" "LUX" 18 ⟨"treasury"⟩
    [(⟨"treasury"⟩, Fin.ofNat (2 ^ 128) (1000000000 * 10 ^ 18))] absent empty (by decide)
  refine ⟨after, ?_⟩
  have sown : (TokenPrism.seedNativeToken ChainSpec.default.tokenName
      ChainSpec.default.tokenSymbol ChainSpec.default.tokenDecimals
      ⟨ChainSpec.default.treasury⟩ (ChainSpec.default.allocations.map fun alloc =>
        (⟨alloc.party⟩, Fin.ofNat (2 ^ 128)
          (alloc.amount.toNat * 10 ^ ChainSpec.default.tokenDecimals.toNat)))).run.run
        StateTree.empty = (.ok TokenPrism.nativeTokenId, after) := seeded
  unfold ChainSpec.seed
  dsimp only
  rw [sown]

theorem firstSubmission_alice {genesis : Option ChainSpec} {chainId : UInt64}
    (seeds : Node.Seeds (poolConfig genesis))
    (chain : chainId = (poolConfig genesis).chainId) :
    (Run.run (Watched.happen (poolConfig genesis)) fresh
      (firstSubmission (aliceSigned chainId))).waiting = [aliceSigned chainId] := by
  have reserved : Node.reserved ⟨"alice"⟩ = false := by decide
  have name : Node.reserved (aliceSigned chainId).command.submitter = false := reserved
  have signature : verifySigned (aliceSigned chainId) = .ok () :=
    verifySigned_signForChain _ _ _
  have installed : poolCascade.has "token" = true := by decide
  have prism : (poolConfig genesis).cascade.has (aliceSigned chainId).command.prism = true :=
    installed
  exact firstSubmission_waits seeds rfl name signature prism chain

/-- Without a genesis file alice's command waits, and comes back. -/
theorem restart_keeps_waiting_alice :
    (Run.run (Watched.happen (poolConfig none)) fresh
      (firstSubmission (aliceSigned 0))).waiting = [aliceSigned 0] ∧
    Survives (poolConfig none) (Run.run (Watched.happen (poolConfig none)) fresh
      (firstSubmission (aliceSigned 0))) :=
  ⟨firstSubmission_alice nofun rfl,
    (restart_keeps_waiting_iff (poolConfig none) (firstSubmission (aliceSigned 0))
      (firstSubmission_proper rfl)).1 (.inl rfl)⟩

/-- Under the genesis file's default chain id it is lost. -/
theorem waiting_command_lost :
    (Run.run (Watched.happen (poolConfig (some .default))) fresh
      (firstSubmission (aliceSigned 1))).waiting = [aliceSigned 1] ∧
    ¬ Survives (poolConfig (some .default)) (Run.run
      (Watched.happen (poolConfig (some .default))) fresh (firstSubmission (aliceSigned 1))) := by
  have waits := @firstSubmission_alice (some ChainSpec.default) 1 seeds_default rfl
  refine ⟨waits, fun survives => ?_⟩
  have holds := (@holds_fresh _ (poolConfig (some .default))).run
    (firstSubmission_proper (rfl : (aliceSigned 1).command.nonce = 0))
  rcases holds.survives_iff.2 seeds_default survives with zero | none
  · exact absurd zero (by decide)
  · rw [waits] at none
    cases none

end Fixed

end Watched

end Veilux
