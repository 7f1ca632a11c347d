/-
The staking prism as a whole against its books: the checks of slashing evidence as
pure functions, the dispatch, and runs of accepted commands.
-/

import Veilux.Lib.Run
import Veilux.Prism.StakingBooks

namespace Veilux

namespace StakingPrism

open Mirror PrismM

/-! ### Evidence -/

section Evidence

/-- The bytes of a hexadecimal field. -/
def hexOf (text : String) : Option (List UInt8) := Bytes.hexDecode (Bytes.trimHex text.toList)

variable {state after : StateTree}

theorem accepts_decodeHex {text error : String} {bytes : List UInt8} :
    Accepts (decodeHex text error) state bytes after ↔ hexOf text = some bytes ∧ after = state := by
  unfold decodeHex hexOf
  cases found : Bytes.hexDecode (Bytes.trimHex text.toList) with
  | none =>
      constructor
      · intro accepted
        exact absurd accepted accepts_throw
      · rintro ⟨impossible, _⟩
        cases impossible
  | some decoded =>
      constructor
      · intro accepted
        obtain ⟨rfl, rfl⟩ := accepts_pure.mp accepted
        exact ⟨rfl, rfl⟩
      · rintro ⟨same, rfl⟩
        exact accepts_pure.mpr ⟨Option.some.inj same, rfl⟩

variable [Ed25519]

/-- Whether a signature checks out. -/
def verifies (publicKey message signature : List UInt8) : Bool :=
  match verifyBytes publicKey message signature with
  | .ok () => true
  | .error _ => false

theorem accepts_requireSignature {publicKey message signature : List UInt8} {error : String}
    {result : Unit} :
    Accepts (requireSignature publicKey message signature error) state result after ↔
      verifies publicKey message signature = true ∧ after = state := by
  unfold requireSignature verifies
  cases verifyBytes publicKey message signature with
  | error failed =>
      constructor
      · intro accepted
        exact absurd accepted accepts_throw
      · rintro ⟨impossible, _⟩
        cases impossible
  | ok checked =>
      constructor
      · intro accepted
        exact ⟨rfl, (accepts_pure.mp accepted).2.symm⟩
      · rintro ⟨_, rfl⟩
        exact accepts_pure.mpr ⟨rfl, rfl⟩

/-- The root that a stakeholder's statement signs, when the statement checks out. -/
def attested (envelope : PrivateEnvelope) (statement : AttestationStatement) : Option Hash := do
  guard (statement.party ∈ envelope.stakeholders)
  let root ← exactly 32 (← hexOf statement.root)
  let publicKey ← hexOf statement.publicKey
  let signature ← hexOf statement.signature
  guard (verifies publicKey (attestationMessage envelope.commitment ⟨root⟩ statement.party)
    signature)
  return ⟨root⟩

theorem attested_eq_some {envelope : PrivateEnvelope} {statement : AttestationStatement}
    {root : Hash} :
    attested envelope statement = some root ↔
      statement.party ∈ envelope.stakeholders ∧
      (∃ bytes, hexOf statement.root = some bytes ∧ exactly 32 bytes = some root.bytes) ∧
      ∃ publicKey signature, hexOf statement.publicKey = some publicKey ∧
        hexOf statement.signature = some signature ∧
        verifies publicKey (attestationMessage envelope.commitment root statement.party)
          signature = true := by
  simp only [attested, Option.bind_eq_bind, Option.bind_eq_some_iff, Option.guard_eq_some']
  constructor
  · rintro ⟨_, member, bytes, decoded, content, sized, publicKey, keyRead, signature, signatureRead,
      _, verified, same⟩
    cases same
    exact ⟨member, ⟨bytes, decoded, sized⟩, publicKey, signature, keyRead, signatureRead, verified⟩
  · rintro ⟨member, ⟨bytes, decoded, sized⟩, publicKey, signature, keyRead, signatureRead, verified⟩
    exact ⟨(), member, bytes, decoded, root.bytes, sized, publicKey, keyRead, signature,
      signatureRead, (), verified, rfl⟩

theorem accepts_verifyStmt {envelope : PrivateEnvelope} {statement : AttestationStatement}
    {result : Unit} :
    Accepts (verifyStmt envelope statement) state result after ↔
      (∃ root, attested envelope statement = some root) ∧ after = state := by
  simp only [verifyStmt, attested_eq_some, accepts_ite, accepts_bind, accepts_throw,
    accepts_decodeHex]
  constructor
  · rintro (⟨_, _, _, impossible, _⟩ | ⟨member, rootBytes, _, ⟨decoded, rfl⟩, checked⟩)
    · cases impossible
    · cases sized : exactly 32 rootBytes with
      | none =>
          simp only [sized, accepts_throw] at checked
      | some root =>
          simp only [sized, accepts_bind, accepts_decodeHex, accepts_requireSignature] at checked
          obtain ⟨publicKey, _, ⟨keyRead, rfl⟩, signature, _, ⟨signatureRead, rfl⟩, verified, rfl⟩ :=
            checked
          refine ⟨⟨⟨root⟩, ?_, ⟨rootBytes, decoded, sized⟩, publicKey, signature, keyRead,
            signatureRead, verified⟩, rfl⟩
          exact List.contains_iff_mem.mp (not_not.mp member)
  · rintro ⟨⟨root, member, ⟨bytes, decoded, sized⟩, publicKey, signature, keyRead, signatureRead,
      verified⟩, rfl⟩
    refine .inr ⟨not_not_intro (List.contains_iff_mem.mpr member), bytes, _, ⟨decoded, rfl⟩, ?_⟩
    simp only [sized, accepts_bind, accepts_decodeHex, accepts_requireSignature]
    exact ⟨publicKey, _, ⟨keyRead, rfl⟩, signature, _, ⟨signatureRead, rfl⟩, verified, rfl⟩

/-- The text of the root that the majority statements agree on: every statement
checks out, the parties are pairwise different and none is the offender. -/
def majorityRoot (envelope : PrivateEnvelope) (offender : PartyId) :
    List AttestationStatement → List PartyId → Option String → Option (Option String)
  | [], _, canonical => some canonical
  | statement :: rest, seen, canonical =>
      if (attested envelope statement).isSome ∧ statement.party ∉ seen ∧
          statement.party ≠ offender ∧ ∀ root ∈ canonical, root = statement.root then
        majorityRoot envelope offender rest (seen ++ [statement.party]) (some statement.root)
      else none

omit [Ed25519] in
/-- The root of the first statement is the one of all others. -/
theorem accepts_agreed {result : Option String} {next : Option String → PrismM (Option String)}
    {canonical : Option String} {root : String} :
    Accepts (match canonical with
      | none => next (some root)
      | some known =>
          if known ≠ root then do
            throw (.invalidPayload "majority set does not agree on one root")
            next (some known)
          else next (some known)) state result after ↔
      (∀ known ∈ canonical, known = root) ∧ Accepts (next (some root)) state result after := by
  cases canonical with
  | none => simp only [Option.not_mem_none, false_implies, implies_true, true_and]
  | some known =>
      simp only [accepts_unless, ne_eq, not_not, Option.mem_some_iff, forall_eq']
      constructor
      · rintro ⟨rfl, checked⟩
        exact ⟨rfl, checked⟩
      · rintro ⟨rfl, checked⟩
        exact ⟨rfl, checked⟩

theorem accepts_checkMajority {envelope : PrivateEnvelope} {offender : PartyId}
    {statements : List AttestationStatement} {seen : List PartyId}
    {canonical result : Option String} :
    Accepts (checkMajority envelope offender statements seen canonical) state result after ↔
      majorityRoot envelope offender statements seen canonical = some result ∧ after = state := by
  induction statements generalizing seen canonical with
  | nil =>
      rw [checkMajority, majorityRoot, accepts_pure, Option.some_inj, eq_comm (a := state)]
  | cons statement rest ih =>
      unfold checkMajority
      rw [majorityRoot]
      simp only [accepts_bind, accepts_verifyStmt, accepts_unless]
      have agreed := @accepts_agreed state after result
        (checkMajority envelope offender rest (seen ++ [statement.party])) canonical statement.root
      rw [ih] at agreed
      by_cases passed : (attested envelope statement).isSome ∧ statement.party ∉ seen ∧
          statement.party ≠ offender ∧ ∀ root ∈ canonical, root = statement.root
      · rw [if_pos passed]
        obtain ⟨known, fresh, other, agrees⟩ := passed
        constructor
        · rintro ⟨_, _, ⟨_, rfl⟩, _, _, checked⟩
          exact (agreed.mp checked).2
        · intro found
          refine ⟨(), state, ⟨Option.isSome_iff_exists.mp known, rfl⟩, ?_, other,
            agreed.mpr ⟨agrees, found⟩⟩
          exact fun inside => fresh (List.contains_iff_mem.mp inside)
      · rw [if_neg passed]
        constructor
        · rintro ⟨_, _, ⟨known, rfl⟩, fresh, other, checked⟩
          refine absurd ⟨Option.isSome_iff_exists.mpr known, ?_, other, (agreed.mp checked).1⟩ passed
          exact fun inside => fresh (List.contains_iff_mem.mpr inside)
        · rintro ⟨impossible, _⟩
          cases impossible

end Evidence

/-! ### The whole prism on the books -/

section Dispatch

variable [SerdeJson] [Blake3] [Ed25519]

namespace Sketch

omit [SerdeJson] in
def slash (proof : EquivocationProof) : BooksM Unit := do
  let publicKey ← StateT.lift (hexOf proof.publicKey)
  let messageA ← StateT.lift (hexOf proof.messageA)
  let messageB ← StateT.lift (hexOf proof.messageB)
  let signatureA ← StateT.lift (hexOf proof.signatureA)
  let signatureB ← StateT.lift (hexOf proof.signatureB)
  if messageA = messageB then failure
  if ¬ verifies publicKey messageA signatureA then failure
  if ¬ verifies publicKey messageB signatureB then failure
  punish (equivocationOffence proof.offender messageA messageB) proof.offender

omit [SerdeJson] in
def slashQuorum (proof : QuorumFraudProof) : BooksM Unit := do
  if ¬ proof.envelope.verifyCommitment then failure
  if proof.offenderStmt.party ≠ proof.offender then failure
  if ¬ (attested proof.envelope proof.offenderStmt).isSome then failure
  match ← StateT.lift (majorityRoot proof.envelope proof.offender proof.majority [] none) with
  | none => failure
  | some canonical =>
      if proof.offenderStmt.root = canonical then failure
      if proof.majority.length < proof.envelope.stakeholders.length / 2 + 1 then failure
      punish (quorumOffence proof) proof.offender

def execute (command : Command) (height : UInt64) : StakingCommand → BooksM Unit
  | .stake amount => stake command.submitter amount
  | .unstake amount => unstake command.submitter amount
  | .delegate validator amount => delegate command.submitter validator amount
  | .undelegate validator amount => undelegate command.submitter validator amount
  | .propose title description votingPeriod =>
      propose (opening command height title description votingPeriod)
  | .vote proposalId approve => vote command.submitter height proposalId approve
  | .finalize proposalId => finalize height proposalId
  | .slash proof => slash proof
  | .slashQuorum proof => slashQuorum proof
  | .fundRewards amount => fundRewards command.submitter amount
  | .claimRewards => claimRewards command.submitter

end Sketch

section Effects

variable {before after : Books} {result : Unit}

omit [SerdeJson] in
theorem yields_slash {proof : EquivocationProof} :
    Yields (Sketch.slash proof) before result after ↔
      ∃ publicKey messageA messageB signatureA signatureB,
        hexOf proof.publicKey = some publicKey ∧ hexOf proof.messageA = some messageA ∧
        hexOf proof.messageB = some messageB ∧ hexOf proof.signatureA = some signatureA ∧
        hexOf proof.signatureB = some signatureB ∧ messageA ≠ messageB ∧
        verifies publicKey messageA signatureA = true ∧
        verifies publicKey messageB signatureB = true ∧
        Yields (Sketch.punish (equivocationOffence proof.offender messageA messageB) proof.offender)
          before result after := by
  simp only [Sketch.slash, Mirror.yields_bind, Mirror.yields_lift, Mirror.yields_unless, not_not,
    ne_eq]
  constructor
  · rintro ⟨publicKey, _, ⟨key, rfl⟩, messageA, _, ⟨first, rfl⟩, messageB, _, ⟨second, rfl⟩,
      signatureA, _, ⟨firstTag, rfl⟩, signatureB, _, ⟨secondTag, rfl⟩, different, left, right, ended⟩
    exact ⟨publicKey, messageA, messageB, signatureA, signatureB, key, first, second, firstTag,
      secondTag, different, left, right, ended⟩
  · rintro ⟨publicKey, messageA, messageB, signatureA, signatureB, key, first, second, firstTag,
      secondTag, different, left, right, ended⟩
    exact ⟨publicKey, _, ⟨key, rfl⟩, messageA, _, ⟨first, rfl⟩, messageB, _, ⟨second, rfl⟩,
      signatureA, _, ⟨firstTag, rfl⟩, signatureB, _, ⟨secondTag, rfl⟩, different, left, right, ended⟩

omit [SerdeJson] in
theorem yields_slashQuorum {proof : QuorumFraudProof} :
    Yields (Sketch.slashQuorum proof) before result after ↔
      proof.envelope.verifyCommitment = true ∧ proof.offenderStmt.party = proof.offender ∧
      (attested proof.envelope proof.offenderStmt).isSome ∧
      ∃ canonical, majorityRoot proof.envelope proof.offender proof.majority [] none =
          some (some canonical) ∧
        proof.offenderStmt.root ≠ canonical ∧
        proof.envelope.stakeholders.length / 2 + 1 ≤ proof.majority.length ∧
        Yields (Sketch.punish (quorumOffence proof) proof.offender) before result after := by
  simp only [Sketch.slashQuorum, Mirror.yields_bind, Mirror.yields_lift, Mirror.yields_unless,
    not_not, ne_eq]
  constructor
  · rintro ⟨bound, named, stated, found, _, ⟨agreed, rfl⟩, rest⟩
    cases found with
    | none => exact absurd rest yields_failure
    | some canonical =>
        simp only [Mirror.yields_unless, not_lt] at rest
        exact ⟨bound, named, stated, canonical, agreed, rest.1, rest.2.1, rest.2.2⟩
  · rintro ⟨bound, named, stated, canonical, agreed, differs, enough, ended⟩
    refine ⟨bound, named, stated, some canonical, _, ⟨agreed, rfl⟩, ?_⟩
    simp only [Mirror.yields_unless, not_lt]
    exact ⟨differs, enough, ended⟩

end Effects

omit [Ed25519] in
theorem mirrors_decodeHex (state : StateTree) (text error : String) :
    Mirrors books id (decodeHex text error) (StateT.lift (hexOf text)) state := by
  apply Mirrors.computes
  · intro bytes after ran
    exact accepts_decodeHex.mp ran
  · intro bytes found
    exact ⟨bytes, state, accepts_decodeHex.mpr ⟨found, rfl⟩⟩

theorem mirrors_checkMajority (state : StateTree) (proof : QuorumFraudProof) :
    Mirrors books id (checkMajority proof.envelope proof.offender proof.majority [] none)
      (StateT.lift (majorityRoot proof.envelope proof.offender proof.majority [] none)) state := by
  apply Mirrors.computes
  · intro root after ran
    exact accepts_checkMajority.mp ran
  · intro root found
    exact ⟨root, state, accepts_checkMajority.mpr ⟨found, rfl⟩⟩

theorem mirrors_slash (state : StateTree) (command : Command) (proof : EquivocationProof) :
    Mirrors books (fun _ => ()) (slash command proof) (Sketch.slash proof) state := by
  refine .bind (mirrors_decodeHex state _ _) fun _ _ _ => ?_
  refine .bind (mirrors_decodeHex _ _ _) fun _ _ _ => ?_
  refine .bind (mirrors_decodeHex _ _ _) fun _ _ _ => ?_
  refine .bind (mirrors_decodeHex _ _ _) fun _ _ _ => ?_
  refine .bind (mirrors_decodeHex _ _ _) fun _ _ _ => ?_
  refine .refuse fun _ => ?_
  refine .check (fun after => ?_) fun _ => ?_
  · rw [not_not]
    exact accepts_requireSignature
  refine .check (fun after => ?_) fun _ => ?_
  · rw [not_not]
    exact accepts_requireSignature
  exact mirrors_punish _ command _ _

theorem mirrors_slashQuorum (state : StateTree) (command : Command) (proof : QuorumFraudProof) :
    Mirrors books (fun _ => ()) (slashQuorum command proof) (Sketch.slashQuorum proof) state := by
  refine .refuse fun _ => ?_
  refine .refuse fun _ => ?_
  refine .check (fun after => ?_) fun _ => ?_
  · rw [not_not, Option.isSome_iff_exists]
    exact accepts_verifyStmt
  refine .bind (mirrors_checkMajority state proof) fun canonical middle _ => ?_
  cases canonical with
  | none => exact .stop _
  | some root =>
      refine .refuse fun _ => ?_
      refine .refuse fun _ => ?_
      exact mirrors_punish _ command _ _

theorem mirrors_execute (state : StateTree) (command : Command) (height : UInt64)
    (operation : StakingCommand) :
    Mirrors books (fun _ => ()) (execute command height operation)
      (Sketch.execute command height operation) state := by
  cases operation with
  | stake amount => exact mirrors_stake state command amount
  | unstake amount => exact mirrors_unstake state command amount
  | delegate validator amount => exact mirrors_delegate state command validator amount
  | undelegate validator amount => exact mirrors_undelegate state command validator amount
  | propose title description votingPeriod =>
      exact mirrors_propose state command height title description votingPeriod
  | vote proposalId approve => exact mirrors_vote state command height proposalId approve
  | finalize proposalId => exact mirrors_finalize state command height proposalId
  | slash proof => exact mirrors_slash state command proof
  | slashQuorum proof => exact mirrors_slashQuorum state command proof
  | fundRewards amount => exact mirrors_fundRewards state command amount
  | claimRewards => exact mirrors_claimRewards state command

/-! ### Runs -/

def Accepted (state : StateTree) (command : Command) : Prop :=
  ∃ output after, Accepts (handle command) state output after

/-- The state after a command, as far as it was written. -/
def step (state : StateTree) (command : Command) : StateTree :=
  ((handle command).run.run state).2

/-- An accepted command is one operation on the books. -/
theorem books_step {state : StateTree} {command : Command} (accepted : Accepted state command) :
    ∃ operation, fromSlice StakingCommand (splitHeight command.payload).1 = .ok operation ∧
      Yields (Sketch.execute command (splitHeight command.payload).2 operation) (books state) ()
        (books (step state command)) := by
  obtain ⟨output, after, ran⟩ := accepted
  have last : step state command = after := by
    unfold step
    rw [show (handle command).run.run state = (.ok output, after) from ran]
  rw [last]
  unfold handle at ran
  cases read : fromSlice StakingCommand (splitHeight command.payload).1 with
  | error text =>
      simp only [read, accepts_throw] at ran
  | ok operation =>
      simp only [read] at ran
      exact ⟨operation, rfl, (mirrors_execute state command _ operation).predicted ran⟩

omit [Blake3] [Ed25519] [SerdeJson] in
theorem splitHeight_append (body : List UInt8) (height : Nat) :
    splitHeight (body ++ Bytes.leBytes 8 height) = (body, UInt64.ofNat height) := by
  unfold splitHeight
  have length : (body ++ Bytes.leBytes 8 height).length = body.length + 8 := by
    rw [List.length_append, Bytes.leBytes_length]
  rw [length, if_neg (by omega), Nat.add_sub_cancel, List.take_left, List.drop_left,
    Bytes.ofLeBytes_leBytes]
  congr 1
  exact UInt64.ofNat_mod_size.symm ▸ rfl

/-- What the books allow happens. -/
theorem accepted_of_yields {state : StateTree} {submitter : PartyId} {visibility : Visibility}
    {nonce : UInt64} {height : Nat} {operation : StakingCommand} {last : Books}
    (planned : Yields (Sketch.execute (stakingCommand submitter visibility nonce height operation)
      (UInt64.ofNat height) operation) (books state) () last) :
    Accepted state (stakingCommand submitter visibility nonce height operation) ∧
      books (step state (stakingCommand submitter visibility nonce height operation)) = last := by
  obtain ⟨output, after, ran, _, same⟩ := (mirrors_execute state _ _ operation).happens planned
  have handled : Accepts (handle (stakingCommand submitter visibility nonce height operation)) state
      output after := by
    have split : splitHeight (stakingCommand submitter visibility nonce height operation).payload =
        (toVec operation, UInt64.ofNat height) := splitHeight_append (toVec operation) height
    unfold handle
    rw [split]
    dsimp only
    rw [fromSlice_toVec]
    exact ran
  refine ⟨⟨output, after, handled⟩, ?_⟩
  unfold step
  rw [show (handle _).run.run state = (.ok output, after) from handled]
  exact same

/-! ### Planned runs -/

/-- What a submitter asks for at a height. -/
structure Order where
  submitter : PartyId
  height : Nat
  operation : StakingCommand

omit [SerdeJson] [Blake3] [Ed25519] in
def Order.command (order : Order) : Command :=
  stakingCommand order.submitter .pub 0 order.height order.operation

omit [Blake3] [Ed25519] in
theorem Order.read (order : Order) :
    splitHeight order.command.payload = (toVec order.operation, UInt64.ofNat order.height) ∧
      fromSlice StakingCommand (splitHeight order.command.payload).1 = .ok order.operation := by
  have split : splitHeight order.command.payload =
      (toVec order.operation, UInt64.ofNat order.height) :=
    splitHeight_append (toVec order.operation) order.height
  refine ⟨split, ?_⟩
  rw [split]
  dsimp only
  exact fromSlice_toVec order.operation

/-- The books after a list of orders, when all of them are allowed and accepted. -/
def planWhere (allowed : Books → Order → Bool) : List Order → Books → Option Books
  | [], books => some books
  | order :: rest, books =>
      if allowed books order then
        ((Sketch.execute order.command (UInt64.ofNat order.height) order.operation).run books).bind
          fun outcome => planWhere allowed rest outcome.2
      else none

def plan : List Order → Books → Option Books := planWhere fun _ _ => true

theorem run_of_planWhere {allowed : Books → Order → Bool} {proper : StateTree → Command → Prop}
    (implies : ∀ state order, allowed (books state) order = true → proper state order.command)
    {start : StateTree} {orders : List Order} {last : Books}
    (planned : planWhere allowed orders (books start) = some last) :
    Run.Along step (fun state command => Accepted state command ∧ proper state command) start
        (orders.map Order.command) ∧
      books (Run.run step start (orders.map Order.command)) = last := by
  induction orders generalizing start with
  | nil => exact ⟨trivial, Option.some.inj planned⟩
  | cons order rest ih =>
      rw [planWhere] at planned
      split at planned
      · rename_i permitted
        obtain ⟨⟨_, next⟩, first, remaining⟩ := Option.bind_eq_some_iff.mp planned
        obtain ⟨accepted, same⟩ := accepted_of_yields first
        have moved : books (step start order.command) = next := same
        have later : planWhere allowed rest (books (step start order.command)) = some last := by
          rw [moved]
          exact remaining
        obtain ⟨along, final⟩ := ih later
        rw [List.map_cons, Run.run_cons]
        exact ⟨⟨⟨accepted, implies start order permitted⟩, along⟩, final⟩
      · cases planned

theorem run_of_plan {start : StateTree} {orders : List Order} {last : Books}
    (planned : plan orders (books start) = some last) :
    Run.Along step Accepted start (orders.map Order.command) ∧
      books (Run.run step start (orders.map Order.command)) = last := by
  let proper : StateTree → Command → Prop := fun _ _ => True
  obtain ⟨along, final⟩ := @run_of_planWhere _ _ _ (fun _ _ => true) proper (fun _ _ _ => trivial)
    start orders last planned
  exact ⟨Run.along_mono step (fun _ _ both => both.1) along, final⟩

end Dispatch

/-! ### The seeded books -/

section Genesis

variable [SerdeJson] [Blake3]

namespace Books

/-- No entry at all. -/
def blank : Books :=
  { issued := false
    balance := fun _ => 0
    record := StakeRecord.empty
    delegation := fun _ => 0
    locked := fun _ => 0
    debt := fun _ => 0
    total := 0
    acc := 0
    opened := fun _ => false
    proposal := fun _ => none
    voted := fun _ _ => false
    punished := fun _ => false }

/-- The native token handed out to its first holders. -/
def handedOut (allocations : List (PartyId × U128)) : Books :=
  allocations.foldl (fun books allocation =>
      books.withBalance allocation.1 (books.balance allocation.1 + allocation.2))
    { blank with issued := true }

end Books

theorem books_empty : books StateTree.empty = Books.blank := by
  have absent : ∀ slot : Slot, StateTree.empty.contains slot.key = false := by
    intro slot
    rw [StateTree.contains_eq_isSome, StateTree.get_empty, Option.isSome_none]
  have unread : ∀ (α : Type) [Serialize α] (slot : Slot),
      StateTree.empty.getJson? α slot.key = none := by
    intro α _ slot
    simp only [StateTree.getJson?, StateTree.getJson, StateTree.get_empty]
  simp only [books, Books.blank, readU128, TokenPrism.amountAt, absent, unread, Option.bind_none,
    Option.getD_none, Option.isSome_none]

theorem books_allocate {allocations : List (PartyId × U128)} {state after : StateTree}
    {result : Unit}
    (accepted : Accepts (TokenPrism.allocate TokenPrism.nativeTokenId allocations) state result
      after) :
    books after = allocations.foldl (fun books allocation =>
      books.withBalance allocation.1 (books.balance allocation.1 + allocation.2)) (books state) := by
  induction allocations generalizing state with
  | nil =>
      obtain ⟨_, rfl⟩ := accepts_pure.mp accepted
      rfl
  | cons allocation rest ih =>
      obtain ⟨who, amount⟩ := allocation
      simp only [TokenPrism.allocate, TokenPrism.setBalance, accepts_bind, accepts_get,
        accepts_modify, TokenPrism.accepts_addOr] at accepted
      obtain ⟨_, _, ⟨rfl, rfl⟩, sum, _, ⟨added, rfl⟩, _, _, rfl, remaining⟩ := accepted
      rw [ih remaining, List.foldl_cons, TokenPrism.checkedAdd_eq_add added]
      congr 1
      exact books_putBalance state who _

/-- Seeding an empty tree hands the native token out, and nothing else. -/
theorem books_seedNativeToken (name symbol : String) (decimals : UInt8) (treasury : PartyId)
    {allocations : List (PartyId × U128)} {after : StateTree}
    (accepted : Accepts (TokenPrism.seedNativeToken name symbol decimals treasury allocations)
      StateTree.empty TokenPrism.nativeTokenId after) :
    books after = Books.handedOut allocations := by
  have absent : StateTree.empty.contains (TokenPrism.metaKey TokenPrism.nativeTokenId) = false := by
    rw [StateTree.contains_eq_isSome, StateTree.get_empty, Option.isSome_none]
  simp only [TokenPrism.seedNativeToken, TokenPrism.setMeta, accepts_bind, accepts_get, accepts_ite,
    accepts_modify, accepts_pure] at accepted
  obtain ⟨_, _, ⟨rfl, rfl⟩, ⟨known, _⟩ | ⟨_, _, _, rfl, _, _, filled, _, rfl⟩⟩ := accepted
  · rw [absent] at known
    cases known
  · rw [books_allocate filled]
    unfold Books.handedOut
    rw [← books_empty]
    congr 1
    exact books_putInfo StateTree.empty _

end Genesis

end StakingPrism

end Veilux
