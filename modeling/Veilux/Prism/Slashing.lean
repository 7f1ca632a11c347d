/-
Slashing.  Both kinds of evidence bring their own public keys, and nothing ties a key
to the party it is brought against; the messages of an equivocation may say anything,
and the roots of a quorum fraud are compared as they are spelled.  What the checks do
give, for evidence that is genuine in these respects, is a conviction.
-/

import Veilux.Consensus.Vote
import Veilux.Prism.StakeAccounts

namespace Veilux

namespace StakingPrism

open Mirror

/-! ### Conflicting messages -/

/-- What a party signs once: its vote in a round, and the root it attests to. -/
inductive Statement where
  | vote (height : UInt64) (round : UInt32) (kind : VoteKind) (block : Hash)
  | attestation (commitment root : Hash)
  deriving DecidableEq

namespace Statement

def bytes (who : PartyId) : Statement → List UInt8
  | .vote height round kind block =>
      Vote.signingBytes
        { height := height.toNat
          round := round
          blockHash := block
          voter := who
          kind := kind
          signature := [] }
  | .attestation commitment root => attestationMessage commitment root who

/-- Two votes of one height, round and kind, or two attestations of one commitment. -/
def SameSlot : Statement → Statement → Prop
  | .vote height round kind _, .vote otherHeight otherRound otherKind _ =>
      height = otherHeight ∧ round = otherRound ∧ kind = otherKind
  | .attestation commitment _, .attestation otherCommitment _ => commitment = otherCommitment
  | _, _ => False

def answer : Statement → Hash
  | .vote _ _ _ block => block
  | .attestation _ root => root

def Conflicts (left right : Statement) : Prop :=
  SameSlot left right ∧ left.answer ≠ right.answer

theorem eq_of_answer {left right : Statement} (slot : SameSlot left right)
    (same : left.answer = right.answer) : left = right := by
  cases left with
  | vote height round kind block =>
      cases right with
      | vote otherHeight otherRound otherKind otherBlock =>
          obtain ⟨rfl, rfl, rfl⟩ := slot
          exact congrArg (Statement.vote height round kind) same
      | attestation commitment root => exact absurd slot id
  | attestation commitment root =>
      cases right with
      | vote height round kind block => exact absurd slot id
      | attestation otherCommitment otherRoot =>
          cases slot
          exact congrArg (Statement.attestation commitment) same

/-- Messages of one slot that differ are in conflict. -/
theorem conflicts_of_bytes {who : PartyId} {left right : Statement} (slot : SameSlot left right)
    (different : left.bytes who ≠ right.bytes who) : Conflicts left right := by
  refine ⟨slot, ?_⟩
  intro same
  exact different (congrArg (Statement.bytes who) (eq_of_answer slot same))

end Statement

/-! ### Whose bond an operation changes -/

namespace Books

variable {books after : Books} {result : Unit}

/-- Every record stands under the name of its owner. -/
def Owned (books : Books) : Prop := ∀ who, (books.record who).owner = who

/-- The parties whose own bond an operation may change. -/
def Rebonds (books : Books) (me : PartyId) : StakingCommand → PartyId → Prop
  | .stake _, who => who = me
  | .unstake _, who => who = me
  | .slash proof, who => 0 < books.penalty proof.offender ∧ who = proof.offender
  | .slashQuorum proof, who => 0 < books.penalty proof.offender ∧ who = proof.offender
  | _, _ => False

theorem updateLock_record {me : PartyId} {delta : Int}
    (followed : Yields (Sketch.updateLock me delta) books result after) :
    after.record = books.record := by
  obtain ⟨_, rfl⟩ := yields_updateLock.mp followed
  rfl

/-- Records owned by their names, and bonds that only change for some parties. -/
structure Spares (books after : Books) (touched : PartyId → Prop) : Prop where
  owned : Owned after
  bonds : ∀ who, ¬ touched who → after.bond who = books.bond who

theorem Spares.of_record {touched : PartyId → Prop} (owned : Owned books)
    (same : after.record = books.record) : Spares books after touched := by
  constructor
  · intro who
    rw [same]
    exact owned who
  · intro who _
    unfold bond
    rw [same]

/-- One record is rewritten by its owner. -/
theorem Spares.rewrite {me : PartyId} {record : StakeRecord} {touched : PartyId → Prop}
    (owned : Owned books) (same : after.record = Function.update books.record record.owner record)
    (named : record.owner = (books.record me).owner)
    (kept : ¬ touched me → record.selfBonded = (books.record me).selfBonded) :
    Spares books after touched := by
  rw [named, owned me] at same
  constructor
  · intro who
    rw [same, Function.update_apply]
    split
    · rename_i mine
      rw [named, owned me, mine]
    · exact owned who
  · intro who untouched
    unfold bond
    rw [same, Function.update_apply]
    split
    · rename_i mine
      rw [mine] at untouched ⊢
      rw [kept untouched]
    · rfl

theorem Spares.punish {offence : Hash} {offender : PartyId} (owned : Owned books)
    (ended : Yields (Sketch.punish offence offender) books result after) :
    Spares books after fun who => 0 < books.penalty offender ∧ who = offender := by
  obtain ⟨_, ⟨_, rfl⟩ | ⟨positive, _, middle, followed, rfl⟩⟩ := yields_punish.mp ended
  · exact .of_record owned rfl
  · have same : middle.record = (books.burning offender).record :=
      updateLock_record followed
    exact .rewrite owned same rfl fun untouched => absurd ⟨positive, rfl⟩ untouched

variable [Blake3] [Ed25519]

/-- Only its own commands and evidence against it change what a party has bonded. -/
theorem Spares.execute {command : Command} {height : UInt64} {operation : StakingCommand}
    (owned : Owned books)
    (ended : Yields (Sketch.execute command height operation) books result after) :
    Spares books after (books.Rebonds command.submitter operation) := by
  cases operation with
  | stake amount =>
      obtain ⟨_, _, followed⟩ := yields_stake.mp ended
      exact .rewrite owned (updateLock_record followed) rfl fun untouched => absurd rfl untouched
  | unstake amount =>
      obtain ⟨_, _, followed⟩ := yields_unstake.mp ended
      exact .rewrite owned (updateLock_record followed) rfl fun untouched => absurd rfl untouched
  | delegate validator amount =>
      obtain ⟨_, _, followed⟩ := yields_delegate.mp ended
      exact .rewrite owned (updateLock_record followed) rfl fun _ => rfl
  | undelegate validator amount =>
      obtain ⟨_, _, followed⟩ := yields_undelegate.mp ended
      exact .rewrite owned (updateLock_record followed) rfl fun _ => rfl
  | propose title description votingPeriod =>
      obtain ⟨_, _, rfl⟩ := yields_propose.mp ended
      exact .of_record owned rfl
  | vote proposalId approve =>
      obtain ⟨_, _, _, _, _, _, rfl⟩ := yields_vote.mp ended
      exact .of_record owned rfl
  | finalize proposalId =>
      obtain ⟨_, _, _, _, rfl⟩ := yields_finalize.mp ended
      exact .of_record owned rfl
  | slash proof =>
      obtain ⟨_, _, _, _, _, _, _, _, _, _, _, _, _, punished⟩ := yields_slash.mp ended
      exact .punish owned punished
  | slashQuorum proof =>
      obtain ⟨_, _, _, _, _, _, _, punished⟩ := yields_slashQuorum.mp ended
      exact .punish owned punished
  | fundRewards amount =>
      obtain ⟨_, _, _, rfl⟩ := yields_fundRewards.mp ended
      exact .of_record owned rfl
  | claimRewards =>
      obtain ⟨_, rfl⟩ := yields_claimRewards.mp ended
      exact .of_record owned rfl

end Books

/-! ### Reading evidence back -/

theorem hexOf_hexEncode (bytes : List UInt8) : hexOf (Bytes.hexEncode bytes) = some bytes := by
  unfold hexOf Bytes.hexEncode
  rw [String.toList_ofList, Bytes.trimHex_hexChars, Bytes.hexDecode_hexChars]

theorem verifies_signBytes [Ed25519] (identity : PartyIdentity) (message : List UInt8) :
    verifies identity.publicKey message (identity.signBytes message) = true := by
  unfold verifies
  rw [verifyBytes_signBytes]

/-! ### Equivocation -/

section Equivocation

variable [Ed25519]

/-- The proof shows two conflicting messages of the offender, signed with the
offender's key. -/
def Convicts (keyOf : PartyId → List UInt8) (proof : EquivocationProof) : Prop :=
  ∃ left right signatureA signatureB, Statement.Conflicts left right ∧
    hexOf proof.messageA = some (left.bytes proof.offender) ∧
    hexOf proof.messageB = some (right.bytes proof.offender) ∧
    hexOf proof.signatureA = some signatureA ∧ hexOf proof.signatureB = some signatureB ∧
    verifies (keyOf proof.offender) (left.bytes proof.offender) signatureA = true ∧
    verifies (keyOf proof.offender) (right.bytes proof.offender) signatureB = true

omit [Ed25519] in
/-- What a proof only claims: that the key is the offender's, and that the messages
are its messages for one slot. -/
def Genuine (keyOf : PartyId → List UInt8) (proof : EquivocationProof) : Prop :=
  hexOf proof.publicKey = some (keyOf proof.offender) ∧
    ∃ left right, Statement.SameSlot left right ∧
      hexOf proof.messageA = some (left.bytes proof.offender) ∧
      hexOf proof.messageB = some (right.bytes proof.offender)

/-- No two conflicting messages of a party are among those it has signed. -/
def Consistent (signed : Set (List UInt8)) (who : PartyId) : Prop :=
  ∀ left right : Statement, left.bytes who ∈ signed → right.bytes who ∈ signed →
    ¬ Statement.Conflicts left right

/-- Genuine evidence that passes the checks convicts. -/
theorem Genuine.convicts [Blake3] {keyOf : PartyId → List UInt8} {proof : EquivocationProof}
    {books after : Books} {result : Unit} (genuine : Genuine keyOf proof)
    (ended : Yields (Sketch.slash proof) books result after) : Convicts keyOf proof := by
  obtain ⟨key, left, right, slot, leftRead, rightRead⟩ := genuine
  obtain ⟨publicKey, messageA, messageB, signatureA, signatureB, keyRead, first, second, firstTag,
    secondTag, different, leftSigned, rightSigned, _⟩ := yields_slash.mp ended
  cases key.symm.trans keyRead
  cases leftRead.symm.trans first
  cases rightRead.symm.trans second
  exact ⟨left, right, signatureA, signatureB, Statement.conflicts_of_bytes slot different, leftRead,
    rightRead, firstTag, secondTag, leftSigned, rightSigned⟩

/-- Nobody is convicted by messages it has not signed. -/
theorem Convicts.not_consistent {keyOf : PartyId → List UInt8} {proof : EquivocationProof}
    {signed : PartyId → Set (List UInt8)}
    (unforgeable : ∀ who message signature, verifies (keyOf who) message signature = true →
      message ∈ signed who)
    (convicted : Convicts keyOf proof) : ¬ Consistent (signed proof.offender) proof.offender := by
  obtain ⟨left, right, _, _, conflict, _, _, _, _, leftSigned, rightSigned⟩ := convicted
  intro consistent
  exact consistent left right (unforgeable _ _ _ leftSigned) (unforgeable _ _ _ rightSigned) conflict

/-- A signature that the offender's key refuses convicts nobody. -/
theorem not_convicts {keyOf : PartyId → List UInt8} {proof : EquivocationProof}
    {message tag : List UInt8} (messageRead : hexOf proof.messageA = some message)
    (tagRead : hexOf proof.signatureA = some tag)
    (refused : verifies (keyOf proof.offender) message tag = false) : ¬ Convicts keyOf proof := by
  rintro ⟨left, _, signatureA, _, _, first, _, firstTag, _, verified, _⟩
  rw [← Option.some.inj (messageRead.symm.trans first),
    ← Option.some.inj (tagRead.symm.trans firstTag), refused] at verified
  cases verified

end Equivocation

section Runs

variable [SerdeJson] [Blake3] [Ed25519]

omit [Blake3] [Ed25519] in
/-- The operation that a command's payload asks for. -/
def Asks (command : Command) (operation : StakingCommand) : Prop :=
  fromSlice StakingCommand (splitHeight command.payload).1 = .ok operation

omit [Blake3] [Ed25519] in
theorem Asks.unique {command : Command} {operation other : StakingCommand}
    (asked : Asks command operation) (again : Asks command other) : operation = other :=
  Except.ok.inj (asked.symm.trans again)

/-- A slash that burns something rests on genuine evidence. -/
def GenuineEvidence (keyOf : PartyId → List UInt8) (state : StateTree) (command : Command) : Prop :=
  ∀ proof, Asks command (.slash proof) → 0 < (books state).penalty proof.offender →
    Genuine keyOf proof

/-- A step takes stake. -/
def Loses (state : StateTree) (command : Command) (who : PartyId) : Prop :=
  (stakeOf (step state command) who).selfBonded < (stakeOf state who).selfBonded

/-- Whoever loses stake to a slash is convicted by its proof. -/
def SlashesJustly (keyOf : PartyId → List UInt8) (state : StateTree) (command : Command) : Prop :=
  ∀ proof who, Asks command (.slash proof) → Loses state command who →
    who = proof.offender ∧ Convicts keyOf proof

/-- A party's own bond falls by its own bonding only, or by a quorum against it. -/
def Unharmed (who : PartyId) (state : StateTree) (command : Command) : Prop :=
  Loses state command who →
    (command.submitter = who ∧
      ∃ amount, Asks command (.stake amount) ∨ Asks command (.unstake amount)) ∨
    ∃ proof, Asks command (.slashQuorum proof) ∧ proof.offender = who

omit [Ed25519] in
theorem owned_of_noStake {state : StateTree} (fresh : NoStake state) : (books state).Owned := by
  intro who
  change (stakeOf state who).owner = who
  rw [fresh.records who]
  rfl

/-- The operation behind a loss. -/
theorem Loses.rebonds {state : StateTree} {command : Command} {who : PartyId}
    (owned : (books state).Owned) (accepted : Accepted state command)
    (lost : Loses state command who) :
    ∃ operation, Asks command operation ∧
      (books state).Rebonds command.submitter operation who := by
  obtain ⟨operation, asked, ended⟩ := books_step accepted
  refine ⟨operation, asked, ?_⟩
  by_contra untouched
  have same := (Books.Spares.execute owned ended).bonds who untouched
  exact absurd same (Nat.ne_of_lt lost)

theorem owned_step {state : StateTree} {command : Command} (owned : (books state).Owned)
    (accepted : Accepted state command) : (books (step state command)).Owned := by
  obtain ⟨operation, _, ended⟩ := books_step accepted
  exact (Books.Spares.execute owned ended).owned

theorem slashesJustly_step {keyOf : PartyId → List UInt8} {state : StateTree} {command : Command}
    (owned : (books state).Owned) (accepted : Accepted state command)
    (genuine : GenuineEvidence keyOf state command) : SlashesJustly keyOf state command := by
  intro proof who asked lost
  obtain ⟨operation, read, touched⟩ := lost.rebonds owned accepted
  cases asked.unique read
  obtain ⟨positive, named⟩ := touched
  refine ⟨named, ?_⟩
  obtain ⟨operation, again, ended⟩ := books_step accepted
  cases asked.unique again
  exact (genuine proof asked positive).convicts ended

theorem unharmed_step {keyOf : PartyId → List UInt8} {signed : PartyId → Set (List UInt8)}
    (unforgeable : ∀ who message signature, verifies (keyOf who) message signature = true →
      message ∈ signed who)
    {who : PartyId} (consistent : Consistent (signed who) who) {state : StateTree}
    {command : Command} (owned : (books state).Owned) (accepted : Accepted state command)
    (just : SlashesJustly keyOf state command) : Unharmed who state command := by
  intro lost
  obtain ⟨operation, asked, touched⟩ := lost.rebonds owned accepted
  cases operation with
  | stake amount => exact .inl ⟨touched.symm, amount, .inl asked⟩
  | unstake amount => exact .inl ⟨touched.symm, amount, .inr asked⟩
  | slash proof =>
      obtain ⟨rfl, convicted⟩ := just proof who asked lost
      exact absurd consistent (convicted.not_consistent unforgeable)
  | slashQuorum proof => exact .inr ⟨proof, asked, touched.2.symm⟩
  | _ => exact absurd touched id

end Runs

/-! ### A double vote, and a stranger's key -/

section Doubles

attribute [local instance] SerdeJson.compact Blake3.polynomial Ed25519.keyed

/-- Two messages under one key, brought against bob. -/
def brought (identity : PartyIdentity) (left right : Statement) : EquivocationProof :=
  { offender := ⟨"bob"⟩
    publicKey := Bytes.hexEncode identity.publicKey
    messageA := Bytes.hexEncode (left.bytes ⟨"bob"⟩)
    signatureA := Bytes.hexEncode (identity.signBytes (left.bytes ⟨"bob"⟩))
    messageB := Bytes.hexEncode (right.bytes ⟨"bob"⟩)
    signatureB := Bytes.hexEncode (identity.signBytes (right.bytes ⟨"bob"⟩)) }

def voteFor (block : UInt8) : Statement := .vote 4 0 .precommit ⟨Vector.replicate 32 block⟩

def doubleVote (identity : PartyIdentity) : EquivocationProof :=
  brought identity (voteFor 1) (voteFor 2)

/-- Bob has a key, and nobody else has one. -/
def onlyBob (who : PartyId) : List UInt8 :=
  if who = ⟨"bob"⟩ then (PartyIdentity.repeated "bob" 7).publicKey else []

/-- Bob bonds a thousand, and a watcher brings a double vote. -/
def bonds : Order := ⟨⟨"bob"⟩, 1, .stake 1000⟩

def watches (identity : PartyIdentity) : Order := ⟨⟨"watcher"⟩, 5, .slash (doubleVote identity)⟩

theorem bonds_planned :
    (plan [bonds] (Books.handedOut [(⟨"bob"⟩, 5000)])).map (fun books => books.bond ⟨"bob"⟩) =
      some 1000 := by
  decide

/-- Whoever signs, the evidence passes every check in front of the punishment. -/
theorem run_slash_brought (identity : PartyIdentity) {left right : Statement}
    (different : left.bytes ⟨"bob"⟩ ≠ right.bytes ⟨"bob"⟩) (books : Books) :
    (Sketch.slash (brought identity left right)).run books =
      (Sketch.punish (equivocationOffence ⟨"bob"⟩ (left.bytes ⟨"bob"⟩) (right.bytes ⟨"bob"⟩))
        ⟨"bob"⟩).run books := by
  unfold Sketch.slash brought
  simp only [hexOf_hexEncode, StateT.run_bind, StateT.run_lift, Option.bind_eq_bind,
    Option.pure_def, Option.bind_some, if_neg different, verifies_signBytes, not_true_eq_false,
    if_false]

theorem brought_not_convicts {keyOf : PartyId → List UInt8} {identity : PartyIdentity}
    {left right : Statement}
    (refused : verifies (keyOf ⟨"bob"⟩) (left.bytes ⟨"bob"⟩)
      (identity.signBytes (left.bytes ⟨"bob"⟩)) = false) :
    ¬ Convicts keyOf (brought identity left right) :=
  not_convicts (hexOf_hexEncode _) (hexOf_hexEncode _) refused

theorem doubleVote_genuine : Genuine onlyBob (doubleVote (.repeated "bob" 7)) := by
  refine ⟨?_, voteFor 1, voteFor 2, ⟨rfl, rfl, rfl⟩, hexOf_hexEncode _, hexOf_hexEncode _⟩
  have own : onlyBob (doubleVote (.repeated "bob" 7)).offender =
      (PartyIdentity.repeated "bob" 7).publicKey := if_pos rfl
  rw [own]
  exact hexOf_hexEncode _

theorem watches_genuine (state : StateTree) :
    ∀ command ∈ [bonds.command, (watches (.repeated "bob" 7)).command],
      GenuineEvidence onlyBob state command := by
  intro command member proof asked _
  simp only [List.mem_cons, List.not_mem_nil, or_false] at member
  rcases member with rfl | rfl
  · cases Asks.unique bonds.read.2 asked
  · cases Asks.unique (watches _).read.2 asked
    exact doubleVote_genuine

/-- What verifies under these keys, bob has signed. -/
theorem signed_by_onlyBob (who : PartyId) (message signature : List UInt8)
    (verified : verifies (onlyBob who) message signature = true) : who = ⟨"bob"⟩ := by
  by_contra other
  have none : onlyBob who = [] := if_neg other
  rw [none] at verified
  exact absurd verified Bool.false_ne_true

theorem loses_of_bond {state : StateTree} {command : Command} {who : PartyId}
    (less : (books (step state command)).bond who < (books state).bond who) :
    Loses state command who := less

/-- Evidence against bob that reaches the punishment takes stake from him. -/
theorem slash_loses {start : StateTree} {order : Order} {offence : Hash}
    (same : books start = Books.handedOut [(⟨"bob"⟩, 5000)])
    (reaches : ∀ books, (Sketch.execute order.command (UInt64.ofNat order.height)
      order.operation).run books = (Sketch.punish offence ⟨"bob"⟩).run books)
    (burns : ((plan [bonds] (Books.handedOut [(⟨"bob"⟩, 5000)])).bind fun middle =>
        (Sketch.punish offence ⟨"bob"⟩).run middle).map
      (fun outcome => outcome.2.bond ⟨"bob"⟩) = some 800) :
    Run.Along step Accepted start [bonds.command, order.command] ∧
      Loses (step start bonds.command) order.command ⟨"bob"⟩ := by
  have first := bonds_planned
  rw [← same] at first burns
  obtain ⟨middle, begun, bonded⟩ := Option.map_eq_some_iff.mp first
  obtain ⟨accepted, reached⟩ := run_of_plan begun
  have bondedAt : books (step start bonds.command) = middle := reached
  rw [begun, Option.bind_some] at burns
  obtain ⟨outcome, punished, left⟩ := Option.map_eq_some_iff.mp burns
  rw [← reaches, ← bondedAt] at punished
  have slashed : Yields (Sketch.execute order.command (UInt64.ofNat order.height) order.operation)
      (books (step start bonds.command)) () outcome.2 := punished
  obtain ⟨acceptedNext, ended⟩ := accepted_of_yields slashed
  refine ⟨⟨accepted.1, acceptedNext, trivial⟩, loses_of_bond ?_⟩
  have after : books (step (step start bonds.command) order.command) = outcome.2 := ended
  rw [after, left, bondedAt, bonded]
  decide

theorem voteFor_differ : (voteFor 1).bytes ⟨"bob"⟩ ≠ (voteFor 2).bytes ⟨"bob"⟩ := by
  decide

theorem watches_loses (identity : PartyIdentity) {start : StateTree}
    (same : books start = Books.handedOut [(⟨"bob"⟩, 5000)]) :
    Run.Along step Accepted start [bonds.command, (watches identity).command] ∧
      Loses (step start bonds.command) (watches identity).command ⟨"bob"⟩ :=
  slash_loses same (run_slash_brought identity voteFor_differ) (by decide)

end Doubles

end StakingPrism

end Veilux
