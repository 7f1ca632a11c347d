/-
Quorum fraud.  A stakeholder's statement is verified over the 32 bytes of its root,
but roots are compared, and offences recorded, as they are spelled.  Where a root has
one spelling and every key belongs to the party it is brought for, an accepted proof
shows a minority root, and shows it once.
-/

import Veilux.Prism.Slashing

namespace Veilux

namespace StakingPrism

open Mirror

/-! ### Statements -/

/-- The 32 bytes that a text stands for. -/
def rootOf (text : String) : Option Hash :=
  (hexOf text).bind fun bytes => (exactly 32 bytes).map Hash.mk

theorem rootOf_eq_some {text : String} {root : Hash} :
    rootOf text = some root ↔
      ∃ bytes, hexOf text = some bytes ∧ exactly 32 bytes = some root.bytes := by
  unfold rootOf
  rw [Option.bind_eq_some_iff]
  constructor
  · rintro ⟨bytes, decoded, sized⟩
    obtain ⟨content, found, rfl⟩ := Option.map_eq_some_iff.mp sized
    exact ⟨bytes, decoded, found⟩
  · rintro ⟨bytes, decoded, sized⟩
    exact ⟨bytes, decoded, Option.map_eq_some_iff.mpr ⟨root.bytes, sized, rfl⟩⟩

section Statements

variable [Ed25519]

/-- A statement for a root, under the key of the party it names. -/
def Attests (keyOf : PartyId → List UInt8) (envelope : PrivateEnvelope)
    (statement : AttestationStatement) (root : Hash) : Prop :=
  rootOf statement.root = some root ∧ hexOf statement.publicKey = some (keyOf statement.party) ∧
    ∃ signature, hexOf statement.signature = some signature ∧
      verifies (keyOf statement.party)
        (attestationMessage envelope.commitment root statement.party) signature = true

/-- What a quorum fraud is: the offender has signed one root, and a strict majority of
the stakeholders, each once, has signed another. -/
structure Fraud (keyOf : PartyId → List UInt8) (proof : QuorumFraudProof) (own common : Hash) :
    Prop where
  named : proof.offenderStmt.party = proof.offender
  stated : Attests keyOf proof.envelope proof.offenderStmt own
  agreed : ∀ statement ∈ proof.majority, Attests keyOf proof.envelope statement common
  different : own ≠ common
  stakeholders : ∀ statement ∈ proof.majority, statement.party ∈ proof.envelope.stakeholders
  distinct : (proof.majority.map AttestationStatement.party).Nodup
  majority : proof.envelope.stakeholders.dedup.length < 2 * proof.majority.length

omit [Ed25519] in
/-- Every key belongs to the party that its statement names. -/
def OwnKeys (keyOf : PartyId → List UInt8) (proof : QuorumFraudProof) : Prop :=
  ∀ statement ∈ proof.offenderStmt :: proof.majority,
    hexOf statement.publicKey = some (keyOf statement.party)

/-- The majority does not write the offender's root with another text. -/
def SpelledAlike (proof : QuorumFraudProof) : Prop :=
  ∀ statement ∈ proof.majority, rootOf statement.root = rootOf proof.offenderStmt.root →
    statement.root = proof.offenderStmt.root

theorem attested_rootOf {envelope : PrivateEnvelope} {statement : AttestationStatement}
    {root : Hash} (known : attested envelope statement = some root) :
    rootOf statement.root = some root :=
  rootOf_eq_some.mpr (attested_eq_some.mp known).2.1

theorem attests_of_attested {keyOf : PartyId → List UInt8} {envelope : PrivateEnvelope}
    {statement : AttestationStatement} {root : Hash}
    (known : attested envelope statement = some root)
    (own : hexOf statement.publicKey = some (keyOf statement.party)) :
    Attests keyOf envelope statement root := by
  obtain ⟨_, _, publicKey, signature, keyRead, signatureRead, verified⟩ := attested_eq_some.mp known
  cases own.symm.trans keyRead
  exact ⟨attested_rootOf known, own, signature, signatureRead, verified⟩

/-- What the loop over the majority statements has checked when it ends with a text. -/
theorem majorityRoot_spec {envelope : PrivateEnvelope} {offender : PartyId}
    {statements : List AttestationStatement} {seen : List PartyId} {canonical : Option String}
    {text : String}
    (found : majorityRoot envelope offender statements seen canonical = some (some text)) :
    (∀ known ∈ canonical, known = text) ∧
      (∀ statement ∈ statements, statement.root = text ∧ (attested envelope statement).isSome ∧
        statement.party ∉ seen) ∧
      (statements.map AttestationStatement.party).Nodup ∧ (statements = [] → canonical = some text) := by
  induction statements generalizing seen canonical with
  | nil =>
      cases Option.some.inj found
      refine ⟨fun known same => (Option.some.inj same).symm, ?_, List.nodup_nil, fun _ => rfl⟩
      intro statement member
      cases member
  | cons statement rest ih =>
      rw [majorityRoot] at found
      split at found
      · rename_i passed
        obtain ⟨known, fresh, _, agrees⟩ := passed
        obtain ⟨same, checked, distinct, _⟩ := ih found
        have spelled : statement.root = text := same statement.root rfl
        refine ⟨?_, ?_, ?_, ?_⟩
        · intro earlier member
          rw [agrees earlier member, spelled]
        · intro other member
          rcases List.mem_cons.mp member with rfl | later
          · exact ⟨spelled, known, fresh⟩
          · obtain ⟨root, signed, outside⟩ := checked other later
            refine ⟨root, signed, ?_⟩
            exact fun inside => outside (List.mem_append_left _ inside)
        · rw [List.map_cons, List.nodup_cons]
          refine ⟨?_, distinct⟩
          intro member
          obtain ⟨other, later, same⟩ := List.mem_map.mp member
          apply (checked other later).2.2
          rw [same]
          exact List.mem_append_right _ (List.mem_singleton_self _)
        · intro impossible
          cases impossible
      · cases found

variable [Blake3] {books after : Books} {result : Unit} {keyOf : PartyId → List UInt8}
  {proof : QuorumFraudProof}

/-- An accepted proof shows a fraud exactly when its keys and spellings are right. -/
theorem fraud_iff (ended : Yields (Sketch.slashQuorum proof) books result after) :
    (∃ own common, Fraud keyOf proof own common) ↔ OwnKeys keyOf proof ∧ SpelledAlike proof := by
  obtain ⟨_, named, stated, text, agreed, spelled, enough, _⟩ := yields_slashQuorum.mp ended
  obtain ⟨own, ownKnown⟩ := Option.isSome_iff_exists.mp stated
  obtain ⟨_, checked, distinct, _⟩ := majorityRoot_spec agreed
  constructor
  · rintro ⟨mine, common, fraud⟩
    constructor
    · intro statement member
      rcases List.mem_cons.mp member with rfl | inside
      · exact fraud.stated.2.1
      · exact (fraud.agreed statement inside).2.1
    · intro statement member same
      rw [(fraud.agreed statement member).1, fraud.stated.1] at same
      exact absurd (Option.some.inj same).symm fraud.different
  · rintro ⟨keys, alike⟩
    have some : ∃ statement, statement ∈ proof.majority := by
      apply List.exists_mem_of_length_pos
      omega
    obtain ⟨witness, present⟩ := some
    obtain ⟨common, commonKnown⟩ := Option.isSome_iff_exists.mp (checked witness present).2.1
    have commonRoot : rootOf text = some common := by
      rw [← (checked witness present).1]
      exact attested_rootOf commonKnown
    refine ⟨own, common, ⟨named, attests_of_attested ownKnown (keys _ List.mem_cons_self), ?_, ?_, ?_,
      distinct, ?_⟩⟩
    · intro statement member
      obtain ⟨root, known⟩ := Option.isSome_iff_exists.mp (checked statement member).2.1
      have same : rootOf text = some root := by
        rw [← (checked statement member).1]
        exact attested_rootOf known
      cases commonRoot.symm.trans same
      exact attests_of_attested known (keys _ (List.mem_cons_of_mem _ member))
    · rintro rfl
      have same : rootOf witness.root = rootOf proof.offenderStmt.root := by
        rw [attested_rootOf commonKnown, attested_rootOf ownKnown]
      have texts := alike witness present same
      rw [(checked witness present).1] at texts
      exact spelled texts.symm
    · intro statement member
      obtain ⟨root, known⟩ := Option.isSome_iff_exists.mp (checked statement member).2.1
      exact (attested_eq_some.mp known).1
    · have fewer := (List.dedup_sublist proof.envelope.stakeholders).length_le
      omega

end Statements

/-! ### One punishment for an offence -/

namespace Books

variable {books after : Books} {result : Unit} {offence : Hash}

theorem punished_updateLock {me : PartyId} {delta : Int}
    (followed : Yields (Sketch.updateLock me delta) books result after) :
    after.punished = books.punished := by
  obtain ⟨_, rfl⟩ := yields_updateLock.mp followed
  rfl

/-- A punishment marks its offence, which was not marked before. -/
theorem punished_punish {offender : PartyId}
    (ended : Yields (Sketch.punish offence offender) books result after) :
    books.punished offence = false ∧ after.punished = Function.update books.punished offence true := by
  obtain ⟨fresh, ⟨_, rfl⟩ | ⟨_, _, middle, followed, rfl⟩⟩ := yields_punish.mp ended
  · exact ⟨fresh, rfl⟩
  · have kept : middle.punished = (books.burning offender).punished := punished_updateLock followed
    refine ⟨fresh, ?_⟩
    change Function.update middle.punished offence true = _
    rw [kept]
    rfl

theorem punished_stays {other : Hash} (marked : books.punished offence = true) :
    Function.update books.punished other true offence = true := by
  rw [Function.update_apply]
  split
  · rfl
  · exact marked

variable [Blake3] [Ed25519]

theorem punished_execute {command : Command} {height : UInt64} {operation : StakingCommand}
    (ended : Yields (Sketch.execute command height operation) books result after)
    (marked : books.punished offence = true) : after.punished offence = true := by
  cases operation with
  | stake amount =>
      obtain ⟨_, _, followed⟩ := yields_stake.mp ended
      rw [punished_updateLock followed]
      exact marked
  | unstake amount =>
      obtain ⟨_, _, followed⟩ := yields_unstake.mp ended
      rw [punished_updateLock followed]
      exact marked
  | delegate validator amount =>
      obtain ⟨_, _, followed⟩ := yields_delegate.mp ended
      rw [punished_updateLock followed]
      exact marked
  | undelegate validator amount =>
      obtain ⟨_, _, followed⟩ := yields_undelegate.mp ended
      rw [punished_updateLock followed]
      exact marked
  | propose title description votingPeriod =>
      obtain ⟨_, _, rfl⟩ := yields_propose.mp ended
      exact marked
  | vote proposalId approve =>
      obtain ⟨_, _, _, _, _, _, rfl⟩ := yields_vote.mp ended
      exact marked
  | finalize proposalId =>
      obtain ⟨_, _, _, _, rfl⟩ := yields_finalize.mp ended
      exact marked
  | slash proof =>
      obtain ⟨_, _, _, _, _, _, _, _, _, _, _, _, _, slashed⟩ := yields_slash.mp ended
      rw [(punished_punish slashed).2]
      exact punished_stays marked
  | slashQuorum proof =>
      obtain ⟨_, _, _, _, _, _, _, slashed⟩ := yields_slashQuorum.mp ended
      rw [(punished_punish slashed).2]
      exact punished_stays marked
  | fundRewards amount =>
      obtain ⟨_, _, _, rfl⟩ := yields_fundRewards.mp ended
      exact marked
  | claimRewards =>
      obtain ⟨_, rfl⟩ := yields_claimRewards.mp ended
      exact marked

end Books

section Runs

variable [SerdeJson]

/-- The quorum fraud that a command brings. -/
def fraudOf (command : Command) : Option QuorumFraudProof :=
  match fromSlice StakingCommand (splitHeight command.payload).1 with
  | .ok (.slashQuorum proof) => some proof
  | _ => none

theorem fraudOf_eq_some {command : Command} {proof : QuorumFraudProof} :
    fraudOf command = some proof ↔ Asks command (.slashQuorum proof) := by
  unfold fraudOf Asks
  constructor
  · intro found
    split at found
    · rename_i brought read
      cases found
      exact read
    · cases found
  · intro asked
    rw [asked]

/-- The proofs of quorum fraud in a run, in order. -/
def fraudsIn (commands : List Command) : List QuorumFraudProof := commands.filterMap fraudOf

/-- The root that was slashed, with its offender and commitment. -/
def slashedRoot (proof : QuorumFraudProof) : PartyId × Hash × Option Hash :=
  (proof.offender, proof.envelope.commitment, rootOf proof.offenderStmt.root)

/-- Two proofs about one root of one offender write it with one text. -/
def AlikeOffences (left right : QuorumFraudProof) : Prop :=
  slashedRoot left = slashedRoot right → left.offenderStmt.root = right.offenderStmt.root

variable [Blake3] [Ed25519]

omit [SerdeJson] [Ed25519] in
theorem quorumOffence_eq {left right : QuorumFraudProof} (same : slashedRoot left = slashedRoot right)
    (alike : AlikeOffences left right) : quorumOffence left = quorumOffence right := by
  have texts := alike same
  obtain ⟨offenders, rest⟩ := Prod.mk.inj same
  obtain ⟨commitments, _⟩ := Prod.mk.inj rest
  unfold quorumOffence
  rw [offenders, commitments, texts]

/-- An offence that is marked is not punished later. -/
theorem unpunished_of_fraud {state : StateTree} {commands : List Command} {offence : Hash}
    (accepted : Run.Along step Accepted state commands)
    (marked : (books state).punished offence = true) :
    ∀ proof ∈ fraudsIn commands, quorumOffence proof ≠ offence := by
  induction commands generalizing state with
  | nil =>
      intro proof member
      cases member
  | cons command rest ih =>
      obtain ⟨operation, asked, ended⟩ := books_step accepted.1
      have later := ih accepted.2 (Books.punished_execute ended marked)
      intro proof member
      rw [fraudsIn, List.filterMap_cons] at member
      cases found : fraudOf command with
      | none =>
          rw [found] at member
          exact later proof member
      | some brought =>
          rw [found] at member
          rcases List.mem_cons.mp member with rfl | inside
          · cases Asks.unique asked (fraudOf_eq_some.mp found)
            obtain ⟨_, _, _, _, _, _, _, slashed⟩ := yields_slashQuorum.mp ended
            intro same
            have fresh := (Books.punished_punish slashed).1
            rw [same, marked] at fresh
            cases fresh
          · exact later proof inside

/-- Every proof of a run has passed the checks in some state. -/
theorem exists_yields_of_fraud {state : StateTree} {commands : List Command}
    (accepted : Run.Along step Accepted state commands) {proof : QuorumFraudProof}
    (member : proof ∈ fraudsIn commands) :
    ∃ before after, Yields (Sketch.slashQuorum proof) before () after := by
  induction commands generalizing state with
  | nil => cases member
  | cons command rest ih =>
      obtain ⟨operation, asked, ended⟩ := books_step accepted.1
      rw [fraudsIn, List.filterMap_cons] at member
      cases found : fraudOf command with
      | none =>
          rw [found] at member
          exact ih accepted.2 member
      | some brought =>
          rw [found] at member
          rcases List.mem_cons.mp member with rfl | inside
          · cases Asks.unique asked (fraudOf_eq_some.mp found)
            exact ⟨_, _, ended⟩
          · exact ih accepted.2 inside

/-- Where a root of an offender is written with one text, it is slashed once. -/
theorem slashed_once {state : StateTree} {commands : List Command}
    (accepted : Run.Along step Accepted state commands)
    (alike : (fraudsIn commands).Pairwise AlikeOffences) :
    (fraudsIn commands).Pairwise fun left right => slashedRoot left ≠ slashedRoot right := by
  induction commands generalizing state with
  | nil => exact List.Pairwise.nil
  | cons command rest ih =>
      obtain ⟨operation, asked, ended⟩ := books_step accepted.1
      rw [fraudsIn, List.filterMap_cons] at alike ⊢
      cases found : fraudOf command with
      | none =>
          rw [found] at alike
          exact ih accepted.2 alike
      | some brought =>
          rw [found] at alike
          obtain ⟨first, later⟩ := List.pairwise_cons.mp alike
          refine List.pairwise_cons.mpr ⟨?_, ih accepted.2 later⟩
          intro proof member same
          cases Asks.unique asked (fraudOf_eq_some.mp found)
          obtain ⟨_, _, _, _, _, _, _, slashed⟩ := yields_slashQuorum.mp ended
          have marked : (books (step state command)).punished (quorumOffence brought) = true := by
            rw [(Books.punished_punish slashed).2, Function.update_self]
          exact unpunished_of_fraud accepted.2 marked proof member
            (quorumOffence_eq same (first proof member)).symm

/-- An accepted proof shows a root that a strict majority has contradicted, and shows
it once, exactly when its keys belong to the parties and no root has two spellings. -/
theorem quorum_slash_sound_iff (keyOf : PartyId → List UInt8) (start : StateTree)
    (commands : List Command) (accepted : Run.Along step Accepted start commands) :
    ((∀ proof ∈ fraudsIn commands, ∃ own common, Fraud keyOf proof own common) ∧
      (fraudsIn commands).Pairwise fun left right => slashedRoot left ≠ slashedRoot right) ↔
    (∀ proof ∈ fraudsIn commands, OwnKeys keyOf proof ∧ SpelledAlike proof) ∧
      (fraudsIn commands).Pairwise AlikeOffences := by
  have each : (∀ proof ∈ fraudsIn commands, ∃ own common, Fraud keyOf proof own common) ↔
      ∀ proof ∈ fraudsIn commands, OwnKeys keyOf proof ∧ SpelledAlike proof := by
    apply forall₂_congr
    intro proof member
    obtain ⟨before, after, ended⟩ := exists_yields_of_fraud accepted member
    exact fraud_iff ended
  rw [each]
  apply and_congr_right
  intro _
  constructor
  · intro once
    apply once.imp
    intro left right different same
    exact absurd same different
  · exact slashed_once accepted

end Runs

/-! ### Two spellings of one root -/

section Spellings

variable [Ed25519] [Blake3]

omit [Ed25519] [Blake3] in
theorem rootOf_hexEncode (root : Hash) : rootOf (Bytes.hexEncode root.asBytes) = some root := by
  rw [rootOf_eq_some]
  exact ⟨root.asBytes, hexOf_hexEncode _, exactly_toList root.bytes⟩

omit [Ed25519] [Blake3] in
theorem rootOf_toHex (root : Hash) : rootOf root.toHex = some root := by
  rw [rootOf_eq_some]
  refine ⟨root.asBytes, ?_, exactly_toList root.bytes⟩
  unfold hexOf
  rw [Hash.toHex_toList, Bytes.trimHex, Bytes.trimHex_hexChars, Bytes.hexDecode_hexChars]

def trio : List PartyId := [⟨"alice"⟩, ⟨"bob"⟩, ⟨"carol"⟩]

/-- A transaction of three stakeholders. -/
def threeParty : PrivateEnvelope :=
  { commitment := PrivateEnvelope.expectedCommitment .zero (Vector.replicate 32 0) trio []
    salt := .zero
    ephemeralPublic := Vector.replicate 32 0
    stakeholders := trio
    shares := [] }

def states (identity : PartyIdentity) (root : Hash) (text : String) : AttestationStatement :=
  { party := identity.party
    publicKey := Bytes.hexEncode identity.publicKey
    signature := Bytes.hexEncode
      (identity.signBytes (attestationMessage threeParty.commitment root identity.party))
    root := text }

theorem attested_states (identity : PartyIdentity) {root : Hash} {text : String}
    (member : identity.party ∈ trio) (spelled : rootOf text = some root) :
    attested threeParty (states identity root text) = some root := by
  rw [attested_eq_some]
  exact ⟨member, rootOf_eq_some.mp spelled, _, _, hexOf_hexEncode _, hexOf_hexEncode _,
    verifies_signBytes _ _⟩

def alice : PartyIdentity := .repeated "alice" 1
def bob : PartyIdentity := .repeated "bob" 2
def carol : PartyIdentity := .repeated "carol" 3

/-- Alice and carol against bob: the offender's root, and theirs. -/
def outvoted (root common : Hash) : QuorumFraudProof :=
  { offender := ⟨"bob"⟩
    envelope := threeParty
    offenderStmt := states bob root root.toHex
    majority := [states alice common (Bytes.hexEncode common.asBytes),
      states carol common (Bytes.hexEncode common.asBytes)] }

omit [Ed25519] [Blake3] in
theorem toHex_ne_hexEncode (root common : Hash) : root.toHex ≠ Bytes.hexEncode common.asBytes := by
  intro same
  have lengths := congrArg (fun text => text.toList.length) same
  simp only [Hash.toHex_length, Bytes.hexEncode, String.toList_ofList, Bytes.hexChars_length,
    Hash.asBytes_length] at lengths
  omega

theorem majorityRoot_outvoted (root common : Hash) :
    majorityRoot threeParty ⟨"bob"⟩ (outvoted root common).majority [] none =
      some (some (Bytes.hexEncode common.asBytes)) := by
  have first := attested_states alice (by decide) (rootOf_hexEncode common)
  have second := attested_states carol (by decide) (rootOf_hexEncode common)
  have aliceOther : alice.party ≠ ⟨"bob"⟩ := by decide
  have carolOther : carol.party ≠ ⟨"bob"⟩ := by decide
  have carolFresh : carol.party ∉ [] ++ [alice.party] := by decide
  unfold outvoted majorityRoot
  rw [if_pos ⟨by rw [first]; rfl, List.not_mem_nil, aliceOther, fun _ none => (Option.not_mem_none _ none).elim⟩]
  unfold majorityRoot
  rw [if_pos ⟨by rw [second]; rfl, carolFresh, carolOther,
    fun _ same => (Option.some.inj same).symm⟩]
  rfl

/-- The proof reaches the punishment, whether or not the roots differ. -/
theorem run_slashQuorum_outvoted (root common : Hash) (books : Books) :
    (Sketch.slashQuorum (outvoted root common)).run books =
      (Sketch.punish (quorumOffence (outvoted root common)) ⟨"bob"⟩).run books := by
  have bound : (outvoted root common).envelope.verifyCommitment = true := decide_eq_true rfl
  have stated : (attested (outvoted root common).envelope
      (outvoted root common).offenderStmt).isSome = true := by
    have known : attested (outvoted root common).envelope (outvoted root common).offenderStmt =
        some root := attested_states bob (by decide) (rootOf_toHex root)
    rw [known]
    rfl
  have named : (outvoted root common).offenderStmt.party = (outvoted root common).offender := rfl
  have agreed : majorityRoot (outvoted root common).envelope (outvoted root common).offender
      (outvoted root common).majority [] none = some (some (Bytes.hexEncode common.asBytes)) :=
    majorityRoot_outvoted root common
  have spelled : (outvoted root common).offenderStmt.root ≠ Bytes.hexEncode common.asBytes :=
    toHex_ne_hexEncode root common
  have enough : ¬ (outvoted root common).majority.length <
      (outvoted root common).envelope.stakeholders.length / 2 + 1 := by
    change ¬ 2 < 3 / 2 + 1
    decide
  unfold Sketch.slashQuorum
  simp only [bound, stated, agreed, named, ne_eq, not_true_eq_false, if_false, StateT.run_bind,
    StateT.run_lift, Option.bind_eq_bind, Option.pure_def, Option.bind_some, if_neg spelled,
    if_neg enough]
  rfl

def trioKey (who : PartyId) : List UInt8 :=
  if who = ⟨"alice"⟩ then alice.publicKey
  else if who = ⟨"bob"⟩ then bob.publicKey
  else carol.publicKey

theorem outvoted_ownKeys (root common : Hash) : OwnKeys trioKey (outvoted root common) := by
  have known : ∀ identity root text, trioKey identity.party = identity.publicKey →
      hexOf (states identity root text).publicKey =
        some (trioKey (states identity root text).party) := by
    intro identity root text own
    change hexOf (Bytes.hexEncode identity.publicKey) = some (trioKey identity.party)
    rw [own, hexOf_hexEncode]
  intro statement member
  simp only [outvoted, List.mem_cons, List.not_mem_nil, or_false] at member
  rcases member with rfl | rfl | rfl
  · exact known bob _ _ rfl
  · exact known alice _ _ rfl
  · exact known carol _ _ rfl

theorem outvoted_spelledAlike {root common : Hash} (different : root ≠ common) :
    SpelledAlike (outvoted root common) := by
  have apart : rootOf (Bytes.hexEncode common.asBytes) ≠ rootOf root.toHex := by
    rw [rootOf_hexEncode, rootOf_toHex]
    exact fun same => different (Option.some.inj same).symm
  intro statement member same
  simp only [outvoted, List.mem_cons, List.not_mem_nil, or_false] at member
  rcases member with rfl | rfl
  · exact absurd same apart
  · exact absurd same apart

end Spellings

section Minority

attribute [local instance] SerdeJson.compact Blake3.polynomial Ed25519.keyed

def rootOne : Hash := ⟨Vector.replicate 32 1⟩
def rootTwo : Hash := ⟨Vector.replicate 32 2⟩

def brings (proof : QuorumFraudProof) : Order := ⟨⟨"alice"⟩, 5, .slashQuorum proof⟩

theorem outvoted_loses (root common : Hash) {start : StateTree}
    (same : books start = Books.handedOut [(⟨"bob"⟩, 5000)])
    (burns : ((plan [bonds] (Books.handedOut [(⟨"bob"⟩, 5000)])).bind fun middle =>
        (Sketch.punish (quorumOffence (outvoted root common)) ⟨"bob"⟩).run middle).map
      (fun outcome => outcome.2.bond ⟨"bob"⟩) = some 800) :
    Run.Along step Accepted start [bonds.command, (brings (outvoted root common)).command] ∧
      Loses (step start bonds.command) (brings (outvoted root common)).command ⟨"bob"⟩ :=
  slash_loses same (run_slashQuorum_outvoted root common) burns

theorem fraudsIn_brings (proof : QuorumFraudProof) :
    fraudsIn [bonds.command, (brings proof).command] = [proof] := by
  have first : fraudOf bonds.command = none := by
    unfold fraudOf
    rw [bonds.read.2]
    rfl
  have second : fraudOf (brings proof).command = some proof :=
    fraudOf_eq_some.mpr (brings proof).read.2
  unfold fraudsIn
  rw [List.filterMap_cons, first, List.filterMap_cons, second]
  rfl

theorem quorum_slash_sound_minority :
    ∃ start, Run.Along step Accepted start
        [bonds.command, (brings (outvoted rootOne rootTwo)).command] ∧
      Loses (step start bonds.command) (brings (outvoted rootOne rootTwo)).command ⟨"bob"⟩ ∧
      ∃ own common, Fraud trioKey (outvoted rootOne rootTwo) own common := by
  obtain ⟨start, _, _, same⟩ := exists_seeded [(⟨"bob"⟩, 5000)] (by decide)
  obtain ⟨accepted, lost⟩ := outvoted_loses rootOne rootTwo same
    (by decide +kernel)
  have sound := quorum_slash_sound_iff trioKey start _ accepted
  rw [fraudsIn_brings] at sound
  have different : rootOne ≠ rootTwo := by decide
  refine ⟨start, accepted, lost, (sound.mpr ⟨?_, List.pairwise_singleton _ _⟩).1 _
    (List.mem_singleton_self _)⟩
  intro proof member
  rw [List.mem_singleton.mp member]
  exact ⟨outvoted_ownKeys _ _, outvoted_spelledAlike different⟩

/-- Bob has signed the root that alice and carol have signed, and loses a fifth of his
bond to it: his statement spells it with a leading 0x. -/
theorem same_root_slashed :
    ∃ start, Seeded start ∧ NoStake start ∧
      Run.Along step Accepted start
        [bonds.command, (brings (outvoted rootOne rootOne)).command] ∧
      Asks (brings (outvoted rootOne rootOne)).command (.slashQuorum (outvoted rootOne rootOne)) ∧
      Loses (step start bonds.command) (brings (outvoted rootOne rootOne)).command ⟨"bob"⟩ ∧
      OwnKeys trioKey (outvoted rootOne rootOne) ∧
      (∀ statement ∈ (outvoted rootOne rootOne).offenderStmt :: (outvoted rootOne rootOne).majority,
        rootOf statement.root = some rootOne) ∧
      ¬ ∃ own common, Fraud trioKey (outvoted rootOne rootOne) own common := by
  obtain ⟨start, seeded, fresh, same⟩ := exists_seeded [(⟨"bob"⟩, 5000)] (by decide)
  obtain ⟨accepted, lost⟩ := outvoted_loses rootOne rootOne same
    (by decide +kernel)
  have rooted : ∀ statement ∈
      (outvoted rootOne rootOne).offenderStmt :: (outvoted rootOne rootOne).majority,
      rootOf statement.root = some rootOne := by
    intro statement member
    simp only [outvoted, List.mem_cons, List.not_mem_nil, or_false] at member
    rcases member with rfl | rfl | rfl
    · exact rootOf_toHex rootOne
    · exact rootOf_hexEncode rootOne
    · exact rootOf_hexEncode rootOne
  refine ⟨start, seeded, fresh, accepted, (brings _).read.2, lost, outvoted_ownKeys _ _, rooted, ?_⟩
  rintro ⟨own, common, fraud⟩
  have mine := (fraud.stated.1).symm.trans (rooted _ List.mem_cons_self)
  have theirs := ((fraud.agreed _ List.mem_cons_self).1).symm.trans
    (rooted _ (List.mem_cons_of_mem _ List.mem_cons_self))
  exact fraud.different (Option.some.inj (mine.trans theirs.symm))

end Minority

end StakingPrism

end Veilux
