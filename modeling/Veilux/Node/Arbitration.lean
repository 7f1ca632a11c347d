/-
The slashing evidence that a node draws from the attestations it receives.  The book
takes any signature that agrees with the key beside it, and an attestation is compared
before it is verified; evidence stands before the staking prism as long as what enters
the book, or contradicts it, is the genuine attestation of a stakeholder.
-/

import Veilux.Node.Envelopes
import Veilux.Prism.Charges
import Veilux.Veil.Attestations

namespace Veilux

namespace Node

open StakingPrism (Passes Rejects attested equivocationOffence quorumOffence)

/-! ### Receiving -/

section Receiving

variable [Blake3] [Ed25519] [SerdeJson] [ChaCha20Poly1305] [X25519]

/-- What a node receives on the private path. -/
inductive Receipt where
  | envelope (env : Env) (envelope : PrivateEnvelope)
  | attestation (attestation : RootAttestation)

def receive (node : Node) : Receipt → Node
  | .envelope env envelope => (node.applyPrivateEnvelope env envelope).2
  | .attestation attestation => (node.recordAttestation attestation).2

/-- The hosted party's own attestation of a root. -/
def attests (keyring : ViewKeyring) (envelope : PrivateEnvelope) (root : Hash) : RootAttestation :=
  RootAttestation.create (hostedIdentity keyring) envelope.commitment root

theorem executePrivate_book (env : Env) (node : Node) (envelope : PrivateEnvelope)
    (keyring : ViewKeyring) :
    (node.executePrivate env envelope keyring).2.privateEnvelopes = node.privateEnvelopes ∧
    (node.executePrivate env envelope keyring).2.keyrings = node.keyrings ∧
    ((node.executePrivate env envelope keyring).2.attestations = node.attestations ∨
      ∃ root, (node.executePrivate env envelope keyring).2.attestations =
        (node.attestations.record (attests keyring envelope root)).2) := by
  unfold executePrivate
  split
  · exact ⟨rfl, rfl, .inl rfl⟩
  · split
    · exact ⟨rfl, rfl, .inl rfl⟩
    · split
      · exact ⟨rfl, rfl, .inl rfl⟩
      · rename_i receipt state _
        dsimp only
        obtain ⟨store, kept⟩ := persist_eq { node with
          privateState := state
          attestations := (node.attestations.record (attests keyring envelope state.root)).2 }
          (Store.savePrivateState env state)
        unfold attests at kept
        split
        · rename_i error after wrote
          rw [wrote] at kept
          dsimp only at kept
          rw [kept]
          exact ⟨rfl, rfl, .inr ⟨state.root, rfl⟩⟩
        · rename_i after wrote
          rw [wrote] at kept
          dsimp only at kept
          rw [kept]
          exact ⟨rfl, rfl, .inr ⟨state.root, rfl⟩⟩

/-- The envelope passes the checks in front of the bookkeeping. -/
def Enters (node : Node) (envelope : PrivateEnvelope) : Prop :=
  envelope.verifyCommitment = true ∧ envelope.commitment ∉ node.privateCommitments

/-- What an envelope changes: it is filed, and a hosted stakeholder attests to its root. -/
theorem receive_envelope (env : Env) (node : Node) (envelope : PrivateEnvelope) :
    node.receive (.envelope env envelope) = node ∨
    (node.Enters envelope ∧
      (node.receive (.envelope env envelope)).keyrings = node.keyrings ∧
      (node.receive (.envelope env envelope)).privateEnvelopes =
        node.privateEnvelopes.insert envelope.commitment envelope ∧
      ((node.receive (.envelope env envelope)).attestations = node.attestations ∨
        ∃ keyring ∈ node.keyrings, envelope.isStakeholder keyring.party = true ∧
          ∃ root, (node.receive (.envelope env envelope)).attestations =
            (node.attestations.record (attests keyring envelope root)).2)) := by
  change (node.applyPrivateEnvelope env envelope).2 = node ∨
    (node.Enters envelope ∧
      (node.applyPrivateEnvelope env envelope).2.keyrings = node.keyrings ∧
      (node.applyPrivateEnvelope env envelope).2.privateEnvelopes =
        node.privateEnvelopes.insert envelope.commitment envelope ∧
      ((node.applyPrivateEnvelope env envelope).2.attestations = node.attestations ∨
        ∃ keyring ∈ node.keyrings, envelope.isStakeholder keyring.party = true ∧
          ∃ root, (node.applyPrivateEnvelope env envelope).2.attestations =
            (node.attestations.record (attests keyring envelope root)).2))
  unfold applyPrivateEnvelope
  by_cases bound : envelope.verifyCommitment = true
  · rw [if_neg (not_not_intro bound)]
    by_cases known : node.privateCommitments.contains envelope.commitment = true
    · rw [if_pos known]
      exact .inl rfl
    · rw [if_neg known]
      right
      refine ⟨⟨bound, fun member => known (List.contains_iff_mem.mpr member)⟩, ?_⟩
      dsimp only
      obtain ⟨store, kept⟩ := persist_eq (node.recorded envelope)
        (Store.savePrivateCommitments env (node.recorded envelope).privateCommitments)
      unfold recorded at kept
      split
      · rename_i error after wrote
        rw [wrote] at kept
        dsimp only at kept
        rw [kept]
        exact ⟨rfl, rfl, .inl rfl⟩
      · rename_i after wrote
        rw [wrote] at kept
        dsimp only at kept
        rw [kept]
        dsimp only
        split
        · rename_i keyring hosted
          have member := List.mem_of_find?_eq_some hosted
          have stakeholder := List.find?_some hosted
          obtain ⟨envelopes, keyrings, book⟩ := executePrivate_book env
            { node.recorded envelope with store := store } envelope keyring
          unfold recorded at envelopes keyrings book
          refine ⟨keyrings, envelopes, ?_⟩
          rcases book with same | ⟨root, attested⟩
          · exact .inl same
          · exact .inr ⟨keyring, member, stakeholder, root, attested⟩
        · exact ⟨rfl, rfl, .inl rfl⟩
  · rw [if_pos bound]
    exact .inl rfl

/-- A node in memory that hosts nobody files the envelope. -/
theorem receive_unhosted {env : Env} {node : Node} {envelope : PrivateEnvelope}
    (unhosted : node.keyrings = []) (volatile : node.store = none)
    (enters : node.Enters envelope) :
    node.receive (.envelope env envelope) = node.recorded envelope := by
  have unknown : ¬ node.privateCommitments.contains envelope.commitment = true :=
    fun known => enters.2 (List.contains_iff_mem.mp known)
  cases node
  cases unhosted
  cases volatile
  change (applyPrivateEnvelope env _ envelope).2 = _
  unfold applyPrivateEnvelope persist
  rw [if_neg (not_not_intro enters.1), if_neg unknown]
  rfl

/-! ### Genuine attestations -/

omit [Blake3] [Ed25519] [SerdeJson] [ChaCha20Poly1305] [X25519] in
/-- An attestation by a stakeholder of the envelope, under the stakeholder's key. -/
def OfStakeholder (keyOf : PartyId → List UInt8) (envelope : PrivateEnvelope)
    (entry : RootAttestation) : Prop :=
  entry.party ∈ envelope.stakeholders ∧ entry.publicKey = keyOf entry.party

omit [Blake3] [Ed25519] [SerdeJson] [ChaCha20Poly1305] [X25519] in
/-- Two roots for one commitment in the name of one party. -/
def Contradicts (entry incoming : RootAttestation) : Prop :=
  entry.commitment = incoming.commitment ∧ entry.party = incoming.party ∧
    entry.privateRoot ≠ incoming.privateRoot

/-- An envelope that enters finds its stakeholders' attestations only.  An attestation that
is stored for a filed envelope is a stakeholder's, and one that contradicts a stored
attestation is signed with a key that has signed the stored one. -/
def Genuine (keyOf : PartyId → List UInt8) (node : Node) : Receipt → Prop
  | .envelope _ envelope => node.Enters envelope →
      ∀ entry ∈ node.attestations.agreement envelope.commitment,
        OfStakeholder keyOf envelope entry
  | .attestation attestation =>
      (∀ envelope, node.privateEnvelopes.lookup attestation.commitment = some envelope →
        attestation.verify = .ok () →
        (∀ entry ∈ node.attestations.entries,
          ¬ (entry.commitment = attestation.commitment ∧ entry.party = attestation.party)) →
        OfStakeholder keyOf envelope attestation) ∧
      ∀ entry ∈ node.attestations.entries, Contradicts entry attestation →
        attestation.verify = .ok () ∧
        verifyBytes attestation.publicKey entry.signedMessage entry.signature = .ok ()

structure Arbitrates (keyOf : PartyId → List UInt8) (node : Node) : Prop where
  sound : node.attestations.Sound
  hosted : ∀ keyring ∈ node.keyrings, keyOf keyring.party = (hostedIdentity keyring).publicKey
  bound : ∀ commitment envelope, node.privateEnvelopes.lookup commitment = some envelope →
    envelope.commitment = commitment ∧ envelope.verifyCommitment = true
  genuine : ∀ commitment envelope, node.privateEnvelopes.lookup commitment = some envelope →
    ∀ entry ∈ node.attestations.agreement commitment, OfStakeholder keyOf envelope entry

variable {keyOf : PartyId → List UInt8} {node : Node}

omit [Blake3] [Ed25519] [SerdeJson] [ChaCha20Poly1305] [X25519] in
theorem mem_agreement {book : AttestationBook} {commitment : Hash} {entry : RootAttestation} :
    entry ∈ book.agreement commitment ↔ entry ∈ book.entries ∧ entry.commitment = commitment := by
  unfold AttestationBook.agreement
  rw [List.mem_filter, decide_eq_true_iff]

omit [Blake3] [Ed25519] [SerdeJson] [ChaCha20Poly1305] [X25519] in
/-- In a book about one transaction all entries are about it. -/
theorem agreement_all {commitment : Hash} {entries : List RootAttestation}
    (about : ∀ entry ∈ entries, entry.commitment = commitment) :
    (AttestationBook.mk entries).agreement commitment = entries := by
  unfold AttestationBook.agreement
  rw [List.filter_eq_self]
  intro entry member
  exact decide_eq_true (about entry member)

omit [Blake3] [Ed25519] [SerdeJson] [ChaCha20Poly1305] [X25519] in
theorem minorityOffenders_eq {book : AttestationBook} {commitment canonical : Hash} {count : Nat}
    (decided : book.canonicalRoot commitment count = some canonical) :
    book.minorityOffenders commitment count =
      (book.agreement commitment).filter fun entry => entry.privateRoot ≠ canonical := by
  unfold AttestationBook.minorityOffenders AttestationBook.agreement
  rw [decided, List.filter_filter]
  simp only [ne_eq, Bool.decide_and, Bool.and_comm]

omit [Blake3] [Ed25519] [SerdeJson] [ChaCha20Poly1305] [X25519] in
theorem privateQuorumFraudProofs_eq {node : Node} {commitment canonical : Hash}
    {envelope : PrivateEnvelope}
    (filed : node.privateEnvelopes.lookup commitment = some envelope)
    (decided : node.attestations.canonicalRoot commitment envelope.stakeholders.length =
      some canonical) :
    node.privateQuorumFraudProofs commitment =
      ((node.attestations.agreement commitment).filter
        fun entry => entry.privateRoot ≠ canonical).map fun offender =>
          { offender := offender.party
            envelope := envelope
            offenderStmt := attestationStatement offender
            majority := ((node.attestations.agreement commitment).filter
              fun entry => entry.privateRoot = canonical).map attestationStatement } := by
  unfold privateQuorumFraudProofs
  rw [filed]
  dsimp only
  rw [decided]
  dsimp only
  rw [minorityOffenders_eq decided]

theorem Arbitrates.envelope {env : Env} {envelope : PrivateEnvelope} (kept : Arbitrates keyOf node)
    (proper : Genuine keyOf node (.envelope env envelope)) :
    Arbitrates keyOf (node.receive (.envelope env envelope)) := by
  rcases receive_envelope env node envelope with same | ⟨enters, keyrings, envelopes, book⟩
  · rw [same]
    exact kept
  · have found : ∀ entry ∈ node.attestations.agreement envelope.commitment,
        OfStakeholder keyOf envelope entry := proper enters
    have filed : ∀ commitment stored,
        (node.receive (.envelope env envelope)).privateEnvelopes.lookup commitment = some stored →
        (commitment = envelope.commitment ∧ stored = envelope) ∨
          (commitment ≠ envelope.commitment ∧
            node.privateEnvelopes.lookup commitment = some stored) := by
      intro commitment stored lookup
      rw [envelopes] at lookup
      by_cases same : commitment = envelope.commitment
      · rw [same, AList.lookup_insert] at lookup
        exact .inl ⟨same, (Option.some.inj lookup).symm⟩
      · rw [AList.lookup_insert_ne same] at lookup
        exact .inr ⟨same, lookup⟩
    have entries : ∀ entry ∈ (node.receive (.envelope env envelope)).attestations.entries,
        entry ∈ node.attestations.entries ∨
          (entry.commitment = envelope.commitment ∧ OfStakeholder keyOf envelope entry) := by
      intro entry member
      rcases book with same | ⟨keyring, hosting, stakeholder, root, recorded⟩
      · rw [same] at member
        exact .inl member
      · rw [recorded] at member
        rcases AttestationBook.mem_record member with earlier | ⟨rfl, _⟩
        · exact .inl earlier
        · refine .inr ⟨rfl, ?_, (kept.hosted keyring hosting).symm⟩
          obtain ⟨listed, inside, same⟩ := List.any_eq_true.mp stakeholder
          rw [decide_eq_true_iff] at same
          rw [same] at inside
          exact inside
    constructor
    · rcases book with same | ⟨keyring, _, _, root, recorded⟩
      · rw [same]
        exact kept.sound
      · rw [recorded]
        exact kept.sound.record _
    · rw [keyrings]
      exact kept.hosted
    · intro commitment stored lookup
      rcases filed commitment stored lookup with ⟨rfl, rfl⟩ | ⟨_, earlier⟩
      · exact ⟨rfl, enters.1⟩
      · exact kept.bound commitment stored earlier
    · intro commitment stored lookup entry member
      obtain ⟨inside, about⟩ := mem_agreement.mp member
      rcases filed commitment stored lookup with ⟨rfl, rfl⟩ | ⟨other, earlier⟩
      · rcases entries entry inside with before | ⟨_, own⟩
        · exact found entry (mem_agreement.mpr ⟨before, about⟩)
        · exact own
      · rcases entries entry inside with before | ⟨mine, _⟩
        · exact kept.genuine commitment stored earlier entry (mem_agreement.mpr ⟨before, about⟩)
        · exact absurd (about.symm.trans mine) other

theorem Arbitrates.attestation {attestation : RootAttestation} (kept : Arbitrates keyOf node)
    (proper : Genuine keyOf node (.attestation attestation)) :
    Arbitrates keyOf (node.receive (.attestation attestation)) where
  sound := kept.sound.record attestation
  hosted := kept.hosted
  bound := kept.bound
  genuine := by
    intro commitment envelope lookup entry member
    obtain ⟨inside, about⟩ := mem_agreement.mp member
    have inside : entry ∈ (node.attestations.record attestation).2.entries := inside
    rcases AttestationBook.record_cases node.attestations attestation with
      same | ⟨verified, fresh, stored⟩
    · rw [same] at inside
      exact kept.genuine commitment envelope lookup entry (mem_agreement.mpr ⟨inside, about⟩)
    · rw [stored] at inside
      rcases List.mem_append.mp inside with earlier | last
      · exact kept.genuine commitment envelope lookup entry (mem_agreement.mpr ⟨earlier, about⟩)
      · rw [List.mem_singleton.mp last] at about ⊢
        exact proper.1 envelope (about ▸ lookup) verified fresh

theorem Arbitrates.receive {receipt : Receipt} (kept : Arbitrates keyOf node)
    (proper : Genuine keyOf node receipt) : Arbitrates keyOf (node.receive receipt) := by
  cases receipt with
  | envelope env envelope => exact kept.envelope proper
  | attestation attestation => exact kept.attestation proper

/-! ### Evidence from genuine attestations -/

omit [Blake3] [SerdeJson] [ChaCha20Poly1305] [X25519] in
theorem verifies_of_ok {publicKey message signature : List UInt8}
    (verified : verifyBytes publicKey message signature = .ok ()) :
    StakingPrism.verifies publicKey message signature = true := by
  unfold StakingPrism.verifies
  rw [verified]

omit [Blake3] [SerdeJson] [ChaCha20Poly1305] [X25519] in
theorem attested_attestationStatement {envelope : PrivateEnvelope} {entry : RootAttestation}
    (member : entry.party ∈ envelope.stakeholders) (about : entry.commitment = envelope.commitment)
    (verified : entry.verify = .ok ()) :
    attested envelope (attestationStatement entry) = some entry.privateRoot := by
  rw [StakingPrism.attested_eq_some]
  refine ⟨member, StakingPrism.rootOf_eq_some.mp (StakingPrism.rootOf_toHex _), entry.publicKey,
    entry.signature, StakingPrism.hexOf_hexEncode _, StakingPrism.hexOf_hexEncode _, ?_⟩
  rw [← about]
  exact verifies_of_ok verified

omit [ChaCha20Poly1305] [X25519] in
theorem divergence_passes {attestation : RootAttestation} {proof : EquivocationProof}
    (proper : Genuine keyOf node (.attestation attestation))
    (drawn : node.privateDivergenceProof attestation = some proof) :
    ∃ stored ∈ node.attestations.entries, Contradicts stored attestation ∧
      Passes (.slash proof) (equivocationOffence attestation.party stored.signedMessage
        attestation.signedMessage) attestation.party := by
  unfold privateDivergenceProof AttestationBook.selfEquivocation at drawn
  rw [Option.map_map] at drawn
  obtain ⟨stored, found, rfl⟩ := Option.map_eq_some_iff.mp drawn
  have member := List.mem_of_find?_eq_some found
  have conflict : Contradicts stored attestation := by
    have held := List.find?_some found
    rw [decide_eq_true_iff] at held
    exact held
  obtain ⟨verified, sameKey⟩ := proper.2 stored member conflict
  refine ⟨stored, member, conflict, ?_⟩
  have different : stored.signedMessage ≠ attestation.signedMessage := by
    intro same
    unfold RootAttestation.signedMessage at same
    rw [conflict.1, conflict.2.1] at same
    exact conflict.2.2 (attestationMessage_root same)
  exact @StakingPrism.slash_passes _ _ _ _ attestation.publicKey stored.signedMessage
    attestation.signedMessage stored.signature attestation.signature
    (StakingPrism.hexOf_hexEncode _) (StakingPrism.hexOf_hexEncode _)
    (StakingPrism.hexOf_hexEncode _) (StakingPrism.hexOf_hexEncode _)
    (StakingPrism.hexOf_hexEncode _) different (verifies_of_ok sameKey) (verifies_of_ok verified)

omit [ChaCha20Poly1305] [X25519] in
theorem Arbitrates.quorum_passes (kept : Arbitrates keyOf node) {commitment : Hash}
    {proof : QuorumFraudProof} (drawn : proof ∈ node.privateQuorumFraudProofs commitment) :
    Passes (.slashQuorum proof) (quorumOffence proof) proof.offender := by
  unfold privateQuorumFraudProofs at drawn
  split at drawn
  · cases drawn
  · rename_i envelope filed
    obtain ⟨about, bound⟩ := kept.bound commitment envelope filed
    dsimp only at drawn
    split at drawn
    · cases drawn
    · rename_i canonical decided
      obtain ⟨offender, minority, rfl⟩ := List.mem_map.mp drawn
      unfold AttestationBook.minorityOffenders at minority
      rw [decided] at minority
      dsimp only at minority
      rw [List.mem_filter, decide_eq_true_iff] at minority
      obtain ⟨inside, mine, deviates⟩ := minority
      -- A recorded attestation for the envelope is a verified statement of a stakeholder.
      have stated : ∀ entry ∈ node.attestations.agreement commitment,
          attested envelope (attestationStatement entry) = some entry.privateRoot := by
        intro entry member
        have own := kept.genuine commitment envelope filed entry member
        obtain ⟨held, concerning⟩ := mem_agreement.mp member
        exact attested_attestationStatement own.1 (concerning.trans about.symm)
          (kept.sound.verified entry held)
      have backed := AttestationBook.canonicalRoot_backed decided
      have offends := stated offender (mem_agreement.mpr ⟨inside, mine⟩)
      refine @StakingPrism.slashQuorum_passes _ _ _ _ canonical.toHex bound rfl ?_ ?_ ?_ ?_
      · dsimp only
        rw [offends]
        rfl
      · apply StakingPrism.majorityRoot_agreed
        · intro statement listed
          obtain ⟨entry, filtered, rfl⟩ := List.mem_map.mp listed
          obtain ⟨member, agrees⟩ := List.mem_filter.mp filtered
          rw [decide_eq_true_iff] at agrees
          refine ⟨?_, ?_, ?_, List.not_mem_nil⟩
          · rw [stated entry member]
            rfl
          · intro same
            obtain ⟨held, concerning⟩ := mem_agreement.mp member
            have equal := kept.sound.unique held inside (concerning.trans mine.symm) same
            rw [equal] at agrees
            exact deviates agrees
          · rw [← agrees]
            rfl
        · rw [List.map_map]
          exact kept.sound.nodup_parties commitment _
        · intro root none
          cases none
        · right
          intro empty
          rw [List.map_eq_nil_iff.mp empty, List.length_nil] at backed
          omega
      · intro same
        exact deviates (Hash.toHex_injective same)
      · dsimp only
        rw [List.length_map]
        exact backed

omit [Blake3] [Ed25519] [SerdeJson] [ChaCha20Poly1305] [X25519] in
instance (keyOf : PartyId → List UInt8) (envelope : PrivateEnvelope) (entry : RootAttestation) :
    Decidable (OfStakeholder keyOf envelope entry) :=
  inferInstanceAs (Decidable (_ ∧ _))

omit [Blake3] [Ed25519] [SerdeJson] [ChaCha20Poly1305] [X25519] in
/-- The book without the attestations of anybody else. -/
def ofStakeholders (keyOf : PartyId → List UInt8) (envelope : PrivateEnvelope)
    (book : AttestationBook) : AttestationBook :=
  ⟨book.entries.filter fun entry => OfStakeholder keyOf envelope entry⟩

omit [SerdeJson] [ChaCha20Poly1305] [X25519] in
theorem Arbitrates.canonical (kept : Arbitrates keyOf node) {commitment : Hash}
    {envelope : PrivateEnvelope} (filed : node.privateEnvelopes.lookup commitment = some envelope)
    (count : Nat) :
    node.attestations.canonicalRoot commitment count =
      (ofStakeholders keyOf envelope node.attestations).canonicalRoot commitment count := by
  apply AttestationBook.canonicalRoot_congr
  unfold AttestationBook.agreement ofStakeholders
  rw [List.filter_filter]
  apply List.filter_congr
  intro entry member
  by_cases about : entry.commitment = commitment
  · have own := kept.genuine commitment envelope filed entry (mem_agreement.mpr ⟨member, about⟩)
    simp [about, own]
  · simp [about]

/-! ### Runs -/

omit [SerdeJson] [ChaCha20Poly1305] [X25519] in
/-- A verified attestation of a stakeholder for a filed envelope is what the evidence
counts on. -/
theorem Arbitrates.honest (kept : Arbitrates keyOf node) {envelope : PrivateEnvelope}
    {attestation : RootAttestation}
    (filed : node.privateEnvelopes.lookup attestation.commitment = some envelope)
    (own : OfStakeholder keyOf envelope attestation) (verified : attestation.verify = .ok ()) :
    Genuine keyOf node (.attestation attestation) := by
  constructor
  · intro other lookup _ _
    rw [← Option.some.inj (filed.symm.trans lookup)]
    exact own
  · intro entry member conflict
    refine ⟨verified, ?_⟩
    have genuine := kept.genuine _ envelope filed entry (mem_agreement.mpr ⟨member, conflict.1⟩)
    have sameKey : attestation.publicKey = entry.publicKey := by
      rw [own.2, genuine.2, conflict.2.1]
    rw [sameKey]
    exact kept.sound.verified entry member

theorem Arbitrates.along (kept : Arbitrates keyOf node) {envelope : PrivateEnvelope}
    (filed : node.privateEnvelopes.lookup envelope.commitment = some envelope)
    {attestations : List RootAttestation}
    (honest : ∀ attestation ∈ attestations, attestation.commitment = envelope.commitment ∧
      OfStakeholder keyOf envelope attestation ∧ attestation.verify = .ok ()) :
    Run.Along Node.receive (Genuine keyOf) node (attestations.map .attestation) := by
  induction attestations generalizing node with
  | nil => trivial
  | cons attestation rest ih =>
      obtain ⟨about, own, verified⟩ := honest attestation List.mem_cons_self
      have lookup : node.privateEnvelopes.lookup attestation.commitment = some envelope := by
        rw [about]
        exact filed
      have genuine := kept.honest lookup own verified
      refine ⟨genuine, ih (kept.receive genuine) filed ?_⟩
      intro later member
      exact honest later (List.mem_cons_of_mem _ member)

/-- Verified attestations of new parties enter the book one after the other. -/
theorem run_attestations {node : Node} {attestations : List RootAttestation}
    (verified : ∀ attestation ∈ attestations, attestation.verify = .ok ())
    (distinct : (node.attestations.entries ++ attestations).Pairwise
      fun entry later => entry.party ≠ later.party) :
    (Run.run receive node (attestations.map .attestation)).attestations =
        ⟨node.attestations.entries ++ attestations⟩ ∧
      (Run.run receive node (attestations.map .attestation)).privateEnvelopes =
        node.privateEnvelopes := by
  induction attestations generalizing node with
  | nil =>
      rw [List.append_nil]
      exact ⟨rfl, rfl⟩
  | cons attestation rest ih =>
      have fresh : ∀ entry ∈ node.attestations.entries,
          ¬ (entry.commitment = attestation.commitment ∧ entry.party = attestation.party) := by
        intro entry member same
        exact (List.pairwise_append.mp distinct).2.2 entry member attestation List.mem_cons_self
          same.2
      have stored : (node.receive (.attestation attestation)).attestations =
          ⟨node.attestations.entries ++ [attestation]⟩ :=
        AttestationBook.record_fresh (verified attestation List.mem_cons_self) fresh
      have later := @ih (node.receive (.attestation attestation))
        (fun other member => verified other (List.mem_cons_of_mem _ member))
      rw [stored, List.append_assoc, List.singleton_append] at later
      exact later distinct

theorem arbitrates_run {start : Node} {receipts : List Receipt}
    (unattested : start.attestations = .empty) (unfiled : start.privateEnvelopes = ∅)
    (hosted : ∀ keyring ∈ start.keyrings, keyOf keyring.party = (hostedIdentity keyring).publicKey)
    (proper : Run.Along receive (Genuine keyOf) start receipts) :
    Arbitrates keyOf (Run.run receive start receipts) := by
  have initially : Arbitrates keyOf start := by
    constructor
    · rw [unattested]
      exact ⟨fun entry member => absurd member List.not_mem_nil, List.Pairwise.nil⟩
    · exact hosted
    · intro commitment envelope lookup
      rw [unfiled, AList.lookup_empty] at lookup
      cases lookup
    · intro commitment envelope lookup
      rw [unfiled, AList.lookup_empty] at lookup
      cases lookup
  exact Run.invariant receive (fun node receipt kept genuine => kept.receive genuine) initially
    proper

/-- As long as every attestation that enters the book for an envelope is a stakeholder's,
and every contradiction is signed with the key of what it contradicts, all evidence
passes the checks of the chain, and stakeholders alone decide the canonical root. -/
theorem evidence_accepted (keyOf : PartyId → List UInt8) (start : Node) (receipts : List Receipt)
    (unattested : start.attestations = .empty) (unfiled : start.privateEnvelopes = ∅)
    (hosted : ∀ keyring ∈ start.keyrings, keyOf keyring.party = (hostedIdentity keyring).publicKey)
    (proper : Run.Along receive (Genuine keyOf) start receipts) :
    (∀ front attestation back proof, receipts = front ++ .attestation attestation :: back →
      (Run.run receive start front).privateDivergenceProof attestation = some proof →
      ∃ stored ∈ (Run.run receive start front).attestations.entries,
        Contradicts stored attestation ∧
        Passes (.slash proof) (equivocationOffence attestation.party stored.signedMessage
          attestation.signedMessage) attestation.party) ∧
    ∀ front back commitment, receipts = front ++ back →
      (∀ proof ∈ (Run.run receive start front).privateQuorumFraudProofs commitment,
        Passes (.slashQuorum proof) (quorumOffence proof) proof.offender) ∧
      ∀ envelope, (Run.run receive start front).privateEnvelopes.lookup commitment = some envelope →
        (Run.run receive start front).attestations.canonicalRoot commitment
            envelope.stakeholders.length =
          (ofStakeholders keyOf envelope (Run.run receive start front).attestations).canonicalRoot
            commitment envelope.stakeholders.length := by
  constructor
  · intro front attestation back proof split drawn
    have genuine := Run.along_iff_splits receive |>.mp proper front _ back split
    exact divergence_passes genuine drawn
  · intro front back commitment split
    rw [split] at proper
    have kept := arbitrates_run unattested unfiled hosted
      ((Run.along_append receive).mp proper).1
    exact ⟨fun proof drawn => kept.quorum_passes drawn,
      fun envelope filed => kept.canonical filed _⟩

end Receiving

/-! ### Strangers -/

section Strangers

attribute [local instance] SerdeJson.compact Blake3.polynomial Ed25519.keyed
  ChaCha20Poly1305.keyed X25519.masked

open StakingPrism (Asks Order alice bob carol rootOne rootTwo threeParty trioKey)

/-- A node that hosts nobody. -/
def bystander : Node := Node.new ⟨"v1"⟩ Cascade.empty

/-- A transaction of Alice alone. -/
def solo : PrivateEnvelope :=
  { commitment := PrivateEnvelope.expectedCommitment .zero (Vector.replicate 32 0) [alice.party] []
    salt := .zero
    ephemeralPublic := Vector.replicate 32 0
    stakeholders := [alice.party]
    shares := [] }

def mallory : PartyIdentity := .repeated "mallory" 9

def malloryAttests : List RootAttestation :=
  [.create mallory solo.commitment rootTwo, .create alice solo.commitment rootOne]

/-- Mallory is first to attest to a root of Alice's transaction. -/
def malloryFirst : List Receipt :=
  .envelope (.healthy 0) solo :: malloryAttests.map .attestation

/-- A second root in Alice's name, without her signature. -/
def forged : RootAttestation :=
  { RootAttestation.create alice solo.commitment rootTwo with
    signature := List.replicate 64 0 }

theorem bystander_files {envelope : PrivateEnvelope} (bound : envelope.verifyCommitment = true)
    {attestations : List RootAttestation}
    (verified : ∀ attestation ∈ attestations, attestation.verify = .ok ())
    (distinct : attestations.Pairwise fun entry later => entry.party ≠ later.party) :
    (Run.run receive bystander
        (.envelope (.healthy 0) envelope :: attestations.map .attestation)).attestations =
      ⟨attestations⟩ ∧
    (Run.run receive bystander (.envelope (.healthy 0) envelope ::
        attestations.map .attestation)).privateEnvelopes.lookup envelope.commitment =
      some envelope := by
  have filed : bystander.receive (.envelope (.healthy 0) envelope) =
      bystander.recorded envelope :=
    receive_unhosted rfl rfl ⟨bound, List.not_mem_nil⟩
  have outcome := @run_attestations _ _ _ _ _ (bystander.recorded envelope) attestations verified
    distinct
  rw [Run.run_cons, filed, outcome.1, outcome.2]
  exact ⟨rfl, AList.lookup_insert _⟩

theorem malloryFirst_files : (Run.run receive bystander malloryFirst).attestations =
      ⟨malloryAttests⟩ ∧
    (Run.run receive bystander malloryFirst).privateEnvelopes.lookup solo.commitment =
      some solo := by
  have bound : solo.verifyCommitment = true := decide_eq_true rfl
  have verified : ∀ attestation ∈ malloryAttests, attestation.verify = .ok () := by
    intro attestation member
    simp only [malloryAttests, List.mem_cons, List.not_mem_nil, or_false] at member
    rcases member with rfl | rfl
    all_goals exact RootAttestation.verify_create _ _ _
  have distinct : malloryAttests.Pairwise fun entry later => entry.party ≠ later.party := by
    simp [malloryAttests, RootAttestation.create, mallory, alice, PartyIdentity.repeated]
  exact bystander_files bound verified distinct

/-- Mallory, who is no stakeholder, decides the canonical root of Alice's transaction: the
node accuses Alice with a majority that the chain does not accept, whatever its state.
A forged contradiction in her name is passed on as evidence, too. -/
theorem mallory_decides :
    (∃ proof ∈ (Run.run receive bystander malloryFirst).privateQuorumFraudProofs solo.commitment,
      proof.offender = alice.party ∧ (∃ command, Asks command (.slashQuorum proof)) ∧
      Rejects (.slashQuorum proof)
        (.unauthorized "attester is not a stakeholder of this confidential tx")) ∧
    (Run.run receive bystander malloryFirst).attestations.canonicalRoot solo.commitment
      solo.stakeholders.length = some rootTwo ∧
    (∀ entry ∈ (Run.run receive bystander malloryFirst).attestations.agreement solo.commitment,
      entry.privateRoot = rootTwo → entry.party ∉ solo.stakeholders) ∧
    ∃ proof, (Run.run receive bystander malloryFirst).privateDivergenceProof forged = some proof ∧
      (∃ command, Asks command (.slash proof)) ∧
      Rejects (.slash proof) (.unauthorized "signature_b invalid") := by
  have different : rootOne ≠ rootTwo := by decide
  have about : (AttestationBook.mk malloryAttests).agreement solo.commitment = malloryAttests :=
    agreement_all (by simp [malloryAttests, RootAttestation.create])
  have decided : (AttestationBook.mk malloryAttests).canonicalRoot solo.commitment
      solo.stakeholders.length = some rootTwo := by
    unfold AttestationBook.canonicalRoot
    rw [about]
    decide
  rw [← malloryFirst_files.1] at about decided
  refine ⟨?_, decided, ?_, ?_⟩
  · have minority : malloryAttests.filter (fun entry => entry.privateRoot ≠ rootTwo) =
        [.create alice solo.commitment rootOne] := by
      simp [malloryAttests, RootAttestation.create, different]
    have majority : malloryAttests.filter (fun entry => entry.privateRoot = rootTwo) =
        [.create mallory solo.commitment rootTwo] := by
      simp [malloryAttests, RootAttestation.create, different]
    rw [privateQuorumFraudProofs_eq malloryFirst_files.2 decided, about, minority, majority]
    refine ⟨_, List.mem_singleton_self _, rfl, StakingPrism.exists_asks _, ?_⟩
    have stated : attested solo (attestationStatement (.create alice solo.commitment rootOne)) =
        some rootOne :=
      attested_attestationStatement (by decide) rfl (RootAttestation.verify_create _ _ _)
    refine StakingPrism.slashQuorum_rejects (decide_eq_true rfl) rfl ?_ rfl (by decide)
    dsimp only
    rw [stated]
    rfl
  · rw [about]
    decide
  · have found : (Run.run receive bystander malloryFirst).attestations.selfEquivocation forged =
        some
          { party := alice.party
            publicKey := alice.publicKey
            a := .create alice solo.commitment rootOne
            b := forged } := by
      have first : malloryAttests.find? (fun entry =>
            entry.commitment = forged.commitment ∧ entry.party = forged.party ∧
              entry.privateRoot ≠ forged.privateRoot) =
          some (.create alice solo.commitment rootOne) := by
        simp [malloryAttests, forged, RootAttestation.create, alice, mallory,
          PartyIdentity.repeated, different]
      rw [malloryFirst_files.1]
      unfold AttestationBook.selfEquivocation
      rw [first]
      rfl
    unfold privateDivergenceProof
    rw [found]
    refine ⟨_, rfl, StakingPrism.exists_asks _, ?_⟩
    exact StakingPrism.slash_rejects (StakingPrism.hexOf_hexEncode _)
      (StakingPrism.hexOf_hexEncode _) (StakingPrism.hexOf_hexEncode _)
      (StakingPrism.hexOf_hexEncode _) (StakingPrism.hexOf_hexEncode _) (by decide +kernel)
      (StakingPrism.verifies_signBytes _ _) (by decide +kernel)

end Strangers

section Trio

attribute [local instance] SerdeJson.compact Blake3.polynomial Ed25519.keyed
  ChaCha20Poly1305.keyed X25519.masked

open StakingPrism (alice bob carol rootOne rootTwo threeParty trioKey trio)

/-- Alice and Carol attest to one root and Bob to another. -/
def trioAttests : List RootAttestation :=
  [.create alice threeParty.commitment rootTwo, .create carol threeParty.commitment rootTwo,
    .create bob threeParty.commitment rootOne]

/-- Alice's second root. -/
def contradiction : RootAttestation := .create alice threeParty.commitment rootOne

def trioFront : List Receipt :=
  .envelope (.healthy 0) threeParty :: trioAttests.map .attestation

def trioReceipts : List Receipt := trioFront ++ [.attestation contradiction]

theorem trioAttests_honest : ∀ attestation ∈ trioAttests ++ [contradiction],
    attestation.commitment = threeParty.commitment ∧
      OfStakeholder trioKey threeParty attestation ∧ attestation.verify = .ok () := by
  intro attestation member
  simp only [trioAttests, contradiction, List.cons_append, List.nil_append, List.mem_cons,
    List.not_mem_nil, or_false] at member
  rcases member with rfl | rfl | rfl | rfl
  all_goals exact ⟨rfl, ⟨by decide, rfl⟩, RootAttestation.verify_create _ _ _⟩

theorem trio_files : (Run.run receive bystander trioFront).attestations = ⟨trioAttests⟩ ∧
    (Run.run receive bystander trioFront).privateEnvelopes.lookup threeParty.commitment =
        some threeParty := by
  have bound : threeParty.verifyCommitment = true := decide_eq_true rfl
  have verified : ∀ attestation ∈ trioAttests, attestation.verify = .ok () := by
    intro attestation member
    exact (trioAttests_honest attestation (List.mem_append_left _ member)).2.2
  have distinct : trioAttests.Pairwise fun entry later => entry.party ≠ later.party := by
    simp [trioAttests, RootAttestation.create, alice, bob, carol, PartyIdentity.repeated]
  exact bystander_files bound verified distinct

theorem trio_genuine : Run.Along receive (Genuine trioKey) bystander trioReceipts := by
  have first : Genuine trioKey bystander (.envelope (.healthy 0) threeParty) := by
    intro _ entry member
    cases member
  have kept : Arbitrates trioKey (bystander.receive (.envelope (.healthy 0) threeParty)) :=
    @arbitrates_run _ _ _ _ _ trioKey bystander [.envelope (.healthy 0) threeParty] rfl rfl
      (fun _ member => nomatch member) ⟨first, trivial⟩
  have bound : threeParty.verifyCommitment = true := decide_eq_true rfl
  have filed : (bystander.receive (.envelope (.healthy 0) threeParty)).privateEnvelopes.lookup
      threeParty.commitment = some threeParty := by
    rw [receive_unhosted rfl rfl ⟨bound, List.not_mem_nil⟩]
    exact AList.lookup_insert _
  have split : trioReceipts = .envelope (.healthy 0) threeParty ::
      (trioAttests ++ [contradiction]).map .attestation := rfl
  rw [split]
  exact ⟨first, kept.along filed trioAttests_honest⟩

/-- The theorem at this run: Bob is accused by a majority and Alice by her own signatures. -/
theorem evidence_accepted_trio :
    (∃ proof ∈ (Run.run receive bystander trioFront).privateQuorumFraudProofs threeParty.commitment,
      proof.offender = bob.party ∧
      Passes (.slashQuorum proof) (quorumOffence proof) bob.party) ∧
    ∃ proof, (Run.run receive bystander trioFront).privateDivergenceProof contradiction = some proof ∧
      ∃ stored, Passes (.slash proof) (equivocationOffence alice.party stored
        contradiction.signedMessage) alice.party := by
  obtain ⟨divergence, arbitration⟩ := evidence_accepted trioKey bystander trioReceipts rfl rfl
    (fun _ member => nomatch member) trio_genuine
  obtain ⟨book, filed⟩ := trio_files
  have different : rootOne ≠ rootTwo := by decide
  have about : (AttestationBook.mk trioAttests).agreement threeParty.commitment = trioAttests :=
    agreement_all fun entry member =>
      (trioAttests_honest entry (List.mem_append_left _ member)).1
  have decided : (AttestationBook.mk trioAttests).canonicalRoot threeParty.commitment
      threeParty.stakeholders.length = some rootTwo := by
    unfold AttestationBook.canonicalRoot
    rw [about]
    decide
  have minority : trioAttests.filter (fun entry => entry.privateRoot ≠ rootTwo) =
      [.create bob threeParty.commitment rootOne] := by
    simp [trioAttests, RootAttestation.create, different]
  have first : trioAttests.find? (fun entry => entry.commitment = contradiction.commitment ∧
      entry.party = contradiction.party ∧ entry.privateRoot ≠ contradiction.privateRoot) =
        some (.create alice threeParty.commitment rootTwo) := by
    simp [trioAttests, contradiction, RootAttestation.create, Ne.symm different]
  constructor
  · obtain ⟨passes, _⟩ := arbitration trioFront [.attestation contradiction] threeParty.commitment rfl
    have accused : ∃ proof ∈ (Run.run receive bystander trioFront).privateQuorumFraudProofs threeParty.commitment,
        proof.offender = bob.party := by
      rw [← book] at about decided
      rw [privateQuorumFraudProofs_eq filed decided, about, minority]
      exact ⟨_, List.mem_singleton_self _, rfl⟩
    obtain ⟨proof, member, same⟩ := accused
    refine ⟨proof, member, same, ?_⟩
    rw [← same]
    exact passes proof member
  · have accused : ∃ proof, (Run.run receive bystander trioFront).privateDivergenceProof contradiction = some proof := by
      apply Option.isSome_iff_exists.mp
      unfold privateDivergenceProof AttestationBook.selfEquivocation
      rw [Option.isSome_map, Option.isSome_map, book]
      exact Option.isSome_of_eq_some first
    obtain ⟨proof, drawn⟩ := accused
    obtain ⟨stored, _, _, passes⟩ := divergence trioFront contradiction [] proof rfl drawn
    exact ⟨proof, drawn, stored.signedMessage, passes⟩

end Trio

end Node

end Veilux
