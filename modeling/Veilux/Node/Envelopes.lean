/-
Private envelopes as a node receives them.  The commitment is recorded before the envelope
is opened, routed and executed, and the cascade works on the private state in place, so a
failure behind the bookkeeping leaves traces; and nothing on this path says who sealed the
command.
-/

import Veilux.Node.Chain
import Veilux.Node.Private
import Veilux.Prism.TokenEffects
import Veilux.Veil.Sealing

namespace Veilux

namespace Node

section Applying

variable [Blake3] [Ed25519] [SerdeJson] [ChaCha20Poly1305] [X25519]

/-- The bookkeeping in front of the execution. -/
def recorded (node : Node) (envelope : PrivateEnvelope) : Node :=
  { node with
    privateCommitments := node.privateCommitments ++ [envelope.commitment]
    privateEnvelopes := node.privateEnvelopes.insert envelope.commitment envelope }

/-- The first hosted stakeholder. -/
def opener (node : Node) (envelope : PrivateEnvelope) : Option ViewKeyring :=
  node.keyrings.find? fun keyring => envelope.isStakeholder keyring.party

/-- The envelope passes the checks and its commitment is saved. -/
structure Booked (env : Env) (node : Node) (envelope : PrivateEnvelope) : Prop where
  genuine : envelope.verifyCommitment = true
  fresh : envelope.commitment ∉ node.privateCommitments
  saved : ((node.recorded envelope).persist (Store.savePrivateCommitments env
    (node.recorded envelope).privateCommitments)).1 = .ok ()

/-- Everything `apply_private_envelope` can do. -/
inductive Applied (env : Env) (node : Node) (envelope : PrivateEnvelope) :
    Except NodeError PrivateOutcome × Node → Prop
  | refused (error : NodeError) (early : ¬ Booked env node envelope) :
      Applied env node envelope (.error error, node)
  | unsaved (text : String) (store : Option Store) (early : ¬ Booked env node envelope) :
      Applied env node envelope
        (.error (.store text), { node.recorded envelope with store := store })
  | unhosted (outcome : PrivateOutcome) (store : Option Store)
      (absent : node.opener envelope = none) (idle : outcome.executed = false) :
      Applied env node envelope (.ok outcome, { node.recorded envelope with store := store })
  | unopened (keyring : ViewKeyring) (error : ViewError) (store : Option Store)
      (late : Booked env node envelope) (hosted : node.opener envelope = some keyring)
      (closed : openPrivate envelope keyring = .error error) :
      Applied env node envelope
        (.error (.view error), { node.recorded envelope with store := store })
  | unrouted (keyring : ViewKeyring) (inner : Command) (store : Option Store)
      (late : Booked env node envelope) (hosted : node.opener envelope = some keyring)
      (opened : openPrivate envelope keyring = .ok inner)
      (unknown : node.cascade.has inner.prism = false) :
      Applied env node envelope
        (.error (.unknownPrism inner.prism), { node.recorded envelope with store := store })
  | failed (keyring : ViewKeyring) (inner : Command) (error : CascadeError) (state : StateTree)
      (store : Option Store) (late : Booked env node envelope)
      (hosted : node.opener envelope = some keyring)
      (opened : openPrivate envelope keyring = .ok inner)
      (applied : node.cascade.apply inner node.privateState = (.error error, state)) :
      Applied env node envelope (.error (.cascade error),
        { node.recorded envelope with
          store := store
          privateState := state })
  | executed (result : Except NodeError PrivateOutcome) (keyring : ViewKeyring) (inner : Command)
      (receipt : CascadeReceipt) (state : StateTree) (book : AttestationBook)
      (store : Option Store)
      (settled : (∃ outcome, result = .ok outcome ∧ outcome.executed = true) ∨
        ∃ text op, result = .error (.store text) ∧ env.io op ≠ none)
      (late : Booked env node envelope)
      (hosted : node.opener envelope = some keyring)
      (opened : openPrivate envelope keyring = .ok inner)
      (known : node.cascade.has inner.prism = true)
      (applied : node.cascade.apply inner node.privateState = (.ok receipt, state)) :
      Applied env node envelope (result,
        { node.recorded envelope with
          store := store
          privateState := state
          attestations := book })

theorem executePrivate_applied {env : Env} {node : Node} {envelope : PrivateEnvelope}
    {keyring : ViewKeyring} (store : Option Store) (late : Booked env node envelope)
    (hosted : node.opener envelope = some keyring) :
    Applied env node envelope
      (({ node.recorded envelope with store := store } : Node).executePrivate env envelope
        keyring) := by
  unfold executePrivate
  cases opened : openPrivate envelope keyring with
  | error error => exact .unopened keyring error store late hosted opened
  | ok inner =>
      dsimp only
      by_cases known : (node.recorded envelope).cascade.has inner.prism = true
      · rw [if_neg (not_not_intro known)]
        cases applied : (node.recorded envelope).cascade.apply inner
            (node.recorded envelope).privateState with
        | mk result state =>
            cases result with
            | error error => exact .failed keyring inner error state store late hosted opened applied
            | ok receipt =>
                dsimp only
                obtain ⟨written, kept⟩ := persist_eq ({ node.recorded envelope with
                  store := store
                  privateState := state
                  attestations := ((node.recorded envelope).attestations.record
                    (RootAttestation.create (hostedIdentity keyring) envelope.commitment
                      state.root)).2 } : Node) (Store.savePrivateState env state)
                split
                · rename_i error after wrote
                  obtain ⟨text, same⟩ := persist_error (congrArg Prod.fst wrote)
                  have broken : ∃ op, env.io op ≠ none := by
                    by_contra healthy
                    push Not at healthy
                    have saved := persist_ok ({ node.recorded envelope with
                      store := store
                      privateState := state
                      attestations := ((node.recorded envelope).attestations.record
                        (RootAttestation.create (hostedIdentity keyring) envelope.commitment
                          state.root)).2 } : Node) (write_ok healthy .savePrivateState fun disk =>
                            { disk with privateState := some (toVec state) })
                    have failed := (congrArg Prod.fst wrote).symm.trans saved
                    cases failed
                  obtain ⟨op, fault⟩ := broken
                  rw [wrote] at kept
                  dsimp only at kept
                  rw [same, kept]
                  exact .executed _ keyring inner receipt state _ written
                    (.inr ⟨text, op, rfl, fault⟩) late hosted opened known applied
                · rename_i after wrote
                  rw [wrote] at kept
                  dsimp only at kept
                  rw [kept]
                  exact .executed _ keyring inner receipt state _ written (.inl ⟨_, rfl, rfl⟩) late
                    hosted opened known applied
      · rw [if_pos known]
        exact .unrouted keyring inner store late hosted opened (Bool.eq_false_of_not_eq_true known)

theorem applyPrivateEnvelope_applied (env : Env) (node : Node) (envelope : PrivateEnvelope) :
    Applied env node envelope (node.applyPrivateEnvelope env envelope) := by
  unfold applyPrivateEnvelope
  by_cases genuine : envelope.verifyCommitment = true
  · rw [if_neg (not_not_intro genuine)]
    by_cases known : node.privateCommitments.contains envelope.commitment = true
    · rw [if_pos known]
      refine .refused _ fun late => late.fresh ?_
      exact List.contains_iff_mem.mp known
    · rw [if_neg known]
      have fresh : envelope.commitment ∉ node.privateCommitments := fun member =>
        known (List.contains_iff_mem.mpr member)
      obtain ⟨store, kept⟩ := persist_eq (node.recorded envelope)
        (Store.savePrivateCommitments env (node.recorded envelope).privateCommitments)
      dsimp only
      split
      · rename_i error after failed
        have wrote : (node.recorded envelope).persist (Store.savePrivateCommitments env
            (node.recorded envelope).privateCommitments) = (.error error, after) := failed
        rw [wrote] at kept
        dsimp only at kept
        obtain ⟨text, same⟩ := persist_error (congrArg Prod.fst wrote)
        rw [same, kept]
        refine .unsaved text store fun late => ?_
        have saved := late.saved
        rw [wrote] at saved
        cases saved
      · rename_i after done
        have wrote : (node.recorded envelope).persist (Store.savePrivateCommitments env
            (node.recorded envelope).privateCommitments) = (.ok (), after) := done
        rw [wrote] at kept
        have late : Booked env node envelope := ⟨genuine, fresh, congrArg Prod.fst wrote⟩
        dsimp only at kept
        subst kept
        split
        · rename_i keyring found
          have hosted : node.opener envelope = some keyring := found
          exact executePrivate_applied store late hosted
        · rename_i nobody
          have hosted : node.opener envelope = none := nobody
          exact .unhosted _ store hosted rfl
  · rw [if_pos genuine]
    exact .refused _ fun late => genuine late.genuine

/-! ### All or nothing -/

/-- The private data of a node. -/
def SamePrivate (node after : Node) : Prop :=
  after.privateState = node.privateState ∧
    after.privateCommitments = node.privateCommitments ∧
    after.privateEnvelopes = node.privateEnvelopes ∧ after.attestations = node.attestations

/-- A failure that is not the disk's leaves no trace; a success is a complete cascade. -/
def AllOrNothing (env : Env) (node : Node) (envelope : PrivateEnvelope) : Prop :=
  (∀ error, (node.applyPrivateEnvelope env envelope).1 = .error error →
    (∀ text, error ≠ .store text) → SamePrivate node (node.applyPrivateEnvelope env envelope).2) ∧
  ∀ outcome, (node.applyPrivateEnvelope env envelope).1 = .ok outcome → outcome.executed = true →
    ∃ keyring inner receipt, node.opener envelope = some keyring ∧
      openPrivate envelope keyring = .ok inner ∧ node.cascade.apply inner node.privateState =
        (.ok receipt, (node.applyPrivateEnvelope env envelope).2.privateState)

/-- The keyring opens the envelope and the cascade goes through. -/
def RunsThrough (node : Node) (envelope : PrivateEnvelope) (keyring : ViewKeyring) : Prop :=
  ∃ inner receipt state, openPrivate envelope keyring = .ok inner ∧
    node.cascade.has inner.prism = true ∧
    node.cascade.apply inner node.privateState = (.ok receipt, state)

omit [Ed25519] [SerdeJson] [ChaCha20Poly1305] [X25519] [Blake3] in
theorem commitments_grow (node : Node) (envelope : PrivateEnvelope) :
    (node.recorded envelope).privateCommitments ≠ node.privateCommitments := by
  intro same
  have lengths := congrArg List.length same
  change (node.privateCommitments ++ [envelope.commitment]).length = _ at lengths
  rw [List.length_append, List.length_singleton] at lengths
  omega

/-- Applying an envelope is all or nothing just if whatever was recorded for a hosted
stakeholder also opens and executes. -/
theorem envelope_all_or_nothing_iff (env : Env) (node : Node) (envelope : PrivateEnvelope) :
    AllOrNothing env node envelope ↔
      (Booked env node envelope → ∀ keyring, node.opener envelope = some keyring →
        RunsThrough node envelope keyring) := by
  unfold AllOrNothing
  have applied := applyPrivateEnvelope_applied env node envelope
  generalize node.applyPrivateEnvelope env envelope = result at applied
  -- A failure behind the bookkeeping breaks both sides.
  have traced : ∀ {after : Node} {error : NodeError}, (∀ text, error ≠ .store text) →
      after.privateCommitments = (node.recorded envelope).privateCommitments →
      ¬ (∀ other, (Except.error error : Except NodeError PrivateOutcome) = .error other →
        (∀ text, other ≠ .store text) → SamePrivate node after) := by
    intro after error genuine grown untouched
    apply commitments_grow node envelope
    rw [← grown]
    exact (untouched error rfl genuine).2.1
  cases applied with
  | refused error early =>
      constructor
      · intro _ late
        exact absurd late early
      · intro _
        refine ⟨fun _ _ _ => ⟨rfl, rfl, rfl, rfl⟩, ?_⟩
        intro outcome impossible
        cases impossible
  | unsaved text store early =>
      constructor
      · intro _ late
        exact absurd late early
      · intro _
        constructor
        · intro error same other
          cases same
          exact absurd rfl (other text)
        · intro outcome impossible
          cases impossible
  | unhosted outcome store absent idle =>
      constructor
      · intro _ _ keyring hosted
        rw [absent] at hosted
        cases hosted
      · intro _
        constructor
        · intro error impossible
          cases impossible
        · intro other same ran
          cases same
          rw [idle] at ran
          cases ran
  | unopened keyring error store late hosted closed =>
      constructor
      · intro whole
        exact absurd whole.1 (traced (by intro text same; cases same) rfl)
      · intro through
        obtain ⟨inner, _, _, opened, _⟩ := through late keyring hosted
        rw [closed] at opened
        cases opened
  | unrouted keyring inner store late hosted opened unknown =>
      constructor
      · intro whole
        exact absurd whole.1 (traced (by intro text same; cases same) rfl)
      · intro through
        obtain ⟨other, _, _, same, known, _⟩ := through late keyring hosted
        rw [opened] at same
        cases same
        rw [unknown] at known
        cases known
  | failed keyring inner error state store late hosted opened applied =>
      constructor
      · intro whole
        exact absurd whole.1 (traced (by intro text same; cases same) rfl)
      · intro through
        obtain ⟨other, _, _, same, _, ran⟩ := through late keyring hosted
        rw [opened] at same
        cases same
        rw [applied] at ran
        cases ran
  | executed result keyring inner receipt state book store settled late hosted opened known
      applied =>
      constructor
      · intro _ _ other found
        rw [hosted] at found
        cases found
        exact ⟨inner, receipt, state, opened, known, applied⟩
      · intro _
        constructor
        · intro error same other
          rcases settled with ⟨outcome, rfl, _⟩ | ⟨text, op, rfl, _⟩
          · cases same
          · cases same
            exact absurd rfl (other text)
        · intro outcome _ _
          exact ⟨keyring, inner, receipt, hosted, opened, applied⟩

omit [Ed25519] in
/-- Behind an opened and routed command only the cascade decides. -/
theorem Applied.opened {env : Env} {node : Node} {envelope : PrivateEnvelope}
    {result : Except NodeError PrivateOutcome × Node} (outcome : Applied env node envelope result)
    (late : Booked env node envelope) {keyring : ViewKeyring}
    (hosted : node.opener envelope = some keyring) {inner : Command}
    (opened : openPrivate envelope keyring = .ok inner)
    (known : node.cascade.has inner.prism = true) :
    (∃ error state store, node.cascade.apply inner node.privateState = (.error error, state) ∧
      result = (.error (.cascade error),
        { node.recorded envelope with
          store := store
          privateState := state })) ∨
    ∃ receipt state book store, node.cascade.apply inner node.privateState = (.ok receipt, state) ∧
      result.2 =
        { node.recorded envelope with
          store := store
          privateState := state
          attestations := book } ∧
      ((∃ outcome, result.1 = .ok outcome ∧ outcome.executed = true) ∨ ∃ op, env.io op ≠ none) := by
  cases outcome with
  | refused error early => exact absurd late early
  | unsaved text store early => exact absurd late early
  | unhosted outcome store absent idle =>
      rw [hosted] at absent
      cases absent
  | unopened other error store _ found closed =>
      rw [hosted] at found
      cases found
      rw [opened] at closed
      cases closed
  | unrouted other command store _ found read unknown =>
      rw [hosted] at found
      cases found
      rw [opened] at read
      cases read
      rw [known] at unknown
      cases unknown
  | failed other command error state store _ found read ran =>
      rw [hosted] at found
      cases found
      rw [opened] at read
      cases read
      exact .inl ⟨error, state, store, ran, rfl⟩
  | executed result other command receipt state book store settled _ found read _ ran =>
      rw [hosted] at found
      cases found
      rw [opened] at read
      cases read
      refine .inr ⟨receipt, state, book, store, ran, rfl, ?_⟩
      rcases settled with done | ⟨text, op, _, fault⟩
      · exact .inl done
      · exact .inr ⟨op, fault⟩

/-- A recorded envelope whose cascade fails keeps what the cascade wrote. -/
theorem applyPrivateEnvelope_failed {env : Env} {node : Node} {envelope : PrivateEnvelope}
    (late : Booked env node envelope) {keyring : ViewKeyring}
    (hosted : node.opener envelope = some keyring) {inner : Command}
    (opened : openPrivate envelope keyring = .ok inner)
    (known : node.cascade.has inner.prism = true) {error : CascadeError} {state : StateTree}
    (applied : node.cascade.apply inner node.privateState = (.error error, state)) :
    ∃ store, node.applyPrivateEnvelope env envelope = (.error (.cascade error),
      { node.recorded envelope with
        store := store
        privateState := state }) := by
  rcases (applyPrivateEnvelope_applied env node envelope).opened late hosted opened known with
    ⟨other, after, store, ran, same⟩ | ⟨receipt, after, book, store, ran, _⟩
  · rw [applied] at ran
    cases ran
    exact ⟨store, same⟩
  · rw [applied] at ran
    cases ran

/-- On a working disk a fresh envelope for a hosted stakeholder is executed. -/
theorem applyPrivateEnvelope_executed {env : Env} (healthy : ∀ op, env.io op = none) {node : Node}
    {envelope : PrivateEnvelope} (genuine : envelope.verifyCommitment = true)
    (fresh : envelope.commitment ∉ node.privateCommitments) {keyring : ViewKeyring}
    (hosted : node.opener envelope = some keyring) {inner : Command}
    (opened : openPrivate envelope keyring = .ok inner)
    (known : node.cascade.has inner.prism = true) {receipt : CascadeReceipt} {state : StateTree}
    (applied : node.cascade.apply inner node.privateState = (.ok receipt, state)) :
    (∃ outcome, (node.applyPrivateEnvelope env envelope).1 = .ok outcome ∧
        outcome.executed = true) ∧
      ∃ book store, (node.applyPrivateEnvelope env envelope).2 =
        { node.recorded envelope with
          store := store
          privateState := state
          attestations := book } := by
  have late : Booked env node envelope :=
    ⟨genuine, fresh, persist_ok _ (write_ok healthy .savePrivateCommitments fun store =>
      { store with
        privateCommitments := some (toVec (node.recorded envelope).privateCommitments) })⟩
  rcases (applyPrivateEnvelope_applied env node envelope).opened late hosted opened known with
    ⟨error, after, store, ran, _⟩ | ⟨other, after, book, store, ran, same, settled⟩
  · rw [applied] at ran
    cases ran
  · rw [applied] at ran
    cases ran
    rcases settled with done | ⟨op, fault⟩
    · exact ⟨done, book, store, same⟩
    · exact absurd (healthy op) fault

end Applying

/-! ### Who sealed the command -/

/-- An envelope with the party that made it. -/
structure Sealing where
  author : PartyId
  ephemeral : Vector UInt8 32
  inner : Command
  recipients : List Recipient
  salt : Hash

section Authorship

variable [Blake3] [Ed25519] [SerdeJson] [ChaCha20Poly1305] [X25519]

/-- A node takes envelopes as they come. -/
def takeEnvelope (node : Node) (message : Env × PrivateEnvelope) : Node :=
  (node.applyPrivateEnvelope message.1 message.2).2

/-- The envelope is executed here, with this command inside. -/
def Executes (env : Env) (node : Node) (envelope : PrivateEnvelope) (inner : Command) : Prop :=
  ∃ keyring outcome, node.opener envelope = some keyring ∧
    openPrivate envelope keyring = .ok inner ∧
    (node.applyPrivateEnvelope env envelope).1 = .ok outcome ∧ outcome.executed = true

theorem takeEnvelope_keyrings (node : Node) (message : Env × PrivateEnvelope) :
    (node.takeEnvelope message).keyrings = node.keyrings := by
  unfold takeEnvelope
  have outcome := applyPrivateEnvelope_applied message.1 node message.2
  generalize node.applyPrivateEnvelope message.1 message.2 = result at outcome
  cases outcome <;> rfl

theorem run_keyrings (node : Node) (messages : List (Env × PrivateEnvelope)) :
    (Run.run takeEnvelope node messages).keyrings = node.keyrings := by
  induction messages using List.reverseRecOn with
  | nil => rfl
  | append_singleton front message ih =>
      rw [Run.run_snoc, takeEnvelope_keyrings, ih]

variable [X25519Public]

def Sealing.envelope (sealing : Sealing) : PrivateEnvelope :=
  sealPrivateTo sealing.ephemeral sealing.inner sealing.recipients sealing.salt

/-- Whatever is sealed by whom and in whatever order it arrives, a command is executed only
if its submitter sealed it. -/
def Authorizes (start : Node) : Prop :=
  ∀ (sealings : List Sealing) (messages : List (Env × PrivateEnvelope)),
    (∀ message ∈ messages, ∃ sealing ∈ sealings, message.2 = sealing.envelope) →
    ∀ front env envelope back inner, messages = front ++ (env, envelope) :: back →
      Executes env (Run.run takeEnvelope start front) envelope inner →
      ∃ sealing ∈ sealings, sealing.inner = inner ∧ sealing.author = inner.submitter

omit [Ed25519] [SerdeJson] in
theorem opener_sealed {node : Node} {keyring : ViewKeyring} {others : List ViewKeyring}
    (hosts : node.keyrings = keyring :: others) {sealing : Sealing}
    (only : sealing.recipients = [keyring.recipient]) :
    node.opener sealing.envelope = some keyring := by
  have stakeholders : sealing.envelope.stakeholders = [keyring.party] := by
    unfold Sealing.envelope sealPrivateTo
    rw [only]
    rfl
  unfold Node.opener
  rw [hosts, List.find?_cons_of_pos]
  unfold PrivateEnvelope.isStakeholder
  rw [stakeholders]
  simp

omit [Ed25519] in
theorem open_sealing {keyring : ViewKeyring} {sealing : Sealing}
    (only : sealing.recipients = [keyring.recipient]) :
    openPrivate sealing.envelope keyring = .ok sealing.inner := by
  unfold Sealing.envelope
  rw [only]
  exact openPrivate_sealed _ _ _ [] _

/-- A command sealed to one hosted party by anybody is executed. -/
theorem sealed_executes {node : Node} {keyring : ViewKeyring} {others : List ViewKeyring}
    (hosts : node.keyrings = keyring :: others) {sealing : Sealing}
    (only : sealing.recipients = [keyring.recipient])
    (known : node.cascade.has sealing.inner.prism = true) {receipt : CascadeReceipt}
    {state : StateTree}
    (applied : node.cascade.apply sealing.inner node.privateState = (.ok receipt, state))
    (fresh : sealing.envelope.commitment ∉ node.privateCommitments) :
    Executes (.healthy 0) node sealing.envelope sealing.inner ∧
      ∃ book store, node.takeEnvelope (.healthy 0, sealing.envelope) =
        { node.recorded sealing.envelope with
          store := store
          privateState := state
          attestations := book } := by
  have opener := opener_sealed hosts only
  have opened := open_sealing only
  have healthy : ∀ op, (Env.healthy 0).io op = none := fun _ => rfl
  obtain ⟨⟨outcome, ran, done⟩, book, store, after⟩ := applyPrivateEnvelope_executed healthy
    (verifyCommitment_sealed _ _ _ _) fresh opener opened known applied
  exact ⟨⟨keyring, outcome, opener, opened, ran, done⟩, book, store, after⟩

/-- A node whose prisms accept anything at all executes commands only of their submitters just
if it hosts nobody, and so executes nothing. -/
theorem authorizes_iff_hosts_nobody (start : Node) (fresh : start.privateCommitments = [])
    (inner : Command) (known : start.cascade.has inner.prism = true) (receipt : CascadeReceipt)
    (state : StateTree)
    (applied : start.cascade.apply inner start.privateState = (.ok receipt, state)) :
    Authorizes start ↔ start.keyrings = [] := by
  constructor
  · intro authorizes
    cases hosts : start.keyrings with
    | nil => rfl
    | cons keyring others =>
        -- Anybody else seals the same command to the first hosted party.
        let forged : Sealing :=
          { author := ⟨inner.submitter.name ++ "'"⟩
            ephemeral := Vector.replicate 32 1
            inner := inner
            recipients := [keyring.recipient]
            salt := Hash.zero }
        have unused : forged.envelope.commitment ∉ start.privateCommitments := by
          rw [fresh]
          exact List.not_mem_nil
        have executes := (@sealed_executes _ _ _ _ _ _ start keyring others hosts forged rfl known
          receipt state applied unused).1
        obtain ⟨sealing, member, _, author⟩ := authorizes [forged]
          [(.healthy 0, forged.envelope)]
          (by
            intro message inside
            rw [List.mem_singleton.mp inside]
            exact ⟨forged, List.mem_singleton_self _, rfl⟩)
          [] (.healthy 0) forged.envelope [] inner rfl executes
        rw [List.mem_singleton.mp member] at author
        have names := congrArg (fun party => party.name.length) author
        dsimp only [forged] at names
        rw [String.length_append] at names
        change inner.submitter.name.length + 1 = inner.submitter.name.length at names
        omega
  · intro nobody sealings messages _ front env envelope back inner _ executes
    obtain ⟨keyring, _, hosted, _⟩ := executes
    unfold Node.opener at hosted
    rw [run_keyrings, nobody] at hosted
    cases hosted

end Authorship

/-! ### Gold in private -/

section Gold

/-- A digest that copies a window of its input; an envelope's commitment is then its salt. -/
@[reducible] def windowDigest : Blake3 where
  digest bytes := Vector.ofFn fun index : Fin 32 => ((bytes.drop 62)[index.val]?).getD 0

attribute [local instance] SerdeJson.compact windowDigest Ed25519.keyed
  ChaCha20Poly1305.keyed X25519.masked X25519Public.masked

open TokenPrism (tokenCommand withBalance balance moved)

def privateGoldId : Hash := TokenPrism.createdId ⟨"alice"⟩ "GLD" "Gold"

def bobKeyring : ViewKeyring :=
  { party := ⟨"bob"⟩
    seed := Vector.replicate 32 9 }

noncomputable def tokenCascade : Cascade := Cascade.empty.install TokenPrism.prism

/-- A fresh node that hosts Bob. -/
noncomputable def bobNode : Node := (Node.new ⟨"v1"⟩ tokenCascade).hostParty bobKeyring

/-- Alice creates a thousand units and tells Bob. -/
def aliceCreates : Sealing :=
  { author := ⟨"alice"⟩
    ephemeral := Vector.replicate 32 1
    inner := tokenCommand "alice" 0 (.create "Gold" "GLD" 18 1000 true)
    recipients := [bobKeyring.recipient]
    salt := ⟨Vector.replicate 32 1⟩ }

/-- Mallory seals a transfer in Alice's name. -/
def mallorySteals : Sealing :=
  { author := ⟨"mallory"⟩
    ephemeral := Vector.replicate 32 2
    inner := tokenCommand "alice" 1 (.transfer privateGoldId ⟨"mallory"⟩ 250)
    recipients := [bobKeyring.recipient]
    salt := ⟨Vector.replicate 32 2⟩ }

theorem commitments_differ :
    mallorySteals.envelope.commitment ≠ aliceCreates.envelope.commitment := by
  intro same
  have bytes := congrArg (fun hash => hash.bytes[0]) same
  revert bytes
  decide +kernel

theorem lookup_tokenCascade {name : String} {found : Prism}
    (installed : tokenCascade.prisms.lookup name = some found) :
    name = "token" ∧ found = TokenPrism.prism := by
  by_cases token : name = "token"
  · subst token
    have here := (AList.lookup_insert _).symm.trans installed
    exact ⟨rfl, (Option.some.inj here).symm⟩
  · have missing := (AList.lookup_insert_ne token).symm.trans installed
    cases missing

theorem tokenCascade_flat : tokenCascade.Flat := by
  intro name found installed
  obtain ⟨_, rfl⟩ := lookup_tokenCascade installed
  exact TokenPrism.handle_underived

theorem has_token : tokenCascade.has "token" = true := by
  unfold Cascade.has tokenCascade Cascade.install
  have here : (Cascade.empty.prisms.insert TokenPrism.prism.name TokenPrism.prism).lookup "token" =
      some TokenPrism.prism := AList.lookup_insert _
  dsimp only
  rw [here]
  rfl

theorem tokenCascade_apply {command : Command} {state after : StateTree} {output : PrismOutput}
    (token : command.prism = "token")
    (accepted : PrismM.Accepts (TokenPrism.handle command) state output after) :
    ∃ receipt, tokenCascade.apply command state = (.ok receipt, after) := by
  have installed : tokenCascade.prisms.lookup command.prism = some TokenPrism.prism := by
    rw [token]
    exact AList.lookup_insert _
  exact tokenCascade_flat.apply_ok installed accepted

/-- The private state behind Alice's creation. -/
def privateGold (info : TokenMeta) : StateTree :=
  withBalance (StateTree.empty.putJson (TokenPrism.metaKey privateGoldId) info) privateGoldId ⟨"alice"⟩ 1000

theorem aliceCreates_applied :
    ∃ info receipt, tokenCascade.apply aliceCreates.inner StateTree.empty =
      (.ok receipt, privateGold info) := by
  obtain ⟨output, info, created⟩ : ∃ output info, PrismM.Accepts (TokenPrism.create
      aliceCreates.inner "Gold" "GLD" 18 1000 true) StateTree.empty output (privateGold info) :=
    TokenPrism.create_accepted (StateTree.get_empty _)
  have handled : PrismM.Accepts (TokenPrism.handle aliceCreates.inner) StateTree.empty output
      (privateGold info) := by
    unfold TokenPrism.handle aliceCreates tokenCommand
    rw [fromSlice_toVec]
    exact created
  obtain ⟨receipt, applied⟩ := tokenCascade_apply rfl handled
  exact ⟨info, receipt, applied⟩

theorem balance_privateGold (info : TokenMeta) :
    balance (privateGold info) privateGoldId ⟨"alice"⟩ = 1000 ∧
      balance (privateGold info) privateGoldId ⟨"mallory"⟩ = 0 := by
  have different : PartyId.mk "alice" ≠ PartyId.mk "mallory" := by
    decide
  unfold privateGold
  refine ⟨TokenPrism.balance_withBalance_self _ _ _ _, ?_⟩
  rw [TokenPrism.balance_withBalance_ne _ _ (.inl different), StateTree.putJson,
    TokenPrism.balance_put_ne _ _ fun same => TokenPrism.balKey_ne_metaKey _ _ _ same.symm]
  simp only [balance, TokenPrism.amountAt, StateTree.getJson?, StateTree.getJson,
    StateTree.get_empty, Option.bind_none, Option.getD_none]

theorem mallorySteals_applied (info : TokenMeta) :
    ∃ receipt, tokenCascade.apply mallorySteals.inner (privateGold info) =
      (.ok receipt, moved (privateGold info) privateGoldId ⟨"alice"⟩ ⟨"mallory"⟩ 250) := by
  obtain ⟨held, empty⟩ := balance_privateGold info
  have recorded : (privateGold info).getJson TokenMeta (TokenPrism.metaKey privateGoldId) =
      .ok (some info) := by
    unfold privateGold withBalance StateTree.putJson
    rw [StateTree.getJson_put_ne _ _ (TokenPrism.balKey_ne_metaKey privateGoldId privateGoldId ⟨"alice"⟩)]
    exact StateTree.getJson_putJson StateTree.empty (TokenPrism.metaKey privateGoldId) info
  have enough : (250 : U128) ≤ balance (privateGold info) privateGoldId ⟨"alice"⟩ := by
    rw [held]
    decide
  have fits : (balance (privateGold info) privateGoldId ⟨"mallory"⟩).val + (250 : U128).val < 2 ^ 128 := by
    rw [empty]
    decide
  obtain ⟨output, after, transferred⟩ : ∃ output after, PrismM.Accepts (TokenPrism.transfer
      mallorySteals.inner privateGoldId ⟨"mallory"⟩ 250) (privateGold info) output after :=
    TokenPrism.transfer_accepted recorded enough fits
  obtain ⟨_, _, _, rfl⟩ := TokenPrism.accepts_transfer transferred
  have handled : PrismM.Accepts (TokenPrism.handle mallorySteals.inner) (privateGold info) output
      (moved (privateGold info) privateGoldId ⟨"alice"⟩ ⟨"mallory"⟩ 250) := by
    unfold TokenPrism.handle mallorySteals tokenCommand
    rw [fromSlice_toVec]
    exact transferred
  exact tokenCascade_apply rfl handled

/-- What Bob's node is handed. -/
def goldMessages : List (Env × PrivateEnvelope) :=
  [(.healthy 0, aliceCreates.envelope), (.healthy 0, mallorySteals.envelope)]

/-- Mallory, who knows Bob's public key and Alice's name, moves Alice's private gold. -/
theorem mallory_moves_gold :
    ¬ Authorizes bobNode ∧ mallorySteals.inner.submitter = ⟨"alice"⟩ ∧
      balance (Run.run takeEnvelope bobNode [(.healthy 0, aliceCreates.envelope)]).privateState
        privateGoldId ⟨"alice"⟩ = 1000 ∧
      balance (Run.run takeEnvelope bobNode goldMessages).privateState privateGoldId ⟨"alice"⟩ = 750 ∧
      balance (Run.run takeEnvelope bobNode goldMessages).privateState privateGoldId ⟨"mallory"⟩ =
        250 := by
  obtain ⟨info, receipt, created⟩ := aliceCreates_applied
  obtain ⟨held, empty⟩ := balance_privateGold info
  obtain ⟨_, book, store, first⟩ := @sealed_executes _ _ _ _ _ _ bobNode bobKeyring [] rfl
    aliceCreates rfl has_token receipt _ created List.not_mem_nil
  have afterFirst : Run.run takeEnvelope bobNode [(.healthy 0, aliceCreates.envelope)] =
      { bobNode.recorded aliceCreates.envelope with
        store := store
        privateState := privateGold info
        attestations := book } := first
  obtain ⟨stolen, stole⟩ := mallorySteals_applied info
  have unused : mallorySteals.envelope.commitment ∉
      (Run.run takeEnvelope bobNode
        [(.healthy 0, aliceCreates.envelope)]).privateCommitments := by
    rw [afterFirst]
    intro member
    exact commitments_differ (List.mem_singleton.mp member)
  obtain ⟨executes, later, disk, second⟩ := @sealed_executes _ _ _ _ _ _
    (Run.run takeEnvelope bobNode [(.healthy 0, aliceCreates.envelope)]) bobKeyring []
    (by rw [afterFirst]; rfl) mallorySteals rfl (by rw [afterFirst]; exact has_token) stolen _
    (by rw [afterFirst]; exact stole) unused
  have afterSecond : takeEnvelope (Run.run takeEnvelope bobNode
      [(.healthy 0, aliceCreates.envelope)]) (.healthy 0, mallorySteals.envelope) =
      { (Run.run takeEnvelope bobNode [(.healthy 0, aliceCreates.envelope)]).recorded
          mallorySteals.envelope with
        store := disk
        privateState := moved (privateGold info) privateGoldId ⟨"alice"⟩ ⟨"mallory"⟩ 250
        attestations := later } := second
  have final : (Run.run takeEnvelope bobNode goldMessages).privateState =
      moved (privateGold info) privateGoldId ⟨"alice"⟩ ⟨"mallory"⟩ 250 := by
    have split : goldMessages = [(.healthy 0, aliceCreates.envelope)] ++
        [(.healthy 0, mallorySteals.envelope)] := rfl
    rw [split, Run.run_snoc, afterSecond]
  refine ⟨?_, rfl, ?_, ?_, ?_⟩
  · intro authorizes
    obtain ⟨sealing, member, same, author⟩ := authorizes [aliceCreates, mallorySteals] goldMessages
      (by
        intro message inside
        simp only [goldMessages, List.mem_cons, List.not_mem_nil, or_false] at inside
        rcases inside with rfl | rfl
        · exact ⟨aliceCreates, List.mem_cons_self, rfl⟩
        · exact ⟨mallorySteals, List.mem_cons_of_mem _ List.mem_cons_self, rfl⟩)
      [(.healthy 0, aliceCreates.envelope)] (.healthy 0) mallorySteals.envelope [] _ rfl executes
    simp only [List.mem_cons, List.not_mem_nil, or_false] at member
    rcases member with rfl | rfl
    · have nonces := congrArg Command.nonce same
      exact absurd nonces (by decide)
    · exact absurd author (by decide)
  · rw [afterFirst]
    exact held
  · have different : PartyId.mk "mallory" ≠ PartyId.mk "alice" := by
      decide
    rw [final, moved, TokenPrism.balance_withBalance_ne _ _ (.inl different),
      TokenPrism.balance_withBalance_self, held]
    decide
  · rw [final, moved, TokenPrism.balance_withBalance_self, empty]
    decide

/-- The theorem at Bob's node: it hosts Bob, so its private commands are anybody's. -/
theorem authorizes_iff_hosts_nobody_bob :
    tokenCascade.has aliceCreates.inner.prism = true ∧
    (Authorizes bobNode ↔ bobNode.keyrings = []) ∧ bobNode.keyrings ≠ [] := by
  obtain ⟨info, receipt, created⟩ := aliceCreates_applied
  exact ⟨has_token, authorizes_iff_hosts_nobody bobNode rfl aliceCreates.inner has_token receipt _
    created, List.cons_ne_nil _ _⟩

/-- Alice's own transfer, sealed to Bob. -/
def aliceTransfers : Sealing :=
  { author := ⟨"alice"⟩
    ephemeral := Vector.replicate 32 3
    inner := tokenCommand "alice" 1 (.transfer privateGoldId ⟨"bob"⟩ 250)
    recipients := [bobKeyring.recipient]
    salt := ⟨Vector.replicate 32 3⟩ }

theorem aliceTransfers_fails :
    ∃ error, tokenCascade.apply aliceTransfers.inner StateTree.empty =
      (.error error, StateTree.empty) := by
  have installed : tokenCascade.prisms.lookup aliceTransfers.inner.prism = some TokenPrism.prism :=
    AList.lookup_insert _
  have missing : StateTree.empty.getJson TokenMeta (TokenPrism.metaKey privateGoldId) = .ok none := by
    unfold StateTree.getJson
    rw [StateTree.get_empty]
  have rejected : ∃ error, (TokenPrism.prism.handle aliceTransfers.inner).run.run StateTree.empty =
      (.error error, StateTree.empty) := by
    change ∃ error, (TokenPrism.handle aliceTransfers.inner).run.run StateTree.empty = _
    unfold TokenPrism.handle aliceTransfers tokenCommand
    rw [fromSlice_toVec]
    change PrismM.Rejects _ _ _
    unfold TokenPrism.execute TokenPrism.transfer TokenPrism.loadMeta
    apply PrismM.rejects_bind.mpr
    left
    apply PrismM.rejects_bind.mpr
    right
    refine ⟨StateTree.empty, StateTree.empty, PrismM.accepts_get.mpr ⟨rfl, rfl⟩, ?_⟩
    rw [missing]
    exact PrismM.rejects_throw.mpr rfl
  obtain ⟨error, rejected⟩ := rejected
  refine ⟨.prism error, ?_⟩
  unfold Cascade.apply maxCascadeDepth Cascade.rounds Cascade.round
  rw [installed]
  dsimp only
  rw [rejected]

/-- A transfer that arrives before the token is lost: it fails, and is a duplicate from then
on. -/
theorem early_transfer_lost :
    ¬ AllOrNothing (.healthy 0) bobNode aliceTransfers.envelope ∧
    (∃ error, (bobNode.applyPrivateEnvelope (.healthy 0) aliceTransfers.envelope).1 =
      .error (.cascade error)) ∧
    (bobNode.applyPrivateEnvelope (.healthy 0) aliceTransfers.envelope).2.privateCommitments =
      [aliceTransfers.envelope.commitment] ∧
    ((bobNode.applyPrivateEnvelope (.healthy 0)
        aliceTransfers.envelope).2.applyPrivateEnvelope (.healthy 0) aliceTransfers.envelope).1 =
      .error .duplicatePrivateCommitment := by
  obtain ⟨error, fails⟩ := aliceTransfers_fails
  have genuine : aliceTransfers.envelope.verifyCommitment = true :=
    verifyCommitment_sealed _ _ _ _
  have late : Booked (.healthy 0) bobNode aliceTransfers.envelope :=
    ⟨genuine, List.not_mem_nil, rfl⟩
  have hosted : bobNode.opener aliceTransfers.envelope = some bobKeyring :=
    @opener_sealed _ _ _ _ bobNode bobKeyring [] rfl aliceTransfers rfl
  have opened : openPrivate aliceTransfers.envelope bobKeyring = .ok aliceTransfers.inner :=
    open_sealing rfl
  obtain ⟨store, ran⟩ := applyPrivateEnvelope_failed late hosted opened has_token fails
  refine ⟨?_, ⟨error, by rw [ran]⟩, by rw [ran]; rfl, ?_⟩
  · intro whole
    have untouched := (whole.1 (.cascade error) (by rw [ran]) (by intro text same; cases same)).2.1
    rw [ran] at untouched
    exact commitments_grow bobNode aliceTransfers.envelope untouched
  · rw [ran]
    unfold applyPrivateEnvelope
    rw [if_neg (not_not_intro genuine), if_pos]
    change [aliceTransfers.envelope.commitment].contains aliceTransfers.envelope.commitment = true
    simp

end Gold

end Node

end Veilux
