/-
Encrypted views and sub-ledgers (`veil/src/view.rs`, `veil/src/projection.rs`,
`veil/src/ledger.rs`): a block's events are sealed for the hosted parties that
may see them and opened into each party's sub-ledger.

The cipher is a parameter.  `encrypt` is total: the real one refuses only
messages of more than 256 gigabytes.
-/

import Veilux.Kernel.State

namespace Veilux

open Bytes (utf8)

/-- `chacha20poly1305` with associated data; opening what was sealed succeeds. -/
class ChaCha20Poly1305 where
  encrypt : (key : Vector UInt8 32) → (nonce : Vector UInt8 12) → (aad message : List UInt8) →
    List UInt8
  decrypt : (key : Vector UInt8 32) → (nonce : Vector UInt8 12) → (aad ciphertext : List UInt8) →
    Option (List UInt8)
  decrypt_encrypt : ∀ key nonce aad message,
    decrypt key nonce aad (encrypt key nonce aad message) = some message

/-- A cipher that prepends its key, to evaluate the model on concrete inputs. -/
@[reducible] def ChaCha20Poly1305.keyed : ChaCha20Poly1305 where
  encrypt key _ _ message := key.toList ++ message
  decrypt key _ _ ciphertext :=
    if ciphertext.take 32 = key.toList then some (ciphertext.drop 32) else none
  decrypt_encrypt key _ _ message := by
    have front : (key.toList ++ message).take 32 = key.toList :=
      List.take_left' (by simp)
    have back : (key.toList ++ message).drop 32 = message :=
      List.drop_left' (by simp)
    rw [if_pos front, back]

inductive ViewError where
  | decryption
  | serialization (text : String)
  | noKey (name : String)
  deriving DecidableEq

structure EncryptedView where
  commitment : Hash
  recipient : PartyId
  nonce : Vector UInt8 12
  ciphertext : List UInt8
  deriving DecidableEq

structure ViewKeyring where
  party : PartyId
  seed : Vector UInt8 32
  deriving DecidableEq

section Views

variable [Blake3] [ChaCha20Poly1305]

/-- The first twelve bytes of a digest. -/
def firstTwelve (digest : Vector UInt8 32) : Vector UInt8 12 :=
  Vector.ofFn fun index => digest[index.val]

def deriveNonce (commitment : Hash) (recipient : PartyId) : Vector UInt8 12 :=
  firstTwelve (Blake3.digest (utf8 "veilux/veil/nonce" ++ commitment.asBytes ++ recipient.bytes))

def viewKeyDomain : String := "veilux/veil/view-key/v1"

def deriveViewKey (partySeed : List UInt8) (viewId : Hash) : Vector UInt8 32 :=
  Blake3.digest (utf8 viewKeyDomain ++ partySeed ++ viewId.asBytes)

namespace EncryptedView

def sealView (event : Event) (recipient : PartyId) (key : Vector UInt8 32) : EncryptedView :=
  let commitment := event.commitment
  let nonce := deriveNonce commitment recipient
  { commitment := commitment
    recipient := recipient
    nonce := nonce
    ciphertext := ChaCha20Poly1305.encrypt key nonce commitment.asBytes (toVec event) }

def openView [SerdeJson] (view : EncryptedView) (key : Vector UInt8 32) : Except ViewError Event :=
  match ChaCha20Poly1305.decrypt key view.nonce view.commitment.asBytes view.ciphertext with
  | none => .error .decryption
  | some plaintext =>
      match fromSlice Event plaintext with
      | .error text => .error (.serialization text)
      | .ok event => .ok event

end EncryptedView

namespace ViewKeyring

def keyFor (keyring : ViewKeyring) (viewId : Hash) : Vector UInt8 32 :=
  deriveViewKey keyring.seed.toList viewId

def sealView (keyring : ViewKeyring) (event : Event) : EncryptedView :=
  EncryptedView.sealView event keyring.party (keyring.keyFor event.commitment)

def openView [SerdeJson] (keyring : ViewKeyring) (view : EncryptedView) : Except ViewError Event :=
  if view.recipient ≠ keyring.party then .error (.noKey view.recipient.name)
  else view.openView (keyring.keyFor view.commitment)

theorem openView_sealView [SerdeJson] (keyring : ViewKeyring) (event : Event) :
    keyring.openView (keyring.sealView event) = .ok event := by
  have recipient : (keyring.sealView event).recipient = keyring.party := rfl
  have opened : ChaCha20Poly1305.decrypt (keyring.keyFor event.commitment)
      (keyring.sealView event).nonce event.commitment.asBytes (keyring.sealView event).ciphertext =
        some (toVec event) :=
    ChaCha20Poly1305.decrypt_encrypt _ _ _ _
  unfold openView
  rw [if_neg (not_not_intro recipient)]
  unfold EncryptedView.openView
  change (match ChaCha20Poly1305.decrypt (keyring.keyFor event.commitment)
    (keyring.sealView event).nonce event.commitment.asBytes (keyring.sealView event).ciphertext with
    | none => _
    | some plaintext => _) = _
  rw [opened]
  simp only [fromSlice_toVec]

end ViewKeyring

/-! ### Projection -/

structure Projection where
  commitments : List Hash
  eventsRoot : Hash
  viewsByParty : AList (fun _ : PartyId => List EncryptedView)

/-- Who an event is sealed for: everyone hosted, or the listed parties. -/
def stakeholders (event : Event) (keyrings : List ViewKeyring) : List PartyId :=
  match event.visibility with
  | .pub => keyrings.map ViewKeyring.party
  | .parties set => set

def sealFor (keyrings : List ViewKeyring) (event : Event)
    (views : AList (fun _ : PartyId => List EncryptedView)) (party : PartyId) :
    AList (fun _ : PartyId => List EncryptedView) :=
  match keyrings.find? (fun keyring => keyring.party = party) with
  | none => views
  | some keyring => views.insert party ((views.lookup party).getD [] ++ [keyring.sealView event])

def projectEvent (keyrings : List ViewKeyring)
    (views : AList (fun _ : PartyId => List EncryptedView)) (event : Event) :
    AList (fun _ : PartyId => List EncryptedView) :=
  (stakeholders event keyrings).foldl (sealFor keyrings event) views

def projectBlock (block : Block) (keyrings : List ViewKeyring) : Projection :=
  let commitments := block.events.map Event.commitment
  { commitments := commitments
    eventsRoot := merkleRoot commitments
    viewsByParty := block.events.foldl (projectEvent keyrings) ∅ }

/-! ### Sub-ledgers -/

structure SubLedgerEntry where
  height : Nat
  commitment : Hash
  event : Event
  deriving DecidableEq

structure SubLedger where
  party : Option PartyId
  entries : List SubLedgerEntry
  validatedRoot : Hash
  height : Nat
  deriving DecidableEq

namespace SubLedger

def new (party : PartyId) : SubLedger :=
  { party := some party
    entries := []
    validatedRoot := Hash.zero
    height := 0 }

variable [SerdeJson]

/-- The loop of `apply_views`; entries pushed before a failure stay. -/
def push (height : Nat) (keyring : ViewKeyring) : List EncryptedView → Nat → SubLedger →
    Except ViewError Nat × SubLedger
  | [], applied, ledger => (.ok applied, ledger)
  | view :: views, applied, ledger =>
      match keyring.openView view with
      | .error error => (.error error, ledger)
      | .ok event =>
          push height keyring views (applied + 1)
            { ledger with entries := ledger.entries ++
                [{ height := height
                   commitment := view.commitment
                   event := event }] }

def applyViews (ledger : SubLedger) (height : Nat) (expectedRoot : Hash)
    (views : List EncryptedView) (keyring : ViewKeyring) : Except ViewError Nat × SubLedger :=
  match push height keyring views 0 ledger with
  | (.error error, ledger) => (.error error, ledger)
  | (.ok applied, ledger) =>
      (.ok applied, { ledger with
        height := height
        validatedRoot := expectedRoot })

end SubLedger

/-! ### Delivery -/

/-- Views filed under a party were sealed by the first keyring hosted for it. -/
def Sealed (keyrings : List ViewKeyring)
    (views : AList (fun _ : PartyId => List EncryptedView)) : Prop :=
  ∀ party filed, views.lookup party = some filed → ∀ view ∈ filed, ∃ keyring event,
    keyrings.find? (fun keyring => keyring.party = party) = some keyring ∧
      view = keyring.sealView event

variable {keyrings : List ViewKeyring} {views : AList (fun _ : PartyId => List EncryptedView)}

theorem Sealed.sealFor (valid : Sealed keyrings views) (event : Event) (party : PartyId) :
    Sealed keyrings (sealFor keyrings event views party) := by
  unfold Veilux.sealFor
  cases hosted : keyrings.find? (fun keyring => keyring.party = party) with
  | none => exact valid
  | some keyring =>
      intro other filed found view member
      by_cases same : other = party
      · subst same
        dsimp only at found
        rw [AList.lookup_insert] at found
        cases found
        rcases List.mem_append.mp member with earlier | last
        · cases before : views.lookup other with
          | none =>
              rw [before] at earlier
              cases earlier
          | some list =>
              rw [before] at earlier
              exact valid other list before view earlier
        · exact ⟨keyring, event, hosted, List.mem_singleton.mp last⟩
      · dsimp only at found
        rw [AList.lookup_insert_ne same] at found
        exact valid other filed found view member

theorem Sealed.projectEvent (valid : Sealed keyrings views) (event : Event) :
    Sealed keyrings (projectEvent keyrings views event) := by
  unfold Veilux.projectEvent
  induction stakeholders event keyrings generalizing views with
  | nil => exact valid
  | cons party rest ih => exact ih (valid.sealFor event party)

theorem projectBlock_sealed (block : Block) (keyrings : List ViewKeyring) :
    Sealed keyrings (projectBlock block keyrings).viewsByParty := by
  have start : Sealed keyrings ∅ := by
    intro party filed found
    cases found
  change Sealed keyrings (block.events.foldl (Veilux.projectEvent keyrings) ∅)
  generalize (∅ : AList (fun _ : PartyId => List EncryptedView)) = views at start
  induction block.events generalizing views with
  | nil => exact start
  | cons event rest ih => exact ih _ (start.projectEvent event)

variable [SerdeJson]

theorem applyViews_ok (ledger : SubLedger) (height : Nat) (root : Hash)
    (views : List EncryptedView) (keyring : ViewKeyring)
    (own : ∀ view ∈ views, ∃ event, view = keyring.sealView event) :
    ∃ applied after, ledger.applyViews height root views keyring = (.ok applied, after) := by
  have pushed : ∀ (views : List EncryptedView) (applied : Nat) (ledger : SubLedger),
      (∀ view ∈ views, ∃ event, view = keyring.sealView event) →
      ∃ count after, SubLedger.push height keyring views applied ledger = (.ok count, after) := by
    intro views
    induction views with
    | nil =>
        intro applied ledger _
        exact ⟨applied, ledger, rfl⟩
    | cons view rest ih =>
        intro applied ledger own
        obtain ⟨event, rfl⟩ := own view List.mem_cons_self
        unfold SubLedger.push
        rw [ViewKeyring.openView_sealView]
        exact ih _ _ fun other member => own other (List.mem_cons_of_mem _ member)
  obtain ⟨count, after, result⟩ := pushed views 0 ledger own
  unfold SubLedger.applyViews
  rw [result]
  exact ⟨count, _, rfl⟩

end Views

end Veilux
