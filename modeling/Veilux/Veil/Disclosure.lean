/-
Selective disclosure (`veil/src/disclosure.rs`): a grant carries the view keys of a
keyring's in-scope entries, and an audit opens with them whatever views it is handed.

Grants are looked up by commitment.  A commitment names the event and not its reader, so
the view of the same event sealed for somebody else is looked up as well.
-/

import Veilux.Veil.Projection

namespace Veilux

inductive GrantScope where
  | all
  | prism (id : String)
  | heightRange (first last : Nat)
  | events (set : List Hash)
  deriving DecidableEq

structure DisclosureGrant where
  grantor : PartyId
  grantee : PartyId
  scope : GrantScope
  keys : List (Hash × Vector UInt8 32)
  justification : String
  deriving DecidableEq

namespace DisclosureGrant

def covers (grant : DisclosureGrant) (commitment : Hash) : Bool :=
  grant.keys.any fun entry => entry.1 = commitment

end DisclosureGrant

structure AuditableEntry where
  height : Nat
  prism : String
  view : EncryptedView

def scopeMatches (scope : GrantScope) (entry : AuditableEntry) : Bool :=
  match scope with
  | .all => true
  | .prism id => entry.prism = id
  | .heightRange first last => first ≤ entry.height ∧ entry.height ≤ last
  | .events set => set.contains entry.view.commitment

section Disclosure

variable [Blake3] [ChaCha20Poly1305]

def grantDisclosure (grantorKeyring : ViewKeyring) (grantee : PartyId) (scope : GrantScope)
    (entries : List AuditableEntry) (justification : String) : DisclosureGrant :=
  { grantor := grantorKeyring.party
    grantee := grantee
    scope := scope
    keys := (entries.filter (scopeMatches scope)).map fun entry =>
      (entry.view.commitment, grantorKeyring.keyFor entry.view.commitment)
    justification := justification }

/-- The key of the first grant for the commitment opens the view, whoever it was sealed for. -/
def auditOpen [SerdeJson] (grant : DisclosureGrant) :
    List EncryptedView → Except ViewError (List Event)
  | [] => .ok []
  | view :: views =>
      match grant.keys.find? fun entry => entry.1 = view.commitment with
      | none => auditOpen grant views
      | some (_, key) =>
          match view.openView key with
          | .error error => .error error
          | .ok event =>
              match auditOpen grant views with
              | .error error => .error error
              | .ok events => .ok (event :: events)

/-! ### What the grantor holds and what is handed over -/

/-- An event of the grantor's ledger, with the height and prism it is filed under. -/
structure Holding where
  height : Nat
  prism : String
  event : Event

def Holding.entry (holding : Holding) (owner : ViewKeyring) : AuditableEntry :=
  { height := holding.height
    prism := holding.prism
    view := owner.sealView holding.event }

/-- A view handed to the auditor: somebody's, of some event. -/
structure Delivery where
  owner : ViewKeyring
  event : Event

def Delivery.view (delivery : Delivery) : EncryptedView :=
  delivery.owner.sealView delivery.event

variable (grantor : ViewKeyring) (grantee : PartyId) (scope : GrantScope)
  (justification : String) (holdings : List Holding)

def Holding.grant : DisclosureGrant :=
  grantDisclosure grantor grantee scope (holdings.map (Holding.entry · grantor)) justification

/-- The events whose keys the grant is meant to hand over. -/
def inScope (event : Event) : Bool :=
  holdings.any fun holding => scopeMatches scope (holding.entry grantor) ∧ holding.event = event

/-- The commitment is that of an event in scope. -/
def granted (commitment : Hash) : Bool :=
  holdings.any fun holding =>
    scopeMatches scope (holding.entry grantor) ∧ holding.event.commitment = commitment

/-- What the audit is for: the grantor's own views of events in scope. -/
def disclosed (delivery : Delivery) : Bool :=
  delivery.owner = grantor ∧ inScope grantor scope holdings delivery.event

/-! ### The keys of a grant -/

variable {grantor grantee scope justification holdings}

theorem granted_iff {commitment : Hash} :
    granted grantor scope holdings commitment = true ↔ ∃ holding ∈ holdings,
      scopeMatches scope (holding.entry grantor) = true ∧
        holding.event.commitment = commitment := by
  unfold granted
  simp

theorem inScope_iff {event : Event} :
    inScope grantor scope holdings event = true ↔ ∃ holding ∈ holdings,
      scopeMatches scope (holding.entry grantor) = true ∧ holding.event = event := by
  unfold inScope
  simp

theorem disclosed_iff {delivery : Delivery} :
    disclosed grantor scope holdings delivery = true ↔
      delivery.owner = grantor ∧ inScope grantor scope holdings delivery.event = true := by
  unfold disclosed
  simp

theorem granted_of_inScope {event : Event}
    (inside : inScope grantor scope holdings event = true) :
    granted grantor scope holdings event.commitment = true := by
  obtain ⟨holding, held, matched, same⟩ := inScope_iff.mp inside
  exact granted_iff.mpr ⟨holding, held, matched, congrArg Event.commitment same⟩

theorem mem_keys {entry : Hash × Vector UInt8 32} :
    entry ∈ (Holding.grant grantor grantee scope justification holdings).keys ↔
      granted grantor scope holdings entry.1 = true ∧ entry.2 = grantor.keyFor entry.1 := by
  obtain ⟨commitment, key⟩ := entry
  constructor
  · intro member
    obtain ⟨filed, inside, same⟩ := List.mem_map.mp member
    obtain ⟨listed, matched⟩ := List.mem_filter.mp inside
    obtain ⟨holding, held, rfl⟩ := List.mem_map.mp listed
    obtain ⟨rfl, rfl⟩ := Prod.mk.inj same
    exact ⟨granted_iff.mpr ⟨holding, held, matched, rfl⟩, rfl⟩
  · rintro ⟨inside, same⟩
    obtain ⟨holding, held, matched, rfl⟩ := granted_iff.mp inside
    dsimp only at same
    subst same
    exact List.mem_map.mpr ⟨holding.entry grantor,
      List.mem_filter.mpr ⟨List.mem_map_of_mem held, matched⟩, rfl⟩

/-- A grant holds the grantor's key for the commitments granted, and no other. -/
theorem find_key (commitment : Hash) :
    ((Holding.grant grantor grantee scope justification holdings).keys.find?
      fun entry => entry.1 = commitment) =
        if granted grantor scope holdings commitment then
          some (commitment, grantor.keyFor commitment) else none := by
  by_cases inside : granted grantor scope holdings commitment = true
  · rw [if_pos inside]
    cases found : (Holding.grant grantor grantee scope justification holdings).keys.find?
        fun entry => entry.1 = commitment with
    | none =>
        have absent := List.find?_eq_none.mp found
          (commitment, grantor.keyFor commitment) (mem_keys.mpr ⟨inside, rfl⟩)
        simp at absent
    | some entry =>
        obtain ⟨first, key⟩ := entry
        have same : first = commitment := by simpa using List.find?_some found
        have filed := (mem_keys.mp (List.mem_of_find?_eq_some found)).2
        cases same
        exact congrArg some (Prod.ext rfl filed)
  · rw [if_neg inside]
    apply List.find?_eq_none.mpr
    intro entry member tested
    have same : entry.1 = commitment := by simpa using tested
    exact inside (same ▸ (mem_keys.mp member).1)

theorem covers_iff (commitment : Hash) :
    (Holding.grant grantor grantee scope justification holdings).covers commitment =
      granted grantor scope holdings commitment := by
  rw [Bool.eq_iff_iff]
  unfold DisclosureGrant.covers
  constructor
  · intro covered
    obtain ⟨entry, member, tested⟩ := List.any_eq_true.mp covered
    have same : entry.1 = commitment := by simpa using tested
    exact same ▸ (mem_keys.mp member).1
  · intro inside
    exact List.any_eq_true.mpr ⟨(commitment, grantor.keyFor commitment),
      mem_keys.mpr ⟨inside, rfl⟩, decide_eq_true rfl⟩

/-! ### An audit -/

variable [SerdeJson] {deliveries : List Delivery}

/-- The audit of what was delivered, under the grant. -/
def audit (grantor : ViewKeyring) (grantee : PartyId) (scope : GrantScope)
    (justification : String) (holdings : List Holding) (deliveries : List Delivery) :
    Except ViewError (List Event) :=
  auditOpen (Holding.grant grantor grantee scope justification holdings)
    (deliveries.map Delivery.view)

theorem audit_cons (delivery : Delivery) :
    audit grantor grantee scope justification holdings (delivery :: deliveries) =
      if granted grantor scope holdings delivery.event.commitment then
        match delivery.view.openView (grantor.keyFor delivery.event.commitment) with
        | .error error => .error error
        | .ok event =>
            match audit grantor grantee scope justification holdings deliveries with
            | .error error => .error error
            | .ok events => .ok (event :: events)
      else audit grantor grantee scope justification holdings deliveries := by
  have key := @find_key _ _ grantor grantee scope justification holdings delivery.event.commitment
  have named : delivery.view.commitment = delivery.event.commitment := rfl
  unfold audit
  rw [List.map_cons, auditOpen, named, key]
  by_cases inside : granted grantor scope holdings delivery.event.commitment = true
  · rw [if_pos inside, if_pos inside]
  · rw [if_neg inside, if_neg inside]

/-- An audit that succeeds has an event for every delivery whose commitment is granted. -/
theorem length_audit {events : List Event}
    (audited : audit grantor grantee scope justification holdings deliveries = .ok events) :
    events.length = (deliveries.filter fun delivery =>
      granted grantor scope holdings delivery.event.commitment).length := by
  induction deliveries generalizing events with
  | nil =>
      cases audited
      rfl
  | cons delivery deliveries ih =>
      rw [audit_cons] at audited
      by_cases inside : granted grantor scope holdings delivery.event.commitment = true
      · rw [if_pos inside] at audited
        rw [List.filter_cons, if_pos inside, List.length_cons]
        split at audited
        · cases audited
        · split at audited
          · cases audited
          · next later =>
              cases audited
              rw [List.length_cons, ih later]
      · rw [if_neg inside] at audited
        rw [List.filter_cons, if_neg inside, ih audited]

theorem open_own (owner : ViewKeyring) (event : Event) :
    (owner.sealView event).openView (owner.keyFor event.commitment) = .ok event := by
  have opens := owner.openView_sealView event
  have own : (owner.sealView event).recipient = owner.party := rfl
  unfold ViewKeyring.openView at opens
  rw [if_neg (not_not_intro own)] at opens
  exact opens

/-- Where only the grantor's views of events in scope are answered, they are all opened. -/
theorem audit_of_own
    (own : ∀ delivery ∈ deliveries,
      granted grantor scope holdings delivery.event.commitment = true →
        disclosed grantor scope holdings delivery = true) :
    audit grantor grantee scope justification holdings deliveries =
      .ok ((deliveries.filter (disclosed grantor scope holdings)).map Delivery.event) := by
  induction deliveries with
  | nil => rfl
  | cons delivery deliveries ih =>
      have rest := ih fun other member => own other (List.mem_cons_of_mem _ member)
      rw [audit_cons, List.filter_cons]
      by_cases inside : granted grantor scope holdings delivery.event.commitment = true
      · have shown := own delivery List.mem_cons_self inside
        have owned := (disclosed_iff.mp shown).1
        have opened : delivery.view.openView (grantor.keyFor delivery.event.commitment) =
            .ok delivery.event := by
          rw [← owned]
          exact open_own delivery.owner delivery.event
        rw [if_pos inside, if_pos shown, opened, rest]
        rfl
      · have hidden : ¬ disclosed grantor scope holdings delivery = true := fun shown =>
          inside (granted_of_inScope (disclosed_iff.mp shown).2)
        rw [if_neg inside, if_neg hidden, rest]

/-- The first foreign view of an event in scope ends the audit, and nothing is disclosed. -/
theorem audit_aborted (ideal : IdealAead) {before after : List Delivery} {delivery : Delivery}
    (own : ∀ earlier ∈ before,
      granted grantor scope holdings earlier.event.commitment = true →
        disclosed grantor scope holdings earlier = true)
    (inside : granted grantor scope holdings delivery.event.commitment = true)
    (apart : delivery.owner.keyFor delivery.event.commitment ≠
      grantor.keyFor delivery.event.commitment) :
    audit grantor grantee scope justification holdings (before ++ delivery :: after) =
      .error .decryption := by
  induction before with
  | nil =>
      have refused : delivery.view.openView (grantor.keyFor delivery.event.commitment) =
          .error .decryption := ViewKeyring.open_raw_refused ideal apart
      rw [List.nil_append, audit_cons, if_pos inside, refused]
  | cons earlier before ih =>
      have rest := ih fun other member => own other (List.mem_cons_of_mem _ member)
      rw [List.cons_append, audit_cons]
      by_cases answered : granted grantor scope holdings earlier.event.commitment = true
      · have owned := (disclosed_iff.mp (own earlier List.mem_cons_self answered)).1
        have opened : earlier.view.openView (grantor.keyFor earlier.event.commitment) =
            .ok earlier.event := by
          rw [← owned]
          exact open_own earlier.owner earlier.event
        rw [if_pos answered, opened, rest]
      · rw [if_neg answered, rest]

/-- An audit discloses exactly the grantor's events in scope if and only if nobody else's
view is among those whose commitment is granted. -/
theorem audit_exact_iff (grantor : ViewKeyring) (grantee : PartyId) (scope : GrantScope)
    (justification : String) (holdings : List Holding) (deliveries : List Delivery) :
    audit grantor grantee scope justification holdings deliveries =
        .ok ((deliveries.filter (disclosed grantor scope holdings)).map Delivery.event) ↔
      ∀ delivery ∈ deliveries, granted grantor scope holdings delivery.event.commitment = true →
        delivery.owner = grantor ∧ inScope grantor scope holdings delivery.event = true := by
  constructor
  · intro exact
    have counted := length_audit exact
    have part : (deliveries.filter (disclosed grantor scope holdings)).Sublist
        (deliveries.filter fun delivery =>
          granted grantor scope holdings delivery.event.commitment) :=
      List.monotone_filter_right deliveries fun delivery shown =>
        granted_of_inScope (disclosed_iff.mp shown).2
    rw [List.length_map] at counted
    have same := part.eq_of_length counted
    intro delivery member inside
    have answered : delivery ∈ deliveries.filter fun delivery =>
        granted grantor scope holdings delivery.event.commitment :=
      List.mem_filter.mpr ⟨member, inside⟩
    rw [← same] at answered
    exact disclosed_iff.mp (List.mem_filter.mp answered).2
  · intro own
    exact audit_of_own fun delivery member inside => disclosed_iff.mpr (own delivery member inside)

omit [SerdeJson] in
/-- While commitments tell the events apart, that is nobody else's view of an event in scope. -/
theorem foreign_views_iff
    (apart : ∀ delivery ∈ deliveries, ∀ holding ∈ holdings,
      holding.event.commitment = delivery.event.commitment → holding.event = delivery.event) :
    (∀ delivery ∈ deliveries, granted grantor scope holdings delivery.event.commitment = true →
        delivery.owner = grantor ∧ inScope grantor scope holdings delivery.event = true) ↔
      ∀ delivery ∈ deliveries, inScope grantor scope holdings delivery.event = true →
        delivery.owner = grantor := by
  constructor
  · intro own delivery member inside
    exact (own delivery member (granted_of_inScope inside)).1
  · intro own delivery member answered
    obtain ⟨holding, held, matched, same⟩ := granted_iff.mp answered
    have inside := inScope_iff.mpr ⟨holding, held, matched, apart delivery member holding held same⟩
    exact ⟨own delivery member inside, inside⟩

end Disclosure

/-! ### A payment between Alice and Bob -/

section Payment

attribute [local instance] SerdeJson.compact Blake3.polynomial ChaCha20Poly1305.keyed

/-- A transfer that both parties see. -/
def sharedEvent : Event :=
  { sourceCommand := Hash.zero
    prism := "token"
    visibility := .parties [⟨"alice"⟩, ⟨"bob"⟩]
    payload := [] }

def aliceViews : ViewKeyring :=
  { party := ⟨"alice"⟩
    seed := Vector.replicate 32 1 }

def bobViews : ViewKeyring :=
  { party := ⟨"bob"⟩
    seed := Vector.replicate 32 2 }

/-- Alice grants the audit of her transfer; Bob's view of it next to hers is all it takes. -/
theorem shared_event_refused :
    audit aliceViews ⟨"regulator"⟩ .all "review" [⟨1, "token", sharedEvent⟩]
        [⟨aliceViews, sharedEvent⟩, ⟨bobViews, sharedEvent⟩] = .error .decryption ∧
      ([⟨aliceViews, sharedEvent⟩, ⟨bobViews, sharedEvent⟩].filter
        (disclosed aliceViews .all [⟨1, "token", sharedEvent⟩])).map Delivery.event =
          [sharedEvent] := by
  constructor
  · have split : [(⟨aliceViews, sharedEvent⟩ : Delivery), ⟨bobViews, sharedEvent⟩] =
        [⟨aliceViews, sharedEvent⟩] ++ ⟨bobViews, sharedEvent⟩ :: [] := rfl
    have apart : bobViews.keyFor sharedEvent.commitment ≠
        aliceViews.keyFor sharedEvent.commitment := by
      decide +kernel
    have inside : granted aliceViews .all [⟨1, "token", sharedEvent⟩] sharedEvent.commitment =
        true := by
      decide +kernel
    have own : ∀ earlier ∈ [(⟨aliceViews, sharedEvent⟩ : Delivery)],
        granted aliceViews .all [⟨1, "token", sharedEvent⟩] earlier.event.commitment = true →
          disclosed aliceViews .all [⟨1, "token", sharedEvent⟩] earlier = true := by
      decide +kernel
    rw [split]
    exact audit_aborted idealAead_keyed own inside apart
  · decide

end Payment

end Veilux
