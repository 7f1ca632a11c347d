/-
What a projection files for each hosted party, repetitions included, and what the
keyrings can open of it.
-/

import Veilux.Veil.View

namespace Veilux

section Projections

variable [Blake3] [ChaCha20Poly1305]

/-- The cipher refuses a ciphertext under any other key. -/
def IdealAead : Prop :=
  ∀ (key other : Vector UInt8 32) (nonce : Vector UInt8 12) (aad message : List UInt8),
    key ≠ other →
      ChaCha20Poly1305.decrypt other nonce aad (ChaCha20Poly1305.encrypt key nonce aad message) =
        none

/-- Key derivation keeps different seeds apart, view by view. -/
def ViewKeyring.IdealDerivation (left right : ViewKeyring) : Prop :=
  left.seed ≠ right.seed → ∀ id, left.keyFor id ≠ right.keyFor id

namespace ViewKeyring

variable [SerdeJson]

theorem open_raw_refused (ideal : IdealAead) {owner keyring : ViewKeyring} {event : Event}
    (apart : owner.keyFor event.commitment ≠ keyring.keyFor event.commitment) :
    (owner.sealView event).openView (keyring.keyFor event.commitment) = .error .decryption := by
  have refused : ChaCha20Poly1305.decrypt (keyring.keyFor event.commitment)
      (owner.sealView event).nonce event.commitment.asBytes (owner.sealView event).ciphertext =
        none := ideal _ _ _ _ _ apart
  have bound : (owner.sealView event).commitment = event.commitment := rfl
  unfold EncryptedView.openView
  rw [bound, refused]

/-- Whoever opens a view finds the event that was sealed. -/
theorem opened_eq (ideal : IdealAead) {owner keyring : ViewKeyring} {event opened : Event}
    (read : keyring.openView (owner.sealView event) = .ok opened) : opened = event := by
  unfold openView at read
  split at read
  · cases read
  · change (owner.sealView event).openView (keyring.keyFor event.commitment) = _ at read
    by_cases same : owner.keyFor event.commitment = keyring.keyFor event.commitment
    · have own : (owner.sealView event).recipient = owner.party := rfl
      have opens := openView_sealView owner event
      unfold openView at opens
      rw [if_neg (not_not_intro own)] at opens
      change (owner.sealView event).openView (owner.keyFor event.commitment) = _ at opens
      rw [same, read] at opens
      exact Except.ok.inj opens
    · rw [open_raw_refused ideal same] at read
      cases read

end ViewKeyring

/-! ### The filed views -/

variable {keyrings : List ViewKeyring} {party : PartyId} {keyring : ViewKeyring}

/-- Views behind those already filed; nothing more leaves no entry behind. -/
def extend (filed : Option (List EncryptedView)) (more : List EncryptedView) :
    Option (List EncryptedView) :=
  if more = [] then filed else some (filed.getD [] ++ more)

omit [Blake3] [ChaCha20Poly1305] in
theorem extend_extend (filed : Option (List EncryptedView)) (first second : List EncryptedView) :
    extend (extend filed first) second = extend filed (first ++ second) := by
  unfold extend
  by_cases noFirst : first = []
  · rw [if_pos noFirst, noFirst, List.nil_append]
  · by_cases noSecond : second = []
    · rw [if_pos noSecond, noSecond, List.append_nil]
    · have both : first ++ second ≠ [] := List.append_ne_nil_of_left_ne_nil noFirst _
      rw [if_neg noFirst, if_neg noSecond, if_neg both, Option.getD_some, List.append_assoc]

/-- An event is sealed for a party as often as its stakeholders name it. -/
def copies (keyrings : List ViewKeyring) (party : PartyId) (event : Event) : Nat :=
  (stakeholders event keyrings).count party

/-- What a party's keyring seals of a block. -/
def sealedFor (keyrings : List ViewKeyring) (party : PartyId) (keyring : ViewKeyring)
    (events : List Event) : List EncryptedView :=
  events.flatMap fun event =>
    List.replicate (copies keyrings party event) (keyring.sealView event)

theorem sealFor_lookup
    (hosted : keyrings.find? (fun keyring => keyring.party = party) = some keyring) (event : Event)
    (views : AList (fun _ : PartyId => List EncryptedView)) (other : PartyId) :
    (sealFor keyrings event views other).lookup party =
      extend (views.lookup party) (if other = party then [keyring.sealView event] else []) := by
  by_cases same : other = party
  · subst same
    unfold sealFor extend
    rw [if_pos rfl, hosted, if_neg (List.cons_ne_nil _ _)]
    exact AList.lookup_insert _
  · rw [if_neg same]
    unfold sealFor extend
    rw [if_pos rfl]
    split
    · rfl
    · exact AList.lookup_insert_ne fun equal => same equal.symm

theorem projectEvent_lookup
    (hosted : keyrings.find? (fun keyring => keyring.party = party) = some keyring)
    (views : AList (fun _ : PartyId => List EncryptedView)) (event : Event) :
    (projectEvent keyrings views event).lookup party =
      extend (views.lookup party)
        (List.replicate (copies keyrings party event) (keyring.sealView event)) := by
  unfold projectEvent copies
  induction stakeholders event keyrings generalizing views with
  | nil => rfl
  | cons other rest ih =>
      rw [List.foldl_cons, ih, sealFor_lookup hosted, extend_extend]
      by_cases same : other = party
      · rw [if_pos same, same, List.count_cons_self, List.replicate_succ]
        rfl
      · rw [if_neg same, List.count_cons_of_ne same, List.nil_append]

theorem projectBlock_lookup
    (hosted : keyrings.find? (fun keyring => keyring.party = party) = some keyring)
    (block : Block) :
    (projectBlock block keyrings).viewsByParty.lookup party =
      extend none (sealedFor keyrings party keyring block.events) := by
  have folded : ∀ (events : List Event) (views : AList (fun _ : PartyId => List EncryptedView)),
      (events.foldl (projectEvent keyrings) views).lookup party =
        extend (views.lookup party) (sealedFor keyrings party keyring events) := by
    intro events
    induction events with
    | nil =>
        intro views
        rfl
    | cons event rest ih =>
        intro views
        rw [List.foldl_cons, ih, projectEvent_lookup hosted, extend_extend]
        rfl
  exact folded block.events ∅

/-- Only events visible to a party are sealed for it, by its own keyring. -/
theorem sealedFor_visible {events : List Event} {view : EncryptedView}
    (member : view ∈ sealedFor keyrings party keyring events) :
    ∃ event ∈ events, event.visibility.includes party = true ∧ view = keyring.sealView event := by
  obtain ⟨event, inside, repeated⟩ := List.mem_flatMap.mp member
  obtain ⟨positive, same⟩ := List.mem_replicate.mp repeated
  refine ⟨event, inside, ?_, same⟩
  have named : party ∈ stakeholders event keyrings :=
    List.count_pos_iff.mp (Nat.pos_of_ne_zero positive)
  unfold stakeholders at named
  cases shown : event.visibility with
  | pub => rfl
  | parties set =>
      rw [shown] at named
      exact List.contains_iff_mem.mpr named

/-- Views filed for a party were sealed for it, whatever is hosted. -/
theorem filed_visible {block : Block} {filed : List EncryptedView} {view : EncryptedView}
    (found : (projectBlock block keyrings).viewsByParty.lookup party = some filed)
    (member : view ∈ filed) :
    ∃ owner event, keyrings.find? (fun keyring => keyring.party = party) = some owner ∧
      event ∈ block.events ∧ event.visibility.includes party = true ∧
      view = owner.sealView event := by
  obtain ⟨owner, _, hosted, _⟩ := projectBlock_sealed block keyrings party filed found view member
  rw [projectBlock_lookup hosted] at found
  unfold extend at found
  split at found
  · cases found
  · cases found
    obtain ⟨event, inside, visible, same⟩ := sealedFor_visible member
    exact ⟨owner, event, hosted, inside, visible, same⟩

/-- The keyring of another party has no key for a filed view, and its keys do not open it. -/
theorem filed_closed [SerdeJson] (ideal : IdealAead) {block : Block} {filed : List EncryptedView}
    {view : EncryptedView}
    (found : (projectBlock block keyrings).viewsByParty.lookup party = some filed)
    (member : view ∈ filed) {other : ViewKeyring} (foreign : other.party ≠ party) :
    other.openView view = .error (.noKey party.name) ∧
      ∃ owner ∈ keyrings, owner.party = party ∧
        (owner.IdealDerivation other → owner.seed ≠ other.seed →
          view.openView (other.keyFor view.commitment) = .error .decryption) := by
  obtain ⟨owner, event, hosted, _, _, rfl⟩ := filed_visible found member
  have own : owner.party = party := by
    have tested := List.find?_some hosted
    exact of_decide_eq_true tested
  constructor
  · have recipient : (owner.sealView event).recipient = party := own
    unfold ViewKeyring.openView
    rw [recipient, if_pos (Ne.symm foreign)]
  · refine ⟨owner, List.mem_of_find?_eq_some hosted, own, ?_⟩
    intro derivation seeds
    exact ViewKeyring.open_raw_refused ideal (derivation seeds event.commitment)

end Projections

/-- The cipher that prepends its key is ideal. -/
theorem idealAead_keyed : @IdealAead ChaCha20Poly1305.keyed := by
  intro key other nonce aad message apart
  have front : (key.toList ++ message).take 32 = key.toList := List.take_left' (by simp)
  apply if_neg
  intro same
  exact apart (Vector.toList_inj.mp (front.symm.trans same))

end Veilux
