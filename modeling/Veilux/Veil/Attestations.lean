/-
The attestation book of `veil/src/attest.rs`: its entries are verified, one for each
party and commitment, and a canonical root has enough of them behind it.
-/

import Veilux.Veil.Private

namespace Veilux

theorem RootAttestation.verify_create [Ed25519] (identity : PartyIdentity)
    (commitment root : Hash) : (RootAttestation.create identity commitment root).verify = .ok () :=
  verifyBytes_signBytes identity _

namespace AttestationBook

/-! ### Canonical roots -/

theorem mem_countRoot {root : Hash} {tally : List (Hash × Nat)} {counted : Hash × Nat}
    (member : counted ∈ countRoot root tally) :
    counted ∈ tally ∨ counted = (root, 1) ∨
      ∃ votes, (root, votes) ∈ tally ∧ counted = (root, votes + 1) := by
  induction tally with
  | nil => exact .inr (.inl (List.mem_singleton.mp member))
  | cons first tally ih =>
      obtain ⟨known, votes⟩ := first
      unfold countRoot at member
      by_cases same : known = root
      · rw [if_pos same, same] at member
        rcases List.mem_cons.mp member with rfl | later
        · refine .inr (.inr ⟨votes, ?_, rfl⟩)
          rw [same]
          exact List.mem_cons_self
        · exact .inl (List.mem_cons_of_mem _ later)
      · rw [if_neg same] at member
        rcases List.mem_cons.mp member with rfl | later
        · exact .inl List.mem_cons_self
        · rcases ih later with kept | fresh | ⟨earlier, found, raised⟩
          · exact .inl (List.mem_cons_of_mem _ kept)
          · exact .inr (.inl fresh)
          · exact .inr (.inr ⟨earlier, List.mem_cons_of_mem _ found, raised⟩)

/-- No root is counted more often than it was voted for. -/
theorem countRoot_le (votes : List RootAttestation) :
    ∀ counted ∈ votes.foldl (fun tally vote => countRoot vote.privateRoot tally) [],
      counted.2 ≤ votes.countP fun vote => vote.privateRoot = counted.1 := by
  induction votes using List.reverseRecOn with
  | nil =>
      intro counted member
      cases member
  | append_singleton votes vote ih =>
      intro counted member
      rw [List.foldl_append] at member
      rw [List.countP_append]
      rcases mem_countRoot member with kept | rfl | ⟨earlier, found, rfl⟩
      · have bound := ih counted kept
        omega
      · simp
      · have bound := ih _ found
        simp only at bound ⊢
        simp only [List.countP_singleton, decide_true, if_true]
        omega

/-- A canonical root has more than half of the stakeholders' number behind it. -/
theorem canonicalRoot_backed {book : AttestationBook} {commitment canonical : Hash} {count : Nat}
    (found : book.canonicalRoot commitment count = some canonical) :
    count / 2 + 1 ≤
      ((book.agreement commitment).filter fun entry => entry.privateRoot = canonical).length := by
  unfold canonicalRoot at found
  dsimp only at found
  split at found
  · cases found
  · next topRoot topCount rest sorted =>
      split at found
      · next enough =>
          obtain rfl := Option.some.inj found
          have first : (topRoot, topCount) ∈ ((book.agreement commitment).foldl
              (fun tally vote => countRoot vote.privateRoot tally) []) := by
            apply (List.perm_insertionSort (fun (left right : Hash × Nat) => right.2 ≤ left.2) _).mem_iff.mp
            rw [sorted]
            exact List.mem_cons_self
          have bound := countRoot_le _ _ first
          rw [List.countP_eq_length_filter] at bound
          exact enough.trans bound
      · cases found

/-- The canonical root depends on the entries of its commitment alone. -/
theorem canonicalRoot_congr {book other : AttestationBook} {commitment : Hash} {count : Nat}
    (same : book.agreement commitment = other.agreement commitment) :
    book.canonicalRoot commitment count = other.canonicalRoot commitment count := by
  unfold canonicalRoot
  rw [same]

/-! ### Entries -/

section Entries

variable [Ed25519]

structure Sound (book : AttestationBook) : Prop where
  verified : ∀ entry ∈ book.entries, entry.verify = .ok ()
  single : book.entries.Pairwise fun entry later =>
    ¬ (entry.commitment = later.commitment ∧ entry.party = later.party)

theorem record_cases (book : AttestationBook) (attestation : RootAttestation) :
    (book.record attestation).2 = book ∨
    (attestation.verify = .ok () ∧
      (∀ entry ∈ book.entries,
        ¬ (entry.commitment = attestation.commitment ∧ entry.party = attestation.party)) ∧
      (book.record attestation).2 = ⟨book.entries ++ [attestation]⟩) := by
  unfold record
  split
  · exact .inl rfl
  · next verified =>
      split
      · split <;> exact .inl rfl
      · next fresh =>
          right
          refine ⟨verified, ?_, ?_⟩
          · intro entry member same
            have missing := List.find?_eq_none.mp fresh entry member
            exact missing (decide_eq_true same)
          · dsimp only
            split
            · split <;> rfl
            · rfl

/-- A verified attestation of a party that has none for its commitment is stored. -/
theorem record_fresh {book : AttestationBook} {attestation : RootAttestation}
    (verified : attestation.verify = .ok ())
    (fresh : ∀ entry ∈ book.entries,
      ¬ (entry.commitment = attestation.commitment ∧ entry.party = attestation.party)) :
    (book.record attestation).2 = ⟨book.entries ++ [attestation]⟩ := by
  have missing : book.entries.find? (fun entry => entry.commitment = attestation.commitment ∧
      entry.party = attestation.party) = none := by
    rw [List.find?_eq_none]
    intro entry member same
    exact fresh entry member (of_decide_eq_true same)
  unfold record
  rw [verified]
  dsimp only
  rw [missing]
  dsimp only
  split
  · split <;> rfl
  · rfl

theorem Sound.record {book : AttestationBook} (sound : book.Sound)
    (attestation : RootAttestation) : (book.record attestation).2.Sound := by
  rcases record_cases book attestation with same | ⟨verified, fresh, stored⟩
  · rw [same]
    exact sound
  · rw [stored]
    constructor
    · intro entry member
      rcases List.mem_append.mp member with earlier | last
      · exact sound.verified entry earlier
      · rw [List.mem_singleton.mp last]
        exact verified
    · rw [List.pairwise_append]
      refine ⟨sound.single, List.pairwise_singleton _ _, ?_⟩
      intro entry member later last
      rw [List.mem_singleton.mp last]
      exact fresh entry member

theorem Sound.unique {book : AttestationBook} (sound : book.Sound)
    {entry other : RootAttestation} (member : entry ∈ book.entries) (inside : other ∈ book.entries)
    (about : entry.commitment = other.commitment) (party : entry.party = other.party) :
    entry = other := by
  have symmetric : Std.Symm fun entry later : RootAttestation =>
      ¬ (entry.commitment = later.commitment ∧ entry.party = later.party) :=
    ⟨fun _ _ apart same => apart ⟨same.1.symm, same.2.symm⟩⟩
  by_contra different
  exact sound.single.forall member inside different ⟨about, party⟩

/-- One commitment has at most one attestation of a party. -/
theorem Sound.nodup_parties {book : AttestationBook} (sound : book.Sound) (commitment : Hash)
    (chosen : RootAttestation → Bool) :
    (((book.agreement commitment).filter chosen).map RootAttestation.party).Nodup := by
  unfold List.Nodup
  rw [List.pairwise_map]
  refine ((sound.single.filter _).filter _).imp_of_mem ?_
  intro entry later member inside apart same
  have about : ∀ kept ∈ (book.agreement commitment).filter chosen,
      kept.commitment = commitment := by
    intro kept listed
    exact of_decide_eq_true (List.mem_filter.mp (List.mem_filter.mp listed).1).2
  exact apart ⟨(about entry member).trans (about later inside).symm, same⟩

/-- Every new entry is the recorded attestation. -/
theorem mem_record {book : AttestationBook} {attestation entry : RootAttestation}
    (member : entry ∈ (book.record attestation).2.entries) :
    entry ∈ book.entries ∨ (entry = attestation ∧ attestation.verify = .ok ()) := by
  rcases record_cases book attestation with same | ⟨verified, _, stored⟩
  · rw [same] at member
    exact .inl member
  · rw [stored] at member
    rcases List.mem_append.mp member with earlier | last
    · exact .inl earlier
    · exact .inr ⟨List.mem_singleton.mp last, verified⟩

end Entries

end AttestationBook

/-- The signed message fixes the root. -/
theorem attestationMessage_root {commitment root other : Hash} {party : PartyId}
    (same : attestationMessage commitment root party = attestationMessage commitment other party) :
    root = other := by
  unfold attestationMessage at same
  simp only [List.append_assoc, List.cons_append, List.append_cancel_left_eq, List.cons.injEq,
    true_and] at same
  have aligned : root.asBytes.length = other.asBytes.length := by
    rw [Hash.asBytes_length, Hash.asBytes_length]
  exact Hash.asBytes_injective (List.append_inj same aligned).1

end Veilux
