/-
What the commitment of a private envelope binds.  Stakeholders and shares enter the hash
as one flat sequence of parts; the sequence is determined by the commitment, the place
where the shares begin is not.
-/

import Veilux.Kernel.Merkle
import Veilux.Veil.Private

namespace Veilux

open Bytes (utf8)

/-- Chunks of one length are read back from their concatenation. -/
theorem flatMap_injective {A B : Type} {chunk : A → List B} {size : Nat} (positive : 0 < size)
    (sized : ∀ item, (chunk item).length = size) (injective : Function.Injective chunk)
    {left right : List A} (same : left.flatMap chunk = right.flatMap chunk) : left = right := by
  induction left generalizing right with
  | nil =>
      cases right with
      | nil => rfl
      | cons other others =>
          have lengths := congrArg List.length same
          simp only [List.flatMap_nil, List.flatMap_cons, List.length_append, List.length_nil,
            sized] at lengths
          omega
  | cons item rest ih =>
      cases right with
      | nil =>
          have lengths := congrArg List.length same
          simp only [List.flatMap_nil, List.flatMap_cons, List.length_append, List.length_nil,
            sized] at lengths
          omega
      | cons other others =>
          simp only [List.flatMap_cons] at same
          obtain ⟨chunks, tails⟩ := List.append_inj same ((sized item).trans (sized other).symm)
          rw [injective chunks, ih tails]

namespace SealedShare

/-- A share as it enters the commitment. -/
def parts (share : SealedShare) : List (List UInt8) :=
  [share.recipient.bytes, share.nonce.toList, share.ciphertext]

theorem parts_injective : Function.Injective parts := by
  intro left right same
  cases left
  cases right
  simp only [parts, List.cons.injEq, and_true] at same
  obtain ⟨recipients, nonces, ciphertexts⟩ := same
  rw [PartyId.bytes_injective recipients, Vector.toList_inj.mp nonces, ciphertexts]

end SealedShare

namespace PrivateEnvelope

/-- Stakeholders and shares, one part after the other. -/
def memberParts (envelope : PrivateEnvelope) : List (List UInt8) :=
  envelope.stakeholders.map PartyId.bytes ++ envelope.shares.flatMap SealedShare.parts

def commitParts (envelope : PrivateEnvelope) : List (List UInt8) :=
  [utf8 privateCommitDomain, envelope.salt.asBytes, envelope.ephemeralPublic.toList] ++
    envelope.memberParts

/-- The bytes that are hashed. -/
def commitInput (envelope : PrivateEnvelope) : List UInt8 :=
  Hash.commitBytes "private-envelope" envelope.commitParts

/-- Names and ciphertexts have lengths of 64 bits, as every buffer has. -/
structure Fits (envelope : PrivateEnvelope) : Prop where
  stakeholders : ∀ party ∈ envelope.stakeholders, party.bytes.length < 2 ^ 64
  recipients : ∀ share ∈ envelope.shares, share.recipient.bytes.length < 2 ^ 64
  ciphertexts : ∀ share ∈ envelope.shares, share.ciphertext.length < 2 ^ 64

theorem Fits.parts {envelope : PrivateEnvelope} (fits : envelope.Fits) :
    ∀ part ∈ envelope.commitParts, part.length < 2 ^ 64 := by
  intro part member
  simp only [commitParts, memberParts, List.mem_append, List.mem_map, List.mem_flatMap,
    SealedShare.parts, List.mem_cons, List.not_mem_nil, or_false] at member
  rcases member with (rfl | rfl | rfl) | ⟨party, named, rfl⟩ | ⟨share, sealed, rfl | rfl | rfl⟩
  · decide +kernel
  · simp
  · simp
  · exact fits.stakeholders party named
  · exact fits.recipients share sealed
  · simp
  · exact fits.ciphertexts share sealed

section Binding

variable [Blake3]

theorem verifyCommitment_iff (envelope : PrivateEnvelope) :
    envelope.verifyCommitment = true ↔ Hash.digest envelope.commitInput = envelope.commitment := by
  unfold verifyCommitment expectedCommitment Hash.commit
  rw [decide_eq_true_iff, List.append_assoc]
  rfl

variable {left right : PrivateEnvelope}

/-- The parts are bound. -/
theorem commitParts_eq (leftFits : left.Fits) (rightFits : right.Fits)
    (free : CollisionFree {left.commitInput, right.commitInput})
    (leftBound : left.verifyCommitment = true) (rightBound : right.verifyCommitment = true)
    (same : left.commitment = right.commitment) : left.commitParts = right.commitParts := by
  rw [verifyCommitment_iff] at leftBound rightBound
  have inputs : left.commitInput = right.commitInput :=
    free _ (.inl rfl) _ (.inr rfl) (leftBound.trans (same.trans rightBound.symm))
  exact Hash.commitBytes_injective leftFits.parts rightFits.parts inputs

omit [Blake3] in
/-- Where the shares begin is all that the parts leave open. -/
theorem eq_of_memberParts (counts : left.stakeholders.length = right.stakeholders.length)
    (members : left.memberParts = right.memberParts) :
    left.stakeholders = right.stakeholders ∧ left.shares = right.shares := by
  obtain ⟨names, shares⟩ := List.append_inj members (by simpa using counts)
  exact ⟨List.map_injective_iff.mpr (fun _ _ => PartyId.bytes_injective) names,
    flatMap_injective (by decide : 0 < 3) (fun _ => rfl) SealedShare.parts_injective shares⟩

/-- Two envelopes under one commitment are the same exactly when they count the same
number of stakeholders. -/
theorem commitment_binding_iff (left right : PrivateEnvelope) (leftFits : left.Fits)
    (rightFits : right.Fits) (free : CollisionFree {left.commitInput, right.commitInput})
    (leftBound : left.verifyCommitment = true) (rightBound : right.verifyCommitment = true)
    (same : left.commitment = right.commitment) :
    left = right ↔ left.stakeholders.length = right.stakeholders.length := by
  constructor
  · intro equal
    rw [equal]
  · intro counts
    have parts := commitParts_eq leftFits rightFits free leftBound rightBound same
    simp only [commitParts, List.cons_append, List.nil_append, List.cons.injEq, true_and] at parts
    obtain ⟨salts, keys, members⟩ := parts
    obtain ⟨stakeholders, shares⟩ := eq_of_memberParts counts members
    cases left
    cases right
    simp only [PrivateEnvelope.mk.injEq]
    exact ⟨same, Hash.asBytes_injective salts, Vector.toList_inj.mp keys, stakeholders, shares⟩

end Binding

/-! ### Stakeholders taken for a share -/

section Example

attribute [local instance] Blake3.polynomial

/-- Four stakeholders and no share. -/
def fourNamed : PrivateEnvelope :=
  { commitment := expectedCommitment Hash.zero (Vector.replicate 32 0)
      [⟨"alice"⟩, ⟨"bob"⟩, ⟨"carol-office"⟩, ⟨"dave"⟩] []
    salt := Hash.zero
    ephemeralPublic := Vector.replicate 32 0
    stakeholders := [⟨"alice"⟩, ⟨"bob"⟩, ⟨"carol-office"⟩, ⟨"dave"⟩]
    shares := [] }

/-- The last three names as recipient, nonce and ciphertext of a share. -/
def oneNamed : PrivateEnvelope :=
  { fourNamed with
    stakeholders := [⟨"alice"⟩]
    shares := [
      { recipient := ⟨"bob"⟩
        nonce := #v[99, 97, 114, 111, 108, 45, 111, 102, 102, 105, 99, 101]
        ciphertext := utf8 "dave" }] }

theorem sameInput : fourNamed.commitInput = oneNamed.commitInput := by decide +kernel

theorem oneInput_free : CollisionFree {fourNamed.commitInput, oneNamed.commitInput} := by
  intro left first right second _
  rw [sameInput] at first
  simp only [Set.mem_insert_iff, Set.mem_singleton_iff, or_self] at first second
  rw [sameInput, or_self] at second
  exact first.trans second.symm

theorem named_fit : fourNamed.Fits ∧ oneNamed.Fits := by
  have stakeholders : ∀ party ∈ fourNamed.stakeholders ++ oneNamed.stakeholders,
      party.bytes.length < 2 ^ 64 := by decide +kernel
  have shares : ∀ share ∈ oneNamed.shares, share.recipient.bytes.length < 2 ^ 64 ∧
      share.ciphertext.length < 2 ^ 64 := by decide +kernel
  exact
    ⟨{ stakeholders := fun party member => stakeholders party (List.mem_append_left _ member)
       recipients := fun _ member => nomatch member
       ciphertexts := fun _ member => nomatch member },
     { stakeholders := fun party member => stakeholders party (List.mem_append_right _ member)
       recipients := fun share member => (shares share member).1
       ciphertexts := fun share member => (shares share member).2 }⟩

theorem sameCommitment : fourNamed.commitment = oneNamed.commitment := rfl

theorem named_bound : fourNamed.verifyCommitment = true ∧ oneNamed.verifyCommitment = true := by
  have bound : Hash.digest fourNamed.commitInput = fourNamed.commitment := rfl
  rw [verifyCommitment_iff, verifyCommitment_iff, ← sameInput, ← sameCommitment]
  exact ⟨bound, bound⟩

/-- One commitment, two sets of stakeholders. -/
theorem commitment_binds_no_stakeholders :
    fourNamed.Fits ∧ oneNamed.Fits ∧ CollisionFree {fourNamed.commitInput, oneNamed.commitInput} ∧
      fourNamed.verifyCommitment = true ∧ oneNamed.verifyCommitment = true ∧
      fourNamed.commitment = oneNamed.commitment ∧ fourNamed ≠ oneNamed ∧
      fourNamed.stakeholders.length = 4 ∧ oneNamed.stakeholders.length = 1 :=
  ⟨named_fit.1, named_fit.2, oneInput_free, named_bound.1, named_bound.2, sameCommitment,
    fun same => absurd (congrArg (fun envelope => envelope.stakeholders.length) same) (by decide),
    rfl, rfl⟩

theorem commitment_binding_iff_named :
    fourNamed = oneNamed ↔ fourNamed.stakeholders.length = oneNamed.stakeholders.length :=
  commitment_binding_iff fourNamed oneNamed named_fit.1 named_fit.2 oneInput_free named_bound.1
    named_bound.2 sameCommitment

end Example

end PrivateEnvelope

end Veilux
