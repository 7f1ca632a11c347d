/-
Votes and the per-round vote set of `consensus/src/vote.rs`.
-/

import Veilux.Veil.Identity
import Veilux.Consensus.Validator

namespace Veilux

open Bytes (leBytes utf8)

inductive VoteKind where
  | prevote
  | precommit
  deriving DecidableEq

structure Vote where
  height : Nat
  round : UInt32
  blockHash : Hash
  voter : PartyId
  kind : VoteKind
  signature : List UInt8
  deriving DecidableEq

namespace Vote

def kindByte : VoteKind → UInt8
  | .prevote => 0
  | .precommit => 1

def signingBytes (vote : Vote) : List UInt8 :=
  utf8 "veilux/vote/v1" ++ 0xff :: leBytes 8 vote.height ++ leBytes 4 vote.round.toNat ++
    vote.blockHash.asBytes ++ kindByte vote.kind :: vote.voter.bytes

/-- The statement a vote makes, without the signature that carries it. -/
def SameBallot (left right : Vote) : Prop :=
  left.height = right.height ∧ left.round = right.round ∧ left.blockHash = right.blockHash ∧
    left.voter = right.voter ∧ left.kind = right.kind

instance (left right : Vote) : Decidable (SameBallot left right) :=
  inferInstanceAs (Decidable (_ ∧ _))

/-- The signed bytes fix the whole statement. -/
theorem signingBytes_sameBallot {left right : Vote} (leftHeight : left.height < 2 ^ 64)
    (rightHeight : right.height < 2 ^ 64)
    (same : left.signingBytes = right.signingBytes) : SameBallot left right := by
  unfold signingBytes at same
  simp only [List.append_assoc, List.cons_append, List.append_cancel_left_eq,
    List.cons.injEq, true_and] at same
  obtain ⟨heightSame, same⟩ := List.append_inj same (by simp)
  obtain ⟨roundSame, same⟩ := List.append_inj same (by simp)
  obtain ⟨hashSame, same⟩ := List.append_inj same (by simp)
  obtain ⟨kindSame, voterSame⟩ := List.cons.inj same
  refine ⟨Bytes.leBytes_injective (by simpa using leftHeight) (by simpa using rightHeight)
    heightSame, ?_, Hash.asBytes_injective hashSame, PartyId.bytes_injective voterSame, ?_⟩
  · exact UInt32.toNat_inj.mp
      (Bytes.leBytes_injective left.round.toNat_lt right.round.toNat_lt roundSame)
  · cases leftKind : left.kind <;> cases rightKind : right.kind <;>
      simp_all [kindByte]

end Vote

inductive VoteError where
  | notValidator (name : String)
  | equivocation (name : String)
  deriving DecidableEq

/-- Who voted for what, per kind: the hash each voter was seen with, and the
voters filed under each hash. -/
structure VoteSet where
  prevotes : AList (fun _ : Hash => List PartyId)
  precommits : AList (fun _ : Hash => List PartyId)
  prevoteSeen : AList (fun _ : PartyId => Hash)
  precommitSeen : AList (fun _ : PartyId => Hash)

namespace VoteSet

def new : VoteSet := ⟨∅, ∅, ∅, ∅⟩

def seen (votes : VoteSet) : VoteKind → AList (fun _ : PartyId => Hash)
  | .prevote => votes.prevoteSeen
  | .precommit => votes.precommitSeen

def tally (votes : VoteSet) : VoteKind → AList (fun _ : Hash => List PartyId)
  | .prevote => votes.prevotes
  | .precommit => votes.precommits

def store (votes : VoteSet) (kind : VoteKind) (seen : AList (fun _ : PartyId => Hash))
    (tally : AList (fun _ : Hash => List PartyId)) : VoteSet :=
  match kind with
  | .prevote => { votes with prevoteSeen := seen, prevotes := tally }
  | .precommit => { votes with precommitSeen := seen, precommits := tally }

/-- `VoteSet::add`: `true` for a vote that was counted, `false` for a repeated one. -/
def add (votes : VoteSet) (vote : Vote) (vset : ValidatorSet) :
    Except VoteError Bool × VoteSet :=
  if vset.isValidator vote.voter then
    match (votes.seen vote.kind).lookup vote.voter with
    | some previous =>
        if previous ≠ vote.blockHash then
          (.error (.equivocation vote.voter.name), votes)
        else (.ok false, votes)
    | none =>
        let voters := ((votes.tally vote.kind).lookup vote.blockHash).getD []
        (.ok true, votes.store vote.kind
          ((votes.seen vote.kind).insert vote.voter vote.blockHash)
          ((votes.tally vote.kind).insert vote.blockHash (voters ++ [vote.voter])))
  else (.error (.notValidator vote.voter.name), votes)

def power (tally : AList (fun _ : Hash => List PartyId)) (block : Hash) (vset : ValidatorSet) :
    UInt64 :=
  match tally.lookup block with
  | none => 0
  | some voters => ((voters.filterMap vset.get).map Validator.stake).sum

def prevotePower (votes : VoteSet) (block : Hash) (vset : ValidatorSet) : UInt64 :=
  power votes.prevotes block vset

def precommitPower (votes : VoteSet) (block : Hash) (vset : ValidatorSet) : UInt64 :=
  power votes.precommits block vset

def precommitters (votes : VoteSet) (block : Hash) : List PartyId :=
  (votes.precommits.lookup block).getD []

/-! ### Reading a vote set after an update -/

@[simp] theorem seen_store (votes : VoteSet) (kind : VoteKind)
    (seen : AList (fun _ : PartyId => Hash)) (tally : AList (fun _ : Hash => List PartyId)) :
    (votes.store kind seen tally).seen kind = seen := by
  cases kind <;> rfl

@[simp] theorem tally_store (votes : VoteSet) (kind : VoteKind)
    (seen : AList (fun _ : PartyId => Hash)) (tally : AList (fun _ : Hash => List PartyId)) :
    (votes.store kind seen tally).tally kind = tally := by
  cases kind <;> rfl

theorem seen_store_ne (votes : VoteSet) {kind other : VoteKind}
    (seen : AList (fun _ : PartyId => Hash)) (tally : AList (fun _ : Hash => List PartyId))
    (different : other ≠ kind) : (votes.store kind seen tally).seen other = votes.seen other := by
  cases kind <;> cases other <;> first | rfl | exact absurd rfl different

theorem tally_store_ne (votes : VoteSet) {kind other : VoteKind}
    (seen : AList (fun _ : PartyId => Hash)) (tally : AList (fun _ : Hash => List PartyId))
    (different : other ≠ kind) :
    (votes.store kind seen tally).tally other = votes.tally other := by
  cases kind <;> cases other <;> first | rfl | exact absurd rfl different

/-- The four outcomes of `add`. -/
theorem add_cases (votes : VoteSet) (vote : Vote) (vset : ValidatorSet) :
    ((votes.add vote vset).2 = votes ∧ (votes.add vote vset).1 ≠ .ok true) ∨
    (vset.isValidator vote.voter = true ∧
      (votes.seen vote.kind).lookup vote.voter = none ∧
      votes.add vote vset = (.ok true, votes.store vote.kind
        ((votes.seen vote.kind).insert vote.voter vote.blockHash)
        ((votes.tally vote.kind).insert vote.blockHash
          (((votes.tally vote.kind).lookup vote.blockHash).getD [] ++ [vote.voter])))) := by
  unfold add
  by_cases accepted : vset.isValidator vote.voter = true
  · rw [if_pos accepted]
    cases found : (votes.seen vote.kind).lookup vote.voter with
    | some previous =>
        left
        by_cases other : previous ≠ vote.blockHash
        · simp only [if_pos other, ne_eq, reduceCtorEq, not_false_eq_true, and_self]
        · dsimp only
          rw [if_neg other]
          exact ⟨rfl, by simp⟩
    | none => exact Or.inr ⟨accepted, rfl, rfl⟩
  · rw [if_neg accepted]
    left
    exact ⟨rfl, by simp⟩

end VoteSet

end Veilux
