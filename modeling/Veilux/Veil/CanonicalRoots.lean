/-
Arbitration over a recorded set of attestations.  The canonical root is the root with a
strict majority of the stakeholders behind it, in whatever order the attestations came, and
the offenders are those who attested another.
-/

import Veilux.Lib.Tally
import Veilux.Veil.Attestations

namespace Veilux

namespace AttestationBook

open Majority (Wins)

/-! ### The tally -/

theorem lookup_countRoot (root other : Hash) (tally : List (Hash × Nat)) :
    (countRoot root tally).lookup other =
      if other = root then some ((tally.lookup root).getD 0 + 1) else tally.lookup other := by
  induction tally with
  | nil =>
      by_cases same : other = root
      · simp [countRoot, List.lookup, same]
      · have away : (other == root) = false := beq_false_of_ne same
        simp [countRoot, List.lookup, same, away]
  | cons first tally ih =>
      obtain ⟨counted, votes⟩ := first
      unfold countRoot
      by_cases known : counted = root
      · rw [if_pos known, known]
        by_cases same : other = root
        · simp [List.lookup, same]
        · have away : (other == root) = false := beq_false_of_ne same
          simp [List.lookup, same, away]
      · rw [if_neg known]
        by_cases here : other = counted
        · have different : other ≠ root := fun same => known (here.symm.trans same)
          simp [List.lookup, here, known]
        · have apart : (root == counted) = false := beq_false_of_ne fun same => known same.symm
          have away : (other == counted) = false := beq_false_of_ne here
          simp only [List.lookup, away, apart]
          exact ih

/-- Every root that was voted for is in the tally with its votes. -/
theorem lookup_tally (votes : List RootAttestation) (root : Hash) :
    (votes.foldl (fun tally vote => countRoot vote.privateRoot tally) []).lookup root =
      if (votes.map RootAttestation.privateRoot).count root = 0 then none
      else some ((votes.map RootAttestation.privateRoot).count root) := by
  induction votes using List.reverseRecOn generalizing root with
  | nil => simp
  | append_singleton votes vote ih =>
      rw [List.foldl_append, List.map_append, List.count_append]
      change (countRoot vote.privateRoot _).lookup root = _
      rw [lookup_countRoot, ih, ih]
      by_cases same : root = vote.privateRoot
      · simp only [same, if_true, List.map_cons, List.map_nil, List.count_singleton_self]
        split
        · next none => simp [none]
        · simp
      · have zero : ([vote].map RootAttestation.privateRoot).count root = 0 :=
          List.count_eq_zero.mpr fun member => same (List.mem_singleton.mp member)
        rw [if_neg same, zero, Nat.add_zero]

theorem mem_of_lookup {tally : List (Hash × Nat)} {root : Hash} {votes : Nat}
    (found : tally.lookup root = some votes) : (root, votes) ∈ tally := by
  obtain ⟨front, back, rfl, _⟩ := List.lookup_eq_some_iff.mp found
  simp

/-! ### The canonical root -/

variable {book : AttestationBook} {commitment root : Hash} {count : Nat}

/-- The roots attested for a commitment, one for each entry. -/
def rootsOf (book : AttestationBook) (commitment : Hash) : List Hash :=
  (book.agreement commitment).map RootAttestation.privateRoot

theorem canonicalRoot_wins (found : book.canonicalRoot commitment count = some root) :
    Wins (book.rootsOf commitment) count root := by
  have backed := canonicalRoot_backed found
  have counted : (book.rootsOf commitment).count root =
      ((book.agreement commitment).filter fun entry => entry.privateRoot = root).length := by
    unfold rootsOf
    rw [List.count_eq_countP, List.countP_map, ← List.countP_eq_length_filter]
    congr 1
  unfold Wins
  omega

/-- With no more entries than stakeholders the first root of the tally is the one that wins. -/
theorem canonicalRoot_eq_some_iff (few : (book.agreement commitment).length ≤ count) :
    book.canonicalRoot commitment count = some root ↔
      Wins (book.rootsOf commitment) count root := by
  refine ⟨canonicalRoot_wins, fun wins => ?_⟩
  have votes : (book.rootsOf commitment).length ≤ count := by
    unfold rootsOf
    rwa [List.length_map]
  have positive : (book.rootsOf commitment).count root ≠ 0 := by
    unfold Wins at wins
    omega
  have listed := lookup_tally (book.agreement commitment) root
  rw [← rootsOf, if_neg positive] at listed
  cases found : book.canonicalRoot commitment count with
  | some other => rw [Wins.unique votes (canonicalRoot_wins found) wins]
  | none =>
      have inside := mem_of_lookup listed
      have enough : count / 2 + 1 ≤ (book.rootsOf commitment).count root := by
        unfold Wins at wins
        omega
      unfold canonicalRoot at found
      dsimp only at found
      have total : Std.Total fun left right : Hash × Nat => right.2 ≤ left.2 :=
        ⟨fun left right => Nat.le_total right.2 left.2⟩
      have ordered := List.pairwise_insertionSort (fun left right : Hash × Nat => right.2 ≤ left.2)
        ((book.agreement commitment).foldl (fun tally vote => countRoot vote.privateRoot tally) [])
      have kept := (List.mem_insertionSort fun left right : Hash × Nat => right.2 ≤ left.2).mpr inside
      split at found
      · next empty =>
          rw [empty] at kept
          cases kept
      · next topRoot topCount rest sorted =>
          rw [sorted] at kept ordered
          have most : (book.rootsOf commitment).count root ≤ topCount := by
            rcases List.mem_cons.mp kept with same | later
            · exact (congrArg Prod.snd same).le
            · exact List.rel_of_pairwise_cons ordered later
          rw [if_pos (enough.trans most)] at found
          cases found

/-! ### Recording in any order -/

section Recording

variable [Ed25519]

def recordAll (book : AttestationBook) (order : List RootAttestation) : AttestationBook :=
  order.foldl (fun book attestation => (book.record attestation).2) book

/-- Attestations of one commitment by different parties are all kept, as they come. -/
theorem recordAll_entries {order : List RootAttestation}
    (verified : ∀ attestation ∈ order, attestation.verify = .ok ())
    (about : ∀ attestation ∈ order, attestation.commitment = commitment)
    (distinct : (order.map RootAttestation.party).Nodup)
    (fresh : ∀ entry ∈ book.entries, entry.commitment = commitment →
      entry.party ∉ order.map RootAttestation.party) :
    (book.recordAll order).entries = book.entries ++ order := by
  induction order generalizing book with
  | nil => exact (List.append_nil _).symm
  | cons first rest ih =>
      rw [List.map_cons, List.nodup_cons] at distinct
      have own := about first List.mem_cons_self
      have stored : (book.record first).2 = ⟨book.entries ++ [first]⟩ := by
        refine record_fresh (verified first List.mem_cons_self) fun entry member same => ?_
        refine fresh entry member (same.1.trans own) ?_
        rw [same.2]
        exact List.mem_cons_self
      change ((book.record first).2.recordAll rest).entries = _
      rw [stored, ih (fun other member => verified other (List.mem_cons_of_mem _ member))
        (fun other member => about other (List.mem_cons_of_mem _ member)) distinct.2]
      · exact List.append_assoc _ _ _
      · intro entry member same
        rcases List.mem_append.mp member with earlier | last
        · exact fun later => fresh entry earlier same (List.mem_cons_of_mem _ later)
        · rw [List.mem_singleton.mp last]
          exact distinct.1

variable {votes : Finset RootAttestation} {order : List RootAttestation}

theorem agreement_recordAll (verified : ∀ attestation ∈ votes, attestation.verify = .ok ())
    (about : ∀ attestation ∈ votes, attestation.commitment = commitment)
    (distinct : Set.InjOn RootAttestation.party votes)
    (fresh : ∀ entry ∈ book.entries, entry.commitment ≠ commitment)
    (once : order.Nodup) (all : order.toFinset = votes) :
    (book.recordAll order).agreement commitment = order ∧
      (book.recordAll order).entries = book.entries ++ order := by
  have listed {attestation : RootAttestation} (member : attestation ∈ order) :
      attestation ∈ votes := by
    rw [← all, List.mem_toFinset]
    exact member
  have parties : (order.map RootAttestation.party).Nodup := by
    refine List.Nodup.map_on (fun left inLeft right inRight same => ?_) once
    exact distinct (listed inLeft) (listed inRight) same
  have entries := recordAll_entries (fun _ member => verified _ (listed member))
    (fun _ member => about _ (listed member)) parties
    fun entry member same => absurd same (fresh entry member)
  refine ⟨?_, entries⟩
  have before : book.entries.filter (fun entry => entry.commitment = commitment) = [] := by
    rw [List.filter_eq_nil_iff]
    intro entry member same
    exact fresh entry member (of_decide_eq_true same)
  have after : order.filter (fun entry => entry.commitment = commitment) = order := by
    rw [List.filter_eq_self]
    exact fun entry member => decide_eq_true (about entry (listed member))
  unfold agreement
  rw [entries, List.filter_append, before, after, List.nil_append]

omit [Ed25519] in
theorem count_roots (once : order.Nodup) (all : order.toFinset = votes) (root : Hash) :
    (order.map RootAttestation.privateRoot).count root =
      (votes.filter fun vote => vote.privateRoot = root).card := by
  have chosen : votes.filter (fun vote => vote.privateRoot = root) =
      (order.filter fun vote => vote.privateRoot = root).toFinset := by
    ext vote
    simp [← all]
  rw [chosen, List.toFinset_card_of_nodup (once.filter _), ← List.countP_eq_length_filter,
    List.count_eq_countP, List.countP_map]
  congr 1

/-- The decision over a set of attestations: the root that wins, and against it those who
attested another. -/
theorem arbitration (commitment : Hash) (stakeholders : Nat) (votes : Finset RootAttestation)
    (verified : ∀ attestation ∈ votes, attestation.verify = .ok ())
    (about : ∀ attestation ∈ votes, attestation.commitment = commitment)
    (distinct : Set.InjOn RootAttestation.party votes) (few : votes.card ≤ stakeholders)
    (book : AttestationBook) (fresh : ∀ entry ∈ book.entries, entry.commitment ≠ commitment) :
    ∃ decision : Option Hash,
      (∀ root, decision = some root ↔
        stakeholders < 2 * (votes.filter fun vote => vote.privateRoot = root).card) ∧
      ∀ order : List RootAttestation, order.Nodup → order.toFinset = votes →
        (book.recordAll order).canonicalRoot commitment stakeholders = decision ∧
        ((book.recordAll order).minorityOffenders commitment stakeholders).Nodup ∧
        ∀ offender, offender ∈ (book.recordAll order).minorityOffenders commitment stakeholders ↔
          offender ∈ votes ∧ ∃ root, decision = some root ∧ offender.privateRoot ≠ root := by
  -- any order decides, and the others decide alike
  have decided (order : List RootAttestation) (once : order.Nodup) (all : order.toFinset = votes)
      (root : Hash) : (book.recordAll order).canonicalRoot commitment stakeholders = some root ↔
        stakeholders < 2 * (votes.filter fun vote => vote.privateRoot = root).card := by
    have agreed := (agreement_recordAll verified about distinct fresh once all).1
    have length : order.length = votes.card := by
      rw [← all, List.toFinset_card_of_nodup once]
    rw [canonicalRoot_eq_some_iff (by rw [agreed, length]; exact few), rootsOf, agreed, Wins,
      count_roots once all]
  refine ⟨(book.recordAll votes.toList).canonicalRoot commitment stakeholders,
    decided _ votes.nodup_toList votes.toList_toFinset, fun order once all => ?_⟩
  have same : (book.recordAll order).canonicalRoot commitment stakeholders =
      (book.recordAll votes.toList).canonicalRoot commitment stakeholders :=
    Option.ext fun root =>
      (decided order once all root).trans
        (decided _ votes.nodup_toList votes.toList_toFinset root).symm
  have entries := (agreement_recordAll verified about distinct fresh once all).2
  rw [← same]
  refine ⟨rfl, ?_⟩
  unfold minorityOffenders
  cases (book.recordAll order).canonicalRoot commitment stakeholders with
  | none =>
      refine ⟨List.nodup_nil, fun offender => ⟨fun member => ?_, ?_⟩⟩
      · cases member
      · rintro ⟨_, root, impossible, _⟩
        cases impossible
  | some canonical =>
      have before : book.entries.filter (fun entry =>
          entry.commitment = commitment ∧ entry.privateRoot ≠ canonical) = [] := by
        rw [List.filter_eq_nil_iff]
        intro entry member same
        exact fresh entry member (of_decide_eq_true same).1
      dsimp only
      rw [entries, List.filter_append, before, List.nil_append]
      refine ⟨once.filter _, fun offender => ?_⟩
      rw [List.mem_filter, decide_eq_true_eq, ← List.mem_toFinset, all]
      constructor
      · rintro ⟨member, _, other⟩
        exact ⟨member, canonical, rfl, other⟩
      · rintro ⟨member, root, chosen, other⟩
        cases chosen
        exact ⟨member, about offender member, other⟩

end Recording

section Fixed

attribute [local instance] Ed25519.keyed

/-- Two attestations of one root and one of another. -/
def twoToOne : Finset RootAttestation :=
  {RootAttestation.create (.repeated "alice" 1) .zero .zero,
    RootAttestation.create (.repeated "bob" 2) .zero .zero,
    RootAttestation.create (.repeated "carol" 3) .zero ⟨Vector.replicate 32 1⟩}

theorem arbitration_three :
    ∃ decision : Option Hash,
      (∀ root, decision = some root ↔
        3 < 2 * (twoToOne.filter fun vote => vote.privateRoot = root).card) ∧
      ∀ order : List RootAttestation, order.Nodup → order.toFinset = twoToOne →
        (empty.recordAll order).canonicalRoot .zero 3 = decision ∧
        ((empty.recordAll order).minorityOffenders .zero 3).Nodup ∧
        ∀ offender, offender ∈ (empty.recordAll order).minorityOffenders .zero 3 ↔
          offender ∈ twoToOne ∧ ∃ root, decision = some root ∧ offender.privateRoot ≠ root := by
  have members {attestation : RootAttestation} (member : attestation ∈ twoToOne) :
      ∃ identity root, attestation = RootAttestation.create identity .zero root := by
    unfold twoToOne at member
    simp only [Finset.mem_insert, Finset.mem_singleton] at member
    rcases member with rfl | rfl | rfl
    · exact ⟨_, _, rfl⟩
    · exact ⟨_, _, rfl⟩
    · exact ⟨_, _, rfl⟩
  refine arbitration .zero 3 twoToOne (fun attestation member => ?_) (fun attestation member => ?_)
    ?_ (Finset.card_le_three) empty nofun
  · obtain ⟨identity, root, rfl⟩ := members member
    exact RootAttestation.verify_create identity _ root
  · obtain ⟨identity, root, rfl⟩ := members member
    rfl
  · intro left inLeft right inRight same
    have named (attestation : RootAttestation) (member : attestation ∈ twoToOne) :
        ∀ other ∈ twoToOne, attestation.party = other.party → attestation = other := by
      revert attestation
      decide +kernel
    exact named left inLeft right inRight same

end Fixed

end AttestationBook

end Veilux
