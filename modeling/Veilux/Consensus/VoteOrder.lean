/-
The order of votes.  As long as a round is open its vote set is a function of the
set of votes delivered, and a block is committed as soon as its precommits reach
the quorum; two blocks never do, so the outcome depends on the delivered set only.
-/

import Veilux.Consensus.Certificate

namespace Veilux

/-- Somebody's vote of a kind for a block is among the votes. -/
def Voted (votes : Finset Vote) (kind : VoteKind) (voter : PartyId) (block : Hash) : Prop :=
  ∃ vote ∈ votes, vote.kind = kind ∧ vote.voter = voter ∧ vote.blockHash = block

instance (votes : Finset Vote) (kind : VoteKind) (voter : PartyId) (block : Hash) :
    Decidable (Voted votes kind voter block) := by
  unfold Voted
  infer_instance

theorem voted_insert {votes : Finset Vote} {vote : Vote} {kind : VoteKind} {voter : PartyId}
    {block : Hash} :
    Voted (insert vote votes) kind voter block ↔
      (vote.kind = kind ∧ vote.voter = voter ∧ vote.blockHash = block) ∨
        Voted votes kind voter block := by
  unfold Voted
  rw [Finset.exists_mem_insert]

/-- No validator votes for two blocks in votes of one kind. -/
def Consistent (votes : Finset Vote) : Prop :=
  ∀ left ∈ votes, ∀ right ∈ votes, left.kind = right.kind → left.voter = right.voter →
    left.blockHash = right.blockHash

instance (votes : Finset Vote) : Decidable (Consistent votes) := by
  unfold Consistent
  infer_instance

theorem Consistent.voted {votes : Finset Vote} (consistent : Consistent votes) {kind : VoteKind}
    {voter : PartyId} {left right : Hash} (first : Voted votes kind voter left)
    (second : Voted votes kind voter right) : left = right := by
  obtain ⟨one, inOne, oneKind, oneVoter, rfl⟩ := first
  obtain ⟨other, inOther, otherKind, otherVoter, rfl⟩ := second
  exact consistent one inOne other inOther (oneKind.trans otherKind.symm)
    (oneVoter.trans otherVoter.symm)

/-- The active validators whose precommits for a block are among the votes. -/
def backers (vset : ValidatorSet) (votes : Finset Vote) (block : Hash) : Finset PartyId :=
  vset.electorate.filter fun voter => Voted votes .precommit voter block

section Backers

variable {vset : ValidatorSet} {votes larger : Finset Vote} {block other : Hash}

theorem mem_backers {voter : PartyId} :
    voter ∈ backers vset votes block ↔
      vset.isValidator voter = true ∧ Voted votes .precommit voter block := by
  unfold backers
  rw [Finset.mem_filter, ValidatorSet.mem_electorate]

theorem backers_subset : backers vset votes block ⊆ vset.electorate := Finset.filter_subset _ _

theorem backers_mono (subset : votes ⊆ larger) :
    backers vset votes block ⊆ backers vset larger block := by
  intro voter member
  obtain ⟨isActive, vote, present, cast⟩ := mem_backers.mp member
  exact mem_backers.mpr ⟨isActive, vote, subset present, cast⟩

/-- Only one block can be backed by a quorum. -/
theorem Consistent.quorum_unique (consistent : Consistent votes)
    (left : Quorum.threshold (Quorum.power vset.weight vset.electorate) ≤
      Quorum.power vset.weight (backers vset votes block))
    (right : Quorum.threshold (Quorum.power vset.weight vset.electorate) ≤
      Quorum.power vset.weight (backers vset votes other)) : block = other := by
  have overlap := Quorum.third_lt_intersection vset.weight backers_subset backers_subset left right
  obtain ⟨voter, common⟩ : (backers vset votes block ∩ backers vset votes other).Nonempty := by
    by_contra empty
    rw [Finset.not_nonempty_iff_eq_empty.mp empty] at overlap
    exact Nat.not_lt_zero _ overlap
  obtain ⟨inLeft, inRight⟩ := Finset.mem_inter.mp common
  exact consistent.voted (mem_backers.mp inLeft).2 (mem_backers.mp inRight).2

end Backers

/-! ### The vote set of a round -/

namespace VoteSet

/-- The vote set records exactly the delivered votes of active validators. -/
structure Filed (vset : ValidatorSet) (delivered : Finset Vote) (votes : VoteSet) : Prop where
  seen : ∀ kind voter block, (votes.seen kind).lookup voter = some block ↔
    vset.isValidator voter = true ∧ Voted delivered kind voter block
  distinct : ∀ kind block, (((votes.tally kind).lookup block).getD []).Nodup
  tally : ∀ kind block voter, voter ∈ ((votes.tally kind).lookup block).getD [] ↔
    (votes.seen kind).lookup voter = some block

variable {vset : ValidatorSet} {delivered : Finset Vote} {votes : VoteSet} {vote : Vote}

theorem filed_new : Filed vset ∅ VoteSet.new := by
  have none_cast (kind : VoteKind) (voter : PartyId) (block : Hash) :
      ¬ Voted ∅ kind voter block := by
    rintro ⟨vote, member, _⟩
    exact absurd member (Finset.notMem_empty vote)
  refine ⟨fun kind voter block => ?_, fun kind block => ?_, fun kind block voter => ?_⟩
  · refine iff_of_false ?_ fun cast => none_cast _ _ _ cast.2
    cases kind <;> exact nofun
  · cases kind <;> exact List.nodup_nil
  · cases kind <;> exact iff_of_false List.not_mem_nil nofun

/-- The vote adds nothing: its voter is not active, or it was delivered before. -/
def Repeats (vset : ValidatorSet) (delivered : Finset Vote) (vote : Vote) : Prop :=
  vset.isValidator vote.voter = true → Voted delivered vote.kind vote.voter vote.blockHash

theorem Repeats.voted (repeats : Repeats vset delivered vote) {kind : VoteKind} {voter : PartyId}
    {block : Hash} (isActive : vset.isValidator voter = true) :
    Voted (insert vote delivered) kind voter block ↔ Voted delivered kind voter block := by
  rw [voted_insert]
  refine ⟨fun cast => ?_, .inr⟩
  rcases cast with ⟨rfl, rfl, rfl⟩ | earlier
  · exact repeats isActive
  · exact earlier

theorem Filed.repeats (filed : Filed vset delivered votes) (repeats : Repeats vset delivered vote) :
    Filed vset (insert vote delivered) votes := by
  refine ⟨fun kind voter block => ?_, filed.distinct, filed.tally⟩
  rw [filed.seen]
  exact and_congr_right fun isActive => (repeats.voted isActive).symm

theorem Filed.unseen (filed : Filed vset delivered votes)
    (consistent : Consistent (insert vote delivered)) (fresh : ¬ Repeats vset delivered vote) :
    vset.isValidator vote.voter = true ∧ (votes.seen vote.kind).lookup vote.voter = none := by
  unfold Repeats at fresh
  push Not at fresh
  obtain ⟨isActive, uncast⟩ := fresh
  refine ⟨isActive, ?_⟩
  cases found : (votes.seen vote.kind).lookup vote.voter with
  | none => rfl
  | some previous =>
      have earlier := ((filed.seen _ _ _).mp found).2
      have same : previous = vote.blockHash := consistent.voted
        (voted_insert.mpr (.inr earlier)) (voted_insert.mpr (.inl ⟨rfl, rfl, rfl⟩))
      rw [same] at earlier
      exact absurd earlier uncast

theorem Filed.add_repeats (filed : Filed vset delivered votes)
    (repeats : Repeats vset delivered vote) :
    (votes.add vote vset).2 = votes ∧ (votes.add vote vset).1 ≠ .ok true := by
  rcases add_cases votes vote vset with unchanged | ⟨isActive, unseen, _⟩
  · exact unchanged
  · have found := (filed.seen vote.kind vote.voter vote.blockHash).mpr ⟨isActive, repeats isActive⟩
    rw [unseen] at found
    cases found

theorem Filed.add_counts (filed : Filed vset delivered votes)
    (consistent : Consistent (insert vote delivered)) (fresh : ¬ Repeats vset delivered vote) :
    (votes.add vote vset).1 = .ok true ∧
      Filed vset (insert vote delivered) (votes.add vote vset).2 := by
  obtain ⟨isActive, unseen⟩ := filed.unseen consistent fresh
  have added : votes.add vote vset = (.ok true, votes.store vote.kind
      ((votes.seen vote.kind).insert vote.voter vote.blockHash)
      ((votes.tally vote.kind).insert vote.blockHash
        (((votes.tally vote.kind).lookup vote.blockHash).getD [] ++ [vote.voter]))) := by
    unfold add
    rw [if_pos isActive, unseen]
  rw [added]
  refine ⟨rfl, ?_⟩
  have absent (block : Hash) : vote.voter ∉ ((votes.tally vote.kind).lookup block).getD [] := by
    intro member
    have found := (filed.tally _ _ _).mp member
    rw [unseen] at found
    cases found
  refine ⟨fun kind voter block => ?_, fun kind block => ?_, fun kind block voter => ?_⟩
  · rw [voted_insert]
    by_cases sameKind : kind = vote.kind
    · subst sameKind
      rw [seen_store]
      by_cases sameVoter : voter = vote.voter
      · subst sameVoter
        have earlier : ¬ Voted delivered vote.kind vote.voter block := by
          intro cast
          have found := (filed.seen _ _ _).mpr ⟨isActive, cast⟩
          rw [unseen] at found
          cases found
        rw [AList.lookup_insert]
        simp [isActive, earlier]
      · rw [AList.lookup_insert_ne sameVoter, filed.seen]
        simp [Ne.symm sameVoter]
    · rw [seen_store_ne _ _ _ sameKind, filed.seen]
      simp [Ne.symm sameKind]
  · by_cases sameKind : kind = vote.kind
    · subst sameKind
      rw [tally_store]
      by_cases sameBlock : block = vote.blockHash
      · subst sameBlock
        rw [AList.lookup_insert]
        refine List.nodup_append.mpr ⟨filed.distinct _ _, List.nodup_singleton _, ?_⟩
        intro voter member last lastMember same
        rw [List.mem_singleton.mp lastMember] at same
        rw [same] at member
        exact absent _ member
      · rw [AList.lookup_insert_ne sameBlock]
        exact filed.distinct _ _
    · rw [tally_store_ne _ _ _ sameKind]
      exact filed.distinct _ _
  · by_cases sameKind : kind = vote.kind
    · subst sameKind
      rw [tally_store, seen_store]
      by_cases sameBlock : block = vote.blockHash
      · subst sameBlock
        rw [AList.lookup_insert]
        change voter ∈ _ ++ [vote.voter] ↔ _
        rw [List.mem_append, List.mem_singleton, filed.tally]
        by_cases sameVoter : voter = vote.voter
        · subst sameVoter
          rw [AList.lookup_insert]
          exact iff_of_true (.inr rfl) rfl
        · rw [AList.lookup_insert_ne sameVoter]
          exact or_iff_left sameVoter
      · rw [AList.lookup_insert_ne sameBlock, filed.tally]
        by_cases sameVoter : voter = vote.voter
        · subst sameVoter
          rw [AList.lookup_insert, unseen]
          exact iff_of_false nofun fun same => sameBlock (Option.some.inj same).symm
        · rw [AList.lookup_insert_ne sameVoter]
    · rw [tally_store_ne _ _ _ sameKind, seen_store_ne _ _ _ sameKind]
      exact filed.tally _ _ _

/-- The tallied power is the stake behind the block. -/
theorem Filed.stake (filed : Filed vset delivered votes)
    (bound : Quorum.power vset.weight vset.electorate < 2 ^ 63) (block : Hash) :
    (votes.precommitPower block vset).toNat =
      Quorum.power vset.weight (backers vset delivered block) := by
  have voters : (((votes.tally .precommit).lookup block).getD []).toFinset =
      backers vset delivered block := by
    ext voter
    rw [List.mem_toFinset, filed.tally, filed.seen, mem_backers]
  have distinct := filed.distinct .precommit block
  have small := Quorum.power_mono vset.weight (@backers_subset vset delivered block)
  have summed : votes.precommitPower block vset =
      (((((votes.tally .precommit).lookup block).getD []).filterMap vset.get).map
        Validator.stake).sum := by
    have tallied : votes.precommits = votes.tally .precommit := rfl
    unfold precommitPower power
    rw [tallied]
    cases (votes.tally .precommit).lookup block <;> rfl
  rw [summed, power_toNat distinct, voters]
  exact Nat.mod_eq_of_lt (by omega)

end VoteSet

/-! ### Deliveries -/

namespace Aurora

section Deliveries

variable [Ed25519]

/-- The engine after a vote from the network. -/
def received (aurora : Aurora) (vote : Vote) : Aurora := (aurora.addVote vote).2

variable {vset : ValidatorSet} {height : Nat} {round : UInt32} {votes delivered : Finset Vote}
  {aurora : Aurora} {vote : Vote}

/-- Votes of one round, validly signed where the voter is known. -/
structure Ballots (vset : ValidatorSet) (height : Nat) (round : UInt32) (votes : Finset Vote) :
    Prop where
  height : ∀ vote ∈ votes, vote.height = height
  round : ∀ vote ∈ votes, vote.round = round
  signed : ∀ vote ∈ votes, ∀ validator, vset.get vote.voter = some validator →
    verifyBytes validator.publicKey vote.signingBytes vote.signature = .ok ()
  consistent : Consistent votes

/-- The round is open and holds the delivered votes, none of them decisive; or the height
is committed to a block that a quorum of them precommits. -/
inductive Tallies (vset : ValidatorSet) (height : Nat) (round : UInt32) (delivered : Finset Vote)
    (aurora : Aurora) : Prop where
  | pending (validators : aurora.validators = vset)
      (undecided : aurora.committed.lookup height = none)
      (filed : (aurora.votesAt height round).Filed vset delivered)
      (short : ∀ block, Quorum.power vset.weight (backers vset delivered block) <
        vset.quorumThreshold.toNat)
  | decided (validators : aurora.validators = vset) (block : Hash)
      (committed : aurora.committed.lookup height = some block)
      (quorum : vset.quorumThreshold.toNat ≤
        Quorum.power vset.weight (backers vset delivered block))

omit [Ed25519] in
theorem tallies_new (me : Option PartyId) : Tallies vset height round ∅ (new vset me) := by
  refine .pending rfl rfl VoteSet.filed_new fun block => ?_
  have nobody : backers vset ∅ block = ∅ := by
    refine Finset.eq_empty_of_forall_notMem fun voter member => ?_
    obtain ⟨_, vote, present, _⟩ := mem_backers.mp member
    exact absurd present (Finset.notMem_empty vote)
  rw [nobody]
  refine Nat.pos_of_ne_zero fun zero => ?_
  exact vset.quorumThreshold_ne_zero (UInt64.toNat_inj.mp zero)

omit [Ed25519] in
theorem Tallies.repeats (tallies : Tallies vset height round delivered aurora)
    (repeats : VoteSet.Repeats vset delivered vote) :
    Tallies vset height round (insert vote delivered) aurora := by
  have same (block : Hash) :
      backers vset (insert vote delivered) block = backers vset delivered block := by
    ext voter
    rw [mem_backers, mem_backers]
    exact and_congr_right fun isActive => repeats.voted isActive
  cases tallies with
  | pending validators undecided filed short =>
      refine .pending validators undecided (filed.repeats repeats) fun block => ?_
      rw [same]
      exact short block
  | decided validators block committed quorum =>
      refine .decided validators block committed ?_
      rw [same]
      exact quorum

omit [Ed25519] in
/-- Only the block of a precommit gains by it. -/
theorem backers_insert {block : Hash}
    (elsewhere : ¬ (vote.kind = .precommit ∧ vote.blockHash = block)) :
    backers vset (insert vote delivered) block = backers vset delivered block := by
  ext voter
  rw [mem_backers, mem_backers, voted_insert]
  refine and_congr_right fun _ => or_iff_right fun cast => elsewhere ⟨cast.1, cast.2.2⟩

omit [Ed25519] in
theorem Tallies.tallyVote (tallies : Tallies vset height round delivered aurora)
    (bound : Quorum.power vset.weight vset.electorate < 2 ^ 63) (atHeight : vote.height = height)
    (atRound : vote.round = round) (consistent : Consistent (insert vote delivered)) :
    Tallies vset height round (insert vote delivered) (aurora.tallyVote vote).2 := by
  subst atHeight atRound
  cases tallies with
  | decided validators block committed quorum =>
      refine .decided ?_ block (tallyVote_committed committed) (quorum.trans ?_)
      · rw [tallyVote_validators, validators]
      · exact Quorum.power_mono _ (backers_mono (Finset.subset_insert _ _))
  | pending validators undecided filed short =>
      subst validators
      have stored (votes : VoteSet) (committed : AList (fun _ : Nat => Hash)) :
          votesAt { aurora with
            rounds := aurora.rounds.insert (vote.height, vote.round) votes
            committed := committed } vote.height vote.round = votes := by
        unfold votesAt
        rw [AList.lookup_insert]
        rfl
      unfold Aurora.tallyVote
      rw [undecided, if_neg (by exact nofun)]
      dsimp only
      by_cases repeats : VoteSet.Repeats aurora.validators delivered vote
      · obtain ⟨unchanged, quiet⟩ := filed.add_repeats repeats
        rw [unchanged]
        have open_ : Tallies aurora.validators vote.height vote.round delivered { aurora with
            rounds := aurora.rounds.insert (vote.height, vote.round)
              (aurora.votesAt vote.height vote.round) } :=
          .pending rfl undecided (by rwa [stored]) short
        split
        · exact open_.repeats repeats
        · exact open_.repeats repeats
        · rename_i counted
          exact absurd counted quiet
      · obtain ⟨counted, next⟩ := filed.add_counts consistent repeats
        rw [counted]
        dsimp only
        have elsewhere {block : Hash}
            (other : ¬ (vote.kind = .precommit ∧ vote.blockHash = block)) :
            Quorum.power aurora.validators.weight
                (backers aurora.validators (insert vote delivered) block) <
              aurora.validators.quorumThreshold.toNat := by
          rw [backers_insert other]
          exact short block
        split
        · rename_i isPrecommit
          split
          · rename_i quorum
            refine .decided rfl vote.blockHash (AList.lookup_insert _) ?_
            rw [← next.stake bound]
            exact UInt64.le_iff_toNat_le.mp quorum
          · rename_i short
            refine .pending rfl undecided (by rwa [stored]) fun block => ?_
            by_cases here : vote.blockHash = block
            · subst here
              rw [← next.stake bound]
              exact Nat.lt_of_not_le fun quorum => short (UInt64.le_iff_toNat_le.mpr quorum)
            · exact elsewhere fun cast => here cast.2
        · rename_i isPrevote
          exact .pending rfl undecided (by rwa [stored]) fun block =>
            elsewhere fun cast => isPrevote cast.1

theorem Tallies.received (tallies : Tallies vset height round delivered aurora)
    (bound : Quorum.power vset.weight vset.electorate < 2 ^ 63)
    (ballots : Ballots vset height round (insert vote delivered)) :
    Tallies vset height round (insert vote delivered) (aurora.received vote) := by
  have here : vote ∈ insert vote delivered := Finset.mem_insert_self _ _
  have same : aurora.validators = vset := by
    cases tallies with
    | pending validators _ _ _ => exact validators
    | decided validators _ _ _ => exact validators
  unfold Aurora.received addVote
  rw [same]
  cases known : vset.get vote.voter with
  | none =>
      refine tallies.repeats fun isActive => ?_
      unfold ValidatorSet.isValidator at isActive
      rw [known] at isActive
      cases isActive
  | some validator =>
      have verified := ballots.signed vote here validator known
      have signed : ¬ vote.signature.isEmpty = true := by
        intro empty
        rw [List.isEmpty_iff.mp empty] at verified
        unfold verifyBytes exactly at verified
        split at verified
        · cases verified
        · split at verified <;> cases verified
      dsimp only
      rw [if_neg signed, verified]
      exact tallies.tallyVote bound (ballots.height vote here) (ballots.round vote here)
        ballots.consistent

theorem Ballots.mono {larger : Finset Vote} (ballots : Ballots vset height round larger)
    (subset : votes ⊆ larger) : Ballots vset height round votes where
  height vote member := ballots.height vote (subset member)
  round vote member := ballots.round vote (subset member)
  signed vote member := ballots.signed vote (subset member)
  consistent left inLeft right inRight :=
    ballots.consistent left (subset inLeft) right (subset inRight)

theorem Tallies.run {arrivals : List Vote} (tallies : Tallies vset height round delivered aurora)
    (bound : Quorum.power vset.weight vset.electorate < 2 ^ 63)
    (ballots : Ballots vset height round (arrivals.toFinset ∪ delivered)) :
    Tallies vset height round (arrivals.toFinset ∪ delivered)
      (Run.run Aurora.received aurora arrivals) := by
  induction arrivals generalizing aurora delivered with
  | nil =>
      rw [List.toFinset_nil, Finset.empty_union]
      exact tallies
  | cons vote rest ih =>
      have grown : (vote :: rest).toFinset ∪ delivered = rest.toFinset ∪ insert vote delivered := by
        rw [List.toFinset_cons, Finset.insert_union, Finset.union_insert]
      rw [grown] at ballots ⊢
      exact ih (tallies.received bound (ballots.mono Finset.subset_union_right)) ballots

omit [Ed25519] in
/-- What is committed at the height is the block with a quorum of the delivered precommits. -/
theorem Tallies.isCommitted (tallies : Tallies vset height round delivered aurora)
    (bound : Quorum.power vset.weight vset.electorate < 2 ^ 63)
    (consistent : Consistent delivered) (block : Hash) :
    aurora.isCommitted height = some block ↔ vset.quorumThreshold.toNat ≤
      Quorum.power vset.weight (backers vset delivered block) := by
  unfold Aurora.isCommitted
  cases tallies with
  | pending _ undecided _ short =>
      rw [undecided]
      exact iff_of_false nofun (Nat.not_le.mpr (short block))
  | decided _ winner committed quorum =>
      rw [committed, Option.some.injEq]
      constructor
      · rintro rfl
        exact quorum
      · intro other
        rw [vset.quorumThreshold_toNat bound] at quorum other
        exact consistent.quorum_unique quorum other

/-- Delivered in any order and with any repetitions, the votes of a round commit the block
whose precommits carry the quorum, if there is one. -/
theorem isCommitted_iff_quorum (me : Option PartyId)
    (bound : Quorum.power vset.weight vset.electorate < 2 ^ 63)
    (ballots : Ballots vset height round votes) :
    (∀ arrivals : List Vote, arrivals.toFinset = votes → ∀ block,
      (Run.run received (new vset me) arrivals).isCommitted height = some block ↔
        vset.quorumThreshold.toNat ≤ Quorum.power vset.weight (backers vset votes block)) ∧
    (∀ left right : List Vote, left.toFinset = votes → right.toFinset = votes →
      (Run.run received (new vset me) left).isCommitted height =
        (Run.run received (new vset me) right).isCommitted height) := by
  have settled (arrivals : List Vote) (all : arrivals.toFinset = votes) (block : Hash) :
      (Run.run received (new vset me) arrivals).isCommitted height = some block ↔
        vset.quorumThreshold.toNat ≤ Quorum.power vset.weight (backers vset votes block) := by
    have fresh : Tallies vset height round ∅ (new vset me) := tallies_new me
    have tallies := fresh.run bound (by rwa [Finset.union_empty, all])
    rw [Finset.union_empty, all] at tallies
    exact tallies.isCommitted bound ballots.consistent block
  refine ⟨settled, fun left right allLeft allRight => Option.ext fun block => ?_⟩
  exact (settled left allLeft block).trans (settled right allRight block).symm

end Deliveries

/-! ### Three of four -/

section Four

attribute [local instance] Ed25519.keyed

/-- A member's signed vote for a block. -/
def signedVote (member : PartyIdentity) (kind : VoteKind) (block : Hash) : Vote :=
  let vote : Vote :=
    { height := 1
      round := 0
      blockHash := block
      voter := member.party
      kind := kind
      signature := [] }
  { vote with signature := member.signBytes vote.signingBytes }

def threeVotes : List Vote :=
  [PartyIdentity.repeated "v1" 1, .repeated "v2" 2, .repeated "v3" 3].map fun member =>
    signedVote member .precommit Hash.zero

/-- The three precommits and a prevote, the last two repeated and the others between them. -/
def threeArrivals : List Vote :=
  threeVotes.reverse ++ signedVote (.repeated "v4" 4) .prevote Hash.zero :: threeVotes

theorem signedVote_verifies (member : PartyIdentity) (kind : VoteKind) (block : Hash) :
    verifyBytes member.publicKey (signedVote member kind block).signingBytes
      (signedVote member kind block).signature = .ok () := by
  simp only [signedVote, Vote.signingBytes]
  exact verifyBytes_signBytes member _

/-- Every arrival is a vote that a member has signed for the block. -/
theorem mem_threeArrivals {vote : Vote} (member : vote ∈ threeArrivals.toFinset) :
    ∃ signer kind, vote = signedVote signer kind Hash.zero ∧
      (fourSet.get signer.party).map Validator.publicKey = some signer.publicKey := by
  simp only [threeArrivals, threeVotes, List.map_cons, List.map_nil, List.reverse_cons,
    List.reverse_nil, List.nil_append, List.cons_append, List.mem_toFinset, List.mem_cons,
    List.not_mem_nil, or_false] at member
  rcases member with rfl | rfl | rfl | rfl | rfl | rfl | rfl
  all_goals exact ⟨_, _, rfl, by decide⟩

theorem isCommitted_iff_quorum_three :
    (Run.run received (new fourSet none) threeArrivals).isCommitted 1 = some Hash.zero := by
  have bound : Quorum.power fourSet.weight fourSet.electorate < 2 ^ 63 := by
    decide
  have ballots : Ballots fourSet 1 0 threeArrivals.toFinset := by
    constructor
    · intro vote member
      obtain ⟨_, _, rfl, _⟩ := mem_threeArrivals member
      rfl
    · intro vote member
      obtain ⟨_, _, rfl, _⟩ := mem_threeArrivals member
      rfl
    · intro vote member validator known
      obtain ⟨signer, _, rfl, registered⟩ := mem_threeArrivals member
      have sameKey : (fourSet.get signer.party).map Validator.publicKey =
          some validator.publicKey := congrArg (Option.map Validator.publicKey) known
      rw [Option.some.inj (sameKey.symm.trans registered)]
      exact signedVote_verifies signer _ _
    · intro left leftMember right rightMember _ _
      obtain ⟨_, _, rfl, _⟩ := mem_threeArrivals leftMember
      obtain ⟨_, _, rfl, _⟩ := mem_threeArrivals rightMember
      rfl
  have quorum : fourSet.quorumThreshold.toNat ≤ Quorum.power fourSet.weight
      (backers fourSet threeArrivals.toFinset Hash.zero) := by
    decide +kernel
  exact ((isCommitted_iff_quorum none bound ballots).1 _ rfl _).mpr quorum

end Four

end Aurora

end Veilux
