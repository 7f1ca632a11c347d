/-
Soundness of what Aurora counts.  An evidence predicate says which ballots were
really cast; the vote sets, the prevote quorums and the committed heights are
sound when every counted voter is an active validator backed by evidence.  The
last section takes the calls themselves as evidence.
-/

import Veilux.Lib.Run
import Veilux.Consensus.Aurora

namespace Veilux

/-- Which ballots were cast: height, round, kind, voter, block. -/
abbrev Evidence := Nat → UInt32 → VoteKind → PartyId → Hash → Prop

/-- Distinct active validators holding a quorum of the stake, all with `backed`. -/
structure Certificate (vset : ValidatorSet) (backed : PartyId → Prop) where
  members : Finset PartyId
  active : members ⊆ vset.electorate
  quorum : vset.quorumThreshold.toNat ≤ Quorum.power vset.weight members
  signed : ∀ voter ∈ members, backed voter

def Certificate.mono {vset : ValidatorSet} {backed weaker : PartyId → Prop}
    (certificate : Certificate vset backed) (implies : ∀ voter, backed voter → weaker voter) :
    Certificate vset weaker :=
  { members := certificate.members
    active := certificate.active
    quorum := certificate.quorum
    signed := fun voter member => implies voter (certificate.signed voter member) }

/-- A quorum is never empty, so somebody is behind every certificate. -/
theorem Certificate.exists_backed {vset : ValidatorSet} {backed : PartyId → Prop}
    (certificate : Certificate vset backed) : ∃ voter ∈ vset.electorate, backed voter := by
  obtain ⟨voter, member⟩ : certificate.members.Nonempty := by
    by_contra empty
    have quorum := certificate.quorum
    rw [Finset.not_nonempty_iff_eq_empty.mp empty] at quorum
    have zero : vset.quorumThreshold.toNat = 0 := Nat.le_zero.mp quorum
    exact vset.quorumThreshold_ne_zero (UInt64.toNat_inj.mp zero)
  exact ⟨voter, certificate.active member, certificate.signed voter member⟩

namespace VoteSet

/-- Voters filed under a hash are distinct, active, seen with it and backed. -/
def Sound (vset : ValidatorSet) (evidence : VoteKind → PartyId → Hash → Prop)
    (votes : VoteSet) : Prop :=
  ∀ kind block voters, (votes.tally kind).lookup block = some voters →
    voters.Nodup ∧ ∀ voter ∈ voters, vset.isValidator voter = true ∧
      (votes.seen kind).lookup voter = some block ∧ evidence kind voter block

variable {vset : ValidatorSet} {evidence : VoteKind → PartyId → Hash → Prop}

theorem sound_new : Sound vset evidence VoteSet.new := by
  intro kind block voters found
  cases kind <;> cases found

theorem Sound.mono {votes : VoteSet} {weaker : VoteKind → PartyId → Hash → Prop}
    (sound : Sound vset evidence votes)
    (implies : ∀ kind voter block, evidence kind voter block → weaker kind voter block) :
    Sound vset weaker votes := by
  intro kind block voters found
  obtain ⟨distinct, each⟩ := sound kind block voters found
  refine ⟨distinct, fun voter member => ?_⟩
  obtain ⟨isActive, seen, backed⟩ := each voter member
  exact ⟨isActive, seen, implies kind voter block backed⟩

/-- One call of `add` keeps the set sound when the vote itself has evidence. -/
theorem Sound.add {votes : VoteSet} {vote : Vote} (sound : Sound vset evidence votes)
    (backed : evidence vote.kind vote.voter vote.blockHash) :
    Sound vset evidence (votes.add vote vset).2 := by
  rcases add_cases votes vote vset with ⟨unchanged, _⟩ | ⟨isActive, unseen, added⟩
  · rw [unchanged]
    exact sound
  · rw [added]
    intro kind block voters found
    by_cases sameKind : kind = vote.kind
    · subst sameKind
      rw [tally_store] at found
      rw [seen_store]
      -- Filed voters were seen, the new one was not, so it is new and keeps theirs.
      have others : ∀ voter ∈ ((votes.tally vote.kind).lookup block).getD [],
          voter ≠ vote.voter ∧ vset.isValidator voter = true ∧
            ((votes.seen vote.kind).insert vote.voter vote.blockHash).lookup voter = some block ∧
              evidence vote.kind voter block := by
        intro voter member
        cases earlier : (votes.tally vote.kind).lookup block with
        | none =>
            rw [earlier] at member
            cases member
        | some filed =>
            rw [earlier] at member
            obtain ⟨voterActive, seen, voterBacked⟩ := (sound _ _ _ earlier).2 voter member
            have different : voter ≠ vote.voter := by
              intro same
              rw [same, unseen] at seen
              cases seen
            refine ⟨different, voterActive, ?_, voterBacked⟩
            rw [AList.lookup_insert_ne different]
            exact seen
      by_cases sameBlock : block = vote.blockHash
      · subst sameBlock
        rw [AList.lookup_insert] at found
        cases found
        constructor
        · rw [List.nodup_append]
          refine ⟨?_, List.nodup_singleton _, ?_⟩
          · cases earlier : (votes.tally vote.kind).lookup vote.blockHash with
            | none => exact List.nodup_nil
            | some filed => exact (sound _ _ _ earlier).1
          · intro voter member other last
            rw [List.mem_singleton.mp last]
            exact (others voter member).1
        · intro voter member
          rcases List.mem_append.mp member with earlier | last
          · exact (others voter earlier).2
          · rw [List.mem_singleton.mp last]
            exact ⟨isActive, AList.lookup_insert _, backed⟩
      · rw [AList.lookup_insert_ne sameBlock] at found
        refine ⟨(sound _ _ _ found).1, fun voter member => ?_⟩
        apply (others voter _).2
        rw [found]
        exact member
    · rw [tally_store_ne _ _ _ sameKind] at found
      rw [seen_store_ne _ _ _ sameKind]
      exact sound kind block voters found

/-- The 64-bit power is the stake of the distinct voters, wrapped once. -/
theorem power_toNat {voters : List PartyId} (distinct : voters.Nodup) :
    ((voters.filterMap vset.get).map Validator.stake).sum.toNat =
      Quorum.power vset.weight voters.toFinset % 2 ^ 64 := by
  have exact_ : ((voters.filterMap vset.get).map Validator.stake).map UInt64.toNat =
      (voters.filterMap vset.get).map (fun validator => validator.stake.toNat) :=
    List.map_map
  have stakes : ((voters.filterMap vset.get).map (fun validator => validator.stake.toNat)).sum =
      (voters.map vset.weight).sum := by
    clear exact_ distinct
    induction voters with
    | nil => rfl
    | cons voter rest ih =>
        cases found : vset.get voter with
        | none =>
            rw [List.filterMap_cons_none found, ih, List.map_cons, List.sum_cons]
            simp only [ValidatorSet.weight, found, Nat.zero_add]
        | some validator =>
            rw [List.filterMap_cons_some found]
            simp only [List.map_cons, List.sum_cons, ih, ValidatorSet.weight, found]
  rw [ValidatorSet.sum_toNat, exact_, stakes]
  unfold Quorum.power
  rw [List.sum_toFinset _ distinct]

/-- The wrapped 64-bit power never exceeds the stake of the distinct voters. -/
theorem power_le {voters : List PartyId} (distinct : voters.Nodup) :
    ((voters.filterMap vset.get).map Validator.stake).sum.toNat ≤
      Quorum.power vset.weight voters.toFinset := by
  rw [power_toNat distinct]
  exact Nat.mod_le _ _

/-- Reaching the threshold under a hash is a certificate for it. -/
theorem Sound.certificate {votes : VoteSet} (sound : Sound vset evidence votes)
    (kind : VoteKind) (block : Hash)
    (reached : vset.quorumThreshold ≤ power (votes.tally kind) block vset) :
    Nonempty (Certificate vset (fun voter => evidence kind voter block)) := by
  unfold power at reached
  cases found : (votes.tally kind).lookup block with
  | none =>
      rw [found] at reached
      exact absurd (UInt64.le_zero_iff.mp reached) vset.quorumThreshold_ne_zero
  | some voters =>
      rw [found] at reached
      obtain ⟨distinct, each⟩ := sound kind block voters found
      refine ⟨⟨voters.toFinset, ?_, ?_, ?_⟩⟩
      · intro voter member
        exact ValidatorSet.mem_electorate.mpr (each voter (List.mem_toFinset.mp member)).1
      · exact Nat.le_trans (UInt64.le_iff_toNat_le.mp reached) (power_le distinct)
      · intro voter member
        exact (each voter (List.mem_toFinset.mp member)).2.2

end VoteSet

namespace Aurora

/-- Every round is sound, and every committed height has a precommit certificate. -/
structure Sound (evidence : Evidence) (aurora : Aurora) : Prop where
  rounds : ∀ height round votes, aurora.rounds.lookup (height, round) = some votes →
    votes.Sound aurora.validators (evidence height round)
  committed : ∀ height block, aurora.committed.lookup height = some block →
    ∃ round, Nonempty (Certificate aurora.validators
      (fun voter => evidence height round .precommit voter block))

section Soundness

variable {evidence : Evidence} {aurora : Aurora} {vote : Vote}

theorem sound_new (vset : ValidatorSet) (me : Option PartyId) : Sound evidence (new vset me) := by
  constructor
  · intro height round votes found
    cases found
  · intro height block found
    cases found

theorem Sound.mono {weaker : Evidence} (sound : Sound evidence aurora)
    (implies : ∀ height round kind voter block,
      evidence height round kind voter block → weaker height round kind voter block) :
    Sound weaker aurora := by
  constructor
  · intro height round votes found
    exact (sound.rounds height round votes found).mono (implies height round)
  · intro height block found
    obtain ⟨round, ⟨certificate⟩⟩ := sound.committed height block found
    exact ⟨round, ⟨certificate.mono fun voter => implies height round .precommit voter block⟩⟩

theorem Sound.votesAt (sound : Sound evidence aurora) (height : Nat) (round : UInt32) :
    (aurora.votesAt height round).Sound aurora.validators (evidence height round) := by
  unfold Aurora.votesAt
  cases found : aurora.rounds.lookup (height, round) with
  | none => exact VoteSet.sound_new
  | some votes => exact sound.rounds height round votes found

theorem Sound.roundsWith (sound : Sound evidence aurora)
    (backed : evidence vote.height vote.round vote.kind vote.voter vote.blockHash)
    (height : Nat) (round : UInt32) (votes : VoteSet)
    (found : (aurora.roundsWith vote).lookup (height, round) = some votes) :
    votes.Sound aurora.validators (evidence height round) := by
  unfold Aurora.roundsWith at found
  by_cases same : (height, round) = (vote.height, vote.round)
  · cases same
    rw [AList.lookup_insert] at found
    cases found
    exact (sound.votesAt vote.height vote.round).add backed
  · rw [AList.lookup_insert_ne same] at found
    exact sound.rounds height round votes found

/-- A quorum of precommits just counted is a certificate for the vote's round. -/
theorem Sound.decided (sound : Sound evidence aurora)
    (backed : evidence vote.height vote.round vote.kind vote.voter vote.blockHash)
    (quorum : aurora.validators.quorumThreshold ≤
      (((aurora.votesAt vote.height vote.round).add vote aurora.validators).2).precommitPower
        vote.blockHash aurora.validators) :
    Nonempty (Certificate aurora.validators
      (fun voter => evidence vote.height vote.round .precommit voter vote.blockHash)) :=
  ((sound.votesAt vote.height vote.round).add backed).certificate .precommit vote.blockHash quorum

theorem Sound.tallyVote (sound : Sound evidence aurora)
    (backed : evidence vote.height vote.round vote.kind vote.voter vote.blockHash) :
    Sound evidence (aurora.tallyVote vote).2 := by
  have tallied := tallyVote_tallied aurora vote
  generalize aurora.tallyVote vote = after at tallied
  cases tallied with
  | skipped closed => exact sound
  | filed result quiet =>
      exact ⟨sound.roundsWith backed, sound.committed⟩
  | decided committers power pending isPrecommit quorum =>
      refine ⟨sound.roundsWith backed, fun height block found => ?_⟩
      by_cases same : height = vote.height
      · subst same
        change (aurora.committed.insert vote.height vote.blockHash).lookup vote.height = _ at found
        rw [AList.lookup_insert] at found
        cases found
        exact ⟨vote.round, sound.decided backed quorum⟩
      · change (aurora.committed.insert vote.height vote.blockHash).lookup height = _ at found
        rw [AList.lookup_insert_ne same] at found
        exact sound.committed height block found

theorem Sound.addVote [Ed25519] (sound : Sound evidence aurora)
    (backed : ∀ validator, aurora.validators.get vote.voter = some validator →
      verifyBytes validator.publicKey vote.signingBytes vote.signature = .ok () →
      evidence vote.height vote.round vote.kind vote.voter vote.blockHash) :
    Sound evidence (aurora.addVote vote).2 := by
  rcases addVote_cases aurora vote with ⟨error, rejected⟩ | ⟨validator, found, verified, added⟩
  · rw [rejected]
    exact sound
  · rw [added]
    exact sound.tallyVote (backed validator found verified)

theorem Sound.addLocalVote (sound : Sound evidence aurora)
    (backed : aurora.me = some vote.voter →
      evidence vote.height vote.round vote.kind vote.voter vote.blockHash) :
    Sound evidence (aurora.addLocalVote vote).2 := by
  rcases addLocalVote_cases aurora vote with ⟨error, rejected⟩ | ⟨isLocal, added⟩
  · rw [rejected]
    exact sound
  · rw [added]
    exact sound.tallyVote (backed isLocal)

theorem Sound.prevoteQuorum (sound : Sound evidence aurora) {height : Nat} {round : UInt32}
    {block : Hash} (reached : aurora.hasPrevoteQuorum height round block = true) :
    Nonempty (Certificate aurora.validators
      (fun voter => evidence height round .prevote voter block)) := by
  unfold hasPrevoteQuorum at reached
  cases found : aurora.rounds.lookup (height, round) with
  | none =>
      rw [found] at reached
      cases reached
  | some votes =>
      rw [found] at reached
      exact (sound.rounds height round votes found).certificate .prevote block
        (of_decide_eq_true reached)

/-! ### What the intake leaves alone -/

@[simp] theorem tallyVote_validators (aurora : Aurora) (vote : Vote) :
    (aurora.tallyVote vote).2.validators = aurora.validators := by
  have tallied := tallyVote_tallied aurora vote
  generalize aurora.tallyVote vote = after at tallied
  cases tallied <;> rfl

@[simp] theorem tallyVote_me (aurora : Aurora) (vote : Vote) :
    (aurora.tallyVote vote).2.me = aurora.me := by
  have tallied := tallyVote_tallied aurora vote
  generalize aurora.tallyVote vote = after at tallied
  cases tallied <;> rfl

/-- A committed height keeps its block. -/
theorem tallyVote_committed {height : Nat} {block : Hash}
    (found : aurora.committed.lookup height = some block) :
    (aurora.tallyVote vote).2.committed.lookup height = some block := by
  have tallied := tallyVote_tallied aurora vote
  generalize aurora.tallyVote vote = after at tallied
  cases tallied with
  | skipped closed => exact found
  | filed result quiet => exact found
  | decided committers power pending isPrecommit quorum =>
      have different : height ≠ vote.height := by
        intro same
        rw [same, pending] at found
        cases found
      change (aurora.committed.insert vote.height vote.blockHash).lookup height = some block
      rw [AList.lookup_insert_ne different]
      exact found

end Soundness

/-! ### Runs of calls -/

inductive Call where
  | network (vote : Vote)
  | own (vote : Vote)

def Call.vote : Call → Vote
  | .network vote => vote
  | .own vote => vote

section Calls

variable [Ed25519]

def handle (aurora : Aurora) : Call → Except ConsensusError CommitOutcome × Aurora
  | .network vote => aurora.addVote vote
  | .own vote => aurora.addLocalVote vote

def after (aurora : Aurora) (call : Call) : Aurora := (aurora.handle call).2

/-- A ballot cast in a list of calls: signed under the registered key of its
voter, or the local voter's own. -/
def Cast (vset : ValidatorSet) (me : Option PartyId) (calls : List Call) : Evidence :=
  fun height round kind voter block =>
    ∃ vote : Vote, vote.height = height ∧ vote.round = round ∧ vote.kind = kind ∧
      vote.voter = voter ∧ vote.blockHash = block ∧
      ((Call.network vote ∈ calls ∧ ∃ validator, vset.get voter = some validator ∧
          verifyBytes validator.publicKey vote.signingBytes vote.signature = .ok ()) ∨
        (Call.own vote ∈ calls ∧ me = some voter))

/-- Some call of the list committed the height, by a vote of the given round. -/
def CommitsAt (vset : ValidatorSet) (me : Option PartyId) (calls : List Call) (height : Nat)
    (round : UInt32) (block : Hash) : Prop :=
  ∃ front call back committers power, calls = front ++ call :: back ∧
    call.vote.round = round ∧
    ((Run.run after (new vset me) front).handle call).1 =
      .ok (.committed height block committers power)

variable {vset : ValidatorSet} {me : Option PartyId}

theorem Cast.mono {calls larger : List Call} (subset : calls ⊆ larger) {height : Nat}
    {round : UInt32} {kind : VoteKind} {voter : PartyId} {block : Hash}
    (cast : Cast vset me calls height round kind voter block) :
    Cast vset me larger height round kind voter block := by
  obtain ⟨vote, sameHeight, sameRound, sameKind, sameVoter, sameBlock, source⟩ := cast
  refine ⟨vote, sameHeight, sameRound, sameKind, sameVoter, sameBlock, ?_⟩
  rcases source with ⟨member, signed⟩ | ⟨member, isLocal⟩
  · exact .inl ⟨subset member, signed⟩
  · exact .inr ⟨subset member, isLocal⟩

/-- The three results of a call: nothing, a tallied vote of the network, a tallied
vote of the local validator. -/
theorem handle_cases (aurora : Aurora) (call : Call) :
    (∃ error, aurora.handle call = (.error error, aurora)) ∨
    (aurora.handle call = aurora.tallyVote call.vote ∧ ∀ calls, call ∈ calls →
      Cast aurora.validators aurora.me calls call.vote.height call.vote.round call.vote.kind
        call.vote.voter call.vote.blockHash) := by
  cases call with
  | network vote =>
      rcases addVote_cases aurora vote with rejected | ⟨validator, found, verified, added⟩
      · exact .inl rejected
      · refine .inr ⟨added, fun calls member => ?_⟩
        exact ⟨vote, rfl, rfl, rfl, rfl, rfl, .inl ⟨member, validator, found, verified⟩⟩
  | own vote =>
      rcases addLocalVote_cases aurora vote with rejected | ⟨isLocal, added⟩
      · exact .inl rejected
      · refine .inr ⟨added, fun calls member => ?_⟩
        exact ⟨vote, rfl, rfl, rfl, rfl, rfl, .inr ⟨member, isLocal⟩⟩

@[simp] theorem after_validators (aurora : Aurora) (call : Call) :
    (aurora.after call).validators = aurora.validators := by
  unfold after
  rcases handle_cases aurora call with ⟨error, rejected⟩ | ⟨tallied, _⟩
  · rw [rejected]
  · rw [tallied, tallyVote_validators]

@[simp] theorem after_me (aurora : Aurora) (call : Call) :
    (aurora.after call).me = aurora.me := by
  unfold after
  rcases handle_cases aurora call with ⟨error, rejected⟩ | ⟨tallied, _⟩
  · rw [rejected]
  · rw [tallied, tallyVote_me]

theorem after_committed {aurora : Aurora} {height : Nat} {block : Hash} (call : Call)
    (found : aurora.committed.lookup height = some block) :
    (aurora.after call).committed.lookup height = some block := by
  unfold after
  rcases handle_cases aurora call with ⟨error, rejected⟩ | ⟨tallied, _⟩
  · rw [rejected]
    exact found
  · rw [tallied]
    exact tallyVote_committed found

theorem run_committed {aurora : Aurora} {height : Nat} {block : Hash} (calls : List Call)
    (found : aurora.committed.lookup height = some block) :
    (Run.run after aurora calls).committed.lookup height = some block := by
  induction calls generalizing aurora with
  | nil => exact found
  | cons call calls ih => exact ih (after_committed call found)

/-- What holds after any list of calls: the engine is the one that was set up,
and everything it counted was cast in the list. -/
structure Ran (vset : ValidatorSet) (me : Option PartyId) (calls : List Call)
    (aurora : Aurora) : Prop where
  validators : aurora.validators = vset
  voter : aurora.me = me
  sound : Sound (Cast vset me calls) aurora

theorem Ran.after {calls : List Call} {aurora : Aurora} (ran : Ran vset me calls aurora)
    (call : Call) : Ran vset me (calls ++ [call]) (aurora.after call) := by
  have grown : Sound (Cast vset me (calls ++ [call])) aurora :=
    ran.sound.mono fun _ _ _ _ _ cast => cast.mono (List.subset_append_left _ _)
  refine ⟨?_, ?_, ?_⟩
  · rw [after_validators, ran.validators]
  · rw [after_me, ran.voter]
  · unfold Aurora.after
    rcases handle_cases aurora call with ⟨error, rejected⟩ | ⟨tallied, cast⟩
    · rw [rejected]
      exact grown
    · rw [tallied]
      rw [ran.validators, ran.voter] at cast
      exact grown.tallyVote (cast _ (List.mem_append_right _ (List.mem_singleton_self call)))

theorem ran_run (vset : ValidatorSet) (me : Option PartyId) (calls : List Call) :
    Ran vset me calls (Run.run after (new vset me) calls) := by
  induction calls using List.reverseRecOn with
  | nil => exact ⟨rfl, rfl, sound_new vset me⟩
  | append_singleton calls call ih =>
      rw [Run.run_snoc]
      exact ih.after call

/-- A call that reports a commit leaves a precommit certificate of its round. -/
theorem CommitsAt.certificate {calls : List Call} {height : Nat} {round : UInt32} {block : Hash}
    (commits : CommitsAt vset me calls height round block) :
    Nonempty (Certificate vset (fun voter =>
      Cast vset me calls height round .precommit voter block)) := by
  obtain ⟨front, call, back, committers, power, split, sameRound, reported⟩ := commits
  have ran := ran_run vset me front
  generalize Run.run after (new vset me) front = aurora at ran reported
  rcases handle_cases aurora call with ⟨error, rejected⟩ | ⟨sameResult, cast⟩
  · rw [rejected] at reported
    cases reported
  · rw [sameResult] at reported
    rw [ran.validators, ran.voter] at cast
    have grown : Sound (Cast vset me calls) aurora := by
      apply ran.sound.mono
      intro _ _ _ _ _ earlier
      apply earlier.mono
      rw [split]
      exact (List.subset_append_left _ _)
    have member : call ∈ calls := by
      rw [split]
      exact List.mem_append_right _ List.mem_cons_self
    have tallied := tallyVote_tallied aurora call.vote
    generalize aurora.tallyVote call.vote = result at tallied reported
    cases tallied with
    | skipped closed => cases reported
    | filed result quiet => exact absurd reported (quiet _ _ _ _)
    | decided committers power pending isPrecommit quorum =>
        cases reported
        subst sameRound
        have certificate := grown.decided (cast calls member) quorum
        rw [ran.validators] at certificate
        exact certificate

/-- A committed height was committed by one of the calls. -/
theorem commitsAt_of_committed {calls : List Call} {height : Nat} {block : Hash}
    (found : (Run.run after (new vset me) calls).committed.lookup height = some block) :
    ∃ round, CommitsAt vset me calls height round block := by
  induction calls using List.reverseRecOn with
  | nil => cases found
  | append_singleton calls call ih =>
      rw [Run.run_snoc] at found
      by_cases earlier : (Run.run after (new vset me) calls).committed.lookup height = some block
      · obtain ⟨round, front, other, back, committers, power, split, rest⟩ := ih earlier
        refine ⟨round, front, other, back ++ [call], committers, power, ?_, rest⟩
        rw [split, List.append_assoc, List.cons_append]
      · refine ⟨call.vote.round, calls, call, [], ?_⟩
        change ((Run.run after (new vset me) calls).handle call).2.committed.lookup height =
          some block at found
        generalize Run.run after (new vset me) calls = aurora at earlier found
        rcases handle_cases aurora call with ⟨error, rejected⟩ | ⟨sameResult, _⟩
        · rw [rejected] at found
          exact absurd found earlier
        · rw [sameResult] at found ⊢
          have tallied := tallyVote_tallied aurora call.vote
          generalize aurora.tallyVote call.vote = result at tallied found
          cases tallied with
          | skipped closed => exact absurd found earlier
          | filed result quiet => exact absurd found earlier
          | decided committers power pending isPrecommit quorum =>
              change (aurora.committed.insert call.vote.height call.vote.blockHash).lookup height =
                some block at found
              by_cases same : height = call.vote.height
              · subst same
                rw [AList.lookup_insert] at found
                cases found
                exact ⟨committers, power, rfl, rfl, rfl⟩
              · rw [AList.lookup_insert_ne same] at found
                exact absurd found earlier

/-- Every committed height carries a certificate of one round, cast in the calls;
it is never revised; and two engines that commit at the same height and round,
to different blocks or not, share more than a third of the stake. -/
theorem committed_certified (vset : ValidatorSet)
    (bound : Quorum.power vset.weight vset.electorate < 2 ^ 63) :
    (∀ me calls height block,
      (Run.run after (new vset me) calls).committed.lookup height = some block →
      ∃ round, CommitsAt vset me calls height round block ∧
        Nonempty (Certificate vset (fun voter =>
          Cast vset me calls height round .precommit voter block))) ∧
    (∀ me calls later height block,
      (Run.run after (new vset me) calls).committed.lookup height = some block →
      (Run.run after (new vset me) (calls ++ later)).committed.lookup height = some block) ∧
    (∀ me other calls otherCalls height round left right,
      CommitsAt vset me calls height round left →
      CommitsAt vset other otherCalls height round right →
      ∃ both : Finset PartyId, both ⊆ vset.electorate ∧
        Quorum.power vset.weight vset.electorate < 3 * Quorum.power vset.weight both ∧
        ∀ voter ∈ both, Cast vset me calls height round .precommit voter left ∧
          Cast vset other otherCalls height round .precommit voter right) := by
  refine ⟨?_, ?_, ?_⟩
  · intro me calls height block found
    obtain ⟨round, commits⟩ := commitsAt_of_committed found
    exact ⟨round, commits, commits.certificate⟩
  · intro me calls later height block found
    rw [Run.run_append]
    exact run_committed later found
  · intro me other calls otherCalls height round left right leftCommits rightCommits
    obtain ⟨leftCertificate⟩ := leftCommits.certificate
    obtain ⟨rightCertificate⟩ := rightCommits.certificate
    have leftQuorum := leftCertificate.quorum
    have rightQuorum := rightCertificate.quorum
    rw [vset.quorumThreshold_toNat bound] at leftQuorum rightQuorum
    refine ⟨leftCertificate.members ∩ rightCertificate.members, ?_, ?_, ?_⟩
    · exact Finset.inter_subset_left.trans leftCertificate.active
    · exact Quorum.third_lt_intersection vset.weight leftCertificate.active
        rightCertificate.active leftQuorum rightQuorum
    · intro voter member
      obtain ⟨inLeft, inRight⟩ := Finset.mem_inter.mp member
      exact ⟨leftCertificate.signed voter inLeft, rightCertificate.signed voter inRight⟩

end Calls

/-! ### Four validators of equal stake -/

section Four

attribute [local instance] Ed25519.keyed

def fourSet : ValidatorSet :=
  [PartyIdentity.repeated "v1" 1, .repeated "v2" 2, .repeated "v3" 3, .repeated "v4" 4].foldl
    (fun vset member => vset.add (.new member.party member.publicKey 100)) ValidatorSet.new

def precommitOf (member : PartyIdentity) : Vote :=
  { height := 1
    round := 0
    blockHash := Hash.zero
    voter := member.party
    kind := .precommit
    signature := [] }

/-- The first validator's own precommit, then those of the next two. -/
def threePrecommits : List Call :=
  Call.own (precommitOf (.repeated "v1" 1)) ::
    [PartyIdentity.repeated "v2" 2, .repeated "v3" 3].map fun member =>
      .network { precommitOf member with
        signature := member.signBytes (precommitOf member).signingBytes }

theorem committed_certified_four :
    Quorum.power fourSet.weight fourSet.electorate < 2 ^ 63 ∧
    ∃ round, CommitsAt fourSet (some ⟨"v1"⟩) threePrecommits 1 round Hash.zero ∧
      Nonempty (Certificate fourSet (fun voter =>
        Cast fourSet (some ⟨"v1"⟩) threePrecommits 1 round .precommit voter Hash.zero)) := by
  have bound : Quorum.power fourSet.weight fourSet.electorate < 2 ^ 63 := by
    decide
  have found : (Run.run after (new fourSet (some ⟨"v1"⟩)) threePrecommits).committed.lookup 1 =
      some Hash.zero := by
    decide +kernel
  exact ⟨bound, (committed_certified fourSet bound).1 _ _ _ _ found⟩

end Four

end Aurora

end Veilux
