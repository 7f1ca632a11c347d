/-
Accountability of a validator for equivocation: what the reports of the watch prove, and
when two conflicting votes are sure to lead to one.
-/

import Veilux.Node.Watch

namespace Veilux

/-! ### Votes and evidence -/

/-- Both votes fill one slot of one voter, with different blocks. -/
structure Vote.Conflict (first second : Vote) : Prop where
  height : first.height = second.height
  round : first.round = second.round
  kind : first.kind = second.kind
  voter : first.voter = second.voter
  blocks : first.blockHash ≠ second.blockHash

/-- The signature is not part of what is signed. -/
theorem Vote.signingBytes_signed (vote : Vote) (signature : List UInt8) :
    ({ vote with signature := signature } : Vote).signingBytes = vote.signingBytes := rfl

theorem Vote.kindByte_injective {left right : VoteKind}
    (same : Vote.kindByte left = Vote.kindByte right) : left = right := by
  cases left <;> cases right <;> first | rfl | cases same

theorem EquivocationWatch.slot_injective {first second : Vote}
    (same : slot first = slot second) :
    first.height = second.height ∧ first.round = second.round ∧ first.kind = second.kind ∧
      first.voter = second.voter := by
  simp only [slot, Prod.mk.injEq] at same
  obtain ⟨height, round, kind, voter⟩ := same
  exact ⟨height, round, Vote.kindByte_injective kind, congrArg PartyId.mk voter⟩

section Accountability

variable [Ed25519]

/-- The vote carries a valid signature of the validator it names. -/
def ValidatorSet.Signs (vset : ValidatorSet) (vote : Vote) : Prop :=
  ∃ validator, vset.get vote.voter = some validator ∧
    verifyBytes validator.publicKey vote.signingBytes vote.signature = .ok ()

/-- A validator's vote that its own key has signed. -/
theorem ValidatorSet.signs_signed {vset : ValidatorSet} {vote : Vote} {validator : Validator}
    {identity : PartyIdentity} (known : vset.get vote.voter = some validator)
    (keyed : validator.publicKey = identity.publicKey) :
    vset.Signs { vote with signature := identity.signBytes vote.signingBytes } := by
  refine ⟨validator, known, ?_⟩
  rw [keyed, Vote.signingBytes_signed]
  exact verifyBytes_signBytes _ _

/-- Two conflicting votes of the offender, each with its valid signature. -/
def EquivocationProof.Proves (proof : EquivocationProof) (vset : ValidatorSet) : Prop :=
  ∃ first second validator, vset.Signs first ∧ vset.Signs second ∧ first.Conflict second ∧
    second.voter = proof.offender ∧ vset.get proof.offender = some validator ∧
    proof = EquivocationWatch.evidence (EquivocationWatch.record first) second
      validator.publicKey

theorem ValidatorSet.Signs.sized {vset : ValidatorSet} {vote : Vote} (signs : vset.Signs vote) :
    vote.signature.length = 64 := by
  obtain ⟨validator, _, verified⟩ := signs
  by_contra short
  have none : exactly 64 vote.signature = none := dif_neg short
  unfold verifyBytes at verified
  simp only [none] at verified
  split at verified
  · cases verified
  · split at verified <;> cases verified

theorem ValidatorSet.Signs.signed {vset : ValidatorSet} {vote : Vote} (signs : vset.Signs vote) :
    ¬ vote.signature.isEmpty = true := by
  intro empty
  have sized := signs.sized
  rw [List.isEmpty_iff.mp empty] at sized
  cases sized

namespace Session

variable {vset : ValidatorSet} {identity : PartyIdentity}

/-- Every remembered vote is validly signed. -/
def Remembers (vset : ValidatorSet) (watch : EquivocationWatch) : Prop :=
  ∀ key seen, watch.seen.lookup key = some seen → ∃ vote, vset.Signs vote ∧
    key = EquivocationWatch.slot vote ∧ seen = EquivocationWatch.record vote

/-- A vote that the watch takes note of is validly signed. -/
def Clean (session : Session) (stimulus : Stimulus) : Prop :=
  ∀ vote, stimulus.input = .net (.vote vote) →
    ∀ validator, session.engine.aurora.validators.get vote.voter = some validator →
      verifyBytes validator.publicKey vote.signingBytes vote.signature = .ok () ∨
        session.engine.slashWatch.Ignores vote

omit [Ed25519] in
/-- What the watch makes of a stimulus: nothing, or what it makes of a validator's vote. -/
theorem watched_cases (session : Session) (stimulus : Stimulus) :
    (session.reported stimulus = none ∧ session.watched stimulus = session) ∨
    ∃ vote validator, stimulus.input = .net (.vote vote) ∧
      session.engine.aurora.validators.get vote.voter = some validator ∧
      session.reported stimulus =
        (session.engine.slashWatch.observe vote validator.publicKey).1 ∧
      session.watched stimulus =
        { session with
          engine := { session.engine with
            slashWatch := (session.engine.slashWatch.observe vote validator.publicKey).2 } } := by
  unfold reported watched
  split
  · next vote delivered =>
      cases known : session.engine.aurora.validators.get vote.voter with
      | none => exact .inl ⟨rfl, rfl⟩
      | some validator => exact .inr ⟨vote, validator, delivered, known, rfl, rfl⟩
  · exact .inl ⟨rfl, rfl⟩

theorem remembers_watched {session : Session} {stimulus : Stimulus}
    (validators : session.engine.aurora.validators = vset)
    (remembers : Remembers vset session.engine.slashWatch)
    (clean : session.Clean stimulus) :
    Remembers vset (session.watched stimulus).engine.slashWatch ∧
      ∀ proof, session.reported stimulus = some proof → proof.Proves vset := by
  rcases watched_cases session stimulus with ⟨silent, same⟩ |
    ⟨vote, validator, delivered, known, reports, watches⟩
  · rw [same, silent]
    exact ⟨remembers, fun proof impossible => by cases impossible⟩
  · have verified := clean vote delivered validator known
    rw [reports, watches]
    rw [validators] at known
    dsimp only
    rcases session.engine.slashWatch.observe_cases vote validator.publicKey with
      ⟨_, observed⟩ | ⟨previous, found, apart, _, noted, observed⟩ | ⟨_, noted, observed⟩
    · rw [observed]
      exact ⟨remembers, fun proof impossible => by cases impossible⟩
    · rw [observed]
      refine ⟨remembers, ?_⟩
      intro proof made
      obtain rfl := Option.some.inj made
      obtain ⟨first, signs, slots, rfl⟩ := remembers _ _ found
      obtain ⟨height, round, kind, voter⟩ := EquivocationWatch.slot_injective slots
      have second : vset.Signs vote := ⟨validator, known, verified.resolve_right noted⟩
      exact ⟨first, vote, validator, signs, second,
        ⟨height.symm, round.symm, kind.symm, voter.symm, apart⟩, rfl, known, rfl⟩
    · rw [observed]
      refine ⟨?_, fun proof impossible => by cases impossible⟩
      intro key seen found
      by_cases same : key = EquivocationWatch.slot vote
      · subst same
        dsimp only at found
        rw [AList.lookup_insert] at found
        obtain rfl := Option.some.inj found
        exact ⟨vote, ⟨validator, known, verified.resolve_right noted⟩, rfl, rfl⟩
      · dsimp only at found
        rw [AList.lookup_insert_ne same] at found
        exact remembers key seen found

omit [Ed25519] in
/-- Remembered votes stay remembered while the watch takes in another one. -/
theorem watched_retains (session : Session) (stimulus : Stimulus)
    {key : Nat × UInt32 × UInt8 × String} {seen : SeenVote}
    (found : session.engine.slashWatch.seen.lookup key = some seen) :
    (session.watched stimulus).engine.slashWatch.seen.lookup key = some seen := by
  rcases watched_cases session stimulus with ⟨_, same⟩ | ⟨vote, validator, _, _, _, watches⟩
  · rw [same]
    exact found
  · rw [watches]
    dsimp only
    rcases session.engine.slashWatch.observe_cases vote validator.publicKey with
      ⟨_, observed⟩ | ⟨previous, _, _, _, _, observed⟩ | ⟨unseen, _, observed⟩
    · rw [observed]
      exact found
    · rw [observed]
      exact found
    · rw [observed]
      dsimp only
      rw [AList.lookup_insert_ne]
      · exact found
      · rintro rfl
        rw [unseen] at found
        cases found

omit [Ed25519] in
/-- Whom the watch holds for reported afterwards: those it held for reported before, and the
offender of its report. -/
theorem watched_slashed (session : Session) (stimulus : Stimulus) (voter : PartyId)
    (listed : voter.name ∈ (session.watched stimulus).engine.slashWatch.slashed) :
    voter.name ∈ session.engine.slashWatch.slashed ∨
      ∃ proof, session.reported stimulus = some proof ∧ proof.offender = voter := by
  rcases watched_cases session stimulus with ⟨_, same⟩ | ⟨vote, validator, _, _, reports, watches⟩
  · rw [same] at listed
    exact .inl listed
  · rw [watches] at listed
    rw [reports]
    dsimp only at listed
    rcases session.engine.slashWatch.observe_cases vote validator.publicKey with
      ⟨_, observed⟩ | ⟨previous, _, _, _, _, observed⟩ | ⟨unseen, _, observed⟩
    · rw [observed] at listed
      exact .inl listed
    · rw [observed] at listed ⊢
      rcases List.mem_insert_iff.mp listed with same | earlier
      · exact .inr ⟨_, rfl, (congrArg PartyId.mk same).symm⟩
      · exact .inl earlier
    · rw [observed] at listed
      exact .inl listed

omit [Ed25519] in
/-- A validator's vote is handed to the watch. -/
theorem watched_vote {session : Session} {stimulus : Stimulus} {vote : Vote}
    {validator : Validator} (delivered : stimulus.input = .net (.vote vote))
    (known : session.engine.aurora.validators.get vote.voter = some validator) :
    session.reported stimulus =
        (session.engine.slashWatch.observe vote validator.publicKey).1 ∧
      (session.watched stimulus).engine.slashWatch =
        (session.engine.slashWatch.observe vote validator.publicKey).2 := by
  constructor
  · simp only [reported, delivered, known]
  · simp only [watched, delivered, known]

/-- A signed vote of a validator is remembered by its block, unless its voter has been or is
now reported. -/
theorem watched_signed {session : Session} {stimulus : Stimulus} {vote : Vote}
    (validators : session.engine.aurora.validators = vset) (signs : vset.Signs vote)
    (delivered : stimulus.input = .net (.vote vote)) :
    vote.voter.name ∈ session.engine.slashWatch.slashed ∨
    (∃ proof, session.reported stimulus = some proof ∧ proof.offender = vote.voter) ∨
    ∃ previous, (session.watched stimulus).engine.slashWatch.seen.lookup
      (EquivocationWatch.slot vote) = some previous ∧ previous.blockHash = vote.blockHash := by
  have signed := signs.signed
  obtain ⟨validator, known, _⟩ := signs
  rw [← validators] at known
  obtain ⟨reports, watches⟩ := watched_vote delivered known
  rw [reports, watches]
  rcases session.engine.slashWatch.observe_cases vote validator.publicKey with
    ⟨ignored, observed⟩ | ⟨previous, _, _, _, _, observed⟩ | ⟨_, _, observed⟩
  · rcases ignored with empty | ⟨previous, found, same | listed⟩
    · exact absurd empty signed
    · rw [observed]
      exact .inr (.inr ⟨previous, found, same⟩)
    · exact .inl listed
  · rw [observed]
    exact .inr (.inl ⟨_, rfl, rfl⟩)
  · rw [observed]
    exact .inr (.inr ⟨_, AList.lookup_insert _, rfl⟩)

/-! ### Runs -/

/-- The watch has reported the voter on some step of the run. -/
def Emitted [Blake3] [SerdeJson] [ChaCha20Poly1305] [X25519] (start : Session)
    (stimuli : List Stimulus) (voter : PartyId) : Prop :=
  ∃ front stimulus back proof, stimuli = front ++ stimulus :: back ∧
    (Run.run handle start front).reported stimulus = some proof ∧ proof.offender = voter

section Runs

variable [Blake3] [SerdeJson] [ChaCha20Poly1305] [X25519]

theorem Emitted.append {start : Session} {stimuli : List Stimulus} {voter : PartyId}
    (emitted : Emitted start stimuli voter) (more : List Stimulus) :
    Emitted start (stimuli ++ more) voter := by
  obtain ⟨front, stimulus, back, proof, rfl, reports, offends⟩ := emitted
  refine ⟨front, stimulus, back ++ more, proof, ?_, reports, offends⟩
  rw [List.append_assoc, List.cons_append]

/-- After a run: whoever the watch holds for reported has been, and a signed vote that has been
received and is not too old is remembered by its block, or its voter has been reported. -/
structure Accounted (vset : ValidatorSet) (identity : PartyIdentity) (start : Session)
    (stimuli : List Stimulus) : Prop where
  shaped : Shaped vset identity (Run.run handle start stimuli)
  slashed : ∀ voter : PartyId,
    voter.name ∈ (Run.run handle start stimuli).engine.slashWatch.slashed →
      Emitted start stimuli voter
  received : ∀ vote, vset.Signs vote →
    (∃ stimulus ∈ stimuli, stimulus.input = .net (.vote vote)) →
    (Run.run handle start stimuli).engine.height - 8 ≤ vote.height →
      Emitted start stimuli vote.voter ∨
      ∃ previous, (Run.run handle start stimuli).engine.slashWatch.seen.lookup
        (EquivocationWatch.slot vote) = some previous ∧ previous.blockHash = vote.blockHash

/-- The watch after a step, from the watch once it has seen the vote. -/
theorem handle_trimmed {session : Session} (shaped : Shaped vset identity session)
    (stimulus : Stimulus) :
    session.engine.height ≤ (session.handle stimulus).engine.height ∧
      EquivocationWatch.Trimmed (session.watched stimulus).engine.slashWatch
        (session.handle stimulus).engine.slashWatch
        ((session.handle stimulus).engine.height - 8) := by
  have heights : (session.watched stimulus).engine.height = session.engine.height ∧
      (session.watched stimulus).engine.node = session.engine.node := by
    rcases watched_cases session stimulus with ⟨_, same⟩ | ⟨vote, validator, _, _, _, watches⟩
    · rw [same]
      exact ⟨rfl, rfl⟩
    · rw [watches]
      exact ⟨rfl, rfl⟩
  have settled := handle_settles session stimulus
  unfold Settles at settled
  rw [heights.1, heights.2] at settled
  exact (settled shaped.ahead).2

theorem Accounted.snoc {start : Session} {stimuli : List Stimulus}
    (accounted : Accounted vset identity start stimuli) (stimulus : Stimulus) :
    Accounted vset identity start (stimuli ++ [stimulus]) := by
  have now : ∀ {proof : EquivocationProof} {voter : PartyId},
      (Run.run handle start stimuli).reported stimulus = some proof → proof.offender = voter →
        Emitted start (stimuli ++ [stimulus]) voter := by
    intro proof voter reports offends
    exact ⟨stimuli, stimulus, [], proof, rfl, reports, offends⟩
  obtain ⟨rising, trimmed⟩ := handle_trimmed accounted.shaped stimulus
  constructor
  · rw [Run.run_snoc]
    exact accounted.shaped.handle stimulus
  · rw [Run.run_snoc, trimmed.slashed]
    intro voter listed
    rcases watched_slashed _ stimulus voter listed with earlier | ⟨proof, reports, offends⟩
    · exact (accounted.slashed voter earlier).append [stimulus]
    · exact now reports offends
  · rw [Run.run_snoc]
    intro vote signs received recent
    obtain ⟨other, inside, delivered⟩ := received
    rcases List.mem_append.mp inside with before | last
    · rcases accounted.received vote signs ⟨other, before, delivered⟩ (by omega) with
        emitted | ⟨previous, found, same⟩
      · exact .inl (emitted.append [stimulus])
      · exact .inr ⟨previous,
          trimmed.retained _ _ recent (watched_retains _ stimulus found), same⟩
    · rw [List.mem_singleton.mp last] at delivered
      rcases watched_signed accounted.shaped.frame.validators signs delivered with
        listed | ⟨proof, reports, offends⟩ | ⟨previous, found, same⟩
      · exact .inl ((accounted.slashed vote.voter listed).append [stimulus])
      · exact .inl (now reports offends)
      · exact .inr ⟨previous, trimmed.retained _ _ recent found, same⟩

theorem accounted_run (vset : ValidatorSet) (identity : PartyIdentity) (node : Node)
    (stimuli : List Stimulus) :
    Accounted vset identity (Session.start identity vset node) stimuli := by
  induction stimuli using List.reverseRecOn with
  | nil =>
      refine ⟨Shaped.start identity vset node, ?_, ?_⟩
      · intro voter listed
        cases listed
      · rintro vote _ ⟨stimulus, inside, _⟩
        cases inside
  | append_singleton stimuli stimulus ih => exact ih.snoc stimulus

theorem remembers_run {node : Node} {stimuli : List Stimulus}
    (along : Run.Along handle Clean (Session.start identity vset node) stimuli) :
    Shaped vset identity (Run.run handle (Session.start identity vset node) stimuli) ∧
      Remembers vset
        (Run.run handle (Session.start identity vset node) stimuli).engine.slashWatch := by
  refine @Run.invariant _ _ handle Clean (fun session => Shaped vset identity session ∧
    Remembers vset session.engine.slashWatch) ?_ _ _ ?_ along
  · rintro session stimulus ⟨shaped, remembers⟩ clean
    refine ⟨shaped.handle stimulus, ?_⟩
    intro key seen found
    have noted := (remembers_watched shaped.frame.validators remembers clean).1
    exact noted key seen ((handle_trimmed shaped stimulus).2.earlier key seen found)
  · refine ⟨Shaped.start identity vset node, ?_⟩
    intro key seen found
    cases found

/-- As long as every vote the watch takes note of is validly signed, each of its reports proves
two conflicting signed votes of the offender. Two conflicting signed votes of a validator that
are both received before the first is too old have led to a report. -/
theorem equivocation_accounted (vset : ValidatorSet) (identity : PartyIdentity) (node : Node)
    (stimuli : List Stimulus) :
    (Run.Along handle Clean (Session.start identity vset node) stimuli →
      ∀ front stimulus back proof, stimuli = front ++ stimulus :: back →
        (Run.run handle (Session.start identity vset node) front).reported stimulus =
          some proof → proof.Proves vset) ∧
    ∀ front stimulus back first second, stimuli = front ++ stimulus :: back →
      vset.Signs first → vset.Signs second → first.Conflict second →
      (∃ earlier ∈ front, earlier.input = .net (.vote first)) →
      stimulus.input = .net (.vote second) →
      (Run.run handle (Session.start identity vset node) front).engine.height - 8 ≤
        first.height →
        Emitted (Session.start identity vset node) (front ++ [stimulus]) first.voter := by
  constructor
  · rintro along front stimulus back proof rfl reports
    obtain ⟨before, clean, _⟩ := (Run.along_append handle).mp along
    obtain ⟨shaped, remembers⟩ := remembers_run before
    exact (remembers_watched shaped.frame.validators remembers clean).2 proof reports
  · rintro front stimulus back first second rfl signsFirst signsSecond conflict received
      delivered recent
    have accounted := accounted_run vset identity node front
    rcases accounted.received first signsFirst received recent with
      emitted | ⟨previous, found, same⟩
    · exact emitted.append [stimulus]
    · rcases watched_signed accounted.shaped.frame.validators signsSecond delivered with
        listed | ⟨proof, reports, offends⟩ | ⟨other, otherFound, otherSame⟩
      · rw [conflict.voter]
        exact (accounted.slashed second.voter listed).append [stimulus]
      · rw [conflict.voter]
        exact ⟨front, stimulus, [], proof, rfl, reports, offends⟩
      · have slots : EquivocationWatch.slot second = EquivocationWatch.slot first := by
          simp only [EquivocationWatch.slot, conflict.height, conflict.round, conflict.kind,
            conflict.voter]
        rw [slots, watched_retains _ stimulus found] at otherFound
        obtain rfl := Option.some.inj otherFound
        exact absurd (same.symm.trans otherSame) conflict.blocks

end Runs

end Session

end Accountability

/-! ### Votes of one validator -/

namespace Session

attribute [local instance] SerdeJson.compact Blake3.polynomial Ed25519.keyed
  ChaCha20Poly1305.keyed X25519.masked

def bob : Validator := Validator.new ⟨"bob"⟩ (List.replicate 32 2) 1

def bobOnly : ValidatorSet := ValidatorSet.new.add bob

def watcher : Session :=
  Session.start (.repeated "alice" 1) bobOnly (Node.new ⟨"alice"⟩ Cascade.empty)

/-- A vote in bob's name that nobody has signed. -/
def forgedVote : Vote :=
  { height := 1
    round := 0
    blockHash := Hash.zero
    voter := ⟨"bob"⟩
    kind := .prevote
    signature := [0] }

def unsignedVote (blockHash : Hash) : Vote :=
  { forgedVote with
    blockHash := blockHash
    signature := [] }

def bobVote (blockHash : Hash) : Vote :=
  { unsignedVote blockHash with
    signature := (PartyIdentity.repeated "bob" 2).signBytes (unsignedVote blockHash).signingBytes }

def received (vote : Vote) : Stimulus :=
  { envs := fun _ => .healthy 10
    input := .net (.vote vote) }

theorem bob_known : bobOnly.get ⟨"bob"⟩ = some bob := by decide +kernel

theorem bobVote_signs (blockHash : Hash) : bobOnly.Signs (bobVote blockHash) :=
  ValidatorSet.signs_signed bob_known (by decide)

/-- Once a vote of bob's for this height is in, a conflicting one is reported. -/
theorem reported_second {first second : Vote} (signed : ¬ first.signature.isEmpty = true)
    (signedSecond : ¬ second.signature.isEmpty = true) (conflict : first.Conflict second)
    (voter : first.voter = ⟨"bob"⟩)
    (recent : (watcher.handle (received first)).engine.height - 8 ≤ first.height) :
    (watcher.handle (received first)).reported (received second) =
      some (EquivocationWatch.evidence (EquivocationWatch.record first) second
        bob.publicKey) := by
  have shaped : Shaped bobOnly (.repeated "alice" 1) watcher := Shaped.start _ _ _
  have after := shaped.handle (received first)
  have known : bobOnly.get first.voter = some bob := by
    rw [voter]
    exact bob_known
  -- The watch starts out empty, so the first vote is remembered and nobody is reported yet.
  have noted : (watcher.watched (received first)).engine.slashWatch.seen.lookup
        (EquivocationWatch.slot first) = some (EquivocationWatch.record first) ∧
      (watcher.watched (received first)).engine.slashWatch.slashed = [] := by
    rw [(@watched_vote watcher (received first) first bob rfl known).2]
    rcases watcher.engine.slashWatch.observe_cases first bob.publicKey with
      ⟨ignored, _⟩ | ⟨previous, seen, _⟩ | ⟨_, _, observed⟩
    · rcases ignored with empty | ⟨previous, seen, _⟩
      · exact absurd empty signed
      · cases seen
    · cases seen
    · rw [observed]
      exact ⟨AList.lookup_insert _, rfl⟩
  have trimmed := (handle_trimmed shaped (received first)).2
  have kept := trimmed.retained _ _ recent noted.1
  have knownAfter : (watcher.handle (received first)).engine.aurora.validators.get second.voter =
      some bob := by
    rw [← conflict.voter]
    exact (congrArg (fun vset => vset.get first.voter) after.frame.validators).trans known
  rw [(watched_vote rfl knownAfter).1]
  have slots : EquivocationWatch.slot first = EquivocationWatch.slot second := by
    simp only [EquivocationWatch.slot, conflict.height, conflict.round, conflict.kind,
      conflict.voter]
  rw [slots] at kept
  rcases (watcher.handle (received first)).engine.slashWatch.observe_cases second
    bob.publicKey with ⟨ignored, _⟩ | ⟨previous, seen, _, _, _, observed⟩ | ⟨unseen, _⟩
  · rcases ignored with empty | ⟨previous, seen, same | listed⟩
    · exact absurd empty signedSecond
    · obtain rfl := Option.some.inj (kept.symm.trans seen)
      exact absurd same conflict.blocks
    · rw [trimmed.slashed, noted.2] at listed
      cases listed
  · obtain rfl := Option.some.inj (kept.symm.trans seen)
    rw [observed]
  · rw [kept] at unseen
    cases unseen

theorem received_clean {session : Session} {vset : ValidatorSet} {identity : PartyIdentity}
    (shaped : Shaped vset identity session) {vote : Vote} (signs : vset.Signs vote) :
    session.Clean (received vote) := by
  intro other delivered validator known
  obtain rfl : vote = other := by
    simpa [received] using delivered
  obtain ⟨signer, listed, verified⟩ := signs
  have same := (congrArg (fun vset => vset.get vote.voter) shaped.frame.validators.symm).trans
    known
  obtain rfl := Option.some.inj (listed.symm.trans same)
  exact .inl verified

theorem run_received (vote : Vote) :
    Run.run handle (Session.start (.repeated "alice" 1) bobOnly
      (Node.new ⟨"alice"⟩ Cascade.empty)) [received vote] = watcher.handle (received vote) := rfl

def emptyBlock : Hash := Hash.zero

def otherBlock : Hash := ⟨Vector.replicate 32 1⟩

theorem equivocation_accounted_bob :
    Emitted watcher [received (bobVote emptyBlock), received (bobVote otherBlock)] ⟨"bob"⟩ ∧
      ∃ proof, (watcher.handle (received (bobVote emptyBlock))).reported
        (received (bobVote otherBlock)) = some proof ∧ proof.Proves bobOnly := by
  have shaped : Shaped bobOnly (.repeated "alice" 1) watcher := Shaped.start _ _ _
  have after := shaped.handle (received (bobVote emptyBlock))
  have conflict : (bobVote emptyBlock).Conflict (bobVote otherBlock) :=
    ⟨rfl, rfl, rfl, rfl, by decide⟩
  have recent : (watcher.handle (received (bobVote emptyBlock))).engine.height - 8 ≤
      (bobVote emptyBlock).height := by
    decide +kernel
  have along : Run.Along handle Clean watcher
      [received (bobVote emptyBlock), received (bobVote otherBlock)] :=
    ⟨received_clean shaped (bobVote_signs _), received_clean after (bobVote_signs _), trivial⟩
  obtain ⟨proves, accounts⟩ := equivocation_accounted bobOnly (.repeated "alice" 1)
    (Node.new ⟨"alice"⟩ Cascade.empty)
    [received (bobVote emptyBlock), received (bobVote otherBlock)]
  have reports := reported_second (bobVote_signs emptyBlock).signed
    (bobVote_signs otherBlock).signed conflict rfl recent
  refine ⟨?_, _, reports, ?_⟩
  · have emitted := accounts [received (bobVote emptyBlock)] (received (bobVote otherBlock)) []
      _ _ rfl (bobVote_signs _) (bobVote_signs _) conflict ⟨_, List.mem_cons_self, rfl⟩ rfl
    rw [run_received] at emitted
    exact emitted recent
  · have genuine := proves along [received (bobVote emptyBlock)]
      (received (bobVote otherBlock)) []
    rw [run_received] at genuine
    exact genuine _ rfl reports

/-- A forged vote is remembered, and bob's own next vote is reported against it. -/
theorem forged_report :
    ¬ ∀ (vset : ValidatorSet) (identity : PartyIdentity) (node : Node)
      (stimuli front : List Stimulus) (stimulus : Stimulus) (back : List Stimulus)
      (proof : EquivocationProof), stimuli = front ++ stimulus :: back →
        (Run.run handle (Session.start identity vset node) front).reported stimulus =
          some proof → proof.Proves vset := by
  intro all
  have conflict : forgedVote.Conflict (bobVote otherBlock) := ⟨rfl, rfl, rfl, rfl, by decide⟩
  have recent : (watcher.handle (received forgedVote)).engine.height - 8 ≤ forgedVote.height := by
    decide +kernel
  obtain ⟨first, second, validator, signs, _, _, _, _, made⟩ := all bobOnly
    (.repeated "alice" 1) (Node.new ⟨"alice"⟩ Cascade.empty) _ [received forgedVote]
    (received (bobVote otherBlock)) [] _ rfl
    (reported_second (by decide) (bobVote_signs otherBlock).signed conflict rfl recent)
  have signatures := congrArg EquivocationProof.signatureA made
  have same : [0] = first.signature :=
    Bytes.hexChars_injective (String.ofList_injective signatures)
  have sized := signs.sized
  rw [← same] at sized
  cases sized

end Session

end Veilux
