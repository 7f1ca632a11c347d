/-
Runs of the oracle prism.  A feed keeps the reporters it was registered with, its round only
moves up, and the value beside it is the one that a quorum of them signed for that round.
-/

import Veilux.Lib.Run
import Veilux.Prism.Spelling

namespace Veilux

open PrismM
open Bytes (leBytes)

namespace OraclePrism

/-! ### Keys and digests -/

section Keys

variable {left right : Hash}

theorem feedKey_injective (same : feedKey left = feedKey right) : left = right := by
  have texts := congrArg String.toList same
  rw [feedKey, feedKey, String.toList_append, String.toList_append] at texts
  exact Hash.toHex_injective (String.toList_inj.mp (List.append_cancel_left texts))

theorem valueKey_injective (same : valueKey left = valueKey right) : left = right := by
  have texts := congrArg String.toList same
  rw [valueKey, valueKey, String.toList_append, String.toList_append] at texts
  exact Hash.toHex_injective (String.toList_inj.mp (List.append_cancel_left texts))

theorem feedKey_ne_valueKey (left right : Hash) : feedKey left ≠ valueKey right := by
  have apart : Keys.Apart feedPrefix valuePrefix := by decide
  exact apart.append_ne left.toHex right.toHex

/-- The value stands last, behind parts of fixed length. -/
theorem reportDigest_injective {round other : UInt64} {value reported : List UInt8}
    (same : reportDigest left round value = reportDigest right other reported) :
    left = right ∧ round = other ∧ value = reported := by
  unfold reportDigest at same
  rw [List.append_assoc, List.append_assoc, List.append_assoc, List.append_assoc] at same
  have tails := (List.cons.inj (List.append_cancel_left same)).2
  obtain ⟨ids, rests⟩ := List.append_inj tails (by
    rw [Hash.asBytes_length, Hash.asBytes_length])
  obtain ⟨rounds, values⟩ := List.append_inj rests (by
    rw [Bytes.leBytes_length, Bytes.leBytes_length])
  refine ⟨Hash.asBytes_injective ids, ?_, (List.cons.inj values).2⟩
  exact UInt64.toNat_inj.mp (Bytes.leBytes_injective (by exact round.toNat_lt)
    (by exact other.toNat_lt) rounds)

end Keys

/-! ### What the operations do -/

section Operations

variable [SerdeJson] {state after : StateTree} {id : Hash} {feed : Feed}

theorem loadFeed_clean (id : Hash) : Clean (loadFeed id) := by
  unfold loadFeed
  apply Clean.read
  intro state
  split
  · exact clean_throw _
  · exact clean_throw _
  · exact clean_pure _

variable [Blake3] {command : Command} {output : PrismOutput}

omit [SerdeJson] in
theorem accepts_registerFeed {name : String} {reporters : List String} {quorum : UInt32}
    (accepted : Accepts (registerFeed command name reporters quorum) state output after) :
    quorum ≠ 0 ∧ quorum.toNat ≤ reporters.length ∧
      state.get (feedKey (registeredId command.submitter name)) = none ∧
      after = state.putJson (feedKey (registeredId command.submitter name))
        ({ feedId := registeredId command.submitter name
           name := name
           admin := command.submitter
           reporters := reporters
           quorum := quorum
           round := 0 } : Feed) := by
  unfold registerFeed at accepted
  rcases accepts_ite.mp accepted with ⟨_, refused⟩ | ⟨proper, accepted⟩
  · obtain ⟨_, _, impossible, _⟩ := accepts_bind.mp refused
    exact absurd impossible accepts_throw
  obtain ⟨some, enough⟩ := not_or.mp proper
  obtain ⟨_, _, got, accepted⟩ := accepts_bind.mp accepted
  obtain ⟨rfl, rfl⟩ := accepts_get.mp got
  rcases accepts_ite.mp accepted with ⟨_, refused⟩ | ⟨absent, accepted⟩
  · obtain ⟨_, _, impossible, _⟩ := accepts_bind.mp refused
    exact absurd impossible accepts_throw
  simp only [accepts_bind, accepts_modify, accepts_pure] at accepted
  obtain ⟨_, _, rfl, _, rfl⟩ := accepted
  rw [StateTree.contains_eq_isSome, Option.not_isSome_iff_eq_none] at absent
  exact ⟨some, Nat.not_lt.mp enough, absent, rfl⟩

variable [Ed25519] {round : UInt64} {value : List UInt8} {signatures : List ReporterSig}

/-- The keys that the loop counts for a report. -/
def countedFor (feed : Feed) (id : Hash) (round : UInt64) (value : List UInt8)
    (signatures : List ReporterSig) : List String :=
  countReporters feed.reporters (reportDigest id round value) signatures []

theorem accepts_report
    (accepted : Accepts (report command id round value signatures) state output after) :
    ∃ feed, Stored state feed id ∧ feed.round < round ∧
      feed.quorum.toNat ≤ (countedFor feed id round value signatures).length ∧
      after = (state.putJson (feedKey id) { feed with round := round }).putJson (valueKey id)
        ({ feedId := id
           round := round
           value := value
           reporters := countedFor feed id round value signatures } : FeedValue) := by
  unfold report at accepted
  obtain ⟨feed, _, loaded, accepted⟩ := accepts_bind.mp accepted
  obtain ⟨stored, rfl⟩ := accepts_loadFeed.mp loaded
  rcases accepts_ite.mp accepted with ⟨_, refused⟩ | ⟨advances, accepted⟩
  · obtain ⟨_, _, impossible, _⟩ := accepts_bind.mp refused
    exact absurd impossible accepts_throw
  rcases accepts_ite.mp accepted with ⟨_, refused⟩ | ⟨enough, accepted⟩
  · obtain ⟨_, _, impossible, _⟩ := accepts_bind.mp refused
    exact absurd impossible accepts_throw
  simp only [accepts_bind, accepts_modify, accepts_pure] at accepted
  obtain ⟨_, _, rfl, _, _, rfl, _, rfl⟩ := accepted
  refine ⟨feed, stored, UInt64.not_le.mp advances, ?_, rfl⟩
  -- the cut number of keys is at most their number
  have reached := UInt32.le_iff_toNat_le.mp (UInt32.not_lt.mp enough)
  rw [UInt32.toNat_ofNat'] at reached
  exact reached.trans (Nat.mod_le _ _)

theorem accepts_handle (accepted : Accepts (handle command) state output after) :
    ∃ operation, fromSlice OracleCommand command.payload = .ok operation ∧
      Accepts (execute command operation) state output after := by
  unfold handle at accepted
  cases parsed : fromSlice OracleCommand command.payload with
  | error text =>
      rw [parsed] at accepted
      exact absurd accepted accepts_throw
  | ok operation =>
      rw [parsed] at accepted
      exact ⟨operation, rfl, accepted⟩

/-- Every check stands before the first write. -/
theorem handle_clean (command : Command) : Clean (handle command) := by
  unfold handle
  split
  · exact clean_throw _
  · rename_i operation parsed
    cases operation with
    | registerFeed name reporters quorum =>
        apply Clean.unless
        apply Clean.read
        intro state
        apply Clean.unless
        apply (clean_modify _).then
        intro _ state after
        exact rejects_pure
    | report id round value signatures =>
        apply (loadFeed_clean id).bind fun _ _ _ accepted => (accepts_loadFeed.mp accepted).2.symm
        intro feed
        apply Clean.unless
        apply Clean.unless
        apply (clean_modify _).then
        intro _ state after
        simp only [rejects_bind, rejects_modify, rejects_pure, and_false, exists_false, or_self,
          not_false_eq_true]

end Operations

/-! ### Feeds and their values -/

section Feeds

variable [SerdeJson] [Ed25519]

/-- Enough of the feed's reporters, each once, have signed the value for the feed's round. -/
structure Signed (feed : Feed) (reported : FeedValue) : Prop where
  feedId : reported.feedId = feed.feedId
  round : reported.round = feed.round
  quorum : feed.quorum.toNat ≤ reported.reporters.length
  distinct : reported.reporters.Nodup
  endorsed : ∀ reporter ∈ reported.reporters, ∃ entry : ReporterSig, entry.publicKey = reporter ∧
    Endorses feed.reporters (reportDigest feed.feedId feed.round reported.value) entry

/-- A feed in the state, with no value before its first report and a signed one after. -/
structure Stands (state : StateTree) (id : Hash) (feed : Feed) : Prop where
  stored : Stored state feed id
  feedId : feed.feedId = id
  positive : feed.quorum ≠ 0
  enough : feed.quorum.toNat ≤ feed.reporters.length
  value : feed.round = 0 ∧ state.get (valueKey id) = none ∨
    ∃ reported, state.getJson FeedValue (valueKey id) = .ok (some reported) ∧ Signed feed reported

/-- Every identifier has a feed that stands, or neither feed nor value. -/
def Sound (state : StateTree) : Prop :=
  ∀ id, state.get (feedKey id) = none ∧ state.get (valueKey id) = none ∨
    ∃ feed, Stands state id feed

/-- Entries of one identifier as they were. -/
def Same (state after : StateTree) (id : Hash) : Prop :=
  after.get (feedKey id) = state.get (feedKey id) ∧
    after.get (valueKey id) = state.get (valueKey id)

variable {state after : StateTree} {id : Hash} {feed : Feed}

omit [Ed25519] in
theorem Stored.of_same (stored : Stored state feed id) (same : Same state after id) :
    Stored after feed id := by
  unfold Stored StateTree.getJson at stored ⊢
  rw [same.1]
  exact stored

theorem Stands.of_same (stands : Stands state id feed) (same : Same state after id) :
    Stands after id feed := by
  refine { stands with
    stored := stands.stored.of_same same
    value := ?_ }
  unfold StateTree.getJson
  rw [same.2]
  exact stands.value

omit [Ed25519] in
theorem Stored.present (stored : Stored state feed id) : state.get (feedKey id) ≠ none := by
  intro none
  unfold Stored StateTree.getJson at stored
  rw [none] at stored
  cases stored

theorem Sound.stands (sound : Sound state) (stored : Stored state feed id) :
    Stands state id feed := by
  rcases sound id with absent | ⟨found, stands⟩
  · exact absurd absent.1 stored.present
  · have both : Except.ok (some found) = (Except.ok (some feed) : Except StateError (Option Feed)) :=
      stands.stored.symm.trans stored
    cases both
    exact stands

/-- A feed keeps the terms of its registration, and its round does not move down. -/
def Follows (state after : StateTree) : Prop :=
  ∀ id feed, Stored state feed id →
    ∃ round, feed.round ≤ round ∧ Stored after { feed with round := round } id

omit [Ed25519] in
theorem follows_of_same (same : ∀ id, Same state after id) : Follows state after :=
  fun id feed stored => ⟨feed.round, UInt64.le_refl _, stored.of_same (same id)⟩

omit [Ed25519] in
theorem Follows.trans {later : StateTree} (first : Follows state after)
    (second : Follows after later) : Follows state later := by
  intro id feed stored
  obtain ⟨middle, below, between⟩ := first id feed stored
  obtain ⟨last, above, final⟩ := second id _ between
  exact ⟨last, UInt64.le_trans below above, final⟩

variable [Blake3] {command : Command} {output : PrismOutput}

omit [SerdeJson] [Ed25519] in
/-- A registration touches the feed it registers. -/
theorem same_of_registerFeed {name : String} {reporters : List String} {quorum : UInt32}
    (accepted : Accepts (registerFeed command name reporters quorum) state output after)
    (different : registeredId command.submitter name ≠ id) : Same state after id := by
  obtain ⟨_, _, _, rfl⟩ := accepts_registerFeed accepted
  constructor
  · exact StateTree.get_put_ne state _ fun same => different (feedKey_injective same)
  · exact StateTree.get_put_ne state _ (feedKey_ne_valueKey _ _)

theorem sound_registerFeed (sound : Sound state) {name : String} {reporters : List String}
    {quorum : UInt32}
    (accepted : Accepts (registerFeed command name reporters quorum) state output after) :
    Sound after ∧ Follows state after := by
  have elsewhere {id : Hash} := @same_of_registerFeed state after id _ _ _ _ _ _ accepted
  obtain ⟨some, enough, absent, rfl⟩ := accepts_registerFeed accepted
  constructor
  · intro id
    by_cases same : registeredId command.submitter name = id
    · subst same
      right
      refine ⟨_, ⟨StateTree.getJson_putJson _ _ _, rfl, some, enough, .inl ⟨rfl, ?_⟩⟩⟩
      rcases sound (registeredId command.submitter name) with none | ⟨feed, stands⟩
      · refine Eq.trans ?_ none.2
        exact StateTree.get_put_ne state _ (feedKey_ne_valueKey _ _)
      · exact absurd absent stands.stored.present
    · obtain ⟨feeds, values⟩ := elsewhere same
      rcases sound id with ⟨noFeed, noValue⟩ | ⟨feed, stands⟩
      · exact .inl ⟨feeds.trans noFeed, values.trans noValue⟩
      · exact .inr ⟨feed, stands.of_same ⟨feeds, values⟩⟩
  · intro id feed stored
    have different : registeredId command.submitter name ≠ id := by
      intro same
      rw [same] at absent
      exact stored.present absent
    exact ⟨feed.round, UInt64.le_refl _, stored.of_same (elsewhere different)⟩

variable {round : UInt64} {value : List UInt8} {signatures : List ReporterSig}

theorem same_of_report {other : Hash}
    (accepted : Accepts (report command id round value signatures) state output after)
    (different : id ≠ other) : Same state after other := by
  obtain ⟨feed, _, _, _, rfl⟩ := accepts_report accepted
  constructor
  · refine Eq.trans (StateTree.get_put_ne _ _ (feedKey_ne_valueKey _ _).symm) ?_
    exact StateTree.get_put_ne state _ fun same => different (feedKey_injective same)
  · refine Eq.trans (StateTree.get_put_ne _ _ fun same => different (valueKey_injective same)) ?_
    exact StateTree.get_put_ne state _ (feedKey_ne_valueKey _ _)

/-- What an accepted report leaves: the feed in the new round, and beside it the value. -/
theorem stands_report (sound : Sound state)
    (accepted : Accepts (report command id round value signatures) state output after) :
    ∃ feed reported, Stored state feed id ∧ feed.round < round ∧ reported.value = value ∧
      Stands after id { feed with round := round } ∧
      after.getJson FeedValue (valueKey id) = .ok (some reported) ∧
      Signed { feed with round := round } reported := by
  obtain ⟨feed, stored, advances, enough, rfl⟩ := accepts_report accepted
  have stands := sound.stands stored
  obtain ⟨distinct, each⟩ := @countReporters_spec _ feed.reporters
    (reportDigest id round value) signatures [] List.nodup_nil
  have signed : Signed { feed with round := round }
      ({ feedId := id
         round := round
         value := value
         reporters := countedFor feed id round value signatures } : FeedValue) := by
    refine ⟨stands.feedId.symm, rfl, enough, distinct, fun reporter member => ?_⟩
    rcases each reporter member with impossible | ⟨entry, _, named, endorses⟩
    · cases impossible
    · refine ⟨entry, named, ?_⟩
      dsimp only
      rw [stands.feedId]
      exact endorses
  have valued : ∀ reported : FeedValue,
      ((state.putJson (feedKey id) { feed with round := round }).putJson (valueKey id)
        reported).getJson FeedValue (valueKey id) = .ok (some reported) :=
    fun reported => StateTree.getJson_putJson _ _ _
  refine ⟨feed, _, stored, advances, ?_, ?_, valued _, signed⟩
  · rfl
  · refine ⟨?_, stands.feedId, stands.positive, stands.enough, .inr ⟨_, valued _, signed⟩⟩
    have saved := StateTree.getJson_putJson state (feedKey id) { feed with round := round }
    unfold Stored
    rw [StateTree.putJson, StateTree.getJson_put_ne _ _ (feedKey_ne_valueKey _ _).symm]
    exact saved

theorem sound_report (sound : Sound state)
    (accepted : Accepts (report command id round value signatures) state output after) :
    Sound after ∧ Follows state after := by
  obtain ⟨feed, reported, stored, advances, _, stands, _⟩ := stands_report sound accepted
  constructor
  · intro other
    by_cases same : id = other
    · rw [← same]
      exact .inr ⟨_, stands⟩
    · obtain ⟨feeds, values⟩ := same_of_report accepted same
      rcases sound other with ⟨noFeed, noValue⟩ | ⟨found, kept⟩
      · exact .inl ⟨feeds.trans noFeed, values.trans noValue⟩
      · exact .inr ⟨found, kept.of_same ⟨feeds, values⟩⟩
  · intro other found held
    by_cases same : id = other
    · subst same
      have both : Except.ok (some found) =
          (Except.ok (some feed) : Except StateError (Option Feed)) := held.symm.trans stored
      cases both
      exact ⟨round, UInt64.le_of_lt advances, stands.stored⟩
    · exact ⟨found.round, UInt64.le_refl _, held.of_same (same_of_report accepted same)⟩

theorem sound_handle (sound : Sound state)
    (accepted : Accepts (handle command) state output after) :
    Sound after ∧ Follows state after := by
  obtain ⟨operation, _, executed⟩ := accepts_handle accepted
  cases operation with
  | registerFeed name reporters quorum => exact sound_registerFeed sound executed
  | report id round value signatures => exact sound_report sound executed

/-! ### Runs -/

/-- A command reaches the prism, or the rest of the state moves on. -/
inductive Move where
  | command (command : Command)
  | elapse (later : StateTree)

def advance (state : StateTree) : Move → StateTree
  | .command command => prism.step state command
  | .elapse later => later

omit [SerdeJson] [Ed25519] [Blake3] in
/-- Outside the prism its entries stay. -/
def Permitted (state : StateTree) : Move → Prop
  | .command _ => True
  | .elapse later => ∀ id, Same state later id

theorem sound_advance {move : Move} (sound : Sound state) (permitted : Permitted state move) :
    Sound (advance state move) ∧ Follows state (advance state move) := by
  cases move with
  | command command =>
      change Sound (prism.step state command) ∧ Follows state (prism.step state command)
      cases ran : (handle command).run.run state with
      | mk result after =>
          cases result with
          | error error =>
              have stays : prism.step state command = state := Prism.step_of_error ran
              rw [stays]
              exact ⟨sound, follows_of_same fun _ => ⟨rfl, rfl⟩⟩
          | ok output =>
              have moves : prism.step state command = after := Prism.step_eq ran
              rw [moves]
              exact sound_handle sound ran
  | elapse later =>
      refine ⟨fun id => ?_, follows_of_same permitted⟩
      rcases sound id with ⟨noFeed, noValue⟩ | ⟨feed, stands⟩
      · exact .inl ⟨(permitted id).1.trans noFeed, (permitted id).2.trans noValue⟩
      · exact .inr ⟨feed, stands.of_same (permitted id)⟩

theorem sound_run {moves : List Move} (sound : Sound state)
    (along : Run.Along advance Permitted state moves) :
    Sound (Run.run advance state moves) ∧ Follows state (Run.run advance state moves) := by
  induction moves generalizing state with
  | nil => exact ⟨sound, follows_of_same fun _ => ⟨rfl, rfl⟩⟩
  | cons move moves ih =>
      obtain ⟨step, follows⟩ := sound_advance sound along.1
      obtain ⟨final, rest⟩ := ih step along.2
      exact ⟨final, follows.trans rest⟩

/-! ### Safety of the feeds -/

/-- What holds of the feeds in a state, of the next report and of every run from there. -/
structure Safe (state : StateTree) : Prop where
  registered : ∀ id feed, Stored state feed id →
    feed.feedId = id ∧ feed.quorum ≠ 0 ∧ feed.quorum.toNat ≤ feed.reporters.length
  carried : ∀ id feed, Stored state feed id →
    feed.round = 0 ∧ latestValue state id = none ∨
      ∃ reported, latestValue state id = some reported ∧ Signed feed reported
  valued : ∀ id reported, latestValue state id = some reported →
    ∃ feed, Stored state feed id ∧ Signed feed reported
  advances : ∀ command id round value signatures output after,
    fromSlice OracleCommand command.payload = .ok (.report id round value signatures) →
    Accepts (handle command) state output after →
    ∃ feed reported, Stored state feed id ∧ feed.round < round ∧
      Stored after { feed with round := round } id ∧ latestValue after id = some reported ∧
      reported.value = value ∧ Signed { feed with round := round } reported ∧
      ∀ other, other ≠ id → Same state after other
  kept : ∀ moves, Run.Along advance Permitted state moves →
    Follows state (Run.run advance state moves)

omit [Ed25519] [Blake3] in
theorem latestValue_eq_some {reported : FeedValue} : latestValue state id = some reported ↔
    state.getJson FeedValue (valueKey id) = .ok (some reported) := by
  unfold latestValue StateTree.getJson?
  cases state.getJson FeedValue (valueKey id) with
  | error error => simp
  | ok found => simp

omit [Ed25519] [Blake3] in
theorem latestValue_eq_none (absent : state.get (valueKey id) = none) :
    latestValue state id = none := by
  unfold latestValue StateTree.getJson? StateTree.getJson
  rw [absent]

theorem Sound.safe (sound : Sound state) : Safe state := by
  constructor
  · intro id feed stored
    have stands := sound.stands stored
    exact ⟨stands.feedId, stands.positive, stands.enough⟩
  · intro id feed stored
    rcases (sound.stands stored).value with ⟨zero, none⟩ | ⟨reported, read, signed⟩
    · exact .inl ⟨zero, latestValue_eq_none none⟩
    · exact .inr ⟨reported, latestValue_eq_some.mpr read, signed⟩
  · intro id reported found
    have read := latestValue_eq_some.mp found
    have present : state.get (valueKey id) ≠ none := by
      intro none
      rw [latestValue_eq_none none] at found
      cases found
    rcases sound id with ⟨_, none⟩ | ⟨feed, stands⟩
    · exact absurd none present
    · refine ⟨feed, stands.stored, ?_⟩
      rcases stands.value with ⟨_, none⟩ | ⟨other, stored, signed⟩
      · exact absurd none present
      · have both : Except.ok (some other) =
            (Except.ok (some reported) : Except StateError (Option FeedValue)) :=
          stored.symm.trans read
        cases both
        exact signed
  · intro command id round value signatures output after parsed accepted
    obtain ⟨operation, decoded, executed⟩ := accepts_handle accepted
    rw [parsed] at decoded
    cases decoded
    obtain ⟨feed, reported, stored, later, same, stands, read, signed⟩ :=
      stands_report sound executed
    exact ⟨feed, reported, stored, later, stands.stored, latestValue_eq_some.mpr read, same, signed,
      fun other different => same_of_report executed different.symm⟩
  · exact fun moves along => (sound_run sound along).2

end Feeds

section Fixed

attribute [local instance] SerdeJson.compact Blake3.polynomial Ed25519.keyed

def oracleCommand (nonce : UInt64) (operation : OracleCommand) : Command :=
  { prism := "oracle"
    submitter := ⟨"alice"⟩
    visibility := .pub
    payload := toVec operation
    nonce := nonce }

def soloReporter : PartyIdentity := PartyIdentity.repeated "alice" 0xaa

/-- Alice registers a feed with her own key, and reports one value. -/
def soloReport : List Move :=
  let id := registeredId ⟨"alice"⟩ "price"
  let text := Bytes.hexEncode soloReporter.publicKey
  [.command (oracleCommand 0 (.registerFeed "price" [text] 1)),
    .command (oracleCommand 1 (.report id 1 [7]
      [⟨text, Bytes.hexEncode (soloReporter.signBytes (reportDigest id 1 [7]))⟩]))]

end Fixed

end OraclePrism

end Veilux
