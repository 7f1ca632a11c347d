/-
Runs of the vesting prism around one schedule, while the clock and the rest of the state move
on.  What accounts gain from the schedule is what it has released, until a revocation pays out
the rest.
-/

import Veilux.Prism.Credits
import Veilux.Prism.VestingSchedule

namespace Veilux

open PrismM

namespace VestingPrism

open TokenPrism (balance Credited)

section Runs

variable [SerdeJson] {state middle after : StateTree} {id other : Hash} {schedule : Schedule}

/-! ### What the operations do -/

theorem accepts_load : Accepts (load id) state schedule after ↔
    state.getJson Schedule (key id) = .ok (some schedule) ∧ state = after := by
  unfold load
  simp only [accepts_bind, accepts_get]
  constructor
  · rintro ⟨_, _, ⟨rfl, rfl⟩, accepted⟩
    cases read : state.getJson Schedule (key id) with
    | error error => simp only [read, accepts_throw] at accepted
    | ok found =>
        cases found with
        | none => simp only [read, accepts_throw] at accepted
        | some stored =>
            simp only [read, accepts_pure] at accepted
            rw [accepted.1]
            exact ⟨rfl, accepted.2⟩
  · rintro ⟨read, rfl⟩
    refine ⟨state, state, ⟨rfl, rfl⟩, ?_⟩
    simp only [read, accepts_pure, and_self]

theorem credited_none (state : StateTree) (token : Hash) (who : PartyId) :
    Credited state state token who 0 := by
  constructor
  · rfl
  · exact fun _ _ _ => rfl
  · exact fun _ _ _ => rfl

/-- A credit that a zero amount skips. -/
theorem credited_then {α : Type} {token : Hash} {who : PartyId} {amount : U128}
    {next : Unit → PrismM α} {result : α}
    (accepted : Accepts (if 0 < amount then TokenPrism.credit token who amount >>= next
      else next ()) state result after) :
    ∃ middle, Credited state middle token who amount ∧ Accepts (next ()) middle result after := by
  rcases accepts_ite.mp accepted with ⟨_, paid⟩ | ⟨nothing, kept⟩
  · obtain ⟨_, middle, credited, rest⟩ := accepts_bind.mp paid
    exact ⟨middle, (TokenPrism.credited_of_accepts credited).2, rest⟩
  · have none : amount = 0 := by
      by_contra some
      exact nothing (Fin.pos_iff_ne_zero.mpr some)
    rw [none]
    exact ⟨state, credited_none state token who, kept⟩

variable [Blake3] {command : Command} {output : PrismOutput}

theorem accepts_release (accepted : Accepts (release command id) state output after) :
    ∃ schedule middle, state.getJson Schedule (key id) = .ok (some schedule) ∧
      schedule.revoked = false ∧
      Credited state middle schedule.tokenId schedule.beneficiary (schedule.releasable (now state)) ∧
      after = middle.putJson (key id) { schedule with
        released := schedule.released.saturatingAdd (schedule.releasable (now state)) } := by
  unfold release at accepted
  obtain ⟨schedule, _, loaded, accepted⟩ := accepts_bind.mp accepted
  obtain ⟨stored, rfl⟩ := accepts_load.mp loaded
  rcases accepts_ite.mp accepted with ⟨_, refused⟩ | ⟨standing, accepted⟩
  · obtain ⟨_, _, impossible, _⟩ := accepts_bind.mp refused
    exact absurd impossible accepts_throw
  obtain ⟨_, _, got, accepted⟩ := accepts_bind.mp accepted
  obtain ⟨rfl, rfl⟩ := accepts_get.mp got
  rcases accepts_ite.mp accepted with ⟨_, refused⟩ | ⟨_, accepted⟩
  · obtain ⟨_, _, impossible, _⟩ := accepts_bind.mp refused
    exact absurd impossible accepts_throw
  simp only [accepts_bind, accepts_modify, accepts_pure] at accepted
  obtain ⟨_, middle, paid, _, _, rfl, _, rfl⟩ := accepted
  exact ⟨schedule, middle, stored, eq_false_of_ne_true standing,
    (TokenPrism.credited_of_accepts paid).2, rfl⟩

theorem accepts_revoke (accepted : Accepts (revoke command id) state output after) :
    ∃ schedule paid refunded, state.getJson Schedule (key id) = .ok (some schedule) ∧
      schedule.revoked = false ∧
      let owed := schedule.releasable (now state)
      let released := if 0 < owed then schedule.released.saturatingAdd owed else schedule.released
      Credited state paid schedule.tokenId schedule.beneficiary owed ∧
      Credited paid refunded schedule.tokenId schedule.funder
        (schedule.total.saturatingSub released) ∧
      after = refunded.putJson (key id) { schedule with
        released := released
        revoked := true } := by
  unfold revoke at accepted
  obtain ⟨schedule, _, loaded, accepted⟩ := accepts_bind.mp accepted
  obtain ⟨stored, rfl⟩ := accepts_load.mp loaded
  rcases accepts_ite.mp accepted with ⟨_, refused⟩ | ⟨_, accepted⟩
  · obtain ⟨_, _, impossible, _⟩ := accepts_bind.mp refused
    exact absurd impossible accepts_throw
  rcases accepts_ite.mp accepted with ⟨_, refused⟩ | ⟨_, accepted⟩
  · obtain ⟨_, _, impossible, _⟩ := accepts_bind.mp refused
    exact absurd impossible accepts_throw
  rcases accepts_ite.mp accepted with ⟨_, refused⟩ | ⟨standing, accepted⟩
  · obtain ⟨_, _, impossible, _⟩ := accepts_bind.mp refused
    exact absurd impossible accepts_throw
  obtain ⟨_, _, got, accepted⟩ := accepts_bind.mp accepted
  obtain ⟨rfl, rfl⟩ := accepts_get.mp got
  obtain ⟨paid, owing, accepted⟩ := credited_then accepted
  obtain ⟨refunded, refunding, accepted⟩ := credited_then accepted
  simp only [accepts_bind, accepts_modify, accepts_pure] at accepted
  obtain ⟨_, _, rfl, _, rfl⟩ := accepted
  exact ⟨schedule, paid, refunded, stored, eq_false_of_ne_true standing, owing, refunding, rfl⟩

/-! ### What they leave alone -/

section Frames

variable {token : Hash} {who : PartyId} {amount : U128}

omit [Blake3] in
theorem now_of_get (same : after.get "chain/now" = state.get "chain/now") : now after = now state := by
  unfold now StateTree.getJson? StateTree.getJson
  rw [same]

omit [Blake3] in
theorem now_of_credited (credited : Credited state after token who amount) :
    now after = now state := by
  have balances : Keys.Apart "chain/" TokenPrism.balPrefix := by decide
  have records : Keys.Apart "chain/" TokenPrism.metaPrefix := by decide
  exact now_of_get (credited.elsewhere "now" balances records)

omit [Blake3] in
theorem now_saved (state : StateTree) (id : Hash) (schedule : Schedule) :
    now (state.putJson (key id) schedule) = now state := by
  apply now_of_get
  apply StateTree.get_put_ne
  intro same
  have apart : Keys.Apart "chain/" schedPrefix := by decide
  exact apart.append_ne "now" id.toHex same.symm

omit [Blake3] in
theorem total_saved (state : StateTree) (id : Hash) (schedule : Schedule) (token : Hash) :
    TokenPrism.total (state.putJson (key id) schedule) token = TokenPrism.total state token :=
  TokenPrism.total_put_head state id.toHex _ (by decide) token

omit [Blake3] in
theorem balance_saved (state : StateTree) (id : Hash) (schedule : Schedule) (token : Hash)
    (who : PartyId) :
    balance (state.putJson (key id) schedule) token who = balance state token who :=
  TokenPrism.balance_put_head state id.toHex _ (by decide) token who

omit [Blake3] in
theorem get_of_credited (credited : Credited state after token who amount) (id : Hash) :
    after.get (key id) = state.get (key id) :=
  credited.elsewhere id.toHex (by decide) (by decide)

omit [SerdeJson] [Blake3] in
theorem get_saved_ne (state : StateTree) {id other : Hash} (different : other ≠ id)
    (schedule : Schedule) : (state.putJson (key other) schedule).get (key id) = state.get (key id) :=
  StateTree.get_put_ne state _ fun same => different (key_injective same)

end Frames

/-! ### Runs around a schedule -/

/-- A command reaches the prism, or the chain moves on to a later state. -/
inductive Move where
  | command (command : Command)
  | elapse (later : StateTree)

/-- The schedule that a command pays out of. -/
def payer (command : Command) : Option Hash :=
  match fromSlice VestingCommand command.payload with
  | .ok (.release id) | .ok (.revoke id) => some id
  | _ => none

/-- What the accounts of a token gain together. -/
noncomputable def gain (token : Hash) (state after : StateTree) : Nat :=
  TokenPrism.total after token - TokenPrism.total state token

/-- The state and what the schedule has paid so far. -/
noncomputable def advance (id token : Hash) : StateTree × Nat → Move → StateTree × Nat
  | (state, paid), .command command =>
      let after := prism.step state command
      (after, if payer command = some id then paid + gain token state after else paid)
  | (_, paid), .elapse later => (later, paid)

/-- Outside the prism the entry of the schedule stays, and the clock does not run back. -/
def Permitted (id : Hash) : StateTree × Nat → Move → Prop
  | _, .command _ => True
  | (state, _), .elapse later => later.get (key id) = state.get (key id) ∧ now state ≤ now later

/-- The schedule is stored on its own terms, and what it has paid is what it has released, or
all of it once it is revoked. -/
structure Accounted (origin : Schedule) (id : Hash) (state : StateTree) (paid : Nat)
    (schedule : Schedule) : Prop where
  stored : state.getJson Schedule (key id) = .ok (some schedule)
  terms : schedule =
    { origin with
      released := schedule.released
      revoked := schedule.revoked }
  within : schedule.released.val ≤ (schedule.vested (now state)).val
  running : schedule.revoked = false → paid = schedule.released.val
  settled : schedule.revoked = true → paid = schedule.total.val

variable {origin : Schedule} {paid : Nat}

omit [Blake3] in
theorem Accounted.frame (accounted : Accounted origin id state paid schedule)
    (same : after.get (key id) = state.get (key id)) (clock : now state ≤ now after) :
    Accounted origin id after paid schedule := by
  constructor
  · unfold StateTree.getJson
    rw [same]
    exact accounted.stored
  · exact accounted.terms
  · exact accounted.within.trans (schedule.vested_mono clock)
  · exact accounted.running
  · exact accounted.settled

omit [SerdeJson] [Blake3] in
/-- Releasing what is due brings the released amount up to the vested one. -/
theorem saturatingAdd_releasable {time : UInt64}
    (within : schedule.released.val ≤ (schedule.vested time).val) :
    (schedule.released.saturatingAdd (schedule.releasable time)).val = (schedule.vested time).val := by
  have bound := (schedule.vested time).isLt
  unfold Schedule.releasable
  rw [U128.saturatingAdd_val, U128.saturatingSub_val]
  omega

omit [Blake3] in
/-- The schedule as it is after the vested amount was paid. -/
theorem accounted_saved {last : StateTree} {updated : Schedule}
    (accounted : Accounted origin id state paid schedule) (clock : now last = now state)
    (terms : updated = { schedule with
      released := updated.released
      revoked := updated.revoked })
    (caught : updated.released.val = (schedule.vested (now state)).val) {total : Nat}
    (running : updated.revoked = false → total = updated.released.val)
    (settled : updated.revoked = true → total = updated.total.val) :
    Accounted origin id (last.putJson (key id) updated) total updated := by
  constructor
  · exact StateTree.getJson_putJson _ _ _
  · rw [terms, accounted.terms]
  · rw [now_saved, clock, caught, terms]
    exact le_refl _
  · exact running
  · exact settled

/-- A release pays what is due. -/
theorem accounted_release (accounted : Accounted origin id state paid schedule)
    (accepted : Accepts (release command id) state output after) :
    ∃ updated, Accounted origin id after (paid + gain schedule.tokenId state after) updated ∧
      schedule.revoked = false ∧ updated.revoked = false ∧
      updated.released.val = (schedule.vested (now state)).val := by
  obtain ⟨found, middle, stored, standing, credited, rfl⟩ := accepts_release accepted
  rw [accounted.stored] at stored
  cases stored
  have caught := saturatingAdd_releasable accounted.within
  have gained := credited.total
  refine ⟨_, accounted_saved accounted (now_of_credited credited) rfl caught ?_ ?_, standing,
    standing, caught⟩
  · intro _
    rw [caught, accounted.running standing]
    unfold gain
    rw [total_saved, gained]
    have within := accounted.within
    unfold Schedule.releasable
    rw [U128.saturatingSub_val]
    omega
  · intro revoked
    exact absurd (standing.symm.trans revoked) Bool.false_ne_true

/-- A revocation pays what is due and returns the rest. -/
theorem accounted_revoke (accounted : Accounted origin id state paid schedule)
    (accepted : Accepts (revoke command id) state output after) :
    ∃ updated, Accounted origin id after (paid + gain schedule.tokenId state after) updated ∧
      schedule.revoked = false ∧ updated.revoked = true := by
  obtain ⟨found, middle, last, stored, standing, owing, refunding, rfl⟩ := accepts_revoke accepted
  rw [accounted.stored] at stored
  cases stored
  have within := accounted.within
  have caught : (if 0 < schedule.releasable (now state) then
      schedule.released.saturatingAdd (schedule.releasable (now state))
      else schedule.released).val = (schedule.vested (now state)).val := by
    by_cases due : 0 < schedule.releasable (now state)
    · rw [if_pos due]
      exact saturatingAdd_releasable within
    · rw [if_neg due]
      have none : (schedule.releasable (now state)).val = 0 :=
        Nat.le_zero.mp (not_lt.mp due)
      unfold Schedule.releasable at none
      rw [U128.saturatingSub_val] at none
      omega
  have clock : now last = now state :=
    (now_of_credited refunding).trans (now_of_credited owing)
  refine ⟨_, accounted_saved accounted clock rfl caught ?_ ?_, standing, rfl⟩
  · intro impossible
    cases impossible
  · intro _
    have first := owing.total
    have second := refunding.total
    rw [U128.saturatingSub_val, caught] at second
    unfold Schedule.releasable at first
    rw [U128.saturatingSub_val] at first
    have bound := schedule.vested_le (now state)
    have before := accounted.running standing
    unfold gain
    rw [total_saved]
    change paid + _ = schedule.total.val
    omega

omit [Blake3] in
theorem now_debited (state : StateTree) (token : Hash) (who : PartyId) (amount : U128) :
    now (TokenPrism.debited state token who amount) = now state := by
  have balances : Keys.Apart "chain/" TokenPrism.balPrefix := by decide
  exact now_of_get (TokenPrism.get_head_withBalance state "now" balances _ _ _)

/-- The other schedules, and new ones, leave the entry and the clock as they are. -/
theorem handle_elsewhere (accepted : Accepts (handle command) state output after)
    (stored : state.get (key id) ≠ none) (different : payer command ≠ some id) :
    after.get (key id) = state.get (key id) ∧ now after = now state := by
  obtain ⟨operation, parsed, executed⟩ := accepts_handle accepted
  unfold payer at different
  rw [parsed] at different
  cases operation with
  | create tokenId beneficiary total start cliff duration revocable =>
      obtain ⟨_, _, absent, rfl⟩ := accepts_created executed
      have apart : createdId command.submitter beneficiary tokenId start total ≠ id := by
        intro same
        rw [same] at absent
        exact stored absent
      rw [get_saved_ne _ apart, now_saved, now_debited]
      exact ⟨TokenPrism.get_head_withBalance state id.toHex (by decide) _ _ _, rfl⟩
  | release other =>
      have apart : other ≠ id := fun same => different (congrArg some same)
      obtain ⟨_, _, _, _, credited, rfl⟩ := accepts_release executed
      rw [get_saved_ne _ apart, now_saved]
      exact ⟨get_of_credited credited id, now_of_credited credited⟩
  | revoke other =>
      have apart : other ≠ id := fun same => different (congrArg some same)
      obtain ⟨_, _, _, _, _, owing, refunding, rfl⟩ := accepts_revoke executed
      rw [get_saved_ne _ apart, now_saved]
      exact ⟨(get_of_credited refunding id).trans (get_of_credited owing id),
        (now_of_credited refunding).trans (now_of_credited owing)⟩

/-- A command that pays out of the schedule keeps the account. -/
theorem accounted_own (accounted : Accounted origin id state paid schedule)
    (accepted : Accepts (handle command) state output after) (same : payer command = some id) :
    ∃ updated, Accounted origin id after (paid + gain schedule.tokenId state after) updated := by
  obtain ⟨operation, parsed, executed⟩ := accepts_handle accepted
  unfold payer at same
  rw [parsed] at same
  cases operation with
  | create => cases same
  | release other =>
      cases same
      obtain ⟨updated, released, _⟩ := accounted_release accounted executed
      exact ⟨updated, released⟩
  | revoke other =>
      cases same
      obtain ⟨updated, revoked, _⟩ := accounted_revoke accounted executed
      exact ⟨updated, revoked⟩

/-- Any other command keeps it as it is. -/
theorem accounted_other (accounted : Accounted origin id state paid schedule)
    (accepted : Accepts (handle command) state output after) (different : payer command ≠ some id) :
    Accounted origin id after paid schedule := by
  have present : state.get (key id) ≠ none := by
    intro none
    have read := accounted.stored
    unfold StateTree.getJson at read
    rw [none] at read
    cases read
  obtain ⟨entry, clock⟩ := handle_elsewhere accepted present different
  refine accounted.frame entry ?_
  rw [clock]
  exact UInt64.le_refl _

/-- One move keeps the account, on the same terms. -/
theorem accounted_advance {books : StateTree × Nat} {move : Move}
    (accounted : ∃ schedule, Accounted origin id books.1 books.2 schedule)
    (permitted : Permitted id books move) :
    ∃ schedule, Accounted origin id (advance id origin.tokenId books move).1
      (advance id origin.tokenId books move).2 schedule := by
  obtain ⟨state, paid⟩ := books
  obtain ⟨schedule, accounted⟩ := accounted
  have named : schedule.tokenId = origin.tokenId := by
    rw [accounted.terms]
  cases move with
  | elapse later => exact ⟨schedule, accounted.frame permitted.1 permitted.2⟩
  | command command =>
      unfold advance
      dsimp only
      cases handled : (handle command).run.run state with
      | mk outcome after =>
          cases outcome with
          | error error =>
              have nothing : gain origin.tokenId state state = 0 := Nat.sub_self _
              rw [Prism.step_of_error handled, nothing, Nat.add_zero, ite_self]
              exact ⟨schedule, accounted⟩
          | ok output =>
              have accepted : Accepts (handle command) state output after := handled
              have moved : prism.step state command = after := Prism.step_eq accepted
              rw [moved]
              by_cases same : payer command = some id
              · rw [if_pos same, ← named]
                exact accounted_own accounted accepted same
              · rw [if_neg same]
                exact ⟨schedule, accounted_other accounted accepted same⟩

/-- Every run of permitted moves keeps the account. -/
theorem accounted_run {books : StateTree × Nat} {moves : List Move}
    (accounted : ∃ schedule, Accounted origin id books.1 books.2 schedule)
    (permitted : Run.Along (advance id origin.tokenId) (Permitted id) books moves) :
    ∃ schedule, Accounted origin id (Run.run (advance id origin.tokenId) books moves).1
      (Run.run (advance id origin.tokenId) books moves).2 schedule := by
  let holds (books : StateTree × Nat) : Prop :=
    ∃ schedule, Accounted origin id books.1 books.2 schedule
  have preserved : ∀ books move, holds books → Permitted id books move →
      holds (advance id origin.tokenId books move) :=
    fun books move kept allowed => accounted_advance kept allowed
  exact Run.invariant _ preserved accounted permitted

/-! ### What the schedule pays -/

/-- Only the parties of the schedule gain from it. -/
theorem balance_paid (accounted : Accounted origin id state paid schedule)
    (accepted : Accepts (handle command) state output after) (same : payer command = some id)
    {who : PartyId} (stranger : who ≠ schedule.funder ∧ who ≠ schedule.beneficiary)
    (token : Hash) : balance after token who = balance state token who := by
  obtain ⟨operation, parsed, executed⟩ := accepts_handle accepted
  unfold payer at same
  rw [parsed] at same
  cases operation with
  | create => cases same
  | release other =>
      cases same
      obtain ⟨found, middle, stored, _, credited, rfl⟩ := accepts_release executed
      rw [accounted.stored] at stored
      cases stored
      rw [balance_saved, credited.others token who (.inr stranger.2)]
  | revoke other =>
      cases same
      obtain ⟨found, middle, last, stored, _, owing, refunding, rfl⟩ := accepts_revoke executed
      rw [accounted.stored] at stored
      cases stored
      rw [balance_saved, refunding.others token who (.inr stranger.1),
        owing.others token who (.inr stranger.2)]

/-- What is due is paid out unless the beneficiary's balance would overflow. -/
theorem release_due (accounted : Accounted origin id state paid schedule)
    (standing : schedule.revoked = false) (due : schedule.releasable (now state) ≠ 0)
    (fits : (balance state schedule.tokenId schedule.beneficiary).val +
      (schedule.releasable (now state)).val < 2 ^ 128) (command : Command) :
    ∃ output after, Accepts (release command id) state output after := by
  obtain ⟨middle, credited⟩ := TokenPrism.credit_accepted fits
  refine ⟨.single (event command (.released id schedule.beneficiary
    (schedule.releasable (now state)))) 1500, middle.putJson (key id) { schedule with
      released := schedule.released.saturatingAdd (schedule.releasable (now state)) }, ?_⟩
  unfold release
  refine accepts_bind.mpr ⟨schedule, state, accepts_load.mpr ⟨accounted.stored, rfl⟩, ?_⟩
  rw [standing, if_neg Bool.false_ne_true]
  refine accepts_bind.mpr ⟨state, state, accepts_get.mpr ⟨rfl, rfl⟩, ?_⟩
  dsimp only
  rw [if_neg due]
  refine accepts_bind.mpr ⟨(), middle, credited, ?_⟩
  exact accepts_bind.mpr ⟨(), _, accepts_modify.mpr rfl, accepts_pure.mpr ⟨rfl, rfl⟩⟩

/-- The account of a schedule as it stands, and what its next payments would bring. -/
structure PaysTotal (origin : Schedule) (id : Hash) (state : StateTree) (paid : Nat)
    (schedule : Schedule) : Prop where
  stored : state.getJson Schedule (key id) = .ok (some schedule)
  terms : schedule =
    { origin with
      released := schedule.released
      revoked := schedule.revoked }
  monotone : ∀ early late : UInt64, early ≤ late →
    (schedule.vested early).val ≤ (schedule.vested late).val
  bounded : ∀ time, (schedule.vested time).val ≤ schedule.total.val
  within : schedule.released.val ≤ (schedule.vested (now state)).val
  covered : paid ≤ schedule.total.val
  settled : schedule.revoked = true → paid = schedule.total.val
  revoking : ∀ command output after, Accepts (revoke command id) state output after →
    paid + gain schedule.tokenId state after = schedule.total.val
  releasing : ∀ command output after, Accepts (release command id) state output after →
    (schedule.vested (now state)).val = schedule.total.val →
      paid + gain schedule.tokenId state after = schedule.total.val
  due : (schedule.vested (now state)).val = schedule.total.val → paid < schedule.total.val →
    (balance state schedule.tokenId schedule.beneficiary).val + (schedule.total.val - paid) <
      2 ^ 128 → ∀ command, ∃ output after, Accepts (release command id) state output after
  parties : ∀ command output after, Accepts (handle command) state output after →
    payer command = some id → ∀ who, who ≠ schedule.funder ∧ who ≠ schedule.beneficiary →
      ∀ token, balance after token who = balance state token who

theorem Accounted.paysTotal (accounted : Accounted origin id state paid schedule) :
    PaysTotal origin id state paid schedule := by
  have bound := schedule.vested_le (now state)
  have within := accounted.within
  constructor
  · exact accounted.stored
  · exact accounted.terms
  · exact fun _ _ => schedule.vested_mono
  · exact schedule.vested_le
  · exact accounted.within
  · cases standing : schedule.revoked with
    | true => exact le_of_eq (accounted.settled standing)
    | false =>
        rw [accounted.running standing]
        exact within.trans bound
  · exact accounted.settled
  · intro command output after accepted
    obtain ⟨updated, settled, _, revoked⟩ := accounted_revoke accounted accepted
    rw [settled.settled revoked, settled.terms, accounted.terms]
  · intro command output after accepted full
    obtain ⟨updated, released, _, standing, caught⟩ := accounted_release accounted accepted
    rw [released.running standing, caught, full]
  · intro full short fits
    have standing : schedule.revoked = false := by
      cases revoked : schedule.revoked with
      | true => exact absurd (accounted.settled revoked) short.ne
      | false => rfl
    have owed : (schedule.releasable (now state)).val = schedule.total.val - paid := by
      unfold Schedule.releasable
      rw [U128.saturatingSub_val, full, accounted.running standing]
    rw [← owed] at fits
    apply release_due accounted standing _ fits
    rw [U128.pos_iff, owed]
    omega
  · intro command output after accepted same who stranger token
    exact balance_paid accounted accepted same stranger token

variable {tokenId : Hash} {beneficiary : PartyId} {total : U128} {start cliff duration : UInt64}
  {revocable : Bool} {opened : StateTree}

/-- Along every run from its creation, a schedule pays out its total and no more. -/
theorem vesting_pays_total (created : Accepts (create command tokenId beneficiary total start cliff
    duration revocable) state output opened) (moves : List Move)
    (permitted : Run.Along
      (advance (createdId command.submitter beneficiary tokenId start total) tokenId)
      (Permitted (createdId command.submitter beneficiary tokenId start total)) (opened, 0) moves) :
    let books := Run.run
      (advance (createdId command.submitter beneficiary tokenId start total) tokenId) (opened, 0)
      moves
    ∃ schedule, PaysTotal (createdSchedule command.submitter tokenId beneficiary total start cliff
      duration revocable) (createdId command.submitter beneficiary tokenId start total) books.1
      books.2 schedule := by
  obtain ⟨_, _, _, rfl⟩ := accepts_created created
  let origin := createdSchedule command.submitter tokenId beneficiary total start cliff duration
    revocable
  have initially : Accounted origin origin.id
      ((TokenPrism.debited state tokenId command.submitter total).putJson (key origin.id) origin) 0
      origin := by
    refine ⟨StateTree.getJson_putJson _ _ _, rfl, Nat.zero_le _, fun _ => rfl, ?_⟩
    intro revoked
    exact absurd revoked Bool.false_ne_true
  obtain ⟨schedule, accounted⟩ :=
    @accounted_run _ origin.id _ origin (_, 0) moves ⟨origin, initially⟩ permitted
  exact ⟨schedule, accounted.paysTotal⟩

end Runs

section Fixed

attribute [local instance] SerdeJson.compact Blake3.polynomial

def payout : Command :=
  { prism := "vesting"
    submitter := ⟨"carol"⟩
    visibility := .pub
    payload := toVec (VestingCommand.release (createdId ⟨"alice"⟩ ⟨"bob"⟩ .zero 1700000000 1000))
    nonce := 0 }

/-- The theorem at the grant of a thousand units, after four years and a release. -/
theorem vesting_pays_total_grant :
    ∃ (opened : StateTree) (schedule : Schedule),
      let books := Run.run (advance (createdId ⟨"alice"⟩ ⟨"bob"⟩ .zero 1700000000 1000) .zero)
        (opened, 0) [.elapse (opened.putJson "chain/now" (1826144000 : UInt64)), .command payout]
      PaysTotal (createdSchedule ⟨"alice"⟩ .zero ⟨"bob"⟩ 1000 1700000000 0 126144000 false)
        (createdId ⟨"alice"⟩ ⟨"bob"⟩ .zero 1700000000 1000) books.1 books.2 schedule := by
  obtain ⟨output, opened, created⟩ := accepts_grant 1000 (by decide) (by decide)
  have apart : Keys.Apart schedPrefix "chain/" := by decide
  have clock : now opened = 0 := by
    have balances : Keys.Apart "chain/" TokenPrism.balPrefix := by decide
    obtain ⟨_, _, _, rfl⟩ := accepts_created created
    rw [now_saved, now_debited]
    exact now_of_get (TokenPrism.get_head_withBalance .empty "now" balances _ _ _)
  have later : now (opened.putJson "chain/now" (1826144000 : UInt64)) = 1826144000 := by
    unfold now
    rw [StateTree.getJson?_putJson]
    rfl
  have permitted : Permitted (createdId ⟨"alice"⟩ ⟨"bob"⟩ .zero 1700000000 1000) (opened, 0)
      (.elapse (opened.putJson "chain/now" (1826144000 : UInt64))) := by
    refine ⟨StateTree.get_put_ne _ _ fun same => ?_, ?_⟩
    · exact apart.append_ne _ "now" same.symm
    · rw [clock, later]
      decide
  obtain ⟨schedule, pays⟩ := vesting_pays_total created
    [.elapse (opened.putJson "chain/now" (1826144000 : UInt64)), .command payout]
    ⟨permitted, trivial, trivial⟩
  exact ⟨opened, schedule, pays⟩

end Fixed

end VestingPrism

end Veilux
