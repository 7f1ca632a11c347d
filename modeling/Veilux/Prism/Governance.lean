/-
Stake-weighted votes.  A ballot counts the voting power its voter has at that moment,
and nothing holds the stake behind it afterwards.  While no party that has voted on
an active proposal gives power up, the tally of a proposal stays within the stake
that is bonded; a stake that is withdrawn, handed on and bonded again votes twice.
-/

import Veilux.Prism.StakeAccounts

namespace Veilux

namespace StakingPrism

open Mirror
open TokenPrism (nativeTokenId pairText)

namespace Books

/-! ### Voting power -/

def power (books : Books) (who : PartyId) : Nat := books.bond who + books.incoming who

variable {books after : Books} {result : Unit}

theorem bonds_finite (accounts : Accounts books) : (Function.support books.bond).Finite := by
  apply accounts.finiteLocks.subset
  intro who nonzero
  rw [Function.mem_support] at nonzero ⊢
  have plain := accounts.plain_of_bond (Nat.pos_of_ne_zero nonzero)
  have lock := accounts.covered ⟨who, plain⟩
  unfold holding at lock
  change books.lock who = books.bond who + _ at lock
  omega

theorem made_finite (accounts : Accounts books) :
    (Function.support fun who : Plain => Total.total (books.given who)).Finite := by
  apply (accounts.finiteLocks.preimage Subtype.val_injective.injOn).subset
  intro who nonzero
  rw [Function.mem_support] at nonzero
  rw [Set.mem_preimage, Function.mem_support]
  have lock := accounts.covered who
  unfold holding at lock
  omega

theorem table_finite (records : Records books) :
    (Function.support fun pair : PartyId × Plain => books.given pair.2 pair.1).Finite := by
  apply (records.finiteGiven.preimage (f := fun pair : PartyId × Plain =>
    pairText pair.2.val pair.1) ?_).subset
  · exact fun _ nonzero => nonzero
  · intro pair _ other _ same
    obtain ⟨makers, receivers⟩ :=
      TokenPrism.pairText_owners pair.2.property other.2.property same
    exact Prod.ext receivers (Subtype.ext makers)

theorem incoming_finite (records : Records books) : (Function.support books.incoming).Finite := by
  apply ((table_finite records).image Prod.fst).subset
  intro validator nonzero
  rw [Function.mem_support, records.received validator] at nonzero
  by_contra outside
  apply nonzero
  have nothing : (fun who : Plain => books.given who validator) = fun _ => 0 := by
    funext who
    by_contra positive
    exact outside ⟨(validator, who), positive, rfl⟩
  rw [nothing, Total.total_zero]

theorem power_finite (accounts : Accounts books) : (Function.support books.power).Finite := by
  apply ((bonds_finite accounts).union (incoming_finite accounts.toRecords)).subset
  intro who nonzero
  rw [Function.mem_support] at nonzero
  unfold power at nonzero
  by_cases bonded : books.bond who = 0
  · refine .inr ?_
    rw [Function.mem_support]
    omega
  · exact .inl bonded

/-- All voting power together is the stake that is locked: what a validator has
received is what others have put up. -/
theorem Accounts.total_power (accounts : Accounts books) :
    Total.total books.power = Total.total books.lock := by
  have received : books.incoming = fun validator =>
      Total.total fun who : Plain => books.given who validator := funext accounts.received
  have exchanged : Total.total books.incoming =
      Total.total fun who : Plain => Total.total (books.given who) := by
    rw [received]
    exact Total.total_comm (table_finite accounts.toRecords)
  have own : Total.total (fun who : Plain => books.bond who) = Total.total books.bond := by
    apply Total.total_subtype
    intro who reserved
    exact accounts.outside who (Bool.eq_true_of_not_eq_false reserved)
  have locked : Total.total (fun who : Plain => books.lock who) = Total.total books.lock := by
    apply Total.total_subtype
    intro who reserved
    exact accounts.unlocked who (Bool.eq_true_of_not_eq_false reserved)
  have held : (fun who : Plain => books.lock who) =
      fun who : Plain => books.bond who + Total.total (books.given who) :=
    funext accounts.covered
  have split : Total.total (fun who : Plain => books.bond who + Total.total (books.given who)) =
      Total.total (fun who : Plain => books.bond who) +
        Total.total fun who : Plain => Total.total (books.given who) := by
    apply Total.total_add _ (made_finite accounts)
    exact (bonds_finite accounts).preimage Subtype.val_injective.injOn
  calc Total.total books.power = Total.total books.bond + Total.total books.incoming :=
        Total.total_add (bonds_finite accounts) (incoming_finite accounts.toRecords)
    _ = Total.total books.lock := by
        rw [exchanged, ← own, ← locked, held, split]

/-- Voting power does not wrap. -/
theorem Accounts.votingPower_val (accounts : Accounts books) (who : PartyId) :
    (books.record who).votingPower.val = books.power who := by
  have part := Total.le_total (power_finite accounts) who
  have small := (accounts.small who).2
  rw [accounts.total_power] at part
  unfold StakeRecord.votingPower
  rw [Fin.val_add]
  apply Nat.mod_eq_of_lt
  change books.power who < 2 ^ 128
  omega

/-! ### Giving power up -/

/-- The parties that an operation takes voting power from. -/
def Releases (books : Books) (me : PartyId) : StakingCommand → PartyId → Prop
  | .unstake amount, who => amount ≠ 0 ∧ who = me
  | .undelegate validator amount, who => amount ≠ 0 ∧ who = validator
  | .slash proof, who => 0 < books.penalty proof.offender ∧ who = proof.offender
  | .slashQuorum proof, who => 0 < books.penalty proof.offender ∧ who = proof.offender
  | _, _ => False

theorem power_withRecord (record : StakeRecord) (who : PartyId) :
    (books.withRecord record).power who =
      if who = record.owner then record.selfBonded.val + record.delegatedIn.val
      else books.power who := by
  unfold power bond incoming
  rw [record_withRecord]
  split <;> rfl

/-- What every operation on stakes leaves alone. -/
structure SameBallots (books after : Books) : Prop where
  opened : after.opened = books.opened
  proposal : after.proposal = books.proposal
  voted : after.voted = books.voted

theorem updateLock_ballots {me : PartyId} {delta : Int}
    (followed : Yields (Sketch.updateLock me delta) books result after) :
    SameBallots books after := by
  obtain ⟨_, rfl⟩ := yields_updateLock.mp followed
  exact ⟨rfl, rfl, rfl⟩

theorem stake_ballots {me : PartyId} {amount : U128}
    (ended : Yields (Sketch.stake me amount) books result after) : SameBallots books after := by
  obtain ⟨_, _, followed⟩ := yields_stake.mp ended
  obtain ⟨opened, proposal, voted⟩ := updateLock_ballots followed
  exact ⟨opened, proposal, voted⟩

theorem unstake_ballots {me : PartyId} {amount : U128}
    (ended : Yields (Sketch.unstake me amount) books result after) : SameBallots books after := by
  obtain ⟨_, _, followed⟩ := yields_unstake.mp ended
  obtain ⟨opened, proposal, voted⟩ := updateLock_ballots followed
  exact ⟨opened, proposal, voted⟩

theorem delegate_ballots {me validator : PartyId} {amount : U128}
    (ended : Yields (Sketch.delegate me validator amount) books result after) :
    SameBallots books after := by
  obtain ⟨_, _, followed⟩ := yields_delegate.mp ended
  obtain ⟨opened, proposal, voted⟩ := updateLock_ballots followed
  exact ⟨opened, proposal, voted⟩

theorem undelegate_ballots {me validator : PartyId} {amount : U128}
    (ended : Yields (Sketch.undelegate me validator amount) books result after) :
    SameBallots books after := by
  obtain ⟨_, _, followed⟩ := yields_undelegate.mp ended
  obtain ⟨opened, proposal, voted⟩ := updateLock_ballots followed
  exact ⟨opened, proposal, voted⟩

theorem punish_ballots {offence : Hash} {offender : PartyId}
    (ended : Yields (Sketch.punish offence offender) books result after) :
    SameBallots books after := by
  obtain ⟨_, ⟨_, rfl⟩ | ⟨_, _, middle, followed, rfl⟩⟩ := yields_punish.mp ended
  · exact ⟨rfl, rfl, rfl⟩
  · obtain ⟨opened, proposal, voted⟩ := updateLock_ballots followed
    exact ⟨opened, proposal, voted⟩

theorem power_relocked {me : PartyId} {delta : Int}
    (followed : Yields (Sketch.updateLock me delta) books result after) :
    after.power = books.power := by
  obtain ⟨_, rfl⟩ := yields_updateLock.mp followed
  rfl

section Operations

variable {me : Plain} {validator : PartyId} {amount : U128}

theorem power_stake (accounts : Accounts books)
    (ended : Yields (Sketch.stake me.val amount) books result after) (who : PartyId) :
    books.power who ≤ after.power who := by
  obtain ⟨_, covered, followed⟩ := yields_stake.mp ended
  have room := accounts.room covered
  have part := (accounts.small me).1
  have lock := accounts.covered me
  unfold holding at lock
  have raised : ((books.record me).selfBonded + amount).val = books.bond me + amount.val := by
    rw [Fin.val_add]
    exact Nat.mod_eq_of_lt (by change books.bond me + amount.val < 2 ^ 128; omega)
  rw [power_relocked followed]
  unfold bonding
  rw [power_withRecord]
  split
  · rename_i owner
    have same : who = me := owner.trans (accounts.owned me)
    change _ ≤ ((books.record me).selfBonded + amount).val + books.incoming me
    rw [same, raised]
    unfold power
    omega
  · exact le_rfl

theorem power_delegate (accounts : Accounts books)
    (ended : Yields (Sketch.delegate me.val validator amount) books result after) (who : PartyId) :
    books.power who ≤ after.power who := by
  obtain ⟨_, covered, followed⟩ := yields_delegate.mp ended
  have room := accounts.room covered
  have below := accounts.incoming_le validator
  have raised : ((books.record validator).delegatedIn + amount).val =
      books.incoming validator + amount.val := by
    rw [Fin.val_add]
    exact Nat.mod_eq_of_lt (by change books.incoming validator + amount.val < 2 ^ 128; omega)
  rw [power_relocked followed]
  unfold delegating
  rw [power_withRecord]
  split
  · rename_i owner
    have same : who = validator := owner.trans (accounts.owned validator)
    change _ ≤ books.bond validator + ((books.record validator).delegatedIn + amount).val
    rw [same, raised]
    unfold power
    omega
  · exact le_rfl

theorem power_unstake (accounts : Accounts books)
    (ended : Yields (Sketch.unstake me.val amount) books result after) {who : PartyId}
    (kept : ¬ (amount ≠ 0 ∧ who = me)) : books.power who ≤ after.power who := by
  obtain ⟨_, _, followed⟩ := yields_unstake.mp ended
  rw [power_relocked followed]
  unfold unbonding
  rw [power_withRecord]
  split
  · rename_i owner
    have same : who = me := owner.trans (accounts.owned me)
    have nothing : amount = 0 := by_contra fun some => kept ⟨some, same⟩
    change _ ≤ ((books.record me).selfBonded - amount).val + books.incoming me
    rw [same, nothing, sub_zero]
    exact le_rfl
  · exact le_rfl

theorem power_undelegate (accounts : Accounts books)
    (ended : Yields (Sketch.undelegate me.val validator amount) books result after) {who : PartyId}
    (kept : ¬ (amount ≠ 0 ∧ who = validator)) : books.power who ≤ after.power who := by
  obtain ⟨_, _, followed⟩ := yields_undelegate.mp ended
  rw [power_relocked followed]
  unfold undelegating
  rw [power_withRecord]
  split
  · rename_i owner
    have same : who = validator := owner.trans (accounts.owned validator)
    have nothing : amount = 0 := by_contra fun some => kept ⟨some, same⟩
    change _ ≤ books.bond validator +
      ((books.record validator).delegatedIn.saturatingSub amount).val
    rw [same, nothing, U128.saturatingSub_val]
    exact le_rfl
  · exact le_rfl

theorem power_punish {offence : Hash} {offender : PartyId} (accounts : Accounts books)
    (ended : Yields (Sketch.punish offence offender) books result after) {who : PartyId}
    (kept : ¬ (0 < books.penalty offender ∧ who = offender)) :
    books.power who ≤ after.power who := by
  obtain ⟨_, ⟨_, rfl⟩ | ⟨positive, _, middle, followed, rfl⟩⟩ := yields_punish.mp ended
  · exact le_rfl
  · change _ ≤ middle.power who
    rw [power_relocked followed]
    unfold burning
    rw [power_withRecord]
    split
    · rename_i owner
      exact absurd ⟨positive, owner.trans (accounts.owned offender)⟩ kept
    · exact le_rfl

end Operations

/-! ### Tallies -/

/-- The present power of those who have voted on a proposal. -/
def counted (books : Books) (id : Hash) (who : PartyId) : Nat :=
  if books.voted id who then books.power who else 0

def Active (books : Books) (id : Hash) (proposal : Proposal) : Prop :=
  books.proposal id = some proposal ∧ proposal.status = .active

structure Tallied (books : Books) : Prop where
  opened : ∀ id proposal, books.proposal id = some proposal → books.opened id = true
  bounded : ∀ id proposal, books.Active id proposal →
    proposal.yesPower.val + proposal.noPower.val ≤ Total.total (books.counted id)

theorem counted_le (books : Books) (id : Hash) (who : PartyId) :
    books.counted id who ≤ books.power who := by
  unfold counted
  split
  · exact le_rfl
  · exact Nat.zero_le _

theorem counted_finite (accounts : Accounts books) (id : Hash) :
    (Function.support (books.counted id)).Finite := by
  apply (power_finite accounts).subset
  intro who nonzero
  have bound := counted_le books id who
  rw [Function.mem_support] at nonzero ⊢
  omega

theorem Accounts.total_counted_le (accounts : Accounts books) (id : Hash) :
    Total.total (books.counted id) ≤ books.total.val := by
  rw [accounts.summed, ← accounts.total_power]
  exact Total.total_le_total Function.injective_id (counted_le books id) (power_finite accounts)

/-- Stakes may move as long as no voter on an active proposal loses power. -/
theorem Tallied.carry (tallied : Tallied books) (same : SameBallots books after)
    (accounts : Accounts after)
    (kept : ∀ who id proposal, books.Active id proposal → books.voted id who = true →
      books.power who ≤ after.power who) : Tallied after := by
  constructor
  · intro id proposal found
    rw [same.proposal] at found
    rw [same.opened]
    exact tallied.opened id proposal found
  · rintro id proposal ⟨found, active⟩
    rw [same.proposal] at found
    refine (tallied.bounded id proposal ⟨found, active⟩).trans ?_
    apply Total.total_le_total Function.injective_id _ (counted_finite accounts id)
    intro who
    change books.counted id who ≤ after.counted id who
    unfold counted
    rw [same.voted]
    split
    · rename_i cast
      exact kept who id proposal ⟨found, active⟩ cast
    · exact le_rfl

theorem Tallied.propose {proposal : Proposal} (tallied : Tallied books)
    (empty : proposal.yesPower = 0 ∧ proposal.noPower = 0)
    (ended : Yields (Sketch.propose proposal) books result after) : Tallied after := by
  obtain ⟨_, _, rfl⟩ := yields_propose.mp ended
  constructor
  · intro id stored found
    simp only [withProposal, Function.update_apply] at found ⊢
    split
    · rfl
    · rename_i other
      rw [if_neg other] at found
      exact tallied.opened id stored found
  · rintro id stored ⟨found, active⟩
    simp only [withProposal, Function.update_apply] at found
    split at found
    · cases found
      rw [empty.1, empty.2]
      exact Nat.zero_le _
    · exact tallied.bounded id stored ⟨found, active⟩

theorem Tallied.finalize {height : UInt64} {id : Hash} (tallied : Tallied books)
    (ended : Yields (Sketch.finalize height id) books result after) : Tallied after := by
  obtain ⟨proposal, found, _, _, rfl⟩ := yields_finalize.mp ended
  constructor
  · intro other stored read
    simp only [withProposal, Function.update_apply] at read ⊢
    split
    · rfl
    · rename_i different
      rw [if_neg different] at read
      exact tallied.opened other stored read
  · rintro other stored ⟨read, active⟩
    simp only [withProposal, Function.update_apply] at read
    split at read
    · cases read
      unfold Proposal.closed at active
      dsimp only at active
      split at active <;> cases active
    · exact tallied.bounded other stored ⟨read, active⟩

theorem tally_counted (proposal : Proposal) (approve : Bool) (power : U128)
    (fits : proposal.yesPower.val + proposal.noPower.val + power.val < 2 ^ 128) :
    (proposal.counted approve power).yesPower.val + (proposal.counted approve power).noPower.val =
      proposal.yesPower.val + proposal.noPower.val + power.val := by
  unfold Proposal.counted
  cases approve with
  | true =>
      change (proposal.yesPower + power).val + proposal.noPower.val = _
      rw [Fin.val_add, Nat.mod_eq_of_lt (by omega)]
      omega
  | false =>
      change proposal.yesPower.val + (proposal.noPower + power).val = _
      rw [Fin.val_add, Nat.mod_eq_of_lt (by omega)]
      omega

/-- A ballot adds the voter's power on both sides. -/
theorem Tallied.vote {me : PartyId} {height : UInt64} {id : Hash} {approve : Bool}
    (tallied : Tallied books) (accounts : Accounts books)
    (ended : Yields (Sketch.vote me height id approve) books result after) : Tallied after := by
  obtain ⟨proposal, found, active, _, fresh, _, rfl⟩ := yields_vote.mp ended
  have before := tallied.bounded id proposal ⟨found, active⟩
  let last := (books.withBallot id me).withProposal id
    (proposal.counted approve (books.record me).votingPower)
  have powers : last.power = books.power := rfl
  have votes : last.voted = (books.withBallot id me).voted := rfl
  have mine : last.counted id = Function.update (books.counted id) me (books.power me) := by
    funext who
    unfold counted
    rw [powers, votes]
    simp only [withBallot, Function.update_self, Function.update_apply]
    split
    · rename_i self
      rw [self, if_pos rfl]
    · rfl
  have others : ∀ other, other ≠ id → last.counted other = books.counted other := by
    intro other different
    funext who
    unfold counted
    rw [powers, votes]
    simp only [withBallot, Function.update_of_ne different]
  have accounts' : Accounts last := (accounts.withBallot id me).withProposal id _
  have sum := Total.total_update (counted_finite accounts id) me (books.power me)
  have zero : books.counted id me = 0 := by
    unfold counted
    rw [fresh]
    rfl
  have limit := accounts'.total_counted_le id
  have small := (accounts'.small me).2
  rw [accounts'.summed, mine] at limit
  change Tallied last
  constructor
  · intro other stored read
    simp only [last, withProposal, Function.update_apply] at read ⊢
    split
    · rfl
    · rename_i different
      rw [if_neg different] at read
      exact tallied.opened other stored read
  · rintro other stored ⟨read, still⟩
    by_cases same : other = id
    · subst same
      simp only [last, withProposal, Function.update_self, Option.some.injEq] at read
      subst read
      have value := accounts.votingPower_val me
      rw [tally_counted _ _ _ (by omega), mine, value]
      omega
    · simp only [last, withProposal, Function.update_of_ne same] at read
      rw [others other same]
      exact tallied.bounded other stored ⟨read, still⟩

theorem Tallied.execute [SerdeJson] [Blake3] [Ed25519] {command : Command} {height : UInt64}
    {operation : StakingCommand} (plain : Node.reserved command.submitter = false)
    (accounts : Accounts books) (tallied : Tallied books)
    (kept : ∀ who id proposal, books.Releases command.submitter operation who →
      books.Active id proposal → books.voted id who = false)
    (ended : Yields (Sketch.execute command height operation) books result after) :
    Tallied after := by
  let me : Plain := ⟨command.submitter, plain⟩
  have accounts' := accounts.execute plain ended
  have held : ∀ who id proposal, books.Active id proposal → books.voted id who = true →
      ¬ books.Releases command.submitter operation who := by
    intro who id proposal active cast released
    rw [kept who id proposal released active] at cast
    cases cast
  cases operation with
  | stake amount =>
      have same := stake_ballots ended
      refine tallied.carry same accounts' fun who _ _ _ _ => ?_
      exact power_stake accounts (show Yields (Sketch.stake me.val amount) _ _ _ from ended) who
  | unstake amount =>
      have same := unstake_ballots ended
      refine tallied.carry same accounts' fun who id proposal active cast => ?_
      exact power_unstake accounts (show Yields (Sketch.unstake me.val amount) _ _ _ from ended)
        (held who id proposal active cast)
  | delegate validator amount =>
      have same := delegate_ballots ended
      refine tallied.carry same accounts' fun who _ _ _ _ => ?_
      exact power_delegate accounts
        (show Yields (Sketch.delegate me.val validator amount) _ _ _ from ended) who
  | undelegate validator amount =>
      have same := undelegate_ballots ended
      refine tallied.carry same accounts' fun who id proposal active cast => ?_
      exact power_undelegate accounts
        (show Yields (Sketch.undelegate me.val validator amount) _ _ _ from ended)
        (held who id proposal active cast)
  | propose title description votingPeriod => exact tallied.propose ⟨rfl, rfl⟩ ended
  | vote proposalId approve => exact tallied.vote accounts ended
  | finalize proposalId => exact tallied.finalize ended
  | slash proof =>
      obtain ⟨_, _, _, _, _, _, _, _, _, _, _, _, _, punished⟩ := yields_slash.mp ended
      refine tallied.carry (punish_ballots punished) accounts' fun who id proposal active cast => ?_
      exact power_punish accounts punished (held who id proposal active cast)
  | slashQuorum proof =>
      obtain ⟨_, _, _, _, _, _, _, punished⟩ := yields_slashQuorum.mp ended
      refine tallied.carry (punish_ballots punished) accounts' fun who id proposal active cast => ?_
      exact power_punish accounts punished (held who id proposal active cast)
  | fundRewards amount =>
      obtain ⟨_, _, _, rfl⟩ := yields_fundRewards.mp ended
      exact tallied.carry ⟨rfl, rfl, rfl⟩ accounts' fun _ _ _ _ _ => le_rfl
  | claimRewards =>
      obtain ⟨_, rfl⟩ := yields_claimRewards.mp ended
      exact tallied.carry ⟨rfl, rfl, rfl⟩ accounts' fun _ _ _ _ _ => le_rfl

/-! ### Transfers -/

/-- Both balances are read before either is written. -/
def paid (books : Books) (payer payee : PartyId) (amount : U128) : Books :=
  (books.withBalance payer (books.balance payer - amount)).withBalance payee
    (books.balance payee + amount)

def Affords (books : Books) (payer payee : PartyId) (amount : U128) : Prop :=
  books.issued = true ∧ amount ≤ books.balance payer ∧
    (books.balance payee).val + amount.val < 2 ^ 128

instance (books : Books) (payer payee : PartyId) (amount : U128) :
    Decidable (books.Affords payer payee amount) :=
  inferInstanceAs (Decidable (_ ∧ _ ∧ _))

theorem Accounts.pay {payer : Plain} {payee : PartyId} {amount : U128} (accounts : Accounts books)
    (affords : books.Affords payer payee amount)
    (small : Total.total (books.paid payer payee amount).purse < 2 ^ 127) :
    Accounts (books.paid payer payee amount) := by
  refine accounts.carry rfl rfl rfl rfl ?_ small
    (finite_withBalance (finite_withBalance accounts.finitePurses))
  unfold paid
  rw [purse_withBalance, Function.update_apply]
  split
  · rename_i same
    rw [Fin.val_add, Nat.mod_eq_of_lt affords.2.2, ← same]
    exact Nat.le_add_right _ _
  · rw [purse_withBalance, Function.update_of_ne payer.ne_escrow.symm]

end Books

def Sketch.transfer (payer payee : PartyId) (amount : U128) : BooksM Unit := do
  if ¬ (← get).Affords payer payee amount then failure
  modify fun books => books.paid payer payee amount

/-! ### Runs with transfers -/

/-- A staking command, or a token command that moves native tokens. -/
inductive Turn where
  | staking (command : Command)
  | transfer (command : Command)

namespace Turn

def submitter : Turn → PartyId
  | .staking command => command.submitter
  | .transfer command => command.submitter

variable [SerdeJson] [Blake3]

def Finalizes (id : Hash) : Turn → Prop
  | .staking command =>
      fromSlice StakingCommand (splitHeight command.payload).1 = .ok (.finalize id)
  | .transfer _ => False

/-- No party that has voted on an active proposal gives voting power up. -/
def Keeps (state : StateTree) : Turn → Prop
  | .staking command => ∀ operation,
      fromSlice StakingCommand (splitHeight command.payload).1 = .ok operation →
      ∀ who id proposal, (books state).Releases command.submitter operation who →
        (books state).Active id proposal → (books state).voted id who = false
  | .transfer _ => True

variable [Ed25519]

def Accepted (state : StateTree) : Turn → Prop
  | .staking command => StakingPrism.Accepted state command
  | .transfer command => TokenPrism.Accepted state command ∧ ∃ target amount,
      fromSlice TokenCommand command.payload = .ok (.transfer nativeTokenId target amount)

def step (state : StateTree) : Turn → StateTree
  | .staking command => StakingPrism.step state command
  | .transfer command => TokenPrism.step state command

end Turn

section Runs

variable [SerdeJson] [Blake3]

theorem books_moved (state : StateTree) (payer payee : PartyId) (amount : U128) :
    books (TokenPrism.moved state nativeTokenId payer payee amount) =
      (books state).paid payer payee amount := by
  unfold TokenPrism.moved Books.paid
  rw [books_withBalance, books_withBalance, books_balance, books_balance]

theorem issued_iff (state : StateTree) :
    (books state).issued = true ↔
      ∃ info, state.getJson TokenMeta (TokenPrism.metaKey nativeTokenId) = .ok (some info) := by
  change (state.getJson? TokenMeta (TokenPrism.metaKey nativeTokenId)).isSome = true ↔ _
  unfold StateTree.getJson?
  cases state.getJson TokenMeta (TokenPrism.metaKey nativeTokenId) with
  | error error =>
      constructor
      · intro impossible
        cases impossible
      · rintro ⟨_, impossible⟩
        cases impossible
  | ok found =>
      rw [Option.isSome_iff_exists]
      simp only [Except.ok.injEq]

theorem mirrors_transfer (state : StateTree) (command : Command) (target : PartyId) (amount : U128) :
    Mirrors books (fun _ => ()) (TokenPrism.transfer command nativeTokenId target amount)
      (Sketch.transfer command.submitter target amount) state := by
  refine Mirrors.guarded (fun books : Books => books.Affords command.submitter target amount)
    (fun books => books.paid command.submitter target amount) ?_ ?_
  · rintro ⟨issued, enough, fits⟩
    obtain ⟨info, found⟩ := (issued_iff state).mp issued
    obtain ⟨output, after, ran⟩ := @TokenPrism.transfer_accepted _ _ state command nativeTokenId
      target amount info found enough fits
    obtain ⟨_, _, _, last⟩ := TokenPrism.accepts_transfer ran
    refine ⟨output, after, ran, ?_⟩
    rw [last]
    exact books_moved state command.submitter target amount
  · intro output after ran
    obtain ⟨known, enough, fits, _⟩ := TokenPrism.accepts_transfer ran
    exact ⟨(issued_iff state).mpr known, enough, fits⟩

variable [Ed25519]

/-- An accepted turn is one operation on the books. -/
theorem books_turn {state : StateTree} {turn : Turn} (accepted : turn.Accepted state) :
    (∃ command operation, turn = .staking command ∧
      fromSlice StakingCommand (splitHeight command.payload).1 = .ok operation ∧
      Yields (Sketch.execute command (splitHeight command.payload).2 operation) (books state) ()
        (books (turn.step state))) ∨
    ∃ command target amount, turn = .transfer command ∧
      (books state).Affords command.submitter target amount ∧
      books (turn.step state) = (books state).paid command.submitter target amount := by
  cases turn with
  | staking command =>
      obtain ⟨operation, read, ended⟩ := books_step accepted
      exact .inl ⟨command, operation, rfl, read, ended⟩
  | transfer command =>
      obtain ⟨⟨output, after, ran⟩, target, amount, read⟩ := accepted
      refine .inr ⟨command, target, amount, rfl, ?_⟩
      have last : TokenPrism.step state command = after := TokenPrism.step_of_accepts ran
      obtain ⟨operation, parsed, executed⟩ := TokenPrism.accepts_handle ran
      rw [read] at parsed
      cases parsed
      obtain ⟨known, enough, fits, moved⟩ := TokenPrism.accepts_transfer executed
      refine ⟨⟨(issued_iff state).mpr known, enough, fits⟩, ?_⟩
      change books (TokenPrism.step state command) = _
      rw [last, moved]
      exact books_moved state command.submitter target amount

/-- One turn keeps accounts and tallies in step. -/
theorem tallied_turn {state : StateTree} {turn : Turn} (accepted : turn.Accepted state)
    (keeps : turn.Keeps state) (plain : Node.reserved turn.submitter = false)
    (small : TokenPrism.total (turn.step state) nativeTokenId < 2 ^ 127)
    (accounts : (books state).Accounts) (tallied : (books state).Tallied) :
    (books (turn.step state)).Accounts ∧ (books (turn.step state)).Tallied := by
  rcases books_turn accepted with ⟨command, operation, rfl, read, ended⟩ |
    ⟨command, target, amount, rfl, affords, same⟩
  · exact ⟨accounts.execute plain ended,
      tallied.execute plain accounts (keeps operation read) ended⟩
  · have limit : Total.total (books (Turn.step state (.transfer command))).purse < 2 ^ 127 := small
    rw [same] at limit ⊢
    have accounts' := @Books.Accounts.pay _ ⟨command.submitter, plain⟩ _ _ accounts affords limit
    exact ⟨accounts', tallied.carry ⟨rfl, rfl, rfl⟩ accounts' fun _ _ _ _ _ => le_rfl⟩

def ActiveAt (state : StateTree) (id : Hash) (proposal : Proposal) : Prop :=
  state.getJson? Proposal (proposalKey id) = some proposal ∧ proposal.status = .active

omit [Ed25519] in
theorem ActiveAt.of_books {state : StateTree} {id : Hash} {proposal : Proposal}
    (stored : (books state).proposal id = some proposal) (active : proposal.status = .active) :
    ActiveAt state id proposal :=
  ⟨stored, active⟩

/-- The tally of every proposal, when it is closed, is at most the stake that was
bonded at some moment of its active time. -/
def OneStakeOneVote (start : StateTree) (turns : List Turn) : Prop :=
  ∀ front last back, turns = front ++ last :: back → ∀ id proposal,
    ActiveAt (Run.run Turn.step start front) id proposal → last.Finalizes id →
    ∃ moment, moment <+: front ∧
      (∃ earlier, ActiveAt (Run.run Turn.step start moment) id earlier) ∧
      proposal.yesPower.val + proposal.noPower.val ≤
        (totalStake (Run.run Turn.step start moment)).val

/-- As long as voters keep their power while a proposal they voted on is active, every
bonded unit is counted at most once. -/
theorem one_stake_one_vote (start : StateTree) (turns : List Turn) (fresh : NoStake start)
    (quiet : ∀ id, start.getJson? Proposal (proposalKey id) = none)
    (accepted : Run.Along Turn.step (fun state turn => turn.Accepted state ∧ turn.Keeps state)
      start turns)
    (plain : ∀ turn ∈ turns, Node.reserved turn.submitter = false)
    (small : ∀ front, front <+: turns →
      TokenPrism.total (Run.run Turn.step start front) nativeTokenId < 2 ^ 127) :
    OneStakeOneVote start turns := by
  intro front last back split id proposal active _
  let holds : StateTree → Prop := fun state => (books state).Accounts ∧ (books state).Tallied
  let allowed : StateTree → Turn → Prop := fun state turn =>
    (turn.Accepted state ∧ turn.Keeps state) ∧ Node.reserved turn.submitter = false ∧
      TokenPrism.total (turn.step state) nativeTokenId < 2 ^ 127
  have initially : holds start := by
    refine ⟨fresh.accounts (small [] List.nil_prefix), ?_, ?_⟩
    · intro other stored found
      rw [show (books start).proposal other = none from quiet other] at found
      cases found
    · rintro other stored ⟨found, _⟩
      rw [show (books start).proposal other = none from quiet other] at found
      cases found
  have along : Run.Along Turn.step allowed start front := by
    rw [Run.along_iff_splits]
    intro before turn later inner
    have whole : turns = before ++ turn :: (later ++ last :: back) := by
      rw [split, inner, List.append_assoc, List.cons_append]
    refine ⟨(Run.along_iff_splits Turn.step).mp accepted before turn _ whole, ?_, ?_⟩
    · apply plain
      rw [whole]
      exact List.mem_append_right _ List.mem_cons_self
    · rw [← Run.run_snoc Turn.step]
      apply small
      rw [whole]
      exact ⟨later ++ last :: back, by rw [List.append_assoc, List.singleton_append]⟩
  have reached : holds (Run.run Turn.step start front) := by
    refine Run.invariant Turn.step ?_ initially along
    rintro state turn ⟨accounts, tallied⟩ ⟨⟨admitted, keeps⟩, proper, bounded⟩
    exact tallied_turn admitted keeps proper bounded accounts tallied
  obtain ⟨accounts, tallied⟩ := reached
  refine ⟨front, List.prefix_rfl, ⟨proposal, active⟩, ?_⟩
  exact (tallied.bounded id proposal active).trans (accounts.total_counted_le id)

/-! ### Planned turns -/

/-- An order to the prism, or a payment in native tokens. -/
inductive Deal where
  | staking (order : Order)
  | pay (payer payee : PartyId) (amount : U128)

namespace Deal

def turn : Deal → Turn
  | .staking order => .staking order.command
  | .pay payer payee amount => .transfer
      { prism := "token"
        submitter := payer
        visibility := .pub
        payload := toVec (TokenCommand.transfer nativeTokenId payee amount)
        nonce := 0 }

def sketch : Deal → BooksM Unit
  | .staking order => Sketch.execute order.command (UInt64.ofNat order.height) order.operation
  | .pay payer payee amount => Sketch.transfer payer payee amount

omit [Ed25519] in
theorem finalizes {order : Order} {id : Hash} (closes : order.operation = .finalize id) :
    (Deal.staking order).turn.Finalizes id := by
  change fromSlice StakingCommand (splitHeight order.command.payload).1 = _
  rw [order.read.2, closes]

/-- The books after a list of deals, when all of them are allowed and accepted. -/
def plan (allowed : Books → Deal → Bool) : List Deal → Books → Option Books
  | [], books => some books
  | deal :: rest, books =>
      if allowed books deal then
        (deal.sketch.run books).bind fun outcome => plan allowed rest outcome.2
      else none

theorem accepted_of_yields {state : StateTree} {deal : Deal} {last : Books}
    (planned : Yields deal.sketch (books state) () last) :
    deal.turn.Accepted state ∧ books (deal.turn.step state) = last := by
  cases deal with
  | staking order => exact StakingPrism.accepted_of_yields planned
  | pay payer payee amount =>
      let command : Command :=
        { prism := "token"
          submitter := payer
          visibility := .pub
          payload := toVec (TokenCommand.transfer nativeTokenId payee amount)
          nonce := 0 }
      obtain ⟨output, after, ran, _, same⟩ :=
        (mirrors_transfer state command payee amount).happens planned
      have handled : PrismM.Accepts (TokenPrism.handle command) state output after := by
        unfold TokenPrism.handle
        rw [show command.payload = toVec (TokenCommand.transfer nativeTokenId payee amount) from rfl,
          fromSlice_toVec]
        exact ran
      refine ⟨⟨⟨output, after, handled⟩, payee, amount, fromSlice_toVec _⟩, ?_⟩
      change books (TokenPrism.step state command) = last
      rw [TokenPrism.step_of_accepts handled]
      exact same

theorem run_of_plan {allowed : Books → Deal → Bool} {proper : StateTree → Turn → Prop}
    (implies : ∀ state deal, allowed (books state) deal = true → proper state deal.turn)
    {start : StateTree} {deals : List Deal} {last : Books}
    (planned : plan allowed deals (books start) = some last) :
    Run.Along Turn.step (fun state turn => turn.Accepted state ∧ proper state turn) start
        (deals.map turn) ∧
      books (Run.run Turn.step start (deals.map turn)) = last := by
  induction deals generalizing start with
  | nil => exact ⟨trivial, Option.some.inj planned⟩
  | cons deal rest ih =>
      rw [plan] at planned
      split at planned
      · rename_i permitted
        obtain ⟨⟨_, next⟩, first, remaining⟩ := Option.bind_eq_some_iff.mp planned
        obtain ⟨accepted, same⟩ := accepted_of_yields first
        have later : plan allowed rest (books (deal.turn.step start)) = some last := by
          rw [same]
          exact remaining
        obtain ⟨along, final⟩ := ih later
        exact ⟨⟨⟨accepted, implies start deal permitted⟩, along⟩, final⟩
      · cases planned

theorem accepted_of_plan {start : StateTree} {deals : List Deal} {last : Books}
    (planned : plan (fun _ _ => true) deals (books start) = some last) :
    Run.Along Turn.step (fun state turn => turn.Accepted state) start (deals.map turn) ∧
      books (Run.run Turn.step start (deals.map turn)) = last := by
  let proper : StateTree → Turn → Prop := fun _ _ => True
  obtain ⟨along, final⟩ := @run_of_plan _ _ _ (fun _ _ => true) proper (fun _ _ _ => trivial)
    start deals last planned
  exact ⟨Run.along_mono Turn.step (fun _ _ both => both.1) along, final⟩

end Deal

omit [Ed25519] in
theorem quiet_of_handedOut {state : StateTree} {allocations : List (PartyId × U128)}
    (same : books state = Books.handedOut allocations) (id : Hash) :
    state.getJson? Proposal (proposalKey id) = none := by
  have kept : ∀ start : Books, start.proposal = (fun _ => none) →
      (allocations.foldl (fun books allocation => books.withBalance allocation.1
        (books.balance allocation.1 + allocation.2)) start).proposal = fun _ => none := by
    clear same
    induction allocations with
    | nil => exact fun _ none => none
    | cons allocation rest ih => exact fun start none => ih _ none
  have read : (books state).proposal id = none := by
    rw [same]
    exact congrFun (kept _ rfl) id
  exact read

/-- Staking commands alone keep the native supply small. -/
theorem accounts_of_staking {start : StateTree} {turns : List Turn}
    (initially : (books start).Accounts)
    (accepted : Run.Along Turn.step (fun state turn => turn.Accepted state) start turns)
    (plain : ∀ turn ∈ turns, Node.reserved turn.submitter = false)
    (staking : ∀ turn ∈ turns, ∃ command, turn = .staking command) :
    (books (Run.run Turn.step start turns)).Accounts := by
  let holds : StateTree → Prop := fun state => (books state).Accounts
  change holds (Run.run Turn.step start turns)
  refine Run.invariant Turn.step ?_ initially
    (Run.along_and Turn.step (Run.along_and Turn.step accepted plain) staking)
  rintro state turn accounts ⟨⟨admitted, proper⟩, command, rfl⟩
  obtain ⟨operation, _, ended⟩ := books_step admitted
  exact accounts.execute proper ended

end Runs

/-! ### One vote, and two votes with one stake -/

section Ballots

attribute [local instance] SerdeJson.compact Blake3.polynomial Ed25519.keyed

def call (submitter : String) (height : Nat) (operation : StakingCommand) : Order :=
  { submitter := ⟨submitter⟩
    height := height
    operation := operation }

/-- Alice puts ten units up and opens a proposal. -/
def openingDeals : List Deal :=
  [.staking (call "alice" 0 (.stake 10)), .staking (call "alice" 0 (.propose "raise" "" 1))]

def raiseId : Hash := proposalId (call "alice" 0 (.propose "raise" "" 1)).command "raise"

/-- She votes, withdraws and pays bob, who votes with the same ten units. -/
def votingDeals : List Deal :=
  [.staking (call "alice" 0 (.vote raiseId true)), .staking (call "alice" 0 (.unstake 10)),
    .pay ⟨"alice"⟩ ⟨"bob"⟩ 10, .staking (call "bob" 0 (.stake 10)),
    .staking (call "bob" 0 (.vote raiseId true))]

def closingDeal : Deal := .staking (call "bob" 2 (.finalize raiseId))

def raiseFacts (books : Books) : Option (Nat × Nat × ProposalStatus) :=
  (books.proposal raiseId).map fun proposal =>
    (proposal.yesPower.val, proposal.noPower.val, proposal.status)

theorem votingDeals_planned :
    (Deal.plan (fun _ _ => true) (openingDeals ++ votingDeals)
      (Books.handedOut [(⟨"alice"⟩, 10)])).map raiseFacts = some (some (20, 0, .active)) := by
  decide +kernel

/-- Operations that take power from nobody. -/
def releasesNothing : StakingCommand → Bool
  | .unstake _ => false
  | .undelegate _ _ => false
  | .slash _ => false
  | .slashQuorum _ => false
  | _ => true

def Deal.releasesNothing : Deal → Bool
  | .staking order => StakingPrism.releasesNothing order.operation
  | .pay _ _ _ => true

theorem Deal.keeps {state : StateTree} {deal : Deal} (nothing : deal.releasesNothing = true) :
    deal.turn.Keeps state := by
  cases deal with
  | pay payer payee amount => trivial
  | staking order =>
      intro operation read who id proposal released _
      rw [order.read.2] at read
      cases read
      cases operation : order.operation with
      | unstake amount =>
          change StakingPrism.releasesNothing order.operation = true at nothing
          rw [operation] at nothing
          cases nothing
      | undelegate validator amount =>
          change StakingPrism.releasesNothing order.operation = true at nothing
          rw [operation] at nothing
          cases nothing
      | slash proof =>
          change StakingPrism.releasesNothing order.operation = true at nothing
          rw [operation] at nothing
          cases nothing
      | slashQuorum proof =>
          change StakingPrism.releasesNothing order.operation = true at nothing
          rw [operation] at nothing
          cases nothing
      | _ =>
          rw [operation] at released
          exact released.elim

/-- Alice votes once and closes the vote. -/
def singleDeals : List Deal :=
  openingDeals ++ [.staking (call "alice" 0 (.vote raiseId true)),
    .staking (call "alice" 2 (.finalize raiseId))]

theorem singleDeals_planned :
    (Deal.plan (fun _ deal => deal.releasesNothing) singleDeals
      (Books.handedOut [(⟨"alice"⟩, 10)])).map raiseFacts = some (some (10, 0, .passed)) := by
  decide +kernel

theorem one_stake_one_vote_alice :
    ∃ start, NoStake start ∧ (∀ id, start.getJson? Proposal (proposalKey id) = none) ∧
      Run.Along Turn.step (fun state turn => turn.Accepted state ∧ turn.Keeps state) start
        (singleDeals.map Deal.turn) ∧
      (∀ front, front <+: singleDeals.map Deal.turn →
        TokenPrism.total (Run.run Turn.step start front) nativeTokenId < 2 ^ 127) ∧
      OneStakeOneVote start (singleDeals.map Deal.turn) := by
  obtain ⟨start, seeded, fresh, same⟩ := exists_seeded [(⟨"alice"⟩, 10)] (by decide)
  obtain ⟨last, planned, _⟩ := Option.map_eq_some_iff.mp singleDeals_planned
  rw [← same] at planned
  obtain ⟨along, _⟩ := Deal.run_of_plan (fun _ _ => Deal.keeps) planned
  have plain : ∀ turn ∈ singleDeals.map Deal.turn, Node.reserved turn.submitter = false := by
    intro turn member
    obtain ⟨deal, inside, rfl⟩ := List.mem_map.mp member
    have all : ∀ deal ∈ singleDeals, Node.reserved deal.turn.submitter = false := by decide
    exact all deal inside
  have staking : ∀ turn ∈ singleDeals.map Deal.turn, ∃ command, turn = .staking command := by
    intro turn member
    simp only [singleDeals, openingDeals, List.cons_append, List.nil_append, List.map_cons,
      List.map_nil, List.mem_cons, List.not_mem_nil, or_false] at member
    rcases member with rfl | rfl | rfl | rfl
    all_goals exact ⟨_, rfl⟩
  have small : ∀ front, front <+: singleDeals.map Deal.turn →
      TokenPrism.total (Run.run Turn.step start front) nativeTokenId < 2 ^ 127 := by
    rintro front ⟨back, split⟩
    have reached : (books (Run.run Turn.step start front)).Accounts := by
      apply accounts_of_staking (fresh.accounts seeded.total_lt)
      · rw [← split] at along
        exact Run.along_mono Turn.step (fun _ _ both => both.1)
          ((Run.along_append Turn.step).mp along).1
      · exact fun turn member => plain turn (split ▸ List.mem_append_left back member)
      · exact fun turn member => staking turn (split ▸ List.mem_append_left back member)
    exact reached.funded
  exact ⟨start, fresh, quiet_of_handedOut same, along, small,
    one_stake_one_vote start _ fresh (quiet_of_handedOut same) along plain small⟩

/-- All the deals are accepted, and never more than ten units are bonded. -/
theorem votingDeals_totals :
    (Deal.plan (fun _ _ => true) (openingDeals ++ votingDeals ++ [closingDeal])
      (Books.handedOut [(⟨"alice"⟩, 10)])).isSome ∧
    ∀ size : Fin 8, (Deal.plan (fun _ _ => true) ((openingDeals ++ votingDeals).take size.val)
      (Books.handedOut [(⟨"alice"⟩, 10)])).any (fun books => decide (books.total.val ≤ 10)) := by
  decide +kernel

/-- Twenty votes, and never more than ten units bonded. -/
theorem one_stake_two_votes :
    ∃ start, Seeded start ∧ NoStake start ∧
      (∀ id, start.getJson? Proposal (proposalKey id) = none) ∧
      Run.Along Turn.step (fun state turn => turn.Accepted state) start
        ((openingDeals ++ votingDeals ++ [closingDeal]).map Deal.turn) ∧
      (∀ deal ∈ openingDeals ++ votingDeals ++ [closingDeal],
        Node.reserved deal.turn.submitter = false) ∧
      ¬ OneStakeOneVote start ((openingDeals ++ votingDeals ++ [closingDeal]).map Deal.turn) := by
  obtain ⟨start, seeded, fresh, same⟩ := exists_seeded [(⟨"alice"⟩, 10)] (by decide)
  obtain ⟨done, totals⟩ := votingDeals_totals
  obtain ⟨last, planned⟩ := Option.isSome_iff_exists.mp done
  rw [← same] at planned
  obtain ⟨along, _⟩ := Deal.accepted_of_plan planned
  refine ⟨start, seeded, fresh, quiet_of_handedOut same, along, by decide, ?_⟩
  intro bounded
  obtain ⟨middle, votes, facts⟩ := Option.map_eq_some_iff.mp votingDeals_planned
  rw [← same] at votes
  obtain ⟨_, reached⟩ := Deal.accepted_of_plan votes
  rw [← reached] at facts
  obtain ⟨proposal, stored, tally⟩ := Option.map_eq_some_iff.mp facts
  simp only [Prod.mk.injEq] at tally
  obtain ⟨yes, no, active⟩ := tally
  obtain ⟨moment, inside, _, small⟩ := bounded ((openingDeals ++ votingDeals).map Deal.turn)
    closingDeal.turn [] List.map_append raiseId proposal (.of_books stored active)
    (Deal.finalizes rfl)
  have taken : moment = ((openingDeals ++ votingDeals).take moment.length).map Deal.turn := by
    rw [List.map_take]
    exact List.prefix_iff_eq_take.mp inside
  have short : moment.length < 8 := by
    have length := inside.length_le
    rw [List.length_map] at length
    exact Nat.lt_succ_of_le length
  obtain ⟨seen, there, limit⟩ := (Option.any_eq_true _ _).mp (totals ⟨moment.length, short⟩)
  rw [← same] at there
  obtain ⟨_, final⟩ := Deal.accepted_of_plan there
  rw [← taken] at final
  have total : (totalStake (Run.run Turn.step start moment)).val ≤ 10 := by
    change (books (Run.run Turn.step start moment)).total.val ≤ 10
    rw [final]
    exact of_decide_eq_true limit
  omega

end Ballots

end StakingPrism

end Veilux
