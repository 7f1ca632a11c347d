/-
The reward pool.  A party's claim is its lock times the accumulator, less what it has
been settled for.  The settled amount is floored, and what the floor cuts off is paid
out again with the next reward; as long as every settlement is exact, the pool covers
all claims.
-/

import Veilux.Prism.Amounts
import Veilux.Prism.StakeAccounts

namespace Veilux

namespace StakingPrism

open Mirror
open TokenPrism (nativeTokenId pairText)

namespace Books

/-! ### Claims -/

/-- The factor that the accumulator is kept at. -/
def scale : Nat := accScale.val

theorem scale_pos : 0 < scale := by
  decide

/-- The reward of a lock before it is scaled down. -/
def reward (lock : Nat) (acc : U128) : Nat := min (lock * acc.val) (2 ^ 128 - 1)

def claim (books : Books) (who : PartyId) : Nat :=
  reward (books.lock who) books.acc - scale * (books.debt who).val

structure Solvent (books : Books) : Prop where
  settled : ∀ who, scale * (books.debt who).val ≤ reward (books.lock who) books.acc
  backed : Total.total books.claim ≤ scale * books.purse rewardPoolAccount

theorem entitled_val (power acc : U128) : (entitled power acc).val = reward power.val acc / scale := by
  unfold entitled
  rw [Fin.div_val, U128.saturatingMul_val]
  rfl

variable {books middle after : Books} {amount : U128} {delta : Int} {result : Unit}

theorem scale_mul_pending (books : Books) (who : PartyId) :
    scale * (books.pending who).val ≤ books.claim who := by
  have value : (books.pending who).val =
      reward (books.lock who) books.acc / scale - (books.debt who).val := by
    unfold pending
    rw [U128.saturatingSub_val, entitled_val]
    rfl
  have floored := Nat.mul_div_le (reward (books.lock who) books.acc) scale
  unfold claim
  rw [value, Nat.mul_sub]
  omega

theorem claims_finite (finite : (Function.support books.lock).Finite) :
    (Function.support books.claim).Finite := by
  apply finite.subset
  intro who nonzero
  rw [Function.mem_support] at nonzero ⊢
  intro zero
  apply nonzero
  unfold claim reward
  rw [zero, Nat.zero_mul, Nat.zero_min, Nat.zero_sub]

/-- No single pending reward is more than the pool. -/
theorem Solvent.pending_le (solvent : Solvent books) (finite : (Function.support books.lock).Finite)
    (who : PartyId) : (books.pending who).val ≤ books.purse rewardPoolAccount := by
  have mine := scale_mul_pending books who
  have part := Total.le_total (claims_finite finite) who
  have backed := solvent.backed
  apply Nat.le_of_mul_le_mul_left _ scale_pos
  omega

/-- All pending rewards together are no more than the pool. -/
theorem Solvent.total_pending_le (solvent : Solvent books)
    (finite : (Function.support books.lock).Finite) :
    (Total.total fun who => (books.pending who).val) ≤ books.purse rewardPoolAccount := by
  have scaled : scale * (Total.total fun who => (books.pending who).val) ≤
      Total.total books.claim :=
    Total.mul_total_le scale_pos (scale_mul_pending books) (claims_finite finite)
  have backed := solvent.backed
  apply Nat.le_of_mul_le_mul_left _ scale_pos
  omega

/-! ### Settlements -/

/-- A reward paid out and the debt set to the exact reward of the new lock: the claim
of that party is gone, and the pool has lost no more than it. -/
theorem Solvent.settle (solvent : Solvent books) (finite : (Function.support books.lock).Finite)
    {who : PartyId} (accs : after.acc = books.acc)
    (locks : ∀ other, other ≠ who → after.lock other = books.lock other)
    (debts : ∀ other, other ≠ who → after.debt other = books.debt other)
    (debt : after.debt who = entitled (after.locked who) books.acc)
    (exact : scale ∣ reward (after.lock who) books.acc)
    (pool : after.purse rewardPoolAccount + (books.pending who).val =
      books.purse rewardPoolAccount) : Solvent after := by
  have value : scale * (after.debt who).val = reward (after.lock who) books.acc := by
    rw [debt, entitled_val]
    exact Nat.mul_div_cancel' exact
  have claims : after.claim = Function.update books.claim who 0 := by
    funext other
    unfold claim
    by_cases same : other = who
    · rw [same, Function.update_self, accs, value, Nat.sub_self]
    · rw [Function.update_of_ne same, accs, locks other same, debts other same]
  constructor
  · intro other
    rw [accs]
    by_cases same : other = who
    · rw [same, value]
    · rw [locks other same, debts other same]
      exact solvent.settled other
  · have sum := Total.total_update (claims_finite finite) who 0
    have mine := scale_mul_pending books who
    have backed := solvent.backed
    rw [← pool, Nat.mul_add] at backed
    rw [claims]
    omega

/-- The settlement at the end of a lock change. -/
theorem Solvent.follow {me : Plain} (solvent : Solvent books)
    (finite : (Function.support books.lock).Finite) (locks : middle.locked = books.locked)
    (accs : middle.acc = books.acc) (debts : middle.debt = books.debt)
    (pool : middle.purse rewardPoolAccount = books.purse rewardPoolAccount)
    (exact : scale ∣ reward (I128.addClamped (I128.ofU128 (books.locked me)) delta).val books.acc)
    (followed : Yields (Sketch.updateLock me.val delta) middle result after) : Solvent after := by
  obtain ⟨paid, rfl⟩ := yields_updateLock.mp followed
  have pending : middle.pending me = books.pending me := by
    unfold pending
    rw [locks, accs, debts]
  let last := (middle.moved rewardPoolAccount me (middle.pending me)).relocked me delta
  have locked : last.locked = Function.update middle.locked me
      (I128.addClamped (I128.ofU128 (middle.locked me)) delta) := rfl
  have debt : last.debt = Function.update middle.debt me
      (entitled (I128.addClamped (I128.ofU128 (middle.locked me)) delta) middle.acc) := rfl
  have purse : last.purse = (middle.moved rewardPoolAccount me (middle.pending me)).purse := rfl
  change Solvent last
  refine @Solvent.settle books last solvent finite me.val accs ?_ ?_ ?_ ?_ ?_
  · intro other different
    unfold lock
    rw [locked, Function.update_of_ne different, locks]
  · intro other different
    rw [debt, Function.update_of_ne different, debts]
  · rw [debt, locked, Function.update_self, Function.update_self, accs]
  · unfold lock
    rw [locked, Function.update_self, locks]
    exact exact
  · have taken := purse_moved_source me.ne_pool.symm paid
    have enough : (middle.pending me).val ≤ middle.purse rewardPoolAccount := paid.1
    rw [purse, taken, ← pending, ← pool]
    omega

/-! ### Funding -/

theorem reward_mono {lock : Nat} {acc raised : U128} (grows : acc.val ≤ raised.val) :
    reward lock acc ≤ reward lock raised := by
  have product := Nat.mul_le_mul_left lock grows
  unfold reward
  omega

theorem reward_growth (lock : Nat) {acc raised : U128} (grows : acc.val ≤ raised.val) :
    reward lock raised ≤ reward lock acc + lock * (raised.val - acc.val) := by
  have split : lock * raised.val = lock * acc.val + lock * (raised.val - acc.val) := by
    rw [← Nat.mul_add]
    congr 1
    omega
  unfold reward
  omega

theorem Solvent.fundRewards {me : Plain} (accounts : Accounts books) (solvent : Solvent books)
    (ended : Yields (Sketch.fundRewards me.val amount) books result after) : Solvent after := by
  obtain ⟨_, staked, covered, rfl⟩ := yields_fundRewards.mp ended
  have raised : (books.funding me amount).acc.val =
      min (books.acc.val + min (amount.val * scale) (2 ^ 128 - 1) / books.total.val)
        (2 ^ 128 - 1) := by
    unfold funding
    rw [U128.saturatingAdd_val, Fin.div_val, U128.saturatingMul_val]
    rfl
  have grows : books.acc.val ≤ (books.funding me amount).acc.val := by
    have bound := books.acc.isLt
    rw [raised]
    exact Nat.le_min.mpr ⟨Nat.le_add_right _ _, by omega⟩
  have added : ((books.funding me amount).acc.val - books.acc.val) * books.total.val ≤
      amount.val * scale := by
    have step : (books.funding me amount).acc.val - books.acc.val ≤
        min (amount.val * scale) (2 ^ 128 - 1) / books.total.val := by
      rw [raised]
      omega
    calc _ ≤ min (amount.val * scale) (2 ^ 128 - 1) / books.total.val * books.total.val :=
          Nat.mul_le_mul_right _ step
      _ ≤ min (amount.val * scale) (2 ^ 128 - 1) := Nat.div_mul_le_self _ _
      _ ≤ amount.val * scale := Nat.min_le_left _ _
  have lock : (books.funding me amount).lock = books.lock := rfl
  have debt : (books.funding me amount).debt = books.debt := rfl
  have pool : (books.funding me amount).purse rewardPoolAccount =
      books.purse rewardPoolAccount + amount.val := by
    have purses : (books.funding me amount).purse rewardPoolAccount =
        (books.moved me rewardPoolAccount amount).purse rewardPoolAccount := by
      simp only [funding, purse]
    rw [purses]
    exact purse_moved_target me.ne_pool.symm covered
  constructor
  · intro who
    rw [lock, debt]
    exact (solvent.settled who).trans (reward_mono grows)
  · have claims : Total.total (books.funding me amount).claim ≤ Total.total books.claim +
        ((books.funding me amount).acc.val - books.acc.val) * Total.total books.lock := by
      apply Total.total_le_add_mul (claims_finite accounts.finiteLocks) accounts.finiteLocks
      intro who
      have growth := reward_growth (books.lock who) grows
      have settled := solvent.settled who
      unfold claim
      rw [lock, debt, Nat.mul_comm _ (books.lock who)]
      omega
    have backed := solvent.backed
    rw [← accounts.summed] at claims
    rw [pool, Nat.mul_add, Nat.mul_comm scale amount.val]
    omega

/-! ### The operations -/

/-- A punishment settles with the offender when it burns something. -/
def penalized (books : Books) (offender : PartyId) : Option (PartyId × Nat) :=
  if 0 < books.penalty offender then
    some (offender, books.lock offender - (books.penalty offender).val)
  else none

/-- The party that an operation settles with, and the lock it settles at. -/
def settlement (books : Books) (me : PartyId) : StakingCommand → Option (PartyId × Nat)
  | .stake amount => some (me, books.lock me + amount.val)
  | .unstake amount => some (me, books.lock me - amount.val)
  | .delegate _ amount => some (me, books.lock me + amount.val)
  | .undelegate _ amount => some (me, books.lock me - amount.val)
  | .slash proof => books.penalized proof.offender
  | .slashQuorum proof => books.penalized proof.offender
  | .claimRewards => some (me, books.lock me)
  | .propose _ _ _ => none
  | .vote _ _ => none
  | .finalize _ => none
  | .fundRewards _ => none

/-- Nothing is cut off at the settlement. -/
def Exact (books : Books) (me : PartyId) (operation : StakingCommand) : Prop :=
  ∀ settled ∈ books.settlement me operation, scale ∣ reward settled.2 books.acc

section Operations

variable {me : Plain}

theorem Solvent.raise (me : Plain) (accounts : Accounts books) (solvent : Solvent books)
    (followed : Yields (Sketch.updateLock me.val (I128.ofU128 amount)) middle result after)
    (covered : books.Covers me escrowAccount amount) (locks : middle.locked = books.locked)
    (accs : middle.acc = books.acc) (debts : middle.debt = books.debt)
    (purses : middle.purse = (books.moved me escrowAccount amount).purse)
    (exact : scale ∣ reward (books.lock me + amount.val) books.acc) : Solvent after := by
  have room := accounts.room covered
  obtain ⟨part, _⟩ := accounts.small me
  have lockRoom : (books.locked me).val + amount.val < 2 ^ 127 := by
    change books.lock me + amount.val < 2 ^ 127
    omega
  refine solvent.follow accounts.finiteLocks locks accs debts ?_ ?_ followed
  · rw [purses]
    exact purse_moved_other me.ne_pool.symm pool_ne_escrow
  · rw [I128.addClamped_raise lockRoom]
    exact exact

theorem Solvent.drop (me : Plain) (accounts : Accounts books) (solvent : Solvent books)
    (followed : Yields (Sketch.updateLock me.val (I128.wrap (-I128.ofU128 amount))) middle result
      after)
    (enough : amount.val ≤ books.lock me) (locks : middle.locked = books.locked)
    (accs : middle.acc = books.acc) (debts : middle.debt = books.debt)
    (pool : middle.purse rewardPoolAccount = books.purse rewardPoolAccount)
    (exact : scale ∣ reward (books.lock me - amount.val) books.acc) : Solvent after := by
  obtain ⟨part, small⟩ := accounts.small me
  refine solvent.follow accounts.finiteLocks locks accs debts pool ?_ followed
  rw [I128.addClamped_drop (part.trans_lt small) enough]
  exact exact

theorem Solvent.punish {offence : Hash} {offender : PartyId} (accounts : Accounts books)
    (solvent : Solvent books)
    (exact : ∀ settled ∈ books.penalized offender, scale ∣ reward settled.2 books.acc)
    (ended : Yields (Sketch.punish offence offender) books result after) : Solvent after := by
  obtain ⟨_, ⟨_, rfl⟩ | ⟨positive, escrow, middle, followed, rfl⟩⟩ := yields_punish.mp ended
  · exact ⟨solvent.settled, solvent.backed⟩
  · have share := penalty_le books offender
    have burned : 0 < (books.penalty offender).val := positive
    have plain : Node.reserved offender = false := accounts.plain_of_bond (by omega)
    let me : Plain := ⟨offender, plain⟩
    have lock := accounts.covered me
    unfold holding at lock
    have settled : (offender, books.lock offender - (books.penalty offender).val) ∈
        books.penalized offender := by
      unfold penalized
      rw [if_pos positive]
      rfl
    have last : Solvent middle := by
      refine solvent.drop me accounts followed ?_ rfl rfl rfl ?_ (exact _ settled)
      · rw [lock]
        exact share.trans (Nat.le_add_right _ _)
      · simp only [burning, debited, purse, withRecord, withBalance,
          Function.update_of_ne pool_ne_escrow]
    exact ⟨last.settled, last.backed⟩

theorem Solvent.claimRewards (accounts : Accounts books) (solvent : Solvent books)
    (exact : scale ∣ reward (books.lock me) books.acc)
    (ended : Yields (Sketch.claimRewards me.val) books result after) : Solvent after := by
  obtain ⟨paid, rfl⟩ := yields_claimRewards.mp ended
  let last := (books.moved rewardPoolAccount me (books.pending me)).withDebt me
    (entitled (books.locked me) books.acc)
  have debt : last.debt = Function.update books.debt me (entitled (books.locked me) books.acc) := rfl
  have purse : last.purse = (books.moved rewardPoolAccount me (books.pending me)).purse := rfl
  change Solvent last
  refine @Solvent.settle books last solvent accounts.finiteLocks me.val rfl ?_ ?_ ?_ exact ?_
  · intro other _
    rfl
  · intro other different
    rw [debt, Function.update_of_ne different]
  · rw [debt, Function.update_self]
    rfl
  · have taken := purse_moved_source me.ne_pool.symm paid
    have enough : (books.pending me).val ≤ books.purse rewardPoolAccount := paid.1
    rw [purse, taken]
    omega

theorem Solvent.execute [SerdeJson] [Blake3] [Ed25519] {command : Command} {height : UInt64}
    {operation : StakingCommand} (plain : Node.reserved command.submitter = false)
    (accounts : Accounts books) (solvent : Solvent books)
    (exact : books.Exact command.submitter operation)
    (ended : Yields (Sketch.execute command height operation) books result after) :
    Solvent after := by
  let me : Plain := ⟨command.submitter, plain⟩
  cases operation with
  | stake amount =>
      obtain ⟨_, covered, followed⟩ := yields_stake.mp ended
      exact solvent.raise me accounts followed covered rfl rfl rfl rfl (exact _ rfl)
  | unstake amount =>
      obtain ⟨bonded, covered, followed⟩ := yields_unstake.mp ended
      have lock := accounts.covered me
      unfold holding at lock
      have bond : amount.val ≤ books.bond me := bonded
      refine solvent.drop me accounts followed (by omega) rfl rfl rfl ?_ (exact _ rfl)
      exact purse_moved_other pool_ne_escrow me.ne_pool.symm
  | delegate validator amount =>
      obtain ⟨_, covered, followed⟩ := yields_delegate.mp ended
      exact solvent.raise me accounts followed covered rfl rfl rfl rfl (exact _ rfl)
  | undelegate validator amount =>
      obtain ⟨delegated, covered, followed⟩ := yields_undelegate.mp ended
      have lock := accounts.covered me
      have share := Total.le_total (accounts.finite_made me) validator
      unfold holding at lock
      have given : amount.val ≤ books.given me validator := delegated
      refine solvent.drop me accounts followed (by omega) rfl rfl rfl ?_ (exact _ rfl)
      exact purse_moved_other pool_ne_escrow me.ne_pool.symm
  | propose title description votingPeriod =>
      obtain ⟨_, _, rfl⟩ := yields_propose.mp ended
      exact ⟨solvent.settled, solvent.backed⟩
  | vote proposalId approve =>
      obtain ⟨_, _, _, _, _, _, rfl⟩ := yields_vote.mp ended
      exact ⟨solvent.settled, solvent.backed⟩
  | finalize proposalId =>
      obtain ⟨_, _, _, _, rfl⟩ := yields_finalize.mp ended
      exact ⟨solvent.settled, solvent.backed⟩
  | slash proof =>
      obtain ⟨_, _, _, _, _, _, _, _, _, _, _, _, _, punished⟩ := yields_slash.mp ended
      exact solvent.punish accounts exact punished
  | slashQuorum proof =>
      obtain ⟨_, _, _, _, _, _, _, punished⟩ := yields_slashQuorum.mp ended
      exact solvent.punish accounts exact punished
  | fundRewards amount =>
      exact solvent.fundRewards accounts
        (show Yields (Sketch.fundRewards me.val amount) _ _ _ from ended)
  | claimRewards =>
      exact solvent.claimRewards accounts (exact _ rfl)
        (show Yields (Sketch.claimRewards me.val) _ _ _ from ended)

end Operations

/-! ### Nothing fails for want of rewards -/

/-- Any lock change can pay the pending reward first. -/
theorem Solvent.updateLock_yields (accounts : Accounts books) (solvent : Solvent books) (me : Plain)
    (middle : Books) (delta : Int) (locks : middle.locked = books.locked) (accs : middle.acc = books.acc)
    (debts : middle.debt = books.debt)
    (pool : middle.purse rewardPoolAccount = books.purse rewardPoolAccount)
    (funds : Total.total middle.purse ≤ Total.total books.purse)
    (finite : (Function.support middle.purse).Finite) :
    ∃ last, Yields (Sketch.updateLock me.val delta) middle () last := by
  have pending : middle.pending me = books.pending me := by
    unfold Books.pending
    rw [locks, accs, debts]
  have payable := solvent.pending_le accounts.finiteLocks me
  have funded := accounts.funded
  refine ⟨_, yields_updateLock.mpr ⟨covers_of_enough finite (by omega) ?_, rfl⟩⟩
  change (middle.pending me).val ≤ middle.purse rewardPoolAccount
  rw [pending, pool]
  exact payable

section Payable

variable (me : Plain)

theorem Solvent.stake_iff (accounts : Accounts books) (solvent : Solvent books) :
    (∃ last, Yields (Sketch.stake me.val amount) books () last) ↔
      amount ≠ 0 ∧ amount ≤ books.balance me := by
  constructor
  · rintro ⟨last, ended⟩
    obtain ⟨nonzero, covered, _⟩ := yields_stake.mp ended
    exact ⟨nonzero, covered.1⟩
  · rintro ⟨nonzero, enough⟩
    have covered : books.Covers me escrowAccount amount :=
      covers_of_enough accounts.finitePurses accounts.funded enough
    obtain ⟨last, followed⟩ := solvent.updateLock_yields accounts me (books.bonding me amount)
      (I128.ofU128 amount) rfl rfl rfl
      (purse_moved_other me.ne_pool.symm pool_ne_escrow)
      (total_moved accounts.finitePurses covered).le (finite_moved accounts.finitePurses)
    exact ⟨last, yields_stake.mpr ⟨nonzero, covered, followed⟩⟩

theorem Solvent.delegate_iff {validator : PartyId} (accounts : Accounts books)
    (solvent : Solvent books) :
    (∃ last, Yields (Sketch.delegate me.val validator amount) books () last) ↔
      amount ≠ 0 ∧ amount ≤ books.balance me := by
  constructor
  · rintro ⟨last, ended⟩
    obtain ⟨nonzero, covered, _⟩ := yields_delegate.mp ended
    exact ⟨nonzero, covered.1⟩
  · rintro ⟨nonzero, enough⟩
    have covered : books.Covers me escrowAccount amount :=
      covers_of_enough accounts.finitePurses accounts.funded enough
    obtain ⟨last, followed⟩ := solvent.updateLock_yields accounts me
      (books.delegating me validator amount) (I128.ofU128 amount) rfl rfl rfl
      (purse_moved_other me.ne_pool.symm pool_ne_escrow)
      (total_moved accounts.finitePurses covered).le (finite_moved accounts.finitePurses)
    exact ⟨last, yields_delegate.mpr ⟨nonzero, covered, followed⟩⟩

/-- Escrow holds everything that is locked, so it can return any part of it. -/
theorem Accounts.escrow_covers (accounts : Accounts books) (part : amount.val ≤ books.lock me) :
    books.Covers escrowAccount me amount := by
  have small := (accounts.small me).1
  have escrowed := accounts.escrowed
  apply covers_of_enough accounts.finitePurses accounts.funded
  change amount.val ≤ books.purse escrowAccount
  omega

theorem Solvent.unstake_iff (accounts : Accounts books) (solvent : Solvent books) :
    (∃ last, Yields (Sketch.unstake me.val amount) books () last) ↔
      amount ≤ (books.record me).selfBonded := by
  constructor
  · rintro ⟨last, ended⟩
    exact (yields_unstake.mp ended).1
  · intro bonded
    have bond : amount.val ≤ books.bond me := bonded
    have lock := accounts.covered me
    unfold holding at lock
    have covered : books.Covers escrowAccount me amount := accounts.escrow_covers me (by omega)
    obtain ⟨last, followed⟩ := solvent.updateLock_yields accounts me (books.unbonding me amount)
      (I128.wrap (-I128.ofU128 amount)) rfl rfl rfl
      (purse_moved_other pool_ne_escrow me.ne_pool.symm)
      (total_moved accounts.finitePurses covered).le (finite_moved accounts.finitePurses)
    exact ⟨last, yields_unstake.mpr ⟨bonded, covered, followed⟩⟩

theorem Solvent.undelegate_iff {validator : PartyId} (accounts : Accounts books)
    (solvent : Solvent books) :
    (∃ last, Yields (Sketch.undelegate me.val validator amount) books () last) ↔
      amount ≤ books.delegation (pairText me validator) := by
  constructor
  · rintro ⟨last, ended⟩
    exact (yields_undelegate.mp ended).1
  · intro delegated
    have given : amount.val ≤ books.given me validator := delegated
    have share := Total.le_total (accounts.finite_made me) validator
    have lock := accounts.covered me
    unfold holding at lock
    have covered : books.Covers escrowAccount me amount := accounts.escrow_covers me (by omega)
    obtain ⟨last, followed⟩ := solvent.updateLock_yields accounts me
      (books.undelegating me validator amount) (I128.wrap (-I128.ofU128 amount)) rfl rfl rfl
      (purse_moved_other pool_ne_escrow me.ne_pool.symm)
      (total_moved accounts.finitePurses covered).le (finite_moved accounts.finitePurses)
    exact ⟨last, yields_undelegate.mpr ⟨delegated, covered, followed⟩⟩

theorem Solvent.claimRewards_yields (accounts : Accounts books) (solvent : Solvent books) :
    ∃ last, Yields (Sketch.claimRewards me.val) books () last :=
  ⟨_, yields_claimRewards.mpr ⟨covers_of_enough accounts.finitePurses accounts.funded
    (solvent.pending_le accounts.finiteLocks me), rfl⟩⟩

theorem Solvent.punish_iff {offence : Hash} {offender : PartyId} (accounts : Accounts books)
    (solvent : Solvent books) :
    (∃ last, Yields (Sketch.punish offence offender) books () last) ↔
      books.punished offence = false := by
  constructor
  · rintro ⟨last, ended⟩
    exact (yields_punish.mp ended).1
  · intro fresh
    by_cases positive : 0 < books.penalty offender
    · have share := penalty_le books offender
      have burned : 0 < (books.penalty offender).val := positive
      have plain : Node.reserved offender = false := accounts.plain_of_bond (by omega)
      let me : Plain := ⟨offender, plain⟩
      have lock := accounts.covered me
      unfold holding at lock
      have part := (accounts.small offender).1
      have escrowed := accounts.escrowed
      have enough : books.penalty offender ≤ books.balance escrowAccount := by
        change (books.penalty offender).val ≤ books.purse escrowAccount
        change books.lock offender = books.bond offender + _ at lock
        omega
      have taken := total_debited accounts.finitePurses enough
      obtain ⟨last, followed⟩ := solvent.updateLock_yields accounts me (books.burning offender)
        (I128.wrap (-I128.ofU128 (books.penalty offender))) rfl rfl rfl
        (by simp only [burning, debited, purse, withRecord, withBalance,
              Function.update_of_ne pool_ne_escrow])
        (by change Total.total (books.debited escrowAccount (books.penalty offender)).purse ≤ _
            omega)
        (finite_withBalance accounts.finitePurses)
      exact ⟨_, yields_punish.mpr ⟨fresh, .inr ⟨positive, enough, last, followed, rfl⟩⟩⟩
    · exact ⟨_, yields_punish.mpr ⟨fresh, .inl ⟨positive, rfl⟩⟩⟩

end Payable

end Books

/-! ### Runs -/

section Runs

variable [SerdeJson] [Blake3]

structure NoRewards (state : StateTree) : Prop where
  acc : rewardAcc state = 0
  debts : ∀ who, readU128 state (rewardDebtKey who) = 0

/-- The operation of a command settles exactly, in the state it meets. -/
def ExactSettlement (state : StateTree) (command : Command) : Prop :=
  ∀ operation, fromSlice StakingCommand (splitHeight command.payload).1 = .ok operation →
    (books state).Exact command.submitter operation

/-- What the operations that pay rewards on the way depend on: never the pool. -/
structure Payable (state : StateTree) : Prop where
  stake : ∀ command amount, Node.reserved command.submitter = false →
    ((∃ output after, PrismM.Accepts (stake command amount) state output after) ↔
      amount ≠ 0 ∧ amount ≤ TokenPrism.balance state nativeTokenId command.submitter)
  unstake : ∀ command amount, Node.reserved command.submitter = false →
    ((∃ output after, PrismM.Accepts (unstake command amount) state output after) ↔
      amount ≤ (stakeOf state command.submitter).selfBonded)
  delegate : ∀ command validator amount, Node.reserved command.submitter = false →
    ((∃ output after, PrismM.Accepts (delegate command validator amount) state output after) ↔
      amount ≠ 0 ∧ amount ≤ TokenPrism.balance state nativeTokenId command.submitter)
  undelegate : ∀ command validator amount, Node.reserved command.submitter = false →
    ((∃ output after, PrismM.Accepts (undelegate command validator amount) state output after) ↔
      amount ≤ delegation state command.submitter validator)
  claimRewards : ∀ command, Node.reserved command.submitter = false →
    ∃ output after, PrismM.Accepts (claimRewards command) state output after
  punish : ∀ command offence offender,
    (∃ output after, PrismM.Accepts (punish command offence offender) state output after) ↔
      state.contains (slashKey offence) = false

theorem accepts_iff_yields {program : PrismM PrismOutput} {sketch : BooksM Unit} {state : StateTree}
    (mirrored : Mirrors books (fun _ => ()) program sketch state) :
    (∃ output after, PrismM.Accepts program state output after) ↔
      ∃ last, Yields sketch (books state) () last := by
  constructor
  · rintro ⟨output, after, ran⟩
    exact ⟨_, mirrored.predicted ran⟩
  · rintro ⟨last, ended⟩
    obtain ⟨output, after, ran, _, _⟩ := mirrored.happens ended
    exact ⟨output, after, ran⟩

theorem Books.Solvent.payable {state : StateTree} (accounts : (books state).Accounts)
    (solvent : (books state).Solvent) : Payable state := by
  constructor
  · intro command amount plain
    rw [accepts_iff_yields (mirrors_stake state command amount)]
    exact solvent.stake_iff ⟨command.submitter, plain⟩ accounts
  · intro command amount plain
    rw [accepts_iff_yields (mirrors_unstake state command amount)]
    exact solvent.unstake_iff ⟨command.submitter, plain⟩ accounts
  · intro command validator amount plain
    rw [accepts_iff_yields (mirrors_delegate state command validator amount)]
    exact solvent.delegate_iff ⟨command.submitter, plain⟩ accounts
  · intro command validator amount plain
    rw [accepts_iff_yields (mirrors_undelegate state command validator amount), ← books_delegation]
    exact solvent.undelegate_iff ⟨command.submitter, plain⟩ accounts
  · intro command plain
    rw [accepts_iff_yields (mirrors_claimRewards state command)]
    exact solvent.claimRewards_yields ⟨command.submitter, plain⟩ accounts
  · intro command offence offender
    rw [accepts_iff_yields (mirrors_punish state command offence offender)]
    exact solvent.punish_iff accounts

theorem NoRewards.solvent {state : StateTree} (fresh : NoRewards state) :
    (books state).Solvent := by
  have debts : ∀ who, ((books state).debt who).val = 0 := by
    intro who
    change (readU128 state (rewardDebtKey who)).val = 0
    rw [fresh.debts who]
    rfl
  have claims : (books state).claim = fun _ => 0 := by
    funext who
    have acc : (books state).acc.val = 0 := by
      change (rewardAcc state).val = 0
      rw [fresh.acc]
      rfl
    unfold Books.claim Books.reward
    rw [acc, Nat.mul_zero, Nat.zero_min, Nat.zero_sub]
  constructor
  · intro who
    rw [debts who, Nat.mul_zero]
    exact Nat.zero_le _
  · rw [claims, Total.total_zero]
    exact Nat.zero_le _

theorem NoRewards.of_books {state : StateTree} (unstaked : (books state).Unstaked) :
    NoRewards state :=
  ⟨unstaked.acc, fun who => congrFun unstaked.debts who⟩

/-- Two parties whose pending rewards are together more than the pool. -/
theorem pool_lt_of_pending {state : StateTree} {who whom : PartyId} (different : who ≠ whom)
    (short : (books state).purse rewardPoolAccount <
      ((books state).pending who).val + ((books state).pending whom).val) :
    (TokenPrism.balance state nativeTokenId rewardPoolAccount).val <
      Total.total fun other => (pendingRewardsOf state other).val := by
  have locks : (Function.support (books state).lock).Finite :=
    slots_finite state fun _ _ same => Slot.locked.inj same
  have finite : (Function.support fun other => ((books state).pending other).val).Finite := by
    apply (Books.claims_finite locks).subset
    intro other nonzero
    have scaled := Books.scale_mul_pending (books state) other
    have positive : 0 < Books.scale * ((books state).pending other).val :=
      Nat.mul_pos Books.scale_pos (Nat.pos_of_ne_zero nonzero)
    rw [Function.mem_support]
    omega
  exact short.trans_le (Total.pair_le_total finite different)

variable [Ed25519]

end Runs

/-! ### Exact and floored settlements -/

section Floors

attribute [local instance] SerdeJson.compact Blake3.polynomial Ed25519.keyed

def order (submitter : String) (operation : StakingCommand) : Order :=
  { submitter := ⟨submitter⟩
    height := 0
    operation := operation }

def holders : List (PartyId × U128) := [(⟨"alice"⟩, 5), (⟨"bob"⟩, 5), (⟨"carol"⟩, 5)]

/-- A reward of one full unit per staked unit, and a partial withdrawal. -/
def evenOrders : List Order :=
  [order "alice" (.stake 2), order "carol" (.fundRewards 2), order "alice" (.unstake 1)]

/-- Half a unit per staked unit: alice keeps one unit staked and bob joins with one,
both settled for nothing, before the next reward. -/
def oddOrders : List Order :=
  [order "alice" (.stake 2), order "carol" (.fundRewards 1), order "alice" (.unstake 1),
    order "bob" (.stake 1), order "carol" (.fundRewards 1)]

def exactly? (books : Books) (order : Order) : Bool :=
  (books.settlement order.submitter order.operation).all fun settled =>
    decide (Books.scale ∣ Books.reward settled.2 books.acc)

theorem evenOrders_planned :
    (planWhere exactly? evenOrders (Books.handedOut holders)).map
      (fun books => (books.pending ⟨"alice"⟩, books.purse rewardPoolAccount)) = some (0, 0) := by
  decide +kernel

theorem oddOrders_planned :
    (plan oddOrders (Books.handedOut holders)).map (fun books =>
      [(books.pending ⟨"alice"⟩).val, (books.pending ⟨"bob"⟩).val,
        books.purse rewardPoolAccount]) = some [1, 1, 1] := by
  decide +kernel

theorem plain_orders {orders : List Order}
    (plain : ∀ order ∈ orders, Node.reserved order.submitter = false) :
    ∀ command ∈ orders.map Order.command, Node.reserved command.submitter = false := by
  intro command member
  obtain ⟨order, inside, rfl⟩ := List.mem_map.mp member
  exact plain order inside

theorem exactSettlement_of_exactly {state : StateTree} {order : Order}
    (exact : exactly? (books state) order = true) : ExactSettlement state order.command := by
  intro operation read
  rw [order.read.2] at read
  cases read
  intro settled found
  have located : (books state).settlement order.submitter order.operation = some settled := found
  unfold exactly? at exact
  rw [located, Option.all_some] at exact
  exact of_decide_eq_true exact

end Floors

end StakingPrism

end Veilux
