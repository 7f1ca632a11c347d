/-
Staking accounts.  A bonded amount is kept in a record or a delegation, again in the
lock of the party it came from, again in the total, and as tokens in escrow.  The
four stay in step along every run of accepted commands.

Delegations are stored under the text `delegator/validator`.  Submitters have no
slash in their names, so the delegations they make are told apart; a name with a
slash reads another party's delegation.
-/

import Veilux.Lib.Total
import Veilux.Prism.StakingSteps

namespace Veilux

/-! ### Signed differences without overflow -/

namespace I128

theorem wrap_eq {value : Int} (low : -2 ^ 127 ≤ value) (high : value < 2 ^ 127) :
    wrap value = value := by
  unfold wrap
  rw [Int.bmod_def]
  split <;> omega

theorem ofU128_eq {value : U128} (small : value.val < 2 ^ 127) : ofU128 value = value.val :=
  wrap_eq (by omega) (by omega)

theorem addClamped_raise {value amount : U128} (small : value.val + amount.val < 2 ^ 127) :
    (addClamped (ofU128 value) (ofU128 amount)).val = value.val + amount.val := by
  rw [ofU128_eq (by omega), ofU128_eq (by omega)]
  unfold addClamped
  rw [wrap_eq (by omega) (by omega)]
  change _ % _ = _
  have sum : (max ((value.val : Int) + amount.val) 0).toNat = value.val + amount.val := by omega
  rw [sum]
  exact Nat.mod_eq_of_lt (by omega)

theorem addClamped_drop {value amount : U128} (small : value.val < 2 ^ 127)
    (enough : amount.val ≤ value.val) :
    (addClamped (ofU128 value) (wrap (-ofU128 amount))).val = value.val - amount.val := by
  rw [ofU128_eq (by omega), ofU128_eq (by omega), wrap_eq (by omega) (by omega)]
  unfold addClamped
  rw [wrap_eq (by omega) (by omega)]
  change _ % _ = _
  have difference : (max ((value.val : Int) + -amount.val) 0).toNat = value.val - amount.val := by
    omega
  rw [difference]
  exact Nat.mod_eq_of_lt (by omega)

end I128

namespace StakingPrism

open Mirror
open TokenPrism (nativeTokenId pairText)

/-- The names that can submit commands. -/
abbrev Plain := { who : PartyId // Node.reserved who = false }

theorem Plain.ne_escrow (who : Plain) : who.val ≠ escrowAccount := by
  intro same
  have plain := who.property
  rw [same] at plain
  exact absurd plain (by decide)

theorem Plain.ne_pool (who : Plain) : who.val ≠ rewardPoolAccount := by
  intro same
  have plain := who.property
  rw [same] at plain
  exact absurd plain (by decide)

theorem pool_ne_escrow : rewardPoolAccount ≠ escrowAccount := by
  decide

namespace Books

def purse (books : Books) (who : PartyId) : Nat := (books.balance who).val

def lock (books : Books) (who : PartyId) : Nat := (books.locked who).val

def bond (books : Books) (who : PartyId) : Nat := (books.record who).selfBonded.val

def incoming (books : Books) (who : PartyId) : Nat := (books.record who).delegatedIn.val

def given (books : Books) (who validator : PartyId) : Nat :=
  (books.delegation (pairText who validator)).val

/-- What a party has put up, for itself and for others. -/
noncomputable def holding (books : Books) (who : PartyId) : Nat :=
  books.bond who + Total.total (books.given who)

/-! ### Tokens -/

section Tokens

variable {books : Books} {source target who : PartyId} {amount value : U128}

theorem purse_withBalance :
    (books.withBalance who value).purse = Function.update books.purse who value.val := by
  funext whom
  by_cases same : whom = who
  · subst same
    simp only [purse, withBalance, Function.update_self]
  · simp only [purse, withBalance, Function.update_of_ne same]

theorem finite_withBalance (finite : (Function.support books.purse).Finite) :
    (Function.support (books.withBalance who value).purse).Finite := by
  rw [purse_withBalance]
  exact Total.support_update_finite finite who value.val

theorem total_withBalance (finite : (Function.support books.purse).Finite) :
    Total.total (books.withBalance who value).purse + books.purse who =
      Total.total books.purse + value.val := by
  rw [purse_withBalance]
  exact Total.total_update finite who value.val

theorem total_debited (finite : (Function.support books.purse).Finite)
    (enough : amount ≤ books.balance who) :
    Total.total (books.debited who amount).purse + amount.val = Total.total books.purse := by
  have written : Total.total (books.debited who amount).purse + books.purse who = _ :=
    total_withBalance finite
  rw [U128.sub_val enough] at written
  have bound : amount.val ≤ books.purse who := enough
  change _ = _ + (books.purse who - amount.val) at written
  omega

theorem total_moved (finite : (Function.support books.purse).Finite)
    (covered : books.Covers source target amount) :
    Total.total (books.moved source target amount).purse = Total.total books.purse := by
  obtain ⟨enough, fits⟩ := covered
  have taken := total_debited finite enough
  have finite' : (Function.support (books.debited source amount).purse).Finite :=
    finite_withBalance finite
  have written : Total.total (books.moved source target amount).purse +
      (books.debited source amount).purse target = _ := total_withBalance finite'
  rw [Fin.val_add, Nat.mod_eq_of_lt fits] at written
  change _ = _ + ((books.debited source amount).purse target + amount.val) at written
  omega

/-- With few tokens about, whoever has the amount can move it. -/
theorem covers_of_enough (finite : (Function.support books.purse).Finite)
    (small : Total.total books.purse < 2 ^ 127) (enough : amount ≤ books.balance source) :
    books.Covers source target amount := by
  have taken := total_debited finite enough
  have finite' : (Function.support (books.debited source amount).purse).Finite :=
    finite_withBalance finite
  have part := Total.le_total finite' target
  refine ⟨enough, ?_⟩
  change (books.debited source amount).purse target + amount.val < 2 ^ 128
  omega

theorem finite_moved (finite : (Function.support books.purse).Finite) :
    (Function.support (books.moved source target amount).purse).Finite :=
  finite_withBalance (finite_withBalance finite)

theorem purse_moved_other (notSource : who ≠ source) (notTarget : who ≠ target) :
    (books.moved source target amount).purse who = books.purse who := by
  simp only [purse, moved, debited, withBalance, Function.update_of_ne notSource,
    Function.update_of_ne notTarget]

theorem purse_moved_target (different : target ≠ source)
    (covered : books.Covers source target amount) :
    (books.moved source target amount).purse target = books.purse target + amount.val := by
  have kept : (books.debited source amount).balance target = books.balance target := by
    simp only [debited, withBalance, Function.update_of_ne different]
  have fits := covered.2
  unfold moved
  rw [kept] at fits ⊢
  simp only [purse, withBalance, Function.update_self]
  rw [Fin.val_add, Nat.mod_eq_of_lt fits]

theorem purse_moved_source (different : source ≠ target)
    (covered : books.Covers source target amount) :
    (books.moved source target amount).purse source = books.purse source - amount.val := by
  simp only [purse, moved, debited, withBalance, Function.update_of_ne different,
    Function.update_self]
  exact U128.sub_val covered.1

end Tokens

/-! ### The invariant -/

/-- Records carry their owner, only submitters have a bond of their own, and the
incoming delegations are those the submitters made. -/
structure Records (books : Books) : Prop where
  owned : ∀ who, (books.record who).owner = who
  outside : ∀ who, Node.reserved who = true → books.bond who = 0
  received : ∀ validator,
    books.incoming validator = Total.total fun who : Plain => books.given who validator
  finiteGiven : (Function.support fun pair => (books.delegation pair).val).Finite

structure Accounts (books : Books) : Prop extends Records books where
  covered : ∀ who : Plain, books.lock who = books.holding who
  unlocked : ∀ who, Node.reserved who = true → books.lock who = 0
  summed : books.total.val = Total.total books.lock
  escrowed : Total.total books.lock ≤ books.purse escrowAccount
  funded : Total.total books.purse < 2 ^ 127
  finiteLocks : (Function.support books.lock).Finite
  finitePurses : (Function.support books.purse).Finite

section Slices

variable {books : Books}

/-- Whoever has a bond of its own can submit commands. -/
theorem Records.plain_of_bond (records : Records books) {who : PartyId}
    (bonded : 0 < books.bond who) : Node.reserved who = false := by
  by_contra reserved
  have nothing := records.outside who (Bool.eq_true_of_not_eq_false reserved)
  omega

theorem Records.finite_made (records : Records books) (who : Plain) :
    (Function.support (books.given who)).Finite := by
  apply (records.finiteGiven.preimage (f := pairText who.val) ?_).subset
  · exact fun _ nonzero => nonzero
  · intro validator _ other _ same
    exact (TokenPrism.pairText_owners who.property who.property same).2

theorem Records.finite_received (records : Records books) (validator : PartyId) :
    (Function.support fun who : Plain => books.given who validator).Finite := by
  apply (records.finiteGiven.preimage (f := fun who : Plain => pairText who.val validator) ?_).subset
  · exact fun _ nonzero => nonzero
  · intro who _ other _ same
    exact Subtype.ext (TokenPrism.pairText_owners who.property other.property same).1

end Slices

/-! ### Changes of the records -/

section Changes

variable {books : Books} {me validator : Plain} {record : StakeRecord}

theorem record_withRecord (who : PartyId) :
    (books.withRecord record).record who =
      if who = record.owner then record else books.record who := by
  simp only [withRecord, Function.update_apply]

/-- A record whose own bond is rewritten. -/
theorem Records.rebond (records : Records books) (me : Plain) (value : U128) :
    Records (books.withRecord { books.record me with selfBonded := value }) := by
  have owner : (books.record me).owner = me := records.owned me
  refine ⟨?_, ?_, ?_, records.finiteGiven⟩
  · intro who
    rw [record_withRecord]
    split
    · rename_i same
      exact same.symm
    · exact records.owned who
  · intro who reserved
    have other : who ≠ (books.record me).owner := by
      rw [owner]
      intro same
      have plain := me.property
      rw [← same, reserved] at plain
      cases plain
    unfold bond
    rw [record_withRecord, if_neg other]
    exact records.outside who reserved
  · intro whom
    have kept : (books.withRecord { books.record me with selfBonded := value }).incoming whom =
        books.incoming whom := by
      unfold incoming
      rw [record_withRecord]
      split
      · rename_i same
        change (books.record me).delegatedIn.val = _
        rw [same, owner]
      · rfl
    rw [kept]
    exact records.received whom

theorem holding_rebond (records : Records books) (value : U128) (who : Plain) :
    (books.withRecord { books.record me with selfBonded := value }).holding who =
      if who = me then value.val + Total.total (books.given me) else books.holding who := by
  have owner : (books.record me).owner = me := records.owned me
  unfold holding bond
  rw [record_withRecord]
  change (if who.val = (books.record me).owner then _ else _ : StakeRecord).selfBonded.val +
    Total.total (books.given who) = _
  rw [owner]
  by_cases same : who = me
  · rw [if_pos same, if_pos (congrArg Subtype.val same), same]
  · rw [if_neg same, if_neg fun equal => same (Subtype.ext equal)]

/-- A delegation and the record of its receiver rewritten together. -/
def redelegated (books : Books) (me validator : PartyId) (value received : U128) : Books :=
  (books.withDelegation me validator value).withRecord
    { books.record validator with delegatedIn := received }

theorem given_redelegated {receiver : PartyId} {value received : U128} (who : Plain) :
    (books.redelegated me receiver value received).given who =
      if who = me then Function.update (books.given me) receiver value.val
      else books.given who := by
  funext whom
  have read : (books.redelegated me receiver value received).given who whom =
      (Function.update books.delegation (pairText me receiver) value (pairText who whom)).val := rfl
  rw [read, Function.update_apply]
  by_cases same : who = me
  · subst same
    rw [if_pos rfl, Function.update_apply]
    by_cases target : whom = receiver
    · rw [if_pos target, if_pos (congrArg (pairText who.val) target)]
    · rw [if_neg target, if_neg]
      · rfl
      · exact fun equal => target (TokenPrism.pairText_owners who.property who.property equal).2
  · rw [if_neg same, if_neg]
    · rfl
    · intro equal
      exact same (Subtype.ext (TokenPrism.pairText_owners who.property me.property equal).1)

theorem Records.redelegate (records : Records books) (me : Plain) (receiver : PartyId)
    {value received : U128}
    (balanced : received.val + books.given me receiver = books.incoming receiver + value.val) :
    Records (books.redelegated me receiver value received) := by
  have owner : (books.record receiver).owner = receiver := records.owned receiver
  refine ⟨?_, ?_, ?_, ?_⟩
  · intro who
    unfold redelegated
    rw [record_withRecord]
    split
    · rename_i same
      exact same.symm
    · exact records.owned who
  · intro who reserved
    unfold redelegated bond
    rw [record_withRecord]
    split
    · rename_i same
      rw [owner] at same
      rw [same] at reserved
      exact records.outside receiver reserved
    · exact records.outside who reserved
  · intro whom
    unfold redelegated incoming
    rw [record_withRecord]
    by_cases same : whom = receiver
    · subst same
      have updated : (fun who : Plain => (books.redelegated me whom value received).given who whom) =
          Function.update (fun who : Plain => books.given who whom) me value.val := by
        funext who
        rw [given_redelegated, Function.update_apply]
        split
        · rw [Function.update_self]
        · rfl
      have sum := Total.total_update (records.finite_received whom) me value.val
      rw [if_pos owner.symm]
      change received.val = Total.total
        (fun who : Plain => (books.redelegated me whom value received).given who whom)
      rw [updated]
      rw [← records.received whom] at sum
      omega
    · have kept : (fun who : Plain =>
          (books.redelegated me receiver value received).given who whom) =
          fun who : Plain => books.given who whom := by
        funext who
        rw [given_redelegated]
        split
        · rename_i self
          rw [Function.update_of_ne same, self]
        · rfl
      rw [if_neg fun equal => same (equal.trans owner)]
      refine (records.received whom).trans ?_
      exact congrArg Total.total kept.symm
  · have updated : (fun pair => ((books.redelegated me receiver value received).delegation pair).val) =
        Function.update (fun pair => (books.delegation pair).val) (pairText me receiver)
          value.val := by
      funext pair
      change (Function.update books.delegation (pairText me receiver) value pair).val = _
      rw [Function.update_apply, Function.update_apply]
      split <;> rfl
    rw [updated]
    exact Total.support_update_finite records.finiteGiven _ _

theorem holding_redelegated (records : Records books) {receiver : PartyId} {value received : U128}
    (who : Plain) :
    (books.redelegated me receiver value received).holding who =
      if who = me then books.bond me + Total.total (Function.update (books.given me) receiver value.val)
      else books.holding who := by
  have bonds : (books.redelegated me receiver value received).bond who = books.bond who := by
    unfold redelegated bond
    rw [record_withRecord]
    split
    · rename_i same
      rw [same]
      change (books.record receiver).selfBonded.val = _
      rw [records.owned receiver]
    · rfl
  unfold holding
  rw [bonds, given_redelegated]
  split
  · rename_i same
    rw [same]
  · rfl

end Changes

/-! ### The lock follows -/

/-- A lock change after tokens and records have moved: the lock reaches the new
holding, and escrow has moved by at least as much. -/
theorem Accounts.follow {books middle after : Books} {me : Plain} {delta : Int} {value : Nat}
    {result : Unit} (accounts : Accounts books) (records : Records middle)
    (held : ∀ who : Plain, middle.holding who = if who = me then value else books.holding who)
    (locks : middle.locked = books.locked) (totals : middle.total = books.total)
    (escrow : books.purse escrowAccount + value ≤ middle.purse escrowAccount + books.lock me)
    (funds : Total.total middle.purse < 2 ^ 127)
    (finite : (Function.support middle.purse).Finite)
    (lockMoves : (I128.addClamped (I128.ofU128 (books.locked me)) delta).val = value)
    (totalMoves : (I128.addClamped (I128.ofU128 books.total) delta).val + books.lock me =
      books.total.val + value)
    (followed : Yields (Sketch.updateLock me.val delta) middle result after) : Accounts after := by
  obtain ⟨paid, rfl⟩ := yields_updateLock.mp followed
  let last := (middle.moved rewardPoolAccount me (middle.pending me)).relocked me delta
  have lock : last.lock = Function.update books.lock me value := by
    funext who
    have read : last.lock who = (Function.update middle.locked me
        (I128.addClamped (I128.ofU128 (middle.locked me)) delta) who).val := rfl
    rw [read, locks, Function.update_apply, Function.update_apply]
    split
    · exact lockMoves
    · rfl
  have total : last.total = I128.addClamped (I128.ofU128 middle.total) delta := rfl
  have purse : last.purse = (middle.moved rewardPoolAccount me (middle.pending me)).purse := rfl
  have sum := Total.total_update accounts.finiteLocks me.val value
  have escrowKept : last.purse escrowAccount = middle.purse escrowAccount := by
    rw [purse]
    exact purse_moved_other pool_ne_escrow.symm me.ne_escrow.symm
  change Accounts last
  refine { toRecords := ⟨records.owned, records.outside, records.received, records.finiteGiven⟩,
           covered := ?_, unlocked := ?_, summed := ?_, escrowed := ?_, funded := ?_,
           finiteLocks := ?_, finitePurses := ?_ }
  · intro who
    have holding : last.holding who = middle.holding who := rfl
    rw [lock, holding, held who, Function.update_apply]
    by_cases same : who = me
    · rw [if_pos (congrArg Subtype.val same), if_pos same]
    · rw [if_neg fun equal => same (Subtype.ext equal), if_neg same]
      exact accounts.covered who
  · intro who reserved
    have other : who ≠ me := by
      intro same
      rw [same, me.property] at reserved
      cases reserved
    rw [lock, Function.update_of_ne other]
    exact accounts.unlocked who reserved
  · rw [lock, total, totals]
    have before := accounts.summed
    omega
  · rw [lock, escrowKept]
    have before := accounts.escrowed
    omega
  · rw [purse, total_moved finite paid]
    exact funds
  · rw [lock]
    exact Total.support_update_finite accounts.finiteLocks _ _
  · rw [purse]
    exact finite_moved finite

/-! ### The operations -/

section Operations

variable {books after : Books} {me : Plain} {amount : U128} {result : Unit}

theorem Accounts.small (accounts : Accounts books) (who : PartyId) :
    books.lock who ≤ Total.total books.lock ∧ Total.total books.lock < 2 ^ 127 := by
  have part := Total.le_total accounts.finiteLocks who
  have held := Total.le_total accounts.finitePurses escrowAccount
  have bound := accounts.escrowed
  have funds := accounts.funded
  omega

theorem Accounts.incoming_le (accounts : Accounts books) (validator : PartyId) :
    books.incoming validator ≤ Total.total books.lock := by
  rw [accounts.received validator]
  apply Total.total_le_total Subtype.val_injective _ accounts.finiteLocks
  intro who
  have share := Total.le_total (accounts.finite_made who) validator
  have lock := accounts.covered who
  unfold holding at lock
  omega

/-- Tokens going into escrow leave room for the locks to grow. -/
theorem Accounts.room (accounts : Accounts books)
    (covered : books.Covers me escrowAccount amount) :
    Total.total books.lock + amount.val < 2 ^ 127 := by
  have credited := purse_moved_target me.ne_escrow.symm covered
  have part : (books.moved me escrowAccount amount).purse escrowAccount ≤ _ :=
    Total.le_total (finite_moved accounts.finitePurses) escrowAccount
  rw [total_moved accounts.finitePurses covered, credited] at part
  have bound := accounts.escrowed
  have funds := accounts.funded
  omega

theorem Accounts.raise {middle : Books} (accounts : Accounts books)
    (covered : books.Covers me escrowAccount amount) (records : Records middle)
    (held : ∀ who : Plain, middle.holding who =
      if who = me then books.lock me + amount.val else books.holding who)
    (locks : middle.locked = books.locked) (totals : middle.total = books.total)
    (purses : middle.purse = (books.moved me escrowAccount amount).purse)
    (followed : Yields (Sketch.updateLock me.val (I128.ofU128 amount)) middle result after) :
    Accounts after := by
  have room := accounts.room covered
  obtain ⟨part, _⟩ := accounts.small me
  have summed := accounts.summed
  have credited := purse_moved_target me.ne_escrow.symm covered
  have lockRoom : (books.locked me).val + amount.val < 2 ^ 127 := by
    change books.lock me + amount.val < 2 ^ 127
    omega
  have totalRoom : books.total.val + amount.val < 2 ^ 127 := by
    omega
  refine accounts.follow records held locks totals ?_ ?_ ?_
    (I128.addClamped_raise lockRoom) ?_ followed
  · rw [purses, credited]
    omega
  · rw [purses, total_moved accounts.finitePurses covered]
    exact accounts.funded
  · rw [purses]
    exact finite_moved accounts.finitePurses
  · rw [I128.addClamped_raise totalRoom]
    omega

theorem Accounts.stake (accounts : Accounts books)
    (ended : Yields (Sketch.stake me amount) books result after) : Accounts after := by
  obtain ⟨_, covered, followed⟩ := yields_stake.mp ended
  have room := accounts.room covered
  obtain ⟨part, _⟩ := accounts.small me
  have lock := accounts.covered me
  have moved : Records (books.moved me escrowAccount amount) :=
    ⟨accounts.owned, accounts.outside, accounts.received, accounts.finiteGiven⟩
  refine accounts.raise covered (moved.rebond me _) ?_ rfl rfl rfl followed
  intro who
  rw [holding_rebond moved]
  have given : (books.moved me escrowAccount amount).given me = books.given me := rfl
  have others : (books.moved me escrowAccount amount).holding who = books.holding who := rfl
  have bonds : ((books.record me).selfBonded + amount).val = books.bond me + amount.val := by
    unfold holding at lock
    rw [Fin.val_add]
    exact Nat.mod_eq_of_lt (by change books.bond me + amount.val < 2 ^ 128; omega)
  rw [given, others, bonds, lock]
  unfold holding
  congr 1
  omega

theorem Accounts.delegate {validator : PartyId} (accounts : Accounts books)
    (ended : Yields (Sketch.delegate me validator amount) books result after) : Accounts after := by
  obtain ⟨_, covered, followed⟩ := yields_delegate.mp ended
  have room := accounts.room covered
  obtain ⟨part, _⟩ := accounts.small me
  have lock := accounts.covered me
  have share := Total.le_total (accounts.finite_made me) validator
  have moved : Records (books.moved me escrowAccount amount) :=
    ⟨accounts.owned, accounts.outside, accounts.received, accounts.finiteGiven⟩
  have raised : (books.delegation (pairText me validator) + amount).val =
      books.given me validator + amount.val := by
    unfold holding at lock
    rw [Fin.val_add]
    exact Nat.mod_eq_of_lt (by change books.given me validator + amount.val < 2 ^ 128; omega)
  have received : ((books.record validator).delegatedIn + amount).val =
      books.incoming validator + amount.val := by
    have below := accounts.incoming_le validator
    rw [Fin.val_add]
    exact Nat.mod_eq_of_lt (by change books.incoming validator + amount.val < 2 ^ 128; omega)
  refine accounts.raise covered (moved.redelegate me validator ?_) ?_ rfl rfl rfl followed
  · rw [received, raised]
    change _ + books.given me validator = books.incoming validator + _
    omega
  · intro who
    rw [holding_redelegated moved, raised]
    have bonds : (books.moved me escrowAccount amount).bond me = books.bond me := rfl
    have given : (books.moved me escrowAccount amount).given me = books.given me := rfl
    have others : (books.moved me escrowAccount amount).holding who = books.holding who := rfl
    have sum := Total.total_update (accounts.finite_made me) validator
      (books.given me validator + amount.val)
    rw [bonds, given, others, lock]
    unfold holding
    congr 1
    omega

/-- Operations that leave stakes and locks alone and take nothing from escrow. -/
theorem Accounts.carry (accounts : Accounts books) (records : after.record = books.record)
    (delegations : after.delegation = books.delegation) (locks : after.locked = books.locked)
    (totals : after.total = books.total)
    (escrow : books.purse escrowAccount ≤ after.purse escrowAccount)
    (funds : Total.total after.purse < 2 ^ 127)
    (finite : (Function.support after.purse).Finite) : Accounts after := by
  have lock : after.lock = books.lock := by
    unfold lock
    rw [locks]
  have given : after.given = books.given := by
    unfold given
    rw [delegations]
  have bond : after.bond = books.bond := by
    unfold bond
    rw [records]
  have incoming : after.incoming = books.incoming := by
    unfold incoming
    rw [records]
  have holding : after.holding = books.holding := by
    unfold holding
    rw [bond, given]
  have escrowed := accounts.escrowed
  refine ⟨⟨?_, ?_, ?_, ?_⟩, ?_, ?_, ?_, ?_, funds, ?_, finite⟩
  · rw [records]
    exact accounts.owned
  · rw [bond]
    exact accounts.outside
  · rw [incoming, given]
    exact accounts.received
  · rw [delegations]
    exact accounts.finiteGiven
  · rw [lock, holding]
    exact accounts.covered
  · rw [lock]
    exact accounts.unlocked
  · rw [lock, totals]
    exact accounts.summed
  · rw [lock]
    omega
  · rw [lock]
    exact accounts.finiteLocks

theorem Accounts.drop {middle : Books} (accounts : Accounts books)
    (enough : amount.val ≤ books.lock me) (records : Records middle)
    (held : ∀ who : Plain, middle.holding who =
      if who = me then books.lock me - amount.val else books.holding who)
    (locks : middle.locked = books.locked) (totals : middle.total = books.total)
    (escrow : books.purse escrowAccount ≤ middle.purse escrowAccount + amount.val)
    (funds : Total.total middle.purse ≤ Total.total books.purse)
    (finite : (Function.support middle.purse).Finite)
    (followed : Yields (Sketch.updateLock me.val (I128.wrap (-I128.ofU128 amount))) middle result
      after) : Accounts after := by
  obtain ⟨part, small⟩ := accounts.small me
  have summed := accounts.summed
  have funded := accounts.funded
  have lockSmall : (books.locked me).val < 2 ^ 127 := part.trans_lt small
  refine accounts.follow records held locks totals ?_ ?_ finite
    (I128.addClamped_drop lockSmall enough) ?_ followed
  · omega
  · omega
  · rw [I128.addClamped_drop (by omega) (by omega)]
    omega

theorem Accounts.unstake (accounts : Accounts books)
    (ended : Yields (Sketch.unstake me amount) books result after) : Accounts after := by
  obtain ⟨bonded, covered, followed⟩ := yields_unstake.mp ended
  have enough : amount.val ≤ books.bond me := bonded
  have lock := accounts.covered me
  have debited := purse_moved_source me.ne_escrow.symm covered
  have moved : Records (books.moved escrowAccount me amount) :=
    ⟨accounts.owned, accounts.outside, accounts.received, accounts.finiteGiven⟩
  have bonds : ((books.record me).selfBonded - amount).val = books.bond me - amount.val :=
    U128.sub_val bonded
  unfold holding at lock
  refine accounts.drop (by omega) (moved.rebond me _) ?_ rfl rfl ?_ ?_ ?_ followed
  · intro who
    rw [holding_rebond moved]
    have given : (books.moved escrowAccount me amount).given me = books.given me := rfl
    have others : (books.moved escrowAccount me amount).holding who = books.holding who := rfl
    rw [given, others, bonds, lock]
    congr 1
    omega
  · change _ ≤ (books.moved escrowAccount me amount).purse escrowAccount + _
    rw [debited]
    omega
  · exact (total_moved accounts.finitePurses covered).le
  · exact finite_moved accounts.finitePurses

theorem Accounts.undelegate {validator : PartyId} (accounts : Accounts books)
    (ended : Yields (Sketch.undelegate me validator amount) books result after) :
    Accounts after := by
  obtain ⟨delegated, covered, followed⟩ := yields_undelegate.mp ended
  have enough : amount.val ≤ books.given me validator := delegated
  have lock := accounts.covered me
  have share := Total.le_total (accounts.finite_made me) validator
  have debited := purse_moved_source me.ne_escrow.symm covered
  have moved : Records (books.moved escrowAccount me amount) :=
    ⟨accounts.owned, accounts.outside, accounts.received, accounts.finiteGiven⟩
  have lowered : (books.delegation (pairText me validator) - amount).val =
      books.given me validator - amount.val := U128.sub_val delegated
  have whole : books.given me validator ≤ books.incoming validator := by
    rw [accounts.received validator]
    exact Total.le_total (accounts.finite_received validator) me
  have received : ((books.record validator).delegatedIn.saturatingSub amount).val =
      books.incoming validator - amount.val := rfl
  unfold holding at lock
  refine accounts.drop (by omega) (moved.redelegate me validator ?_) ?_ rfl rfl ?_ ?_ ?_ followed
  · rw [received, lowered]
    change _ + books.given me validator = books.incoming validator + _
    omega
  · intro who
    rw [holding_redelegated moved, lowered]
    have bonds : (books.moved escrowAccount me amount).bond me = books.bond me := rfl
    have given : (books.moved escrowAccount me amount).given me = books.given me := rfl
    have others : (books.moved escrowAccount me amount).holding who = books.holding who := rfl
    have sum := Total.total_update (accounts.finite_made me) validator
      (books.given me validator - amount.val)
    rw [bonds, given, others, lock]
    congr 1
    omega
  · change _ ≤ (books.moved escrowAccount me amount).purse escrowAccount + _
    rw [debited]
    omega
  · exact (total_moved accounts.finitePurses covered).le
  · exact finite_moved accounts.finitePurses

theorem penalty_le (books : Books) (offender : PartyId) :
    (books.penalty offender).val ≤ books.bond offender := by
  have share : (books.penalty offender).val =
      books.bond offender * 2000 % 2 ^ 128 / 10000 := by
    unfold penalty
    rw [Fin.div_val, Fin.val_mul]
    rfl
  have wrapped := Nat.mod_le (books.bond offender * 2000) (2 ^ 128)
  rw [share]
  apply Nat.div_le_of_le_mul
  omega

theorem Accounts.punish {offence : Hash} {offender : PartyId} (accounts : Accounts books)
    (ended : Yields (Sketch.punish offence offender) books result after) : Accounts after := by
  obtain ⟨_, ⟨_, rfl⟩ | ⟨positive, escrow, middle, followed, rfl⟩⟩ := yields_punish.mp ended
  · exact accounts.carry rfl rfl rfl rfl le_rfl accounts.funded accounts.finitePurses
  · have share := penalty_le books offender
    have burned : 0 < (books.penalty offender).val := positive
    have plain : Node.reserved offender = false := accounts.plain_of_bond (by omega)
    let me : Plain := ⟨offender, plain⟩
    have lock := accounts.covered me
    have held : (books.penalty offender).val ≤ books.purse escrowAccount := escrow
    have taken := total_debited accounts.finitePurses escrow
    have debited : (books.debited escrowAccount (books.penalty offender)).purse escrowAccount =
        books.purse escrowAccount - (books.penalty offender).val := by
      simp only [purse, Books.debited, withBalance, Function.update_self]
      exact U128.sub_val escrow
    have moved : Records (books.debited escrowAccount (books.penalty offender)) :=
      ⟨accounts.owned, accounts.outside, accounts.received, accounts.finiteGiven⟩
    have bonds : ((books.record offender).selfBonded - books.penalty offender).val =
        books.bond offender - (books.penalty offender).val := U128.sub_val share
    unfold holding at lock
    have same : me.val = offender := rfl
    rw [same] at lock
    have unlocked : Yields (Sketch.updateLock me.val
        (I128.wrap (-I128.ofU128 (books.penalty offender)))) (books.burning offender) () middle :=
      followed
    have accounts' : Accounts middle := by
      refine accounts.drop ?_ (moved.rebond me _) ?_ rfl rfl ?_ ?_ ?_ unlocked
      · rw [same]
        omega
      · intro who
        rw [holding_rebond moved]
        have given : (books.debited escrowAccount (books.penalty offender)).given me =
            books.given offender := rfl
        have others : (books.debited escrowAccount (books.penalty offender)).holding who =
            books.holding who := rfl
        rw [given, others, bonds, same, lock]
        congr 1
        omega
      · change _ ≤ (books.debited escrowAccount (books.penalty offender)).purse escrowAccount + _
        rw [debited]
        omega
      · change Total.total (books.debited escrowAccount (books.penalty offender)).purse ≤ _
        omega
      · exact finite_withBalance accounts.finitePurses
    exact accounts'.carry rfl rfl rfl rfl le_rfl accounts'.funded accounts'.finitePurses

theorem Accounts.fundRewards (accounts : Accounts books)
    (ended : Yields (Sketch.fundRewards me amount) books result after) : Accounts after := by
  obtain ⟨_, _, covered, rfl⟩ := yields_fundRewards.mp ended
  have purses : (books.funding me amount).purse = (books.moved me rewardPoolAccount amount).purse := by
    funext who
    simp only [funding, purse]
  refine accounts.carry rfl rfl rfl rfl ?_ ?_ ?_
  · rw [purses]
    exact (purse_moved_other me.ne_escrow.symm pool_ne_escrow.symm).ge
  · rw [purses]
    exact (total_moved accounts.finitePurses covered).trans_lt accounts.funded
  · rw [purses]
    exact finite_moved accounts.finitePurses

theorem Accounts.claimRewards (accounts : Accounts books)
    (ended : Yields (Sketch.claimRewards me) books result after) : Accounts after := by
  obtain ⟨covered, rfl⟩ := yields_claimRewards.mp ended
  refine accounts.carry rfl rfl rfl rfl ?_ ?_ ?_
  · exact (purse_moved_other pool_ne_escrow.symm me.ne_escrow.symm).ge
  · exact (total_moved accounts.finitePurses covered).trans_lt accounts.funded
  · exact finite_moved accounts.finitePurses

theorem Accounts.withProposal (accounts : Accounts books) (id : Hash) (proposal : Proposal) :
    Accounts (books.withProposal id proposal) :=
  accounts.carry rfl rfl rfl rfl le_rfl accounts.funded accounts.finitePurses

theorem Accounts.withBallot (accounts : Accounts books) (id : Hash) (who : PartyId) :
    Accounts (books.withBallot id who) :=
  accounts.carry rfl rfl rfl rfl le_rfl accounts.funded accounts.finitePurses

theorem Accounts.execute [SerdeJson] [Blake3] [Ed25519] {command : Command} {height : UInt64}
    {operation : StakingCommand} (plain : Node.reserved command.submitter = false)
    (accounts : Accounts books)
    (ended : Yields (Sketch.execute command height operation) books result after) :
    Accounts after := by
  let me : Plain := ⟨command.submitter, plain⟩
  cases operation with
  | stake amount => exact accounts.stake (show Yields (Sketch.stake me.val amount) _ _ _ from ended)
  | unstake amount =>
      exact accounts.unstake (show Yields (Sketch.unstake me.val amount) _ _ _ from ended)
  | delegate validator amount =>
      exact accounts.delegate
        (show Yields (Sketch.delegate me.val validator amount) _ _ _ from ended)
  | undelegate validator amount =>
      exact accounts.undelegate
        (show Yields (Sketch.undelegate me.val validator amount) _ _ _ from ended)
  | propose title description votingPeriod =>
      obtain ⟨_, _, rfl⟩ := yields_propose.mp ended
      exact accounts.withProposal _ _
  | vote proposalId approve =>
      obtain ⟨_, _, _, _, _, _, rfl⟩ := yields_vote.mp ended
      exact (accounts.withBallot _ _).withProposal _ _
  | finalize proposalId =>
      obtain ⟨_, _, _, _, rfl⟩ := yields_finalize.mp ended
      exact accounts.withProposal _ _
  | slash proof =>
      obtain ⟨_, _, _, _, _, _, _, _, _, _, _, _, _, punished⟩ := yields_slash.mp ended
      exact accounts.punish punished
  | slashQuorum proof =>
      obtain ⟨_, _, _, _, _, _, _, punished⟩ := yields_slashQuorum.mp ended
      exact accounts.punish punished
  | fundRewards amount =>
      exact accounts.fundRewards (show Yields (Sketch.fundRewards me.val amount) _ _ _ from ended)
  | claimRewards =>
      exact accounts.claimRewards (show Yields (Sketch.claimRewards me.val) _ _ _ from ended)

end Operations

end Books

/-! ### Runs -/

section Runs

variable [SerdeJson] [Blake3]

/-- The native token as the genesis leaves it. -/
structure Seeded (state : StateTree) : Prop where
  issued : TokenPrism.total state nativeTokenId = TokenPrism.supply state nativeTokenId
  small : TokenPrism.supply state nativeTokenId < 2 ^ 127

theorem Seeded.total_lt {state : StateTree} (seeded : Seeded state) :
    TokenPrism.total state nativeTokenId < 2 ^ 127 := by
  rw [seeded.issued]
  exact seeded.small

structure NoStake (state : StateTree) : Prop where
  records : ∀ who, stakeOf state who = StakeRecord.empty who
  delegations : ∀ delegator validator, delegation state delegator validator = 0
  locks : ∀ who, lockedOf state who = 0
  total : totalStake state = 0

/-- Books without any stake or reward. -/
structure Books.Unstaked (books : Books) : Prop where
  records : books.record = StakeRecord.empty
  delegations : books.delegation = fun _ => 0
  locks : books.locked = fun _ => 0
  total : books.total = 0
  acc : books.acc = 0
  debts : books.debt = fun _ => 0

omit [SerdeJson] [Blake3] in
theorem Books.Unstaked.handedOut (allocations : List (PartyId × U128)) :
    (Books.handedOut allocations).Unstaked := by
  have kept : ∀ start : Books, start.Unstaked →
      (allocations.foldl (fun books allocation => books.withBalance allocation.1
        (books.balance allocation.1 + allocation.2)) start).Unstaked := by
    induction allocations with
    | nil => exact fun _ unstaked => unstaked
    | cons allocation rest ih =>
        intro start unstaked
        exact ih _ ⟨unstaked.records, unstaked.delegations, unstaked.locks, unstaked.total,
          unstaked.acc, unstaked.debts⟩
  exact kept _ ⟨rfl, rfl, rfl, rfl, rfl, rfl⟩

theorem NoStake.of_books {state : StateTree} (unstaked : (books state).Unstaked) :
    NoStake state := by
  refine ⟨?_, ?_, ?_, unstaked.total⟩
  · intro who
    exact congrFun unstaked.records who
  · intro delegator validator
    rw [← books_delegation]
    exact congrFun unstaked.delegations _
  · intro who
    exact congrFun unstaked.locks who

/-- The four places a stake is kept in agree. -/
structure Accounted (state : StateTree) : Prop where
  locked : ∀ who, Node.reserved who = false →
    (lockedOf state who).val = (stakeOf state who).selfBonded.val +
      Total.total fun validator => (delegation state who validator).val
  received : ∀ validator, (stakeOf state validator).delegatedIn.val =
    Total.total fun who : Plain => (delegation state who validator).val
  total : (totalStake state).val = Total.total fun who => (lockedOf state who).val
  escrow : (Total.total fun who => (lockedOf state who).val) ≤
    (TokenPrism.balance state nativeTokenId escrowAccount).val

theorem slots_finite {A : Type} (state : StateTree) {slot : A → Slot}
    (injective : Function.Injective slot) :
    (Function.support fun index => (readU128 state (slot index).key).val).Finite :=
  TokenPrism.amounts_finite state fun _ _ same => injective (Slot.key_injective same)

theorem NoStake.accounts {state : StateTree}
    (small : TokenPrism.total state nativeTokenId < 2 ^ 127) (fresh : NoStake state) :
    (books state).Accounts := by
  have noBond : ∀ who, (books state).bond who = 0 := by
    intro who
    change (stakeOf state who).selfBonded.val = 0
    rw [fresh.records who]
    rfl
  have noGift : ∀ who validator, (books state).given who validator = 0 := by
    intro who validator
    unfold Books.given
    rw [books_delegation, fresh.delegations]
    rfl
  have noLock : (books state).lock = fun _ => 0 := by
    funext who
    change (lockedOf state who).val = 0
    rw [fresh.locks who]
    rfl
  have noLocks : Total.total (books state).lock = 0 := by
    rw [noLock, Total.total_zero]
  refine { owned := ?_, outside := fun who _ => noBond who, received := ?_, finiteGiven := ?_,
           covered := ?_, unlocked := ?_, summed := ?_, escrowed := ?_, funded := ?_,
           finiteLocks := ?_, finitePurses := ?_ }
  · intro who
    change (stakeOf state who).owner = who
    rw [fresh.records who]
    rfl
  · intro validator
    have nothing : (fun who : Plain => (books state).given who validator) = fun _ => 0 :=
      funext fun who => noGift who validator
    rw [nothing, Total.total_zero]
    change (stakeOf state validator).delegatedIn.val = 0
    rw [fresh.records validator]
    rfl
  · exact slots_finite state fun _ _ same => Slot.delegation.inj same
  · intro who
    have nothing : (books state).given who = fun _ => 0 := funext fun validator => noGift who validator
    unfold Books.holding
    rw [noLock, noBond, nothing, Total.total_zero]
  · intro who _
    rw [noLock]
  · rw [noLocks]
    change (totalStake state).val = 0
    rw [fresh.total]
    rfl
  · rw [noLocks]
    exact Nat.zero_le _
  · exact small
  · exact slots_finite state fun _ _ same => Slot.locked.inj same
  · exact slots_finite state fun _ _ same => Slot.balance.inj same

theorem Accounted.of_accounts {state : StateTree} (accounts : (books state).Accounts) :
    Accounted state := by
  have given : ∀ who validator,
      (books state).given who validator = (delegation state who validator).val := by
    intro who validator
    unfold Books.given
    rw [books_delegation]
  refine ⟨?_, ?_, accounts.summed, accounts.escrowed⟩
  · intro who plain
    have lock := accounts.covered ⟨who, plain⟩
    have made : (books state).given who = fun validator => (delegation state who validator).val :=
      funext (given who)
    unfold Books.holding at lock
    rw [made] at lock
    exact lock
  · intro validator
    have made : (fun who : Plain => (books state).given who validator) =
        fun who : Plain => (delegation state who validator).val :=
      funext fun who => given who validator
    rw [← made]
    exact accounts.received validator

/-- Every list of first holders below the limit is a possible start. -/
theorem exists_seeded (allocations : List (PartyId × U128))
    (small : TokenPrism.handedOut allocations < 2 ^ 127) :
    ∃ start, Seeded start ∧ NoStake start ∧ books start = Books.handedOut allocations := by
  have absent : StateTree.empty.contains (TokenPrism.metaKey nativeTokenId) = false := by
    rw [StateTree.contains_eq_isSome, StateTree.get_empty, Option.isSome_none]
  have nothing : TokenPrism.total StateTree.empty nativeTokenId = 0 := by
    have balances : (fun who => (TokenPrism.balance StateTree.empty nativeTokenId who).val) =
        (books StateTree.empty).purse := rfl
    unfold TokenPrism.total
    rw [balances, books_empty]
    exact Total.total_zero
  obtain ⟨start, accepted, sum, recorded⟩ := TokenPrism.seedNativeToken_spec "Veilux" "LUX" 18
    ⟨"treasury"⟩ allocations absent nothing (by omega)
  have same := books_seedNativeToken _ _ _ _ accepted
  refine ⟨start, ⟨by omega, by omega⟩, NoStake.of_books ?_, same⟩
  rw [same]
  exact Books.Unstaked.handedOut allocations

/-- A party without a lock that reads some delegation is out of step. -/
theorem lockedOf_ne_of_given {state : StateTree} {who validator : PartyId}
    (unlocked : (books state).lock who = 0) (given : 0 < (books state).given who validator) :
    (lockedOf state who).val ≠ (stakeOf state who).selfBonded.val +
      Total.total fun other => (delegation state who other).val := by
  have made : (fun other => (delegation state who other).val) = (books state).given who := by
    funext other
    unfold Books.given
    rw [books_delegation]
  have finite : (Function.support ((books state).given who)).Finite := by
    refine slots_finite state fun left right same => ?_
    have texts := congrArg String.toList (Slot.delegation.inj same)
    rw [TokenPrism.pairText_toList, TokenPrism.pairText_toList] at texts
    exact PartyId.toList_injective (List.cons.inj (List.append_cancel_left texts)).2
  have share := Total.le_total finite validator
  have lock : (lockedOf state who).val = 0 := unlocked
  rw [made, lock]
  omega

variable [Ed25519]

/-- The accounts stay in step along every run. -/
theorem accounts_run {start : StateTree} {commands : List Command}
    (initially : (books start).Accounts) (accepted : Run.Along step Accepted start commands)
    (plain : ∀ command ∈ commands, Node.reserved command.submitter = false) :
    (books (Run.run step start commands)).Accounts := by
  let holds : StateTree → Prop := fun state => (books state).Accounts
  change holds (Run.run step start commands)
  refine Run.invariant step ?_ initially (Run.along_and step accepted plain)
  rintro state command accounts ⟨admitted, proper⟩
  obtain ⟨operation, _, ended⟩ := books_step admitted
  exact accounts.execute proper ended

/-- From a seeded token and no stake, whatever is accepted keeps locks, records,
delegations, the total and escrow in agreement. -/
theorem stake_accounted (start : StateTree) (commands : List Command) (seeded : Seeded start)
    (fresh : NoStake start) (accepted : Run.Along step Accepted start commands)
    (plain : ∀ command ∈ commands, Node.reserved command.submitter = false) :
    Accounted (Run.run step start commands) :=
  .of_accounts (accounts_run (fresh.accounts seeded.total_lt) accepted plain)

end Runs

/-! ### A delegation, and a name with a slash -/

section Slash

attribute [local instance] SerdeJson.compact Blake3.polynomial Ed25519.keyed

/-- One unit delegated by a. -/
def unitTo (validator : String) : Order :=
  { submitter := ⟨"a"⟩
    height := 0
    operation := .delegate ⟨validator⟩ 1 }

/-- What the books say about a, a/b and v. -/
def unitFacts (books : Books) : List Nat :=
  [books.lock ⟨"a"⟩, books.lock ⟨"a/b"⟩, books.bond ⟨"a/b"⟩, books.given ⟨"a/b"⟩ ⟨"v"⟩,
    books.incoming ⟨"v"⟩]

theorem unitTo_planned :
    (plan [unitTo "v"] (Books.handedOut [(⟨"a"⟩, 5)])).map unitFacts = some [1, 0, 0, 0, 1] ∧
    (plan [unitTo "b/v"] (Books.handedOut [(⟨"a"⟩, 5)])).map unitFacts = some [1, 0, 0, 1, 0] := by
  decide +kernel

theorem stake_accounted_unit :
    ∃ start, Seeded start ∧ NoStake start ∧
      Run.Along step Accepted start [(unitTo "v").command] ∧
      (lockedOf (Run.run step start [(unitTo "v").command]) ⟨"a"⟩).val = 1 ∧
      Accounted (Run.run step start [(unitTo "v").command]) := by
  obtain ⟨start, seeded, fresh, same⟩ := exists_seeded [(⟨"a"⟩, 5)] (by decide)
  obtain ⟨last, planned, facts⟩ := Option.map_eq_some_iff.mp unitTo_planned.1
  rw [← same] at planned
  obtain ⟨accepted, final⟩ := run_of_plan planned
  have plain : ∀ command ∈ [(unitTo "v").command], Node.reserved command.submitter = false := by
    intro command member
    rw [List.mem_singleton.mp member]
    decide
  refine ⟨start, seeded, fresh, accepted, ?_,
    stake_accounted start [(unitTo "v").command] seeded fresh accepted plain⟩
  rw [← final] at facts
  exact (List.cons.inj facts).1

/-- The name a/b has nothing locked, yet it reads the delegation that a made; and the
delegation it reads is one to v, which has received nothing. -/
theorem slash_not_accounted :
    ∃ start, Seeded start ∧ NoStake start ∧
      Run.Along step Accepted start [(unitTo "b/v").command] ∧
      Node.reserved (unitTo "b/v").command.submitter = false ∧
      (lockedOf (Run.run step start [(unitTo "b/v").command]) ⟨"a/b"⟩).val ≠
        (stakeOf (Run.run step start [(unitTo "b/v").command]) ⟨"a/b"⟩).selfBonded.val +
          Total.total fun validator =>
            (delegation (Run.run step start [(unitTo "b/v").command]) ⟨"a/b"⟩ validator).val := by
  obtain ⟨start, seeded, fresh, same⟩ := exists_seeded [(⟨"a"⟩, 5)] (by decide)
  obtain ⟨last, planned, facts⟩ := Option.map_eq_some_iff.mp unitTo_planned.2
  rw [← same] at planned
  obtain ⟨accepted, final⟩ := run_of_plan planned
  refine ⟨start, seeded, fresh, accepted, by decide, ?_⟩
  rw [← final] at facts
  simp only [unitFacts, List.cons.injEq] at facts
  obtain ⟨_, lock, _, given, _⟩ := facts
  exact lockedOf_ne_of_given lock (Nat.zero_lt_one.trans_eq given.symm)

end Slash

end StakingPrism

end Veilux
