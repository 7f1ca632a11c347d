/-
The books of the staking prism.  The state tree keeps every stake, lock, reward and
proposal as text under a key; the books are the same facts as functions of parties
and hashes.  Every operation of the prism is mirrored by a sketch over the books,
which is what the accounting results are about.
-/

import Veilux.Lib.Mirror
import Veilux.Prism.Names
import Veilux.Prism.NativeToken
import Veilux.Prism.Staking

namespace Veilux

namespace Proposal

/-- A ballot of some power added to the tally. -/
def counted (proposal : Proposal) (approve : Bool) (power : U128) : Proposal :=
  if approve then { proposal with yesPower := proposal.yesPower + power }
  else { proposal with noPower := proposal.noPower + power }

def closed (proposal : Proposal) : Proposal :=
  { proposal with
    status := if proposal.noPower < proposal.yesPower then .passed else .rejected }

end Proposal

namespace StakingPrism

open TokenPrism (amountAt balKey balPrefix debited lowered metaKey metaPrefix nativeTokenId pairText
  tokenMeta? transferred withBalance)
open Mirror

/-! ### Slots -/

/-- The families of keys the prism reads or writes. -/
inductive Kind where
  | info
  | balance
  | stake
  | delegation
  | locked
  | debt
  | total
  | acc
  | proposal
  | ballot
  | offence
  deriving DecidableEq

namespace Kind

def head : Kind → String
  | .info => metaPrefix
  | .balance => balPrefix
  | .stake => stakePrefix
  | .delegation => delegPrefix
  | .locked => lockedPrefix
  | .debt => rewardDebtPrefix
  | .total => totalStakeKey
  | .acc => rewardAccKey
  | .proposal => proposalPrefix
  | .ballot => votePrefix
  | .offence => slashPrefix

def all : List Kind :=
  [.info, .balance, .stake, .delegation, .locked, .debt, .total, .acc, .proposal, .ballot, .offence]

theorem mem_all (kind : Kind) : kind ∈ all := by
  cases kind <;> decide

theorem heads_apart {kind other : Kind} (different : kind ≠ other) :
    Keys.Apart kind.head other.head := by
  have table : ∀ kind ∈ all, ∀ other ∈ all, kind ≠ other → Keys.Apart kind.head other.head := by
    decide +kernel
  exact table kind (mem_all kind) other (mem_all other) different

end Kind

/-- One entry of the tree; delegations are told apart by the text of the pair only. -/
inductive Slot where
  | info
  | balance (who : PartyId)
  | stake (who : PartyId)
  | delegation (pair : String)
  | locked (who : PartyId)
  | debt (who : PartyId)
  | total
  | acc
  | proposal (id : Hash)
  | ballot (id : Hash) (who : PartyId)
  | offence (id : Hash)
  deriving DecidableEq

namespace Slot

def kind : Slot → Kind
  | .info => .info
  | .balance _ => .balance
  | .stake _ => .stake
  | .delegation _ => .delegation
  | .locked _ => .locked
  | .debt _ => .debt
  | .total => .total
  | .acc => .acc
  | .proposal _ => .proposal
  | .ballot _ _ => .ballot
  | .offence _ => .offence

variable [Blake3]

def tail : Slot → String
  | .info => nativeTokenId.toHex
  | .balance who => nativeTokenId.toHex ++ "/" ++ who.name
  | .stake who => who.name
  | .delegation pair => pair
  | .locked who => who.name
  | .debt who => who.name
  | .total => ""
  | .acc => ""
  | .proposal id => id.toHex
  | .ballot id who => id.toHex ++ "/" ++ who.name
  | .offence id => id.toHex

def key : Slot → String
  | .info => metaKey nativeTokenId
  | .balance who => balKey nativeTokenId who
  | .stake who => stakeKey who
  | .delegation pair => delegPrefix ++ pair
  | .locked who => lockedKey who
  | .debt who => rewardDebtKey who
  | .total => totalStakeKey
  | .acc => rewardAccKey
  | .proposal id => proposalKey id
  | .ballot id who => voteKey id who
  | .offence id => slashKey id

theorem key_eq_append (slot : Slot) : slot.key = slot.kind.head ++ slot.tail := by
  cases slot with
  | balance who => simp only [key, kind, Kind.head, tail, balKey, String.append_assoc]
  | ballot id who => simp only [key, kind, Kind.head, tail, voteKey, String.append_assoc]
  | total => exact String.append_empty.symm
  | acc => exact String.append_empty.symm
  | _ => rfl

omit [Blake3] in
theorem hexName_injective {id other : Hash} {who whom : PartyId}
    (same : id.toHex ++ "/" ++ who.name = other.toHex ++ "/" ++ whom.name) :
    id = other ∧ who = whom := by
  have texts := congrArg String.toList same
  simp only [String.toList_append, List.append_assoc] at texts
  obtain ⟨ids, names⟩ := List.append_inj texts (by rw [Hash.toHex_length, Hash.toHex_length])
  refine ⟨Hash.toHex_injective (String.toList_inj.mp ids), PartyId.toList_injective ?_⟩
  exact (List.append_cancel_left_eq _ _ _).mp names

theorem key_injective {slot other : Slot} (same : slot.key = other.key) : slot = other := by
  have kinds : slot.kind = other.kind := by
    by_contra different
    rw [key_eq_append, key_eq_append] at same
    exact (Kind.heads_apart different).append_ne _ _ same
  rw [key_eq_append, key_eq_append, kinds, String.append_right_inj] at same
  cases slot <;> cases other <;> cases kinds
  case info.info => rfl
  case total.total => rfl
  case acc.acc => rfl
  case balance.balance who whom => rw [(hexName_injective same).2]
  case ballot.ballot id who other whom =>
    obtain ⟨ids, names⟩ := hexName_injective same
    rw [ids, names]
  case delegation.delegation pair other => exact congrArg delegation same
  case stake.stake who whom => rw [PartyId.toList_injective (congrArg String.toList same)]
  case locked.locked who whom => rw [PartyId.toList_injective (congrArg String.toList same)]
  case debt.debt who whom => rw [PartyId.toList_injective (congrArg String.toList same)]
  case proposal.proposal id other => rw [Hash.toHex_injective same]
  case offence.offence id other => rw [Hash.toHex_injective same]

theorem key_ne {slot other : Slot} (different : slot ≠ other) : slot.key ≠ other.key :=
  fun same => different (key_injective same)

end Slot

/-! ### The books -/

@[ext]
structure Books where
  issued : Bool
  balance : PartyId → U128
  record : PartyId → StakeRecord
  delegation : String → U128
  locked : PartyId → U128
  debt : PartyId → U128
  total : U128
  acc : U128
  opened : Hash → Bool
  proposal : Hash → Option Proposal
  voted : Hash → PartyId → Bool
  punished : Hash → Bool

namespace Books

/-! Changes of one entry. -/

def withBalance (books : Books) (who : PartyId) (value : U128) : Books :=
  { books with balance := Function.update books.balance who value }

def withRecord (books : Books) (record : StakeRecord) : Books :=
  { books with record := Function.update books.record record.owner record }

def withDelegation (books : Books) (delegator validator : PartyId) (value : U128) : Books :=
  { books with
    delegation := Function.update books.delegation (pairText delegator validator) value }

def withLocked (books : Books) (who : PartyId) (value : U128) : Books :=
  { books with locked := Function.update books.locked who value }

def withDebt (books : Books) (who : PartyId) (value : U128) : Books :=
  { books with debt := Function.update books.debt who value }

def withProposal (books : Books) (id : Hash) (proposal : Proposal) : Books :=
  { books with
    opened := Function.update books.opened id true
    proposal := Function.update books.proposal id (some proposal) }

def withBallot (books : Books) (id : Hash) (who : PartyId) : Books :=
  { books with voted := Function.update books.voted id (Function.update (books.voted id) who true) }

def withPunished (books : Books) (offence : Hash) : Books :=
  { books with punished := Function.update books.punished offence true }

end Books

section Reading

variable [SerdeJson] [Blake3]

/-- Every entry is read by its slot. -/
def books (state : StateTree) : Books :=
  { issued := (state.getJson? TokenMeta Slot.info.key).isSome
    balance := fun who => readU128 state (Slot.balance who).key
    record := fun who =>
      (state.getJson? StakeRecord (Slot.stake who).key).getD (StakeRecord.empty who)
    delegation := fun pair => readU128 state (Slot.delegation pair).key
    locked := fun who => readU128 state (Slot.locked who).key
    debt := fun who => readU128 state (Slot.debt who).key
    total := readU128 state Slot.total.key
    acc := readU128 state Slot.acc.key
    opened := fun id => state.contains (Slot.proposal id).key
    proposal := fun id => state.getJson? Proposal (Slot.proposal id).key
    voted := fun id who => state.contains (Slot.ballot id who).key
    punished := fun offence => state.contains (Slot.offence offence).key }

variable (state : StateTree)

omit [SerdeJson] in
theorem delegKey_eq_slot (delegator validator : PartyId) :
    delegKey delegator validator = (Slot.delegation (pairText delegator validator)).key := by
  simp only [delegKey, Slot.key, pairText, String.append_assoc]

theorem books_delegation (delegator validator : PartyId) :
    (books state).delegation (pairText delegator validator) =
      delegation state delegator validator := by
  unfold delegation
  rw [delegKey_eq_slot]
  rfl

/-! ### Writing one slot -/

variable {α β : Type} [Serialize α] [Serialize β] {slot other : Slot}

theorem getJson?_slot_ne (different : slot ≠ other) (value : α) :
    (state.putJson slot.key value).getJson? β other.key = state.getJson? β other.key :=
  StateTree.getJson?_put_ne state _ (Slot.key_ne different)

omit [SerdeJson] in
theorem contains_slot (slot other : Slot) (value : α) :
    (state.putJson slot.key value).contains other.key =
      if slot = other then true else state.contains other.key := by
  rw [StateTree.contains_eq_isSome, StateTree.contains_eq_isSome, StateTree.putJson]
  split
  · rename_i same
    rw [same, StateTree.get_put_self, Option.isSome_some]
  · rename_i different
    rw [StateTree.get_put_ne state _ (Slot.key_ne different)]

theorem readU128_slot_ne (different : slot ≠ other) (value : α) :
    readU128 (state.putJson slot.key value) other.key = readU128 state other.key := by
  unfold readU128 amountAt
  rw [getJson?_slot_ne state different]

theorem readU128_slot (slot other : Slot) (value : U128) :
    readU128 (state.putJson slot.key value.toText) other.key =
      if slot = other then value else readU128 state other.key := by
  split
  · rename_i same
    rw [same]
    exact TokenPrism.amountAt_putJson state _ value
  · rename_i different
    exact readU128_slot_ne state different _

theorem books_putInfo (info : TokenMeta) :
    books (state.putJson Slot.info.key info) = { books state with issued := true } := by
  apply Books.ext
  case issued => simp only [books, StateTree.getJson?_putJson, Option.isSome_some]
  all_goals
    simp [books, getJson?_slot_ne, contains_slot, readU128_slot_ne]

theorem books_putBalance (who : PartyId) (value : U128) :
    books (state.putJson (Slot.balance who).key value.toText) = (books state).withBalance who value := by
  apply Books.ext
  case balance =>
    funext other
    simp only [books, Books.withBalance, readU128_slot, Slot.balance.injEq, Function.update_apply, eq_comm]
  all_goals
    simp [books, Books.withBalance, getJson?_slot_ne, contains_slot, readU128_slot_ne]

theorem books_putRecord (record : StakeRecord) :
    books (state.putJson (Slot.stake record.owner).key record) = (books state).withRecord record := by
  apply Books.ext
  case record =>
    funext other
    by_cases same : other = record.owner
    · subst same
      simp only [books, Books.withRecord, StateTree.getJson?_putJson, Option.getD_some,
        Function.update_self]
    · have different : Slot.stake record.owner ≠ Slot.stake other :=
        fun equal => same (Slot.stake.inj equal).symm
      simp only [books, Books.withRecord, Function.update_of_ne same,
        getJson?_slot_ne state different]
  all_goals
    simp [books, Books.withRecord, getJson?_slot_ne, contains_slot, readU128_slot_ne]

theorem books_putDelegation (delegator validator : PartyId) (value : U128) :
    books (state.putJson (delegKey delegator validator) value.toText) =
      (books state).withDelegation delegator validator value := by
  rw [delegKey_eq_slot]
  apply Books.ext
  case delegation =>
    funext other
    simp only [books, Books.withDelegation, readU128_slot, Slot.delegation.injEq,
      Function.update_apply, eq_comm]
  all_goals
    simp [books, Books.withDelegation, getJson?_slot_ne, contains_slot, readU128_slot_ne]

theorem books_putLocked (who : PartyId) (value : U128) :
    books (state.putJson (Slot.locked who).key value.toText) = (books state).withLocked who value := by
  apply Books.ext
  case locked =>
    funext other
    simp only [books, Books.withLocked, readU128_slot, Slot.locked.injEq, Function.update_apply, eq_comm]
  all_goals
    simp [books, Books.withLocked, getJson?_slot_ne, contains_slot, readU128_slot_ne]

theorem books_putDebt (who : PartyId) (value : U128) :
    books (state.putJson (Slot.debt who).key value.toText) = (books state).withDebt who value := by
  apply Books.ext
  case debt =>
    funext other
    simp only [books, Books.withDebt, readU128_slot, Slot.debt.injEq, Function.update_apply, eq_comm]
  all_goals
    simp [books, Books.withDebt, getJson?_slot_ne, contains_slot, readU128_slot_ne]

theorem books_putTotal (value : U128) :
    books (state.putJson Slot.total.key value.toText) = { books state with total := value } := by
  apply Books.ext
  case total => simp only [books, readU128_slot, if_true]
  all_goals
    simp [books, getJson?_slot_ne, contains_slot, readU128_slot_ne]

theorem books_putAcc (value : U128) :
    books (state.putJson Slot.acc.key value.toText) = { books state with acc := value } := by
  apply Books.ext
  case acc => simp only [books, readU128_slot, if_true]
  all_goals
    simp [books, getJson?_slot_ne, contains_slot, readU128_slot_ne]

theorem books_putProposal (id : Hash) (proposal : Proposal) :
    books (state.putJson (Slot.proposal id).key proposal) =
      (books state).withProposal id proposal := by
  apply Books.ext
  case opened =>
    funext other
    simp only [books, Books.withProposal, contains_slot, Slot.proposal.injEq, Function.update_apply,
      eq_comm]
  case proposal =>
    funext other
    by_cases same : other = id
    · subst same
      simp only [books, Books.withProposal, StateTree.getJson?_putJson, Function.update_self]
    · have different : Slot.proposal id ≠ Slot.proposal other :=
        fun equal => same (Slot.proposal.inj equal).symm
      simp only [books, Books.withProposal, Function.update_of_ne same,
        getJson?_slot_ne state different]
  all_goals
    simp [books, Books.withProposal, getJson?_slot_ne, contains_slot, readU128_slot_ne]

theorem books_putBallot (id : Hash) (who : PartyId) (approve : Bool) :
    books (state.putJson (Slot.ballot id who).key approve) = (books state).withBallot id who := by
  apply Books.ext
  case voted =>
    funext other whom
    by_cases same : other = id
    · subst same
      simp only [books, Books.withBallot, contains_slot, Slot.ballot.injEq, true_and,
        Function.update_self, Function.update_apply, eq_comm]
    · have different : ¬ (id = other ∧ who = whom) := fun equal => same equal.1.symm
      simp only [books, Books.withBallot, contains_slot, Slot.ballot.injEq, if_neg different,
        Function.update_of_ne same]
  all_goals
    simp [books, Books.withBallot, getJson?_slot_ne, contains_slot, readU128_slot_ne]

theorem books_putOffence (offence : Hash) :
    books (state.putJson (Slot.offence offence).key true) = (books state).withPunished offence := by
  apply Books.ext
  case punished =>
    funext other
    simp only [books, Books.withPunished, contains_slot, Slot.offence.injEq, Function.update_apply,
      eq_comm]
  all_goals
    simp [books, Books.withPunished, getJson?_slot_ne, contains_slot, readU128_slot_ne]

end Reading

/-! ### The operations on the books -/

abbrev BooksM := StateT Books Option

namespace Books

def pending (books : Books) (who : PartyId) : U128 :=
  (entitled (books.locked who) books.acc).saturatingSub (books.debt who)

def debited (books : Books) (who : PartyId) (amount : U128) : Books :=
  books.withBalance who (books.balance who - amount)

/-- The target is read after the debit. -/
def moved (books : Books) (source target : PartyId) (amount : U128) : Books :=
  (books.debited source amount).withBalance target
    ((books.debited source amount).balance target + amount)

def Covers (books : Books) (source target : PartyId) (amount : U128) : Prop :=
  amount ≤ books.balance source ∧
    ((books.debited source amount).balance target).val + amount.val < 2 ^ 128

instance (books : Books) (source target : PartyId) (amount : U128) :
    Decidable (books.Covers source target amount) :=
  inferInstanceAs (Decidable (_ ∧ _))

/-- The lock and the total moved by a difference, and the debt settled at the new lock. -/
def relocked (books : Books) (who : PartyId) (delta : Int) : Books :=
  let next := I128.addClamped (I128.ofU128 (books.locked who)) delta
  { (books.withLocked who next).withDebt who (entitled next books.acc) with
    total := I128.addClamped (I128.ofU128 books.total) delta }

end Books

namespace Sketch

def move (source target : PartyId) (amount : U128) : BooksM Unit := do
  if ¬ (← get).Covers source target amount then failure
  modify fun books => books.moved source target amount

def burn (who : PartyId) (amount : U128) : BooksM Unit := do
  if ¬ amount ≤ (← get).balance who then failure
  modify fun books => books.debited who amount

def harvest (who : PartyId) : BooksM Unit := do
  let pending := (← get).pending who
  if 0 < pending then
    move rewardPoolAccount who pending

def updateLock (who : PartyId) (delta : Int) : BooksM Unit := do
  harvest who
  modify fun books => books.relocked who delta

def stake (me : PartyId) (amount : U128) : BooksM Unit := do
  if amount = 0 then failure
  move me escrowAccount amount
  let record := (← get).record me
  modify fun books => books.withRecord { record with selfBonded := record.selfBonded + amount }
  updateLock me (I128.ofU128 amount)

def unstake (me : PartyId) (amount : U128) : BooksM Unit := do
  let record := (← get).record me
  if record.selfBonded < amount then failure
  move escrowAccount me amount
  modify fun books => books.withRecord { record with selfBonded := record.selfBonded - amount }
  updateLock me (I128.wrap (-I128.ofU128 amount))

def delegate (me validator : PartyId) (amount : U128) : BooksM Unit := do
  if amount = 0 then failure
  move me escrowAccount amount
  let cur := (← get).delegation (pairText me validator)
  modify fun books => books.withDelegation me validator (cur + amount)
  let record := (← get).record validator
  modify fun books => books.withRecord { record with delegatedIn := record.delegatedIn + amount }
  updateLock me (I128.ofU128 amount)

def undelegate (me validator : PartyId) (amount : U128) : BooksM Unit := do
  let cur := (← get).delegation (pairText me validator)
  if cur < amount then failure
  move escrowAccount me amount
  modify fun books => books.withDelegation me validator (cur - amount)
  let record := (← get).record validator
  modify fun books =>
    books.withRecord { record with delegatedIn := record.delegatedIn.saturatingSub amount }
  updateLock me (I128.wrap (-I128.ofU128 amount))

def fundRewards (me : PartyId) (amount : U128) : BooksM Unit := do
  if amount = 0 then failure
  let total := (← get).total
  if total = 0 then failure
  move me rewardPoolAccount amount
  let acc := (← get).acc
  modify fun books => { books with
    acc := acc.saturatingAdd (amount.saturatingMul accScale / total) }

def claimRewards (me : PartyId) : BooksM Unit := do
  harvest me
  modify fun books => books.withDebt me (entitled (books.locked me) books.acc)

/-- An offence is punished once, by a share of the offender's own bond. -/
def punish (offence : Hash) (offender : PartyId) : BooksM Unit := do
  if (← get).punished offence then failure
  let record := (← get).record offender
  let burned := record.selfBonded * Fin.ofNat (2 ^ 128) defaultSlashBps.toNat /
    Fin.ofNat (2 ^ 128) 10000
  if 0 < burned then
    burn escrowAccount burned
    modify fun books => books.withRecord { record with selfBonded := record.selfBonded - burned }
    updateLock offender (I128.wrap (-I128.ofU128 burned))
  modify fun books => books.withPunished offence

/-! Governance. -/

def load (id : Hash) : BooksM Proposal := do
  match (← get).proposal id with
  | none => failure
  | some proposal => return proposal

def propose (proposal : Proposal) : BooksM Unit := do
  if ((← get).record proposal.proposer).selfBonded = 0 then failure
  if (← get).opened proposal.id then failure
  modify fun books => books.withProposal proposal.id proposal

def vote (me : PartyId) (height : UInt64) (id : Hash) (approve : Bool) : BooksM Unit := do
  let proposal ← load id
  if proposal.status ≠ .active then failure
  if proposal.deadlineHeight < height then failure
  if (← get).voted id me then failure
  let power := ((← get).record me).votingPower
  if power = 0 then failure
  modify fun books => books.withBallot id me
  modify fun books => books.withProposal id (proposal.counted approve power)

def finalize (height : UInt64) (id : Hash) : BooksM Unit := do
  let proposal ← load id
  if proposal.status ≠ .active then failure
  if height ≤ proposal.deadlineHeight then failure
  modify fun books => books.withProposal id proposal.closed

end Sketch

/-! ### What the sketches do -/

namespace Books

/-- The books between the tokens moving and the lock following, for each operation. -/
def bonding (books : Books) (me : PartyId) (amount : U128) : Books :=
  (books.moved me escrowAccount amount).withRecord
    { books.record me with selfBonded := (books.record me).selfBonded + amount }

def unbonding (books : Books) (me : PartyId) (amount : U128) : Books :=
  (books.moved escrowAccount me amount).withRecord
    { books.record me with selfBonded := (books.record me).selfBonded - amount }

def delegating (books : Books) (me validator : PartyId) (amount : U128) : Books :=
  ((books.moved me escrowAccount amount).withDelegation me validator
    (books.delegation (pairText me validator) + amount)).withRecord
    { books.record validator with delegatedIn := (books.record validator).delegatedIn + amount }

def undelegating (books : Books) (me validator : PartyId) (amount : U128) : Books :=
  ((books.moved escrowAccount me amount).withDelegation me validator
    (books.delegation (pairText me validator) - amount)).withRecord
    { books.record validator with
      delegatedIn := (books.record validator).delegatedIn.saturatingSub amount }

/-- The share of the own bond that a punishment burns. -/
def penalty (books : Books) (offender : PartyId) : U128 :=
  (books.record offender).selfBonded * Fin.ofNat (2 ^ 128) defaultSlashBps.toNat /
    Fin.ofNat (2 ^ 128) 10000

def burning (books : Books) (offender : PartyId) : Books :=
  (books.debited escrowAccount (books.penalty offender)).withRecord
    { books.record offender with
      selfBonded := (books.record offender).selfBonded - books.penalty offender }

def funding (books : Books) (me : PartyId) (amount : U128) : Books :=
  { books.moved me rewardPoolAccount amount with
    acc := books.acc.saturatingAdd (amount.saturatingMul accScale / books.total) }

end Books

section Effects

variable {books after : Books} {me validator offender source target : PartyId} {amount : U128}
  {delta : Int}

theorem yields_move {result : Unit} :
    Yields (Sketch.move source target amount) books result after ↔
      books.Covers source target amount ∧ after = books.moved source target amount := by
  simp only [Sketch.move, yields_bind, yields_get, yields_unless, yields_modify, not_not]
  constructor
  · rintro ⟨_, _, ⟨rfl, rfl⟩, covered, rfl⟩
    exact ⟨covered, rfl⟩
  · rintro ⟨covered, rfl⟩
    exact ⟨_, _, ⟨rfl, rfl⟩, covered, rfl⟩

theorem yields_burn {result : Unit} :
    Yields (Sketch.burn me amount) books result after ↔
      amount ≤ books.balance me ∧ after = books.debited me amount := by
  simp only [Sketch.burn, yields_bind, yields_get, yields_unless, yields_modify, not_not]
  constructor
  · rintro ⟨_, _, ⟨rfl, rfl⟩, enough, rfl⟩
    exact ⟨enough, rfl⟩
  · rintro ⟨enough, rfl⟩
    exact ⟨_, _, ⟨rfl, rfl⟩, enough, rfl⟩

theorem covers_zero : books.Covers source target 0 := by
  refine ⟨Fin.zero_le _, ?_⟩
  exact Nat.lt_of_lt_of_eq (Fin.isLt _) rfl

theorem moved_zero : books.moved source target 0 = books := by
  have first : books.debited source 0 = books := by
    unfold Books.debited Books.withBalance
    rw [sub_zero, Function.update_eq_self]
  unfold Books.moved
  rw [first]
  unfold Books.withBalance
  rw [add_zero, Function.update_eq_self]

/-- Paying nothing is a move of nothing, so the branch does not show. -/
theorem yields_harvest {result : Unit} :
    Yields (Sketch.harvest me) books result after ↔
      books.Covers rewardPoolAccount me (books.pending me) ∧
        after = books.moved rewardPoolAccount me (books.pending me) := by
  simp only [Sketch.harvest, yields_bind, yields_get, yields_ite, yields_move, yields_pure]
  constructor
  · rintro ⟨_, _, ⟨rfl, rfl⟩, ⟨_, paid⟩ | ⟨nothing, _, rfl⟩⟩
    · exact paid
    · have zero : books.pending me = 0 := Fin.le_zero_iff.mp (not_lt.mp nothing)
      rw [zero]
      exact ⟨covers_zero, moved_zero.symm⟩
  · intro paid
    refine ⟨_, _, ⟨rfl, rfl⟩, ?_⟩
    by_cases positive : 0 < books.pending me
    · exact .inl ⟨positive, paid⟩
    · refine .inr ⟨positive, trivial, ?_⟩
      have zero : books.pending me = 0 := Fin.le_zero_iff.mp (not_lt.mp positive)
      rw [zero, moved_zero] at paid
      exact paid.2.symm

theorem yields_updateLock {result : Unit} :
    Yields (Sketch.updateLock me delta) books result after ↔
      books.Covers rewardPoolAccount me (books.pending me) ∧
        after = (books.moved rewardPoolAccount me (books.pending me)).relocked me delta := by
  simp only [Sketch.updateLock, yields_bind, yields_harvest, yields_modify]
  constructor
  · rintro ⟨_, _, ⟨covered, rfl⟩, rfl⟩
    exact ⟨covered, rfl⟩
  · rintro ⟨covered, rfl⟩
    exact ⟨(), _, ⟨covered, rfl⟩, rfl⟩

theorem yields_stake {result : Unit} :
    Yields (Sketch.stake me amount) books result after ↔
      amount ≠ 0 ∧ books.Covers me escrowAccount amount ∧
        Yields (Sketch.updateLock me (I128.ofU128 amount)) (books.bonding me amount) result
          after := by
  simp only [Sketch.stake, yields_bind, yields_get, yields_unless, yields_modify, yields_move]
  constructor
  · rintro ⟨nonzero, _, _, ⟨covered, rfl⟩, _, _, ⟨rfl, rfl⟩, _, _, rfl, followed⟩
    exact ⟨nonzero, covered, followed⟩
  · rintro ⟨nonzero, covered, followed⟩
    exact ⟨nonzero, (), _, ⟨covered, rfl⟩, _, _, ⟨rfl, rfl⟩, ⟨⟩, _, rfl, followed⟩

theorem yields_unstake {result : Unit} :
    Yields (Sketch.unstake me amount) books result after ↔
      amount ≤ (books.record me).selfBonded ∧ books.Covers escrowAccount me amount ∧
        Yields (Sketch.updateLock me (I128.wrap (-I128.ofU128 amount))) (books.unbonding me amount)
          result after := by
  simp only [Sketch.unstake, yields_bind, yields_get, yields_unless, yields_modify, yields_move,
    not_lt]
  constructor
  · rintro ⟨_, _, ⟨rfl, rfl⟩, enough, _, _, ⟨covered, rfl⟩, _, _, rfl, followed⟩
    exact ⟨enough, covered, followed⟩
  · rintro ⟨enough, covered, followed⟩
    exact ⟨_, _, ⟨rfl, rfl⟩, enough, (), _, ⟨covered, rfl⟩, ⟨⟩, _, rfl, followed⟩

theorem yields_delegate {result : Unit} :
    Yields (Sketch.delegate me validator amount) books result after ↔
      amount ≠ 0 ∧ books.Covers me escrowAccount amount ∧
        Yields (Sketch.updateLock me (I128.ofU128 amount)) (books.delegating me validator amount)
          result after := by
  simp only [Sketch.delegate, yields_bind, yields_get, yields_unless, yields_modify, yields_move]
  constructor
  · rintro ⟨nonzero, _, _, ⟨covered, rfl⟩, _, _, ⟨rfl, rfl⟩, _, _, rfl, _, _, ⟨rfl, rfl⟩, _, _, rfl,
      followed⟩
    exact ⟨nonzero, covered, followed⟩
  · rintro ⟨nonzero, covered, followed⟩
    exact ⟨nonzero, (), _, ⟨covered, rfl⟩, _, _, ⟨rfl, rfl⟩, ⟨⟩, _, rfl, _, _, ⟨rfl, rfl⟩, ⟨⟩, _,
      rfl, followed⟩

theorem yields_undelegate {result : Unit} :
    Yields (Sketch.undelegate me validator amount) books result after ↔
      amount ≤ books.delegation (pairText me validator) ∧ books.Covers escrowAccount me amount ∧
        Yields (Sketch.updateLock me (I128.wrap (-I128.ofU128 amount)))
          (books.undelegating me validator amount) result after := by
  simp only [Sketch.undelegate, yields_bind, yields_get, yields_unless, yields_modify, yields_move,
    not_lt]
  constructor
  · rintro ⟨_, _, ⟨rfl, rfl⟩, enough, _, _, ⟨covered, rfl⟩, _, _, rfl, _, _, ⟨rfl, rfl⟩, _, _, rfl,
      followed⟩
    exact ⟨enough, covered, followed⟩
  · rintro ⟨enough, covered, followed⟩
    exact ⟨_, _, ⟨rfl, rfl⟩, enough, (), _, ⟨covered, rfl⟩, ⟨⟩, _, rfl, _, _, ⟨rfl, rfl⟩, ⟨⟩, _,
      rfl, followed⟩

theorem yields_fundRewards {result : Unit} :
    Yields (Sketch.fundRewards me amount) books result after ↔
      amount ≠ 0 ∧ books.total ≠ 0 ∧ books.Covers me rewardPoolAccount amount ∧
        after = books.funding me amount := by
  simp only [Sketch.fundRewards, yields_bind, yields_get, yields_unless, yields_modify, yields_move]
  constructor
  · rintro ⟨nonzero, _, _, ⟨rfl, rfl⟩, staked, _, _, ⟨covered, rfl⟩, _, _, ⟨rfl, rfl⟩, rfl⟩
    exact ⟨nonzero, staked, covered, rfl⟩
  · rintro ⟨nonzero, staked, covered, rfl⟩
    exact ⟨nonzero, _, _, ⟨rfl, rfl⟩, staked, (), _, ⟨covered, rfl⟩, _, _, ⟨rfl, rfl⟩, rfl⟩

theorem yields_claimRewards {result : Unit} :
    Yields (Sketch.claimRewards me) books result after ↔
      books.Covers rewardPoolAccount me (books.pending me) ∧
        after = (books.moved rewardPoolAccount me (books.pending me)).withDebt me
          (entitled (books.locked me) books.acc) := by
  simp only [Sketch.claimRewards, yields_bind, yields_harvest, yields_modify]
  constructor
  · rintro ⟨_, _, ⟨covered, rfl⟩, rfl⟩
    exact ⟨covered, rfl⟩
  · rintro ⟨covered, rfl⟩
    exact ⟨(), _, ⟨covered, rfl⟩, rfl⟩

/-- A punishment that burns nothing only marks the offence. -/
theorem yields_punish {offence : Hash} {result : Unit} :
    Yields (Sketch.punish offence offender) books result after ↔
      books.punished offence = false ∧
        ((¬ 0 < books.penalty offender ∧ after = books.withPunished offence) ∨
          (0 < books.penalty offender ∧ books.penalty offender ≤ books.balance escrowAccount ∧
            ∃ middle, Yields (Sketch.updateLock offender
                (I128.wrap (-I128.ofU128 (books.penalty offender)))) (books.burning offender) ()
                middle ∧ after = middle.withPunished offence)) := by
  simp only [Sketch.punish, yields_bind, yields_get, yields_unless, Bool.not_eq_true]
  simp only [yields_ite, yields_bind, yields_burn, yields_modify]
  constructor
  · rintro ⟨_, _, ⟨rfl, rfl⟩, fresh, _, _, ⟨rfl, rfl⟩, ⟨positive, _, _, ⟨enough, rfl⟩, _, _, rfl, _,
      middle, followed, rfl⟩ | ⟨nothing, rfl⟩⟩
    · exact ⟨fresh, .inr ⟨positive, enough, middle, followed, rfl⟩⟩
    · exact ⟨fresh, .inl ⟨nothing, rfl⟩⟩
  · rintro ⟨fresh, ⟨nothing, rfl⟩ | ⟨positive, enough, middle, followed, rfl⟩⟩
    · exact ⟨_, _, ⟨rfl, rfl⟩, fresh, _, _, ⟨rfl, rfl⟩, .inr ⟨nothing, rfl⟩⟩
    · exact ⟨_, _, ⟨rfl, rfl⟩, fresh, _, _, ⟨rfl, rfl⟩, .inl ⟨positive, (), _, ⟨enough, rfl⟩, ⟨⟩, _,
        rfl, (), middle, followed, rfl⟩⟩

/-! Governance leaves the accounts alone. -/

theorem yields_load {id : Hash} {proposal : Proposal} :
    Yields (Sketch.load id) books proposal after ↔
      books.proposal id = some proposal ∧ books = after := by
  simp only [Sketch.load, yields_bind, yields_get]
  constructor
  · rintro ⟨_, _, ⟨rfl, rfl⟩, read⟩
    cases found : books.proposal id with
    | none =>
        rw [found] at read
        exact absurd read yields_failure
    | some stored =>
        rw [found] at read
        obtain ⟨rfl, rfl⟩ := yields_pure.mp read
        exact ⟨rfl, rfl⟩
  · rintro ⟨found, rfl⟩
    refine ⟨_, _, ⟨rfl, rfl⟩, ?_⟩
    rw [found]
    exact yields_pure.mpr ⟨rfl, rfl⟩

theorem yields_propose {proposal : Proposal} {result : Unit} :
    Yields (Sketch.propose proposal) books result after ↔
      (books.record proposal.proposer).selfBonded ≠ 0 ∧ books.opened proposal.id = false ∧
        after = books.withProposal proposal.id proposal := by
  simp only [Sketch.propose, yields_bind, yields_get, yields_unless, yields_modify,
    Bool.not_eq_true]
  constructor
  · rintro ⟨_, _, ⟨rfl, rfl⟩, bonded, _, _, ⟨rfl, rfl⟩, fresh, rfl⟩
    exact ⟨bonded, fresh, rfl⟩
  · rintro ⟨bonded, fresh, rfl⟩
    exact ⟨_, _, ⟨rfl, rfl⟩, bonded, _, _, ⟨rfl, rfl⟩, fresh, rfl⟩

theorem yields_vote {height : UInt64} {id : Hash} {approve : Bool} {result : Unit} :
    Yields (Sketch.vote me height id approve) books result after ↔
      ∃ proposal, books.proposal id = some proposal ∧ proposal.status = .active ∧
        height ≤ proposal.deadlineHeight ∧ books.voted id me = false ∧
        (books.record me).votingPower ≠ 0 ∧
        after = (books.withBallot id me).withProposal id
          (proposal.counted approve (books.record me).votingPower) := by
  simp only [Sketch.vote, yields_bind, yields_get, yields_unless, yields_modify, yields_load,
    Bool.not_eq_true, not_not, ne_eq, UInt64.not_lt]
  constructor
  · rintro ⟨proposal, _, ⟨found, rfl⟩, active, timely, _, _, ⟨rfl, rfl⟩, fresh, _, _, ⟨rfl, rfl⟩,
      powerful, _, _, rfl, rfl⟩
    exact ⟨proposal, found, active, timely, fresh, powerful, rfl⟩
  · rintro ⟨proposal, found, active, timely, fresh, powerful, rfl⟩
    exact ⟨proposal, _, ⟨found, rfl⟩, active, timely, _, _, ⟨rfl, rfl⟩, fresh, _, _, ⟨rfl, rfl⟩,
      powerful, ⟨⟩, _, rfl, rfl⟩

theorem yields_finalize {height : UInt64} {id : Hash} {result : Unit} :
    Yields (Sketch.finalize height id) books result after ↔
      ∃ proposal, books.proposal id = some proposal ∧ proposal.status = .active ∧
        proposal.deadlineHeight < height ∧ after = books.withProposal id proposal.closed := by
  simp only [Sketch.finalize, yields_bind, yields_unless, yields_modify, yields_load, not_not,
    ne_eq, UInt64.not_le]
  constructor
  · rintro ⟨proposal, _, ⟨found, rfl⟩, active, late, rfl⟩
    exact ⟨proposal, found, active, late, rfl⟩
  · rintro ⟨proposal, found, active, late, rfl⟩
    exact ⟨proposal, _, ⟨found, rfl⟩, active, late, rfl⟩

end Effects

/-! ### The prism follows the sketches -/

section Mirrored

variable [SerdeJson] [Blake3] (state : StateTree)

theorem books_balance (who : PartyId) :
    (books state).balance who = TokenPrism.balance state nativeTokenId who := rfl

theorem books_withBalance (who : PartyId) (value : U128) :
    books (withBalance state nativeTokenId who value) = (books state).withBalance who value :=
  books_putBalance state who value

theorem books_debited (who : PartyId) (amount : U128) :
    books (debited state nativeTokenId who amount) = (books state).debited who amount := by
  unfold debited Books.debited
  rw [books_withBalance, books_balance]

theorem books_transferred (source target : PartyId) (amount : U128) :
    books (transferred state nativeTokenId source target amount) =
      (books state).moved source target amount := by
  unfold transferred Books.moved
  rw [books_withBalance, ← books_balance, books_debited]

theorem books_lowered (amount : U128) :
    books (lowered state nativeTokenId amount) = books state := by
  unfold lowered
  cases found : tokenMeta? state nativeTokenId with
  | none => rfl
  | some info =>
      have known : (books state).issued = true := by
        change (tokenMeta? state nativeTokenId).isSome = true
        rw [found, Option.isSome_some]
      refine (books_putInfo state _).trans ?_
      rw [← known]

theorem mirrors_move (source target : PartyId) (amount : U128) :
    Mirrors books id (TokenPrism.moveBalance nativeTokenId source target amount)
      (Sketch.move source target amount) state := by
  refine Mirrors.guarded (fun books : Books => books.Covers source target amount)
    (fun books => books.moved source target amount) ?_ ?_
  · rintro ⟨enough, fits⟩
    rw [← books_debited, books_balance] at fits
    refine ⟨(), _, TokenPrism.accepts_moveBalance.mpr ⟨enough, fits, rfl⟩, ?_⟩
    exact books_transferred state source target amount
  · intro value after ran
    obtain ⟨enough, fits, _⟩ := TokenPrism.accepts_moveBalance.mp ran
    refine ⟨enough, ?_⟩
    rw [← books_debited, books_balance]
    exact fits

theorem mirrors_burn (who : PartyId) (amount : U128) :
    Mirrors books id (TokenPrism.burnFrom nativeTokenId who amount) (Sketch.burn who amount)
      state := by
  refine Mirrors.guarded (fun books : Books => amount ≤ books.balance who)
    (fun books => books.debited who amount) ?_ ?_
  · intro enough
    refine ⟨(), _, TokenPrism.accepts_burnFrom.mpr ⟨enough, rfl⟩, ?_⟩
    rw [books_lowered, books_debited]
  · intro value after ran
    exact (TokenPrism.accepts_burnFrom.mp ran).1

theorem mirrors_saveStake (record : StakeRecord) :
    Mirrors books id (saveStake record) (modify fun books => books.withRecord record) state :=
  .change (books_putRecord state record)

theorem mirrors_setDelegation (delegator validator : PartyId) (value : U128) :
    Mirrors books id (setDelegation delegator validator value)
      (modify fun books => books.withDelegation delegator validator value) state :=
  .change (books_putDelegation state delegator validator value)

theorem mirrors_harvest (who : PartyId) :
    Mirrors books (fun _ => ()) (harvestPending who) (Sketch.harvest who) state := by
  unfold harvestPending Sketch.harvest
  refine .read ?_
  refine .branch (fun _ => ?_) fun _ => .pure _
  exact .finish (mirrors_move state _ _ _)

omit [Blake3] in
/-- The three writes at the end of a lock change. -/
def relocked (who : PartyId) (delta : Int) : StateTree :=
  let next := I128.addClamped (I128.ofU128 (lockedOf state who)) delta
  let first := state.putJson (lockedKey who) next.toText
  let second := first.putJson totalStakeKey
    (I128.addClamped (I128.ofU128 (totalStake first)) delta).toText
  second.putJson (rewardDebtKey who) (entitled next (rewardAcc second)).toText

theorem books_relocked (who : PartyId) (delta : Int) :
    books (relocked state who delta) = (books state).relocked who delta := by
  let next := I128.addClamped (I128.ofU128 (lockedOf state who)) delta
  let first := state.putJson (lockedKey who) next.toText
  have firstBooks : books first = (books state).withLocked who next := books_putLocked state who next
  let total := I128.addClamped (I128.ofU128 (totalStake first)) delta
  let second := first.putJson totalStakeKey total.toText
  have secondBooks : books second = { books first with total := total } := books_putTotal first total
  have totals : totalStake first = (books first).total := rfl
  have accs : rewardAcc second = (books second).acc := rfl
  refine (books_putDebt second who (entitled next (rewardAcc second))).trans ?_
  rw [accs, secondBooks, firstBooks]
  unfold Books.relocked
  simp only [total, totals, firstBooks]
  rfl

theorem mirrors_updateLock (who : PartyId) (delta : Int) :
    Mirrors books id (updateLock who delta) (Sketch.updateLock who delta) state := by
  unfold updateLock Sketch.updateLock
  refine .bind (mirrors_harvest state who) fun _ middle _ => ?_
  exact .lands rfl (books_relocked middle who delta)

/-! Bonds and rewards. -/

theorem mirrors_stake (command : Command) (amount : U128) :
    Mirrors books (fun _ => ()) (stake command amount) (Sketch.stake command.submitter amount)
      state := by
  refine .refuse fun _ => ?_
  refine .bind (mirrors_move state _ _ _) fun _ _ _ => ?_
  refine .read ?_
  refine .bind (mirrors_saveStake _ _) fun _ _ _ => ?_
  exact .finish (mirrors_updateLock _ _ _)

theorem mirrors_unstake (command : Command) (amount : U128) :
    Mirrors books (fun _ => ()) (unstake command amount) (Sketch.unstake command.submitter amount)
      state := by
  refine .read ?_
  refine .refuse fun _ => ?_
  refine .bind (mirrors_move state _ _ _) fun _ _ _ => ?_
  refine .bind (mirrors_saveStake _ _) fun _ _ _ => ?_
  exact .finish (mirrors_updateLock _ _ _)

theorem mirrors_delegate (command : Command) (validator : PartyId) (amount : U128) :
    Mirrors books (fun _ => ()) (delegate command validator amount)
      (Sketch.delegate command.submitter validator amount) state := by
  refine .refuse fun _ => ?_
  refine .bind (mirrors_move state _ _ _) fun _ middle _ => ?_
  refine .read ?_
  rw [books_delegation]
  refine .bind (mirrors_setDelegation _ _ _ _) fun _ _ _ => ?_
  refine .read ?_
  refine .bind (mirrors_saveStake _ _) fun _ _ _ => ?_
  exact .finish (mirrors_updateLock _ _ _)

theorem mirrors_undelegate (command : Command) (validator : PartyId) (amount : U128) :
    Mirrors books (fun _ => ()) (undelegate command validator amount)
      (Sketch.undelegate command.submitter validator amount) state := by
  refine .read ?_
  rw [books_delegation]
  refine .refuse fun _ => ?_
  refine .bind (mirrors_move state _ _ _) fun _ _ _ => ?_
  refine .bind (mirrors_setDelegation _ _ _ _) fun _ _ _ => ?_
  refine .read ?_
  refine .bind (mirrors_saveStake _ _) fun _ _ _ => ?_
  exact .finish (mirrors_updateLock _ _ _)

theorem mirrors_fundRewards (command : Command) (amount : U128) :
    Mirrors books (fun _ => ()) (fundRewards command amount)
      (Sketch.fundRewards command.submitter amount) state := by
  refine .refuse fun _ => ?_
  refine .read ?_
  refine .refuse fun _ => ?_
  refine .bind (mirrors_move state _ _ _) fun _ middle _ => ?_
  refine .read ?_
  exact .finish (.change (books_putAcc middle _))

theorem mirrors_claimRewards (command : Command) :
    Mirrors books (fun _ => ()) (claimRewards command) (Sketch.claimRewards command.submitter)
      state := by
  refine .bind (mirrors_harvest state _) fun _ middle _ => ?_
  exact .lands rfl (books_putDebt middle _ _)

/-! Governance. -/

theorem mirrors_load (id : Hash) :
    Mirrors books (fun proposal => proposal) (loadProposal id) (Sketch.load id) state := by
  refine .read ?_
  have read : (books state).proposal id = state.getJson? Proposal (proposalKey id) := rfl
  rw [read]
  unfold StateTree.getJson?
  cases state.getJson Proposal (proposalKey id) with
  | error error => rfl
  | ok found =>
      cases found with
      | none => rfl
      | some proposal => rfl

/-- The proposal that a command opens. -/
def opening (command : Command) (height : UInt64) (title description : String)
    (votingPeriod : UInt64) : Proposal :=
  { id := proposalId command title
    proposer := command.submitter
    title := title
    description := description
    status := .active
    yesPower := 0
    noPower := 0
    deadlineHeight := height + max votingPeriod 1 }

theorem mirrors_propose (command : Command) (height : UInt64) (title description : String)
    (votingPeriod : UInt64) :
    Mirrors books (fun _ => ()) (propose command height title description votingPeriod)
      (Sketch.propose (opening command height title description votingPeriod)) state := by
  refine .read ?_
  refine .refuse fun _ => ?_
  refine .read ?_
  refine .refuse fun _ => ?_
  exact .finish (.change (books_putProposal state _ _))

theorem mirrors_vote (command : Command) (height : UInt64) (id : Hash) (approve : Bool) :
    Mirrors books (fun _ => ()) (vote command height id approve)
      (Sketch.vote command.submitter height id approve) state := by
  refine .bind (mirrors_load state id) fun proposal middle _ => ?_
  refine .refuse fun _ => ?_
  refine .refuse fun _ => ?_
  refine .read ?_
  refine .refuse fun _ => ?_
  refine .read ?_
  refine .refuse fun _ => ?_
  refine .bind (.change (books_putBallot middle id _ approve)) fun _ last _ => ?_
  exact .finish (.change (books_putProposal last id _))

theorem mirrors_finalize (command : Command) (height : UInt64) (id : Hash) :
    Mirrors books (fun _ => ()) (finalize command height id) (Sketch.finalize height id) state := by
  refine .bind (mirrors_load state id) fun proposal middle _ => ?_
  refine .refuse fun _ => ?_
  refine .refuse fun _ => ?_
  exact .finish (.change (books_putProposal middle id _))

/-! Punishment. -/

theorem mirrors_punish (command : Command) (offence : Hash) (offender : PartyId) :
    Mirrors books (fun _ => ()) (punish command offence offender) (Sketch.punish offence offender)
      state := by
  refine .read ?_
  refine .refuse fun _ => ?_
  refine .read ?_
  refine .branch (fun _ => ?_) fun _ => ?_
  · refine .bind (.rename _ (mirrors_burn state _ _)) fun _ _ _ => ?_
    refine .bind (mirrors_saveStake _ _) fun _ _ _ => ?_
    refine .bind (mirrors_updateLock _ _ _) fun _ last _ => ?_
    exact .finish (.change (books_putOffence last offence))
  · exact .finish (.change (books_putOffence state offence))

end Mirrored

end StakingPrism

end Veilux
