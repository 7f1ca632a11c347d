/-
Runs of the multisig prism.  Every proposal keeps the owners whose last word on it was a
confirmation, and its command is handed on once, by the operation with which these reach the
threshold.
-/

import Veilux.Kernel.Handled
import Veilux.Kernel.Spares
import Veilux.Lib.Run
import Veilux.Prism.Multisig

namespace Veilux

open PrismM

namespace MultisigPrism

/-! ### Keys -/

section Keys

variable {left right : Hash}

theorem accKey_injective (same : accKey left = accKey right) : left = right :=
  Hash.toHex_injective ((String.append_right_inj _).mp same)

theorem txKey_eq_append (account : Hash) (seq : UInt64) :
    txKey account seq = txPrefix ++ (account.toHex ++ ("/" ++ Nat.repr seq.toNat)) := by
  unfold txKey
  rw [String.append_assoc, String.append_assoc]

theorem txKey_injective {seq other : UInt64} (same : txKey left seq = txKey right other) :
    left = right ∧ seq = other := by
  rw [txKey_eq_append, txKey_eq_append, String.append_right_inj] at same
  have texts := congrArg String.toList same
  simp only [String.toList_append] at texts
  have lengths : left.toHex.toList.length = right.toHex.toList.length := by
    rw [Hash.toHex_length, Hash.toHex_length]
  obtain ⟨ids, rests⟩ := List.append_inj texts lengths
  constructor
  · exact Hash.toHex_injective (String.toList_inj.mp ids)
  · have digits := String.toList_inj.mp (List.append_cancel_left rests)
    exact UInt64.toNat_inj.mp (Nat.repr_injective digits)

theorem accKey_ne_txKey (id account : Hash) (seq : UInt64) : accKey id ≠ txKey account seq := by
  have apart : Keys.Apart accPrefix txPrefix := by decide
  rw [txKey_eq_append]
  exact apart.append_ne _ _

end Keys

/-! ### Owners -/

theorem distinct_spec (owners : List PartyId) :
    ∀ unique : List PartyId, unique.Nodup → (distinct owners unique).Nodup := by
  induction owners with
  | nil => exact fun _ nodup => nodup
  | cons owner rest ih =>
      intro unique nodup
      unfold distinct
      split
      · exact ih unique nodup
      · rename_i fresh
        refine ih _ (List.nodup_append.mpr ⟨nodup, List.nodup_singleton _, ?_⟩)
        intro earlier member other last same
        rw [List.mem_singleton.mp last] at same
        rw [same] at member
        exact fresh (List.elem_eq_true_of_mem member)

/-- Different names among the owners are no more than the owners. -/
theorem size_le_owners {names : Std.ExtTreeSet String} {owners : List PartyId}
    (inside : ∀ name ∈ names, (⟨name⟩ : PartyId) ∈ owners) : names.size ≤ owners.length := by
  have nodup : names.toList.Nodup := by
    have apart := names.distinct_toList
    refine apart.imp ?_
    intro first second different same
    exact different (by rw [same]; exact Std.ReflCmp.compare_self)
  have contained : names.toList ⊆ owners.map PartyId.name := by
    intro name member
    exact List.mem_map.mpr ⟨⟨name⟩, inside name (Std.ExtTreeSet.mem_toList.mp member), rfl⟩
  rw [← Std.ExtTreeSet.length_toList]
  have bound := (nodup.subperm contained).length_le
  rw [List.length_map] at bound
  exact bound

/-! ### Entries of the state -/

section Reads

variable [SerdeJson]

def accountId (state : StateTree) (id : Hash) : Option MultisigAccount :=
  state.getJson? MultisigAccount (accKey id)

def pendingTx (state : StateTree) (account : Hash) (seq : UInt64) : Option PendingTx :=
  state.getJson? PendingTx (txKey account seq)

theorem accepts_loadAccount {id : Hash} {state after : StateTree} {account : MultisigAccount}
    (accepted : Accepts (loadAccount id) state account after) :
    accountId state id = some account ∧ after = state := by
  unfold loadAccount at accepted
  obtain ⟨_, _, got, accepted⟩ := accepts_bind.mp accepted
  obtain ⟨rfl, rfl⟩ := accepts_get.mp got
  unfold accountId StateTree.getJson?
  split at accepted
  · exact absurd accepted accepts_throw
  · exact absurd accepted accepts_throw
  · rename_i found read
    obtain ⟨rfl, rfl⟩ := accepts_pure.mp accepted
    rw [read]
    exact ⟨rfl, rfl⟩

theorem accepts_loadTx {account : Hash} {seq : UInt64} {state after : StateTree} {tx : PendingTx}
    (accepted : Accepts (loadTx account seq) state tx after) :
    pendingTx state account seq = some tx ∧ after = state := by
  unfold loadTx at accepted
  obtain ⟨_, _, got, accepted⟩ := accepts_bind.mp accepted
  obtain ⟨rfl, rfl⟩ := accepts_get.mp got
  unfold pendingTx StateTree.getJson?
  split at accepted
  · exact absurd accepted accepts_throw
  · exact absurd accepted accepts_throw
  · rename_i found read
    obtain ⟨rfl, rfl⟩ := accepts_pure.mp accepted
    rw [read]
    exact ⟨rfl, rfl⟩

theorem accepts_loadOwned {caller : PartyId} {id : Hash} {state after : StateTree}
    {account : MultisigAccount} (accepted : Accepts (loadOwned caller id) state account after) :
    accountId state id = some account ∧ caller ∈ account.owners ∧ after = state := by
  unfold loadOwned at accepted
  obtain ⟨found, middle, loaded, guarded⟩ := accepts_bind.mp accepted
  obtain ⟨stored, unchanged⟩ := accepts_loadAccount loaded
  obtain ⟨owned, last⟩ := accepts_unless.mp guarded
  obtain ⟨rfl, same⟩ := accepts_pure.mp last
  exact ⟨stored, List.mem_of_elem_eq_true (Decidable.not_not.mp owned), same.symm.trans unchanged⟩

/-! ### Reading what was written -/

theorem accountId_putAccount (state : StateTree) (id other : Hash) (account : MultisigAccount) :
    accountId (state.putJson (accKey id) account) other =
      if other = id then some account else accountId state other := by
  unfold accountId
  split
  · rename_i same
    rw [same, StateTree.getJson?_putJson]
  · rename_i different
    exact StateTree.getJson?_put_ne state _ fun same => different (accKey_injective same).symm

theorem accountId_putTx (state : StateTree) (account id : Hash) (seq : UInt64) (tx : PendingTx) :
    accountId (state.putJson (txKey account seq) tx) id = accountId state id :=
  StateTree.getJson?_put_ne state _ (accKey_ne_txKey id account seq).symm

theorem pendingTx_putAccount (state : StateTree) (id account : Hash) (seq : UInt64)
    (stored : MultisigAccount) :
    pendingTx (state.putJson (accKey id) stored) account seq = pendingTx state account seq :=
  StateTree.getJson?_put_ne state _ (accKey_ne_txKey id account seq)

theorem pendingTx_putTx (state : StateTree) (account id : Hash) (seq other : UInt64)
    (tx : PendingTx) :
    pendingTx (state.putJson (txKey account seq) tx) id other =
      if id = account ∧ other = seq then some tx else pendingTx state id other := by
  unfold pendingTx
  split
  · rename_i same
    rw [same.1, same.2, StateTree.getJson?_putJson]
  · rename_i different
    refine StateTree.getJson?_put_ne state _ fun same => different ?_
    obtain ⟨accounts, seqs⟩ := txKey_injective same
    exact ⟨accounts.symm, seqs.symm⟩

end Reads

/-! ### What the operations do -/

section Operations

variable [SerdeJson] [Blake3] {command : Command} {state after : StateTree} {output : PrismOutput}

omit [SerdeJson] in
theorem accepts_createAccount {owners : List PartyId} {threshold : UInt32}
    (accepted : Accepts (createAccount command owners threshold) state output after) :
    distinct owners [] ≠ [] ∧ (distinct owners []).length ≤ maxOwners ∧ threshold ≠ 0 ∧
      threshold.toNat ≤ (distinct owners []).length ∧
      state.get (accKey (createdId command.submitter threshold (distinct owners []))) = none ∧
      output.derivedCommands = [] ∧
      after = state.putJson (accKey (createdId command.submitter threshold (distinct owners [])))
        ({ id := createdId command.submitter threshold (distinct owners [])
           owners := distinct owners []
           threshold := threshold
           nonce := 0 } : MultisigAccount) := by
  unfold createAccount at accepted
  obtain ⟨several, rest⟩ := accepts_unless.mp accepted
  obtain ⟨within, rest⟩ := accepts_unless.mp rest
  obtain ⟨_, _, got, rest⟩ := accepts_bind.mp rest
  obtain ⟨rfl, rfl⟩ := accepts_get.mp got
  obtain ⟨absent, rest⟩ := accepts_unless.mp rest
  simp only [accepts_bind, accepts_modify, accepts_pure] at rest
  obtain ⟨_, _, rfl, rfl, rfl⟩ := rest
  rw [StateTree.contains_eq_isSome, Option.not_isSome_iff_eq_none] at absent
  obtain ⟨some, few⟩ := not_or.mp several
  obtain ⟨positive, enough⟩ := not_or.mp within
  rw [List.isEmpty_iff] at some
  exact ⟨some, Nat.not_lt.mp few, positive, Nat.not_lt.mp enough, absent, rfl, rfl⟩

/-- The proposal as it is stored first. -/
def opened (account : Hash) (acc : MultisigAccount) (caller : PartyId) (inner : Command) :
    PendingTx :=
  { account := account
    seq := acc.nonce
    inner := inner
    confirmations := (∅ : Std.ExtTreeSet String).insert caller.name
    executed := decide (acc.threshold ≤ 1) }

theorem accepts_propose {account : Hash} {inner : Command}
    (accepted : Accepts (propose command account inner) state output after) :
    ∃ acc, accountId state account = some acc ∧ command.submitter ∈ acc.owners ∧
      output.derivedCommands = (if acc.threshold ≤ 1 then [inner] else []) ∧
      after = (state.putJson (accKey account) { acc with nonce := acc.nonce + 1 }).putJson
        (txKey account acc.nonce) (opened account acc command.submitter inner) := by
  unfold propose at accepted
  obtain ⟨acc, _, loaded, rest⟩ := accepts_bind.mp accepted
  obtain ⟨stored, owned, rfl⟩ := accepts_loadOwned loaded
  simp only [accepts_bind, accepts_modify, accepts_pure] at rest
  obtain ⟨_, _, rfl, _, _, rfl, rfl, rfl⟩ := rest
  refine ⟨acc, stored, owned, ?_, rfl⟩
  simp only [decide_eq_true_eq]

/-- The confirmations with one more. -/
def seconded (tx : PendingTx) (caller : PartyId) : Std.ExtTreeSet String :=
  tx.confirmations.insert caller.name

theorem accepts_confirm {account : Hash} {seq : UInt64}
    (accepted : Accepts (confirm command account seq) state output after) :
    ∃ acc tx, accountId state account = some acc ∧ command.submitter ∈ acc.owners ∧
      pendingTx state account seq = some tx ∧ tx.executed = false ∧
      output.derivedCommands =
        (if acc.threshold ≤ UInt32.ofNat (seconded tx command.submitter).size then [tx.inner]
          else []) ∧
      after = state.putJson (txKey account seq)
        { tx with
          confirmations := seconded tx command.submitter
          executed := decide (acc.threshold ≤
            UInt32.ofNat (seconded tx command.submitter).size) } := by
  unfold confirm at accepted
  obtain ⟨acc, _, loaded, rest⟩ := accepts_bind.mp accepted
  obtain ⟨stored, owned, rfl⟩ := accepts_loadOwned loaded
  obtain ⟨tx, _, found, guarded⟩ := accepts_bind.mp rest
  obtain ⟨pending, rfl⟩ := accepts_loadTx found
  obtain ⟨unfinished, last⟩ := accepts_unless.mp guarded
  simp only [accepts_bind, accepts_modify, accepts_pure] at last
  obtain ⟨_, _, rfl, rfl, rfl⟩ := last
  refine ⟨acc, tx, stored, owned, pending, Bool.not_eq_true _ ▸ unfinished, ?_, rfl⟩
  simp only [decide_eq_true_eq]
  rfl

theorem accepts_revoke {account : Hash} {seq : UInt64}
    (accepted : Accepts (revoke command account seq) state output after) :
    ∃ acc tx, accountId state account = some acc ∧ command.submitter ∈ acc.owners ∧
      pendingTx state account seq = some tx ∧ tx.executed = false ∧
      output.derivedCommands = [] ∧
      after = state.putJson (txKey account seq)
        { tx with confirmations := tx.confirmations.erase command.submitter.name } := by
  unfold revoke at accepted
  obtain ⟨acc, _, loaded, rest⟩ := accepts_bind.mp accepted
  obtain ⟨stored, owned, rfl⟩ := accepts_loadOwned loaded
  obtain ⟨tx, _, found, guarded⟩ := accepts_bind.mp rest
  obtain ⟨pending, rfl⟩ := accepts_loadTx found
  obtain ⟨unfinished, last⟩ := accepts_unless.mp guarded
  simp only [accepts_bind, accepts_modify, accepts_pure] at last
  obtain ⟨_, _, rfl, rfl, rfl⟩ := last
  exact ⟨acc, tx, stored, owned, pending, Bool.not_eq_true _ ▸ unfinished, rfl, rfl⟩

end Operations

/-! ### Histories -/

/-- One word of a party on a proposal. -/
structure Entry where
  party : PartyId
  account : Hash
  seq : UInt64
  confirms : Bool

def Entry.On (entry : Entry) (account : Hash) (seq : UInt64) (party : PartyId) : Prop :=
  entry.party = party ∧ entry.account = account ∧ entry.seq = seq

instance (entry : Entry) (account : Hash) (seq : UInt64) (party : PartyId) :
    Decidable (entry.On account seq party) :=
  inferInstanceAs (Decidable (_ ∧ _))

/-- The last word of the party on the proposal was a confirmation; entries stand newest
first. -/
def stands (entries : List Entry) (account : Hash) (seq : UInt64) (party : PartyId) : Bool :=
  (entries.find? fun entry => entry.On account seq party).any Entry.confirms

theorem stands_on {entry : Entry} {account : Hash} {seq : UInt64} {party : PartyId}
    (on : entry.On account seq party) (entries : List Entry) :
    stands (entry :: entries) account seq party = entry.confirms := by
  unfold stands
  rw [List.find?_cons_of_pos (by simpa using on)]
  rfl

theorem stands_off {entry : Entry} {account : Hash} {seq : UInt64} {party : PartyId}
    (off : ¬ entry.On account seq party) (entries : List Entry) :
    stands (entry :: entries) account seq party = stands entries account seq party := by
  unfold stands
  rw [List.find?_cons_of_neg (by simpa using off)]

theorem stands_unmarked {entries : List Entry} {account : Hash} {seq : UInt64}
    (unmarked : ∀ entry ∈ entries, ¬ (entry.account = account ∧ entry.seq = seq))
    (party : PartyId) : stands entries account seq party = false := by
  unfold stands
  have absent : (entries.find? fun entry => entry.On account seq party) = none := by
    rw [List.find?_eq_none]
    intro entry member on
    exact unmarked entry member (of_decide_eq_true on).2
  rw [absent]
  rfl

/-- The state with what was said, proposed and handed on so far. -/
structure Ledger where
  state : StateTree
  entries : List Entry
  proposed : List ((Hash × UInt64) × Command)
  emitted : List (Option (Hash × UInt64) × Command)

section Runs

variable [SerdeJson]

/-- What an operation says about which proposal. -/
def mark (state : StateTree) (submitter : PartyId) : MultisigCommand → Option Entry
  | .createAccount _ _ => none
  | .propose account _ =>
      (accountId state account).map fun acc => ⟨submitter, account, acc.nonce, true⟩
  | .confirm account seq => some ⟨submitter, account, seq, true⟩
  | .revoke account seq => some ⟨submitter, account, seq, false⟩

/-- The proposal that an operation opens. -/
def opening (state : StateTree) : MultisigCommand → Option ((Hash × UInt64) × Command)
  | .propose account inner =>
      (accountId state account).map fun acc => ((account, acc.nonce), inner)
  | _ => none

variable [Blake3]

/-- A command that the prism accepts; others leave no trace. -/
def record (ledger : Ledger) (command : Command) : Ledger :=
  match fromSlice MultisigCommand command.payload, (handle command).run.run ledger.state with
  | .ok operation, (.ok output, after) =>
      let entry := mark ledger.state command.submitter operation
      { state := after
        entries := entry.toList ++ ledger.entries
        proposed := ledger.proposed ++ (opening ledger.state operation).toList
        emitted := ledger.emitted ++ output.derivedCommands.map fun derived =>
          (entry.map fun entry => (entry.account, entry.seq), derived) }
  | _, _ => ledger

/-- A command reaches the prism, or the rest of the state moves on. -/
inductive Move where
  | command (command : Command)
  | elapse (later : StateTree)

def advance (ledger : Ledger) : Move → Ledger
  | .command command => record ledger command
  | .elapse later => { ledger with state := later }

omit [SerdeJson] [Blake3] in
/-- Outside the prism its entries stay. -/
def Permitted (ledger : Ledger) : Move → Prop
  | .command _ => True
  | .elapse later => StateTree.SameUnder "multisig/" ledger.state later

/-! ### What holds of every history -/

omit [SerdeJson] [Blake3] in
structure Proper (acc : MultisigAccount) : Prop where
  owners : acc.owners.Nodup
  few : acc.owners.length ≤ maxOwners
  positive : 0 < acc.threshold.toNat
  enough : acc.threshold.toNat ≤ acc.owners.length

omit [SerdeJson] [Blake3] in
/-- The confirmations are the owners that stand by the proposal, and it is executed when there
are enough of them. -/
structure Tallied (entries : List Entry) (acc : MultisigAccount) (account : Hash) (seq : UInt64)
    (tx : PendingTx) : Prop where
  ofAccount : tx.account = account
  atSeq : tx.seq = seq
  owners : ∀ name ∈ tx.confirmations, (⟨name⟩ : PartyId) ∈ acc.owners
  standing : ∀ name, name ∈ tx.confirmations ↔ stands entries account seq ⟨name⟩ = true
  reached : tx.executed = true ↔ acc.threshold.toNat ≤ tx.confirmations.size

/-- The seqs proposed to an account, in order. -/
def seqs (proposed : List ((Hash × UInt64) × Command)) (id : Hash) : List Nat :=
  (proposed.filter fun item => item.1.1 = id).map fun item => item.1.2.toNat

structure Kept (ledger : Ledger) : Prop where
  accounts : ∀ id acc, accountId ledger.state id = some acc → Proper acc
  tallied : ∀ account seq tx, pendingTx ledger.state account seq = some tx →
    ∃ acc, accountId ledger.state account = some acc ∧ seq < acc.nonce ∧
      Tallied ledger.entries acc account seq tx
  marked : ∀ entry ∈ ledger.entries,
    ∃ tx, pendingTx ledger.state entry.account entry.seq = some tx
  proposed : ∀ account seq inner, ((account, seq), inner) ∈ ledger.proposed ↔
    ∃ tx, pendingTx ledger.state account seq = some tx ∧ tx.inner = inner
  dense : ∀ id acc, accountId ledger.state id = some acc →
    seqs ledger.proposed id = List.range acc.nonce.toNat
  emitted : ∀ item, item ∈ ledger.emitted ↔ ∃ account seq tx,
    pendingTx ledger.state account seq = some tx ∧ tx.executed = true ∧
      item = (some (account, seq), tx.inner)
  once : (ledger.emitted.map Prod.fst).Nodup

section Steps

variable {ledger : Ledger} {account : Hash} {seq : UInt64} {tx : PendingTx} {acc : MultisigAccount}

omit [SerdeJson] [Blake3] in
/-- Enough names, counted in 32 bits, are enough names. -/
theorem count_le_iff {names : Std.ExtTreeSet String} (proper : Proper acc)
    (owners : ∀ name ∈ names, (⟨name⟩ : PartyId) ∈ acc.owners) :
    acc.threshold ≤ UInt32.ofNat names.size ↔ acc.threshold.toNat ≤ names.size := by
  have bound := (size_le_owners owners).trans proper.few
  have small : maxOwners < 2 ^ 32 := by decide
  rw [UInt32.le_iff_toNat_le, UInt32.toNat_ofNat', Nat.mod_eq_of_lt (by omega)]

omit [SerdeJson] [Blake3] in
/-- Words on other proposals change nothing. -/
theorem Tallied.aside {entries : List Entry} (tallied : Tallied entries acc account seq tx)
    {entry : Entry} (other : ¬ (account = entry.account ∧ seq = entry.seq)) :
    Tallied (entry :: entries) acc account seq tx := by
  refine { tallied with standing := ?_ }
  intro name
  rw [stands_off fun on => other ⟨on.2.1.symm, on.2.2.symm⟩]
  exact tallied.standing name

omit [Blake3] in
/-- The key of a proposal that is not executed has not been emitted. -/
theorem Kept.once_more (kept : Kept ledger) {done : Prop} [Decidable done] (inner : Command)
    (unfinished : ∀ tx, pendingTx ledger.state account seq = some tx → tx.executed = false) :
    ((ledger.emitted ++
      if done then [(some (account, seq), inner)] else []).map Prod.fst).Nodup := by
  rw [List.map_append, List.nodup_append]
  refine ⟨kept.once, ?_, ?_⟩
  · split
    · exact List.nodup_singleton _
    · exact List.nodup_nil
  · intro key earlier other last same
    split at last
    · obtain ⟨item, member, rfl⟩ := List.mem_map.mp earlier
      obtain ⟨owner, index, found, present, executed, rfl⟩ := (kept.emitted item).mp member
      rw [List.map_singleton, List.mem_singleton] at last
      rw [last] at same
      cases same
      rw [unfinished found present] at executed
      cases executed
    · cases last

omit [Blake3] in
/-- A proposal that is not yet executed gets a confirmation more or less. -/
theorem Kept.voted (kept : Kept ledger) (caller : PartyId) {confirms : Bool}
    (stored : accountId ledger.state account = some acc) (owned : caller ∈ acc.owners)
    (pending : pendingTx ledger.state account seq = some tx) (unfinished : tx.executed = false)
    {names : Std.ExtTreeSet String} {done : Bool}
    (voted : ∀ name, name ∈ names ↔
      (name = caller.name ∧ confirms = true) ∨ (name ≠ caller.name ∧ name ∈ tx.confirmations))
    (reached : done = true ↔ acc.threshold.toNat ≤ names.size) :
    Kept
      { state := ledger.state.putJson (txKey account seq)
          { tx with
            confirmations := names
            executed := done }
        entries := ⟨caller, account, seq, confirms⟩ :: ledger.entries
        proposed := ledger.proposed
        emitted := ledger.emitted ++
          if done = true then [(some (account, seq), tx.inner)] else [] } := by
  obtain ⟨known, listed, before, tallied⟩ := kept.tallied account seq tx pending
  rw [stored] at listed
  cases listed
  have elsewhere {other : Hash} {index : UInt64} (different : ¬ (other = account ∧ index = seq)) :
      pendingTx (ledger.state.putJson (txKey account seq)
        { tx with
          confirmations := names
          executed := done }) other index = pendingTx ledger.state other index := by
    rw [pendingTx_putTx, if_neg different]
  have here : pendingTx (ledger.state.putJson (txKey account seq)
      { tx with
        confirmations := names
        executed := done }) account seq = some { tx with
          confirmations := names
          executed := done } := by
    rw [pendingTx_putTx, if_pos ⟨rfl, rfl⟩]
  -- An executed proposal is not the one voted on.
  have fresh {index : UInt64} {other : Hash} {found : PendingTx}
      (stands : pendingTx ledger.state other index = some found)
      (executed : found.executed = true) : ¬ (other = account ∧ index = seq) := by
    rintro ⟨rfl, rfl⟩
    rw [pending] at stands
    cases stands
    rw [unfinished] at executed
    cases executed
  refine ⟨?_, ?_, ?_, ?_, ?_, ?_, ?_⟩
  · intro id other found
    rw [accountId_putTx] at found
    exact kept.accounts id other found
  · intro other index found present
    by_cases same : other = account ∧ index = seq
    · obtain ⟨rfl, rfl⟩ := same
      rw [here] at present
      cases present
      refine ⟨acc, (accountId_putTx _ _ _ _ _).trans stored, before, ?_⟩
      refine ⟨tallied.ofAccount, tallied.atSeq, ?_, ?_, reached⟩
      · intro name member
        rcases (voted name).mp member with ⟨own, _⟩ | ⟨_, earlier⟩
        · rw [own]
          exact owned
        · exact tallied.owners name earlier
      · intro name
        rw [voted name]
        by_cases own : name = caller.name
        · rw [stands_on ⟨by rw [own], rfl, rfl⟩]
          constructor
          · rintro (⟨_, yes⟩ | ⟨other, _⟩)
            · exact yes
            · exact absurd own other
          · exact fun yes => .inl ⟨own, yes⟩
        · rw [stands_off fun on => own (congrArg PartyId.name on.1).symm, ← tallied.standing name]
          constructor
          · rintro (⟨same, _⟩ | ⟨_, earlier⟩)
            · exact absurd same own
            · exact earlier
          · exact fun earlier => .inr ⟨own, earlier⟩
    · rw [elsewhere same] at present
      obtain ⟨owner, listed, below, good⟩ := kept.tallied other index found present
      exact ⟨owner, (accountId_putTx _ _ _ _ _).trans listed, below, good.aside same⟩
  · intro entry member
    rcases List.mem_cons.mp member with rfl | earlier
    · exact ⟨_, here⟩
    · obtain ⟨found, present⟩ := kept.marked entry earlier
      by_cases same : entry.account = account ∧ entry.seq = seq
      · rw [same.1, same.2]
        exact ⟨_, here⟩
      · exact ⟨found, (elsewhere same).trans present⟩
  · intro other index inner
    rw [kept.proposed]
    by_cases same : other = account ∧ index = seq
    · obtain ⟨rfl, rfl⟩ := same
      rw [here, pending]
      simp only [Option.some.injEq, exists_eq_left']
    · rw [elsewhere same]
  · intro id other found
    rw [accountId_putTx] at found
    exact kept.dense id other found
  · intro item
    rw [List.mem_append, kept.emitted]
    constructor
    · rintro (⟨other, index, found, present, executed, rfl⟩ | last)
      · exact ⟨other, index, found, (elsewhere (fresh present executed)).trans present, executed,
          rfl⟩
      · split at last
        · rename_i finished
          exact ⟨account, seq, _, here, finished, List.mem_singleton.mp last⟩
        · cases last
    · rintro ⟨other, index, found, present, executed, rfl⟩
      by_cases same : other = account ∧ index = seq
      · obtain ⟨rfl, rfl⟩ := same
        rw [here] at present
        cases present
        right
        rw [if_pos executed]
        exact List.mem_cons_self
      · rw [elsewhere same] at present
        exact .inl ⟨other, index, found, present, executed, rfl⟩
  · refine kept.once_more tx.inner fun found present => ?_
    rw [pending] at present
    cases present
    exact unfinished

omit [Blake3] in
/-- A new proposal of an account. -/
theorem Kept.opens (kept : Kept ledger) (caller : PartyId) (inner : Command)
    (stored : accountId ledger.state account = some acc) (owned : caller ∈ acc.owners)
    (room : acc.nonce.toNat + 1 < 2 ^ 64) :
    Kept
      { state := (ledger.state.putJson (accKey account) { acc with nonce := acc.nonce + 1 }).putJson
          (txKey account acc.nonce) (opened account acc caller inner)
        entries := ⟨caller, account, acc.nonce, true⟩ :: ledger.entries
        proposed := ledger.proposed ++ [((account, acc.nonce), inner)]
        emitted := ledger.emitted ++
          if acc.threshold ≤ 1 then [(some (account, acc.nonce), inner)] else [] } := by
  have proper := kept.accounts account acc stored
  have next : (acc.nonce + 1).toNat = acc.nonce.toNat + 1 := by
    rw [UInt64.toNat_add]
    exact Nat.mod_eq_of_lt room
  have unopened : pendingTx ledger.state account acc.nonce = none := by
    rw [Option.eq_none_iff_forall_ne_some]
    intro tx present
    obtain ⟨owner, listed, below, _⟩ := kept.tallied account acc.nonce tx present
    rw [stored] at listed
    cases listed
    exact UInt64.lt_irrefl _ below
  have accountsAfter (id : Hash) :
      accountId ((ledger.state.putJson (accKey account) { acc with nonce := acc.nonce + 1 }).putJson
        (txKey account acc.nonce) (opened account acc caller inner)) id =
        if id = account then some { acc with nonce := acc.nonce + 1 }
        else accountId ledger.state id := by
    rw [accountId_putTx, accountId_putAccount]
  have pendingAfter (other : Hash) (index : UInt64) :
      pendingTx ((ledger.state.putJson (accKey account) { acc with nonce := acc.nonce + 1 }).putJson
        (txKey account acc.nonce) (opened account acc caller inner)) other index =
        if other = account ∧ index = acc.nonce then some (opened account acc caller inner)
        else pendingTx ledger.state other index := by
    rw [pendingTx_putTx, pendingTx_putAccount]
  have fresh {index : UInt64} {other : Hash} {found : PendingTx}
      (present : pendingTx ledger.state other index = some found) :
      ¬ (other = account ∧ index = acc.nonce) := by
    rintro ⟨rfl, rfl⟩
    rw [unopened] at present
    cases present
  have unmarked : ∀ entry ∈ ledger.entries,
      ¬ (entry.account = account ∧ entry.seq = acc.nonce) := by
    intro entry member same
    obtain ⟨tx, present⟩ := kept.marked entry member
    exact fresh present same
  refine ⟨?_, ?_, ?_, ?_, ?_, ?_, ?_⟩
  · intro id other found
    rw [accountsAfter] at found
    split at found
    · cases found
      exact ⟨proper.owners, proper.few, proper.positive, proper.enough⟩
    · exact kept.accounts id other found
  · intro other index found present
    rw [pendingAfter] at present
    rw [accountsAfter]
    split at present
    · rename_i same
      obtain ⟨rfl, rfl⟩ := same
      cases present
      rw [if_pos rfl]
      refine ⟨_, rfl, ?_, rfl, rfl, ?_, ?_, ?_⟩
      · rw [UInt64.lt_iff_toNat_lt]
        change acc.nonce.toNat < (acc.nonce + 1).toNat
        omega
      · intro name member
        rcases Std.ExtTreeSet.mem_insert.mp member with same | impossible
        · rw [← Std.LawfulEqOrd.eq_of_compare same]
          exact owned
        · exact absurd impossible Std.ExtTreeSet.not_mem_empty
      · intro name
        by_cases own : name = caller.name
        · rw [stands_on ⟨by rw [own], rfl, rfl⟩, own]
          exact iff_of_true Std.ExtTreeSet.mem_insert_self rfl
        · rw [stands_off fun on => own (congrArg PartyId.name on.1).symm,
            stands_unmarked unmarked]
          refine iff_of_false ?_ Bool.false_ne_true
          intro member
          rcases Std.ExtTreeSet.mem_insert.mp member with same | impossible
          · exact own (Std.LawfulEqOrd.eq_of_compare same).symm
          · exact Std.ExtTreeSet.not_mem_empty impossible
      · change decide (acc.threshold ≤ 1) = true ↔
          acc.threshold.toNat ≤ ((∅ : Std.ExtTreeSet String).insert caller.name).size
        rw [decide_eq_true_iff, UInt32.le_iff_toNat_le, Std.ExtTreeSet.size_insert,
          Std.ExtTreeSet.contains_empty, Std.ExtTreeSet.size_empty]
        rfl
    · rename_i different
      obtain ⟨owner, listed, below, good⟩ := kept.tallied other index found present
      have standing : Tallied (⟨caller, account, acc.nonce, true⟩ :: ledger.entries) owner other
          index found := good.aside different
      split
      · rename_i same
        rw [same, stored] at listed
        cases listed
        refine ⟨_, rfl, ?_, { standing with }⟩
        rw [UInt64.lt_iff_toNat_lt] at below ⊢
        change index.toNat < (acc.nonce + 1).toNat
        omega
      · exact ⟨owner, listed, below, standing⟩
  · intro entry member
    rw [pendingAfter]
    split
    · exact ⟨_, rfl⟩
    · rename_i different
      rcases List.mem_cons.mp member with rfl | earlier
      · exact absurd ⟨rfl, rfl⟩ different
      · exact kept.marked entry earlier
  · intro other index command
    rw [List.mem_append, List.mem_singleton, kept.proposed, pendingAfter]
    split
    · rename_i same
      obtain ⟨rfl, rfl⟩ := same
      rw [unopened]
      constructor
      · rintro (⟨_, impossible, _⟩ | last)
        · cases impossible
        · cases last
          exact ⟨_, rfl, rfl⟩
      · rintro ⟨_, same, rfl⟩
        cases same
        exact .inr rfl
    · rename_i different
      constructor
      · rintro (found | last)
        · exact found
        · cases last
          exact absurd ⟨rfl, rfl⟩ different
      · exact .inl
  · intro id other found
    rw [accountsAfter] at found
    unfold seqs
    rw [List.filter_append, List.map_append]
    split at found
    · rename_i same
      cases found
      subst same
      have earlier := kept.dense id acc stored
      unfold seqs at earlier
      rw [earlier, List.filter_cons_of_pos (by simp), List.filter_nil, List.map_singleton]
      change List.range acc.nonce.toNat ++ [acc.nonce.toNat] = List.range (acc.nonce + 1).toNat
      rw [next, List.range_succ]
    · rename_i different
      rw [List.filter_cons_of_neg (by simpa using Ne.symm different), List.filter_nil, List.map_nil,
        List.append_nil]
      exact kept.dense id other found
  · intro item
    rw [List.mem_append, kept.emitted]
    constructor
    · rintro (⟨other, index, found, present, executed, rfl⟩ | last)
      · refine ⟨other, index, found, ?_, executed, rfl⟩
        rw [pendingAfter, if_neg (fresh present)]
        exact present
      · split at last
        · rename_i alone
          refine ⟨account, acc.nonce, opened account acc caller inner, ?_, decide_eq_true alone,
            List.mem_singleton.mp last⟩
          rw [pendingAfter, if_pos ⟨rfl, rfl⟩]
        · cases last
    · rintro ⟨other, index, found, present, executed, rfl⟩
      rw [pendingAfter] at present
      split at present
      · rename_i same
        obtain ⟨rfl, rfl⟩ := same
        cases present
        right
        rw [if_pos (of_decide_eq_true executed)]
        exact List.mem_cons_self
      · exact .inl ⟨other, index, found, present, executed, rfl⟩
  · refine kept.once_more inner fun found present => ?_
    rw [unopened] at present
    cases present

omit [Blake3] in
/-- A new account under a fresh identifier. -/
theorem Kept.created (kept : Kept ledger) {fresh : MultisigAccount}
    (absent : ledger.state.get (accKey account) = none) (proper : Proper fresh)
    (unused : fresh.nonce = 0) :
    Kept { ledger with state := ledger.state.putJson (accKey account) fresh } := by
  have missing : accountId ledger.state account = none := by
    unfold accountId StateTree.getJson? StateTree.getJson
    rw [absent]
  refine ⟨?_, ?_, ?_, ?_, ?_, ?_, kept.once⟩
  · intro id other found
    rw [accountId_putAccount] at found
    split at found
    · cases found
      exact proper
    · exact kept.accounts id other found
  · intro other index found present
    rw [pendingTx_putAccount] at present
    obtain ⟨owner, listed, below, good⟩ := kept.tallied other index found present
    rw [accountId_putAccount]
    split
    · rename_i same
      rw [same, missing] at listed
      cases listed
    · exact ⟨owner, listed, below, good⟩
  · intro entry member
    rw [pendingTx_putAccount]
    exact kept.marked entry member
  · intro other index command
    rw [pendingTx_putAccount]
    exact kept.proposed other index command
  · intro id other found
    rw [accountId_putAccount] at found
    split at found
    · rename_i same
      cases found
      rw [unused]
      unfold seqs
      have none : (ledger.proposed.filter fun item => item.1.1 = id) = [] := by
        rw [List.filter_eq_nil_iff]
        intro item member same'
        obtain ⟨⟨owner, index⟩, inner⟩ := item
        obtain ⟨tx, present, _⟩ := (kept.proposed owner index inner).mp member
        obtain ⟨_, listed, _⟩ := kept.tallied owner index tx present
        have equal : owner = id := of_decide_eq_true same'
        rw [equal, same, missing] at listed
        cases listed
      rw [none]
      rfl
    · exact kept.dense id other found
  · intro item
    rw [kept.emitted]
    simp only [pendingTx_putAccount]

omit [Blake3] in
/-- Writes of others leave the prism's entries. -/
theorem Kept.elapses (kept : Kept ledger) {later : StateTree}
    (same : StateTree.SameUnder "multisig/" ledger.state later) :
    Kept { ledger with state := later } := by
  have accounts (id : Hash) : accountId later id = accountId ledger.state id := by
    unfold accountId StateTree.getJson? StateTree.getJson
    rw [show accKey id = "multisig/" ++ ("acc/" ++ id.toHex) by
      unfold accKey accPrefix
      rw [← String.append_assoc]
      rfl, same]
  have pendings (id : Hash) (index : UInt64) :
      pendingTx later id index = pendingTx ledger.state id index := by
    unfold pendingTx StateTree.getJson? StateTree.getJson
    rw [txKey_eq_append, show txPrefix = "multisig/" ++ "tx/" from rfl, String.append_assoc, same]
  refine ⟨?_, ?_, ?_, ?_, ?_, ?_, kept.once⟩
  · intro id other found
    exact kept.accounts id other ((accounts id).symm.trans found)
  · intro other index found present
    rw [accounts]
    exact kept.tallied other index found ((pendings other index).symm.trans present)
  · intro entry member
    rw [pendings]
    exact kept.marked entry member
  · intro other index command
    rw [pendings]
    exact kept.proposed other index command
  · intro id other found
    exact kept.dense id other ((accounts id).symm.trans found)
  · intro item
    rw [kept.emitted]
    simp only [pendings]

theorem accepts_handle {command : Command} {state after : StateTree} {output : PrismOutput}
    {operation : MultisigCommand}
    (parsed : fromSlice MultisigCommand command.payload = .ok operation)
    (accepted : Accepts (handle command) state output after) :
    Accepts (execute command operation) state output after := by
  unfold handle at accepted
  rw [parsed] at accepted
  exact accepted

omit [Blake3] in
theorem Kept.nonce_le (kept : Kept ledger) (stored : accountId ledger.state account = some acc) :
    acc.nonce.toNat ≤ ledger.proposed.length := by
  have dense := congrArg List.length (kept.dense account acc stored)
  unfold seqs at dense
  rw [List.length_map, List.length_range] at dense
  rw [← dense]
  exact List.length_filter_le _ _

theorem Kept.execute (kept : Kept ledger) (room : ledger.proposed.length + 1 < 2 ^ 64)
    {command : Command} {operation : MultisigCommand} {after : StateTree} {output : PrismOutput}
    (accepted : Accepts (execute command operation) ledger.state output after) :
    Kept
      { state := after
        entries := (mark ledger.state command.submitter operation).toList ++ ledger.entries
        proposed := ledger.proposed ++ (opening ledger.state operation).toList
        emitted := ledger.emitted ++ output.derivedCommands.map fun derived =>
          ((mark ledger.state command.submitter operation).map fun entry =>
            (entry.account, entry.seq), derived) } := by
  cases operation with
  | createAccount owners threshold =>
      obtain ⟨some, few, positive, enough, absent, derived, rfl⟩ := accepts_createAccount accepted
      rw [derived]
      simp only [mark, opening, Option.toList_none, List.nil_append, List.append_nil, List.map_nil]
      refine kept.created absent ⟨distinct_spec owners [] List.nodup_nil, few, ?_, enough⟩ rfl
      exact Nat.pos_of_ne_zero fun zero => positive (UInt32.toNat_inj.mp zero)
  | propose account inner =>
      obtain ⟨acc, stored, owned, derived, rfl⟩ := accepts_propose accepted
      have below := kept.nonce_le stored
      have opens := kept.opens command.submitter inner stored owned (by omega)
      rw [derived]
      simp only [mark, opening, stored, Option.map_some, Option.toList_some, List.cons_append,
        List.nil_append]
      rw [apply_ite (List.map _), List.map_singleton, List.map_nil]
      exact opens
  | confirm account seq =>
      obtain ⟨acc, tx, stored, owned, pending, unfinished, derived, rfl⟩ :=
        accepts_confirm accepted
      obtain ⟨known, listed, _, tallied⟩ := kept.tallied account seq tx pending
      rw [stored] at listed
      cases listed
      have voted (name : String) : name ∈ seconded tx command.submitter ↔
          (name = command.submitter.name ∧ true = true) ∨
            (name ≠ command.submitter.name ∧ name ∈ tx.confirmations) := by
        unfold seconded
        rw [Std.ExtTreeSet.mem_insert, Std.compare_eq_iff_eq]
        by_cases own : name = command.submitter.name
        · simp only [own, true_or, true_and, ne_eq, not_true_eq_false, false_and, or_false]
        · simp only [own, Ne.symm own, false_or, false_and, ne_eq, not_false_eq_true, true_and]
      have inside : ∀ name ∈ seconded tx command.submitter, (⟨name⟩ : PartyId) ∈ acc.owners := by
        intro name member
        rcases (voted name).mp member with ⟨own, _⟩ | ⟨_, earlier⟩
        · rw [own]
          exact owned
        · exact tallied.owners name earlier
      have reached := count_le_iff (kept.accounts account acc stored) inside
      have done := kept.voted command.submitter stored owned pending unfinished voted
        (decide_eq_true_iff.trans reached)
      rw [derived]
      simp only [mark, opening, Option.map_some, Option.toList_some, Option.toList_none,
        List.cons_append, List.nil_append, List.append_nil]
      rw [apply_ite (List.map _), List.map_singleton, List.map_nil]
      simp only [decide_eq_true_eq] at done
      exact done
  | revoke account seq =>
      obtain ⟨acc, tx, stored, owned, pending, unfinished, derived, rfl⟩ :=
        accepts_revoke accepted
      obtain ⟨known, listed, _, tallied⟩ := kept.tallied account seq tx pending
      rw [stored] at listed
      cases listed
      have voted (name : String) : name ∈ tx.confirmations.erase command.submitter.name ↔
          (name = command.submitter.name ∧ false = true) ∨
            (name ≠ command.submitter.name ∧ name ∈ tx.confirmations) := by
        rw [Std.ExtTreeSet.mem_erase, ne_eq, Std.compare_eq_iff_eq]
        simp only [Bool.false_eq_true, and_false, false_or, ne_eq, eq_comm]
      have fewer : (tx.confirmations.erase command.submitter.name).size ≤ tx.confirmations.size :=
        Std.ExtTreeSet.size_erase_le
      have short : ¬ acc.threshold.toNat ≤ tx.confirmations.size := by
        rw [← tallied.reached, unfinished]
        exact Bool.false_ne_true
      have done : Kept
          { state := ledger.state.putJson (txKey account seq)
              { tx with
                confirmations := tx.confirmations.erase command.submitter.name
                executed := false }
            entries := ⟨command.submitter, account, seq, false⟩ :: ledger.entries
            proposed := ledger.proposed
            emitted := ledger.emitted ++
              if false = true then [(some (account, seq), tx.inner)] else [] } :=
        kept.voted command.submitter stored owned pending unfinished voted
          (iff_of_false Bool.false_ne_true (by omega))
      rw [if_neg Bool.false_ne_true, List.append_nil] at done
      have same : ({ tx with
            confirmations := tx.confirmations.erase command.submitter.name } : PendingTx) =
          { tx with
            confirmations := tx.confirmations.erase command.submitter.name
            executed := false } := by
        rw [← unfinished]
      rw [derived, same]
      simp only [mark, opening, Option.toList_some, Option.toList_none, List.cons_append,
        List.nil_append, List.append_nil, List.map_nil]
      exact done

/-- One command keeps everything, and proposes at most once. -/
theorem Kept.record (kept : Kept ledger) (room : ledger.proposed.length + 1 < 2 ^ 64)
    (command : Command) : Kept (record ledger command) ∧
      (MultisigPrism.record ledger command).proposed.length ≤ ledger.proposed.length + 1 := by
  unfold MultisigPrism.record
  split
  · rename_i operation output after parsed ran
    refine ⟨kept.execute room (accepts_handle parsed ran), ?_⟩
    rw [List.length_append]
    cases opening ledger.state operation with
    | none => exact Nat.le_succ _
    | some item => exact Nat.le_refl _
  · exact ⟨kept, Nat.le_succ _⟩

theorem Kept.advance (kept : Kept ledger) (room : ledger.proposed.length + 1 < 2 ^ 64)
    {move : Move} (permitted : Permitted ledger move) : Kept (advance ledger move) ∧
      (MultisigPrism.advance ledger move).proposed.length ≤ ledger.proposed.length + 1 := by
  cases move with
  | command command => exact kept.record room command
  | elapse later => exact ⟨kept.elapses permitted, Nat.le_succ _⟩

omit [Blake3] in
theorem kept_start {state : StateTree} (fresh : ∀ rest, state.get ("multisig/" ++ rest) = none) :
    Kept ⟨state, [], [], []⟩ := by
  have empty : StateTree.SameUnder "multisig/" StateTree.empty state := by
    intro rest
    rw [fresh, StateTree.get_empty]
  have nothing : Kept ⟨StateTree.empty, [], [], []⟩ := by
    have accounts (id : Hash) : accountId StateTree.empty id = none := by
      unfold accountId StateTree.getJson? StateTree.getJson
      rw [StateTree.get_empty]
    have pendings (id : Hash) (index : UInt64) : pendingTx StateTree.empty id index = none := by
      unfold pendingTx StateTree.getJson? StateTree.getJson
      rw [StateTree.get_empty]
    refine ⟨?_, ?_, ?_, ?_, ?_, ?_, List.nodup_nil⟩
    · intro id acc found
      rw [accounts] at found
      cases found
    · intro id index tx found
      rw [pendings] at found
      cases found
    · intro entry member
      cases member
    · intro id index inner
      rw [pendings]
      simp only [List.not_mem_nil, reduceCtorEq, false_and, exists_false]
    · intro id acc found
      rw [accounts] at found
      cases found
    · intro item
      simp only [pendings, List.not_mem_nil, reduceCtorEq, false_and, exists_false]
  exact nothing.elapses empty

theorem kept_run {state : StateTree} (fresh : ∀ rest, state.get ("multisig/" ++ rest) = none)
    {moves : List Move} (short : moves.length < 2 ^ 64)
    (along : Run.Along advance Permitted ⟨state, [], [], []⟩ moves) :
    Kept (Run.run advance ⟨state, [], [], []⟩ moves) ∧
      (Run.run advance ⟨state, [], [], []⟩ moves).proposed.length ≤ moves.length := by
  induction moves using List.reverseRecOn with
  | nil => exact ⟨kept_start fresh, Nat.le_refl _⟩
  | append_singleton moves move ih =>
      obtain ⟨before, last, _⟩ := (Run.along_append advance).mp along
      rw [List.length_append, List.length_singleton] at short
      obtain ⟨kept, few⟩ := ih (by omega) before
      obtain ⟨next, more⟩ := kept.advance (by omega) last
      rw [Run.run_snoc, List.length_append, List.length_singleton]
      exact ⟨next, by omega⟩

/-- Over every run: the accounts are proper and number their proposals from zero; a proposal
keeps its command and the owners that stand by it; and a command is handed on exactly when
enough owners do, and never again. -/
theorem executed_once {state : StateTree}
    (fresh : ∀ rest, state.get ("multisig/" ++ rest) = none) {moves : List Move}
    (short : moves.length < 2 ^ 64)
    (along : Run.Along advance Permitted ⟨state, [], [], []⟩ moves) :
    let ledger := Run.run advance ⟨state, [], [], []⟩ moves
    (∀ id acc, accountId ledger.state id = some acc →
      Proper acc ∧ seqs ledger.proposed id = List.range acc.nonce.toNat) ∧
    (∀ account seq inner, ((account, seq), inner) ∈ ledger.proposed →
      ∃ acc tx, accountId ledger.state account = some acc ∧
        pendingTx ledger.state account seq = some tx ∧ tx.inner = inner ∧
        Tallied ledger.entries acc account seq tx) ∧
    (∀ account seq inner, (some (account, seq), inner) ∈ ledger.emitted ↔
      ((account, seq), inner) ∈ ledger.proposed ∧
      ∃ acc tx, accountId ledger.state account = some acc ∧
        pendingTx ledger.state account seq = some tx ∧
        acc.threshold.toNat ≤ tx.confirmations.size) ∧
    (∀ item ∈ ledger.emitted, item.1 ≠ none) ∧ (ledger.emitted.map Prod.fst).Nodup := by
  have kept := (kept_run fresh short along).1
  dsimp only
  generalize Run.run advance ⟨state, [], [], []⟩ moves = ledger at kept ⊢
  refine ⟨fun id acc stored => ⟨kept.accounts id acc stored, kept.dense id acc stored⟩,
    ?_, ?_, ?_, kept.once⟩
  · intro account seq inner proposed
    obtain ⟨tx, present, same⟩ := (kept.proposed account seq inner).mp proposed
    obtain ⟨acc, stored, _, tallied⟩ := kept.tallied account seq tx present
    exact ⟨acc, tx, stored, present, same, tallied⟩
  · intro account seq inner
    rw [kept.emitted, kept.proposed]
    constructor
    · rintro ⟨_, _, tx, present, executed, same⟩
      cases same
      obtain ⟨acc, stored, _, tallied⟩ := kept.tallied account seq tx present
      exact ⟨⟨tx, present, rfl⟩, acc, tx, stored, present, tallied.reached.mp executed⟩
    · rintro ⟨⟨tx, present, rfl⟩, acc, found, stored, again, enough⟩
      rw [present] at again
      cases again
      obtain ⟨owner, listed, _, tallied⟩ := kept.tallied account seq tx present
      rw [stored] at listed
      cases listed
      exact ⟨account, seq, tx, present, tallied.reached.mpr enough, rfl⟩
  · intro item member none
    obtain ⟨account, seq, tx, _, _, same⟩ := (kept.emitted item).mp member
    rw [same] at none
    cases none

end Steps

end Runs

/-! ### An account of one owner -/

section Single

attribute [local instance] SerdeJson.compact Blake3.polynomial

def alice : PartyId := ⟨"alice"⟩

def byAlice (operation : MultisigCommand) : Command :=
  { prism := "multisig"
    submitter := alice
    visibility := .pub
    payload := toVec operation
    nonce := 0 }

def aliceId : Hash := createdId alice 1 [alice]

def aliceAccount : MultisigAccount :=
  { id := aliceId
    owners := [alice]
    threshold := 1
    nonce := 0 }

def creation : Command := byAlice (.createAccount [alice] 1)

/-- Any command will do; this one asks for the account once more. -/
def proposal : Command := byAlice (.propose aliceId creation)

def aliceCreated : StateTree := StateTree.empty.putJson (accKey aliceId) aliceAccount

def aliceProposed : StateTree :=
  (aliceCreated.putJson (accKey aliceId)
    { aliceAccount with nonce := aliceAccount.nonce + 1 }).putJson (txKey aliceId 0)
      (opened aliceId aliceAccount alice creation)

theorem creation_recorded :
    record ⟨StateTree.empty, [], [], []⟩ creation = ⟨aliceCreated, [], [], []⟩ := by
  have ran : ∃ output, output.derivedCommands = [] ∧
      Accepts (handle creation) StateTree.empty output aliceCreated := by
    refine ⟨.single (event creation (.accountCreated aliceId 1 1)) 4000, rfl, ?_⟩
    unfold handle creation byAlice
    rw [fromSlice_toVec]
    change Accepts (createAccount creation [alice] 1) _ _ _
    unfold createAccount
    refine accepts_unless.mpr ⟨by decide, accepts_unless.mpr ⟨by decide, ?_⟩⟩
    refine accepts_bind.mpr ⟨_, _, accepts_get.mpr ⟨rfl, rfl⟩, accepts_unless.mpr ⟨?_, ?_⟩⟩
    · rw [StateTree.contains_eq_isSome, StateTree.get_empty]
      exact Bool.false_ne_true
    · simp only [accepts_bind, accepts_modify, accepts_pure]
      exact ⟨⟨⟩, _, rfl, rfl, rfl⟩
  obtain ⟨output, derived, accepted⟩ := ran
  unfold record
  unfold Accepts at accepted
  have parsed : fromSlice MultisigCommand creation.payload = .ok (.createAccount [alice] 1) :=
    fromSlice_toVec (MultisigCommand.createAccount [alice] 1)
  rw [parsed, accepted]
  dsimp only
  rw [derived]
  rfl

theorem proposal_recorded :
    record ⟨aliceCreated, [], [], []⟩ proposal =
      ⟨aliceProposed, [⟨alice, aliceId, 0, true⟩], [((aliceId, 0), creation)],
        [(some (aliceId, 0), creation)]⟩ := by
  have loaded : Accepts (loadOwned alice aliceId) aliceCreated aliceAccount aliceCreated := by
    unfold loadOwned
    refine accepts_bind.mpr ⟨aliceAccount, aliceCreated, ?_, ?_⟩
    · unfold loadAccount
      refine accepts_bind.mpr ⟨_, _, accepts_get.mpr ⟨rfl, rfl⟩, ?_⟩
      unfold aliceCreated
      rw [StateTree.getJson_putJson]
      exact accepts_pure.mpr ⟨rfl, rfl⟩
    · exact accepts_unless.mpr ⟨by decide, accepts_pure.mpr ⟨rfl, rfl⟩⟩
  have ran : ∃ output after,
      Accepts (propose proposal aliceId creation) aliceCreated output after := by
    exact ⟨_, _, (run_bind_ok loaded).trans rfl⟩
  obtain ⟨output, after, accepted⟩ := ran
  have stored : accountId aliceCreated aliceId = some aliceAccount :=
    StateTree.getJson?_putJson _ _ _
  obtain ⟨acc, found, _, derived, left⟩ := accepts_propose accepted
  obtain rfl := Option.some.inj (stored.symm.trans found)
  have parsed : fromSlice MultisigCommand proposal.payload = .ok (.propose aliceId creation) := by
    unfold proposal byAlice
    rw [fromSlice_toVec]
  have handled : Accepts (handle proposal) aliceCreated output after := by
    unfold handle
    rw [parsed]
    exact accepted
  unfold record
  unfold Accepts at handled
  rw [parsed, handled]
  dsimp only
  rw [derived, left, if_pos (by decide)]
  simp only [mark, opening, stored]
  rfl

/-- The first proposal of a single owner is handed on at once. -/
theorem executed_once_alice :
    (some (aliceId, 0), creation) ∈ (Run.run advance ⟨StateTree.empty, [], [], []⟩
      [.command creation, .command proposal]).emitted ∧
    ((Run.run advance ⟨StateTree.empty, [], [], []⟩
      [.command creation, .command proposal]).emitted.map Prod.fst).Nodup := by
  constructor
  · change _ ∈ (record (record _ creation) proposal).emitted
    rw [creation_recorded, proposal_recorded]
    exact List.mem_cons_self
  · have along : Run.Along advance Permitted ⟨StateTree.empty, [], [], []⟩
        [.command creation, .command proposal] :=
      ⟨trivial, trivial, trivial⟩
    exact (executed_once (fun rest => StateTree.get_empty _) (by decide) along).2.2.2.2

end Single

end MultisigPrism

end Veilux
