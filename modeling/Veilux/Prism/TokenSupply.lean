/-
Token conservation.  Every accepted operation is described by the state it
leaves; the total of a token's balances is followed through these descriptions.
Transfers read both balances before writing either, so an account that pays
itself keeps the credit and loses the debit.
-/

import Veilux.Lib.Run
import Veilux.Lib.Total
import Veilux.Prism.Token

namespace Veilux

namespace TokenPrism

open PrismM

/-! ### The keys do not collide -/

theorem balKey_injective {id other : Hash} {who whom : PartyId}
    (same : balKey id who = balKey other whom) : id = other ∧ who = whom := by
  have texts := congrArg String.toList same
  simp only [balKey, String.toList_append, List.append_assoc, List.append_cancel_left_eq] at texts
  obtain ⟨ids, names⟩ := List.append_inj texts (by rw [Hash.toHex_length, Hash.toHex_length])
  refine ⟨Hash.toHex_injective (String.toList_inj.mp ids), ?_⟩
  cases who
  cases whom
  rw [List.append_cancel_left_eq] at names
  exact congrArg PartyId.mk (String.toList_inj.mp names)

theorem metaKey_injective {id other : Hash} (same : metaKey id = metaKey other) : id = other := by
  have texts := congrArg String.toList same
  simp only [metaKey, String.toList_append, List.append_cancel_left_eq] at texts
  exact Hash.toHex_injective (String.toList_inj.mp texts)

/-- The seventh character tells the three families of keys apart. -/
theorem balKey_ne_metaKey (id other : Hash) (who : PartyId) : balKey id who ≠ metaKey other := by
  intro same
  have texts := congrArg (fun text => text.toList[6]?) same
  simp [balKey, metaKey, balPrefix, metaPrefix] at texts

theorem balKey_ne_allowKey (id other : Hash) (who owner spender : PartyId) :
    balKey id who ≠ allowKey other owner spender := by
  intro same
  have texts := congrArg (fun text => text.toList[6]?) same
  simp [balKey, allowKey, balPrefix, allowPrefix] at texts

theorem metaKey_ne_allowKey (id other : Hash) (owner spender : PartyId) :
    metaKey id ≠ allowKey other owner spender := by
  intro same
  have texts := congrArg (fun text => text.toList[6]?) same
  simp [metaKey, allowKey, metaPrefix, allowPrefix] at texts

/-! ### Balances and their total -/

def withBalance (state : StateTree) (id : Hash) (who : PartyId) (value : U128) : StateTree :=
  state.putJson (balKey id who) value.toText

theorem get_withBalance_metaKey (state : StateTree) (id other : Hash) (who : PartyId)
    (value : U128) :
    (withBalance state id who value).get (metaKey other) = state.get (metaKey other) :=
  StateTree.get_put_ne state _ (balKey_ne_metaKey id other who)

section Balances

variable [SerdeJson]

noncomputable def total (state : StateTree) (id : Hash) : Nat :=
  Total.total fun who => (balance state id who).val

theorem amountAt_putJson (state : StateTree) (key : String) (value : U128) :
    amountAt (state.putJson key value.toText) key = value := by
  unfold amountAt
  rw [StateTree.getJson?_putJson, Option.bind_some, U128.parse_toText, Option.getD_some]

theorem balance_put_ne (state : StateTree) {key : String} (bytes : List UInt8) {id : Hash}
    {who : PartyId} (different : key ≠ balKey id who) :
    balance (state.put key bytes) id who = balance state id who := by
  unfold balance amountAt
  rw [StateTree.getJson?_put_ne state bytes different]

theorem balance_withBalance_self (state : StateTree) (id : Hash) (who : PartyId) (value : U128) :
    balance (withBalance state id who value) id who = value :=
  amountAt_putJson state (balKey id who) value

theorem balance_withBalance_ne (state : StateTree) {id other : Hash} {who whom : PartyId}
    (value : U128) (different : who ≠ whom ∨ id ≠ other) :
    balance (withBalance state id who value) other whom = balance state other whom := by
  apply balance_put_ne
  intro same
  obtain ⟨sameId, sameWho⟩ := balKey_injective same
  rcases different with differentWho | differentId
  · exact differentWho sameWho
  · exact differentId sameId

/-- Only entries of the tree hold an amount. -/
theorem amounts_finite {A : Type} (state : StateTree) {key : A → String}
    (injective : Function.Injective key) :
    (Function.support fun index => (amountAt state (key index)).val).Finite := by
  have keys : {key : String | key ∈ state.entries.keys}.Finite := List.finite_toSet _
  apply (keys.preimage injective.injOn).subset
  intro index nonzero
  change key index ∈ state.entries.keys
  rw [Std.ExtTreeMap.mem_keys]
  by_contra absent
  apply nonzero
  have missing : state.get (key index) = none := Std.ExtTreeMap.getElem?_eq_none absent
  simp only [amountAt, StateTree.getJson?, StateTree.getJson, missing, Option.bind_none,
    Option.getD_none]
  rfl

theorem balances_finite (state : StateTree) (id : Hash) :
    (Function.support fun who => (balance state id who).val).Finite :=
  amounts_finite state fun _ _ same => (balKey_injective same).2

theorem total_withBalance (state : StateTree) (id : Hash) (who : PartyId) (value : U128) :
    total (withBalance state id who value) id + (balance state id who).val =
      total state id + value.val := by
  have updated : (fun whom => (balance (withBalance state id who value) id whom).val) =
      Function.update (fun whom => (balance state id whom).val) who value.val := by
    funext whom
    by_cases same : whom = who
    · subst same
      rw [Function.update_self, balance_withBalance_self]
    · rw [Function.update_of_ne same]
      rw [balance_withBalance_ne state value (.inl fun equal => same equal.symm)]
  unfold total
  rw [updated]
  exact Total.total_update (balances_finite state id) who value.val

theorem total_withBalance_ne (state : StateTree) {id other : Hash} (who : PartyId) (value : U128)
    (different : id ≠ other) :
    total (withBalance state id who value) other = total state other := by
  unfold total
  congr 1
  funext whom
  rw [balance_withBalance_ne state value (.inr different)]

/-- Entries outside the balances do not enter the total. -/
theorem total_put (state : StateTree) {key : String} (bytes : List UInt8) (id : Hash)
    (outside : ∀ who, key ≠ balKey id who) : total (state.put key bytes) id = total state id := by
  unfold total
  congr 1
  funext who
  rw [balance_put_ne state bytes (outside who)]

@[simp] theorem total_putMeta (state : StateTree) (id other : Hash) (info : TokenMeta) :
    total (state.putJson (metaKey id) info) other = total state other :=
  total_put state _ other fun who same => balKey_ne_metaKey other id who same.symm

@[simp] theorem total_putAllowance (state : StateTree) (id other : Hash)
    (owner spender : PartyId) (text : String) :
    total (state.putJson (allowKey id owner spender) text) other = total state other :=
  total_put state _ other fun who same => balKey_ne_allowKey other id who owner spender same.symm

theorem balance_le_total (state : StateTree) (id : Hash) (who : PartyId) :
    (balance state id who).val ≤ total state id :=
  Total.le_total (balances_finite state id) who

/-! ### Transfers -/

/-- The state after a transfer whose credit was computed from the balances before it. -/
def moved (state : StateTree) (tokenId : Hash) (source target : PartyId) (amount : U128) :
    StateTree :=
  withBalance
    (withBalance state tokenId source (balance state tokenId source - amount))
    tokenId target (balance state tokenId target + amount)

variable {state : StateTree} {tokenId : Hash} {source target : PartyId} {amount : U128}

theorem total_moved_ne {other : Hash} (different : tokenId ≠ other) :
    total (moved state tokenId source target amount) other = total state other := by
  unfold moved
  rw [total_withBalance_ne _ _ _ different, total_withBalance_ne _ _ _ different]

theorem total_moved (enough : amount ≤ balance state tokenId source)
    (fits : (balance state tokenId target).val + amount.val < 2 ^ 128)
    (different : source ≠ target) :
    total (moved state tokenId source target amount) tokenId = total state tokenId := by
  have debited := total_withBalance state tokenId source (balance state tokenId source - amount)
  have credited := total_withBalance
    (withBalance state tokenId source (balance state tokenId source - amount)) tokenId target
    (balance state tokenId target + amount)
  rw [balance_withBalance_ne state _ (.inl different), Fin.val_add, Nat.mod_eq_of_lt fits]
    at credited
  rw [Fin.sub_val_of_le enough] at debited
  have bound : amount.val ≤ (balance state tokenId source).val := enough
  unfold moved
  omega

/-- Paying oneself writes the credit over the debit: the amount appears from nothing. -/
theorem total_moved_self (enough : amount ≤ balance state tokenId source)
    (fits : (balance state tokenId source).val + amount.val < 2 ^ 128) :
    total (moved state tokenId source source amount) tokenId =
      total state tokenId + amount.val := by
  have debited := total_withBalance state tokenId source (balance state tokenId source - amount)
  have credited := total_withBalance
    (withBalance state tokenId source (balance state tokenId source - amount)) tokenId source
    (balance state tokenId source + amount)
  rw [balance_withBalance_self, Fin.val_add, Nat.mod_eq_of_lt fits] at credited
  rw [Fin.sub_val_of_le enough] at debited credited
  have bound : amount.val ≤ (balance state tokenId source).val := enough
  unfold moved
  omega

theorem total_moved_zero (enough : amount ≤ balance state tokenId source)
    (fits : (balance state tokenId target).val + amount.val < 2 ^ 128)
    (self : source = target) (nothing : ¬ 0 < amount) :
    total (moved state tokenId source target amount) tokenId = total state tokenId := by
  subst self
  rw [total_moved_self enough fits]
  have zero : amount.val = 0 := Nat.eq_zero_of_not_pos nothing
  omega

theorem get_moved_metaKey (other : Hash) :
    (moved state tokenId source target amount).get (metaKey other) =
      state.get (metaKey other) := by
  unfold moved
  rw [get_withBalance_metaKey, get_withBalance_metaKey]

end Balances

/-! ### Accepted operations -/

theorem accepts_addOr {text : String} {left right sum : U128} {state after : StateTree} :
    Accepts (addOr text left right) state sum after ↔
      left.checkedAdd right = some sum ∧ state = after := by
  unfold addOr
  cases added : left.checkedAdd right with
  | none => simp only [accepts_throw, reduceCtorEq, false_and]
  | some total => simp only [accepts_pure, Option.some.injEq]

theorem checkedAdd_val {left right sum : U128} (added : left.checkedAdd right = some sum) :
    sum.val = left.val + right.val := by
  unfold U128.checkedAdd at added
  split at added
  · cases added
    rfl
  · cases added

theorem checkedAdd_eq_add {left right sum : U128} (added : left.checkedAdd right = some sum) :
    sum = left + right := by
  apply Fin.ext
  rw [Fin.val_add, ← checkedAdd_val added, Nat.mod_eq_of_lt sum.isLt]

section Accepted

variable [SerdeJson]

theorem accepts_loadMeta {id : Hash} {info : TokenMeta} {state after : StateTree} :
    Accepts (loadMeta id) state info after ↔
      state.getJson TokenMeta (metaKey id) = .ok (some info) ∧ state = after := by
  unfold loadMeta
  simp only [accepts_bind, accepts_get]
  constructor
  · rintro ⟨_, _, ⟨rfl, rfl⟩, accepted⟩
    cases read : state.getJson TokenMeta (metaKey id) with
    | error error => simp only [read, accepts_throw] at accepted
    | ok found =>
        cases found with
        | none => simp only [read, accepts_throw] at accepted
        | some stored =>
            simp only [read, accepts_pure] at accepted
            rw [accepted.1]
            exact ⟨rfl, accepted.2⟩
  · rintro ⟨read, rfl⟩
    refine ⟨state, state, ⟨rfl, rfl⟩, ?_⟩
    simp only [read, accepts_pure, and_self]

variable [Blake3] {command : Command} {tokenId : Hash} {source target : PartyId} {amount : U128}
  {state after : StateTree} {output : PrismOutput}

omit [SerdeJson] in
theorem accepts_create {name symbol : String} {decimals : UInt8} {initialSupply : U128}
    {mintable : Bool}
    (accepted : Accepts (create command name symbol decimals initialSupply mintable)
      state output after) :
    ∃ info : TokenMeta, info.totalSupply = initialSupply ∧
      state.get (metaKey (createdId command.submitter symbol name)) = none ∧
      after = withBalance
        (state.putJson (metaKey (createdId command.submitter symbol name)) info)
        (createdId command.submitter symbol name) command.submitter initialSupply := by
  simp only [create, setMeta, setBalance, accepts_bind, accepts_get, accepts_ite, accepts_throw,
    accepts_modify, accepts_pure] at accepted
  obtain ⟨_, _, ⟨rfl, rfl⟩, ⟨_, _, _, impossible, _⟩ | ⟨absent, _, _, rfl, _, _, rfl, _, rfl⟩⟩ :=
    accepted
  · cases impossible
  · refine ⟨_, rfl, ?_, rfl⟩
    rw [StateTree.contains_eq_isSome, Bool.not_eq_true, Option.isSome_eq_false_iff,
      Option.isNone_iff_eq_none] at absent
    exact absent

theorem accepts_transfer
    (accepted : Accepts (transfer command tokenId target amount) state output after) :
    (∃ info, state.getJson TokenMeta (metaKey tokenId) = .ok (some info)) ∧
      amount ≤ balance state tokenId command.submitter ∧
      (balance state tokenId target).val + amount.val < 2 ^ 128 ∧
      after = moved state tokenId command.submitter target amount := by
  simp only [transfer, setBalance, accepts_bind, accepts_get, accepts_ite, accepts_throw,
    accepts_modify, accepts_pure, accepts_loadMeta, accepts_addOr] at accepted
  obtain ⟨info, _, ⟨found, rfl⟩, _, _, ⟨rfl, rfl⟩, ⟨_, _, _, impossible, _⟩ |
    ⟨enough, _, _, ⟨rfl, rfl⟩, _, _, rfl, credited, _, ⟨added, rfl⟩, _, _, rfl, _, rfl⟩⟩ := accepted
  · cases impossible
  · refine ⟨⟨info, found⟩, not_lt.mp enough, ?_, ?_⟩
    · rw [← checkedAdd_val added]
      exact credited.isLt
    · rw [checkedAdd_eq_add added]
      rfl

theorem accepts_approve {spender : PartyId}
    (accepted : Accepts (approve command tokenId spender amount) state output after) :
    after = state.putJson (allowKey tokenId command.submitter spender) amount.toText := by
  simp only [approve, setAllowance, accepts_bind, accepts_modify, accepts_pure,
    accepts_loadMeta] at accepted
  obtain ⟨_, _, ⟨_, rfl⟩, _, _, rfl, _, rfl⟩ := accepted
  rfl

theorem accepts_transferFrom
    (accepted : Accepts (transferFrom command tokenId source target amount) state output after) :
    (∃ info, state.getJson TokenMeta (metaKey tokenId) = .ok (some info)) ∧
      amount ≤ balance state tokenId source ∧
      (balance state tokenId target).val + amount.val < 2 ^ 128 ∧
      amount ≤ allowance state tokenId source command.submitter ∧
      after = (moved state tokenId source target amount).putJson
        (allowKey tokenId source command.submitter)
        (allowance state tokenId source command.submitter - amount).toText := by
  simp only [transferFrom, setBalance, setAllowance, accepts_bind, accepts_get, accepts_ite,
    accepts_throw, accepts_modify, accepts_pure, accepts_loadMeta, accepts_addOr] at accepted
  obtain ⟨info, _, ⟨found, rfl⟩, _, _, ⟨rfl, rfl⟩, ⟨_, _, _, impossible, _⟩ |
    ⟨permitted, _, _, ⟨rfl, rfl⟩, ⟨_, _, _, impossible, _⟩ |
      ⟨enough, _, _, ⟨rfl, rfl⟩, _, _, rfl, credited, _, ⟨added, rfl⟩, _, _, rfl, _, _, rfl, _,
        rfl⟩⟩⟩ := accepted
  · cases impossible
  · cases impossible
  · refine ⟨⟨info, found⟩, not_lt.mp enough, ?_, not_lt.mp permitted, ?_⟩
    · rw [← checkedAdd_val added]
      exact credited.isLt
    · rw [checkedAdd_eq_add added]
      rfl

theorem accepts_mint
    (accepted : Accepts (mint command tokenId target amount) state output after) :
    ∃ (info : TokenMeta) (credited supply : U128),
      state.getJson TokenMeta (metaKey tokenId) = .ok (some info) ∧
      credited.val = (balance state tokenId target).val + amount.val ∧
      supply.val = info.totalSupply.val + amount.val ∧
      after = (withBalance state tokenId target credited).putJson (metaKey tokenId)
        { info with totalSupply := supply } := by
  simp only [mint, setBalance, setMeta, accepts_bind, accepts_get, accepts_ite,
    accepts_throw, accepts_modify, accepts_pure, accepts_loadMeta, accepts_addOr] at accepted
  obtain ⟨info, _, ⟨found, rfl⟩, ⟨_, _, _, impossible, _⟩ | ⟨_, ⟨_, _, _, impossible, _⟩ |
    ⟨_, _, _, ⟨rfl, rfl⟩, credited, _, ⟨added, rfl⟩, _, _, rfl, supply, _, ⟨raised, rfl⟩, _, _, rfl,
      _, rfl⟩⟩⟩ := accepted
  · cases impossible
  · cases impossible
  · exact ⟨info, credited, supply, found, checkedAdd_val added, checkedAdd_val raised, rfl⟩

theorem accepts_burn (accepted : Accepts (burn command tokenId amount) state output after) :
    ∃ info : TokenMeta, state.getJson TokenMeta (metaKey tokenId) = .ok (some info) ∧
      amount ≤ balance state tokenId command.submitter ∧
      after = (withBalance state tokenId command.submitter
        (balance state tokenId command.submitter - amount)).putJson (metaKey tokenId)
          { info with totalSupply := info.totalSupply.saturatingSub amount } := by
  simp only [burn, setBalance, setMeta, accepts_bind, accepts_get, accepts_ite,
    accepts_throw, accepts_modify, accepts_pure, accepts_loadMeta] at accepted
  obtain ⟨info, _, ⟨found, rfl⟩, _, _, ⟨rfl, rfl⟩, ⟨_, _, _, impossible, _⟩ |
    ⟨enough, _, _, rfl, _, _, rfl, _, rfl⟩⟩ := accepted
  · cases impossible
  · exact ⟨info, found, not_lt.mp enough, rfl⟩

end Accepted

/-! ### Runs -/

section Runs

variable [SerdeJson] [Blake3]

def Accepted (state : StateTree) (command : Command) : Prop :=
  ∃ output after, Accepts (handle command) state output after

/-- The state after a command; a rejected one leaves no trace. -/
def step (state : StateTree) (command : Command) : StateTree :=
  match (handle command).run.run state with
  | (.ok _, after) => after
  | (.error _, _) => state

/-- A positive amount moved from an account to itself. -/
def SelfMove (command : Command) : Prop :=
  match fromSlice TokenCommand command.payload with
  | .ok (.transfer _ target amount) => command.submitter = target ∧ 0 < amount
  | .ok (.transferFrom _ source target amount) => source = target ∧ 0 < amount
  | _ => False

/-- The operations that issue or withdraw units of a token. -/
def Issues (command : Command) : Prop :=
  match fromSlice TokenCommand command.payload with
  | .ok (.create ..) | .ok (.mint ..) | .ok (.burn ..) => True
  | _ => False

def NoTokens (state : StateTree) : Prop :=
  ∀ id, state.get (metaKey id) = none ∧ ∀ who, state.get (balKey id who) = none

def Conserved (state : StateTree) : Prop :=
  ∀ id info, tokenMeta? state id = some info → total state id = info.totalSupply.val

/-- Behind conservation: a token without a record has no balances either. -/
def Ledger (state : StateTree) : Prop :=
  ∀ id, (state.get (metaKey id) = none ∧ total state id = 0) ∨
    ∃ info : TokenMeta, state.get (metaKey id) = some (toVec info) ∧
      total state id = info.totalSupply.val

variable {state after : StateTree} {command : Command} {output : PrismOutput}

omit [Blake3] in
theorem NoTokens.ledger (none : NoTokens state) : Ledger state := by
  intro id
  refine .inl ⟨(none id).1, ?_⟩
  have zero : (fun who => (balance state id who).val) = fun _ => 0 := by
    funext who
    simp only [balance, amountAt, StateTree.getJson?, StateTree.getJson, (none id).2 who,
      Option.bind_none, Option.getD_none]
    rfl
  unfold total
  rw [zero]
  exact Total.total_zero

omit [Blake3] in
theorem Ledger.read (ledger : Ledger state) {id : Hash} {info : TokenMeta}
    (found : state.getJson TokenMeta (metaKey id) = .ok (some info)) :
    state.get (metaKey id) = some (toVec info) ∧ total state id = info.totalSupply.val := by
  rcases ledger id with ⟨absent, _⟩ | ⟨stored, present, sum⟩
  · simp only [StateTree.getJson, absent] at found
    cases found
  · simp only [StateTree.getJson, present, fromSlice_toVec] at found
    cases found
    exact ⟨present, sum⟩

omit [Blake3] in
theorem Ledger.conserved (ledger : Ledger state) : Conserved state := by
  intro id info found
  unfold tokenMeta? StateTree.getJson? at found
  cases read : state.getJson TokenMeta (metaKey id) with
  | error error =>
      rw [read] at found
      cases found
  | ok value =>
      rw [read] at found
      cases found
      exact (ledger.read read).2

omit [Blake3] in
/-- Totals and records unchanged, so the ledger is. -/
theorem Ledger.congr (ledger : Ledger state)
    (records : ∀ id, after.get (metaKey id) = state.get (metaKey id))
    (totals : ∀ id, total after id = total state id) : Ledger after := by
  intro id
  rw [records id, totals id]
  exact ledger id

omit [Blake3] in
/-- One token rewritten together with its record, the others unchanged. -/
theorem Ledger.update (ledger : Ledger state) (tokenId : Hash) (info : TokenMeta)
    (stored : after.get (metaKey tokenId) = some (toVec info))
    (sum : total after tokenId = info.totalSupply.val)
    (records : ∀ id, id ≠ tokenId → after.get (metaKey id) = state.get (metaKey id))
    (totals : ∀ id, id ≠ tokenId → total after id = total state id) : Ledger after := by
  intro id
  by_cases same : id = tokenId
  · subst same
    exact .inr ⟨info, stored, sum⟩
  · rw [records id same, totals id same]
    exact ledger id

omit [SerdeJson] [Blake3] in
private theorem get_putMeta_ne (tokenId : Hash) (info : TokenMeta) {id : Hash}
    (different : id ≠ tokenId) :
    (state.putJson (metaKey tokenId) info).get (metaKey id) = state.get (metaKey id) :=
  StateTree.get_put_ne state _ fun same => different (metaKey_injective same).symm

theorem Ledger.create {name symbol : String} {decimals : UInt8} {initialSupply : U128}
    {mintable : Bool} (ledger : Ledger state)
    (accepted : Accepts (TokenPrism.create command name symbol decimals initialSupply mintable)
      state output after) : Ledger after := by
  obtain ⟨info, supply, absent, rfl⟩ := accepts_create accepted
  generalize createdId command.submitter symbol name = tokenId at absent
  have empty : total state tokenId = 0 := by
    rcases ledger tokenId with ⟨_, zero⟩ | ⟨stored, present, _⟩
    · exact zero
    · rw [absent] at present
      cases present
  have bound := balance_le_total state tokenId command.submitter
  have sum := total_withBalance (state.putJson (metaKey tokenId) info) tokenId command.submitter
    initialSupply
  have unread : balance (state.putJson (metaKey tokenId) info) tokenId command.submitter =
      balance state tokenId command.submitter :=
    balance_put_ne state _ fun same => balKey_ne_metaKey _ _ _ same.symm
  rw [total_putMeta, unread] at sum
  refine ledger.update tokenId info ?_ ?_ ?_ ?_
  · rw [get_withBalance_metaKey]
    exact StateTree.get_put_self state _ _
  · rw [supply]
    omega
  · intro id different
    rw [get_withBalance_metaKey, get_putMeta_ne tokenId info different]
  · intro id different
    rw [total_withBalance_ne _ _ _ (Ne.symm different), total_putMeta]

theorem Ledger.mint {tokenId : Hash} {target : PartyId} {amount : U128} (ledger : Ledger state)
    (accepted : Accepts (TokenPrism.mint command tokenId target amount) state output after) :
    Ledger after := by
  obtain ⟨info, credited, supply, found, creditedVal, supplyVal, rfl⟩ := accepts_mint accepted
  have before := (ledger.read found).2
  have sum := total_withBalance state tokenId target credited
  refine ledger.update tokenId { info with totalSupply := supply } ?_ ?_ ?_ ?_
  · exact StateTree.get_put_self _ _ _
  · rw [total_putMeta, supplyVal]
    omega
  · intro id different
    rw [get_putMeta_ne tokenId _ different, get_withBalance_metaKey]
  · intro id different
    rw [total_putMeta, total_withBalance_ne _ _ _ (Ne.symm different)]

theorem Ledger.burn {tokenId : Hash} {amount : U128} (ledger : Ledger state)
    (accepted : Accepts (TokenPrism.burn command tokenId amount) state output after) :
    Ledger after := by
  obtain ⟨info, found, enough, rfl⟩ := accepts_burn accepted
  have before := (ledger.read found).2
  have sum := total_withBalance state tokenId command.submitter
    (balance state tokenId command.submitter - amount)
  rw [Fin.sub_val_of_le enough] at sum
  have bound : amount.val ≤ (balance state tokenId command.submitter).val := enough
  have inside := balance_le_total state tokenId command.submitter
  refine ledger.update tokenId
    { info with totalSupply := info.totalSupply.saturatingSub amount } ?_ ?_ ?_ ?_
  · exact StateTree.get_put_self _ _ _
  · rw [total_putMeta]
    change _ = info.totalSupply.val - amount.val
    omega
  · intro id different
    rw [get_putMeta_ne tokenId _ different, get_withBalance_metaKey]
  · intro id different
    rw [total_putMeta, total_withBalance_ne _ _ _ (Ne.symm different)]

/-- The operations that only move units keep every total, unless an account pays itself. -/
theorem totals_kept {operation : TokenCommand}
    (parsed : fromSlice TokenCommand command.payload = .ok operation)
    (accepted : Accepts (execute command operation) state output after)
    (moves : ¬ Issues command) (proper : ¬ SelfMove command) :
    (∀ id, after.get (metaKey id) = state.get (metaKey id)) ∧
      ∀ id, total after id = total state id := by
  unfold Issues at moves
  unfold SelfMove at proper
  rw [parsed] at moves proper
  cases operation with
  | create name symbol decimals initialSupply mintable => exact absurd trivial moves
  | mint tokenId target amount => exact absurd trivial moves
  | burn tokenId amount => exact absurd trivial moves
  | approve tokenId spender amount =>
      rw [accepts_approve accepted]
      constructor
      · intro id
        exact StateTree.get_put_ne state _ fun same => metaKey_ne_allowKey _ _ _ _ same.symm
      · intro id
        exact total_putAllowance state tokenId id command.submitter spender _
  | transfer tokenId target amount =>
      obtain ⟨_, enough, fits, rfl⟩ := accepts_transfer accepted
      refine ⟨get_moved_metaKey, fun id => ?_⟩
      by_cases same : tokenId = id
      · subst same
        by_cases self : command.submitter = target
        · exact total_moved_zero enough fits self fun positive => proper ⟨self, positive⟩
        · exact total_moved enough fits self
      · exact total_moved_ne same
  | transferFrom tokenId source target amount =>
      obtain ⟨_, enough, fits, _, rfl⟩ := accepts_transferFrom accepted
      constructor
      · intro id
        refine Eq.trans (StateTree.get_put_ne _ _ ?_) (get_moved_metaKey id)
        exact fun same => metaKey_ne_allowKey _ _ _ _ same.symm
      · intro id
        rw [total_putAllowance]
        by_cases same : tokenId = id
        · subst same
          by_cases self : source = target
          · exact total_moved_zero enough fits self fun positive => proper ⟨self, positive⟩
          · exact total_moved enough fits self
        · exact total_moved_ne same

theorem accepts_handle (accepted : Accepts (handle command) state output after) :
    ∃ operation, fromSlice TokenCommand command.payload = .ok operation ∧
      Accepts (execute command operation) state output after := by
  unfold handle at accepted
  cases parsed : fromSlice TokenCommand command.payload with
  | error text =>
      rw [parsed] at accepted
      exact absurd accepted accepts_throw
  | ok operation =>
      rw [parsed] at accepted
      exact ⟨operation, rfl, accepted⟩

theorem step_of_accepts (accepted : Accepts (handle command) state output after) :
    step state command = after := by
  unfold step
  rw [accepted]

/-- One accepted command keeps the ledger unless it pays its own account. -/
theorem Ledger.step (ledger : Ledger state) (accepted : Accepted state command)
    (proper : ¬ SelfMove command) : Ledger (TokenPrism.step state command) := by
  obtain ⟨output, after, accepted⟩ := accepted
  rw [step_of_accepts accepted]
  obtain ⟨operation, parsed, executed⟩ := accepts_handle accepted
  by_cases moves : Issues command
  · unfold Issues at moves
    rw [parsed] at moves
    cases operation with
    | create name symbol decimals initialSupply mintable => exact ledger.create executed
    | mint tokenId target amount => exact ledger.mint executed
    | burn tokenId amount => exact ledger.burn executed
    | approve tokenId spender amount => cases moves
    | transfer tokenId target amount => cases moves
    | transferFrom tokenId source target amount => cases moves
  · obtain ⟨records, totals⟩ := totals_kept parsed executed moves proper
    exact ledger.congr records totals

theorem step_total (accepted : Accepted state command) (proper : ¬ SelfMove command)
    (moves : ¬ Issues command) (id : Hash) :
    total (TokenPrism.step state command) id = total state id := by
  obtain ⟨output, after, accepted⟩ := accepted
  rw [step_of_accepts accepted]
  obtain ⟨operation, parsed, executed⟩ := accepts_handle accepted
  exact (totals_kept parsed executed moves proper).2 id

/-- The amount an account pays itself is added to the total and to no record. -/
theorem selfMove_breaks (ledger : Ledger state) (accepted : Accepted state command)
    (self : SelfMove command) : ¬ Conserved (TokenPrism.step state command) := by
  obtain ⟨output, after, accepted⟩ := accepted
  rw [step_of_accepts accepted]
  obtain ⟨operation, parsed, executed⟩ := accepts_handle accepted
  -- Both transfers leave the same records and totals behind.
  have raised : ∃ tokenId info, ∃ amount : U128, 0 < amount.val ∧
      state.getJson TokenMeta (metaKey tokenId) = .ok (some info) ∧
      after.get (metaKey tokenId) = state.get (metaKey tokenId) ∧
      total after tokenId = total state tokenId + amount.val := by
    unfold SelfMove at self
    rw [parsed] at self
    cases operation with
    | create name symbol decimals initialSupply mintable => cases self
    | mint tokenId target amount => cases self
    | burn tokenId amount => cases self
    | approve tokenId spender amount => cases self
    | transfer tokenId target amount =>
        obtain ⟨⟨info, found⟩, enough, fits, rfl⟩ := accepts_transfer executed
        obtain ⟨rfl, positive⟩ := self
        exact ⟨tokenId, info, amount, positive, found, get_moved_metaKey tokenId,
          total_moved_self enough fits⟩
    | transferFrom tokenId source target amount =>
        obtain ⟨⟨info, found⟩, enough, fits, _, rfl⟩ := accepts_transferFrom executed
        obtain ⟨rfl, positive⟩ := self
        refine ⟨tokenId, info, amount, positive, found, ?_, ?_⟩
        · refine Eq.trans (StateTree.get_put_ne _ _ ?_) (get_moved_metaKey tokenId)
          exact fun same => metaKey_ne_allowKey _ _ _ _ same.symm
        · rw [total_putAllowance]
          exact total_moved_self enough fits
  obtain ⟨tokenId, info, amount, positive, found, record, sum⟩ := raised
  obtain ⟨stored, before⟩ := ledger.read found
  intro conserved
  have read : tokenMeta? after tokenId = some info := by
    unfold tokenMeta? StateTree.getJson? StateTree.getJson
    rw [record, stored]
    simp only [fromSlice_toVec]
  have supply := conserved tokenId info read
  omega

theorem ledger_run {start : StateTree} {commands : List Command} (none : NoTokens start)
    (accepted : Run.Along TokenPrism.step Accepted start commands)
    (proper : ∀ command ∈ commands, ¬ SelfMove command) :
    Ledger (Run.run TokenPrism.step start commands) := by
  induction commands using List.reverseRecOn with
  | nil => exact none.ledger
  | append_singleton commands command ih =>
      obtain ⟨front, last⟩ := (Run.along_append TokenPrism.step).mp accepted
      rw [Run.run_snoc]
      apply (ih front fun other member => proper other (List.mem_append_left _ member)).step last.1
      exact proper command (List.mem_append_right _ (List.mem_singleton_self command))

/-- Over a run of accepted commands from a state without tokens, the balances of
every token sum to its supply after every command, and only creation, minting and
burning change the sum, exactly when no account moves a positive amount to itself. -/
theorem supply_conserved_iff (start : StateTree) (commands : List Command)
    (none : NoTokens start) (accepted : Run.Along TokenPrism.step Accepted start commands) :
    ((∀ front back, commands = front ++ back →
        Conserved (Run.run TokenPrism.step start front)) ∧
      (∀ front command back, commands = front ++ command :: back → ∀ id,
        total (TokenPrism.step (Run.run TokenPrism.step start front) command) id ≠
          total (Run.run TokenPrism.step start front) id → Issues command)) ↔
    ∀ command ∈ commands, ¬ SelfMove command := by
  constructor
  · rintro ⟨conserved, _⟩ command member self
    -- The first such command is accepted from a ledger that still adds up.
    obtain ⟨front, first, back, split, firstSelf, clean⟩ := Run.exists_first member self
    rw [split, Run.along_append] at accepted
    have ledger := ledger_run none accepted.1 clean
    apply selfMove_breaks ledger accepted.2.1 firstSelf
    rw [← Run.run_snoc TokenPrism.step]
    apply conserved (front ++ [first]) back
    rw [split, List.append_assoc, List.singleton_append]
  · intro proper
    constructor
    · intro front back split
      rw [split, Run.along_append] at accepted
      apply (ledger_run none accepted.1 _).conserved
      intro command member
      apply proper
      rw [split]
      exact List.mem_append_left _ member
    · intro front command back split id changed
      rw [split, Run.along_append] at accepted
      by_contra moves
      apply changed
      apply step_total accepted.2.1 _ moves
      apply proper
      rw [split]
      exact List.mem_append_right _ List.mem_cons_self

/-! ### A fresh token -/

theorem accepted_of_execute {operation : TokenCommand} (payload : command.payload = toVec operation)
    (executed : ∃ output after, Accepts (execute command operation) state output after) :
    Accepted state command := by
  unfold Accepted handle
  rw [payload, fromSlice_toVec]
  exact executed

omit [SerdeJson] in
theorem create_accepted {name symbol : String} {decimals : UInt8} {initialSupply : U128}
    {mintable : Bool}
    (absent : state.get (metaKey (createdId command.submitter symbol name)) = none) :
    ∃ output info, Accepts (create command name symbol decimals initialSupply mintable) state output
      (withBalance (state.putJson (metaKey (createdId command.submitter symbol name))
        (info : TokenMeta)) (createdId command.submitter symbol name) command.submitter
        initialSupply) := by
  have missing : ¬ state.contains (metaKey (createdId command.submitter symbol name)) = true := by
    rw [StateTree.contains_eq_isSome, absent]
    exact Bool.false_ne_true
  simp only [create, setMeta, setBalance, accepts_bind, accepts_get, accepts_ite, accepts_throw,
    accepts_modify, accepts_pure]
  exact ⟨_, _, state, state, ⟨rfl, rfl⟩, .inr ⟨missing, (), _, rfl, (), _, rfl, rfl, rfl⟩⟩

theorem transfer_accepted {tokenId : Hash} {target : PartyId} {amount : U128} {info : TokenMeta}
    (found : state.getJson TokenMeta (metaKey tokenId) = .ok (some info))
    (enough : amount ≤ balance state tokenId command.submitter)
    (fits : (balance state tokenId target).val + amount.val < 2 ^ 128) :
    ∃ output after, Accepts (transfer command tokenId target amount) state output after := by
  have added : (balance state tokenId target).checkedAdd amount =
      some ⟨(balance state tokenId target).val + amount.val, fits⟩ := by
    unfold U128.checkedAdd
    rw [dif_pos fits]
  simp only [transfer, setBalance, accepts_bind, accepts_get, accepts_ite, accepts_throw,
    accepts_modify, accepts_pure, accepts_loadMeta, accepts_addOr]
  exact ⟨_, _, info, state, ⟨found, rfl⟩, state, state, ⟨rfl, rfl⟩, .inr ⟨not_lt.mpr enough, state,
    state, ⟨rfl, rfl⟩, (), _, rfl, _, _, ⟨added, rfl⟩, (), _, rfl, rfl, rfl⟩⟩

end Runs

section Gold

attribute [local instance] SerdeJson.compact Blake3.polynomial

def tokenCommand (submitter : String) (nonce : UInt64) (operation : TokenCommand) : Command :=
  { prism := "token"
    submitter := ⟨submitter⟩
    visibility := .pub
    payload := toVec operation
    nonce := nonce }

def goldId : Hash := createdId ⟨"alice"⟩ "GLD" "Gold"

/-- Alice creates a thousand units and transfers 250 of them. -/
def goldRun (target : String) : List Command :=
  [tokenCommand "alice" 0 (.create "Gold" "GLD" 18 1000 true),
    tokenCommand "alice" 1 (.transfer goldId ⟨target⟩ 250)]

theorem noTokens_empty : NoTokens StateTree.empty :=
  fun _ => ⟨StateTree.get_empty _, fun _ => StateTree.get_empty _⟩

theorem goldRun_accepted (target : String) :
    Run.Along step Accepted StateTree.empty (goldRun target) := by
  have absent : StateTree.empty.get (metaKey goldId) = none := StateTree.get_empty _
  obtain ⟨output, info, created⟩ : ∃ output info, Accepts
      (create (tokenCommand "alice" 0 (.create "Gold" "GLD" 18 1000 true)) "Gold" "GLD" 18 1000
        true) StateTree.empty output
      (withBalance (StateTree.empty.putJson (metaKey goldId) (info : TokenMeta)) goldId ⟨"alice"⟩
        1000) := create_accepted absent
  have first : Accepts (handle (tokenCommand "alice" 0 (.create "Gold" "GLD" 18 1000 true)))
      StateTree.empty output
      (withBalance (StateTree.empty.putJson (metaKey goldId) info) goldId ⟨"alice"⟩ 1000) := by
    unfold handle tokenCommand
    rw [fromSlice_toVec]
    exact created
  refine ⟨⟨_, _, first⟩, ?_, trivial⟩
  rw [step_of_accepts first]
  apply accepted_of_execute rfl
  change ∃ output after, Accepts (transfer (tokenCommand "alice" 1 _) goldId ⟨target⟩ 250) _ output
    after
  have recorded : (withBalance (StateTree.empty.putJson (metaKey goldId) info) goldId ⟨"alice"⟩
      1000).getJson TokenMeta (metaKey goldId) = .ok (some info) := by
    unfold withBalance StateTree.putJson
    rw [StateTree.getJson_put_ne _ _ (balKey_ne_metaKey goldId goldId ⟨"alice"⟩)]
    exact StateTree.getJson_putJson StateTree.empty (metaKey goldId) info
  apply transfer_accepted recorded
  · change _ ≤ balance _ goldId ⟨"alice"⟩
    rw [balance_withBalance_self]
    decide
  · by_cases self : target = "alice"
    · rw [self, balance_withBalance_self]
      decide
    · have different : PartyId.mk "alice" ≠ PartyId.mk target :=
        fun same => self (PartyId.mk.inj same).symm
      have empty : balance StateTree.empty goldId ⟨target⟩ = 0 := by
        simp only [balance, amountAt, StateTree.getJson?, StateTree.getJson, StateTree.get_empty,
          Option.bind_none, Option.getD_none]
      rw [balance_withBalance_ne _ _ (.inl different), StateTree.putJson,
        balance_put_ne _ _ fun same => balKey_ne_metaKey _ _ _ same.symm, empty]
      decide

/-- A transfer to somebody else conserves the supply. -/
theorem supply_conserved_gold :
    (∀ command ∈ goldRun "bob", ¬ SelfMove command) ∧
    ((∀ front back, goldRun "bob" = front ++ back →
        Conserved (Run.run step StateTree.empty front)) ∧
      (∀ front command back, goldRun "bob" = front ++ command :: back → ∀ id,
        total (step (Run.run step StateTree.empty front) command) id ≠
          total (Run.run step StateTree.empty front) id → Issues command)) := by
  have proper : ∀ command ∈ goldRun "bob", ¬ SelfMove command := by
    intro command member
    rcases List.mem_pair.mp member with rfl | rfl
    · simp only [SelfMove, tokenCommand, fromSlice_toVec, not_false_eq_true]
    · simp only [SelfMove, tokenCommand, fromSlice_toVec]
      decide
  exact ⟨proper, (supply_conserved_iff StateTree.empty (goldRun "bob") noTokens_empty
    (goldRun_accepted "bob")).mpr proper⟩

/-- Alice pays herself 250 of her thousand units and then holds 1250 of them. -/
theorem supply_not_conserved_gold :
    NoTokens StateTree.empty ∧ Run.Along step Accepted StateTree.empty (goldRun "alice") ∧
    ¬ Conserved (Run.run step StateTree.empty (goldRun "alice")) := by
  refine ⟨noTokens_empty, goldRun_accepted "alice", ?_⟩
  have accepted := goldRun_accepted "alice"
  have ledger : Ledger (step StateTree.empty _) :=
    noTokens_empty.ledger.step accepted.1 (by
      simp only [SelfMove, tokenCommand, fromSlice_toVec, not_false_eq_true])
  apply selfMove_breaks ledger accepted.2.1
  simp only [SelfMove, tokenCommand, fromSlice_toVec]
  decide

end Gold

end TokenPrism

end Veilux
