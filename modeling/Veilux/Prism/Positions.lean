/-
Whole-ledger supply.  Token, exchange and vesting commands run through one cascade; the
units of a token sit in accounts, in the reserves of pools and in schedules not yet paid
out.  The helper `credit` raises the recorded supply for units that `debit` had taken out
without lowering it, so the books balance exactly until a position pays out.
-/

import Veilux.Prism.Vesting

namespace Veilux

open PrismM
open TokenPrism (balance total supply excess debited withBalance)

/-! ### Families of entries -/

namespace StateTree

variable [SerdeJson] {α : Type} [Serialize α]

/-- What the entries of a family are worth together; unreadable entries count for nothing. -/
noncomputable def worth (key : Hash → String) (value : α → Nat) (state : StateTree) : Nat :=
  Total.total fun id => ((state.getJson? α (key id)).map value).getD 0

variable {key : Hash → String} {value : α → Nat}

theorem worth_finite (injective : Function.Injective key) (state : StateTree) :
    (Function.support fun id => ((state.getJson? α (key id)).map value).getD 0).Finite := by
  have keys : {name : String | name ∈ state.entries.keys}.Finite := List.finite_toSet _
  apply (keys.preimage injective.injOn).subset
  intro id nonzero
  change key id ∈ state.entries.keys
  rw [Std.ExtTreeMap.mem_keys]
  by_contra absent
  apply nonzero
  have missing : state.get (key id) = none := Std.ExtTreeMap.getElem?_eq_none absent
  simp only [getJson?, getJson, missing, Option.map_none, Option.getD_none]

/-- Rewriting one entry replaces its share. -/
theorem worth_putJson (injective : Function.Injective key) (state : StateTree) (id : Hash)
    (entry : α) :
    worth key value (state.putJson (key id) entry) +
        ((state.getJson? α (key id)).map value).getD 0 =
      worth key value state + value entry := by
  have updated : (fun other => (((state.putJson (key id) entry).getJson? α (key other)).map
      value).getD 0) =
      Function.update (fun other => ((state.getJson? α (key other)).map value).getD 0) id
        (value entry) := by
    funext other
    by_cases same : other = id
    · subst same
      rw [Function.update_self, getJson?_putJson]
      rfl
    · rw [Function.update_of_ne same]
      unfold putJson
      rw [getJson?_put_ne state _ fun equal => same (injective equal).symm]
  unfold worth
  rw [updated]
  exact Total.total_update (worth_finite injective state) id (value entry)

theorem worth_congr {state after : StateTree}
    (same : ∀ id, after.get (key id) = state.get (key id)) :
    worth key value after = worth key value state := by
  unfold worth
  congr 1
  funext id
  simp only [getJson?, getJson, same id]

theorem worth_empty {state : StateTree} (none : ∀ id, state.get (key id) = none) :
    worth key value state = 0 := by
  have zero : (fun id => ((state.getJson? α (key id)).map value).getD 0) = fun _ => 0 := by
    funext id
    simp only [getJson?, getJson, none id, Option.map_none, Option.getD_none]
  unfold worth
  rw [zero]
  exact Total.total_zero

theorem getJson?_of_read {state : StateTree} {name : String} {entry : α}
    (read : state.getJson α name = .ok (some entry)) : state.getJson? α name = some entry := by
  unfold getJson?
  rw [read]

theorem getJson?_of_get {left right : StateTree} {name : String}
    (same : left.get name = right.get name) : left.getJson? α name = right.getJson? α name := by
  unfold getJson? getJson
  rw [same]

end StateTree

/-! ### Pools -/

namespace DexPrism

/-- What a pool holds of a token. -/
def reserve (token : Hash) (pool : Pool) : Nat :=
  (if pool.tokenA = token then pool.reserveA.val else 0) +
    if pool.tokenB = token then pool.reserveB.val else 0

theorem key_injective : Function.Injective key := by
  intro left right same
  have texts := congrArg String.toList same
  simp only [key, String.toList_append, List.append_cancel_left_eq] at texts
  exact Hash.toHex_injective (String.toList_inj.mp texts)

variable [SerdeJson] {state after : StateTree}

noncomputable def reserves (state : StateTree) (token : Hash) : Nat :=
  state.worth key (reserve token)

/-- Pools are stored under their own name. -/
def Keyed (state : StateTree) : Prop :=
  ∀ id pool, state.getJson? Pool (key id) = some pool → pool.id = id

theorem Keyed.congr (keyed : Keyed state) (same : ∀ id, after.get (key id) = state.get (key id)) :
    Keyed after := by
  intro id pool stored
  apply keyed id pool
  simpa only [StateTree.getJson?, StateTree.getJson, same id] using stored

theorem Keyed.save (keyed : Keyed state) (pool : Pool) :
    Keyed (state.putJson (key pool.id) pool) := by
  intro id other stored
  by_cases same : pool.id = id
  · rw [← same, StateTree.getJson?_putJson] at stored
    rw [← Option.some.inj stored]
    exact same
  · apply keyed id other
    unfold StateTree.putJson at stored
    rwa [StateTree.getJson?_put_ne state _ fun equal => same (key_injective equal)] at stored

theorem accepts_load {id : Hash} {pool : Pool} :
    Accepts (load id) state pool after ↔
      state.getJson Pool (key id) = .ok (some pool) ∧ state = after := by
  unfold load
  simp only [accepts_bind, accepts_get]
  constructor
  · rintro ⟨_, _, ⟨rfl, rfl⟩, accepted⟩
    cases read : state.getJson Pool (key id) with
    | error error => simp only [read, accepts_throw] at accepted
    | ok found =>
        cases found with
        | none => simp only [read, accepts_throw] at accepted
        | some stored =>
            simp only [read, accepts_pure] at accepted
            rw [accepted.1]
            exact ⟨rfl, accepted.2⟩
  · rintro ⟨read, rfl⟩
    refine ⟨state, state, ⟨rfl, rfl⟩, ?_⟩
    simp only [read, accepts_pure, and_self]

omit [SerdeJson] in
theorem accepts_minted {pool : Pool} {amountA amountB shares : U128}
    (accepted : Accepts (minted pool amountA amountB) state shares after) : state = after := by
  unfold minted at accepted
  rw [accepts_ite] at accepted
  rcases accepted with ⟨_, first⟩ | ⟨_, later⟩
  · cases root : isqrt (amountA.saturatingMul amountB) with
    | none => simp only [root, accepts_throw] at first
    | some value =>
        simp only [root, accepts_pure] at first
        exact first.2
  · simp only [accepts_bind, U128.accepts_divide, accepts_pure] at later
    obtain ⟨_, _, ⟨_, _, rfl⟩, _, _, ⟨_, _, rfl⟩, _, rfl⟩ := later
    rfl

variable [Blake3] {command : Command} {output : PrismOutput}

omit [SerdeJson] in
theorem accepts_createPool {first second : Hash}
    (accepted : Accepts (createPool command first second) state output after) :
    ∃ pool : Pool, state.get (key pool.id) = none ∧ pool.reserveA = 0 ∧ pool.reserveB = 0 ∧
      pool.totalShares = 0 ∧ pool.shares = ∅ ∧ after = state.putJson (key pool.id) pool := by
  simp only [createPool, save, accepts_bind, accepts_get, accepts_ite, accepts_throw,
    accepts_modify, accepts_pure] at accepted
  rcases accepted with ⟨_, _, _, impossible, _⟩ | ⟨_, _, _, ⟨rfl, rfl⟩, ⟨_, _, _, impossible, _⟩ |
    ⟨absent, _, _, rfl, _, rfl⟩⟩
  · cases impossible
  · cases impossible
  · generalize (if first.toHex ≤ second.toHex then (first, second) else (second, first)) = pair
      at absent
    let pool : Pool :=
      { id := poolId pair.1 pair.2
        tokenA := pair.1
        tokenB := pair.2
        reserveA := 0
        reserveB := 0
        totalShares := 0
        shares := ∅ }
    refine ⟨pool, ?_, rfl, rfl, rfl, rfl, rfl⟩
    rw [StateTree.contains_eq_isSome, Bool.not_eq_true, Option.isSome_eq_false_iff,
      Option.isNone_iff_eq_none] at absent
    exact absent

theorem accepts_addLiquidity {id : Hash} {amountA amountB : U128}
    (accepted : Accepts (addLiquidity command id amountA amountB) state output after) :
    ∃ pool updated : Pool, state.getJson Pool (key id) = .ok (some pool) ∧
      amountA ≤ balance state pool.tokenA command.submitter ∧
      amountB ≤ balance (debited state pool.tokenA command.submitter amountA) pool.tokenB
        command.submitter ∧
      updated.id = pool.id ∧ updated.tokenA = pool.tokenA ∧ updated.tokenB = pool.tokenB ∧
      updated.reserveA = pool.reserveA.saturatingAdd amountA ∧
      updated.reserveB = pool.reserveB.saturatingAdd amountB ∧
      after = (debited (debited state pool.tokenA command.submitter amountA) pool.tokenB
        command.submitter amountB).putJson (key updated.id) updated := by
  simp only [addLiquidity, save, accepts_bind, accepts_load, accepts_ite, accepts_throw,
    accepts_modify, accepts_pure, TokenPrism.accepts_debit] at accepted
  obtain ⟨pool, _, ⟨read, rfl⟩, ⟨_, _, _, impossible, _⟩ | ⟨_, shares, _, priced,
    ⟨_, _, _, impossible, _⟩ | ⟨_, _, _, ⟨enoughA, rfl⟩, _, _, ⟨enoughB, rfl⟩, _, _, rfl, _,
      rfl⟩⟩⟩ := accepted
  · cases impossible
  · cases impossible
  · have same := accepts_minted priced
    subst same
    let updated : Pool :=
      { pool with
        reserveA := pool.reserveA.saturatingAdd amountA
        reserveB := pool.reserveB.saturatingAdd amountB
        totalShares := pool.totalShares.saturatingAdd shares
        shares := pool.shares.insert command.submitter.name
          ((pool.shares[command.submitter.name]?.getD 0).saturatingAdd shares) }
    exact ⟨pool, updated, read, enoughA, enoughB, rfl, rfl, rfl, rfl, rfl, rfl⟩

theorem accepts_handle (accepted : Accepts (handle command) state output after) :
    ∃ operation, fromSlice DexCommand command.payload = .ok operation ∧
      Accepts (execute command operation) state output after := by
  unfold handle at accepted
  cases parsed : fromSlice DexCommand command.payload with
  | error text =>
      rw [parsed] at accepted
      exact absurd accepted accepts_throw
  | ok operation =>
      rw [parsed] at accepted
      exact ⟨operation, rfl, accepted⟩

theorem handle_underived (command : Command) : Underived (handle command) := by
  unfold handle
  split
  · exact underived_throw _
  · rename_i operation parsed
    cases operation
    all_goals
      repeat' first
        | exact underived_single _ _
        | exact underived_throw _
        | apply Underived.ite
        | apply Underived.bind; intro _

end DexPrism

/-! ### Schedules -/

namespace VestingPrism

/-- What a schedule still owes of a token, to the beneficiary or back to the funder. -/
def remainder (token : Hash) (schedule : Schedule) : Nat :=
  if schedule.tokenId = token ∧ schedule.revoked = false then
    schedule.total.val - schedule.released.val
  else 0

theorem key_injective : Function.Injective key := by
  intro left right same
  have texts := congrArg String.toList same
  simp only [key, String.toList_append, List.append_cancel_left_eq] at texts
  exact Hash.toHex_injective (String.toList_inj.mp texts)

variable [SerdeJson] {state after : StateTree}

noncomputable def locked (state : StateTree) (token : Hash) : Nat :=
  state.worth key (remainder token)

variable [Blake3] {command : Command} {output : PrismOutput}

theorem accepts_create {tokenId : Hash} {beneficiary : PartyId} {amount : U128}
    {start cliff duration : UInt64} {revocable : Bool}
    (accepted : Accepts (create command tokenId beneficiary amount start cliff duration revocable)
      state output after) :
    ∃ (id : Hash) (schedule : Schedule), state.get (key id) = none ∧
      amount ≤ balance state tokenId command.submitter ∧ schedule.tokenId = tokenId ∧
      schedule.total = amount ∧ schedule.released = 0 ∧ schedule.revoked = false ∧
      after = (debited state tokenId command.submitter amount).putJson (key id) schedule := by
  simp only [create, accepts_bind, accepts_get, accepts_ite, accepts_throw, accepts_modify,
    accepts_pure, TokenPrism.accepts_debit] at accepted
  rcases accepted with ⟨_, _, _, impossible, _⟩ | ⟨_, ⟨_, _, _, impossible, _⟩ | ⟨_, _, _,
    ⟨rfl, rfl⟩, ⟨_, _, _, impossible, _⟩ | ⟨absent, _, _, ⟨enough, rfl⟩, _, _, rfl, _, rfl⟩⟩⟩
  · cases impossible
  · cases impossible
  · cases impossible
  · rw [StateTree.contains_eq_isSome, Bool.not_eq_true, Option.isSome_eq_false_iff,
      Option.isNone_iff_eq_none] at absent
    let schedule : Schedule :=
      { id := createdId command.submitter beneficiary tokenId start amount
        tokenId := tokenId
        funder := command.submitter
        beneficiary := beneficiary
        total := amount
        released := 0
        start := start
        cliff := cliff
        duration := duration
        revocable := revocable
        revoked := false }
    exact ⟨_, schedule, absent, enough, rfl, rfl, rfl, rfl, rfl⟩

theorem accepts_handle (accepted : Accepts (handle command) state output after) :
    ∃ operation, fromSlice VestingCommand command.payload = .ok operation ∧
      Accepts (execute command operation) state output after := by
  unfold handle at accepted
  cases parsed : fromSlice VestingCommand command.payload with
  | error text =>
      rw [parsed] at accepted
      exact absurd accepted accepts_throw
  | ok operation =>
      rw [parsed] at accepted
      exact ⟨operation, rfl, accepted⟩

theorem handle_underived (command : Command) : Underived (handle command) := by
  unfold handle
  split
  · exact underived_throw _
  · rename_i operation parsed
    cases operation
    all_goals
      repeat' first
        | exact underived_single _ _
        | exact underived_throw _
        | apply Underived.ite
        | apply Underived.bind; intro _

end VestingPrism

/-! ### The books -/

namespace Positions

open DexPrism (reserve reserves Keyed)
open VestingPrism (remainder locked)

section Steps

variable [SerdeJson] {state after : StateTree}

/-- Accounts, reserves and schedules together hold what the record promises. -/
def Balanced (state : StateTree) : Prop :=
  ∀ token, supply state token = total state token + reserves state token + locked state token

/-- Pools and schedules are untouched. -/
def SamePositions (state after : StateTree) : Prop :=
  (∀ id, after.get (DexPrism.key id) = state.get (DexPrism.key id)) ∧
    ∀ id, after.get (VestingPrism.key id) = state.get (VestingPrism.key id)

theorem samePositions_debited (state : StateTree) (token : Hash) (who : PartyId) (amount : U128) :
    SamePositions state (debited state token who amount) := by
  constructor
  · intro id
    exact TokenPrism.get_head_withBalance state _ (by decide) token who _
  · intro id
    exact TokenPrism.get_head_withBalance state _ (by decide) token who _

omit [SerdeJson] in
theorem SamePositions.trans {middle : StateTree} (first : SamePositions state middle)
    (second : SamePositions middle after) : SamePositions state after :=
  ⟨fun id => (second.1 id).trans (first.1 id), fun id => (second.2 id).trans (first.2 id)⟩

theorem SamePositions.reserves (same : SamePositions state after) (token : Hash) :
    reserves after token = DexPrism.reserves state token :=
  StateTree.worth_congr same.1

theorem SamePositions.locked (same : SamePositions state after) (token : Hash) :
    locked after token = VestingPrism.locked state token :=
  StateTree.worth_congr same.2

theorem SamePositions.read (same : SamePositions state after) (id : Hash) :
    after.getJson? Pool (DexPrism.key id) = state.getJson? Pool (DexPrism.key id) := by
  simp only [StateTree.getJson?, StateTree.getJson, same.1 id]

/-- The units a debit takes out of a token's accounts. -/
theorem total_debited_any {token : Hash} {who : PartyId} {amount : U128}
    (enough : amount ≤ balance state token who) (other : Hash) :
    total (debited state token who amount) other + (if token = other then amount.val else 0) =
      total state other := by
  by_cases same : token = other
  · rw [if_pos same, ← same]
    exact TokenPrism.total_debited enough
  · rw [if_neg same]
    exact TokenPrism.total_withBalance_ne state who _ same

/-- A pool written. -/
theorem pool_written (state : StateTree) (pool : Pool) (token : Hash) :
    supply (state.putJson (DexPrism.key pool.id) pool) token = supply state token ∧
      total (state.putJson (DexPrism.key pool.id) pool) token = total state token ∧
      locked (state.putJson (DexPrism.key pool.id) pool) token = locked state token ∧
      reserves (state.putJson (DexPrism.key pool.id) pool) token +
          ((state.getJson? Pool (DexPrism.key pool.id)).map (reserve token)).getD 0 =
        reserves state token + reserve token pool := by
  refine ⟨TokenPrism.supply_put_head state _ _ (by decide) token,
    TokenPrism.total_put_head state _ _ (by decide) token, ?_,
    StateTree.worth_putJson DexPrism.key_injective state pool.id pool⟩
  apply StateTree.worth_congr
  intro id
  apply StateTree.get_put_ne
  have apart : Keys.Apart DexPrism.poolPrefix VestingPrism.schedPrefix := by decide
  exact apart.append_ne _ _

/-- A schedule written. -/
theorem schedule_written (state : StateTree) (id : Hash) (schedule : Schedule) (token : Hash) :
    supply (state.putJson (VestingPrism.key id) schedule) token = supply state token ∧
      total (state.putJson (VestingPrism.key id) schedule) token = total state token ∧
      reserves (state.putJson (VestingPrism.key id) schedule) token = reserves state token ∧
      locked (state.putJson (VestingPrism.key id) schedule) token +
          ((state.getJson? Schedule (VestingPrism.key id)).map (remainder token)).getD 0 =
        locked state token + remainder token schedule := by
  refine ⟨TokenPrism.supply_put_head state _ _ (by decide) token,
    TokenPrism.total_put_head state _ _ (by decide) token, ?_,
    StateTree.worth_putJson VestingPrism.key_injective state id schedule⟩
  apply StateTree.worth_congr
  intro other
  apply StateTree.get_put_ne
  have apart : Keys.Apart VestingPrism.schedPrefix DexPrism.poolPrefix := by decide
  exact apart.append_ne _ _

/-- Balanced books over pools stored under their own names. -/
structure Books (state : StateTree) : Prop where
  keyed : Keyed state
  balanced : Balanced state

/-- A reserve and a debited balance are parts of one recorded supply. -/
theorem reserve_fits (balanced : Balanced state) {token id : Hash} {amount : U128} {pool : Pool}
    (stored : state.getJson? Pool (DexPrism.key id) = some pool)
    (enough : amount.val ≤ total state token) : reserve token pool + amount.val < 2 ^ 128 := by
  have part : ((state.getJson? Pool (DexPrism.key id)).map (reserve token)).getD 0 ≤
      reserves state token :=
    Total.le_total (StateTree.worth_finite DexPrism.key_injective state) id
  rw [stored, Option.map_some, Option.getD_some] at part
  have sum := balanced token
  have bound := TokenPrism.supply_lt state token
  omega

omit [SerdeJson] in
theorem saturatingAdd_of_fits {left right : U128} (fits : left.val + right.val < 2 ^ 128) :
    (left.saturatingAdd right).val = left.val + right.val := by
  unfold U128.saturatingAdd U128.ofNatSaturating
  exact Nat.min_eq_left (by omega)

variable [Blake3] {command : Command} {output : PrismOutput}

theorem createPool_books {first second : Hash} (books : Books state)
    (accepted : Accepts (DexPrism.createPool command first second) state output after) :
    Books after ∧ ∀ token, supply after token = supply state token := by
  obtain ⟨pool, absent, emptyA, emptyB, _, _, rfl⟩ := DexPrism.accepts_createPool accepted
  have unread : state.getJson? Pool (DexPrism.key pool.id) = none := by
    simp only [StateTree.getJson?, StateTree.getJson, absent]
  refine ⟨⟨books.keyed.save pool, ?_⟩, fun token => (pool_written state pool token).1⟩
  intro token
  obtain ⟨records, totals, schedules, sum⟩ := pool_written state pool token
  have none : reserve token pool = 0 := by
    unfold reserve
    rw [emptyA, emptyB]
    simp
  rw [unread, Option.map_none, Option.getD_none, none] at sum
  have before := books.balanced token
  omega

omit [Blake3] in
/-- Nothing saturates: the reserves grow by what the accounts lose. -/
theorem reserve_grown (balanced : Balanced state) {id : Hash} {pool updated : Pool}
    {amountA amountB : U128} (stored : state.getJson? Pool (DexPrism.key id) = some pool)
    (enoughA : amountA.val ≤ total state pool.tokenA)
    (enoughB : amountB.val ≤ total state pool.tokenB)
    (tokenA : updated.tokenA = pool.tokenA) (tokenB : updated.tokenB = pool.tokenB)
    (reserveA : updated.reserveA = pool.reserveA.saturatingAdd amountA)
    (reserveB : updated.reserveB = pool.reserveB.saturatingAdd amountB) (token : Hash) :
    reserve token updated = reserve token pool +
      (if pool.tokenA = token then amountA.val else 0) +
      if pool.tokenB = token then amountB.val else 0 := by
  have fitsA := reserve_fits balanced stored enoughA
  have fitsB := reserve_fits balanced stored enoughB
  unfold reserve at fitsA fitsB ⊢
  rw [if_pos rfl] at fitsA fitsB
  rw [tokenA, tokenB, reserveA, reserveB, saturatingAdd_of_fits (by omega),
    saturatingAdd_of_fits (by omega)]
  split_ifs <;> omega

theorem addLiquidity_books {id : Hash} {amountA amountB : U128} (books : Books state)
    (accepted : Accepts (DexPrism.addLiquidity command id amountA amountB) state output after) :
    Books after ∧ ∀ token, supply after token = supply state token := by
  obtain ⟨pool, updated, read, enoughA, enoughB, name, tokenA, tokenB, reserveA, reserveB, rfl⟩ :=
    DexPrism.accepts_addLiquidity accepted
  have stored := StateTree.getJson?_of_read read
  have own := books.keyed id pool stored
  have sumA := total_debited_any enoughA
  have sumB := total_debited_any enoughB
  have heldA : amountA.val ≤ total state pool.tokenA :=
    le_trans enoughA (TokenPrism.balance_le_total state pool.tokenA command.submitter)
  have heldB : amountB.val ≤ total state pool.tokenB := by
    have part := TokenPrism.balance_le_total
      (debited state pool.tokenA command.submitter amountA) pool.tokenB command.submitter
    have bound : amountB.val ≤ _ := enoughB
    have less := sumA pool.tokenB
    omega
  have grown := reserve_grown books.balanced stored heldA heldB tokenA tokenB reserveA reserveB
  have same : SamePositions state (debited (debited state pool.tokenA command.submitter amountA)
      pool.tokenB command.submitter amountB) :=
    (samePositions_debited state _ _ _).trans (samePositions_debited _ _ _ _)
  have records : ∀ token, supply (debited (debited state pool.tokenA command.submitter amountA)
      pool.tokenB command.submitter amountB) token = supply state token := by
    intro token
    unfold debited
    rw [TokenPrism.supply_withBalance, TokenPrism.supply_withBalance]
  generalize debited (debited state pool.tokenA command.submitter amountA) pool.tokenB
    command.submitter amountB = middle at sumB same records ⊢
  refine ⟨⟨(books.keyed.congr same.1).save updated, ?_⟩, ?_⟩
  · intro token
    obtain ⟨kept, totals, schedules, sum⟩ := pool_written middle updated token
    rw [same.read, name, own, stored, Option.map_some, Option.getD_some, same.reserves,
      grown token] at sum
    rw [name, own] at kept totals schedules ⊢
    rw [kept, totals, schedules, records, same.locked]
    have before := books.balanced token
    have lessA := sumA token
    have lessB := sumB token
    omega
  · intro token
    exact (pool_written middle updated token).1.trans (records token)

theorem create_books {tokenId : Hash} {beneficiary : PartyId} {amount : U128}
    {start cliff duration : UInt64} {revocable : Bool} (books : Books state)
    (accepted : Accepts (VestingPrism.create command tokenId beneficiary amount start cliff
      duration revocable) state output after) :
    Books after ∧ ∀ token, supply after token = supply state token := by
  obtain ⟨id, schedule, absent, enough, named, sized, unpaid, standing, rfl⟩ :=
    VestingPrism.accepts_create accepted
  have same := samePositions_debited state tokenId command.submitter amount
  have records : ∀ token, supply (debited state tokenId command.submitter amount) token =
      supply state token := fun token => TokenPrism.supply_withBalance state tokenId token _ _
  have taken := total_debited_any enough
  generalize debited state tokenId command.submitter amount = middle at same records taken
  have unread : middle.getJson? Schedule (VestingPrism.key id) = none := by
    simp only [StateTree.getJson?, StateTree.getJson, same.2 id, absent]
  refine ⟨⟨?_, ?_⟩, ?_⟩
  · apply (books.keyed.congr same.1).congr
    intro other
    apply StateTree.get_put_ne
    have apart : Keys.Apart VestingPrism.schedPrefix DexPrism.poolPrefix := by decide
    exact apart.append_ne _ _
  · intro token
    obtain ⟨kept, totals, pools, sum⟩ := schedule_written middle id schedule token
    have owed : remainder token schedule = if tokenId = token then amount.val else 0 := by
      unfold remainder
      rw [named, sized, unpaid, standing]
      simp
    rw [unread, Option.map_none, Option.getD_none, owed, same.locked] at sum
    rw [kept, totals, pools, records, same.reserves]
    have before := books.balanced token
    have less := taken token
    omega
  · intro token
    exact (schedule_written middle id schedule token).1.trans (records token)

end Steps

/-! ### Runs of token, exchange and vesting commands -/

section Runs

variable [SerdeJson]

/-- The commands behind which the record and the holdings part: positions that pay out, and
accounts that pay themselves. -/
def Drifts (command : Command) : Prop :=
  (command.prism = "token" ∧ TokenPrism.SelfMove command) ∨
    (command.prism = "dex" ∧
      match fromSlice DexCommand command.payload with
      | .ok (.removeLiquidity ..) | .ok (.swap ..) => True
      | _ => False) ∨
    (command.prism = "vesting" ∧
      match fromSlice VestingCommand command.payload with
      | .ok (.release ..) | .ok (.revoke ..) => True
      | _ => False)

def Issuing (command : Command) : Prop :=
  command.prism = "token" ∧ TokenPrism.Issues command

/-- No pools and no schedules. -/
def NoPositions (state : StateTree) : Prop :=
  (∀ id, state.get (DexPrism.key id) = none) ∧ ∀ id, state.get (VestingPrism.key id) = none

theorem ledger_books {state : StateTree} (ledger : TokenPrism.Ledger state)
    (none : NoPositions state) : Books state := by
  constructor
  · intro id pool stored
    simp only [StateTree.getJson?, StateTree.getJson, none.1 id] at stored
    cases stored
  · intro token
    have pools : reserves state token = 0 := StateTree.worth_empty none.1
    have schedules : locked state token = 0 := StateTree.worth_empty none.2
    rw [pools, schedules, Nat.add_zero]
    rcases ledger token with ⟨absent, empty⟩ | ⟨info, stored, sum⟩
    · rw [TokenPrism.supply_of_absent absent, empty]
    · rw [sum]
      apply TokenPrism.supply_of_read
      unfold StateTree.getJson
      rw [stored]
      dsimp only
      rw [fromSlice_toVec]

variable [Blake3]

def cascade : Cascade :=
  ((Cascade.empty.install TokenPrism.prism).install DexPrism.prism).install VestingPrism.prism

theorem lookup_cascade {name : String} {found : Prism}
    (installed : cascade.prisms.lookup name = some found) :
    (name = "token" ∧ found = TokenPrism.prism) ∨ (name = "dex" ∧ found = DexPrism.prism) ∨
      (name = "vesting" ∧ found = VestingPrism.prism) := by
  unfold cascade Cascade.install at installed
  by_cases vesting : name = "vesting"
  · subst vesting
    have here := (AList.lookup_insert _).symm.trans installed
    exact .inr (.inr ⟨rfl, (Option.some.inj here).symm⟩)
  · replace installed := (AList.lookup_insert_ne vesting).symm.trans installed
    by_cases dex : name = "dex"
    · subst dex
      have here := (AList.lookup_insert _).symm.trans installed
      exact .inr (.inl ⟨rfl, (Option.some.inj here).symm⟩)
    · replace installed := (AList.lookup_insert_ne dex).symm.trans installed
      by_cases token : name = "token"
      · subst token
        have here := (AList.lookup_insert _).symm.trans installed
        exact .inl ⟨rfl, (Option.some.inj here).symm⟩
      · replace installed := (AList.lookup_insert_ne token).symm.trans installed
        cases installed

theorem cascade_flat : cascade.Flat := by
  intro name found installed
  rcases lookup_cascade installed with ⟨_, rfl⟩ | ⟨_, rfl⟩ | ⟨_, rfl⟩
  · exact TokenPrism.handle_underived
  · exact DexPrism.handle_underived
  · exact VestingPrism.handle_underived

variable {state after : StateTree} {command : Command} {output : PrismOutput}

theorem token_books (books : Books state)
    (accepted : Accepts (TokenPrism.handle command) state output after)
    (proper : ¬ TokenPrism.SelfMove command) :
    Books after ∧ (¬ TokenPrism.Issues command → ∀ token,
      supply after token = supply state token) := by
  have same : SamePositions state after := by
    constructor
    · intro id
      exact TokenPrism.handle_elsewhere accepted _ (by decide) (by decide) (by decide)
    · intro id
      exact TokenPrism.handle_elsewhere accepted _ (by decide) (by decide) (by decide)
  refine ⟨⟨books.keyed.congr same.1, ?_⟩, ?_⟩
  · intro token
    have before := books.balanced token
    have covered : total state token ≤ supply state token := by
      omega
    have kept := TokenPrism.excess_eq accepted proper covered
    rw [same.reserves, same.locked]
    unfold excess at kept
    omega
  · intro moves token
    rcases TokenPrism.handle_effect accepted proper with kept | ⟨issues, _⟩
    · exact (kept token).1
    · exact absurd issues moves

/-- One routed command keeps the books, unless it drifts; only issuing changes a record. -/
theorem books_step {receipt : CascadeReceipt} (books : Books state)
    (applied : cascade.apply command state = (.ok receipt, after)) (steady : ¬ Drifts command) :
    Books after ∧ (¬ Issuing command → ∀ token, supply after token = supply state token) := by
  obtain ⟨found, output, installed, accepted⟩ := cascade_flat.handled applied
  rcases lookup_cascade installed with ⟨token, rfl⟩ | ⟨dex, rfl⟩ | ⟨vesting, rfl⟩
  · obtain ⟨kept, records⟩ := token_books books accepted fun self => steady (.inl ⟨token, self⟩)
    exact ⟨kept, fun moves => records fun issues => moves ⟨token, issues⟩⟩
  · obtain ⟨operation, parsed, executed⟩ := DexPrism.accepts_handle accepted
    have calm : ¬ (match fromSlice DexCommand command.payload with
        | .ok (.removeLiquidity ..) | .ok (.swap ..) => True
        | _ => False) := fun pays => steady (.inr (.inl ⟨dex, pays⟩))
    rw [parsed] at calm
    cases operation with
    | createPool first second =>
        obtain ⟨kept, records⟩ := createPool_books books executed
        exact ⟨kept, fun _ => records⟩
    | addLiquidity pool amountA amountB =>
        obtain ⟨kept, records⟩ := addLiquidity_books books executed
        exact ⟨kept, fun _ => records⟩
    | removeLiquidity pool shares => exact absurd trivial calm
    | swap pool tokenIn amountIn minOut => exact absurd trivial calm
  · obtain ⟨operation, parsed, executed⟩ := VestingPrism.accepts_handle accepted
    have calm : ¬ (match fromSlice VestingCommand command.payload with
        | .ok (.release ..) | .ok (.revoke ..) => True
        | _ => False) := fun pays => steady (.inr (.inr ⟨vesting, pays⟩))
    rw [parsed] at calm
    cases operation with
    | create tokenId beneficiary amount start cliff duration revocable =>
        obtain ⟨kept, records⟩ := create_books books executed
        exact ⟨kept, fun _ => records⟩
    | release schedule => exact absurd trivial calm
    | revoke schedule => exact absurd trivial calm

theorem books_run {start : StateTree} {commands : List Command} (books : Books start)
    (accepted : Run.Along cascade.step cascade.Accepted start commands)
    (steady : ∀ command ∈ commands, ¬ Drifts command) :
    Books (Run.run cascade.step start commands) := by
  refine Run.invariant cascade.step ?_ books (Run.along_and cascade.step accepted steady)
  intro state command kept allowed
  obtain ⟨⟨receipt, after, applied⟩, calm⟩ := allowed
  rw [Cascade.step_eq applied]
  exact (books_step kept applied calm).1

/-- While no position pays out and no account pays itself, every recorded supply is in
accounts, reserves and schedules, and only issuing changes it. -/
theorem supply_is_held (start : StateTree) (commands : List Command)
    (ledger : TokenPrism.Ledger start) (none : NoPositions start)
    (accepted : Run.Along cascade.step cascade.Accepted start commands)
    (steady : ∀ command ∈ commands, ¬ Drifts command) :
    (∀ front back, commands = front ++ back → ∀ token,
      supply (Run.run cascade.step start front) token =
        total (Run.run cascade.step start front) token +
          reserves (Run.run cascade.step start front) token +
          locked (Run.run cascade.step start front) token) ∧
    (∀ front command back, commands = front ++ command :: back → ¬ Issuing command → ∀ token,
      supply (Run.run cascade.step start (front ++ [command])) token =
        supply (Run.run cascade.step start front) token) := by
  have books := ledger_books ledger none
  constructor
  · intro front back split
    rw [split] at accepted steady
    exact (books_run books ((Run.along_append cascade.step).mp accepted).1 fun command member =>
      steady command (List.mem_append_left _ member)).balanced
  · intro front command back split moves
    rw [split] at accepted steady
    obtain ⟨before, ⟨receipt, after, applied⟩, _⟩ := (Run.along_append cascade.step).mp accepted
    have kept := books_run books before fun other member =>
      steady other (List.mem_append_left _ member)
    rw [Run.run_snoc, Cascade.step_eq applied]
    exact (books_step kept applied (steady command
      (List.mem_append_right _ List.mem_cons_self))).2 moves

end Runs

/-! ### A payout -/

section Payout

variable [SerdeJson] {state after : StateTree} {token : Hash} {who : PartyId} {amount : U128}

/-- The state after a credit of a recorded token. -/
def credited (state : StateTree) (token : Hash) (who : PartyId) (amount : U128)
    (info : TokenMeta) : StateTree :=
  (withBalance state token who (balance state token who + amount)).putJson
    (TokenPrism.metaKey token) { info with totalSupply := info.totalSupply.saturatingAdd amount }

theorem accepts_credit {info : TokenMeta} (recorded : TokenPrism.tokenMeta? state token = some info)
    (fits : (balance state token who).val + amount.val < 2 ^ 128) :
    Accepts (TokenPrism.credit token who amount) state () (credited state token who amount info) := by
  simp only [TokenPrism.credit, TokenPrism.setBalance, TokenPrism.setMeta, accepts_bind,
    accepts_get, accepts_modify, TokenPrism.accepts_addOr]
  refine ⟨_, _, ⟨rfl, rfl⟩, _, _, ⟨TokenPrism.checkedAdd_of_lt fits, rfl⟩, (), _, rfl, _, _,
    ⟨rfl, rfl⟩, ?_⟩
  have kept : TokenPrism.tokenMeta? (withBalance state token who
      (balance state token who + amount)) token = some info := by
    rw [TokenPrism.tokenMeta?_withBalance, recorded]
  unfold withBalance at kept
  rw [kept]
  exact accepts_modify.mpr rfl

/-- The units appear in an account and once more in the record. -/
theorem credited_effect {info : TokenMeta}
    (recorded : TokenPrism.tokenMeta? state token = some info)
    (fits : (balance state token who).val + amount.val < 2 ^ 128)
    (small : info.totalSupply.val + amount.val < 2 ^ 128) :
    supply (credited state token who amount info) token = supply state token + amount.val ∧
      total (credited state token who amount info) token = total state token + amount.val ∧
      SamePositions state (credited state token who amount info) := by
  refine ⟨?_, ?_, ?_, ?_⟩
  · unfold credited
    rw [TokenPrism.supply_putMeta, saturatingAdd_of_fits small]
    unfold supply
    rw [recorded]
    rfl
  · have sum := TokenPrism.total_withBalance state token who (balance state token who + amount)
    rw [Fin.val_add, Nat.mod_eq_of_lt fits] at sum
    unfold credited
    rw [TokenPrism.total_putMeta]
    omega
  · intro id
    unfold credited
    have apart : DexPrism.key id ≠ TokenPrism.metaKey token :=
      TokenPrism.head_ne_metaKey (by decide) _ _
    rw [StateTree.putJson, StateTree.get_put_ne _ _ apart.symm]
    exact TokenPrism.get_head_withBalance state _ (by decide) _ _ _
  · intro id
    unfold credited
    have apart : VestingPrism.key id ≠ TokenPrism.metaKey token :=
      TokenPrism.head_ne_metaKey (by decide) _ _
    rw [StateTree.putJson, StateTree.get_put_ne _ _ apart.symm]
    exact TokenPrism.get_head_withBalance state _ (by decide) _ _ _

variable [Blake3] (command : Command)

theorem release_accepted {id : Hash} {schedule : Schedule} {info : TokenMeta}
    (stored : state.getJson Schedule (VestingPrism.key id) = .ok (some schedule))
    (standing : schedule.revoked = false) (immediate : schedule.duration = 0)
    (unpaid : schedule.released = 0) (positive : schedule.total ≠ 0)
    (recorded : TokenPrism.tokenMeta? state schedule.tokenId = some info)
    (fits : (balance state schedule.tokenId schedule.beneficiary).val + schedule.total.val <
      2 ^ 128) :
    ∃ output, Accepts (VestingPrism.release command id) state output
      ((credited state schedule.tokenId schedule.beneficiary schedule.total info).putJson
        (VestingPrism.key id)
        { schedule with released := (0 : U128).saturatingAdd schedule.total }) := by
  have due : ∀ now, schedule.releasable now = schedule.total := by
    intro now
    unfold Schedule.releasable Schedule.vested
    rw [if_pos immediate, unpaid]
    rfl
  have loads : Accepts (VestingPrism.load id) state schedule state := by
    unfold VestingPrism.load
    refine accepts_bind.mpr ⟨state, state, accepts_get.mpr ⟨rfl, rfl⟩, ?_⟩
    rw [stored]
    exact accepts_pure.mpr ⟨rfl, rfl⟩
  refine ⟨.single (VestingPrism.event command
    (.released id schedule.beneficiary schedule.total)) 1500, ?_⟩
  unfold VestingPrism.release
  refine accepts_bind.mpr ⟨schedule, state, loads, ?_⟩
  rw [standing, if_neg Bool.false_ne_true]
  refine accepts_bind.mpr ⟨state, state, accepts_get.mpr ⟨rfl, rfl⟩, ?_⟩
  simp only [due, unpaid]
  rw [if_neg positive]
  refine accepts_bind.mpr ⟨(), _, accepts_credit recorded fits, ?_⟩
  refine accepts_bind.mpr ⟨(), _, accepts_modify.mpr rfl, ?_⟩
  exact accepts_pure.mpr ⟨rfl, rfl⟩

theorem create_accepted {tokenId : Hash} {beneficiary : PartyId} {start cliff duration : UInt64}
    {revocable : Bool} (positive : amount ≠ 0) (short : ¬ duration < cliff)
    (absent : state.get (VestingPrism.key (VestingPrism.createdId command.submitter beneficiary
      tokenId start amount)) = none)
    (enough : amount ≤ balance state tokenId command.submitter) :
    ∃ output, Accepts (VestingPrism.create command tokenId beneficiary amount start cliff duration
      revocable) state output
      ((debited state tokenId command.submitter amount).putJson
        (VestingPrism.key (VestingPrism.createdId command.submitter beneficiary tokenId start
          amount))
        { id := VestingPrism.createdId command.submitter beneficiary tokenId start amount
          tokenId := tokenId
          funder := command.submitter
          beneficiary := beneficiary
          total := amount
          released := 0
          start := start
          cliff := cliff
          duration := duration
          revocable := revocable
          revoked := false : Schedule }) := by
  refine ⟨.single (VestingPrism.event command (.created (VestingPrism.createdId command.submitter
    beneficiary tokenId start amount) beneficiary amount)) 4000, ?_⟩
  unfold VestingPrism.create
  rw [if_neg positive, if_neg short]
  refine accepts_bind.mpr ⟨state, state, accepts_get.mpr ⟨rfl, rfl⟩, ?_⟩
  rw [if_neg (by rw [StateTree.contains_eq_isSome, absent]; exact Bool.false_ne_true)]
  refine accepts_bind.mpr ⟨(), _, TokenPrism.accepts_debit.mpr ⟨enough, rfl⟩, ?_⟩
  refine accepts_bind.mpr ⟨(), _, accepts_modify.mpr rfl, ?_⟩
  exact accepts_pure.mpr ⟨rfl, rfl⟩

end Payout

section Gold

attribute [local instance] SerdeJson.compact Blake3.polynomial

open TokenPrism (goldId metaKey)

def vestingCommand (submitter : String) (nonce : UInt64) (operation : VestingCommand) : Command :=
  { prism := "vesting"
    submitter := ⟨submitter⟩
    visibility := .pub
    payload := toVec operation
    nonce := nonce }

def goldSchedule : Schedule :=
  { id := VestingPrism.createdId ⟨"alice"⟩ ⟨"bob"⟩ goldId 0 100
    tokenId := goldId
    funder := ⟨"alice"⟩
    beneficiary := ⟨"bob"⟩
    total := 100
    released := 0
    start := 0
    cliff := 0
    duration := 0
    revocable := false
    revoked := false }

/-- Alice creates a thousand units and vests a hundred of them to Bob at once. -/
def vestRun : List Command :=
  [TokenPrism.tokenCommand "alice" 0 (.create "Gold" "GLD" 18 1000 true),
    vestingCommand "alice" 1 (.create goldId ⟨"bob"⟩ 100 0 0 0 false)]

/-- Bob takes what has vested. -/
def payout : Command := vestingCommand "bob" 0 (.release goldSchedule.id)

def goldState (info : TokenMeta) : StateTree :=
  withBalance (StateTree.empty.putJson (metaKey goldId) info) goldId ⟨"alice"⟩ 1000

noncomputable def vestedState (info : TokenMeta) : StateTree :=
  (debited (goldState info) goldId ⟨"alice"⟩ 100).putJson (VestingPrism.key goldSchedule.id)
    goldSchedule

/-- The schedule once it is paid. -/
def paidSchedule : Schedule := { goldSchedule with released := 100 }

noncomputable def paidState (info : TokenMeta) : StateTree :=
  (credited (vestedState info) goldId ⟨"bob"⟩ 100 info).putJson (VestingPrism.key goldSchedule.id)
    paidSchedule

theorem noPositions_empty : NoPositions StateTree.empty :=
  ⟨fun _ => StateTree.get_empty _, fun _ => StateTree.get_empty _⟩

theorem tokenMeta_vestedState (info : TokenMeta) :
    TokenPrism.tokenMeta? (vestedState info) goldId = some info := by
  have apart : VestingPrism.key goldSchedule.id ≠ metaKey goldId :=
    TokenPrism.head_ne_metaKey (by decide) _ _
  unfold vestedState goldState debited
  unfold TokenPrism.tokenMeta?
  rw [StateTree.putJson, StateTree.getJson?_put_ne _ _ apart]
  change TokenPrism.tokenMeta? _ goldId = _
  rw [TokenPrism.tokenMeta?_withBalance, TokenPrism.tokenMeta?_withBalance]
  exact StateTree.getJson?_putJson _ _ _

theorem balance_vestedState (info : TokenMeta) : balance (vestedState info) goldId ⟨"bob"⟩ = 0 := by
  have different : PartyId.mk "alice" ≠ PartyId.mk "bob" := by
    decide
  unfold vestedState goldState debited
  rw [StateTree.putJson, VestingPrism.key, TokenPrism.balance_put_head _ _ _ (by decide),
    TokenPrism.balance_withBalance_ne _ _ (.inl different),
    TokenPrism.balance_withBalance_ne _ _ (.inl different), StateTree.putJson,
    TokenPrism.balance_put_ne _ _ fun same => TokenPrism.balKey_ne_metaKey _ _ _ same.symm]
  simp only [balance, TokenPrism.amountAt, StateTree.getJson?, StateTree.getJson,
    StateTree.get_empty, Option.bind_none, Option.getD_none]

theorem vestRun_steady : ∀ command ∈ vestRun, ¬ Drifts command := by
  intro command member drifts
  simp only [vestRun, List.mem_cons, List.not_mem_nil, or_false] at member
  rcases member with rfl | rfl
  · simp [Drifts, TokenPrism.SelfMove, TokenPrism.tokenCommand, fromSlice_toVec] at drifts
  · simp [Drifts, vestingCommand, fromSlice_toVec] at drifts

theorem vestRun_accepted :
    ∃ info : TokenMeta, info.totalSupply = 1000 ∧
      Run.Along cascade.step cascade.Accepted StateTree.empty vestRun ∧
      Run.run cascade.step StateTree.empty vestRun = vestedState info := by
  have token : cascade.prisms.lookup "token" = some TokenPrism.prism := by
    rfl
  have vesting : cascade.prisms.lookup "vesting" = some VestingPrism.prism := AList.lookup_insert _
  obtain ⟨output, info, created⟩ : ∃ output info, Accepts (TokenPrism.create
      (TokenPrism.tokenCommand "alice" 0 (.create "Gold" "GLD" 18 1000 true)) "Gold" "GLD" 18 1000
      true) StateTree.empty output (goldState info) :=
    TokenPrism.create_accepted (StateTree.get_empty _)
  have sized : info.totalSupply = 1000 := by
    obtain ⟨stored, recorded, _, same⟩ := TokenPrism.accepts_create created
    have supplies := congrArg (fun state => supply state goldId) same
    have left : supply (goldState info) goldId = info.totalSupply.val := by
      unfold goldState
      rw [TokenPrism.supply_withBalance, TokenPrism.supply_putMeta]
    rw [left, TokenPrism.supply_withBalance] at supplies
    exact Fin.ext (supplies.trans ((TokenPrism.supply_putMeta _ _ _).trans
      (congrArg Fin.val recorded)))
  have handled : Accepts (TokenPrism.handle
      (TokenPrism.tokenCommand "alice" 0 (.create "Gold" "GLD" 18 1000 true))) StateTree.empty
      output (goldState info) := by
    unfold TokenPrism.handle TokenPrism.tokenCommand
    rw [fromSlice_toVec]
    exact created
  obtain ⟨first, creates⟩ : ∃ receipt, cascade.apply (TokenPrism.tokenCommand "alice" 0 _)
      StateTree.empty = (.ok receipt, goldState info) := cascade_flat.apply_ok token handled
  have absent : (goldState info).get (VestingPrism.key goldSchedule.id) = none := by
    have apart : VestingPrism.key goldSchedule.id ≠ metaKey goldId :=
      TokenPrism.head_ne_metaKey (by decide) _ _
    unfold goldState
    refine (TokenPrism.get_head_withBalance _ _ (by decide) _ _ _).trans ?_
    exact (StateTree.get_put_ne _ _ apart.symm).trans (StateTree.get_empty _)
  have enough : (100 : U128) ≤ balance (goldState info) goldId ⟨"alice"⟩ := by
    unfold goldState
    rw [TokenPrism.balance_withBalance_self]
    decide
  obtain ⟨vestOutput, vests⟩ : ∃ output, Accepts (VestingPrism.create
      (vestingCommand "alice" 1 (.create goldId ⟨"bob"⟩ 100 0 0 0 false)) goldId ⟨"bob"⟩ 100 0 0 0
      false) (goldState info) output (vestedState info) :=
    create_accepted _ (by decide) (by decide) absent enough
  have routed : Accepts (VestingPrism.handle
      (vestingCommand "alice" 1 (.create goldId ⟨"bob"⟩ 100 0 0 0 false))) (goldState info)
      vestOutput (vestedState info) := by
    unfold VestingPrism.handle vestingCommand
    rw [fromSlice_toVec]
    exact vests
  obtain ⟨second, vested⟩ : ∃ receipt, cascade.apply (vestingCommand "alice" 1 _)
      (goldState info) = (.ok receipt, vestedState info) := cascade_flat.apply_ok vesting routed
  refine ⟨info, sized, ⟨⟨first, _, creates⟩, ?_⟩, ?_⟩
  · rw [Cascade.step_eq creates]
    exact ⟨⟨second, _, vested⟩, trivial⟩
  · change cascade.step (cascade.step StateTree.empty _) _ = _
    rw [Cascade.step_eq creates]
    exact Cascade.step_eq vested

/-- Vesting a hundred units and paying them out leaves the record a hundred too high. -/
theorem payout_inflates_supply :
    TokenPrism.Ledger StateTree.empty ∧ NoPositions StateTree.empty ∧
    Run.Along cascade.step cascade.Accepted StateTree.empty (vestRun ++ [payout]) ∧
    (∀ command ∈ vestRun ++ [payout],
      ¬ (command.prism = "token" ∧ TokenPrism.SelfMove command)) ∧
    supply (Run.run cascade.step StateTree.empty vestRun) goldId = 1000 ∧
    supply (Run.run cascade.step StateTree.empty (vestRun ++ [payout])) goldId = 1100 ∧
    total (Run.run cascade.step StateTree.empty (vestRun ++ [payout])) goldId +
      reserves (Run.run cascade.step StateTree.empty (vestRun ++ [payout])) goldId +
      locked (Run.run cascade.step StateTree.empty (vestRun ++ [payout])) goldId = 1000 := by
  obtain ⟨info, sized, accepted, reached⟩ := vestRun_accepted
  have ledger := TokenPrism.noTokens_empty.ledger
  have books := books_run (ledger_books ledger noPositions_empty) accepted vestRun_steady
  have vesting : cascade.prisms.lookup "vesting" = some VestingPrism.prism := AList.lookup_insert _
  have recorded := tokenMeta_vestedState info
  have before : supply (vestedState info) goldId = 1000 := by
    unfold supply
    rw [recorded, Option.map_some, Option.getD_some, sized]
    rfl
  have fits : (balance (vestedState info) goldId ⟨"bob"⟩).val + (100 : U128).val < 2 ^ 128 := by
    rw [balance_vestedState]
    decide
  have stored : (vestedState info).getJson Schedule (VestingPrism.key goldSchedule.id) =
      .ok (some goldSchedule) := StateTree.getJson_putJson _ _ _
  obtain ⟨output, pays⟩ := release_accepted payout stored rfl rfl rfl (by decide) recorded fits
  have paidOff : (0 : U128).saturatingAdd 100 = 100 := by
    decide
  have routed : Accepts (VestingPrism.handle payout) (vestedState info) output
      (paidState info) := by
    unfold VestingPrism.handle payout vestingCommand
    rw [fromSlice_toVec]
    have same : (0 : U128).saturatingAdd goldSchedule.total = 100 := paidOff
    rw [same] at pays
    exact pays
  obtain ⟨receipt, paid⟩ : ∃ receipt, cascade.apply payout (vestedState info) =
      (.ok receipt, paidState info) := cascade_flat.apply_ok vesting routed
  obtain ⟨raised, sum, same⟩ := credited_effect recorded fits (by rw [sized]; decide)
  obtain ⟨kept, totals, pools, owed⟩ := schedule_written
    (credited (vestedState info) goldId ⟨"bob"⟩ 100 info) goldSchedule.id paidSchedule goldId
  have unread : (credited (vestedState info) goldId ⟨"bob"⟩ 100 info).getJson? Schedule
      (VestingPrism.key goldSchedule.id) = some goldSchedule := by
    rw [StateTree.getJson?_of_get (same.2 goldSchedule.id)]
    exact StateTree.getJson?_of_read stored
  have whole := books.balanced goldId
  have first : remainder goldId goldSchedule = 100 := if_pos ⟨rfl, rfl⟩
  have last : remainder goldId paidSchedule = 0 := if_pos ⟨rfl, rfl⟩
  rw [unread, Option.map_some, Option.getD_some, first, last, same.locked] at owed
  rw [reached, before] at whole
  rw [Run.run_snoc, reached, Cascade.step_eq paid, paidState]
  refine ⟨ledger, noPositions_empty, ?_, ?_, before, ?_, ?_⟩
  · refine (Run.along_append cascade.step).mpr ⟨accepted, ?_, trivial⟩
    rw [reached]
    exact ⟨receipt, _, paid⟩
  · intro command member self
    simp only [vestRun, List.cons_append, List.nil_append, List.mem_cons, List.not_mem_nil,
      or_false] at member
    rcases member with rfl | rfl | rfl
    · simp [TokenPrism.SelfMove, TokenPrism.tokenCommand, fromSlice_toVec] at self
    · exact absurd self.1 (by decide)
    · exact absurd self.1 (by decide)
  · rw [kept, raised, before]
    rfl
  · rw [totals, pools, sum, same.reserves]
    have hundred : (100 : U128).val = 100 := rfl
    omega

/-- Before the payout the units are held. -/
theorem supply_is_held_vested :
    TokenPrism.Ledger StateTree.empty ∧ NoPositions StateTree.empty ∧
    Run.Along cascade.step cascade.Accepted StateTree.empty vestRun ∧
    (∀ command ∈ vestRun, ¬ Drifts command) ∧
    supply (Run.run cascade.step StateTree.empty vestRun) goldId =
      total (Run.run cascade.step StateTree.empty vestRun) goldId +
        reserves (Run.run cascade.step StateTree.empty vestRun) goldId +
        locked (Run.run cascade.step StateTree.empty vestRun) goldId := by
  obtain ⟨info, _, accepted, _⟩ := vestRun_accepted
  have ledger := TokenPrism.noTokens_empty.ledger
  exact ⟨ledger, noPositions_empty, accepted, vestRun_steady,
    (supply_is_held _ _ ledger noPositions_empty accepted vestRun_steady).1 vestRun []
      (List.append_nil _).symm goldId⟩

end Gold

end Positions

end Veilux
