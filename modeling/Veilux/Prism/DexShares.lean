/-
The shares of the pools in `prisms/dex/src/lib.rs`.  Both conversions between shares and
reserves cut their dividend at the largest amount before they divide.
-/

import Veilux.Prism.DexPricing

namespace Veilux

open PrismM

namespace DexPrism

open TokenPrism (balance debited Credited)

/-! ### What the operations do -/

section Operations

variable {pool : Pool} {who : PartyId} {amountA amountB shares : U128}

/-- The shares under a name. -/
def held (shares : Std.ExtTreeMap String U128) (name : String) : U128 := shares[name]?.getD 0

def holding (pool : Pool) (who : PartyId) : U128 := held pool.shares who.name

def deposited (pool : Pool) (who : PartyId) (amountA amountB shares : U128) : Pool :=
  { pool with
    reserveA := pool.reserveA.saturatingAdd amountA
    reserveB := pool.reserveB.saturatingAdd amountB
    totalShares := pool.totalShares.saturatingAdd shares
    shares := pool.shares.insert who.name ((holding pool who).saturatingAdd shares) }

def withdrawn (pool : Pool) (who : PartyId) (shares amountA amountB : U128) : Pool :=
  { pool with
    reserveA := pool.reserveA.saturatingSub amountA
    reserveB := pool.reserveB.saturatingSub amountB
    totalShares := pool.totalShares.saturatingSub shares
    shares :=
      if holding pool who - shares = 0 then pool.shares.erase who.name
      else pool.shares.insert who.name (holding pool who - shares) }

/-- The amount that a withdrawal computes. -/
def quotient (reserve shares total : U128) : U128 := reserve.saturatingMul shares / total

theorem quotient_val (reserve shares total : U128) : (quotient reserve shares total).val =
    min (reserve.val * shares.val) U128.largest / total.val := rfl

variable [SerdeJson] [Blake3] {state after : StateTree} {command : Command} {id : Hash}
  {output : PrismOutput}

theorem accepts_deposit (stored : state.getJson Pool (key id) = .ok (some pool)) :
    Accepts (addLiquidity command id amountA amountB) state output after ↔
      amountA ≠ 0 ∧ amountB ≠ 0 ∧ ∃ shares, shares ≠ 0 ∧
        Accepts (minted pool amountA amountB) state shares state ∧
        amountA ≤ balance state pool.tokenA command.submitter ∧
        amountB ≤ balance (debited state pool.tokenA command.submitter amountA) pool.tokenB
          command.submitter ∧
        output = .single (event command (.liquidityAdded id command.submitter shares)) 3000 ∧
        after = (debited (debited state pool.tokenA command.submitter amountA) pool.tokenB
          command.submitter amountB).putJson (key pool.id)
            (deposited pool command.submitter amountA amountB shares) := by
  unfold addLiquidity save deposited holding held
  constructor
  · intro accepted
    simp only [accepts_bind, accepts_load, accepts_ite, accepts_throw, accepts_modify, accepts_pure,
      TokenPrism.accepts_debit] at accepted
    obtain ⟨found, _, ⟨read, rfl⟩, ⟨_, _, _, impossible, _⟩ | ⟨positive, shares, _, priced,
      ⟨_, _, _, impossible, _⟩ | ⟨some, _, _, ⟨enoughA, rfl⟩, _, _, ⟨enoughB, rfl⟩, _, _, rfl, rfl,
        rfl⟩⟩⟩ := accepted
    · cases impossible
    · cases impossible
    · rw [stored] at read
      cases read
      have same := accepts_minted priced
      subst same
      exact ⟨fun none => positive (.inl none), fun none => positive (.inr none), shares, some,
        priced, enoughA, enoughB, rfl, rfl⟩
  · rintro ⟨positiveA, positiveB, shares, some, priced, enoughA, enoughB, rfl, rfl⟩
    refine accepts_bind.mpr ⟨pool, state, accepts_load.mpr ⟨stored, rfl⟩, ?_⟩
    rw [if_neg (by rintro (none | none) <;> contradiction)]
    refine accepts_bind.mpr ⟨shares, state, priced, ?_⟩
    rw [if_neg some]
    refine accepts_bind.mpr ⟨(), _, TokenPrism.accepts_debit.mpr ⟨enoughA, rfl⟩, ?_⟩
    refine accepts_bind.mpr ⟨(), _, TokenPrism.accepts_debit.mpr ⟨enoughB, rfl⟩, ?_⟩
    exact accepts_bind.mpr ⟨(), _, accepts_modify.mpr rfl, accepts_pure.mpr ⟨rfl, rfl⟩⟩

theorem accepts_withdrawal (stored : state.getJson Pool (key id) = .ok (some pool)) :
    Accepts (removeLiquidity command id shares) state output after ↔
      shares ≠ 0 ∧ shares ≤ holding pool command.submitter ∧ pool.totalShares ≠ 0 ∧
      ∃ paid last,
        Accepts (TokenPrism.credit pool.tokenA command.submitter
          (quotient pool.reserveA shares pool.totalShares)) state () paid ∧
        Accepts (TokenPrism.credit pool.tokenB command.submitter
          (quotient pool.reserveB shares pool.totalShares)) paid () last ∧
        output = .single (event command (.liquidityRemoved id command.submitter
          (quotient pool.reserveA shares pool.totalShares)
          (quotient pool.reserveB shares pool.totalShares))) 2500 ∧
        after = last.putJson (key pool.id) (withdrawn pool command.submitter shares
          (quotient pool.reserveA shares pool.totalShares)
          (quotient pool.reserveB shares pool.totalShares)) := by
  unfold removeLiquidity save withdrawn holding held quotient
  constructor
  · intro accepted
    simp only [accepts_bind, accepts_load, accepts_ite, accepts_throw, accepts_modify, accepts_pure,
      U128.accepts_divide] at accepted
    obtain ⟨found, _, ⟨read, rfl⟩, ⟨_, _, _, impossible, _⟩ | ⟨enough, _, _, ⟨shared, rfl, rfl⟩,
      _, _, ⟨_, rfl, rfl⟩, _, paid, first, _, last, second, _, _, rfl, rfl, rfl⟩⟩ := accepted
    · cases impossible
    · rw [stored] at read
      cases read
      exact ⟨fun none => enough (.inl none), not_lt.mp fun below => enough (.inr below), shared,
        paid, last, first, second, rfl, rfl⟩
  · rintro ⟨positive, enough, shared, paid, last, first, second, rfl, rfl⟩
    refine accepts_bind.mpr ⟨pool, state, accepts_load.mpr ⟨stored, rfl⟩, ?_⟩
    rw [if_neg (by rintro (none | below); exacts [positive none, absurd below (not_lt.mpr enough)])]
    refine accepts_bind.mpr ⟨_, state, U128.accepts_divide.mpr ⟨shared, rfl, rfl⟩, ?_⟩
    refine accepts_bind.mpr ⟨_, state, U128.accepts_divide.mpr ⟨shared, rfl, rfl⟩, ?_⟩
    refine accepts_bind.mpr ⟨(), paid, first, ?_⟩
    refine accepts_bind.mpr ⟨(), last, second, ?_⟩
    exact accepts_bind.mpr ⟨(), _, accepts_modify.mpr rfl, accepts_pure.mpr ⟨rfl, rfl⟩⟩

end Operations

/-! ### The sum of the shares -/

section Sums

open Std (ExtTreeMap)

/-- The shares of all providers together. -/
noncomputable def together (shares : ExtTreeMap String U128) : Nat :=
  Total.total fun name => (held shares name).val

theorem shares_finite (shares : ExtTreeMap String U128) :
    (Function.support fun name => (held shares name).val).Finite := by
  apply (shares.keys.toFinset : Finset String).finite_toSet.subset
  intro name nonzero
  rw [Finset.mem_coe, List.mem_toFinset, ExtTreeMap.mem_keys]
  by_contra absent
  have missing : shares[name]? = none := ExtTreeMap.getElem?_eq_none absent
  rw [Function.mem_support, held, missing] at nonzero
  exact nonzero rfl

theorem together_empty : together ∅ = 0 := by
  unfold together held
  simp only [ExtTreeMap.getElem?_empty, Option.getD_none]
  exact Total.total_zero

theorem le_together (shares : ExtTreeMap String U128) (name : String) :
    (held shares name).val ≤ together shares :=
  Total.le_total (shares_finite shares) name

/-- Replacing the shares of one provider. -/
theorem together_replace {shares updated : ExtTreeMap String U128} {name : String} {value : U128}
    (own : held updated name = value)
    (others : ∀ other, other ≠ name → updated[other]? = shares[other]?) :
    together updated + (held shares name).val = together shares + value.val := by
  have written : (fun other => (held updated other).val) =
      Function.update (fun other => (held shares other).val) name value.val := by
    funext other
    by_cases same : other = name
    · rw [same, Function.update_self, own]
    · rw [Function.update_of_ne same, held, held, others other same]
  unfold together
  rw [written]
  exact Total.total_update (shares_finite shares) name value.val

theorem together_insert (shares : ExtTreeMap String U128) (name : String) (value : U128) :
    together (shares.insert name value) + (held shares name).val =
      together shares + value.val := by
  apply together_replace
  · rw [held, ExtTreeMap.getElem?_insert_self, Option.getD_some]
  · intro other different
    rw [ExtTreeMap.getElem?_insert, if_neg]
    exact fun same => different (Std.LawfulEqCmp.eq_of_compare same).symm

theorem together_erase (shares : ExtTreeMap String U128) (name : String) :
    together (shares.erase name) + (held shares name).val = together shares := by
  apply @together_replace _ _ _ 0
  · rw [held, ExtTreeMap.getElem?_erase_self, Option.getD_none]
  · intro other different
    rw [ExtTreeMap.getElem?_erase, if_neg]
    exact fun same => different (Std.LawfulEqCmp.eq_of_compare same).symm

/-- The recorded total is what the providers hold together. -/
def Balanced (pool : Pool) : Prop := pool.totalShares.val = together pool.shares

theorem Balanced.holding_le {pool : Pool} (balanced : Balanced pool) (who : PartyId) :
    (holding pool who).val ≤ pool.totalShares.val := by
  rw [balanced]
  exact le_together pool.shares who.name

/-- A withdrawal lowers both sides by the shares that are given up. -/
theorem Balanced.withdrawn {pool : Pool} (balanced : Balanced pool) {who : PartyId}
    {shares : U128} (enough : shares ≤ holding pool who) (amountA amountB : U128) :
    Balanced (withdrawn pool who shares amountA amountB) := by
  have bound := balanced.holding_le who
  have covered : shares.val ≤ (holding pool who).val := enough
  have rest : (holding pool who - shares).val = (holding pool who).val - shares.val :=
    Fin.sub_val_of_le enough
  unfold Balanced at balanced ⊢
  unfold DexPrism.withdrawn
  dsimp only
  rw [U128.saturatingSub_val]
  by_cases none : holding pool who - shares = 0
  · have erased := together_erase pool.shares who.name
    have nothing := congrArg Fin.val none
    rw [if_pos none]
    change _ + (holding pool who).val = _ at erased
    rw [rest] at nothing
    change (holding pool who).val - shares.val = 0 at nothing
    omega
  · have inserted := together_insert pool.shares who.name (holding pool who - shares)
    rw [if_neg none]
    change _ + (holding pool who).val = _ at inserted
    omega

/-- A deposit keeps the two equal if the total has room, or if one provider holds it all. -/
theorem balanced_deposited_iff {pool : Pool} (balanced : Balanced pool) (who : PartyId)
    (amountA amountB shares : U128) :
    Balanced (deposited pool who amountA amountB shares) ↔
      pool.totalShares.val + shares.val ≤ U128.largest ∨
        holding pool who = pool.totalShares := by
  have bound := balanced.holding_le who
  have inserted := together_insert pool.shares who.name ((holding pool who).saturatingAdd shares)
  change _ + (holding pool who).val = _ at inserted
  have total := pool.totalShares.val_le_largest
  rw [Fin.ext_iff]
  unfold Balanced at balanced ⊢
  unfold deposited
  rw [U128.saturatingAdd_val] at inserted
  dsimp only
  rw [U128.saturatingAdd_val]
  unfold U128.largest at total ⊢
  omega

end Sums

/-! ### Exact conversions -/

section Conversions

variable {pool : Pool} {amountA amountB shares : U128}

/-- What a share of the whole stands for over unbounded numbers. -/
def portion (whole share total : U128) : Nat := whole.val * share.val / total.val

/-- The shares that a deposit earns over unbounded numbers. -/
def earned (pool : Pool) (amountA amountB : U128) : Nat :=
  min (portion amountA pool.totalShares pool.reserveA)
    (portion amountB pool.totalShares pool.reserveB)

/-- Both portions of a withdrawal, multiplied back, are amounts. -/
def Divisible (pool : Pool) (shares : U128) : Prop :=
  portion pool.reserveA shares pool.totalShares * pool.totalShares.val ≤ U128.largest ∧
    portion pool.reserveB shares pool.totalShares * pool.totalShares.val ≤ U128.largest

/-- The earned shares, multiplied back, are amounts, and the total has room for them. -/
def Mintable (pool : Pool) (amountA amountB : U128) : Prop :=
  earned pool amountA amountB * pool.reserveA.val ≤ U128.largest ∧
    earned pool amountA amountB * pool.reserveB.val ≤ U128.largest ∧
    pool.totalShares.val + earned pool amountA amountB ≤ U128.largest

instance : Decidable (Divisible pool shares) := inferInstanceAs (Decidable (_ ∧ _))

instance : Decidable (Mintable pool amountA amountB) := inferInstanceAs (Decidable (_ ∧ _))

theorem quotient_exact_iff {whole share total : U128} (shared : total ≠ 0) :
    (quotient whole share total).val = portion whole share total ↔
      portion whole share total * total.val ≤ U128.largest :=
  Capped.min_div_eq_iff_mul_le (U128.pos_iff.mp shared)

variable {state after : StateTree}

theorem accepts_minted_shared (shared : pool.totalShares ≠ 0)
    (accepted : Accepts (minted pool amountA amountB) state shares after) :
    pool.reserveA ≠ 0 ∧ pool.reserveB ≠ 0 ∧
      shares = min (quotient amountA pool.totalShares pool.reserveA)
        (quotient amountB pool.totalShares pool.reserveB) := by
  unfold minted at accepted
  rw [if_neg shared] at accepted
  obtain ⟨byA, _, first, accepted⟩ := accepts_bind.mp accepted
  obtain ⟨stockedA, rfl, rfl⟩ := U128.accepts_divide.mp first
  obtain ⟨byB, _, second, accepted⟩ := accepts_bind.mp accepted
  obtain ⟨stockedB, rfl, rfl⟩ := U128.accepts_divide.mp second
  exact ⟨stockedA, stockedB, (accepts_pure.mp accepted).1.symm⟩

theorem minted_val (same : shares = min (quotient amountA pool.totalShares pool.reserveA)
    (quotient amountB pool.totalShares pool.reserveB)) :
    shares.val = min (min (amountA.val * pool.totalShares.val) U128.largest / pool.reserveA.val)
      (min (amountB.val * pool.totalShares.val) U128.largest / pool.reserveB.val) := by
  rw [same, ← quotient_val, ← quotient_val]
  exact Fin.coe_min _ _

theorem minted_exact_iff (shared : pool.totalShares ≠ 0)
    (accepted : Accepts (minted pool amountA amountB) state shares after) :
    shares.val = earned pool amountA amountB ↔
      earned pool amountA amountB * pool.reserveA.val ≤ U128.largest ∧
        earned pool amountA amountB * pool.reserveB.val ≤ U128.largest := by
  obtain ⟨stockedA, stockedB, same⟩ := accepts_minted_shared shared accepted
  rw [minted_val same]
  exact Capped.min_min_div_eq_iff (U128.pos_iff.mp stockedA) (U128.pos_iff.mp stockedB)

/-- The first deposit is worth the root of its product. -/
theorem accepts_minted_first (empty : pool.totalShares = 0)
    (accepted : Accepts (minted pool amountA amountB) state shares after) :
    shares.val = Nat.sqrt (amountA.val * amountB.val) := by
  have value := U128.saturatingMul_val amountA amountB
  unfold minted at accepted
  rw [if_pos empty] at accepted
  by_cases large : 2 ^ 128 - 1 ≤ amountA.val * amountB.val
  · rw [Nat.min_eq_right large] at value
    rw [isqrt_max value] at accepted
    exact absurd accepted accepts_throw
  · rw [Nat.min_eq_left (Nat.le_of_not_le large)] at value
    obtain ⟨root, found, below, above⟩ := @isqrt_eq (amountA.saturatingMul amountB) (by omega)
    rw [found] at accepted
    obtain ⟨rfl, _⟩ := accepts_pure.mp accepted
    rw [value] at below above
    exact Nat.eq_sqrt.mpr ⟨below, above⟩

end Conversions

/-! ### Withdrawals and deposits -/

section Steps

variable [SerdeJson] [Blake3] {state after : StateTree} {command : Command} {id : Hash}
  {output : PrismOutput} {pool : Pool} {amountA amountB shares : U128}

/-- A withdrawal pays an amount of each token to the provider. -/
structure Pays (command : Command) (id : Hash) (pool : Pool) (shares : U128) (state : StateTree)
    (output : PrismOutput) (after : StateTree) (amountA amountB : U128) : Prop where
  emitted : output = .single (event command
    (.liquidityRemoved id command.submitter amountA amountB)) 2500
  credited : ∃ paid last, Credited state paid pool.tokenA command.submitter amountA ∧
    Credited paid last pool.tokenB command.submitter amountB ∧
    after = last.putJson (key pool.id) (withdrawn pool command.submitter shares amountA amountB)

theorem Pays.unique {otherA otherB : U128}
    (pays : Pays command id pool shares state output after amountA amountB)
    (others : Pays command id pool shares state output after otherA otherB) :
    amountA = otherA ∧ amountB = otherB := by
  have same := pays.emitted.symm.trans others.emitted
  have payloads := congrArg Event.payload (List.cons.inj (PrismOutput.mk.inj same).1).1
  exact (DexEvent.liquidityRemoved.inj (toVec_injective payloads)).2.2

theorem pays_of_accepts (stored : state.getJson Pool (key id) = .ok (some pool))
    (accepted : Accepts (removeLiquidity command id shares) state output after) :
    Pays command id pool shares state output after
      (quotient pool.reserveA shares pool.totalShares)
      (quotient pool.reserveB shares pool.totalShares) := by
  obtain ⟨_, _, _, paid, last, first, second, rfl, rfl⟩ := (accepts_withdrawal stored).mp accepted
  exact ⟨rfl, paid, last, (TokenPrism.credited_of_accepts first).2,
    (TokenPrism.credited_of_accepts second).2, rfl⟩

/-- An accepted withdrawal that pays the portions its shares stand for. -/
def WithdrawsExactly (command : Command) (id : Hash) (pool : Pool) (shares : U128)
    (state : StateTree) (output : PrismOutput) (after : StateTree) : Prop :=
  ∃ amountA amountB, Pays command id pool shares state output after amountA amountB ∧
    amountA.val = portion pool.reserveA shares pool.totalShares ∧
    amountB.val = portion pool.reserveB shares pool.totalShares

theorem withdraws_exactly_iff (stored : state.getJson Pool (key id) = .ok (some pool))
    (accepted : Accepts (removeLiquidity command id shares) state output after) :
    WithdrawsExactly command id pool shares state output after ↔ Divisible pool shares := by
  have pays := pays_of_accepts stored accepted
  obtain ⟨_, _, shared, _⟩ := (accepts_withdrawal stored).mp accepted
  unfold Divisible
  rw [← quotient_exact_iff shared, ← quotient_exact_iff shared]
  constructor
  · rintro ⟨amountA, amountB, others, exactA, exactB⟩
    obtain ⟨rfl, rfl⟩ := pays.unique others
    exact ⟨exactA, exactB⟩
  · rintro ⟨exactA, exactB⟩
    exact ⟨_, _, pays, exactA, exactB⟩

/-- An accepted deposit that mints the earned shares to the provider, and leaves the recorded
total equal to what the providers hold. -/
def DepositsExactly (command : Command) (id : Hash) (pool : Pool) (amountA amountB : U128)
    (output : PrismOutput) (after : StateTree) : Prop :=
  ∃ shares updated,
    output = .single (event command (.liquidityAdded id command.submitter shares)) 3000 ∧
    after.getJson Pool (key pool.id) = .ok (some updated) ∧
    shares.val = earned pool amountA amountB ∧
    (holding updated command.submitter).val =
      (holding pool command.submitter).val + earned pool amountA amountB ∧
    Balanced updated

omit [SerdeJson] [Blake3] in
theorem holding_deposited (pool : Pool) (who : PartyId) (amountA amountB shares : U128) :
    holding (deposited pool who amountA amountB shares) who =
      (holding pool who).saturatingAdd shares := by
  unfold holding held deposited
  rw [Std.ExtTreeMap.getElem?_insert_self, Option.getD_some]
  rfl

theorem deposits_exactly_iff (stored : state.getJson Pool (key id) = .ok (some pool))
    (shared : pool.totalShares ≠ 0) (balanced : Balanced pool)
    (accepted : Accepts (addLiquidity command id amountA amountB) state output after) :
    DepositsExactly command id pool amountA amountB output after ↔
      Mintable pool amountA amountB := by
  obtain ⟨_, _, shares, _, priced, _, _, rfl, rfl⟩ := (accepts_deposit stored).mp accepted
  have exact := minted_exact_iff shared priced
  have sums := balanced_deposited_iff balanced command.submitter amountA amountB shares
  have grown := holding_deposited pool command.submitter amountA amountB shares
  have bound := balanced.holding_le command.submitter
  have total := pool.totalShares.val_le_largest
  unfold Mintable
  constructor
  · rintro ⟨_, updated, emitted, read, minted, gained, kept⟩
    have payloads := congrArg Event.payload (List.cons.inj (PrismOutput.mk.inj emitted).1).1
    obtain ⟨_, _, rfl⟩ := DexEvent.liquidityAdded.inj (toVec_injective payloads)
    rw [StateTree.getJson_putJson] at read
    cases read
    obtain ⟨dividesA, dividesB⟩ := exact.mp minted
    refine ⟨dividesA, dividesB, ?_⟩
    rw [grown, U128.saturatingAdd_val] at gained
    unfold U128.largest at total ⊢
    rcases sums.mp kept with room | whole
    · unfold U128.largest at room
      omega
    · rw [whole] at gained
      omega
  · rintro ⟨dividesA, dividesB, room⟩
    have minted := exact.mpr ⟨dividesA, dividesB⟩
    refine ⟨shares, _, rfl, StateTree.getJson_putJson _ _ _, minted, ?_, ?_⟩
    · rw [grown, U128.saturatingAdd_val, minted]
      unfold U128.largest at room
      omega
    · rw [← minted] at room
      exact sums.mpr (.inl room)

end Steps

/-! ### Runs -/

section Runs

variable [SerdeJson] {state after : StateTree}

/-- Every pool is stored under its own name, and its total is what its providers hold. -/
structure Sound (state : StateTree) : Prop where
  keyed : Keyed state
  balanced : ∀ id pool, state.getJson? Pool (key id) = some pool → Balanced pool

theorem Sound.congr (sound : Sound state) (same : ∀ id, after.get (key id) = state.get (key id)) :
    Sound after := by
  refine ⟨sound.keyed.congr same, ?_⟩
  intro id pool stored
  apply sound.balanced id pool
  simpa only [StateTree.getJson?, StateTree.getJson, same id] using stored

theorem Sound.save (sound : Sound state) {pool : Pool} (balanced : Balanced pool) :
    Sound (state.putJson (key pool.id) pool) := by
  refine ⟨sound.keyed.save pool, ?_⟩
  intro id other stored
  by_cases same : pool.id = id
  · rw [← same, StateTree.getJson?_putJson] at stored
    rw [← Option.some.inj stored]
    exact balanced
  · unfold StateTree.putJson at stored
    rw [StateTree.getJson?_put_ne state _ fun equal => same (key_injective equal)] at stored
    exact sound.balanced id other stored

theorem Sound.read (sound : Sound state) {id : Hash} {pool : Pool}
    (stored : state.getJson Pool (key id) = .ok (some pool)) : Balanced pool := by
  apply sound.balanced id pool
  unfold StateTree.getJson?
  rw [stored]

variable {token : Hash} {who : PartyId} {amount : U128}

theorem Sound.debited (sound : Sound state) : Sound (debited state token who amount) :=
  sound.congr fun id => TokenPrism.get_head_withBalance state id.toHex (by decide) _ _ _

theorem Sound.credited (sound : Sound state) (credited : Credited state after token who amount) :
    Sound after :=
  sound.congr fun id => credited.elsewhere id.toHex (by decide) (by decide)

variable [Blake3] {command : Command} {output : PrismOutput} {id : Hash} {amountA amountB : U128}

/-- A deposit that is computed exactly, or the first one, leaves the sum right. -/
theorem addLiquidity_sound (sound : Sound state)
    (mintable : ∀ pool, state.getJson Pool (key id) = .ok (some pool) → pool.totalShares ≠ 0 →
      Mintable pool amountA amountB)
    (accepted : Accepts (addLiquidity command id amountA amountB) state output after) :
    Sound after := by
  obtain ⟨pool, _, stored, _⟩ := accepts_addLiquidity accepted
  obtain ⟨_, _, shares, _, priced, _, _, _, rfl⟩ := (accepts_deposit stored).mp accepted
  have kept : Balanced (deposited pool command.submitter amountA amountB shares) := by
    rw [balanced_deposited_iff (sound.read stored)]
    left
    by_cases empty : pool.totalShares = 0
    · rw [empty]
      have bound := shares.val_le_largest
      change 0 + _ ≤ _
      omega
    · obtain ⟨dividesA, dividesB, room⟩ := mintable pool stored empty
      rw [(minted_exact_iff empty priced).mpr ⟨dividesA, dividesB⟩]
      exact room
  exact sound.debited.debited.save kept

theorem removeLiquidity_sound (sound : Sound state) {shares : U128}
    (accepted : Accepts (removeLiquidity command id shares) state output after) : Sound after := by
  obtain ⟨pool, _, loaded, _⟩ := accepts_bind.mp accepted
  obtain ⟨stored, _⟩ := accepts_load.mp loaded
  obtain ⟨_, enough, _, paid, last, first, second, _, rfl⟩ := (accepts_withdrawal stored).mp accepted
  have credits := (sound.credited (TokenPrism.credited_of_accepts first).2).credited
    (TokenPrism.credited_of_accepts second).2
  exact credits.save ((sound.read stored).withdrawn enough _ _)

theorem swap_sound (sound : Sound state) {tokenIn : Hash} {amountIn minOut : U128}
    (accepted : Accepts (swap command id tokenIn amountIn minOut) state output after) :
    Sound after := by
  obtain ⟨pool, _, loaded, _⟩ := accepts_bind.mp accepted
  obtain ⟨stored, _⟩ := accepts_load.mp loaded
  obtain ⟨_, _, amountOut, _, last, _, _, _, paid, received, _, rfl⟩ := accepts_swap stored accepted
  obtain ⟨_, rfl⟩ := TokenPrism.accepts_debit.mp paid
  have kept : Balanced (swapped pool tokenIn amountIn amountOut) := by
    have balanced := sound.read stored
    unfold swapped Balanced
    split_ifs <;> exact balanced
  have named : (swapped pool tokenIn amountIn amountOut).id = pool.id := by
    unfold swapped
    split_ifs <;> rfl
  rw [← named]
  exact (sound.debited.credited (TokenPrism.credited_of_accepts received).2).save kept

theorem createPool_sound (sound : Sound state) {first second : Hash}
    (accepted : Accepts (createPool command first second) state output after) : Sound after := by
  obtain ⟨pool, _, _, _, total, shares, rfl⟩ := accepts_createPool accepted
  apply sound.save
  unfold Balanced
  rw [total, shares, together_empty]
  rfl

/-- A command reaches the prism, or the chain moves on to a later state. -/
inductive Move where
  | command (command : Command)
  | elapse (later : StateTree)

def advance (state : StateTree) : Move → StateTree
  | .command command => prism.step state command
  | .elapse later => later

/-- A deposit into a pool with shares mints what it earns, and outside the prism the pools
stay. -/
def Permitted (state : StateTree) : Move → Prop
  | .command command => ∀ id amountA amountB pool,
      fromSlice DexCommand command.payload = .ok (.addLiquidity id amountA amountB) →
      state.getJson Pool (key id) = .ok (some pool) → pool.totalShares ≠ 0 →
      Mintable pool amountA amountB
  | .elapse later => ∀ id, later.get (key id) = state.get (key id)

theorem handle_sound (sound : Sound state) (permitted : Permitted state (.command command))
    (accepted : Accepts (handle command) state output after) : Sound after := by
  obtain ⟨operation, parsed, executed⟩ := accepts_handle accepted
  cases operation with
  | createPool first second => exact createPool_sound sound executed
  | addLiquidity id amountA amountB =>
      refine addLiquidity_sound sound ?_ executed
      exact fun pool stored shared => permitted id amountA amountB pool parsed stored shared
  | removeLiquidity id shares => exact removeLiquidity_sound sound executed
  | swap id tokenIn amountIn minOut => exact swap_sound sound executed

theorem advance_sound {move : Move} (sound : Sound state) (permitted : Permitted state move) :
    Sound (advance state move) := by
  cases move with
  | elapse later => exact sound.congr permitted
  | command command =>
      unfold advance Prism.step
      dsimp only
      cases handled : (prism.handle command).run.run state with
      | mk outcome after =>
          cases outcome with
          | error error => exact sound
          | ok output => exact handle_sound sound permitted handled

/-- Along permitted moves every pool stays sound. -/
theorem run_sound {start : StateTree} {moves : List Move} (sound : Sound start)
    (permitted : Run.Along advance Permitted start moves) : Sound (Run.run advance start moves) :=
  Run.invariant advance (fun _ _ kept allowed => advance_sound kept allowed) sound permitted

end Runs

end DexPrism

end Veilux
