/-
The first provider of a pool in `prisms/dex/src/lib.rs`, and when the shares of a pool are pro
rata: in withdrawals, in deposits, along every run and for a provider that leaves.
-/

import Veilux.Prism.DexShares

namespace Veilux

open PrismM

namespace DexPrism

open TokenPrism (balance debited Credited)

/-! ### The first provider -/

section First

variable [SerdeJson] [Blake3] {state middle later after : StateTree} {first second : Command}
  {id : Hash} {paid output : PrismOutput} {pool joined : Pool} {amountA amountB : U128}

/-- A pool as it is created. -/
structure Empty (pool : Pool) : Prop where
  reserveA : pool.reserveA = 0
  reserveB : pool.reserveB = 0
  totalShares : pool.totalShares = 0
  shares : pool.shares = ∅

omit [SerdeJson] [Blake3] in
theorem Empty.holding (empty : Empty pool) (who : PartyId) : holding pool who = 0 := by
  unfold DexPrism.holding held
  rw [empty.shares, Std.ExtTreeMap.getElem?_empty, Option.getD_none]

omit [SerdeJson] [Blake3] in
theorem Empty.balanced (empty : Empty pool) : Balanced pool := by
  unfold Balanced
  rw [empty.totalShares, empty.shares, together_empty]
  rfl

/-- Both amounts come back, and the reserves they leave are empty. -/
def Refunds (command : Command) (id : Hash) (joined : Pool) (amountA amountB : U128)
    (state : StateTree) (output : PrismOutput) (after : StateTree) : Prop :=
  Pays command id joined (holding joined command.submitter) state output after amountA amountB ∧
    ∃ updated, after.getJson Pool (key joined.id) = .ok (some updated) ∧
      updated.reserveA = 0 ∧ updated.reserveB = 0

omit [SerdeJson] [Blake3] in
theorem zero_saturatingAdd (amount : U128) : (0 : U128).saturatingAdd amount = amount := by
  have bound := amount.val_le_largest
  unfold U128.largest at bound
  apply Fin.ext
  rw [U128.saturatingAdd_val]
  change min (0 + _) _ = _
  omega

/-- After the first deposit the reserves are its amounts, and its provider holds their root. -/
theorem first_deposit (stored : state.getJson Pool (key id) = .ok (some pool)) (empty : Empty pool)
    (accepted : Accepts (addLiquidity first id amountA amountB) state paid middle)
    (read : middle.getJson Pool (key pool.id) = .ok (some joined)) :
    joined.id = pool.id ∧ joined.reserveA = amountA ∧ joined.reserveB = amountB ∧
      joined.totalShares = holding joined first.submitter ∧
      joined.totalShares.val = Nat.sqrt (amountA.val * amountB.val) := by
  obtain ⟨_, _, shares, _, priced, _, _, _, rfl⟩ := (accepts_deposit stored).mp accepted
  have root := accepts_minted_first empty.totalShares priced
  rw [StateTree.getJson_putJson] at read
  cases read
  rw [holding_deposited, empty.holding, zero_saturatingAdd]
  unfold deposited
  dsimp only
  rw [empty.reserveA, empty.reserveB, empty.totalShares]
  simp only [zero_saturatingAdd, root, and_self]

/-- The sole provider gives up all shares: what comes back is what was deposited as long as
neither product with the root is cut. -/
theorem refunds_iff (stored : state.getJson Pool (key id) = .ok (some pool)) (empty : Empty pool)
    (deposit : Accepts (addLiquidity first id amountA amountB) state paid middle)
    (read : middle.getJson Pool (key pool.id) = .ok (some joined))
    (same : later.getJson Pool (key id) = .ok (some joined))
    (sent : second.submitter = first.submitter)
    (withdrawal : Accepts (removeLiquidity second id (holding joined second.submitter)) later output
      after) :
    Refunds second id joined amountA amountB later output after ↔
      amountA.val * Nat.sqrt (amountA.val * amountB.val) ≤ U128.largest ∧
        amountB.val * Nat.sqrt (amountA.val * amountB.val) ≤ U128.largest := by
  obtain ⟨_, reserveA, reserveB, total, root⟩ := first_deposit stored empty deposit read
  have pays := pays_of_accepts same withdrawal
  obtain ⟨_, _, shared, _⟩ := (accepts_withdrawal same).mp withdrawal
  rw [← sent] at total
  have whole : ∀ amount : U128, portion amount joined.totalShares joined.totalShares = amount.val :=
    fun amount => Nat.mul_div_cancel _ (U128.pos_iff.mp shared)
  have exact : ∀ amount : U128, quotient amount joined.totalShares joined.totalShares = amount ↔
      amount.val * Nat.sqrt (amountA.val * amountB.val) ≤ U128.largest := by
    intro amount
    have divides := @quotient_exact_iff amount joined.totalShares joined.totalShares shared
    rw [whole, root] at divides
    rw [← divides, Fin.ext_iff]
  unfold Refunds
  rw [← total] at pays ⊢
  rw [reserveA, reserveB] at pays
  rw [← exact, ← exact]
  constructor
  · rintro ⟨refunded, _⟩
    exact pays.unique refunded
  · rintro ⟨exactA, exactB⟩
    rw [exactA, exactB] at pays
    refine ⟨pays, ?_⟩
    obtain ⟨_, last, _, _, rfl⟩ := pays.credited
    refine ⟨_, StateTree.getJson_putJson _ _ _, ?_, ?_⟩
    · change joined.reserveA.saturatingSub amountA = 0
      rw [reserveA]
      exact Fin.ext (Nat.sub_self _)
    · change joined.reserveB.saturatingSub amountB = 0
      rw [reserveB]
      exact Fin.ext (Nat.sub_self _)

/-- Liquidity is pro rata exactly where no quotient is cut: withdrawals, deposits, the sum of
the shares along a run, and the refund of a sole provider. -/
theorem liquidity_pro_rata_iff :
    (∀ (command : Command) (id : Hash) (pool : Pool) (shares : U128) (state after : StateTree)
        (output : PrismOutput), state.getJson Pool (key id) = .ok (some pool) →
      Accepts (removeLiquidity command id shares) state output after →
      (WithdrawsExactly command id pool shares state output after ↔ Divisible pool shares)) ∧
    (∀ (command : Command) (id : Hash) (pool : Pool) (amountA amountB : U128)
        (state after : StateTree) (output : PrismOutput),
      state.getJson Pool (key id) = .ok (some pool) → pool.totalShares ≠ 0 → Balanced pool →
      Accepts (addLiquidity command id amountA amountB) state output after →
      (DepositsExactly command id pool amountA amountB output after ↔
        Mintable pool amountA amountB)) ∧
    (∀ (start : StateTree) (moves : List Move), Sound start →
      Run.Along advance Permitted start moves → Sound (Run.run advance start moves)) ∧
    ∀ (first second : Command) (id : Hash) (pool joined : Pool) (amountA amountB : U128)
        (state middle later after : StateTree) (paid output : PrismOutput),
      state.getJson Pool (key id) = .ok (some pool) → Empty pool →
      Accepts (addLiquidity first id amountA amountB) state paid middle →
      middle.getJson Pool (key pool.id) = .ok (some joined) →
      later.getJson Pool (key id) = .ok (some joined) → second.submitter = first.submitter →
      Accepts (removeLiquidity second id (holding joined second.submitter)) later output after →
      (Refunds second id joined amountA amountB later output after ↔
        amountA.val * Nat.sqrt (amountA.val * amountB.val) ≤ U128.largest ∧
          amountB.val * Nat.sqrt (amountA.val * amountB.val) ≤ U128.largest) := by
  refine ⟨?_, ?_, ?_, ?_⟩
  · intro command id pool shares state after output stored accepted
    exact withdraws_exactly_iff stored accepted
  · intro command id pool amountA amountB state after output stored shared balanced accepted
    exact deposits_exactly_iff stored shared balanced accepted
  · intro start moves sound permitted
    exact run_sound sound permitted
  · intro first second id pool joined amountA amountB state middle later after paid output stored
      empty deposit read same sent withdrawal
    exact refunds_iff stored empty deposit read same sent withdrawal

end First

/-! ### A provider beside a pool -/

section Provider

open TokenPrism (withBalance)

variable [SerdeJson] {state : StateTree} {pool : Pool} {amountA amountB shares : U128}

/-- A pool beside a provider who holds both its tokens. -/
def stocked (pool : Pool) (amountA amountB : U128) : StateTree :=
  (withBalance (withBalance .empty pool.tokenA trader amountA) pool.tokenB trader
    amountB).putJson (key pool.id) pool

theorem stocked_read : (stocked pool amountA amountB).getJson Pool (key pool.id) =
    .ok (some pool) :=
  StateTree.getJson_putJson _ _ _

theorem balance_saved (state : StateTree) (id : Hash) (pool : Pool) (token : Hash)
    (who : PartyId) : balance (state.putJson (key id) pool) token who = balance state token who :=
  TokenPrism.balance_put_head state id.toHex _ (by decide) token who

theorem balance_stocked (different : pool.tokenA ≠ pool.tokenB) :
    balance (stocked pool amountA amountB) pool.tokenA trader = amountA ∧
      balance (stocked pool amountA amountB) pool.tokenB trader = amountB := by
  unfold stocked
  rw [balance_saved, balance_saved, TokenPrism.balance_withBalance_self,
    TokenPrism.balance_withBalance_ne _ _ (.inr different.symm),
    TokenPrism.balance_withBalance_self]
  exact ⟨rfl, rfl⟩

theorem sound_stocked (balanced : Balanced pool) : Sound (stocked pool amountA amountB) := by
  have empty : Sound StateTree.empty := by
    constructor
    · intro id other stored
      cases stored
    · intro id other stored
      cases stored
  have held : Sound (withBalance (withBalance .empty pool.tokenA trader amountA) pool.tokenB trader
      amountB) := by
    refine empty.congr fun id => ?_
    exact (TokenPrism.get_head_withBalance _ id.toHex (by decide) _ _ _).trans
      (TokenPrism.get_head_withBalance _ id.toHex (by decide) _ _ _)
  exact held.save balanced

omit [SerdeJson] in
theorem minted_first (empty : pool.totalShares = 0)
    (room : amountA.val * amountB.val < 2 ^ 128 - 1) :
    ∃ shares, Accepts (minted pool amountA amountB) state shares state ∧
      shares.val = Nat.sqrt (amountA.val * amountB.val) := by
  have value := U128.saturatingMul_val amountA amountB
  rw [Nat.min_eq_left room.le] at value
  obtain ⟨root, found, _, _⟩ := @isqrt_eq (amountA.saturatingMul amountB) (by omega)
  have priced : Accepts (minted pool amountA amountB) state root state := by
    unfold minted
    rw [if_pos empty, found]
    exact accepts_pure.mpr ⟨rfl, rfl⟩
  exact ⟨root, priced, accepts_minted_first empty priced⟩

omit [SerdeJson] in
theorem minted_shared (shared : pool.totalShares ≠ 0) (stockedA : pool.reserveA ≠ 0)
    (stockedB : pool.reserveB ≠ 0) :
    Accepts (minted pool amountA amountB) state
      (min (quotient amountA pool.totalShares pool.reserveA)
        (quotient amountB pool.totalShares pool.reserveB)) state := by
  unfold minted
  rw [if_neg shared]
  refine accepts_bind.mpr ⟨_, state, U128.accepts_divide.mpr ⟨stockedA, rfl, rfl⟩, ?_⟩
  refine accepts_bind.mpr ⟨_, state, U128.accepts_divide.mpr ⟨stockedB, rfl, rfl⟩, ?_⟩
  exact accepts_pure.mpr ⟨rfl, rfl⟩

variable [Blake3] {command : Command}

/-- The provider deposits all it holds. -/
theorem deposit_stocked (different : pool.tokenA ≠ pool.tokenB) (positiveA : amountA ≠ 0)
    (positiveB : amountB ≠ 0) (priced : Accepts (minted pool amountA amountB)
      (stocked pool amountA amountB) shares (stocked pool amountA amountB)) (nonzero : shares ≠ 0)
    (sent : command.submitter = trader) :
    ∃ output middle, Accepts (addLiquidity command pool.id amountA amountB)
        (stocked pool amountA amountB) output middle ∧
      middle.getJson Pool (key pool.id) =
        .ok (some (deposited pool trader amountA amountB shares)) ∧
      balance middle pool.tokenA trader = 0 ∧ balance middle pool.tokenB trader = 0 := by
  obtain ⟨heldA, heldB⟩ := @balance_stocked _ pool amountA amountB different
  have spared : balance (debited (stocked pool amountA amountB) pool.tokenA trader amountA)
      pool.tokenB trader = amountB := by
    unfold debited
    rw [TokenPrism.balance_withBalance_ne _ _ (.inr different), heldB]
  have enoughA : amountA ≤ balance (stocked pool amountA amountB) pool.tokenA trader := by
    rw [heldA]
  have enoughB : amountB ≤ balance (debited (stocked pool amountA amountB) pool.tokenA trader
      amountA) pool.tokenB trader := by
    rw [spared]
  rw [← sent] at enoughA enoughB
  refine ⟨_, _, (accepts_deposit stocked_read).mpr ⟨positiveA, positiveB, shares, nonzero,
    priced, enoughA, enoughB, rfl, rfl⟩, ?_⟩
  rw [sent]
  refine ⟨StateTree.getJson_putJson _ _ _, ?_, ?_⟩
  · rw [balance_saved, debited, TokenPrism.balance_withBalance_ne _ _ (.inr different.symm),
      debited, TokenPrism.balance_withBalance_self, heldA]
    exact Fin.ext (by simp)
  · rw [balance_saved, debited, TokenPrism.balance_withBalance_self, spared]
    exact Fin.ext (by simp)

/-- A withdrawal fails only where the provider's balances would overflow. -/
theorem withdrawal_accepted {id : Hash} (stored : state.getJson Pool (key id) = .ok (some pool))
    (different : pool.tokenA ≠ pool.tokenB) (positive : shares ≠ 0)
    (enough : shares ≤ holding pool command.submitter) (shared : pool.totalShares ≠ 0)
    (fitsA : (balance state pool.tokenA command.submitter).val +
      (quotient pool.reserveA shares pool.totalShares).val < 2 ^ 128)
    (fitsB : (balance state pool.tokenB command.submitter).val +
      (quotient pool.reserveB shares pool.totalShares).val < 2 ^ 128) :
    ∃ output after, Accepts (removeLiquidity command id shares) state output after := by
  obtain ⟨paid, first⟩ := TokenPrism.credit_accepted fitsA
  have kept := (TokenPrism.credited_of_accepts first).2.others pool.tokenB command.submitter
    (.inl different.symm)
  rw [← kept] at fitsB
  obtain ⟨last, second⟩ := TokenPrism.credit_accepted fitsB
  exact ⟨_, _, (accepts_withdrawal stored).mpr ⟨positive, enough, shared, paid, last, first, second,
    rfl, rfl⟩⟩

/-- A first deposit, the withdrawal of all its shares, and what comes of it. -/
theorem deposited_withdrawn {first : Command} {second : U128 → Command} (empty : Empty pool)
    (different : pool.tokenA ≠ pool.tokenB) (positiveA : amountA ≠ 0) (positiveB : amountB ≠ 0)
    (room : amountA.val * amountB.val < 2 ^ 128 - 1) (deposits : first.submitter = trader)
    (withdraws : ∀ shares, (second shares).submitter = trader) :
    ∃ paid middle joined output after,
      Accepts (addLiquidity first pool.id amountA amountB) (stocked pool amountA amountB) paid
        middle ∧
      middle.getJson Pool (key pool.id) = .ok (some joined) ∧
      Accepts (removeLiquidity (second (holding joined trader)) pool.id (holding joined trader))
        middle output after ∧
      (Refunds (second (holding joined trader)) pool.id joined amountA amountB middle output
        after ↔ amountA.val * Nat.sqrt (amountA.val * amountB.val) ≤ U128.largest ∧
          amountB.val * Nat.sqrt (amountA.val * amountB.val) ≤ U128.largest) := by
  obtain ⟨shares, priced, root⟩ := @minted_first (stocked pool amountA amountB) pool amountA
    amountB empty.totalShares room
  have product := Nat.mul_pos (U128.pos_iff.mp positiveA) (U128.pos_iff.mp positiveB)
  have nonzero : shares ≠ 0 := by
    rw [U128.pos_iff, root]
    exact Nat.sqrt_pos.mpr product
  obtain ⟨paid, middle, deposit, read, noneA, noneB⟩ :=
    deposit_stocked different positiveA positiveB priced nonzero deposits
  have tokenA : (deposited pool trader amountA amountB shares).tokenA = pool.tokenA := rfl
  have tokenB : (deposited pool trader amountA amountB shares).tokenB = pool.tokenB := rfl
  generalize deposited pool trader amountA amountB shares = joined at read tokenA tokenB
  obtain ⟨_, _, _, total, value⟩ := first_deposit stocked_read empty deposit read
  rw [deposits] at total
  have some : holding joined trader ≠ 0 := by
    rw [← total, U128.pos_iff, value]
    exact Nat.sqrt_pos.mpr product
  rw [← tokenA] at noneA different
  rw [← tokenB] at noneB different
  have fits : ∀ {held paid : U128}, held = 0 → held.val + paid.val < 2 ^ 128 := by
    intro held paid none
    rw [none]
    exact (Nat.zero_add _).trans_lt paid.isLt
  have sent := withdraws (holding joined trader)
  obtain ⟨output, after, withdrawal⟩ := @withdrawal_accepted _ middle joined (holding joined trader)
    _ (second (holding joined trader)) pool.id read different some (by rw [sent])
    (by rw [total]; exact some) (by rw [sent]; exact fits noneA) (by rw [sent]; exact fits noneB)
  have refunds := @refunds_iff _ _ _ _ middle after first (second (holding joined trader)) pool.id
    paid output pool joined amountA amountB stocked_read empty deposit read read
    (sent.trans deposits.symm) (by rw [sent]; exact withdrawal)
  exact ⟨paid, middle, joined, output, after, deposit, read, withdrawal, refunds⟩

end Provider

section Fixed

attribute [local instance] SerdeJson.compact Blake3.polynomial

theorem empty_newPool : Empty newPool := ⟨rfl, rfl, rfl, rfl⟩

def depositCommand (amountA amountB : U128) : Command :=
  dexCommand "trader" (.addLiquidity .zero amountA amountB)

def withdrawCommand (shares : U128) : Command :=
  dexCommand "trader" (.removeLiquidity .zero shares)

/-- A first provider of 10^20 units and 10^18 units does not get its deposit back. -/
theorem deposit_kept :
    ∃ paid middle joined output after,
      Accepts (addLiquidity (depositCommand 100000000000000000000 1000000000000000000) .zero
        100000000000000000000 1000000000000000000)
        (stocked newPool 100000000000000000000 1000000000000000000) paid middle ∧
      middle.getJson Pool (key .zero) = .ok (some joined) ∧
      Accepts (removeLiquidity (withdrawCommand (holding joined trader)) .zero
        (holding joined trader)) middle output after ∧
      ¬ Refunds (withdrawCommand (holding joined trader)) .zero joined 100000000000000000000
        1000000000000000000 middle output after := by
  have product : (100000000000000000000 : U128).val * (1000000000000000000 : U128).val =
      10000000000000000000 * 10000000000000000000 := by
    decide
  obtain ⟨paid, middle, joined, output, after, deposit, read, withdrawal, refunds⟩ :=
    @deposited_withdrawn _ newPool 100000000000000000000 1000000000000000000 _
      (depositCommand 100000000000000000000 1000000000000000000) withdrawCommand empty_newPool
      (by decide) (by decide) (by decide) (by decide) rfl fun _ => rfl
  refine ⟨paid, middle, joined, output, after, deposit, read, withdrawal, ?_⟩
  change ¬ Refunds _ newPool.id _ _ _ _ _ _
  rw [refunds, product, Nat.sqrt_eq]
  rintro ⟨fits, _⟩
  exact absurd fits (by decide)

/-- The pool after a first deposit of two units and eight. -/
def sharedPool : Pool := deposited newPool trader 2 8 4

theorem holding_sharedPool : holding sharedPool trader = 4 := by
  unfold sharedPool
  rw [holding_deposited, empty_newPool.holding, zero_saturatingAdd]

theorem balanced_sharedPool : Balanced sharedPool :=
  (balanced_deposited_iff empty_newPool.balanced trader 2 8 4).mpr (.inl (by decide))

theorem withdrawal_shared :
    ∃ output after, Accepts (removeLiquidity (withdrawCommand 2) .zero 2) (stocked sharedPool 1 4)
      output after := by
  have different : sharedPool.tokenA ≠ sharedPool.tokenB := by decide
  obtain ⟨heldA, heldB⟩ := @balance_stocked _ sharedPool 1 4 different
  have sent : (withdrawCommand 2).submitter = trader := rfl
  refine withdrawal_accepted stocked_read different (by decide) ?_ (by decide) ?_ ?_
  · rw [sent, holding_sharedPool]
    decide
  · rw [sent, heldA]
    decide
  · rw [sent, heldB]
    decide

theorem deposit_shared :
    ∃ output after, Accepts (addLiquidity (depositCommand 1 4) .zero 1 4) (stocked sharedPool 1 4)
      output after := by
  have priced := @minted_shared (stocked sharedPool 1 4) sharedPool 1 4 (by decide) (by decide)
    (by decide)
  obtain ⟨output, after, accepted, _⟩ := deposit_stocked (by decide) (by decide) (by decide) priced
    (by decide) (rfl : (depositCommand 1 4).submitter = trader)
  exact ⟨output, after, accepted⟩

theorem parsed_command (submitter : String) (operation : DexCommand) :
    fromSlice DexCommand (dexCommand submitter operation).payload = .ok operation := by
  unfold dexCommand
  exact fromSlice_toVec operation

theorem permitted_shared : Run.Along advance Permitted (stocked sharedPool 1 4)
    [.command (depositCommand 1 4)] := by
  refine ⟨?_, trivial⟩
  intro id amountA amountB pool parsed stored _
  unfold depositCommand at parsed
  rw [parsed_command] at parsed
  cases parsed
  have read := @stocked_read _ sharedPool 1 4
  change (stocked sharedPool 1 4).getJson Pool (key .zero) = _ at read
  rw [read] at stored
  cases stored
  decide

/-- The theorem at a pool of two units and eight. -/
theorem liquidity_pro_rata_iff_small :
    (∃ output after, WithdrawsExactly (withdrawCommand 2) .zero sharedPool 2
      (stocked sharedPool 1 4) output after) ∧
    (∃ output after, DepositsExactly (depositCommand 1 4) .zero sharedPool 1 4 output after) ∧
    Sound (Run.run advance (stocked sharedPool 1 4) [.command (depositCommand 1 4)]) ∧
    ∃ joined middle output after, Refunds (withdrawCommand (holding joined trader)) .zero joined 2 8
      middle output after := by
  have read : (stocked sharedPool 1 4).getJson Pool (key .zero) = .ok (some sharedPool) :=
    stocked_read
  refine ⟨?_, ?_, ?_, ?_⟩
  · obtain ⟨output, after, accepted⟩ := withdrawal_shared
    exact ⟨output, after, (liquidity_pro_rata_iff.1 (withdrawCommand 2) .zero sharedPool 2
      (stocked sharedPool 1 4) after output read accepted).mpr (by decide)⟩
  · obtain ⟨output, after, accepted⟩ := deposit_shared
    exact ⟨output, after, (liquidity_pro_rata_iff.2.1 (depositCommand 1 4) .zero sharedPool 1 4
      (stocked sharedPool 1 4) after output read (by decide) balanced_sharedPool accepted).mpr
        (by decide)⟩
  · exact liquidity_pro_rata_iff.2.2.1 _ _ (sound_stocked balanced_sharedPool) permitted_shared
  · have product : (2 : U128).val * (8 : U128).val = 4 * 4 := by decide
    obtain ⟨paid, middle, joined, output, after, deposit, saved, withdrawal, _⟩ :=
      @deposited_withdrawn _ newPool 2 8 _ (depositCommand 2 8) withdrawCommand empty_newPool
        (by decide) (by decide) (by decide) (by decide) rfl fun _ => rfl
    have fresh : (stocked newPool 2 8).getJson Pool (key .zero) = .ok (some newPool) := stocked_read
    have refunds := liquidity_pro_rata_iff.2.2.2 (depositCommand 2 8)
      (withdrawCommand (holding joined trader)) .zero newPool joined 2 8 (stocked newPool 2 8) middle
      middle after paid output fresh empty_newPool deposit saved saved rfl withdrawal
    rw [product, Nat.sqrt_eq] at refunds
    exact ⟨joined, middle, output, after, refunds.mpr (by decide)⟩

end Fixed

end DexPrism

end Veilux
