/-
The price of a swap in `prisms/dex/src/lib.rs`.  Dividend and divisor of the quote saturate
separately; the quote is the exact one as long as neither cut changes the quotient.
-/

import Veilux.Prism.Amounts
import Veilux.Prism.Credits
import Veilux.Prism.DexRoot

namespace Veilux

open PrismM

namespace DexPrism

/-! ### The quote -/

/-- The dividend of a quote over unbounded numbers. -/
def due (reserveOut amountIn : U128) : Nat := 9970 * amountIn.val * reserveOut.val

/-- The divisor of a quote over unbounded numbers. -/
def parts (reserveIn amountIn : U128) : Nat := 10000 * reserveIn.val + 9970 * amountIn.val

def fairOut (reserveIn reserveOut amountIn : U128) : Nat :=
  due reserveOut amountIn / parts reserveIn amountIn

variable {reserveIn reserveOut amountIn amountOut : U128} {state after : StateTree}

theorem parts_pos (positive : reserveIn ≠ 0) : 0 < parts reserveIn amountIn := by
  have stocked := U128.pos_iff.mp positive
  unfold parts
  omega

theorem fairOut_eq : fairOut reserveIn reserveOut amountIn =
    ConstantProduct.output 9970 10000 reserveIn.val reserveOut.val amountIn.val := rfl

theorem accepts_quoteOut_state (accepted : Accepts (quoteOut reserveIn reserveOut amountIn) state
    amountOut after) : after = state := by
  unfold quoteOut at accepted
  rcases accepts_ite.mp accepted with ⟨_, refused⟩ | ⟨_, quoted⟩
  · exact (accepts_pure.mp refused).2.symm
  · exact (U128.accepts_divide.mp quoted).2.2.symm

/-- The quote of stocked reserves: the quotient of the two cut operands. -/
theorem accepts_quoteOut (stockedIn : reserveIn ≠ 0) (stockedOut : reserveOut ≠ 0)
    (positive : amountIn ≠ 0)
    (accepted : Accepts (quoteOut reserveIn reserveOut amountIn) state amountOut after) :
    amountOut.val = min (due reserveOut amountIn) U128.largest /
      min (parts reserveIn amountIn) U128.largest ∧ state = after := by
  unfold quoteOut at accepted
  rw [if_neg (by rintro (none | none | none) <;> contradiction), U128.accepts_divide] at accepted
  obtain ⟨_, rfl, same⟩ := accepted
  refine ⟨?_, same⟩
  have factor : ((10000 : U128) - feeBps).val = 9970 := rfl
  have thousands : ((10000 : U128)).val = 10000 := rfl
  rw [Fin.div_val]
  simp only [U128.saturatingMul_val, U128.saturatingAdd_val, factor, thousands,
    Capped.min_add_min]
  rw [Capped.min_mul_min (U128.pos_iff.mp stockedOut), Nat.mul_comm amountIn.val,
    Nat.mul_comm reserveIn.val]
  rfl

/-- The operands of a quote that keep its quotient when they are cut: the divisor fits and the
quotient stays below its cut, or the divisor does not fit, the quotient is one, and the reserve
that grows has room. -/
def Quotable (reserveIn reserveOut amountIn : U128) : Prop :=
  (parts reserveIn amountIn ≤ U128.largest ∧ due reserveOut amountIn <
      parts reserveIn amountIn * (U128.largest / parts reserveIn amountIn + 1)) ∨
    (U128.largest < parts reserveIn amountIn ∧
      parts reserveIn amountIn ≤ due reserveOut amountIn ∧
      due reserveOut amountIn < 2 * parts reserveIn amountIn ∧
      (reserveIn.val + amountIn.val ≤ U128.largest ∨
        U128.largest ≤ reserveOut.val * (U128.largest - reserveIn.val)))

instance : Decidable (Quotable reserveIn reserveOut amountIn) :=
  inferInstanceAs (Decidable (_ ∨ _))

/-- The quoted amount is exact, short of the reserve, and does not lower the product. -/
structure Fair (reserveIn reserveOut amountIn amountOut : U128) : Prop where
  exact : amountOut.val = fairOut reserveIn reserveOut amountIn
  below : amountOut.val < reserveOut.val
  product : reserveIn.val * reserveOut.val ≤
    (reserveIn.saturatingAdd amountIn).val * (reserveOut.saturatingSub amountOut).val

theorem due_lt (stockedIn : reserveIn ≠ 0) (stockedOut : reserveOut ≠ 0) :
    due reserveOut amountIn < parts reserveIn amountIn * reserveOut.val := by
  have positive := U128.pos_iff.mp stockedIn
  have stocked := U128.pos_iff.mp stockedOut
  unfold due parts
  rw [Nat.add_mul]
  have surplus : 0 < 10000 * reserveIn.val * reserveOut.val :=
    Nat.mul_pos (Nat.mul_pos (by omega) positive) stocked
  omega

theorem fair_of_exact (stockedIn : reserveIn ≠ 0) (stockedOut : reserveOut ≠ 0)
    (fits : parts reserveIn amountIn ≤ U128.largest)
    (exact : amountOut.val = fairOut reserveIn reserveOut amountIn) :
    Fair reserveIn reserveOut amountIn amountOut := by
  have positive : 0 < 10000 * reserveIn.val :=
    Nat.mul_pos (by omega) (U128.pos_iff.mp stockedIn)
  have stocked := U128.pos_iff.mp stockedOut
  have room : reserveIn.val + amountIn.val ≤ 2 ^ 128 - 1 := by
    unfold parts U128.largest at fits
    omega
  constructor
  · exact exact
  · rw [exact, fairOut_eq]
    exact ConstantProduct.output_lt positive stocked
  · rw [U128.saturatingAdd_val, Nat.min_eq_left room, U128.saturatingSub_val, exact, fairOut_eq]
    exact ConstantProduct.product_le (by omega) positive stocked

/-- Behind a cut divisor the quote is one. -/
theorem quote_eq_one (large : U128.largest < parts reserveIn amountIn)
    (quoted : amountOut.val = min (due reserveOut amountIn) U128.largest /
      min (parts reserveIn amountIn) U128.largest) (nonzero : amountOut ≠ 0) :
    amountOut.val = 1 := by
  have positive : 0 < U128.largest := by decide
  have some := U128.pos_iff.mp nonzero
  rw [Nat.min_eq_right large.le] at quoted
  have reached : U128.largest ≤ min (due reserveOut amountIn) U128.largest := by
    by_contra short
    rw [Nat.div_eq_of_lt (not_le.mp short)] at quoted
    omega
  rw [quoted, Nat.le_antisymm (Nat.min_le_right _ _) reached, Nat.div_self positive]

theorem fairOut_eq_one_iff (stockedIn : reserveIn ≠ 0) :
    fairOut reserveIn reserveOut amountIn = 1 ↔ parts reserveIn amountIn ≤ due reserveOut amountIn ∧
      due reserveOut amountIn < 2 * parts reserveIn amountIn := by
  have positive := @parts_pos reserveIn amountIn stockedIn
  unfold fairOut
  rw [Nat.div_eq_iff positive]
  omega

theorem one_lt_of_parts_le (stockedIn : reserveIn ≠ 0)
    (reached : parts reserveIn amountIn ≤ due reserveOut amountIn) : 1 < reserveOut.val := by
  have positive := U128.pos_iff.mp stockedIn
  by_contra few
  have product : 9970 * amountIn.val * reserveOut.val ≤ 9970 * amountIn.val * 1 :=
    Nat.mul_le_mul_left _ (not_lt.mp few)
  unfold parts due at reached
  omega

/-- Giving away one unit keeps the product exactly if the other reserve has room. -/
theorem product_le_iff (stockedIn : reserveIn ≠ 0) (one : amountOut.val = 1)
    (reached : parts reserveIn amountIn ≤ due reserveOut amountIn) :
    reserveIn.val * reserveOut.val ≤
        (reserveIn.saturatingAdd amountIn).val * (reserveOut.saturatingSub amountOut).val ↔
      reserveIn.val + amountIn.val ≤ U128.largest ∨
        U128.largest ≤ reserveOut.val * (U128.largest - reserveIn.val) := by
  have several := one_lt_of_parts_le stockedIn reached
  have bound := reserveIn.val_le_largest
  unfold parts due at reached
  rw [U128.saturatingAdd_val, U128.saturatingSub_val, one]
  change _ ≤ min _ U128.largest * _ ↔ _
  obtain ⟨rest, more⟩ := Nat.exists_eq_add_of_lt several
  obtain ⟨room, split⟩ := Nat.exists_eq_add_of_le bound
  rw [more, show 1 + rest + 1 - 1 = rest + 1 by omega, show 1 + rest + 1 = rest + 2 by omega]
  rw [more, show 1 + rest + 1 = rest + 2 by omega] at reached
  have expand : 9970 * amountIn.val * (rest + 2) =
      9970 * (amountIn.val * (rest + 1)) + 9970 * amountIn.val := by ring
  rw [expand] at reached
  by_cases fits : reserveIn.val + amountIn.val ≤ U128.largest
  · rw [Nat.min_eq_left fits]
    have grown : reserveIn.val * (rest + 2) ≤ (reserveIn.val + amountIn.val) * (rest + 1) := by
      have sum : reserveIn.val * (rest + 2) = reserveIn.val * (rest + 1) + reserveIn.val := by ring
      rw [sum, Nat.add_mul]
      omega
    exact ⟨fun _ => .inl fits, fun _ => grown⟩
  · rw [Nat.min_eq_right (not_le.mp fits).le, split, Nat.add_sub_cancel_left]
    have left : reserveIn.val * (rest + 2) = reserveIn.val * (rest + 1) + reserveIn.val := by ring
    have right : (rest + 2) * room = room * (rest + 1) + room := by ring
    rw [left, right, Nat.add_mul]
    rw [split] at fits
    omega

theorem fair_iff (stockedIn : reserveIn ≠ 0) (stockedOut : reserveOut ≠ 0)
    (quoted : amountOut.val = min (due reserveOut amountIn) U128.largest /
      min (parts reserveIn amountIn) U128.largest) (nonzero : amountOut ≠ 0) :
    Fair reserveIn reserveOut amountIn amountOut ↔ Quotable reserveIn reserveOut amountIn := by
  have positive := @parts_pos reserveIn amountIn stockedIn
  unfold Quotable
  by_cases fits : parts reserveIn amountIn ≤ U128.largest
  · rw [Nat.min_eq_left fits] at quoted
    have seen := @Capped.min_div_eq_iff U128.largest (due reserveOut amountIn) _ positive
    rw [← quoted] at seen
    constructor
    · intro fair
      exact .inl ⟨fits, seen.mp fair.exact⟩
    · rintro (⟨_, below⟩ | ⟨large, _⟩)
      · exact fair_of_exact stockedIn stockedOut fits (seen.mpr below)
      · exact absurd fits (not_le.mpr large)
  · have large := not_le.mp fits
    have one := quote_eq_one large quoted nonzero
    constructor
    · intro fair
      obtain ⟨reached, below⟩ :=
        (@fairOut_eq_one_iff reserveIn reserveOut amountIn stockedIn).mp (fair.exact.symm.trans one)
      exact .inr ⟨large, reached, below, (product_le_iff stockedIn one reached).mp fair.product⟩
    · rintro (⟨small, _⟩ | ⟨_, reached, below, room⟩)
      · exact absurd small fits
      · have exact := (fairOut_eq_one_iff stockedIn).mpr ⟨reached, below⟩
        refine ⟨one.trans exact.symm, ?_, (product_le_iff stockedIn one reached).mpr room⟩
        rw [one]
        exact one_lt_of_parts_le stockedIn reached

/-- The reserve that a swap adds to, and the one it draws on. -/
def sides (pool : Pool) (tokenIn : Hash) : U128 × U128 :=
  if tokenIn = pool.tokenA then (pool.reserveA, pool.reserveB) else (pool.reserveB, pool.reserveA)

def swapped (pool : Pool) (tokenIn : Hash) (amountIn amountOut : U128) : Pool :=
  if tokenIn = pool.tokenA then
    { pool with
      reserveA := pool.reserveA.saturatingAdd amountIn
      reserveB := pool.reserveB.saturatingSub amountOut }
  else
    { pool with
      reserveB := pool.reserveB.saturatingAdd amountIn
      reserveA := pool.reserveA.saturatingSub amountOut }

theorem swapped_reserves (pool : Pool) (tokenIn : Hash) (amountIn amountOut : U128) :
    sides (swapped pool tokenIn amountIn amountOut) tokenIn =
      ((sides pool tokenIn).1.saturatingAdd amountIn,
        (sides pool tokenIn).2.saturatingSub amountOut) := by
  unfold sides swapped
  by_cases first : tokenIn = pool.tokenA
  · rw [if_pos first, if_pos first, if_pos first]
  · rw [if_neg first, if_neg first, if_neg first]

theorem sides_product (pool : Pool) (tokenIn : Hash) :
    (sides pool tokenIn).1.val * (sides pool tokenIn).2.val =
      pool.reserveA.val * pool.reserveB.val := by
  unfold sides
  by_cases first : tokenIn = pool.tokenA
  · rw [if_pos first]
  · rw [if_neg first, Nat.mul_comm]

theorem sides_stocked {pool : Pool} {tokenIn : Hash} :
    (sides pool tokenIn).1 ≠ 0 ∧ (sides pool tokenIn).2 ≠ 0 ↔
      pool.reserveA ≠ 0 ∧ pool.reserveB ≠ 0 := by
  unfold sides
  by_cases first : tokenIn = pool.tokenA
  · rw [if_pos first]
  · rw [if_neg first, and_comm]

section Swaps

variable [SerdeJson] [Blake3] {command : Command} {output : PrismOutput} {id tokenIn : Hash}
  {minOut : U128} {pool : Pool}

theorem accepts_swap (stored : state.getJson Pool (key id) = .ok (some pool))
    (accepted : Accepts (swap command id tokenIn amountIn minOut) state output after) :
    amountIn ≠ 0 ∧ ∃ tokenOut amountOut paid middle,
      Accepts (quoteOut (sides pool tokenIn).1 (sides pool tokenIn).2 amountIn) state amountOut
        state ∧
      amountOut ≠ 0 ∧ minOut ≤ amountOut ∧
      Accepts (TokenPrism.debit tokenIn command.submitter amountIn) state () paid ∧
      Accepts (TokenPrism.credit tokenOut command.submitter amountOut) paid () middle ∧
      output = .single (event command
        (.swapped id command.submitter tokenIn amountIn tokenOut amountOut)) 2000 ∧
      after = middle.putJson (key pool.id) (swapped pool tokenIn amountIn amountOut) := by
  unfold swap save at accepted
  obtain ⟨found, _, loaded, accepted⟩ := accepts_bind.mp accepted
  obtain ⟨read, rfl⟩ := accepts_load.mp loaded
  rw [stored] at read
  cases read
  rcases accepts_ite.mp accepted with ⟨_, refused⟩ | ⟨positive, accepted⟩
  · obtain ⟨_, _, impossible, _⟩ := accepts_bind.mp refused
    exact absurd impossible accepts_throw
  refine ⟨positive, ?_⟩
  unfold sides swapped
  by_cases first : tokenIn = pool.tokenA
  · rw [if_pos first, pure_bind] at accepted
    obtain ⟨amountOut, _, quoted, accepted⟩ := accepts_bind.mp accepted
    cases accepts_quoteOut_state quoted
    simp only [if_pos first, accepts_bind, accepts_ite, accepts_throw, accepts_modify,
      accepts_pure] at accepted ⊢
    rcases accepted with ⟨_, _, _, impossible, _⟩ | ⟨enough, _, paid, debited, _, middle, credited,
      _, _, rfl, rfl, rfl⟩
    · cases impossible
    · refine ⟨pool.tokenB, amountOut, paid, middle, quoted, ?_, ?_, debited, credited, rfl, rfl⟩
      · exact fun none => enough (.inl none)
      · exact not_lt.mp fun below => enough (.inr below)
  · rw [if_neg first] at accepted
    by_cases second : tokenIn = pool.tokenB
    · rw [if_pos second, pure_bind] at accepted
      obtain ⟨amountOut, _, quoted, accepted⟩ := accepts_bind.mp accepted
      cases accepts_quoteOut_state quoted
      simp only [if_neg first, accepts_bind, accepts_ite, accepts_throw, accepts_modify,
        accepts_pure] at accepted ⊢
      rcases accepted with ⟨_, _, _, impossible, _⟩ | ⟨enough, _, paid, debited, _, middle,
        credited, _, _, rfl, rfl, rfl⟩
      · cases impossible
      · refine ⟨pool.tokenA, amountOut, paid, middle, quoted, ?_, ?_, debited, credited, rfl, rfl⟩
        · exact fun none => enough (.inl none)
        · exact not_lt.mp fun below => enough (.inr below)
    · rw [if_neg second] at accepted
      obtain ⟨_, _, impossible, _⟩ := accepts_bind.mp accepted
      exact absurd impossible accepts_throw

/-- An accepted swap that pays the exact price, does not lower the product of the reserves and
leaves a pool into which a deposit can be divided. -/
def SwapsExactly (command : Command) (id tokenIn : Hash) (amountIn : U128) (pool : Pool)
    (output : PrismOutput) (after : StateTree) : Prop :=
  ∃ tokenOut amountOut updated,
    output = .single (event command
      (.swapped id command.submitter tokenIn amountIn tokenOut amountOut)) 2000 ∧
    after.getJson Pool (key pool.id) = .ok (some updated) ∧
    amountOut.val = fairOut (sides pool tokenIn).1 (sides pool tokenIn).2 amountIn ∧
    0 < amountOut.val ∧ amountOut.val < (sides pool tokenIn).2.val ∧
    pool.reserveA.val * pool.reserveB.val ≤ updated.reserveA.val * updated.reserveB.val ∧
    updated.reserveA ≠ 0 ∧ updated.reserveB ≠ 0 ∧
    (updated.totalShares ≠ 0 → ∀ later amountA amountB,
      ¬ Aborts (addLiquidity later pool.id amountA amountB) after)

omit [SerdeJson] in
theorem emitted_amount {first second : Hash} {left right : U128} {who : PartyId}
    (same : PrismOutput.single (event command (.swapped id who tokenIn amountIn first left)) 2000 =
      .single (event command (.swapped id who tokenIn amountIn second right)) 2000) :
    left = right := by
  have payloads := congrArg Event.payload (List.cons.inj (PrismOutput.mk.inj same).1).1
  exact (DexEvent.swapped.inj (toVec_injective payloads)).2.2.2.2.2

/-- A swap on a stocked pool is exact if and only if its quote is not cut. -/
theorem swap_exact_iff (stored : state.getJson Pool (key id) = .ok (some pool))
    (stockedA : pool.reserveA ≠ 0) (stockedB : pool.reserveB ≠ 0)
    (accepted : Accepts (swap command id tokenIn amountIn minOut) state output after) :
    SwapsExactly command id tokenIn amountIn pool output after ↔
      Quotable (sides pool tokenIn).1 (sides pool tokenIn).2 amountIn := by
  obtain ⟨stockedIn, stockedOut⟩ := (@sides_stocked pool tokenIn).mpr ⟨stockedA, stockedB⟩
  obtain ⟨positive, tokenOut, amountOut, paid, middle, quoted, nonzero, _, _, _, rfl, rfl⟩ :=
    accepts_swap stored accepted
  have quotient := (accepts_quoteOut stockedIn stockedOut positive quoted).1
  rw [← fair_iff stockedIn stockedOut quotient nonzero]
  have saved := StateTree.getJson_putJson middle (key pool.id)
    (swapped pool tokenIn amountIn amountOut)
  have held := swapped_reserves pool tokenIn amountIn amountOut
  have before := sides_product pool tokenIn
  have behind := sides_product (swapped pool tokenIn amountIn amountOut) tokenIn
  rw [held] at behind
  constructor
  · rintro ⟨_, other, updated, emitted, read, exact, _, below, product, _⟩
    have same := (emitted_amount emitted).symm
    rw [saved] at read
    cases read
    subst same
    refine ⟨exact, below, ?_⟩
    rwa [← before, ← behind] at product
  · intro fair
    have stocked : (swapped pool tokenIn amountIn amountOut).reserveA ≠ 0 ∧
        (swapped pool tokenIn amountIn amountOut).reserveB ≠ 0 := by
      rw [← @sides_stocked _ tokenIn, held]
      simp only [U128.pos_iff, U128.saturatingAdd_val, U128.saturatingSub_val]
      have some := U128.pos_iff.mp positive
      have below := fair.below
      omega
    refine ⟨tokenOut, amountOut, _, rfl, saved, fair.exact, U128.pos_iff.mp nonzero, fair.below, ?_,
      stocked.1, stocked.2, ?_⟩
    · rw [← before, ← behind]
      exact fair.product
    · intro shared later amountA amountB
      rw [aborts_addLiquidity saved, aborts_minted_shared shared]
      rintro ⟨_, _, drained | drained⟩
      · exact stocked.1 drained
      · exact stocked.2 drained

end Swaps

/-! ### A market with one trader -/

section Market

open TokenPrism (balance withBalance debited)

variable [SerdeJson] [Blake3]

def trader : PartyId := ⟨"trader"⟩

/-- A pool beside a trader who holds its first token. -/
def market (pool : Pool) (amount : U128) : StateTree :=
  (withBalance .empty pool.tokenA trader amount).putJson (key pool.id) pool

omit [Blake3] in
theorem unrecorded_market (pool : Pool) (amount : U128) (token : Hash) :
    TokenPrism.tokenMeta? (market pool amount) token = none := by
  have apart : key pool.id ≠ TokenPrism.metaKey token := TokenPrism.head_ne_metaKey (by decide) _ _
  unfold market TokenPrism.tokenMeta?
  rw [StateTree.putJson, StateTree.getJson?_put_ne _ _ apart]
  change TokenPrism.tokenMeta? _ token = _
  rw [TokenPrism.tokenMeta?_withBalance]
  rfl

omit [Blake3] in
theorem balance_market (pool : Pool) (amount : U128) (token : Hash) :
    balance (market pool amount) token trader = if pool.tokenA = token then amount else 0 := by
  unfold market
  rw [StateTree.putJson, key, TokenPrism.balance_put_head _ _ _ (by decide)]
  by_cases same : pool.tokenA = token
  · rw [if_pos same, ← same, TokenPrism.balance_withBalance_self]
  · rw [if_neg same, TokenPrism.balance_withBalance_ne _ _ (.inr same)]
    rfl

theorem swap_market {pool : Pool} (different : pool.tokenA ≠ pool.tokenB) (positive : amountIn ≠ 0)
    (quoted : Accepts (quoteOut pool.reserveA pool.reserveB amountIn) (market pool amountIn)
      amountOut (market pool amountIn)) (nonzero : amountOut ≠ 0) (command : Command)
    (sent : command.submitter = trader) :
    ∃ after, Accepts (swap command pool.id pool.tokenA amountIn 0) (market pool amountIn)
      (.single (event command (.swapped pool.id command.submitter pool.tokenA amountIn pool.tokenB
        amountOut)) 2000) after := by
  have stored : (market pool amountIn).getJson Pool (key pool.id) = .ok (some pool) :=
    StateTree.getJson_putJson _ _ _
  have enough : amountIn ≤ balance (market pool amountIn) pool.tokenA command.submitter := by
    rw [sent, balance_market, if_pos rfl]
  have unrecorded : TokenPrism.tokenMeta? (debited (market pool amountIn) pool.tokenA
      command.submitter amountIn) pool.tokenB = none := by
    unfold debited
    rw [TokenPrism.tokenMeta?_withBalance, unrecorded_market]
  have fits : (balance (debited (market pool amountIn) pool.tokenA command.submitter amountIn)
      pool.tokenB command.submitter).val + amountOut.val < 2 ^ 128 := by
    unfold debited
    rw [TokenPrism.balance_withBalance_ne _ _ (.inr different), sent, balance_market,
      if_neg different]
    have bound := amountOut.isLt
    change 0 + _ < _
    omega
  have received := TokenPrism.accepts_credit_unrecorded unrecorded fits
  have visible : ¬ (amountOut = 0 ∨ amountOut < 0) := by
    rintro (none | below)
    · exact nonzero none
    · exact absurd below (Fin.not_lt_zero _)
  let paid := debited (market pool amountIn) pool.tokenA command.submitter amountIn
  refine ⟨(withBalance paid pool.tokenB command.submitter
    (balance paid pool.tokenB command.submitter + amountOut)).putJson (key pool.id)
      (swapped pool pool.tokenA amountIn amountOut), ?_⟩
  unfold swap save swapped
  refine accepts_bind.mpr ⟨pool, _, accepts_load.mpr ⟨stored, rfl⟩, ?_⟩
  rw [if_neg positive, if_pos rfl, pure_bind]
  refine accepts_bind.mpr ⟨amountOut, _, quoted, ?_⟩
  rw [if_neg visible]
  refine accepts_bind.mpr ⟨(), _, TokenPrism.accepts_debit.mpr ⟨enough, rfl⟩, ?_⟩
  refine accepts_bind.mpr ⟨(), _, received, ?_⟩
  refine accepts_bind.mpr ⟨(), _, accepts_modify.mpr rfl, accepts_pure.mpr ⟨rfl, ?_⟩⟩
  rw [if_pos rfl]

end Market

section Fixed

attribute [local instance] SerdeJson.compact Blake3.polynomial

/-- A pool after a first deposit of one token of 18 decimals on each side. -/
def tokenPool : Pool :=
  { id := .zero
    tokenA := ⟨Vector.replicate 32 1⟩
    tokenB := ⟨Vector.replicate 32 2⟩
    reserveA := 1000000000000000000
    reserveB := 1000000000000000000
    totalShares := 1000000000000000000
    shares := ∅ }

def swapCommand (amountIn : U128) : Command :=
  { prism := "dex"
    submitter := trader
    visibility := .pub
    payload := toVec (DexCommand.swap .zero tokenPool.tokenA amountIn 0)
    nonce := 0 }

theorem accepts_quoted (amountIn amountOut : U128) (state : StateTree) (positive : amountIn ≠ 0)
    (divisible : (tokenPool.reserveA.saturatingMul 10000).saturatingAdd
      (amountIn.saturatingMul (10000 - feeBps)) ≠ 0)
    (quotient : amountOut = (amountIn.saturatingMul (10000 - feeBps)).saturatingMul
      tokenPool.reserveB / (tokenPool.reserveA.saturatingMul 10000).saturatingAdd
        (amountIn.saturatingMul (10000 - feeBps))) :
    Accepts (quoteOut tokenPool.reserveA tokenPool.reserveB amountIn) state amountOut state := by
  have stocked : tokenPool.reserveA ≠ 0 ∧ tokenPool.reserveB ≠ 0 := by
    decide
  unfold quoteOut
  rw [if_neg (by rintro (none | none | none) <;> simp_all), U128.accepts_divide]
  exact ⟨divisible, quotient, rfl⟩

/-- A tenth of a token is paid at a third of its price. -/
theorem tenth_underpaid :
    ∃ output after, Accepts (swap (swapCommand 100000000000000000) .zero tokenPool.tokenA
        100000000000000000 0) (market tokenPool 100000000000000000) output after ∧
      ¬ SwapsExactly (swapCommand 100000000000000000) .zero tokenPool.tokenA 100000000000000000
        tokenPool output after := by
  have quoted := accepts_quoted 100000000000000000 30943199683635397
    (market tokenPool 100000000000000000) (by decide) (by decide +kernel) (by decide +kernel)
  obtain ⟨after, accepted⟩ := swap_market (by decide) (by decide) quoted (by decide)
    (swapCommand 100000000000000000) rfl
  refine ⟨_, after, accepted, ?_⟩
  rintro ⟨_, other, _, emitted, _, exact, _⟩
  rw [← emitted_amount emitted] at exact
  exact absurd exact (by decide +kernel)

/-- The theorem at a swap of a hundred units. -/
theorem swap_exact_iff_hundred :
    ∃ output after, SwapsExactly (swapCommand 100) .zero tokenPool.tokenA 100 tokenPool output
      after := by
  have quoted := accepts_quoted 100 99 (market tokenPool 100) (by decide) (by decide +kernel)
    (by decide +kernel)
  obtain ⟨after, accepted⟩ := swap_market (by decide) (by decide) quoted (by decide)
    (swapCommand 100) rfl
  exact ⟨_, after, (swap_exact_iff (StateTree.getJson_putJson _ _ tokenPool) (by decide)
    (by decide) accepted).mpr (by decide +kernel)⟩

end Fixed

end DexPrism

end Veilux
