/-
The constant-product exchange of `prisms/dex/src/lib.rs`: pools of two tokens, shares of
their liquidity and swaps.  A division by zero aborts the process; here it is an internal
error, so no state behind it is ever accepted.
-/

import Veilux.Prism.TokenEffects

namespace Veilux

open PrismM

namespace TokenPrism

variable [SerdeJson]

/-- The recorded supply grows with the balance, though `debit` never lowered it. -/
def credit (tokenId : Hash) (who : PartyId) (amount : U128) : PrismM Unit := do
  let bal := balance (← get) tokenId who
  setBalance tokenId who (← addOr "balance overflow" bal amount)
  match tokenMeta? (← get) tokenId with
  | none => pure ()
  | some info =>
      setMeta tokenId { info with totalSupply := info.totalSupply.saturatingAdd amount }

end TokenPrism

namespace U128

/-- The `/` operator. -/
def divide (left right : U128) : PrismM U128 :=
  if right = 0 then throw (.internal "attempt to divide by zero") else return left / right

theorem accepts_divide {left right quotient : U128} {state after : StateTree} :
    Accepts (divide left right) state quotient after ↔
      right ≠ 0 ∧ quotient = left / right ∧ state = after := by
  simp only [divide, accepts_ite, accepts_throw, accepts_pure, and_false, false_or, ne_eq]
  constructor
  · intro accepted
    exact ⟨accepted.1, accepted.2.1.symm, accepted.2.2⟩
  · intro quotients
    exact ⟨quotients.1, quotients.2.1.symm, quotients.2.2⟩

end U128

/-- The `u128_map` helper. -/
instance : Serialize (Std.ExtTreeMap String U128) where
  toJson shares := .obj (shares.toList.map fun entry => (entry.1, toJson entry.2))
  toJson_injective := by
    intro left right same
    have entries : left.toList = right.toList := by
      refine List.map_injective_iff.mpr ?_ (Json.obj.inj same)
      intro first second equal
      obtain ⟨keys, values⟩ := Prod.mk.inj equal
      exact Prod.ext keys (Serialize.toJson_injective values)
    apply Std.ExtTreeMap.ext_getElem?
    intro key
    apply Option.ext
    intro value
    rw [← Std.ExtTreeMap.mem_toList_iff_getElem?_eq_some, entries,
      Std.ExtTreeMap.mem_toList_iff_getElem?_eq_some]

structure Pool where
  id : Hash
  tokenA : Hash
  tokenB : Hash
  reserveA : U128
  reserveB : U128
  totalShares : U128
  shares : Std.ExtTreeMap String U128

instance : Serialize Pool where
  toJson pool := .obj
    [("id", toJson pool.id), ("token_a", toJson pool.tokenA), ("token_b", toJson pool.tokenB),
      ("reserve_a", toJson pool.reserveA), ("reserve_b", toJson pool.reserveB),
      ("total_shares", toJson pool.totalShares), ("shares", toJson pool.shares)]
  toJson_injective := by
    intro left right same
    cases left
    cases right
    simpa using same

inductive DexCommand where
  | createPool (tokenA tokenB : Hash)
  | addLiquidity (pool : Hash) (amountA amountB : U128)
  | removeLiquidity (pool : Hash) (shares : U128)
  | swap (pool tokenIn : Hash) (amountIn minOut : U128)
  deriving DecidableEq

/-- Internally tagged by `op`. -/
instance : Serialize DexCommand where
  toJson
    | .createPool tokenA tokenB => .obj
        [("op", .str "create_pool"), ("token_a", toJson tokenA), ("token_b", toJson tokenB)]
    | .addLiquidity pool amountA amountB => .obj
        [("op", .str "add_liquidity"), ("pool", toJson pool), ("amount_a", toJson amountA),
          ("amount_b", toJson amountB)]
    | .removeLiquidity pool shares => .obj
        [("op", .str "remove_liquidity"), ("pool", toJson pool), ("shares", toJson shares)]
    | .swap pool tokenIn amountIn minOut => .obj
        [("op", .str "swap"), ("pool", toJson pool), ("token_in", toJson tokenIn),
          ("amount_in", toJson amountIn), ("min_out", toJson minOut)]
  toJson_injective := by
    intro left right same
    cases left <;> cases right <;> simp_all

inductive DexEvent where
  | poolCreated (pool tokenA tokenB : Hash)
  | liquidityAdded (pool : Hash) (provider : PartyId) (shares : U128)
  | liquidityRemoved (pool : Hash) (provider : PartyId) (amountA amountB : U128)
  | swapped (pool : Hash) (trader : PartyId) (tokenIn : Hash) (amountIn : U128) (tokenOut : Hash)
      (amountOut : U128)
  deriving DecidableEq

/-- Internally tagged by `kind`. -/
instance : Serialize DexEvent where
  toJson
    | .poolCreated pool tokenA tokenB => .obj
        [("kind", .str "pool_created"), ("pool", toJson pool), ("token_a", toJson tokenA),
          ("token_b", toJson tokenB)]
    | .liquidityAdded pool provider shares => .obj
        [("kind", .str "liquidity_added"), ("pool", toJson pool), ("provider", toJson provider),
          ("shares", toJson shares)]
    | .liquidityRemoved pool provider amountA amountB => .obj
        [("kind", .str "liquidity_removed"), ("pool", toJson pool),
          ("provider", toJson provider), ("amount_a", toJson amountA),
          ("amount_b", toJson amountB)]
    | .swapped pool trader tokenIn amountIn tokenOut amountOut => .obj
        [("kind", .str "swapped"), ("pool", toJson pool), ("trader", toJson trader),
          ("token_in", toJson tokenIn), ("amount_in", toJson amountIn),
          ("token_out", toJson tokenOut), ("amount_out", toJson amountOut)]
  toJson_injective := by
    intro left right same
    cases left <;> cases right <;> simp_all

namespace DexPrism

open TokenPrism (credit debit)

def poolPrefix : String := "dex/pool/"

def feeBps : U128 := 30

/-- The loop of `isqrt`; without a result it has divided by zero. -/
def isqrtLoop (n x y : U128) : Option U128 :=
  if smaller : y < x then
    if y = 0 then none else isqrtLoop n y ((y + n / y) / 2)
  else some x
termination_by x.val
decreasing_by exact smaller

/-- At the largest amount `x + 1` wraps to zero. -/
def isqrt (n : U128) : Option U128 :=
  if n = 0 then some 0 else isqrtLoop n n ((n + 1) / 2)

def key (id : Hash) : String := poolPrefix ++ id.toHex

def quoteOut (reserveIn reserveOut amountIn : U128) : PrismM U128 :=
  if reserveIn = 0 ∨ reserveOut = 0 ∨ amountIn = 0 then return 0
  else
    let amountInAfterFee := amountIn.saturatingMul (10000 - feeBps)
    let numerator := amountInAfterFee.saturatingMul reserveOut
    let denominator := (reserveIn.saturatingMul 10000).saturatingAdd amountInAfterFee
    U128.divide numerator denominator

section Handlers

variable [SerdeJson]

def load (id : Hash) : PrismM Pool := do
  match (← get).getJson Pool (key id) with
  | .error error => throw (.internal error.text)
  | .ok none => throw (.notFound ("pool " ++ id.toHex))
  | .ok (some pool) => return pool

omit [SerdeJson] in
def save (pool : Pool) : PrismM Unit :=
  modify fun state => state.putJson (key pool.id) pool

omit [SerdeJson] in
/-- The shares minted for a deposit. -/
def minted (pool : Pool) (amountA amountB : U128) : PrismM U128 := do
  if pool.totalShares = 0 then
    match isqrt (amountA.saturatingMul amountB) with
    | none => throw (.internal "attempt to divide by zero")
    | some root => return root
  else
    let byA ← U128.divide (amountA.saturatingMul pool.totalShares) pool.reserveA
    let byB ← U128.divide (amountB.saturatingMul pool.totalShares) pool.reserveB
    return min byA byB

variable [Blake3]

def event (command : Command) (payload : DexEvent) : Event :=
  { sourceCommand := command.id
    prism := "dex"
    visibility := command.visibility
    payload := toVec payload }

def poolId (tokenA tokenB : Hash) : Hash :=
  Hash.commit "dex/pool-id" [Bytes.utf8 tokenA.toHex, Bytes.utf8 tokenB.toHex]

/-! ### The four operations -/

def createPool (command : Command) (first second : Hash) : PrismM PrismOutput := do
  if first = second then
    throw (.invalidPayload "pool needs two distinct tokens")
  let (tokenA, tokenB) := if first.toHex ≤ second.toHex then (first, second) else (second, first)
  let id := poolId tokenA tokenB
  if (← get).contains (key id) then
    throw (.invalidPayload "pool already exists")
  save
    { id := id
      tokenA := tokenA
      tokenB := tokenB
      reserveA := 0
      reserveB := 0
      totalShares := 0
      shares := ∅ }
  return .single (event command (.poolCreated id tokenA tokenB)) 4000

def addLiquidity (command : Command) (id : Hash) (amountA amountB : U128) :
    PrismM PrismOutput := do
  let caller := command.submitter
  let pool ← load id
  if amountA = 0 ∨ amountB = 0 then
    throw (.invalidPayload "amounts must be > 0")
  let shares ← minted pool amountA amountB
  if shares = 0 then
    throw (.invalidPayload "liquidity too small to mint shares")
  debit pool.tokenA caller amountA
  debit pool.tokenB caller amountB
  save
    { pool with
      reserveA := pool.reserveA.saturatingAdd amountA
      reserveB := pool.reserveB.saturatingAdd amountB
      totalShares := pool.totalShares.saturatingAdd shares
      shares := pool.shares.insert caller.name
        ((pool.shares[caller.name]?.getD 0).saturatingAdd shares) }
  return .single (event command (.liquidityAdded id caller shares)) 3000

def removeLiquidity (command : Command) (id : Hash) (shares : U128) : PrismM PrismOutput := do
  let caller := command.submitter
  let pool ← load id
  let held := pool.shares[caller.name]?.getD 0
  if shares = 0 ∨ held < shares then
    throw (.limitExceeded "not enough shares")
  let amountA ← U128.divide (pool.reserveA.saturatingMul shares) pool.totalShares
  let amountB ← U128.divide (pool.reserveB.saturatingMul shares) pool.totalShares
  let remaining := held - shares
  credit pool.tokenA caller amountA
  credit pool.tokenB caller amountB
  save
    { pool with
      reserveA := pool.reserveA.saturatingSub amountA
      reserveB := pool.reserveB.saturatingSub amountB
      totalShares := pool.totalShares.saturatingSub shares
      shares := if remaining = 0 then pool.shares.erase caller.name
        else pool.shares.insert caller.name remaining }
  return .single (event command (.liquidityRemoved id caller amountA amountB)) 2500

def swap (command : Command) (id tokenIn : Hash) (amountIn minOut : U128) :
    PrismM PrismOutput := do
  let caller := command.submitter
  let pool ← load id
  if amountIn = 0 then
    throw (.invalidPayload "amount_in must be > 0")
  let (reserveIn, reserveOut, tokenOut) ←
    if tokenIn = pool.tokenA then pure (pool.reserveA, pool.reserveB, pool.tokenB)
    else if tokenIn = pool.tokenB then pure (pool.reserveB, pool.reserveA, pool.tokenA)
    else throw (.invalidPayload "token not in pool")
  let amountOut ← quoteOut reserveIn reserveOut amountIn
  if amountOut = 0 ∨ amountOut < minOut then
    throw (.limitExceeded "slippage: output below min_out")
  debit tokenIn caller amountIn
  credit tokenOut caller amountOut
  save (
    if tokenIn = pool.tokenA then
      { pool with
        reserveA := pool.reserveA.saturatingAdd amountIn
        reserveB := pool.reserveB.saturatingSub amountOut }
    else
      { pool with
        reserveB := pool.reserveB.saturatingAdd amountIn
        reserveA := pool.reserveA.saturatingSub amountOut })
  return .single (event command (.swapped id caller tokenIn amountIn tokenOut amountOut)) 2000

def execute (command : Command) : DexCommand → PrismM PrismOutput
  | .createPool tokenA tokenB => createPool command tokenA tokenB
  | .addLiquidity pool amountA amountB => addLiquidity command pool amountA amountB
  | .removeLiquidity pool shares => removeLiquidity command pool shares
  | .swap pool tokenIn amountIn minOut => swap command pool tokenIn amountIn minOut

def handle (command : Command) : PrismM PrismOutput :=
  match fromSlice DexCommand command.payload with
  | .error text => throw (.invalidPayload text)
  | .ok operation => execute command operation

def prism : Prism :=
  { name := "dex"
    handle := handle }

end Handlers

end DexPrism

end Veilux
