/-
What a liquidity share of `prisms/dex/src/lib.rs` is worth.  Saturated products and rounded
quotients only ever cut what the prism pays and mints, so along every run in which no reserve
and no divisor of a quote saturates, the value behind a share does not fall.
-/

import Veilux.Lib.Shares
import Veilux.Prism.DexLiquidity

namespace Veilux

open PrismM
open Shares (Stock Keeps Backed)

namespace DexPrism

open TokenPrism (balance debited Credited)

/-! ### Single pools -/

def stock (pool : Pool) : Stock :=
  { first := pool.reserveA.val
    second := pool.reserveB.val
    shares := pool.totalShares.val }

section Pools

variable {pool : Pool} {who : PartyId} {amountA amountB shares : U128} {state after : StateTree}

theorem quotient_mul_le (whole share total : U128) :
    (quotient whole share total).val * total.val ≤ whole.val * share.val := by
  rw [quotient_val]
  exact (Nat.div_mul_le_self _ _).trans (Nat.min_le_left _ _)

/-- Both reserves have room for a deposit. -/
def HasRoom (pool : Pool) (amountA amountB : U128) : Prop :=
  pool.reserveA.val + amountA.val ≤ U128.largest ∧ pool.reserveB.val + amountB.val ≤ U128.largest

instance : Decidable (HasRoom pool amountA amountB) := inferInstanceAs (Decidable (_ ∧ _))

theorem HasRoom.grown (room : HasRoom pool amountA amountB) :
    (pool.reserveA.saturatingAdd amountA).val = pool.reserveA.val + amountA.val ∧
      (pool.reserveB.saturatingAdd amountB).val = pool.reserveB.val + amountB.val := by
  rw [U128.saturatingAdd_val, U128.saturatingAdd_val]
  exact ⟨Nat.min_eq_left room.1, Nat.min_eq_left room.2⟩

theorem deposited_keeps (who : PartyId) (shared : pool.totalShares ≠ 0)
    (room : HasRoom pool amountA amountB)
    (priced : Accepts (minted pool amountA amountB) state shares after) :
    Keeps (stock pool) (stock (deposited pool who amountA amountB shares)) := by
  obtain ⟨_, _, same⟩ := accepts_minted_shared shared priced
  have total : (pool.totalShares.saturatingAdd shares).val ≤ pool.totalShares.val + shares.val := by
    rw [U128.saturatingAdd_val]
    exact Nat.min_le_left _ _
  obtain ⟨grownA, grownB⟩ := room.grown
  have lowA : shares.val * pool.reserveA.val ≤ amountA.val * pool.totalShares.val := by
    refine (Nat.mul_le_mul_right _ ?_).trans
      (quotient_mul_le amountA pool.totalShares pool.reserveA)
    rw [same]
    exact min_le_left _ _
  have lowB : shares.val * pool.reserveB.val ≤ amountB.val * pool.totalShares.val := by
    refine (Nat.mul_le_mul_right _ ?_).trans
      (quotient_mul_le amountB pool.totalShares pool.reserveB)
    rw [same]
    exact min_le_right _ _
  apply Shares.keeps_of_ratios
  · refine (Nat.mul_le_mul_left _ total).trans ?_
    change _ ≤ (pool.reserveA.saturatingAdd amountA).val * pool.totalShares.val
    rw [grownA]
    exact Shares.ratio_deposit lowA
  · refine (Nat.mul_le_mul_left _ total).trans ?_
    change _ ≤ (pool.reserveB.saturatingAdd amountB).val * pool.totalShares.val
    rw [grownB]
    exact Shares.ratio_deposit lowB

/-- The first shares are the root of what is deposited for them. -/
theorem deposited_backed (empty : pool.totalShares = 0) (room : HasRoom pool amountA amountB)
    (priced : Accepts (minted pool amountA amountB) state shares after) :
    Backed (stock (deposited pool who amountA amountB shares)) := by
  have root := accepts_minted_first empty priced
  have total : (pool.totalShares.saturatingAdd shares).val = shares.val := by
    rw [empty, zero_saturatingAdd]
  change (pool.totalShares.saturatingAdd shares).val ^ 2 ≤
    (pool.reserveA.saturatingAdd amountA).val * (pool.reserveB.saturatingAdd amountB).val
  rw [total, root, room.grown.1, room.grown.2]
  refine (Nat.sqrt_le' _).trans ?_
  exact Nat.mul_le_mul (Nat.le_add_left _ _) (Nat.le_add_left _ _)

theorem withdrawn_keeps (pool : Pool) (who : PartyId) (shares : U128) :
    Keeps (stock pool) (stock (withdrawn pool who shares
      (quotient pool.reserveA shares pool.totalShares)
      (quotient pool.reserveB shares pool.totalShares))) := by
  apply Shares.keeps_of_ratios
  · exact Shares.ratio_withdrawal (quotient_mul_le pool.reserveA shares pool.totalShares)
  · exact Shares.ratio_withdrawal (quotient_mul_le pool.reserveB shares pool.totalShares)

/-- A quote whose divisor fits is at most the exact one. -/
theorem swapped_keeps {tokenIn : Hash} {amountIn amountOut : U128}
    (fits : parts (sides pool tokenIn).1 amountIn ≤ U128.largest)
    (quoted : Accepts (quoteOut (sides pool tokenIn).1 (sides pool tokenIn).2 amountIn) state
      amountOut after) (positive : amountIn ≠ 0) (nonzero : amountOut ≠ 0) :
    Keeps (stock pool) (stock (swapped pool tokenIn amountIn amountOut)) := by
  have stocked : (sides pool tokenIn).1 ≠ 0 ∧ (sides pool tokenIn).2 ≠ 0 := by
    unfold quoteOut at quoted
    rcases accepts_ite.mp quoted with ⟨_, refused⟩ | ⟨live, _⟩
    · exact absurd (accepts_pure.mp refused).1.symm nonzero
    · exact ⟨fun none => live (.inl none), fun none => live (.inr (.inl none))⟩
  obtain ⟨value, _⟩ := accepts_quoteOut stocked.1 stocked.2 positive quoted
  rw [Nat.min_eq_left fits] at value
  have low : amountOut.val ≤ fairOut (sides pool tokenIn).1 (sides pool tokenIn).2 amountIn := by
    rw [value]
    exact Nat.div_le_div_right (Nat.min_le_left _ _)
  have room : (sides pool tokenIn).1.val + amountIn.val ≤ 2 ^ 128 - 1 := by
    unfold parts U128.largest at fits
    omega
  have fair : (sides pool tokenIn).1.val * (sides pool tokenIn).2.val ≤
      ((sides pool tokenIn).1.val + amountIn.val) * ((sides pool tokenIn).2.val -
        fairOut (sides pool tokenIn).1 (sides pool tokenIn).2 amountIn) :=
    ConstantProduct.product_le (by decide)
      (Nat.mul_pos (by decide) (U128.pos_iff.mp stocked.1)) (U128.pos_iff.mp stocked.2)
  have product := fair.trans (Nat.mul_le_mul_left _ (Nat.sub_le_sub_left low _))
  apply Shares.keeps_trade
  · have traded := sides_product (swapped pool tokenIn amountIn amountOut) tokenIn
    rw [swapped_reserves, U128.saturatingAdd_val, U128.saturatingSub_val,
      Nat.min_eq_left room] at traded
    rw [sides_product] at product
    exact product.trans traded.le
  · change (swapped pool tokenIn amountIn amountOut).totalShares.val = pool.totalShares.val
    unfold swapped
    split_ifs <;> rfl

end Pools

/-! ### What a command does to the pools -/

section Steps

variable [SerdeJson] {state middle after : StateTree} {pool updated : Pool}

/-- One pool is written, and the others read the same. -/
def Writes (state after : StateTree) (pool : Pool) : Prop :=
  ∀ id, after.getJson? Pool (key id) =
    if pool.id = id then some pool else state.getJson? Pool (key id)

theorem writes_saved (same : ∀ id, middle.get (key id) = state.get (key id)) (pool : Pool) :
    Writes state (middle.putJson (key pool.id) pool) pool := by
  intro id
  by_cases own : pool.id = id
  · rw [if_pos own, ← own, StateTree.getJson?_putJson]
  · unfold StateTree.putJson
    rw [if_neg own, StateTree.getJson?_put_ne middle _ fun equal => own (key_injective equal)]
    unfold StateTree.getJson? StateTree.getJson
    rw [same]

theorem get_debited (state : StateTree) (token : Hash) (who : PartyId) (amount : U128) (id : Hash) :
    (debited state token who amount).get (key id) = state.get (key id) :=
  TokenPrism.get_head_withBalance state id.toHex (by decide) _ _ _

theorem get_credited {token : Hash} {who : PartyId} {amount : U128}
    [Blake3] (accepted : Accepts (TokenPrism.credit token who amount) state () after) (id : Hash) :
    after.get (key id) = state.get (key id) :=
  (TokenPrism.credited_of_accepts accepted).2.elsewhere id.toHex (by decide) (by decide)

variable [Blake3] {command : Command} {output : PrismOutput}

/-- What an accepted command does to the pools. -/
inductive Reworks (command : Command) (state after : StateTree) : Prop where
  | created {pool : Pool} (absent : state.get (key pool.id) = none) (empty : pool.totalShares = 0)
      (written : Writes state after pool)
  | deposited {pool : Pool} {id : Hash} {amountA amountB shares : U128}
      (parsed : fromSlice DexCommand command.payload = .ok (.addLiquidity id amountA amountB))
      (stored : state.getJson Pool (key id) = .ok (some pool))
      (priced : Accepts (minted pool amountA amountB) state shares state)
      (written : Writes state after (deposited pool command.submitter amountA amountB shares))
  | withdrawn {pool : Pool} {id : Hash} {shares : U128}
      (stored : state.getJson Pool (key id) = .ok (some pool)) (shared : pool.totalShares ≠ 0)
      (written : Writes state after (withdrawn pool command.submitter shares
        (quotient pool.reserveA shares pool.totalShares)
        (quotient pool.reserveB shares pool.totalShares)))
  | swapped {pool : Pool} {id tokenIn : Hash} {amountIn minOut amountOut : U128}
      (parsed : fromSlice DexCommand command.payload = .ok (.swap id tokenIn amountIn minOut))
      (stored : state.getJson Pool (key id) = .ok (some pool)) (positive : amountIn ≠ 0)
      (quoted : Accepts (quoteOut (sides pool tokenIn).1 (sides pool tokenIn).2 amountIn) state
        amountOut state)
      (nonzero : amountOut ≠ 0)
      (written : Writes state after (swapped pool tokenIn amountIn amountOut))

theorem reworks_of_accepts (accepted : Accepts (handle command) state output after) :
    Reworks command state after := by
  obtain ⟨operation, parsed, executed⟩ := accepts_handle accepted
  cases operation with
  | createPool first second =>
      obtain ⟨pool, absent, _, _, empty, _, rfl⟩ := accepts_createPool executed
      exact .created absent empty (writes_saved (fun _ => rfl) pool)
  | addLiquidity id amountA amountB =>
      obtain ⟨pool, _, stored, _⟩ := accepts_addLiquidity executed
      obtain ⟨_, _, shares, _, priced, _, _, _, rfl⟩ := (accepts_deposit stored).mp executed
      refine .deposited parsed stored priced (writes_saved ?_ (deposited _ _ _ _ _))
      intro other
      rw [get_debited, get_debited]
  | removeLiquidity id shares =>
      obtain ⟨pool, _, loaded, _⟩ := accepts_bind.mp executed
      obtain ⟨stored, _⟩ := accepts_load.mp loaded
      obtain ⟨_, _, shared, paid, last, first, second, _, rfl⟩ :=
        (accepts_withdrawal stored).mp executed
      refine .withdrawn stored shared (writes_saved ?_ (withdrawn _ _ _ _ _))
      intro other
      rw [get_credited second, get_credited first]
  | swap id tokenIn amountIn minOut =>
      obtain ⟨pool, _, loaded, _⟩ := accepts_bind.mp executed
      obtain ⟨stored, _⟩ := accepts_load.mp loaded
      obtain ⟨positive, _, amountOut, _, last, quoted, nonzero, _, paid, received, _, rfl⟩ :=
        accepts_swap stored executed
      obtain ⟨_, rfl⟩ := TokenPrism.accepts_debit.mp paid
      have named : (swapped pool tokenIn amountIn amountOut).id = pool.id := by
        unfold swapped
        split_ifs <;> rfl
      refine .swapped parsed stored positive quoted nonzero ?_
      rw [← named]
      refine writes_saved ?_ _
      intro other
      rw [get_credited received, get_debited]

/-! ### Runs -/

/-- Pools are stored under their own name, and every share is backed. -/
structure Solid (state : StateTree) : Prop where
  keyed : Keyed state
  backed : ∀ id pool, state.getJson? Pool (key id) = some pool → Backed (stock pool)

/-- The pools stay solid, and shares keep their value as long as there are any. -/
structure Follows (state after : StateTree) : Prop where
  solid : Solid after
  keeps : ∀ id pool, state.getJson? Pool (key id) = some pool → pool.totalShares ≠ 0 →
    ∃ later, after.getJson? Pool (key id) = some later ∧ Keeps (stock pool) (stock later)

omit [Blake3] in
/-- Only the pool that is written has to be checked. -/
theorem Solid.write (solid : Solid state) (written : Writes state after updated)
    (backed : Backed (stock updated))
    (keeps : ∀ pool, state.getJson? Pool (key updated.id) = some pool → pool.totalShares ≠ 0 →
      Keeps (stock pool) (stock updated)) : Follows state after := by
  refine ⟨⟨?_, ?_⟩, ?_⟩
  · intro id pool stored
    rw [written] at stored
    by_cases own : updated.id = id
    · rw [if_pos own] at stored
      rw [← Option.some.inj stored]
      exact own
    · rw [if_neg own] at stored
      exact solid.keyed id pool stored
  · intro id pool stored
    rw [written] at stored
    by_cases own : updated.id = id
    · rw [if_pos own] at stored
      rw [← Option.some.inj stored]
      exact backed
    · rw [if_neg own] at stored
      exact solid.backed id pool stored
  · intro id pool stored shared
    rw [written]
    by_cases own : updated.id = id
    · rw [if_pos own]
      rw [← own] at stored
      exact ⟨updated, rfl, keeps pool stored shared⟩
    · rw [if_neg own]
      exact ⟨pool, stored, Keeps.refl _⟩

/-- What the arithmetic of a command needs: room in the reserves that a deposit adds to, and a
divisor of a quote that is an amount.  Outside the prism the pools stay. -/
def Roomy (state : StateTree) : Move → Prop
  | .command command =>
      (∀ id amountA amountB pool,
        fromSlice DexCommand command.payload = .ok (.addLiquidity id amountA amountB) →
        state.getJson Pool (key id) = .ok (some pool) → HasRoom pool amountA amountB) ∧
      ∀ id tokenIn amountIn minOut pool,
        fromSlice DexCommand command.payload = .ok (.swap id tokenIn amountIn minOut) →
        state.getJson Pool (key id) = .ok (some pool) →
        parts (sides pool tokenIn).1 amountIn ≤ U128.largest
  | .elapse later => ∀ id, later.get (key id) = state.get (key id)

omit [Blake3] in
theorem Solid.reworked (solid : Solid state) (roomy : Roomy state (.command command))
    (reworks : Reworks command state after) : Follows state after := by
  have named {id : Hash} {pool : Pool} (stored : state.getJson Pool (key id) = .ok (some pool)) :
      state.getJson? Pool (key pool.id) = some pool := by
    have read : state.getJson? Pool (key id) = some pool := by
      unfold StateTree.getJson?
      rw [stored]
    rw [solid.keyed id pool read]
    exact read
  cases reworks with
  | @created pool absent empty written =>
      refine solid.write written ?_ ?_
      · change pool.totalShares.val ^ 2 ≤ _
        rw [empty]
        exact Nat.zero_le _
      · intro other stored
        unfold StateTree.getJson? StateTree.getJson at stored
        rw [absent] at stored
        cases stored
  | @deposited pool id amountA amountB shares parsed stored priced written =>
      have room := roomy.1 id amountA amountB pool parsed stored
      have read := named stored
      have keeps (shared : pool.totalShares ≠ 0) :=
        deposited_keeps command.submitter shared room priced
      refine solid.write written ?_ ?_
      · by_cases empty : pool.totalShares = 0
        · exact deposited_backed empty room priced
        · exact (solid.backed _ pool read).keeps (fun none => empty (Fin.ext none)) (keeps empty)
      · intro other found shared
        rw [show (deposited pool command.submitter amountA amountB shares).id = pool.id from rfl,
          read] at found
        cases found
        exact keeps shared
  | @withdrawn pool id shares stored shared written =>
      have read := named stored
      have keeps := withdrawn_keeps pool command.submitter shares
      refine solid.write written ?_ ?_
      · exact (solid.backed _ pool read).keeps (fun none => shared (Fin.ext none)) keeps
      · intro other found _
        rw [show (DexPrism.withdrawn pool command.submitter shares _ _).id = pool.id from rfl,
          read] at found
        cases found
        exact keeps
  | @swapped pool id tokenIn amountIn minOut amountOut parsed stored positive quoted nonzero
      written =>
      have fits := roomy.2 id tokenIn amountIn minOut pool parsed stored
      have read := named stored
      have keeps := swapped_keeps fits quoted positive nonzero
      have same : (DexPrism.swapped pool tokenIn amountIn amountOut).id = pool.id ∧
          (DexPrism.swapped pool tokenIn amountIn amountOut).totalShares = pool.totalShares := by
        unfold DexPrism.swapped
        split_ifs <;> exact ⟨rfl, rfl⟩
      refine solid.write written ?_ ?_
      · by_cases empty : pool.totalShares = 0
        · change (DexPrism.swapped pool tokenIn amountIn amountOut).totalShares.val ^ 2 ≤ _
          rw [same.2, empty]
          exact Nat.zero_le _
        · exact (solid.backed _ pool read).keeps (fun none => empty (Fin.ext none)) keeps
      · intro other found _
        rw [same.1, read] at found
        cases found
        exact keeps

theorem Solid.advance (solid : Solid state) {move : Move} (roomy : Roomy state move) :
    Follows state (DexPrism.advance state move) := by
  have still {later : StateTree} (same : ∀ id, later.get (key id) = state.get (key id)) :
      Follows state later := by
    have read (id : Hash) : later.getJson? Pool (key id) = state.getJson? Pool (key id) := by
      unfold StateTree.getJson? StateTree.getJson
      rw [same]
    refine ⟨⟨solid.keyed.congr same, fun id pool stored => ?_⟩, fun id pool stored _ => ?_⟩
    · exact solid.backed id pool ((read id).symm.trans stored)
    · exact ⟨pool, (read id).trans stored, Keeps.refl _⟩
  cases move with
  | elapse later => exact still roomy
  | command command =>
      unfold DexPrism.advance Prism.step
      dsimp only
      cases handled : (prism.handle command).run.run state with
      | mk outcome after =>
          cases outcome with
          | error error => exact still fun _ => rfl
          | ok output => exact solid.reworked roomy (reworks_of_accepts handled)

/-- Shares of the pool are held. -/
def Shared (id : Hash) (state : StateTree) (_ : Move) : Prop :=
  ∀ pool, state.getJson? Pool (key id) = some pool → pool.totalShares ≠ 0

/-- Along a run every share stays backed, and what backs the shares of a pool does not fall as
long as some are held. -/
theorem share_value_kept {start : StateTree} {moves : List Move} (solid : Solid start)
    (roomy : Run.Along DexPrism.advance Roomy start moves) :
    Solid (Run.run DexPrism.advance start moves) ∧
      ∀ id pool, start.getJson? Pool (key id) = some pool →
        Run.Along DexPrism.advance (Shared id) start moves →
        ∃ later, (Run.run DexPrism.advance start moves).getJson? Pool (key id) = some later ∧
          Keeps (stock pool) (stock later) := by
  induction moves generalizing start with
  | nil => exact ⟨solid, fun id pool stored _ => ⟨pool, stored, Keeps.refl _⟩⟩
  | cons move rest ih =>
      have follows := solid.advance roomy.1
      obtain ⟨last, kept⟩ := ih follows.solid roomy.2
      refine ⟨last, ?_⟩
      intro id pool stored held
      obtain ⟨next, found, step⟩ := follows.keeps id pool stored (held.1 pool stored)
      obtain ⟨later, reached, further⟩ := kept id next found held.2
      refine ⟨later, reached, ?_⟩
      cases rest with
      | nil =>
          rw [Run.run_nil, found] at reached
          cases reached
          exact step
      | cons second others =>
          exact step.trans further fun none => held.2.1 next found (Fin.ext none)

end Steps

section Fixed

attribute [local instance] SerdeJson.compact Blake3.polynomial

/-- Pools of four shares that are backed by two units and eight. -/
theorem solid_stocked : Solid (stocked sharedPool 1 4) := by
  have empty : Solid StateTree.empty := by
    constructor
    · intro id other stored
      cases stored
    · intro id other stored
      cases stored
  have written : Writes .empty (stocked sharedPool 1 4) sharedPool :=
    writes_saved (fun id => (TokenPrism.get_head_withBalance _ id.toHex (by decide) _ _ _).trans
      (TokenPrism.get_head_withBalance _ id.toHex (by decide) _ _ _)) sharedPool
  refine (empty.write written ?_ ?_).solid
  · change (4 : U128).val ^ 2 ≤ (2 : U128).val * (8 : U128).val
    decide
  · intro pool stored
    cases stored

theorem stocked_stored {pool : Pool}
    (stored : (stocked sharedPool 1 4).getJson Pool (key .zero) = .ok (some pool)) :
    pool = sharedPool := by
  have read := @stocked_read _ sharedPool 1 4
  change (stocked sharedPool 1 4).getJson Pool (key .zero) = _ at read
  rw [read] at stored
  exact (Option.some.inj (Except.ok.inj stored)).symm

theorem roomy_shared : Run.Along advance Roomy (stocked sharedPool 1 4)
    [.command (depositCommand 1 4)] := by
  refine ⟨⟨?_, ?_⟩, trivial⟩
  · intro id amountA amountB pool parsed stored
    unfold depositCommand at parsed
    rw [parsed_command] at parsed
    cases parsed
    rw [stocked_stored stored]
    decide
  · intro id tokenIn amountIn minOut pool parsed
    unfold depositCommand at parsed
    rw [parsed_command] at parsed
    cases parsed

/-- A deposit of one unit and four. -/
theorem share_value_kept_deposit :
    ∃ later, (Run.run advance (stocked sharedPool 1 4)
        [.command (depositCommand 1 4)]).getJson? Pool (key .zero) = some later ∧
      Keeps (stock sharedPool) (stock later) := by
  have read : (stocked sharedPool 1 4).getJson? Pool (key .zero) = some sharedPool := by
    exact StateTree.getJson?_putJson _ (key sharedPool.id) sharedPool
  refine (share_value_kept solid_stocked roomy_shared).2 .zero sharedPool read ⟨?_, trivial⟩
  intro pool stored
  rw [read] at stored
  cases stored
  decide

end Fixed

end DexPrism

end Veilux
