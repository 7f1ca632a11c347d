/-
The token helpers behind fees and staking.  A move re-reads the target after the
debit, a burn lowers the recorded supply, and a fee is split between the two; none
of them changes the distance between the supply and the balances.
-/

import Veilux.Prism.TokenSupply

namespace Veilux

namespace U128

@[simp] theorem saturatingSub_val (left right : U128) :
    (left.saturatingSub right).val = left.val - right.val := rfl

theorem sub_val {left right : U128} (enough : right ≤ left) :
    (left - right).val = left.val - right.val :=
  Fin.sub_val_of_le enough

end U128

namespace TokenPrism

open PrismM

theorem checkedAdd_of_lt {left right : U128} (fits : left.val + right.val < 2 ^ 128) :
    left.checkedAdd right = some (left + right) := by
  unfold U128.checkedAdd
  rw [dif_pos fits]
  congr 1
  apply Fin.ext
  rw [Fin.val_add, Nat.mod_eq_of_lt fits]

/-! ### The burned share -/

/-- The burned share of a charge, with the product taken modulo the word size. -/
def burnShare (charged : U128) (burnBps : UInt16) : U128 :=
  charged * Fin.ofNat (2 ^ 128) (min burnBps.toNat 10000) / Fin.ofNat (2 ^ 128) 10000

theorem burnShare_val (charged : U128) (burnBps : UInt16) :
    (burnShare charged burnBps).val =
      charged.val * min burnBps.toNat 10000 % 2 ^ 128 / 10000 := by
  have share : (Fin.ofNat (2 ^ 128) (min burnBps.toNat 10000)).val = min burnBps.toNat 10000 :=
    Nat.mod_eq_of_lt (by omega)
  unfold burnShare
  rw [Fin.div_val, Fin.val_mul, share]
  rfl

theorem burnShare_le (charged : U128) (burnBps : UInt16) :
    (burnShare charged burnBps).val ≤ charged.val := by
  rw [burnShare_val]
  have wrapped := Nat.mod_le (charged.val * min burnBps.toNat 10000) (2 ^ 128)
  have capped : charged.val * min burnBps.toNat 10000 ≤ charged.val * 10000 :=
    Nat.mul_le_mul_left _ (Nat.min_le_right _ _)
  apply Nat.div_le_of_le_mul
  omega

theorem burnShare_exact (charged : U128) (burnBps : UInt16) (small : charged.val * 10000 < 2 ^ 128) :
    (burnShare charged burnBps).val = charged.val * min burnBps.toNat 10000 / 10000 := by
  have capped : charged.val * min burnBps.toNat 10000 ≤ charged.val * 10000 :=
    Nat.mul_le_mul_left _ (Nat.min_le_right _ _)
  rw [burnShare_val, Nat.mod_eq_of_lt (by omega)]

/-! ### Supply and excess -/

variable [SerdeJson]

/-- The recorded supply; without a readable record it counts as zero. -/
def supply (state : StateTree) (id : Hash) : Nat :=
  ((tokenMeta? state id).map fun info => info.totalSupply.val).getD 0

/-- What the record promises beyond the balances. -/
noncomputable def excess (state : StateTree) (id : Hash) : Int :=
  supply state id - total state id

theorem tokenMeta?_withBalance (state : StateTree) (id other : Hash) (who : PartyId)
    (value : U128) : tokenMeta? (withBalance state id who value) other = tokenMeta? state other :=
  StateTree.getJson?_put_ne state _ (balKey_ne_metaKey id other who)

theorem supply_withBalance (state : StateTree) (id other : Hash) (who : PartyId) (value : U128) :
    supply (withBalance state id who value) other = supply state other := by
  unfold supply
  rw [tokenMeta?_withBalance]

theorem supply_putMeta (state : StateTree) (id : Hash) (info : TokenMeta) :
    supply (state.putJson (metaKey id) info) id = info.totalSupply.val := by
  unfold supply tokenMeta?
  rw [StateTree.getJson?_putJson]
  rfl

/-- A lowered supply, or no record to lower. -/
def lowered (state : StateTree) (id : Hash) (amount : U128) : StateTree :=
  match tokenMeta? state id with
  | none => state
  | some info =>
      state.putJson (metaKey id)
        { info with totalSupply := info.totalSupply.saturatingSub amount }

theorem supply_lowered (state : StateTree) (id : Hash) (amount : U128) :
    supply (lowered state id amount) id = supply state id - amount.val := by
  unfold lowered
  cases found : tokenMeta? state id with
  | none =>
      have zero : supply state id = 0 := by
        unfold supply
        rw [found]
        rfl
      dsimp only
      rw [zero, Nat.zero_sub]
  | some info =>
      have recorded : supply state id = info.totalSupply.val := by
        unfold supply
        rw [found]
        rfl
      dsimp only
      rw [supply_putMeta, recorded]
      rfl

theorem balance_lowered (state : StateTree) (id other : Hash) (amount : U128) (who : PartyId) :
    balance (lowered state id amount) other who = balance state other who := by
  unfold lowered
  split
  · rfl
  · exact balance_put_ne state _ fun same => balKey_ne_metaKey other id who same.symm

theorem total_lowered (state : StateTree) (id other : Hash) (amount : U128) :
    total (lowered state id amount) other = total state other := by
  unfold total
  congr 1
  funext who
  rw [balance_lowered]

/-! ### What the helpers leave behind -/

/-- The state after a debit. -/
def debited (state : StateTree) (id : Hash) (who : PartyId) (amount : U128) : StateTree :=
  withBalance state id who (balance state id who - amount)

/-- The state after a move: the credit is computed from the debited state. -/
def transferred (state : StateTree) (id : Hash) (source target : PartyId) (amount : U128) :
    StateTree :=
  withBalance (debited state id source amount) id target
    (balance (debited state id source amount) id target + amount)

variable {state after : StateTree} {id : Hash} {who source target : PartyId} {amount : U128}
  {result : Unit}

theorem accepts_debit :
    Accepts (debit id who amount) state result after ↔
      amount ≤ balance state id who ∧ after = debited state id who amount := by
  simp only [debit, setBalance, accepts_bind, accepts_get, accepts_ite, accepts_throw,
    accepts_modify]
  constructor
  · rintro ⟨_, _, ⟨rfl, rfl⟩, ⟨_, _, _, impossible, _⟩ | ⟨enough, rfl⟩⟩
    · cases impossible
    · exact ⟨not_lt.mp enough, rfl⟩
  · rintro ⟨enough, rfl⟩
    exact ⟨_, _, ⟨rfl, rfl⟩, .inr ⟨not_lt.mpr enough, rfl⟩⟩

theorem accepts_moveBalance :
    Accepts (moveBalance id source target amount) state result after ↔
      amount ≤ balance state id source ∧
        (balance (debited state id source amount) id target).val + amount.val < 2 ^ 128 ∧
        after = transferred state id source target amount := by
  simp only [moveBalance, setBalance, accepts_bind, accepts_get, accepts_modify, accepts_debit,
    accepts_addOr]
  constructor
  · rintro ⟨_, _, ⟨enough, rfl⟩, _, _, ⟨rfl, rfl⟩, credited, _, ⟨added, rfl⟩, rfl⟩
    refine ⟨enough, ?_, ?_⟩
    · rw [← checkedAdd_val added]
      exact credited.isLt
    · rw [checkedAdd_eq_add added]
      rfl
  · rintro ⟨enough, fits, rfl⟩
    exact ⟨(), _, ⟨enough, rfl⟩, _, _, ⟨rfl, rfl⟩, _, _, ⟨checkedAdd_of_lt fits, rfl⟩, rfl⟩

theorem accepts_lowerSupply :
    Accepts (lowerSupply id amount) state result after ↔ after = lowered state id amount := by
  simp only [lowerSupply, lowered, setMeta, accepts_bind, accepts_get]
  constructor
  · rintro ⟨_, _, ⟨rfl, rfl⟩, accepted⟩
    cases found : tokenMeta? state id with
    | none =>
        simp only [found, accepts_pure, true_and] at accepted
        exact accepted.symm
    | some info =>
        simp only [found, accepts_modify] at accepted
        exact accepted.symm
  · rintro rfl
    refine ⟨_, _, ⟨rfl, rfl⟩, ?_⟩
    cases found : tokenMeta? state id with
    | none => simp only [accepts_pure, and_self]
    | some info => simp only [accepts_modify]

theorem accepts_burnFrom :
    Accepts (burnFrom id who amount) state result after ↔
      amount ≤ balance state id who ∧ after = lowered (debited state id who amount) id amount := by
  simp only [burnFrom, accepts_bind, accepts_debit, accepts_lowerSupply]
  constructor
  · rintro ⟨_, _, ⟨enough, rfl⟩, rfl⟩
    exact ⟨enough, rfl⟩
  · rintro ⟨enough, rfl⟩
    exact ⟨(), _, ⟨enough, rfl⟩, rfl⟩

/-! ### Totals -/

theorem total_debited (enough : amount ≤ balance state id who) :
    total (debited state id who amount) id + amount.val = total state id := by
  have written := total_withBalance state id who (balance state id who - amount)
  have bound : amount.val ≤ (balance state id who).val := enough
  rw [U128.sub_val enough] at written
  unfold debited
  omega

theorem total_transferred (enough : amount ≤ balance state id source)
    (fits : (balance (debited state id source amount) id target).val + amount.val < 2 ^ 128) :
    total (transferred state id source target amount) id = total state id := by
  have written := total_withBalance (debited state id source amount) id target
    (balance (debited state id source amount) id target + amount)
  rw [Fin.val_add, Nat.mod_eq_of_lt fits] at written
  have taken := total_debited enough
  unfold transferred
  omega

theorem supply_debited : supply (debited state id who amount) id = supply state id :=
  supply_withBalance state id id who _

theorem supply_transferred :
    supply (transferred state id source target amount) id = supply state id := by
  unfold transferred
  rw [supply_withBalance, supply_debited]

theorem supply_lt (state : StateTree) (id : Hash) : supply state id < 2 ^ 128 := by
  unfold supply
  cases tokenMeta? state id with
  | none => decide
  | some info => exact info.totalSupply.isLt

theorem excess_moveBalance (accepted : Accepts (moveBalance id source target amount) state result
    after) : excess after id = excess state id := by
  obtain ⟨enough, fits, rfl⟩ := accepts_moveBalance.mp accepted
  unfold excess
  rw [supply_transferred, total_transferred enough fits]

theorem excess_burnFrom (backed : total state id ≤ supply state id)
    (accepted : Accepts (burnFrom id who amount) state result after) :
    excess after id = excess state id := by
  obtain ⟨enough, rfl⟩ := accepts_burnFrom.mp accepted
  have taken := total_debited enough
  have lower := supply_lowered (debited state id who amount) id amount
  rw [supply_debited] at lower
  unfold excess
  rw [total_lowered, lower]
  omega

/-! ### Fees -/

/-- The reward, when there is one. -/
def rewardedTo (state : StateTree) (id : Hash) (proposer : PartyId) (rewarded : U128) : StateTree :=
  if 0 < rewarded then withBalance state id proposer (balance state id proposer + rewarded)
  else state

/-- The burn, when there is one. -/
def burnedFrom (state : StateTree) (id : Hash) (burned : U128) : StateTree :=
  if 0 < burned then lowered state id burned else state

/-- The burn at the end of a fee, with the outcome it returns. -/
theorem accepts_burn_then {burned : U128} {outcome : FeeOutcome} :
    Accepts (if 0 < burned then do
        match tokenMeta? (← get) id with
        | none => pure outcome
        | some info => do
            setMeta id { info with totalSupply := info.totalSupply.saturatingSub burned }
            pure outcome
      else pure outcome) state outcome (burnedFrom state id burned) := by
  unfold burnedFrom
  split
  · refine accepts_bind.mpr ⟨state, state, accepts_get.mpr ⟨rfl, rfl⟩, ?_⟩
    unfold lowered
    cases tokenMeta? state id with
    | none => exact accepts_pure.mpr ⟨rfl, rfl⟩
    | some info =>
        refine accepts_bind.mpr ⟨(), _, accepts_modify.mpr rfl, ?_⟩
        exact accepts_pure.mpr ⟨rfl, rfl⟩
  · exact accepts_pure.mpr ⟨rfl, rfl⟩

theorem collectFee_nothing {payer proposer : PartyId} {fee : U128} {burnBps : UInt16}
    (nothing : min fee (balance state id payer) = 0) :
    Accepts (collectFee id payer proposer fee burnBps) state ⟨0, 0, 0⟩ state := by
  refine accepts_bind.mpr ⟨state, state, accepts_get.mpr ⟨rfl, rfl⟩, ?_⟩
  exact accepts_ite.mpr (.inl ⟨nothing, accepts_pure.mpr ⟨rfl, rfl⟩⟩)

theorem collectFee_charged {payer proposer : PartyId} {fee : U128} {burnBps : UInt16}
    {charged rewarded : U128} (charge : charged = min fee (balance state id payer))
    (something : charged ≠ 0)
    (reward : rewarded = charged - burnShare charged burnBps)
    (fits : (balance (debited state id payer charged) id proposer).val + rewarded.val < 2 ^ 128) :
    Accepts (collectFee id payer proposer fee burnBps) state
      ⟨charged, burnShare charged burnBps, rewarded⟩
      (burnedFrom (rewardedTo (debited state id payer charged) id proposer rewarded) id
        (burnShare charged burnBps)) := by
  subst charge
  subst reward
  refine accepts_bind.mpr ⟨state, state, accepts_get.mpr ⟨rfl, rfl⟩, ?_⟩
  refine accepts_ite.mpr (.inr ⟨something, ?_⟩)
  refine accepts_bind.mpr ⟨(), debited state id payer _, accepts_modify.mpr rfl, ?_⟩
  unfold rewardedTo
  refine accepts_ite.mpr ?_
  by_cases positive : 0 < min fee (balance state id payer) -
      burnShare (min fee (balance state id payer)) burnBps
  · rw [if_pos positive]
    refine .inl ⟨positive, ?_⟩
    refine accepts_bind.mpr ⟨_, _, accepts_get.mpr ⟨rfl, rfl⟩, ?_⟩
    refine accepts_bind.mpr ⟨_, _, accepts_addOr.mpr ⟨checkedAdd_of_lt fits, rfl⟩, ?_⟩
    refine accepts_bind.mpr ⟨(), _, accepts_modify.mpr rfl, ?_⟩
    exact accepts_burn_then
  · rw [if_neg positive]
    exact .inr ⟨positive, accepts_burn_then⟩

theorem total_rewardedTo {rewarded : U128}
    (fits : (balance state id who).val + rewarded.val < 2 ^ 128) :
    total (rewardedTo state id who rewarded) id = total state id + rewarded.val := by
  unfold rewardedTo
  split
  · have written := total_withBalance state id who (balance state id who + rewarded)
    rw [Fin.val_add, Nat.mod_eq_of_lt fits] at written
    omega
  · rename_i nothing
    have zero : rewarded.val = 0 := Nat.eq_zero_of_not_pos nothing
    omega

theorem supply_rewardedTo {rewarded : U128} :
    supply (rewardedTo state id who rewarded) id = supply state id := by
  unfold rewardedTo
  split
  · exact supply_withBalance state id id who _
  · rfl

theorem total_burnedFrom {burned : U128} : total (burnedFrom state id burned) id = total state id := by
  unfold burnedFrom
  split
  · exact total_lowered state id id burned
  · rfl

theorem supply_burnedFrom {burned : U128} :
    supply (burnedFrom state id burned) id = supply state id - burned.val := by
  unfold burnedFrom
  split
  · exact supply_lowered state id burned
  · rename_i nothing
    have zero : burned.val = 0 := Nat.eq_zero_of_not_pos nothing
    rw [zero, Nat.sub_zero]

/-- A fee is always collected in full from what the payer has, and what leaves the
balances leaves the supply. -/
theorem collectFee_spec (backed : total state id ≤ supply state id) (payer proposer : PartyId)
    (fee : U128) (burnBps : UInt16) :
    ∃ outcome after, Accepts (collectFee id payer proposer fee burnBps) state outcome after ∧
      excess after id = excess state id ∧
      outcome.charged = min fee (balance state id payer) ∧
      outcome.charged.val = outcome.burned.val + outcome.rewarded.val ∧
      (outcome.charged.val * 10000 < 2 ^ 128 →
        outcome.burned.val = outcome.charged.val * min burnBps.toNat 10000 / 10000) := by
  by_cases nothing : min fee (balance state id payer) = 0
  · refine ⟨_, _, collectFee_nothing nothing, rfl, nothing.symm, rfl, ?_⟩
    intro _
    change 0 = 0 * min burnBps.toNat 10000 / 10000
    rw [Nat.zero_mul, Nat.zero_div]
  · have enough : min fee (balance state id payer) ≤ balance state id payer := min_le_right _ _
    generalize charge : min fee (balance state id payer) = charged at nothing enough
    have share := burnShare_le charged burnBps
    have rest : (charged - burnShare charged burnBps).val =
        charged.val - (burnShare charged burnBps).val := U128.sub_val share
    generalize reward : charged - burnShare charged burnBps = rewarded at rest
    have taken := total_debited enough
    have held := balance_le_total (debited state id payer charged) id proposer
    have limit := supply_lt state id
    have fits : (balance (debited state id payer charged) id proposer).val + rewarded.val <
        2 ^ 128 := by
      omega
    refine ⟨_, _, collectFee_charged charge.symm nothing reward.symm fits, ?_, rfl, ?_, ?_⟩
    · unfold excess
      rw [supply_burnedFrom, total_burnedFrom, supply_rewardedTo, total_rewardedTo fits,
        supply_debited]
      omega
    · change charged.val = (burnShare charged burnBps).val + rewarded.val
      omega
    · exact burnShare_exact charged burnBps

/-! ### The seeded token -/

/-- What a list of allocations hands out. -/
def handedOut (allocations : List (PartyId × U128)) : Nat :=
  (allocations.map fun allocation => allocation.2.val).sum

omit [SerdeJson] in
theorem sum_val (allocations : List (PartyId × U128)) (fits : handedOut allocations < 2 ^ 128) :
    (allocations.map Prod.snd).sum.val = handedOut allocations := by
  induction allocations with
  | nil => rfl
  | cons allocation rest ih =>
      have split : handedOut (allocation :: rest) = allocation.2.val + handedOut rest := rfl
      rw [split] at fits ⊢
      rw [List.map_cons, List.sum_cons, Fin.val_add, ih (by omega), Nat.mod_eq_of_lt fits]

/-- The loop adds every allocation to the total and leaves the supply alone. -/
theorem allocate_spec (allocations : List (PartyId × U128)) (state : StateTree)
    (fits : total state id + handedOut allocations < 2 ^ 128) :
    ∃ after, Accepts (allocate id allocations) state () after ∧
      total after id = total state id + handedOut allocations ∧
      supply after id = supply state id := by
  induction allocations generalizing state with
  | nil => exact ⟨state, accepts_pure.mpr ⟨rfl, rfl⟩, rfl, rfl⟩
  | cons allocation rest ih =>
      obtain ⟨who, amount⟩ := allocation
      have split : handedOut ((who, amount) :: rest) = amount.val + handedOut rest := rfl
      have held := balance_le_total state id who
      rw [split] at fits
      have room : (balance state id who).val + amount.val < 2 ^ 128 := by
        omega
      have written := total_withBalance state id who (balance state id who + amount)
      rw [Fin.val_add, Nat.mod_eq_of_lt room] at written
      obtain ⟨after, accepted, sum, same⟩ :=
        ih (withBalance state id who (balance state id who + amount)) (by omega)
      refine ⟨after, ?_, ?_, ?_⟩
      · refine accepts_bind.mpr ⟨state, state, accepts_get.mpr ⟨rfl, rfl⟩, ?_⟩
        refine accepts_bind.mpr ⟨_, _, accepts_addOr.mpr ⟨checkedAdd_of_lt room, rfl⟩, ?_⟩
        exact accepts_bind.mpr ⟨(), _, accepts_modify.mpr rfl, accepted⟩
      · rw [sum, split]
        omega
      · rw [same, supply_withBalance]

/-- A freshly seeded native token: the balances sum to the supply. -/
theorem seedNativeToken_spec [Blake3] (name symbol : String) (decimals : UInt8)
    (treasury : PartyId) (allocations : List (PartyId × U128)) {state : StateTree}
    (absent : state.contains (metaKey nativeTokenId) = false)
    (empty : total state nativeTokenId = 0) (fits : handedOut allocations < 2 ^ 128) :
    ∃ after, Accepts (seedNativeToken name symbol decimals treasury allocations) state
        nativeTokenId after ∧
      total after nativeTokenId = handedOut allocations ∧
      supply after nativeTokenId = handedOut allocations := by
  let info : TokenMeta :=
    { tokenId := nativeTokenId
      name := name
      symbol := symbol
      decimals := decimals
      totalSupply := (allocations.map Prod.snd).sum
      owner := treasury
      mintable := true }
  have opening : total (state.putJson (metaKey nativeTokenId) info) nativeTokenId = 0 := by
    rw [total_putMeta, empty]
  obtain ⟨after, accepted, sum, same⟩ := allocate_spec allocations
    (state.putJson (metaKey nativeTokenId) info)
    (show total _ nativeTokenId + handedOut allocations < 2 ^ 128 by omega)
  refine ⟨after, ?_, by omega, ?_⟩
  · refine accepts_bind.mpr ⟨state, state, accepts_get.mpr ⟨rfl, rfl⟩, ?_⟩
    refine accepts_ite.mpr (.inr ⟨ne_true_of_eq_false absent, ?_⟩)
    refine accepts_bind.mpr ⟨(), _, accepts_modify.mpr rfl, ?_⟩
    exact accepts_bind.mpr ⟨(), after, accepted, accepts_pure.mpr ⟨rfl, rfl⟩⟩
  · rw [same, supply_putMeta]
    exact sum_val allocations fits

end TokenPrism

end Veilux
