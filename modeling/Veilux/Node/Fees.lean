/-
Fees on the native token: charging them, like the other helpers, leaves the distance
between the recorded supply and the balances as it was.
-/

import Veilux.Node.Blocks
import Veilux.Prism.NativeToken

namespace Veilux

namespace TokenPrism

open PrismM

section Charging

variable [SerdeJson] {state : StateTree}

theorem excess_chargeFee [Blake3] (backed : total state nativeTokenId ≤ supply state nativeTokenId)
    (policy : FeePolicy) (price : U128) (payer proposer : PartyId) (gasUsed : UInt64) :
    excess (Node.chargeFee policy price state payer proposer gasUsed) nativeTokenId =
      excess state nativeTokenId := by
  unfold Node.chargeFee
  split
  · rfl
  · dsimp only
    split
    · rfl
    · obtain ⟨outcome, after, accepted, same, _⟩ := collectFee_spec backed payer proposer
        (price.saturatingMul (Fin.ofNat (2 ^ 128) gasUsed.toNat)) policy.burnBps
      unfold Accepts at accepted
      rw [accepted]
      exact same

/-- Where the native balances are covered by the supply, moving, burning and
charging fees leave the distance between the two as it was, and collecting a fee
never fails. -/
theorem native_helpers_conserve [Blake3] (state : StateTree)
    (backed : total state nativeTokenId ≤ supply state nativeTokenId) :
    (∀ source target amount result after,
      Accepts (moveBalance nativeTokenId source target amount) state result after →
        excess after nativeTokenId = excess state nativeTokenId) ∧
    (∀ who amount result after,
      Accepts (burnFrom nativeTokenId who amount) state result after →
        excess after nativeTokenId = excess state nativeTokenId) ∧
    (∀ payer proposer fee burnBps, ∃ outcome after,
      Accepts (collectFee nativeTokenId payer proposer fee burnBps) state outcome after ∧
        excess after nativeTokenId = excess state nativeTokenId ∧
        outcome.charged = min fee (balance state nativeTokenId payer) ∧
        outcome.charged.val = outcome.burned.val + outcome.rewarded.val ∧
        (outcome.charged.val * 10000 < 2 ^ 128 →
          outcome.burned.val = outcome.charged.val * min burnBps.toNat 10000 / 10000)) ∧
    ∀ policy price payer proposer gasUsed,
      excess (Node.chargeFee policy price state payer proposer gasUsed) nativeTokenId =
        excess state nativeTokenId :=
  ⟨fun _ _ _ _ _ accepted => excess_moveBalance accepted,
    fun _ _ _ _ accepted => excess_burnFrom backed accepted,
    fun payer proposer fee burnBps => collectFee_spec backed payer proposer fee burnBps,
    fun policy price payer proposer gasUsed =>
      excess_chargeFee backed policy price payer proposer gasUsed⟩

end Charging

/-! ### A seeded token -/

section Seeded

attribute [local instance] SerdeJson.compact Blake3.polynomial

def luxAllocations : List (PartyId × U128) := [(⟨"alice"⟩, 1000), (⟨"bob"⟩, 500)]

/-- Alice proposes the block that charges her: half of the fee is burned, the other
half returns to her. -/
theorem native_helpers_conserve_lux :
    ∃ state, Accepts (seedNativeToken "Veilux" "LUX" 18 ⟨"treasury"⟩ luxAllocations)
        StateTree.empty nativeTokenId state ∧
      total state nativeTokenId ≤ supply state nativeTokenId ∧
      ∃ outcome after,
        Accepts (collectFee nativeTokenId ⟨"alice"⟩ ⟨"alice"⟩ 100 5000) state outcome after ∧
          excess after nativeTokenId = excess state nativeTokenId ∧
          outcome.charged = min 100 (balance state nativeTokenId ⟨"alice"⟩) ∧
          outcome.charged.val = outcome.burned.val + outcome.rewarded.val := by
  have absent : StateTree.empty.contains (metaKey nativeTokenId) = false := by
    rw [StateTree.contains_eq_isSome, StateTree.get_empty]
    rfl
  have empty : total StateTree.empty nativeTokenId = 0 := by
    rcases noTokens_empty.ledger nativeTokenId with ⟨_, sum⟩ | ⟨info, stored, _⟩
    · exact sum
    · rw [StateTree.get_empty] at stored
      cases stored
  obtain ⟨state, seeded, sum, recorded⟩ := seedNativeToken_spec "Veilux" "LUX" 18 ⟨"treasury"⟩
    luxAllocations absent empty (by decide)
  have backed : total state nativeTokenId ≤ supply state nativeTokenId := by
    omega
  obtain ⟨outcome, after, accepted, same, charged, shares, _⟩ :=
    (native_helpers_conserve state backed).2.2.1 ⟨"alice"⟩ ⟨"alice"⟩ 100 5000
  exact ⟨state, seeded, backed, outcome, after, accepted, same, charged, shares⟩

end Seeded

end TokenPrism

end Veilux
