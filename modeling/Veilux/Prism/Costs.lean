/-
What the installed prisms charge.  No output costs more than a fixed ceiling, and
only the joint accounts and the models derive a command, one at a time.
-/

import Veilux.Kernel.Modest
import Veilux.Prism.PhotonGas
import Veilux.Prism.Spares

namespace Veilux

open PrismM

/-- No installed prism charges more. -/
def costCeiling : Nat := 2 ^ 32

abbrev Frugal (action : PrismM PrismOutput) : Prop :=
  Yields (PrismOutput.Modest costCeiling) action

theorem frugal_single {event : Event} {cost : UInt64} (within : cost.toNat ≤ costCeiling) :
    Frugal (pure (PrismOutput.single event cost)) :=
  yields_pure (PrismOutput.single_modest event within)

/-- An output with at most one derived command. -/
theorem frugal_deriving {events : List Event} {cost : UInt64} {derives : Bool} {derived : Command}
    (within : cost.toNat ≤ costCeiling) :
    Frugal (pure
      { events := events
        derivedCommands := if derives then [derived] else []
        cost := cost }) := by
  refine yields_pure ⟨within, ?_⟩
  cases derives with
  | true => exact le_refl 1
  | false => exact Nat.zero_le 1

variable [SerdeJson] [Blake3]

/-! ### Tokens, pools and schedules -/

theorem TokenPrism.modest : TokenPrism.prism.Modest costCeiling := by
  intro command
  change Frugal (handle command)
  unfold handle
  split
  · exact yields_throw _
  · rename_i operation _
    cases operation with
    | create name symbol decimals initialSupply mintable =>
        refine yields_bind fun _ => yields_guard (yields_bind fun _ => yields_bind fun _ => ?_)
        exact frugal_single (by decide)
    | transfer tokenId target amount =>
        refine yields_bind fun _ => yields_bind fun _ => yields_guard (yields_bind fun _ => ?_)
        refine yields_bind fun _ => yields_bind fun _ => yields_bind fun _ => ?_
        exact frugal_single (by decide)
    | approve tokenId spender amount =>
        exact yields_bind fun _ => yields_bind fun _ => frugal_single (by decide)
    | transferFrom tokenId source target amount =>
        refine yields_bind fun _ => yields_bind fun _ => yields_guard (yields_bind fun _ => ?_)
        refine yields_guard (yields_bind fun _ => yields_bind fun _ => yields_bind fun _ => ?_)
        exact yields_bind fun _ => yields_bind fun _ => frugal_single (by decide)
    | mint tokenId target amount =>
        refine yields_bind fun _ => yields_guard (yields_guard (yields_bind fun _ => ?_))
        refine yields_bind fun _ => yields_bind fun _ => yields_bind fun _ => ?_
        exact yields_bind fun _ => frugal_single (by decide)
    | burn tokenId amount =>
        refine yields_bind fun _ => yields_bind fun _ => yields_guard ?_
        exact yields_bind fun _ => yields_bind fun _ => frugal_single (by decide)

theorem DexPrism.modest : DexPrism.prism.Modest costCeiling := by
  intro command
  change Frugal (handle command)
  unfold handle
  split
  · exact yields_throw _
  · rename_i operation _
    cases operation with
    | createPool tokenA tokenB =>
        refine yields_guard (yields_bind fun _ => yields_guard (yields_bind fun _ => ?_))
        exact frugal_single (by decide)
    | addLiquidity pool amountA amountB =>
        refine yields_bind fun _ => yields_guard (yields_bind fun _ => yields_guard ?_)
        refine yields_bind fun _ => yields_bind fun _ => yields_bind fun _ => ?_
        exact frugal_single (by decide)
    | removeLiquidity pool shares =>
        refine yields_bind fun _ => yields_guard (yields_bind fun _ => yields_bind fun _ => ?_)
        refine yields_bind fun _ => yields_bind fun _ => yields_bind fun _ => ?_
        exact frugal_single (by decide)
    | swap pool tokenIn amountIn minOut =>
        refine yields_bind fun _ => yields_guard (yields_ite ?_ (yields_ite ?_ ?_))
        · refine yields_bind fun _ => yields_bind fun _ => yields_guard (yields_bind fun _ => ?_)
          exact yields_bind fun _ => yields_bind fun _ => frugal_single (by decide)
        · refine yields_bind fun _ => yields_bind fun _ => yields_guard (yields_bind fun _ => ?_)
          exact yields_bind fun _ => yields_bind fun _ => frugal_single (by decide)
        · refine yields_bind fun _ => yields_bind fun _ => yields_guard (yields_bind fun _ => ?_)
          exact yields_bind fun _ => yields_bind fun _ => frugal_single (by decide)

theorem VestingPrism.modest : VestingPrism.prism.Modest costCeiling := by
  intro command
  change Frugal (handle command)
  unfold handle
  split
  · exact yields_throw _
  · rename_i operation _
    cases operation with
    | create tokenId beneficiary total start cliff duration revocable =>
        refine yields_guard (yields_guard (yields_bind fun _ => yields_guard ?_))
        exact yields_bind fun _ => yields_bind fun _ => frugal_single (by decide)
    | release schedule =>
        refine yields_bind fun _ => yields_guard (yields_bind fun _ => yields_guard ?_)
        exact yields_bind fun _ => yields_bind fun _ => frugal_single (by decide)
    | revoke schedule =>
        refine yields_bind fun _ => yields_guard (yields_guard (yields_guard ?_))
        refine yields_bind fun _ => yields_ite (yields_bind fun _ => yields_ite ?_ ?_)
          (yields_ite ?_ ?_)
        · exact yields_bind fun _ => yields_bind fun _ => frugal_single (by decide)
        · exact yields_bind fun _ => frugal_single (by decide)
        · exact yields_bind fun _ => yields_bind fun _ => frugal_single (by decide)
        · exact yields_bind fun _ => frugal_single (by decide)

/-! ### Notes, blobs and models -/

theorem ConfidentialPrism.modest : ConfidentialPrism.prism.Modest costCeiling := by
  intro command
  change Frugal (handle command)
  unfold handle
  split
  · exact yields_throw _
  · rename_i operation _
    cases operation with
    | createToken name symbol =>
        refine yields_bind fun _ => yields_guard (yields_bind fun _ => ?_)
        exact frugal_single (by decide)
    | mint tokenId opening =>
        refine yields_bind fun _ => yields_guard (yields_guard (yields_bind fun _ => ?_))
        exact yields_guard (yields_bind fun _ => frugal_single (by decide))
    | transfer tokenId input outputs =>
        refine yields_bind fun _ => yields_guard (yields_guard (yields_bind fun _ => ?_))
        split
        · exact yields_throw _
        · refine yields_guard ?_
          split
          · exact yields_throw _
          · refine yields_guard (yields_bind fun _ => ?_)
            split
            · exact yields_throw _
            · exact yields_bind fun _ => yields_bind fun _ => frugal_single (by decide)

theorem ContractPrism.modest (order : IterationOrder) :
    (ContractPrism.prism order).Modest costCeiling := by
  intro command
  change Frugal (handle order command)
  cases parsed : fromSlice ContractCommand command.payload with
  | error text =>
      unfold handle
      rw [parsed]
      exact yields_throw _
  | ok operation =>
      cases operation with
      | deploy code =>
          unfold handle
          rw [parsed]
          refine yields_unless fun short => yields_bind fun _ => frugal_single ?_
          have size : code.length ≤ 49152 := Nat.not_lt.mp short
          have len : (UInt64.ofNat code.length).toNat = code.length :=
            UInt64.toNat_ofNat_of_lt' (by change code.length < 2 ^ 64; omega)
          have product : (UInt64.ofNat code.length * 200).toNat = code.length * 200 := by
            rw [UInt64.toNat_mul, len]
            exact Nat.mod_eq_of_lt (by change code.length * 200 < 2 ^ 64; omega)
          rw [UInt64.toNat_add, product]
          exact (Nat.mod_le _ _).trans (by change 32000 + code.length * 200 ≤ 2 ^ 32; omega)
      | call address args value gasLimit =>
          intro state output after accepted
          cases starts : started state command with
          | some vm =>
              obtain ⟨called, final, ran, cost, derived, _⟩ := @handle_cost _ _ order _ _ _ starts
              have same : called = output := by
                have both := ran.symm.trans accepted
                cases both
                rfl
              subst same
              refine ⟨cost.trans (by decide), ?_⟩
              rw [derived]
              exact Nat.zero_le 1
          | none =>
              unfold started at starts
              unfold handle at accepted
              rw [parsed] at starts accepted
              dsimp only at starts accepted
              unfold Accepts at accepted
              rw [call_run] at accepted
              split at accepted
              · cases accepted
              · cases accepted
              · rename_i info found
                rw [found] at starts
                cases starts

theorem StoragePrism.modest : StoragePrism.prism.Modest costCeiling := by
  intro command
  change Frugal (handle command)
  unfold handle
  split
  · exact yields_throw _
  · rename_i operation _
    cases operation with
    | put key data =>
        have priced (short : data.length ≤ maxBlobSize) :
            (100 + UInt64.ofNat data.length * 2).toNat ≤ costCeiling := by
          have size : data.length ≤ 1048576 := short
          have len : (UInt64.ofNat data.length).toNat = data.length :=
            UInt64.toNat_ofNat_of_lt' (by change data.length < 2 ^ 64; omega)
          have product : (UInt64.ofNat data.length * 2).toNat = data.length * 2 := by
            rw [UInt64.toNat_mul, len]
            exact Nat.mod_eq_of_lt (by change data.length * 2 < 2 ^ 64; omega)
          rw [UInt64.toNat_add, product]
          exact (Nat.mod_le _ _).trans (by change 100 + data.length * 2 ≤ 2 ^ 32; omega)
        refine yields_unless fun short => yields_bind fun _ => yields_ite ?_ ?_
        · refine yields_bind fun _ => yields_bind fun _ => yields_bind fun _ => ?_
          exact frugal_single (priced (Nat.not_lt.mp short))
        · refine yields_bind fun _ => yields_bind fun _ => ?_
          exact frugal_single (priced (Nat.not_lt.mp short))
    | op operation =>
        cases operation with
        | pin cid =>
            refine yields_bind fun _ => yields_guard (yields_bind fun _ => yields_bind fun _ => ?_)
            exact frugal_single (by decide)
        | unpin cid =>
            refine yields_bind fun _ => yields_guard (yields_ite ?_ ?_)
            · exact yields_bind fun _ => yields_bind fun _ => frugal_single (by decide)
            · exact yields_bind fun _ => frugal_single (by decide)

/-- `ModelKind::base_cost`. -/
def ModelKind.baseCost : ModelKind → UInt64
  | .classification => 8000
  | .regression => 6000
  | .embedding => 12000
  | .text => 20000

/-- The cost that `run_inference` returns: the vector of an embedding is paid by its length. -/
def AiPrism.inferenceCost (model : ModelRecord) : UInt64 :=
  match model.kind with
  | .embedding => model.kind.baseCost +
      UInt64.ofNat (min (max model.dimensions.toNat 8) 1024) * 4
  | _ => model.kind.baseCost

/-- The inference prices its runs as `run_inference` does. -/
def Inference.Priced [Inference] : Prop :=
  ∀ model input, (Inference.run model input).2 = AiPrism.inferenceCost model

omit [SerdeJson] [Blake3] in
theorem AiPrism.inferenceCost_le (model : ModelRecord) :
    (inferenceCost model).toNat ≤ costCeiling := by
  unfold inferenceCost
  cases model.kind with
  | embedding =>
      have dims : min (max model.dimensions.toNat 8) 1024 ≤ 1024 := Nat.min_le_right _ _
      generalize min (max model.dimensions.toNat 8) 1024 = width at dims
      have len : (UInt64.ofNat width).toNat = width :=
        UInt64.toNat_ofNat_of_lt' (by change width < 2 ^ 64; omega)
      have product : (UInt64.ofNat width * 4).toNat = width * 4 := by
        rw [UInt64.toNat_mul, len]
        exact Nat.mod_eq_of_lt (by change width * 4 < 2 ^ 64; omega)
      dsimp only
      rw [UInt64.toNat_add, product]
      exact (Nat.mod_le _ _).trans (by change 12000 + width * 4 ≤ 2 ^ 32; omega)
  | classification => exact (by decide : (8000 : UInt64).toNat ≤ costCeiling)
  | regression => exact (by decide : (6000 : UInt64).toNat ≤ costCeiling)
  | text => exact (by decide : (20000 : UInt64).toNat ≤ costCeiling)

theorem AiPrism.modest [Inference] (priced : Inference.Priced) :
    AiPrism.prism.Modest costCeiling := by
  intro command
  change Frugal (handle command)
  unfold handle
  split
  · exact yields_throw _
  · rename_i operation _
    cases operation with
    | register name kind weightsHash version dimensions =>
        exact yields_bind fun _ => frugal_single (by decide)
    | infer modelId input =>
        refine yields_bind fun model => frugal_deriving ?_
        exact (congrArg UInt64.toNat (priced model input)).trans_le (inferenceCost_le model)

theorem NftPrism.modest : NftPrism.prism.Modest costCeiling := by
  intro command
  change Frugal (handle command)
  unfold handle
  split
  · exact yields_throw _
  · rename_i operation _
    cases operation with
    | createCollection name symbol maxSupply =>
        refine yields_bind fun _ => yields_guard (yields_bind fun _ => ?_)
        exact frugal_single (by decide)
    | mint collectionId target metadataUri contentHash =>
        refine yields_bind fun _ => yields_guard (yields_guard (yields_bind fun _ => ?_))
        exact yields_bind fun _ => yields_bind fun _ => frugal_single (by decide)
    | transfer collectionId tokenIndex target =>
        refine yields_bind fun _ => yields_bind fun _ => yields_guard (yields_bind fun _ => ?_)
        exact yields_bind fun _ => frugal_single (by decide)
    | approve collectionId tokenIndex spender =>
        refine yields_bind fun _ => yields_guard (yields_bind fun _ => ?_)
        exact frugal_single (by decide)
    | burn collectionId tokenIndex =>
        refine yields_bind fun _ => yields_guard (yields_bind fun _ => yields_bind fun _ => ?_)
        exact yields_bind fun _ => frugal_single (by decide)

variable [Ed25519]

theorem BridgePrism.modest : BridgePrism.prism.Modest costCeiling := by
  intro command
  change Frugal (handle command)
  unfold handle
  split
  · exact yields_throw _
  · rename_i operation _
    cases operation with
    | registerChain chain guardians quorum =>
        refine yields_guard (yields_bind fun _ => ?_)
        split
        · exact yields_guard (yields_bind fun _ => frugal_single (by decide))
        · exact yields_bind fun _ => frugal_single (by decide)
    | send chain recipient tokenId amount =>
        refine yields_bind fun _ => yields_bind fun _ => yields_guard (yields_bind fun _ => ?_)
        exact yields_bind fun _ => yields_bind fun _ => frugal_single (by decide)
    | redeem transfer signatures =>
        refine yields_bind fun _ => yields_bind fun _ => yields_guard ?_
        split
        · exact yields_throw _
        · refine yields_bind fun _ => yields_bind fun _ => yields_bind fun _ => ?_
          exact yields_bind fun _ => frugal_single (by decide)

theorem OraclePrism.modest : OraclePrism.prism.Modest costCeiling := by
  intro command
  change Frugal (handle command)
  unfold handle
  split
  · exact yields_throw _
  · rename_i operation _
    cases operation with
    | registerFeed name reporters quorum =>
        refine yields_guard (yields_bind fun _ => yields_guard (yields_bind fun _ => ?_))
        exact frugal_single (by decide)
    | report feedId round value signatures =>
        refine yields_bind fun _ => yields_guard (yields_guard (yields_bind fun _ => ?_))
        exact yields_bind fun _ => frugal_single (by decide)

/-! ### Staking, names and joint accounts -/

omit [Ed25519] in
theorem StakingPrism.punish_modest (command : Command) (offence : Hash) (offender : PartyId) :
    Frugal (punish command offence offender) := by
  refine yields_bind fun _ => yields_guard (yields_bind fun _ => yields_ite ?_ ?_)
  · refine yields_bind fun _ => yields_bind fun _ => yields_bind fun _ => ?_
    exact yields_bind fun _ => frugal_single (by decide)
  · exact yields_bind fun _ => frugal_single (by decide)

theorem StakingPrism.modest : StakingPrism.prism.Modest costCeiling := by
  intro command
  change Frugal (handle command)
  unfold handle
  dsimp only
  split
  · exact yields_throw _
  · rename_i operation _
    cases operation with
    | stake amount =>
        refine yields_guard (yields_bind fun _ => yields_bind fun _ => yields_bind fun _ => ?_)
        exact yields_bind fun _ => frugal_single (by decide)
    | unstake amount =>
        refine yields_bind fun _ => yields_guard (yields_bind fun _ => yields_bind fun _ => ?_)
        exact yields_bind fun _ => frugal_single (by decide)
    | delegate validator amount =>
        refine yields_guard (yields_bind fun _ => yields_bind fun _ => yields_bind fun _ => ?_)
        refine yields_bind fun _ => yields_bind fun _ => yields_bind fun _ => ?_
        exact frugal_single (by decide)
    | undelegate validator amount =>
        refine yields_bind fun _ => yields_guard (yields_bind fun _ => yields_bind fun _ => ?_)
        refine yields_bind fun _ => yields_bind fun _ => yields_bind fun _ => ?_
        exact frugal_single (by decide)
    | propose title description votingPeriod =>
        refine yields_bind fun _ => yields_guard (yields_bind fun _ => yields_guard ?_)
        exact yields_bind fun _ => frugal_single (by decide)
    | vote proposalId approve =>
        refine yields_bind fun _ => yields_guard (yields_guard (yields_bind fun _ => ?_))
        refine yields_guard (yields_bind fun _ => yields_guard (yields_bind fun _ => ?_))
        exact yields_bind fun _ => frugal_single (by decide)
    | finalize proposalId =>
        refine yields_bind fun _ => yields_guard (yields_guard (yields_bind fun _ => ?_))
        exact frugal_single (by decide)
    | slash proof =>
        refine yields_bind fun _ => yields_bind fun _ => yields_bind fun _ => ?_
        refine yields_bind fun _ => yields_bind fun _ => yields_guard ?_
        exact yields_bind fun _ => yields_bind fun _ => punish_modest _ _ _
    | slashQuorum proof =>
        refine yields_guard (yields_guard (yields_bind fun _ => yields_bind fun canonical => ?_))
        cases canonical with
        | none => exact yields_throw _
        | some root => exact yields_guard (yields_guard (punish_modest _ _ _))
    | fundRewards amount =>
        refine yields_guard (yields_bind fun _ => yields_guard (yields_bind fun _ => ?_))
        exact yields_bind fun _ => yields_bind fun _ => frugal_single (by decide)
    | claimRewards =>
        refine yields_bind fun _ => yields_bind fun _ => yields_bind fun _ => ?_
        exact frugal_single (by decide)

omit [Ed25519] in
theorem NamePrism.modest : NamePrism.prism.Modest costCeiling := by
  intro command
  change Frugal (handle command)
  unfold handle
  split
  · exact yields_throw _
  · rename_i operation _
    refine yields_bind fun _ => ?_
    cases operation with
    | register raw duration target =>
        refine yields_bind fun name => yields_bind fun held => ?_
        cases held with
        | none => exact yields_bind fun _ => yields_bind fun _ => frugal_single (by decide)
        | some existing =>
            refine yields_guard (yields_bind fun _ => yields_bind fun _ => yields_bind fun _ => ?_)
            exact frugal_single (by decide)
    | renew raw duration =>
        refine yields_bind fun _ => yields_bind fun _ => yields_guard (yields_bind fun _ => ?_)
        exact frugal_single (by decide)
    | transfer raw target =>
        refine yields_bind fun _ => yields_bind fun _ => yields_bind fun _ => yields_bind fun _ => ?_
        exact frugal_single (by decide)
    | setTarget raw target =>
        refine yields_bind fun _ => yields_bind fun _ => yields_bind fun _ => yields_bind fun _ => ?_
        exact yields_bind fun _ => yields_bind fun _ => frugal_single (by decide)
    | setRecord raw key value =>
        refine yields_bind fun _ => yields_guard (yields_guard (yields_bind fun _ => ?_))
        refine yields_bind fun _ => yields_guard (yields_bind fun _ => ?_)
        exact frugal_single (by decide)
    | clearRecord raw key =>
        refine yields_bind fun _ => yields_bind fun _ => yields_bind fun _ => yields_bind fun _ => ?_
        exact frugal_single (by decide)
    | release raw =>
        refine yields_bind fun _ => yields_bind fun _ => yields_guard (yields_bind fun _ => ?_)
        exact yields_bind fun _ => frugal_single (by decide)

omit [Ed25519] in
theorem MultisigPrism.modest : MultisigPrism.prism.Modest costCeiling := by
  intro command
  change Frugal (handle command)
  unfold handle
  split
  · exact yields_throw _
  · rename_i operation _
    cases operation with
    | createAccount owners threshold =>
        refine yields_guard (yields_guard (yields_bind fun _ => yields_guard ?_))
        exact yields_bind fun _ => frugal_single (by decide)
    | propose account inner =>
        refine yields_bind fun _ => yields_bind fun _ => yields_bind fun _ => ?_
        exact frugal_deriving (by decide)
    | confirm account seq =>
        refine yields_bind fun _ => yields_bind fun _ => yields_guard (yields_bind fun _ => ?_)
        exact frugal_deriving (by decide)
    | revoke account seq =>
        refine yields_bind fun _ => yields_bind fun _ => yields_guard (yields_bind fun _ => ?_)
        exact frugal_single (by decide)

/-! ### The installed prisms -/

theorem Cascade.shipped_modest [Inference] (priced : Inference.Priced) (order : IterationOrder) :
    (Cascade.shipped order).Modest costCeiling := by
  unfold shipped
  refine Modest.install ?_ DexPrism.modest
  refine Modest.install ?_ VestingPrism.modest
  refine Modest.install ?_ MultisigPrism.modest
  refine Modest.install ?_ NamePrism.modest
  refine Modest.install ?_ ConfidentialPrism.modest
  refine Modest.install ?_ OraclePrism.modest
  refine Modest.install ?_ StakingPrism.modest
  refine Modest.install ?_ BridgePrism.modest
  refine Modest.install ?_ (ContractPrism.modest order)
  refine Modest.install ?_ NftPrism.modest
  refine Modest.install ?_ TokenPrism.modest
  refine Modest.install ?_ StoragePrism.modest
  exact modest_empty.install (AiPrism.modest priced)

omit [SerdeJson] [Blake3] [Ed25519] in
theorem Cascade.lookup_install (cascade : Cascade) (prism : Prism) (name : String) :
    (cascade.install prism).prisms.lookup name =
      if name = prism.name then some prism else cascade.prisms.lookup name := by
  unfold Cascade.install
  split
  · rename_i here
    rw [here]
    exact AList.lookup_insert _
  · rename_i elsewhere
    exact AList.lookup_insert_ne elsewhere

/-- The contract prism is the one installed under its name. -/
theorem Cascade.shipped_contract [Inference] (order : IterationOrder) :
    (Cascade.shipped order).prisms.lookup "contract" = some (ContractPrism.prism order) := by
  simp [shipped, lookup_install, DexPrism.prism, VestingPrism.prism, MultisigPrism.prism,
    NamePrism.prism, ConfidentialPrism.prism, OraclePrism.prism, StakingPrism.prism,
    BridgePrism.prism, ContractPrism.prism]

end Veilux
