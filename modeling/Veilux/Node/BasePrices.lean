/-
The base price from block to block.  A block over the target raises it, one under the target
lowers it to the floor at most; the raise is an eighth only while the block does not use much
more than twice the target.
-/

import Veilux.Node.Commands
import Veilux.Node.Untouched
import Veilux.Prism.Amounts

namespace Veilux

open StateTree (SameUnder)

namespace Node

/-! ### One adjustment -/

/-- The price behind a block that used this gas. -/
def nextPrice (policy : FeePolicy) (current : U128) (gas : UInt64) : U128 :=
  let target : U128 := Fin.ofNat (2 ^ 128) policy.targetGas.toNat
  let used : U128 := Fin.ofNat (2 ^ 128) gas.toNat
  let delta : U128 := max current 1 / 8
  if target < used then
    current.saturatingAdd (max (delta.saturatingMul (used - target) / target) 1)
  else if used < target then
    max (current.saturatingSub (delta.saturatingMul (target - used) / target))
      (max policy.pricePerGas 1)
  else current

variable {policy : FeePolicy} {current : U128} {gas : UInt64}

theorem gas_val (gas : UInt64) : (Fin.ofNat (2 ^ 128) gas.toNat).val = gas.toNat :=
  Nat.mod_eq_of_lt (by have := gas.toNat_lt; omega)

theorem delta_val (current : U128) : (max current 1 / 8 : U128).val = current.val / 8 := by
  have eight : (8 : U128).val = 8 := rfl
  rw [Fin.div_val, eight]
  rcases max_cases current 1 with ⟨same, _⟩ | ⟨same, small⟩
  · rw [same]
  · have none : current.val < 1 := small
    have one : (1 : U128).val = 1 := rfl
    rw [same, one]
    omega

theorem max_val (left right : U128) : (max left right).val = max left.val right.val := by
  rcases le_total left right with ordered | ordered
  · have values : left.val ≤ right.val := ordered
    rw [max_eq_right ordered, max_eq_right values]
  · have values : right.val ≤ left.val := ordered
    rw [max_eq_left ordered, max_eq_left values]

/-- The raise of a block over the target. -/
def raise (policy : FeePolicy) (current : U128) (gas : UInt64) : Nat :=
  min (current.val / 8 * (gas.toNat - policy.targetGas.toNat)) U128.largest /
    policy.targetGas.toNat

theorem nextPrice_above (busy : policy.targetGas < gas) :
    (nextPrice policy current gas).val =
      min (current.val + max (raise policy current gas) 1) U128.largest := by
  have ordered : policy.targetGas.toNat < gas.toNat := busy
  have used : (Fin.ofNat (2 ^ 128) policy.targetGas.toNat : U128) <
      Fin.ofNat (2 ^ 128) gas.toNat := by
    rw [Fin.lt_def, gas_val, gas_val]
    exact ordered
  unfold nextPrice raise
  dsimp only
  have one : (1 : U128).val = 1 := rfl
  rw [if_pos used, U128.saturatingAdd_val, max_val, Fin.div_val, U128.saturatingMul_val, delta_val,
    U128.sub_val (le_of_lt used), gas_val, gas_val, one]
  rfl

theorem nextPrice_below (calm : gas < policy.targetGas) :
    (nextPrice policy current gas).val =
      max (current.val - min (current.val / 8 * (policy.targetGas.toNat - gas.toNat)) U128.largest /
        policy.targetGas.toNat) (max policy.pricePerGas.val 1) := by
  have ordered : gas.toNat < policy.targetGas.toNat := calm
  have used : (Fin.ofNat (2 ^ 128) gas.toNat : U128) <
      Fin.ofNat (2 ^ 128) policy.targetGas.toNat := by
    rw [Fin.lt_def, gas_val, gas_val]
    exact ordered
  unfold nextPrice
  dsimp only
  have one : (1 : U128).val = 1 := rfl
  rw [if_neg (not_lt.mpr (le_of_lt used)), if_pos used, max_val, max_val, U128.saturatingSub_val,
    Fin.div_val, U128.saturatingMul_val, delta_val, U128.sub_val (le_of_lt used), gas_val, gas_val,
    one]
  rfl

theorem nextPrice_steady (steady : gas = policy.targetGas) :
    nextPrice policy current gas = current := by
  unfold nextPrice
  dsimp only
  rw [steady, if_neg (lt_irrefl _), if_neg (lt_irrefl _)]

/-- The distance of two prices. -/
def distance (left right : U128) : Nat := (left.val - right.val) + (right.val - left.val)

/-- An adjustment by an eighth at most, in the direction of the demand and above the floor. -/
structure Adjusts (policy : FeePolicy) (gas : UInt64) (current next : U128) : Prop where
  bounded : distance current next ≤ max 1 (current.val / 8)
  rises : policy.targetGas < gas → current.val < next.val ∨ current.val = U128.largest
  falls : gas < policy.targetGas → next.val ≤ current.val
  steady : gas = policy.targetGas → next = current
  floor : policy.pricePerGas.val ≤ next.val

/-- The block does not use much more than twice the target, or there is no room to raise. -/
def Gentle (policy : FeePolicy) (gas : UInt64) (current : U128) : Prop :=
  gas ≤ policy.targetGas ∨
    current.val / 8 * (gas.toNat - policy.targetGas.toNat) <
      (current.val / 8 + 1) * policy.targetGas.toNat ∨
    U128.largest < (current.val / 8 + 1) * policy.targetGas.toNat ∨
    U128.largest - current.val ≤ max 1 (current.val / 8)

instance : Decidable (Gentle policy gas current) := inferInstanceAs (Decidable (_ ∨ _))

theorem raise_le_iff (positive : 0 < policy.targetGas.toNat) :
    raise policy current gas ≤ current.val / 8 ↔
      current.val / 8 * (gas.toNat - policy.targetGas.toNat) <
          (current.val / 8 + 1) * policy.targetGas.toNat ∨
        U128.largest < (current.val / 8 + 1) * policy.targetGas.toNat := by
  unfold raise
  rw [← Nat.lt_succ_iff, Nat.div_lt_iff_lt_mul positive, min_lt_iff]

/-- The raise before it is cut is at least one. -/
theorem bounded_iff (busy : policy.targetGas < gas) (positive : 0 < policy.targetGas.toNat) :
    distance current (nextPrice policy current gas) ≤ max 1 (current.val / 8) ↔
      Gentle policy gas current := by
  have above := @nextPrice_above policy current gas busy
  have bound := current.val_le_largest
  have raised := @raise_le_iff policy current gas positive
  have late : ¬ gas ≤ policy.targetGas := UInt64.not_le.mpr busy
  unfold distance Gentle
  rw [above]
  constructor
  · intro near
    by_cases capped : U128.largest - current.val ≤ max 1 (current.val / 8)
    · exact .inr (.inr (.inr capped))
    · have moderate : raise policy current gas ≤ current.val / 8 := by
        by_cases small : current.val / 8 = 0
        · have none : raise policy current gas = 0 := by
            unfold raise
            rw [small, Nat.zero_mul, Nat.zero_min, Nat.zero_div]
          omega
        · omega
      rcases raised.mp moderate with short | short
      · exact .inr (.inl short)
      · exact .inr (.inr (.inl short))
  · rintro (early | short | short | capped)
    · exact absurd early late
    · have moderate := raised.mpr (.inl short)
      omega
    · have moderate := raised.mpr (.inr short)
      omega
    · omega

/-- The floor holds whatever the block used. -/
theorem floor_le_nextPrice (above : policy.pricePerGas.val ≤ current.val) :
    policy.pricePerGas.val ≤ (nextPrice policy current gas).val := by
  have bound := policy.pricePerGas.val_le_largest
  rcases Nat.lt_trichotomy policy.targetGas.toNat gas.toNat with ahead | level | behind
  · have value := @nextPrice_above policy current gas ahead
    omega
  · rw [nextPrice_steady (UInt64.toNat_inj.mp level.symm)]
    exact above
  · have value := @nextPrice_below policy current gas behind
    omega

/-- On a price above the floor, only the bound can fail. -/
theorem adjusts_iff (dynamic : policy.dynamic = true)
    (above : policy.pricePerGas.val ≤ current.val) :
    Adjusts policy gas current (nextPrice policy current gas) ↔ Gentle policy gas current := by
  obtain ⟨enabled, targeted⟩ := Bool.and_eq_true_iff.mp dynamic
  have priced : 0 < policy.pricePerGas.val := of_decide_eq_true enabled
  have positive : 0 < policy.targetGas.toNat := of_decide_eq_true targeted
  have bound := current.val_le_largest
  rcases Nat.lt_trichotomy policy.targetGas.toNat gas.toNat with ahead | level | behind
  · have busy : policy.targetGas < gas := ahead
    have value := @nextPrice_above policy current gas busy
    rw [← @bounded_iff policy current gas busy positive]
    constructor
    · exact Adjusts.bounded
    · intro bounded
      refine ⟨bounded, fun _ => ?_, fun calm => ?_, fun same => ?_, ?_⟩
      · omega
      · exact absurd calm (UInt64.lt_asymm busy)
      · exact absurd (same ▸ busy) (UInt64.lt_irrefl _)
      · exact floor_le_nextPrice above
  · have steady : policy.targetGas = gas := UInt64.toNat_inj.mp level
    have value := @nextPrice_steady policy current gas steady.symm
    rw [value]
    constructor
    · intro _
      exact .inl (UInt64.le_of_eq steady.symm)
    · intro _
      refine ⟨?_, fun busy => ?_, fun calm => ?_, fun _ => rfl, above⟩
      · unfold distance
        omega
      · exact absurd (steady ▸ busy) (UInt64.lt_irrefl _)
      · exact le_refl _
  · have calm : gas < policy.targetGas := behind
    have value := @nextPrice_below policy current gas calm
    have least : min (current.val / 8 * (policy.targetGas.toNat - gas.toNat)) U128.largest /
        policy.targetGas.toNat ≤ current.val / 8 := by
      apply Capped.min_div_le.trans
      apply Nat.div_le_of_le_mul
      rw [Nat.mul_comm]
      exact Nat.mul_le_mul_right _ (Nat.sub_le _ _)
    generalize min (current.val / 8 * (policy.targetGas.toNat - gas.toNat)) U128.largest /
      policy.targetGas.toNat = lowered at value least
    constructor
    · intro _
      exact .inl (UInt64.le_of_lt calm)
    · intro _
      refine ⟨?_, fun busy => ?_, fun _ => ?_, fun same => ?_, ?_⟩
      · unfold distance
        omega
      · exact absurd calm (UInt64.lt_asymm busy)
      · omega
      · exact absurd (same ▸ calm) (UInt64.lt_irrefl _)
      · exact floor_le_nextPrice above

/-! ### Calls -/

section Calls

variable [SerdeJson]

theorem basePrice_congr {state after : StateTree} (same : SameUnder "fee/" state after)
    (policy : FeePolicy) : basePrice after policy = basePrice state policy := by
  have entry : after.get basePriceKey = state.get basePriceKey := same "base_price"
  unfold basePrice StateTree.getJson? StateTree.getJson
  rw [entry]

theorem basePrice_adjusted (dynamic : policy.dynamic = true) (state : StateTree) :
    basePrice (adjustBasePrice state policy gas) policy =
      nextPrice policy (basePrice state policy) gas := by
  unfold adjustBasePrice
  rw [if_pos dynamic]
  unfold basePrice
  rw [StateTree.getJson?_putJson, Option.bind_some, U128.parse_toText, Option.getD_some]
  rfl

variable [Blake3]

/-- A block is executed and appended, with this gas. -/
structure Sealed (node after : Node) (gas : UInt64) : Prop where
  verified : ∃ env block exec, Verified env node block exec ∧ exec.gas = gas ∧
    after.state = adjustBasePrice exec.state node.feePolicy gas ∧
    after.blocks = node.blocks ++ [{ block with events := exec.events }]

/-- Policy and prisms stay, and either the prices do or a block is sealed. -/
structure Priced (node after : Node) : Prop where
  policy : after.feePolicy = node.feePolicy
  cascade : after.cascade = node.cascade
  outcome : SameUnder "fee/" node.state after.state ∨ ∃ gas, Sealed node after gas

theorem Priced.still {node after : Node} (policy : after.feePolicy = node.feePolicy)
    (cascade : after.cascade = node.cascade) (state : after.state = node.state) :
    Priced node after := by
  refine ⟨policy, cascade, .inl ?_⟩
  rw [state]
  exact SameUnder.refl _ _

variable [ChaCha20Poly1305]

theorem commitBlock_priced (env : Env) (node : Node) (block : Block) :
    Priced node (node.commitBlock env block).2 := by
  have committed := commitBlock_committed env node block
  generalize node.commitBlock env block = result at committed
  cases committed with
  | refused error ledgers => exact .still rfl rfl rfl
  | appended result events state ledgers store verified =>
      obtain ⟨exec, checks, rfl, rfl⟩ := verifyBlock_verified verified
      exact ⟨rfl, rfl, .inr ⟨exec.gas, ⟨env, block, exec, checks, rfl, rfl, rfl⟩⟩⟩

/-- Assembly changes nothing that a commit depends on. -/
theorem produceBlock_priced (env later : Env) (node : Node) :
    Priced node (node.produceBlock env later).2 := by
  rcases produceBlock_cases env later node with stopped | ⟨mempool, store, stopped | committed⟩
  · rw [stopped]
    exact .still rfl rfl rfl
  · rw [stopped]
    exact .still rfl rfl rfl
  · have priced := commitBlock_priced later ({ node with
      mempool := mempool
      store := store } : Node) (node.assembledBlock env)
    rw [← committed] at priced
    refine ⟨priced.policy, priced.cascade, ?_⟩
    rcases priced.outcome with kept | ⟨gas, ⟨env, block, exec, checks, used, state, blocks⟩⟩
    · exact .inl kept
    · refine .inr ⟨gas, ⟨env, block, exec, ?_, used, state, blocks⟩⟩
      exact ⟨checks.parent, checks.height, checks.early, checks.late, checks.executed, checks.gas,
        checks.eventsRoot, checks.stateRoot⟩

variable [Ed25519] [Keccak256] [Secp256k1] [Sha256] [Ripemd160] [Bn254]

attribute [local instance] Evm.interpreter

omit [ChaCha20Poly1305] [Ed25519] in
theorem ethApplyRaw_priced (env : Env) (node : Node) (raw : List UInt8) :
    Priced node (node.ethApplyRaw env raw).2 := by
  have foreign : Foreign "fee/" := by
    constructor <;> decide
  refine ⟨?_, ?_, .inl (ethApplyRaw_spares foreign (by decide) env node raw)⟩
  all_goals
    rcases ethApplyRaw_cases env node raw with refused | ⟨tx, run, _, sealed, _⟩
    · rw [refused]
    · obtain ⟨store, kept⟩ := sealAnchorBlock_eq env ({ node with
        state := node.ethRecorded tx (Eth.ethNonce node.state tx.sender) run } : Node)
        node.head.timestamp
      rw [sealed, kept]
      rfl

theorem called_priced (node : Node) (call : Call) : Priced node (called node call) := by
  unfold called Call.perform
  cases call with
  | submit env signed =>
      have kept := submitSigned_kept env node signed
      exact .still kept.feePolicy kept.cascade kept.state
  | produce env later => exact produceBlock_priced env later node
  | commit env block => exact commitBlock_priced env node block
  | accept env block =>
      rcases acceptExternalBlock_cases env node block with ignored | ⟨committed, _⟩
      · dsimp only
        rw [ignored]
        exact .still rfl rfl rfl
      · dsimp only
        rw [committed]
        exact commitBlock_priced env node block
  | ethApply env raw => exact ethApplyRaw_priced env node raw

/-- The node runs the shipped prisms under this policy, and the price is not below its floor. -/
structure Floored [Inference] (order : IterationOrder) (policy : FeePolicy) (node : Node) :
    Prop where
  terms : node.feePolicy = policy
  cascade : node.cascade = Cascade.shipped order
  floor : policy.pricePerGas.val ≤ (basePrice node.state policy).val

variable [Inference] {order : IterationOrder} {node after : Node}

omit [Keccak256] [Secp256k1] [Sha256] [Ripemd160] [Bn254] [ChaCha20Poly1305] in
/-- The price behind a sealed block is the adjusted one. -/
theorem Sealed.price (held : Floored order policy node) (dynamic : policy.dynamic = true)
    (sealed : Sealed node after gas) :
    basePrice after.state policy = nextPrice policy (basePrice node.state policy) gas := by
  have foreign : Foreign "fee/" := by
    constructor <;> decide
  obtain ⟨env, block, exec, checks, _, state, _⟩ := sealed.verified
  have spares : node.cascade.Spares "fee/" := by
    rw [held.cascade]
    exact Cascade.shipped_spares foreign order
  have kept := checks.spares foreign spares (by decide)
  rw [state, held.terms, basePrice_adjusted dynamic, basePrice_congr kept]

omit [Inference] in
/-- A block that passes every check is sealed on a healthy disk. -/
theorem sealed_of_verified {env : Env} {block : Block} {exec : Execution}
    (checks : Verified env node block exec) (healthy : ∀ op, env.io op = none)
    (distinct : (node.keyrings.map ViewKeyring.party).Nodup) (used : exec.gas = gas) :
    Sealed node (called node (.commit env block)) gas := by
  subst used
  have verified := verifyBlock_ok checks.parent checks.height checks.early checks.late
    checks.executed checks.gas checks.eventsRoot checks.stateRoot
  obtain ⟨summary, ledgers, store, committed⟩ := commitBlock_ok healthy verified distinct
  change Sealed node (node.commitBlock env block).2 exec.gas
  rw [committed]
  exact ⟨env, block, exec, checks, rfl, rfl, rfl⟩

/-- One call keeps the price above the floor. -/
theorem Floored.called (held : Floored order policy node) (dynamic : policy.dynamic = true)
    (call : Call) : Floored order policy (called node call) := by
  have priced := called_priced node call
  refine ⟨priced.policy.trans held.terms, priced.cascade.trans held.cascade, ?_⟩
  rcases priced.outcome with kept | ⟨gas, sealed⟩
  · rw [basePrice_congr kept]
    exact held.floor
  · rw [sealed.price held dynamic]
    exact floor_le_nextPrice held.floor

theorem Floored.run (held : Floored order policy node) (dynamic : policy.dynamic = true)
    (calls : List Call) : Floored order policy (Run.run Node.called node calls) := by
  induction calls using List.reverseRecOn with
  | nil => exact held
  | append_singleton earlier call ih =>
      rw [Run.run_snoc]
      exact ih.called dynamic call

/-- In every run of calls the price stays above the floor and only changes with the blocks that
are sealed, and it adjusts as promised exactly with the gentle ones. -/
theorem base_price_adjusts_iff (dynamic : policy.dynamic = true) (held : Floored order policy node)
    (calls : List Call) :
    policy.pricePerGas.val ≤ (basePrice (Run.run Node.called node calls).state policy).val ∧
    (∀ call, basePrice (Node.called (Run.run Node.called node calls) call).state policy =
        basePrice (Run.run Node.called node calls).state policy ∨
      ∃ gas, Sealed (Run.run Node.called node calls)
        (Node.called (Run.run Node.called node calls) call) gas) ∧
    ∀ call gas, Sealed (Run.run Node.called node calls)
        (Node.called (Run.run Node.called node calls) call) gas →
      (Adjusts policy gas (basePrice (Run.run Node.called node calls).state policy)
          (basePrice (Node.called (Run.run Node.called node calls) call).state policy) ↔
        Gentle policy gas (basePrice (Run.run Node.called node calls).state policy)) := by
  have reached := held.run dynamic calls
  refine ⟨reached.floor, ?_, ?_⟩
  · intro call
    rcases (called_priced (Run.run Node.called node calls) call).outcome with kept | sealed
    · exact .inl (basePrice_congr kept policy)
    · exact .inr sealed
  intro call gas sealed
  rw [sealed.price reached dynamic]
  exact adjusts_iff dynamic reached.floor

end Calls

/-! ### A block of five times the target -/

section Fixed

attribute [local instance] SerdeJson.compact Blake3.polynomial Ed25519.keyed ChaCha20Poly1305.keyed
  Evm.onesKeccak Evm.blankSha256 Evm.blankRipemd160 Evm.emptyCurve Evm.noRecovery Evm.interpreter

/-- A model that answers nothing. -/
@[reducible] def silentModel : Inference where
  run _ _ := ([], 0)

attribute [local instance] silentModel

open Session (goldCommand goldEvent goldState)

def eighty (target : UInt64) : FeePolicy :=
  { pricePerGas := 80
    burnBps := 5000
    targetGas := target }

noncomputable def feeNode (target : UInt64) : Node :=
  { Node.new ⟨"v1"⟩ (Cascade.shipped (ContractPrism.leading 0)) with feePolicy := eighty target }

/-- What alice's command leaves, and its fee. -/
noncomputable def feeExecution (target : UInt64) : Execution :=
  (feeNode target |>.opening 10).charge (eighty target) 80 ⟨"v2"⟩ goldCommand
    ⟨[goldEvent], 5000, 1⟩ goldState

/-- A first block with this command and correct roots. -/
noncomputable def feeBlock (target : UInt64) : Block :=
  { height := 1
    parent := Block.deterministicGenesis.hash
    eventsRoot := merkleRoot ((feeExecution target).events.map Event.commitment)
    stateRoot := (adjustBasePrice (feeExecution target).state (eighty target)
      (feeExecution target).gas).root
    timestamp := 10
    proposer := ⟨"v2"⟩
    events := []
    commands := [goldCommand] }

theorem gas_charge (acc : Execution) (policy : FeePolicy) (price : U128) (proposer : PartyId)
    (command : Command) (receipt : CascadeReceipt) (state : StateTree) :
    (acc.charge policy price proposer command receipt state).gas =
      saturatingAdd64 acc.gas receipt.totalCost := rfl

theorem feeExecution_gas (target : UInt64) : (feeExecution target).gas = 5000 := by
  have added : saturatingAdd64 0 5000 = 5000 := by decide
  unfold feeExecution
  rw [gas_charge]
  exact added

theorem feeNode_price (target : UInt64) :
    basePrice (feeNode target).state (eighty target) = 80 := rfl

theorem feeNode_floored (target : UInt64) :
    Floored (ContractPrism.leading 0) (eighty target) (feeNode target) := by
  refine ⟨rfl, rfl, ?_⟩
  rw [feeNode_price]
  exact le_refl _

theorem lookup_install_ne {cascade : Cascade} {prism : Prism} {name : String}
    (different : name ≠ prism.name) :
    (cascade.install prism).prisms.lookup name = cascade.prisms.lookup name :=
  AList.lookup_insert_ne different

theorem feeBlock_sealed (target : UInt64) :
    Sealed (feeNode target) (called (feeNode target) (.commit (.healthy 10) (feeBlock target)))
      5000 := by
  have installed : (feeNode target).cascade.prisms.lookup goldCommand.prism =
      some TokenPrism.prism := by
    change (Cascade.shipped (ContractPrism.leading 0)).prisms.lookup "token" = _
    unfold Cascade.shipped
    iterate 10 rw [lookup_install_ne (by decide)]
    exact AList.lookup_insert _
  have applied := Cascade.apply_single installed Session.goldCommand_handled
  have ran : executeAll (feeNode target).cascade (feeNode target).feePolicy
      (basePrice ((feeNode target).openingState (feeBlock target).timestamp)
        (feeNode target).feePolicy) (feeBlock target).proposer (feeBlock target).commands
      ((feeNode target).opening (feeBlock target).timestamp) = .ok (feeExecution target) := by
    exact executeAll_single applied
  have early : Block.deterministicGenesis.timestamp ≤ 10 := by decide
  have late : (10 : UInt64) ≤ saturatingAdd64 10 maxFutureDriftSecs := by decide
  have gas : (feeExecution target).gas ≤ Limits.default.maxBlockGas := by
    rw [feeExecution_gas]
    decide
  have checks : Verified (.healthy 10) (feeNode target) (feeBlock target) (feeExecution target) :=
    ⟨rfl, rfl, early, late, ran, gas, rfl, rfl⟩
  have unhosted : ((feeNode target).keyrings.map ViewKeyring.party).Nodup := List.nodup_nil
  exact sealed_of_verified checks (fun _ => rfl) unhosted (feeExecution_gas target)

/-- Five times the target raises the price by half. -/
theorem price_raised_by_half :
    ∃ after : Node, Sealed (feeNode 1000) after 5000 ∧
      after = called (feeNode 1000) (.commit (.healthy 10) (feeBlock 1000)) ∧
      ¬ Adjusts (eighty 1000) 5000 (basePrice (feeNode 1000).state (eighty 1000))
        (basePrice after.state (eighty 1000)) := by
  have sealed := feeBlock_sealed 1000
  refine ⟨_, sealed, rfl, ?_⟩
  rw [sealed.price (feeNode_floored 1000) rfl, feeNode_price]
  intro adjusts
  exact absurd adjusts.bounded (by decide)

/-- The theorem at a block over a target of 4000. -/
theorem base_price_adjusts_iff_gentle :
    Adjusts (eighty 4000) 5000 (basePrice (feeNode 4000).state (eighty 4000))
      (basePrice (called (feeNode 4000) (.commit (.healthy 10) (feeBlock 4000))).state
        (eighty 4000)) :=
  ((base_price_adjusts_iff rfl (feeNode_floored 4000) []).2.2 _ 5000
    (feeBlock_sealed 4000)).mpr (by rw [Run.run_nil, feeNode_price]; decide)

end Fixed

end Node

end Veilux
