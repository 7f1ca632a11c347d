/-
Value in the EVM.  Transfers, self-transfers, the end of a contract, snapshots and
reverts leave the sum of the balances as it was, on both hosts, whatever code runs.
-/

import Veilux.Node.EthRespects
import Veilux.Prism.NativeToken

namespace Veilux

open Evm

namespace Evm.MemHost

noncomputable def total (world : MemWorld) : Nat :=
  Total.total fun address => (lookup world.balances address .zero).toNat

theorem balances_finite (balances : Table U256 U256) :
    (Function.support fun address => (lookup balances address U256.zero).toNat).Finite := by
  apply (List.finite_toSet balances.keys).subset
  intro address nonzero
  change address ∈ balances.keys
  rw [← AList.mem_keys]
  by_contra absent
  apply nonzero
  change (lookup balances address U256.zero).toNat = 0
  unfold lookup
  rw [AList.lookup_eq_none.mpr absent]
  rfl

theorem lookup_insert (balances : Table U256 U256) (address value : U256) :
    (fun other => (lookup (balances.insert address value) other U256.zero).toNat) =
      Function.update (fun other => (lookup balances other U256.zero).toNat) address
        value.toNat := by
  funext other
  unfold lookup
  by_cases same : other = address
  · subst same
    rw [Function.update_self, AList.lookup_insert]
    rfl
  · rw [Function.update_of_ne same, AList.lookup_insert_ne same]

theorem total_withBalance (host : MemHost) (address value : U256) :
    total (host.withBalance address value).world + (host.balance address).toNat =
      total host.world + value.toNat := by
  change Total.total (fun other => (lookup (host.world.balances.insert address value) other
    U256.zero).toNat) + _ = _
  rw [lookup_insert]
  exact Total.total_update (balances_finite _) address value.toNat

theorem balance_le_total (host : MemHost) (address : U256) :
    (host.balance address).toNat ≤ total host.world :=
  Total.le_total (balances_finite host.world.balances) address

theorem total_transfer (host : MemHost) (source target value : U256)
    (small : total host.world < 2 ^ 256) :
    total (host.transfer source target value).2.world = total host.world := by
  unfold transfer
  by_cases short : (host.balance source).lt value = true
  · rw [if_pos short]
  · rw [if_neg short]
    rw [U256.lt_iff, not_lt] at short
    have debited := total_withBalance host source ((host.balance source).wrappingSub value)
    rw [U256.toNat_wrappingSub short] at debited
    generalize host.withBalance source ((host.balance source).wrappingSub value) = middle at debited ⊢
    have credited := total_withBalance middle target ((middle.balance target).wrappingAdd value)
    have room := balance_le_total middle target
    rw [U256.toNat_wrappingAdd, Nat.mod_eq_of_lt (by omega)] at credited
    change total (middle.withBalance target _).world = _
    omega

/-- The sum of the balances, as long as it is a word. -/
def Conserves (_ : Bool) (before after : MemWorld) : Prop :=
  total before < 2 ^ 256 → total after = total before

theorem conserves : Respects (H := MemHost) Conserves fun _ _ _ => True where
  refl _ _ _ := rfl
  trans former latter small := by
    have same := former small
    exact (latter (same ▸ small)).trans same
  weaken kept := kept
  sstore _ _ _ _ _ := rfl
  bumpNonce _ _ _ := rfl
  transfer host source target value _ small := total_transfer host source target value small
  setCode _ _ _ _ _ := rfl

end Evm.MemHost

namespace Eth

variable [SerdeJson] [Blake3]

/-- The sum of the native balances. -/
noncomputable def nativeTotal (state : StateTree) : Nat :=
  TokenPrism.total state TokenPrism.nativeTokenId

def nativeSupply (state : StateTree) : Nat :=
  TokenPrism.supply state TokenPrism.nativeTokenId

/-- Sum and supply, as long as the sum is an amount. -/
def Conserves (_ : Bool) (before after : StateTree) : Prop :=
  nativeTotal before < 2 ^ 128 →
    nativeTotal after = nativeTotal before ∧ nativeSupply after = nativeSupply before

theorem conserves_put (state : StateTree) (head rest : String) (bytes : List UInt8)
    (balances : Keys.Apart head TokenPrism.balPrefix)
    (records : Keys.Apart head TokenPrism.metaPrefix) :
    nativeTotal (state.put (head ++ rest) bytes) = nativeTotal state ∧
      nativeSupply (state.put (head ++ rest) bytes) = nativeSupply state := by
  constructor
  · exact TokenPrism.total_put_head state rest bytes balances _
  · unfold nativeSupply TokenPrism.supply TokenPrism.tokenMeta?
    rw [StateTree.getJson?_put_ne state bytes (TokenPrism.head_ne_metaKey records rest _)]

omit [Blake3] in
theorem moveBalance_short {id : Hash} {source target : PartyId} {amount : U128}
    {state : StateTree} (short : TokenPrism.balance state id source < amount) :
    ((TokenPrism.moveBalance id source target amount).run.run state).2 = state := by
  have refused : (TokenPrism.debit id source amount).run.run state =
      (.error (.limitExceeded "insufficient balance"), state) := by
    unfold TokenPrism.debit
    rw [Effects.run_bind]
    change StateT.run (ExceptT.run (if TokenPrism.balance state id source < amount then _ else _))
      state = _
    rw [if_pos short]
    rfl
  unfold TokenPrism.moveBalance
  rw [Effects.run_bind, refused]

theorem moveBalance_conserves (source target : PartyId) (amount : U128) {state : StateTree}
    (small : nativeTotal state < 2 ^ 128) :
    nativeTotal ((TokenPrism.moveBalance TokenPrism.nativeTokenId source target
        amount).run.run state).2 = nativeTotal state ∧
      nativeSupply ((TokenPrism.moveBalance TokenPrism.nativeTokenId source target
        amount).run.run state).2 = nativeSupply state := by
  by_cases enough : amount ≤ TokenPrism.balance state TokenPrism.nativeTokenId source
  · have debited := TokenPrism.total_debited enough
    have room := TokenPrism.balance_le_total
      (TokenPrism.debited state TokenPrism.nativeTokenId source amount) TokenPrism.nativeTokenId target
    have fits : (TokenPrism.balance (TokenPrism.debited state TokenPrism.nativeTokenId source amount)
        TokenPrism.nativeTokenId target).val + amount.val < 2 ^ 128 := by
      unfold nativeTotal at small
      omega
    have accepted : PrismM.Accepts (TokenPrism.moveBalance TokenPrism.nativeTokenId source target
        amount) state () _ := TokenPrism.accepts_moveBalance.mpr ⟨enough, fits, rfl⟩
    unfold PrismM.Accepts at accepted
    rw [accepted]
    exact ⟨TokenPrism.total_transferred enough fits, TokenPrism.supply_transferred⟩
  · rw [moveBalance_short (not_le.mp enough)]
    exact ⟨rfl, rfl⟩

theorem sstore_conserves (host : StateHost) (address key value : U256) :
    nativeTotal (host.sstore address key value).state = nativeTotal host.state ∧
      nativeSupply (host.sstore address key value).state = nativeSupply host.state := by
  have slot : storageKey (u256ToAddr address) key = "eth/store/" ++
      (hex0x (u256ToAddr address).toList ++ ("/" ++ hex0x key.toBigEndian.toList)) := by
    unfold storageKey
    rw [String.append_assoc, String.append_assoc]
  unfold StateHost.sstore StateTree.putJson
  rw [slot]
  exact conserves_put host.state _ _ _ (by decide) (by decide)

theorem transfer_conserves (host : StateHost) (source target value : U256)
    (small : nativeTotal host.state < 2 ^ 128) :
    nativeTotal (host.transfer source target value).2.state = nativeTotal host.state ∧
      nativeSupply (host.transfer source target value).2.state = nativeSupply host.state := by
  unfold StateHost.transfer
  by_cases none : value.isZero = true
  · rw [if_pos none]
    exact ⟨rfl, rfl⟩
  · rw [if_neg none]
    have moved := moveBalance_conserves (ethParty (u256ToAddr source)) (ethParty (u256ToAddr target))
      (u256LowU128 value) small
    split
    · rename_i state ran
      rw [ran] at moved
      exact moved
    · rename_i error state ran
      rw [ran] at moved
      exact moved

theorem conserves : Respects (H := StateHost) Conserves fun _ _ _ => True where
  refl _ _ _ := ⟨rfl, rfl⟩
  trans former latter small := by
    obtain ⟨sums, supplies⟩ := former small
    obtain ⟨nextSums, nextSupplies⟩ := latter (sums ▸ small)
    exact ⟨nextSums.trans sums, nextSupplies.trans supplies⟩
  weaken kept := kept
  sstore host address key value _ := sstore_conserves host address key value
  bumpNonce host address _ :=
    conserves_put host.state "eth/nonce/" _ _ (by decide) (by decide)
  transfer host source target value _ small := transfer_conserves host source target value small
  setCode host address code _ _ :=
    conserves_put host.state "eth/code/" _ _ (by decide) (by decide)

end Eth

/-! ### Transactions -/

namespace Node

section Accepted

variable [SerdeJson] [Blake3] [Keccak256] [Secp256k1] [Evm]

/-- An accepted transaction has passed every check, and its execution is the state. -/
theorem ethApplyRaw_accepted {env : Env} {node : Node} {raw : List UInt8} {applied : Eth.EthApplied}
    (accepted : (node.ethApplyRaw env raw).1 = .ok applied) :
    ∃ tx run, Anchors node raw tx run ∧
      (node.ethApplyRaw env raw).2.state =
        node.ethRecorded tx (Eth.ethNonce node.state tx.sender) run := by
  rcases ethApplyRaw_cases env node raw with refused | ⟨tx, run, anchors, sealed, _⟩
  · -- The checks that leave the node as it was answer with an error; behind them a
    -- block is appended.
    revert accepted refused
    unfold ethApplyRaw
    split
    · intro impossible
      cases impossible
    · rename_i tx _
      split
      · intro impossible
        cases impossible
      · dsimp only
        split
        · intro impossible
          cases impossible
        · split
          · intro impossible
            cases impossible
          · rename_i run _
            obtain ⟨store, sealed⟩ := sealAnchorBlock_eq env ({ node with
              state := node.ethRecorded tx (Eth.ethNonce node.state tx.sender) run } : Node)
              node.head.timestamp
            split
            · intro impossible
              cases impossible
            · rename_i after ended
              intro _ same
              rw [ended] at sealed
              have lengths := congrArg (fun node : Node => node.blocks.length) (same.symm.trans sealed)
              simp only [append, List.length_append, List.length_singleton] at lengths
              omega
  · obtain ⟨store, closed⟩ := sealAnchorBlock_eq env ({ node with
      state := node.ethRecorded tx (Eth.ethNonce node.state tx.sender) run } : Node)
      node.head.timestamp
    exact ⟨tx, run, anchors, by rw [sealed, closed]; rfl⟩

end Accepted

section Value

variable [SerdeJson] [Blake3]

open Eth (nativeTotal nativeSupply)

variable [Keccak256] [Secp256k1] [Sha256] [Ripemd160] [Bn254]

attribute [local instance] Evm.interpreter

omit [Keccak256] [Secp256k1] [Sha256] [Ripemd160] [Bn254] in
theorem moves_conserves (source target : PartyId) (amount : U128) (state : StateTree) :
    Eth.Conserves false state ((TokenPrism.moveBalance TokenPrism.nativeTokenId source target
      amount).run.run state).2 :=
  fun small => Eth.moveBalance_conserves source target amount small

omit [Keccak256] [Secp256k1] [Sha256] [Ripemd160] [Bn254] in
theorem records_conserves (state : StateTree) (rest : String) (bytes : List UInt8) :
    Eth.Conserves false state (state.put ("eth/" ++ rest) bytes) :=
  fun _ => Eth.conserves_put state "eth/" rest bytes (by decide) (by decide)

theorem ethApplyRaw_conserves {env : Env} {node : Node} {raw : List UInt8}
    {applied : Eth.EthApplied} (accepted : (node.ethApplyRaw env raw).1 = .ok applied) :
    Eth.Conserves false node.state (node.ethApplyRaw env raw).2.state := by
  obtain ⟨tx, run, anchors, state⟩ := ethApplyRaw_accepted accepted
  have executed := ethExecute_respects Eth.conserves moves_conserves records_conserves
    anchors.executed
  have recorded : Eth.Conserves false run.state
      (node.ethRecorded tx (Eth.ethNonce node.state tx.sender) run) :=
    ethRecorded_respects (R := Eth.Conserves false)
      (fun former latter => Eth.conserves.trans former latter) records_conserves node tx _ run
  rw [state]
  exact Eth.conserves.trans executed recorded

/-- Value is conserved: by every frame on either host, however it ends, and by every
accepted transaction. -/
theorem evm_value_conserved :
    (∀ fuel (frame : Frame MemHost), MemHost.total frame.host.world < 2 ^ 256 →
      MemHost.total (executeFrameWith fuel frame).2.world = MemHost.total frame.host.world) ∧
    (∀ fuel (frame : Frame Eth.StateHost), nativeTotal frame.host.state < 2 ^ 128 →
      nativeTotal (executeFrameWith fuel frame).2.state = nativeTotal frame.host.state) ∧
    (∀ env (node : Node) raw applied, nativeTotal node.state < 2 ^ 128 →
      (node.ethApplyRaw env raw).1 = .ok applied →
        nativeTotal (node.ethApplyRaw env raw).2.state = nativeTotal node.state ∧
          nativeSupply (node.ethApplyRaw env raw).2.state = nativeSupply node.state) := by
  refine ⟨?_, ?_, ?_⟩
  · intro fuel frame small
    exact (frame_leaves MemHost.conserves _ _ _ fun _ _ _ _ _ _ _ _ _ _ => trivial).world small
  · intro fuel frame small
    exact ((frame_leaves Eth.conserves _ _ _ fun _ _ _ _ _ _ _ _ _ _ => trivial).world small).1
  · intro env node raw applied small accepted
    exact ethApplyRaw_conserves accepted small

end Value

end Node

end Veilux
