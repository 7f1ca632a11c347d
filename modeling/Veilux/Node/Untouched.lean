/-
What blocks and Ethereum transactions leave alone: every entry apart from the heads of the
prisms, the block time, the base price and the Ethereum records.
-/

import Veilux.Node.EthRespects
import Veilux.Prism.Spares

namespace Veilux

open Evm
open StateTree (SameUnder sameUnder_put)

namespace Node

section Blocks

variable [SerdeJson] [Blake3] {head : String} {node : Node} {state : StateTree}

theorem chargeFee_spares (foreign : Foreign head) (policy : FeePolicy) (price : U128)
    (state : StateTree) (payer proposer : PartyId) (gasUsed : UInt64) :
    SameUnder head state (chargeFee policy price state payer proposer gasUsed) := by
  unfold chargeFee
  split
  · exact SameUnder.refl head state
  · dsimp only
    split
    · exact SameUnder.refl head state
    · exact TokenPrism.spares_collectFee foreign _ _ _ _ _ state

theorem executeAll_spares (foreign : Foreign head) {cascade : Cascade}
    (spares : cascade.Spares head) {policy : FeePolicy} {price : U128} {proposer : PartyId}
    {commands : List Command} {acc exec : Execution}
    (executed : executeAll cascade policy price proposer commands acc = .ok exec) :
    SameUnder head acc.state exec.state := by
  induction commands generalizing acc with
  | nil =>
      cases executed
      exact SameUnder.refl head _
  | cons command rest ih =>
      have applied := Cascade.apply_spares spares command acc.state
      unfold executeAll at executed
      cases ran : cascade.apply command acc.state with
      | mk result middle =>
          rw [ran] at executed applied
          cases result with
          | error error => cases executed
          | ok receipt =>
              have charged := chargeFee_spares foreign policy price middle command.submitter proposer
                receipt.totalCost
              exact (applied.trans charged).trans (ih executed)

omit [SerdeJson] [Blake3] in
theorem opening_spares (clock : Keys.Apart "chain/" head) (node : Node) (timestamp : UInt64) :
    SameUnder head node.state (node.opening timestamp).state :=
  sameUnder_put clock node.state "now" _

/-- The commands of a block, and their fees. -/
theorem Verified.spares {env : Env} {block : Block} {exec : Execution}
    (verified : Verified env node block exec) (foreign : Foreign head)
    (spares : node.cascade.Spares head) (clock : Keys.Apart "chain/" head) :
    SameUnder head node.state exec.state :=
  (opening_spares clock node block.timestamp).trans
    (executeAll_spares foreign spares verified.executed)

end Blocks

end Node

/-! ### Frames -/

namespace Eth

section Hosts

variable [SerdeJson] [Blake3] {head : String}

theorem transfer_spares (foreign : Foreign head) (host : StateHost) (source target value : U256) :
    SameUnder head host.state (host.transfer source target value).2.state := by
  unfold StateHost.transfer
  by_cases none : value.isZero = true
  · rw [if_pos none]
    exact SameUnder.refl head host.state
  · rw [if_neg none]
    have moved := TokenPrism.spares_moveBalance foreign TokenPrism.nativeTokenId
      (ethParty (u256ToAddr source)) (ethParty (u256ToAddr target)) (u256LowU128 value) host.state
    split
    · rename_i state ran
      rw [ran] at moved
      exact moved
    · rename_i error state ran
      rw [ran] at moved
      exact moved

omit [SerdeJson] [Blake3] in
theorem sstore_spares (records : Keys.Apart "eth/" head) (host : StateHost)
    (address key value : U256) : SameUnder head host.state (host.sstore address key value).state := by
  have slot : storageKey (u256ToAddr address) key = "eth/" ++ ("store/" ++
      (hex0x (u256ToAddr address).toList ++ ("/" ++ hex0x key.toBigEndian.toList))) := by
    unfold storageKey
    rw [String.append_assoc, String.append_assoc]
    rfl
  unfold StateHost.sstore StateTree.putJson
  rw [slot]
  exact sameUnder_put records host.state _ _

theorem respects (foreign : Foreign head) (records : Keys.Apart "eth/" head) :
    Respects (H := StateHost) (fun _ before after => SameUnder head before after)
      fun _ _ _ => True where
  refl _ state := SameUnder.refl head state
  trans former latter := former.trans latter
  weaken kept := kept
  sstore host address key value := sstore_spares records host address key value
  bumpNonce host address :=
    sameUnder_put records host.state ("nonce/" ++ hex0x (u256ToAddr address).toList) _
  transfer host source target value _ := transfer_spares foreign host source target value
  setCode host address _code _ :=
    sameUnder_put records host.state ("code/" ++ hex0x (u256ToAddr address).toList) _

end Hosts

end Eth

namespace Node

section Transactions

variable [SerdeJson] [Blake3] [Keccak256] [Secp256k1] [Sha256] [Ripemd160] [Bn254] {head : String}

attribute [local instance] Evm.interpreter

/-- Whether a transaction is accepted, refused or lost behind its block. -/
theorem ethApplyRaw_spares (foreign : Foreign head) (records : Keys.Apart "eth/" head) (env : Env)
    (node : Node) (raw : List UInt8) :
    SameUnder head node.state (node.ethApplyRaw env raw).2.state := by
  have moves : ∀ source target amount state, SameUnder head state
      ((TokenPrism.moveBalance TokenPrism.nativeTokenId source target amount).run.run state).2 :=
    fun source target amount => TokenPrism.spares_moveBalance foreign _ source target amount
  have written : ∀ state rest bytes, SameUnder head state (state.put ("eth/" ++ rest) bytes) :=
    fun state rest bytes => sameUnder_put records state rest bytes
  rcases ethApplyRaw_cases env node raw with refused | ⟨tx, run, anchors, sealed, _⟩
  · rw [refused]
    exact SameUnder.refl head node.state
  · have executed := ethExecute_respects (R := SameUnder head) (Eth.respects foreign records) moves
      written anchors.executed
    have recorded := ethRecorded_respects (R := SameUnder head)
      (fun former latter => former.trans latter) written node tx
      (Eth.ethNonce node.state tx.sender) run
    obtain ⟨store, kept⟩ := sealAnchorBlock_eq env ({ node with
      state := node.ethRecorded tx (Eth.ethNonce node.state tx.sender) run } : Node)
      node.head.timestamp
    rw [kept] at sealed
    rw [sealed]
    exact executed.trans recorded

end Transactions

end Node

end Veilux
