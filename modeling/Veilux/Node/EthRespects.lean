/-
What a whole Ethereum transaction of `node/src/eth.rs` does to the state, for every relation
that its frames respect: the value moved, the outermost frame and the records behind it.
-/

import Veilux.Evm.Metering
import Veilux.Node.Chain
import Veilux.Node.EthHost

namespace Veilux

open Evm
open Eth (StateHost)

namespace Node

theorem sealAnchorBlock_eq [Blake3] (env : Env) (node : Node) (timestamp : UInt64) :
    ∃ store, (node.sealAnchorBlock env timestamp).2 =
      { node.append (node.anchorBlock env timestamp) with store := store } :=
  persistAnchor_eq env _ _

variable [SerdeJson] [Blake3] [Keccak256] [Secp256k1] [Sha256] [Ripemd160] [Bn254]

attribute [local instance] Evm.interpreter

omit [SerdeJson] [Blake3] in
theorem interpreter_host {H : Type} [Host H] (code : List UInt8) (ctx : CallContext) (host : H)
    (depth : UInt32) (isStatic : Bool) :
    (Evm.executeFrame code ctx host depth isStatic).2 =
      (executeFrameWith (max ctx.gasLimit.toNat 1 + 1) ⟨code, ctx, host, depth, isStatic⟩).2 := by
  unfold Evm.executeFrame Evm.interpreter
  dsimp only
  split <;> rename_i ended <;> rw [ended]

variable {R : StateTree → StateTree → Prop} {node : Node} {tx : EthTx}

omit [Keccak256] [Secp256k1] [Sha256] [Ripemd160] [Bn254] in
/-- The value is moved between two accounts, and failed moves are in the relation too. -/
theorem ethMove_respects {target : Address} {state after : StateTree}
    (refl : ∀ state, R state state)
    (moves : ∀ source target amount state, R state
      ((TokenPrism.moveBalance TokenPrism.nativeTokenId source target amount).run.run state).2)
    (moved : ethMove tx target state = .ok after) : R state after := by
  unfold ethMove at moved
  split at moved
  · have kept := moves (Eth.ethParty tx.sender) (Eth.ethParty target) tx.value state
    split at moved
    · rename_i ended
      rw [ended] at kept
      cases moved
      exact kept
    · cases moved
  · cases moved
    exact refl _

theorem ethFrame_respects (respects : Respects (H := StateHost) (fun _ => R) fun _ _ _ => True)
    {address : Address} {code : List UInt8} {state after : StateTree} {out : ExecOutcome}
    (ran : node.ethFrame tx address code state = .ok (out, after)) : R state after := by
  unfold ethFrame at ran
  dsimp only at ran
  have kept (ctx : CallContext) :
      R state (Evm.executeFrame code ctx (StateHost.new state node.chainId
        node.ethBlockNumber node.head.timestamp) 0 false).2.state := by
    rw [interpreter_host]
    let frame : Frame StateHost := ⟨code, ctx, StateHost.new state node.chainId
      node.ethBlockNumber node.head.timestamp, 0, false⟩
    exact (frame_leaves respects (max ctx.gasLimit.toNat 1 + 1) frame.levels frame
      fun _ _ _ _ _ _ _ _ _ _ => trivial).world
  split at ran
  · cases ran
  · rename_i outcome host ended
    split at ran
    · cases ran
      have same := kept
        { caller := Eth.addrToU256 tx.sender
          address := Eth.addrToU256 address
          value := Eth.valueU256 tx.value
          calldata := tx.data
          gasLimit := min (max tx.gasLimit 21000) Eth.maxEvmGas }
      rw [ended] at same
      exact same
    · cases ran

theorem ethExecute_respects (respects : Respects (H := StateHost) (fun _ => R) fun _ _ _ => True)
    (moves : ∀ source target amount state, R state
      ((TokenPrism.moveBalance TokenPrism.nativeTokenId source target amount).run.run state).2)
    (records : ∀ state rest bytes, R state (state.put ("eth/" ++ rest) bytes))
    {run : EthExecution} (ran : node.ethExecute tx = .ok run) : R node.state run.state := by
  have refl : ∀ state, R state state := fun state => respects.refl false state
  have trans : ∀ {first second third}, R first second → R second third → R first third :=
    fun former latter => @Respects.trans _ _ _ _ _ _ respects false _ _ _ former latter
  unfold ethExecute at ran
  split at ran
  · unfold ethCreate at ran
    dsimp only at ran
    split at ran
    · cases ran
    · rename_i out state framed
      split at ran
      · cases ran
      · cases ran
        have written := records state
          ("code/" ++ Eth.hex0x (Eth.contractAddress tx.sender tx.nonce).toList)
          (toVec (Bytes.hexEncode out.returnData))
        exact trans (ethFrame_respects respects framed) written
  · rename_i target _
    unfold ethCallTo at ran
    dsimp only at ran
    split at ran
    · split at ran
      · cases ran
      · split at ran
        · cases ran
        · rename_i moved
          cases ran
          exact ethMove_respects refl moves moved
    · split at ran
      · cases ran
      · rename_i state moved
        split at ran
        · cases ran
        · rename_i out after framed
          cases ran
          exact trans (ethMove_respects refl moves moved) (ethFrame_respects respects framed)

omit [SerdeJson] [Blake3] [Keccak256] [Secp256k1] [Sha256] [Ripemd160] [Bn254] in
/-- The nonce, the receipt and the transaction. -/
theorem ethRecorded_respects
    (trans : ∀ {first second third}, R first second → R second third → R first third)
    (records : ∀ state rest bytes, R state (state.put ("eth/" ++ rest) bytes)) (node : Node)
    (tx : EthTx) (expected : UInt64) (run : EthExecution) :
    R run.state (node.ethRecorded tx expected run) := by
  have first := records run.state ("nonce/" ++ Eth.hex0x tx.sender.toList)
    (toVec (Nat.repr (expected + 1).toNat))
  have second (state : StateTree) := records state ("receipt/" ++ Eth.hex0x tx.hash.toList)
    (toVec (Eth.receiptJson tx run.created node.ethBlockNumber run.gasUsed run.logs))
  have third (state : StateTree) := records state ("tx/" ++ Eth.hex0x tx.hash.toList)
    (toVec (Eth.txMetaJson tx node.ethBlockNumber))
  exact trans (trans first (second _)) (third _)

end Node

end Veilux
