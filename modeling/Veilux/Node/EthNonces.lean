/-
The nonces of accounts with a key, over runs of calls: the blocks between the transactions
write under other heads, so the transactions an account sends carry its nonces in order.
-/

import Veilux.Node.BasePrices
import Veilux.Node.EthAccounts

namespace Veilux

open Evm
open StateTree (SameUnder sameUnder_put)

namespace Node

/-! ### Calls -/

section Calls

variable [SerdeJson] [Blake3] [ChaCha20Poly1305] {head : String} {node : Node}

/-- Nothing is written under the head by the commands of a block, its fees or its price. -/
theorem commitBlock_spares (foreign : Foreign head) (clock : Keys.Apart "chain/" head)
    (prices : Keys.Apart "fee/" head) (spares : node.cascade.Spares head) (env : Env)
    (block : Block) : SameUnder head node.state (node.commitBlock env block).2.state := by
  have committed := commitBlock_committed env node block
  generalize node.commitBlock env block = result at committed
  cases committed with
  | refused error ledgers => exact SameUnder.refl head node.state
  | appended result events state ledgers store verified =>
      obtain ⟨exec, checks, rfl, rfl⟩ := verifyBlock_verified verified
      refine (checks.spares foreign spares clock).trans ?_
      change SameUnder head exec.state (adjustBasePrice exec.state node.feePolicy exec.gas)
      unfold adjustBasePrice
      split
      · exact sameUnder_put prices exec.state "base_price" _
      · exact SameUnder.refl head exec.state

theorem produceBlock_spares (foreign : Foreign head) (clock : Keys.Apart "chain/" head)
    (prices : Keys.Apart "fee/" head) (spares : node.cascade.Spares head) (env later : Env) :
    SameUnder head node.state (node.produceBlock env later).2.state := by
  rcases produceBlock_cases env later node with stopped | ⟨mempool, store, stopped | committed⟩
  · rw [stopped]
    exact SameUnder.refl head node.state
  · rw [stopped]
    exact SameUnder.refl head node.state
  · rw [committed]
    exact @commitBlock_spares _ _ _ _ { node with mempool := mempool, store := store } foreign
      clock prices spares later (node.assembledBlock env)

variable [Ed25519] [Keccak256] [Secp256k1] [Sha256] [Ripemd160] [Bn254] {address : Address}

open Eth (Spared Contractual ethNonce ethCode)

attribute [local instance] Evm.interpreter

/-- Nothing under `eth/` is written by the other calls. -/
theorem called_spares (cascade : node.cascade.Spares "eth/") {call : Call}
    (other : ∀ env raw, call ≠ .ethApply env raw) :
    SameUnder "eth/" node.state (called node call).state := by
  have still : SameUnder "eth/" node.state node.state := SameUnder.refl _ _
  cases call with
  | submit env signed =>
      rw [show (called node (.submit env signed)).state = node.state from
        (submitSigned_kept env node signed).state]
      exact still
  | produce env later =>
      exact produceBlock_spares Eth.foreign (by decide) (by decide) cascade env later
  | commit env block =>
      exact commitBlock_spares Eth.foreign (by decide) (by decide) cascade env block
  | accept env block =>
      change SameUnder "eth/" node.state (node.acceptExternalBlock env block).2.state
      rcases acceptExternalBlock_cases env node block with ignored | ⟨committed, _⟩
      · rw [ignored]
        exact still
      · rw [committed]
        exact commitBlock_spares Eth.foreign (by decide) (by decide) cascade env block
  | ethApply env raw => exact absurd rfl (other env raw)

/-- The nonce of the account's transaction that a call seals, if it does. -/
def spentNonce (address : Address) (node : Node) : Call → Option UInt64
  | .ethApply env raw =>
      match EthTx.decodeLegacyTx raw with
      | .ok tx =>
          if tx.sender = address ∧
              node.blocks.length < (called node (.ethApply env raw)).blocks.length then
            some tx.nonce
          else none
      | .error _ => none
  | _ => none

/-- The nonces of the account's transactions along a run. -/
def spentNonces (address : Address) : Node → List Call → List UInt64
  | _, [] => []
  | node, call :: rest =>
      (spentNonce address node call).toList ++ spentNonces address (called node call) rest

/-- No prism writes under `eth/`, and the account has no code. -/
structure Keyed (address : Address) (node : Node) : Prop where
  cascade : node.cascade.Spares "eth/"
  bare : ethCode node.state address = []

/-- A call moves the nonce of the account by the transaction it seals. -/
structure Counts (address : Address) (node : Node) (call : Call) : Prop where
  keyed : Keyed address (called node call)
  nonce : spentNonce address node call = none ∧
      ethNonce (called node call).state address = ethNonce node.state address ∨
    spentNonce address node call = some (ethNonce node.state address) ∧
      ethNonce (called node call).state address = ethNonce node.state address + 1

theorem Keyed.blocks {call : Call} (held : Keyed address node)
    (other : ∀ env raw, call ≠ .ethApply env raw)
    (same : SameUnder "eth/" node.state (called node call).state) : Counts address node call := by
  have nonce : ethNonce (called node call).state address = ethNonce node.state address :=
    Eth.ethNonce_congr (same ("nonce/" ++ Eth.hex0x address.toList))
  have code : ethCode (called node call).state address = ethCode node.state address :=
    Eth.ethCode_congr (same ("code/" ++ Eth.hex0x address.toList))
  refine ⟨⟨?_, code.trans held.bare⟩, .inl ⟨?_, nonce⟩⟩
  · rw [(called_priced node call).cascade]
    exact held.cascade
  · cases call with
    | ethApply env raw => exact absurd rfl (other env raw)
    | submit env signed => rfl
    | produce env later => rfl
    | commit env block => rfl
    | accept env block => rfl

theorem Keyed.transaction (keyed : ¬ Contractual address) (held : Keyed address node) (env : Env)
    (raw : List UInt8) : Counts address node (.ethApply env raw) := by
  have cascade : (called node (.ethApply env raw)).cascade.Spares "eth/" := by
    rw [(called_priced node (.ethApply env raw)).cascade]
    exact held.cascade
  rcases ethApplyRaw_outcome env node raw keyed held.bare with same |
    ⟨tx, decoded, grown, spends, spares⟩
  · have still : called node (.ethApply env raw) = node := same
    refine ⟨by rw [still]; exact held, .inl ⟨?_, by rw [still]⟩⟩
    unfold spentNonce
    dsimp only
    rw [still]
    cases EthTx.decodeLegacyTx raw with
    | ok tx => exact if_neg fun both => Nat.lt_irrefl _ both.2
    | error error => rfl
  · have counted : spentNonce address node (.ethApply env raw) =
        if tx.sender = address then some tx.nonce else none := by
      unfold spentNonce
      dsimp only
      rw [decoded]
      exact if_congr (and_iff_left grown) rfl rfl
    by_cases mine : tx.sender = address
    · obtain ⟨⟨before, after⟩, records, _⟩ := spends mine
      rw [if_pos mine] at counted
      refine ⟨⟨cascade, ?_⟩, .inr ⟨by rw [counted, before], by rw [before]; exact after⟩⟩
      have code : ethCode (called node (.ethApply env raw)).state address =
          ethCode node.state address :=
        Eth.ethCode_congr (records _ (.inr (.inl rfl)) (Eth.nonceKey_ne_codeKey _ _).symm)
      exact code.trans held.bare
    · have kept := spares mine
      rw [if_neg mine] at counted
      exact ⟨⟨cascade, kept.code.trans held.bare⟩, .inl ⟨counted, kept.nonce⟩⟩

theorem Keyed.counts (keyed : ¬ Contractual address) (held : Keyed address node) (call : Call) :
    Counts address node call := by
  by_cases applies : ∃ env raw, call = .ethApply env raw
  · obtain ⟨env, raw, rfl⟩ := applies
    exact held.transaction keyed env raw
  · have other : ∀ env raw, call ≠ .ethApply env raw := fun env raw same =>
      applies ⟨env, raw, same⟩
    exact held.blocks other (called_spares held.cascade other)

/-- A number of nonces from one on. -/
def nonceRange (first : UInt64) (count : Nat) : List UInt64 :=
  (List.range count).map fun index => first + UInt64.ofNat index

omit [SerdeJson] [Blake3] [ChaCha20Poly1305] [Ed25519] [Keccak256] [Secp256k1] [Sha256]
  [Ripemd160] [Bn254] in
theorem nonceRange_succ (first : UInt64) (count : Nat) :
    nonceRange first (count + 1) = first :: nonceRange (first + 1) count := by
  unfold nonceRange
  rw [List.range_succ_eq_map, List.map_cons, List.map_map]
  refine congrArg₂ List.cons (UInt64.add_zero first) (List.map_congr_left fun index _ => ?_)
  change first + UInt64.ofNat (index + 1) = first + 1 + UInt64.ofNat index
  rw [UInt64.ofNat_add, UInt64.add_assoc, UInt64.add_comm 1]
  rfl

omit [ChaCha20Poly1305] [Ed25519] in
theorem ethApplyRaw_applied {env : Env} {raw : List UInt8} {applied : Eth.EthApplied}
    (accepted : (node.ethApplyRaw env raw).1 = .ok applied) :
    node.blocks.length < (node.ethApplyRaw env raw).2.blocks.length ∧
      ∃ tx, EthTx.decodeLegacyTx raw = .ok tx ∧ tx.sender = applied.sender ∧
        tx.nonce = applied.nonce := by
  revert accepted
  unfold ethApplyRaw
  split
  · intro impossible
    cases impossible
  · rename_i tx decoded
    split
    · intro impossible
      cases impossible
    · dsimp only
      split
      · intro impossible
        cases impossible
      · split
        · intro impossible
          cases impossible
        · rename_i run _
          obtain ⟨store, kept⟩ := sealAnchorBlock_eq env ({ node with
            state := node.ethRecorded tx (ethNonce node.state tx.sender) run } : Node)
            node.head.timestamp
          split
          · intro impossible
            cases impossible
          · rename_i after ended
            intro accepted
            cases accepted
            rw [ended] at kept
            refine ⟨?_, tx, decoded, rfl, rfl⟩
            rw [kept]
            simp [append]

/-- An accepted transaction is sealed. -/
theorem spentNonce_accepted {env : Env} {raw : List UInt8} {applied : Eth.EthApplied}
    (accepted : (node.ethApplyRaw env raw).1 = .ok applied) :
    spentNonce applied.sender node (.ethApply env raw) = some applied.nonce := by
  obtain ⟨grown, tx, decoded, sender, nonce⟩ := ethApplyRaw_applied accepted
  unfold spentNonce
  dsimp only
  rw [decoded]
  dsimp only
  rw [if_pos ⟨sender, grown⟩, nonce]

/-- Along every run of calls, the transactions of an account with a key carry its nonces one
after the other, without a gap and without a repetition; the next to be accepted carries the
next. -/
theorem nonces_in_order (keyed : ¬ Contractual address) {start : Node} (held : Keyed address start)
    (calls : List Call) :
    (∃ count, spentNonces address start calls = nonceRange (ethNonce start.state address) count ∧
      ethNonce (Run.run called start calls).state address =
        ethNonce start.state address + UInt64.ofNat count) ∧
    ∀ env raw applied, ((Run.run called start calls).ethApplyRaw env raw).1 = .ok applied →
      applied.sender = address →
        applied.nonce = ethNonce (Run.run called start calls).state address ∧
          spentNonce address (Run.run called start calls) (.ethApply env raw) =
            some applied.nonce := by
  induction calls generalizing start with
  | nil =>
      refine ⟨⟨0, rfl, (UInt64.add_zero _).symm⟩, ?_⟩
      intro env raw applied accepted mine
      have spent := spentNonce_accepted accepted
      rw [mine] at spent
      refine ⟨?_, spent⟩
      rcases (held.counts keyed (.ethApply env raw)).nonce with ⟨none, _⟩ | ⟨some, _⟩
      · rw [Run.run_nil, none] at spent
        cases spent
      · rw [Run.run_nil, some] at spent
        exact (Option.some.inj spent).symm
  | cons call rest ih =>
      have counts := held.counts keyed call
      obtain ⟨⟨count, listed, last⟩, accepts⟩ := ih counts.keyed
      refine ⟨?_, accepts⟩
      rw [Run.run_cons, last]
      unfold spentNonces
      rw [listed]
      rcases counts.nonce with ⟨none, same⟩ | ⟨spent, next⟩
      · rw [none, same]
        exact ⟨count, rfl, rfl⟩
      · rw [spent, next]
        refine ⟨count + 1, (nonceRange_succ _ _).symm, ?_⟩
        rw [UInt64.ofNat_add, UInt64.add_assoc, UInt64.add_comm (UInt64.ofNat count)]
        rfl

end Calls

/-! ### Two transactions of one nonce -/

section Fixed

open Eth (ethNonce)

attribute [local instance] SerdeJson.compact Blake3.polynomial ChaCha20Poly1305.keyed
  Ed25519.keyed keyKeccak oneKey blankSha256 blankRipemd160 emptyCurve Evm.interpreter

theorem keyed_chainOne : Keyed keyAddress chainOne :=
  ⟨Cascade.spares_empty, rfl⟩

theorem nonces_in_order_plain :
    let calls : List Call := [.ethApply (.healthy 0) plainRaw, .ethApply (.healthy 0) plainRaw]
    (∃ count, spentNonces keyAddress chainOne calls =
        nonceRange (ethNonce chainOne.state keyAddress) count ∧
      ethNonce (Run.run called chainOne calls).state keyAddress =
        ethNonce chainOne.state keyAddress + UInt64.ofNat count) ∧
    ∀ env raw applied, ((Run.run called chainOne calls).ethApplyRaw env raw).1 = .ok applied →
      applied.sender = keyAddress →
        applied.nonce = ethNonce (Run.run called chainOne calls).state keyAddress ∧
          spentNonce keyAddress (Run.run called chainOne calls) (.ethApply env raw) =
            some applied.nonce :=
  nonces_in_order keyAddress_keyed keyed_chainOne _

end Fixed

end Node

end Veilux
