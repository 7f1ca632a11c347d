/-
Chain ids of raw transactions.  The signature of an accepted transaction is over a payload with
the node's chain id, unless its `v` names no chain; those payloads have no chain id, and every
node takes them.
-/

import Veilux.Evm.Signing
import Veilux.Node.EthValue

namespace Veilux

open Evm
open Rlp (encodeStr encodeList trimmed)

namespace EthTx

/-- A payload of nine fields with the chain id in the seventh. -/
def BindsChain (payload : List UInt8) (chainId : UInt64) : Prop :=
  ∃ nonce gasPrice gasLimit target value data,
    payload = encodeSigningListEip155 nonce gasPrice gasLimit target value data chainId

/-- A payload of the six fields that come before a chain id. -/
def Unbound (payload : List UInt8) : Prop :=
  ∃ nonce gasPrice gasLimit target value data,
    payload = encodeSigningListLegacy nonce gasPrice gasLimit target value data

/-- The chain that a `v` from 35 on names. -/
def chainOf (v : UInt64) : UInt64 := (v - 35) / 2

theorem Carries.unique {raw r s r' s' : List UInt8} {v v' : UInt64} (first : Carries raw v r s)
    (second : Carries raw v' r' s') : v = v' := by
  obtain ⟨_, _, _, _, _, _, vItem, _, _, decoded, read, _⟩ := first
  obtain ⟨_, _, _, _, _, _, vItem', _, _, decoded', read', _⟩ := second
  rw [decoded] at decoded'
  injection decoded' with same
  injection same with items
  simp only [List.cons.injEq] at items
  obtain ⟨_, _, _, _, _, _, rfl, _⟩ := items
  rw [read] at read'
  exact Except.ok.inj read'

/-- The two shapes of `v`: a chain and a parity, or a parity alone. -/
theorem splitV_cases {v : UInt64} {chainId : Option UInt64} {recovery : UInt8}
    (split : splitV v = .ok (chainId, recovery)) :
    (35 ≤ v ∧ chainId = some (chainOf v)) ∨
      ((v = 27 ∨ v = 28 ∨ v = 0 ∨ v = 1) ∧ chainId = none) := by
  unfold splitV at split
  by_cases plain : v = 27 ∨ v = 28
  · rw [if_pos plain] at split
    have none : chainId = none := (Prod.mk.inj (Except.ok.inj split)).1.symm
    rcases plain with low | high
    · exact .inr ⟨.inl low, none⟩
    · exact .inr ⟨.inr (.inl high), none⟩
  · rw [if_neg plain] at split
    by_cases named : 35 ≤ v
    · rw [if_pos named] at split
      exact .inl ⟨named, (Prod.mk.inj (Except.ok.inj split)).1.symm⟩
    · rw [if_neg named] at split
      by_cases parity : v = 0 ∨ v = 1
      · rw [if_pos parity] at split
        exact .inr ⟨.inr (.inr parity), (Prod.mk.inj (Except.ok.inj split)).1.symm⟩
      · rw [if_neg parity] at split
        cases split

/-- Payloads without a chain are lists of six, those with one lists of nine. -/
theorem Unbound.not_bindsChain {payload : List UInt8} {chainId : UInt64}
    (short : payload.length < 2 ^ 64) (unbound : Unbound payload) :
    ¬ BindsChain payload chainId := by
  have lists {items : List Rlp} (written : payload = Rlp.encode (.list items)) :
      Rlp.decode payload = .ok (.list items) := by
    have shorter := Rlp.payload_suffix (.list items)
    rw [← written] at shorter
    have read := Rlp.reads_encode (.list items) (shorter.trans_lt short) []
    rw [List.append_nil, ← written] at read
    exact Rlp.decode_ok.mpr read
  intro ⟨nonce, gasPrice, gasLimit, target, value, data, nine⟩
  obtain ⟨nonce', gasPrice', gasLimit', target', value', data', six⟩ := unbound
  have shape (nonce : UInt64) (gasPrice : U128) (gasLimit : UInt64) (target : Option Address)
      (value : U128) (data : List UInt8) :
      signedFields nonce gasPrice gasLimit target value data =
        [Rlp.encode (.str (trimmed 8 nonce.toNat)), Rlp.encode (.str (trimmed 16 gasPrice.val)),
          Rlp.encode (.str (trimmed 8 gasLimit.toNat)), Rlp.encode (.str (toField target)),
          Rlp.encode (.str (trimmed 16 value.val)), Rlp.encode (.str data)] := by
    simp only [Rlp.encode, signedFields]
  have first := @lists [.str (trimmed 8 nonce.toNat), .str (trimmed 16 gasPrice.val),
    .str (trimmed 8 gasLimit.toNat), .str (toField target), .str (trimmed 16 value.val), .str data,
    .str (trimmed 8 chainId.toNat), .str [], .str []] (by
      rw [nine, encodeSigningListEip155, shape]
      simp only [Rlp.encode, Rlp.encodeAll, List.cons_append, List.nil_append])
  have second := @lists [.str (trimmed 8 nonce'.toNat), .str (trimmed 16 gasPrice'.val),
    .str (trimmed 8 gasLimit'.toNat), .str (toField target'), .str (trimmed 16 value'.val),
    .str data'] (by
      rw [six, encodeSigningListLegacy, shape]
      simp only [Rlp.encode, Rlp.encodeAll])
  rw [first] at second
  injection second with same
  injection same with items
  have lengths := congrArg List.length items
  cases lengths

end EthTx

namespace Node

section Chains

variable [SerdeJson] [Blake3] [Keccak256] [Secp256k1] [Evm]

open EthTx

/-- The signature that the raw transaction carries gives the sender for this payload. -/
def SignedOver (raw payload : List UInt8) (sender : Address) : Prop :=
  ∃ v r s recovery, Carries raw v r s ∧
    recoverAddress (Keccak256.digest payload) r s recovery = .ok sender

theorem ethApplyRaw_sender {env : Env} {node : Node} {raw : List UInt8} {tx : EthTx}
    {applied : Eth.EthApplied} (accepted : (node.ethApplyRaw env raw).1 = .ok applied)
    (decoded : decodeLegacyTx raw = .ok tx) : applied.sender = tx.sender := by
  unfold ethApplyRaw at accepted
  rw [decoded] at accepted
  dsimp only at accepted
  split at accepted
  · cases accepted
  · split at accepted
    · cases accepted
    · split at accepted
      · cases accepted
      · split at accepted
        · cases accepted
        · exact (congrArg Eth.EthApplied.sender (Except.ok.inj accepted)).symm

/-- A plain transfer of nothing is accepted by a node without a directory. -/
theorem ethApplyRaw_plain {env : Env} {node : Node} {raw : List UInt8} {tx : EthTx}
    {target : Address} (decoded : decodeLegacyTx raw = .ok tx) (chain : tx.chainId = none)
    (nonce : tx.nonce = Eth.ethNonce node.state tx.sender) (targeted : tx.target = some target)
    (plain : Eth.ethCode node.state target = []) (data : tx.data = []) (value : tx.value = 0)
    (bare : node.store = none) : ∃ applied, (node.ethApplyRaw env raw).1 = .ok applied := by
  have unnamed : ¬ (tx.chainId.isSome ∧ tx.chainId ≠ some node.chainId) := by
    rw [chain]
    exact fun named => Bool.false_ne_true named.1
  have moved : ethMove tx target node.state = .ok node.state := by
    unfold ethMove
    rw [value, if_neg (lt_irrefl _)]
  obtain ⟨run, executed⟩ : ∃ run, node.ethExecute tx = .ok run := by
    unfold ethExecute ethCallTo
    rw [targeted]
    dsimp only
    rw [plain, data, moved]
    exact ⟨_, rfl⟩
  have sealed (state : StateTree) :
      (({ node with state := state } : Node).sealAnchorBlock env node.head.timestamp).1 =
        .ok () := by
    unfold sealAnchorBlock persistAnchor
    dsimp only [append]
    rw [bare]
  unfold ethApplyRaw
  rw [decoded]
  dsimp only
  rw [if_neg unnamed, if_neg (not_not.mpr nonce), executed]
  dsimp only
  have done := sealed (node.ethRecorded tx (Eth.ethNonce node.state tx.sender) run)
  split
  · rename_i failed
    rw [failed] at done
    cases done
  · exact ⟨_, rfl⟩

end Chains

section Fixed

open EthTx

/-- The payload of a transfer of nothing that names no chain. -/
def plainPayload : List UInt8 :=
  encodeSigningListLegacy 0 0 21000 (some (Vector.replicate 20 0x35)) 0 []

def plainItems : List Rlp :=
  [.str [], .str [], .str [0x52, 0x08], .str (List.replicate 20 0x35), .str [], .str [],
    .str [27], .str [1], .str [1]]

def plainRaw : List UInt8 := Rlp.encode (.list plainItems)

@[reducible] def plainKeccak : Keccak256 where
  digest bytes := if bytes = plainPayload then Vector.replicate 32 1 else Vector.replicate 32 0

/-- One signature, over the digest of the payload. -/
@[reducible] def plainCurve : Secp256k1 where
  validSignature _ := true
  recover digest _ _ := if digest = Vector.replicate 32 1 then some [4] else none

attribute [local instance] SerdeJson.compact Blake3.polynomial plainKeccak plainCurve stopping

def chainOne : Node := { Node.new ⟨"validator"⟩ Cascade.empty with chainId := 1 }

theorem plain_decoded : ∃ tx, decodeLegacyTx plainRaw = .ok tx ∧ tx.nonce = 0 ∧
    tx.chainId = none ∧ tx.target = some (Vector.replicate 20 0x35) ∧ tx.data = [] ∧
    tx.value = 0 ∧ tx.signingPayload = plainPayload := by
  have checks : (ofItems plainRaw plainItems).toOption.any (fun tx =>
      decide (tx.nonce = 0 ∧ tx.chainId = none ∧
        tx.target = some (Vector.replicate 20 0x35) ∧ tx.data = [] ∧ tx.value = 0 ∧
        tx.signingPayload = plainPayload)) = true := by
    decide +kernel
  have decoded : decodeLegacyTx plainRaw = ofItems plainRaw plainItems :=
    decodeLegacyTx_encode (by decide +kernel)
  rw [decoded]
  cases read : ofItems plainRaw plainItems with
  | ok tx =>
      rw [read] at checks
      exact ⟨tx, rfl, of_decide_eq_true checks⟩
  | error error =>
      rw [read] at checks
      cases checks

/-- Only the plain payload has the digest that the signature is over. -/
theorem signed_payload {digest : Vector UInt8 32} {r s : List UInt8} {recovery : UInt8}
    {sender : Address} (recovered : recoverAddress digest r s recovery = .ok sender) :
    digest = Vector.replicate 32 1 := by
  by_contra other
  unfold recoverAddress at recovered
  obtain ⟨r32, _, recovered⟩ := bind_ok recovered
  obtain ⟨s32, _, recovered⟩ := bind_ok recovered
  have none : Secp256k1.recover digest (r32 ++ s32) recovery = none := if_neg other
  rw [none] at recovered
  split at recovered
  · dsimp only at recovered
    split at recovered
    · cases recovered
    · cases recovered
  · cases recovered

end Fixed

end Node

end Veilux
