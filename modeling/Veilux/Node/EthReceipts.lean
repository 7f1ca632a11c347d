/-
The records of Ethereum transactions, over runs of calls: what a node has filed under the hash
of an accepted transaction is read back as it was reported, whatever is called later.
-/

import Veilux.Node.EthNonces

namespace Veilux

open Evm
open StateTree (SameUnder sameUnder_put)

namespace Eth

section Records

variable [SerdeJson]

def ethTx (state : StateTree) (hash : Vector UInt8 32) : Option Json :=
  state.getJson? Json (txmetaKey hash)

def ethReceipt (state : StateTree) (hash : Vector UInt8 32) : Option Json :=
  state.getJson? Json (receiptKey hash)

end Records

/-- The receipt as it follows from the answer to a transaction. -/
def EthApplied.receipt (applied : EthApplied) (blockNumber : UInt64) : Json := .obj
  [("block_number", toJson blockNumber),
    ("contract_address", addressJson applied.contractAddress),
    ("from", .str (hex0x applied.sender.toList)),
    ("gas_used", toJson applied.gasUsed),
    ("logs", .arr (applied.logs.mapIdx logJson)),
    ("nonce", toJson applied.nonce),
    ("status", .num 1),
    ("to", addressJson applied.target),
    ("value", .str applied.value.toText)]

theorem receiptKey_injective {left right : Vector UInt8 32}
    (same : receiptKey left = receiptKey right) : left = right := by
  have texts := congrArg String.toList same
  simp only [receiptKey, String.toList_append, List.append_cancel_left_eq] at texts
  exact Vector.toList_inj.mp (hex0x_injective (String.toList_inj.mp texts))

theorem txmetaKey_injective {left right : Vector UInt8 32}
    (same : txmetaKey left = txmetaKey right) : left = right := by
  have texts := congrArg String.toList same
  simp only [txmetaKey, String.toList_append, List.append_cancel_left_eq] at texts
  exact Vector.toList_inj.mp (hex0x_injective (String.toList_inj.mp texts))

theorem receiptKey_ne_txmetaKey (hash other : Vector UInt8 32) :
    receiptKey hash ≠ txmetaKey other :=
  @Keys.Apart.append_ne "eth/receipt/" "eth/tx/" (by decide) _ _

theorem nonceKey_ne_receiptKey (address : Address) (hash : Vector UInt8 32) :
    nonceKey address ≠ receiptKey hash :=
  @Keys.Apart.append_ne "eth/nonce/" "eth/receipt/" (by decide) _ _

theorem nonceKey_ne_txmetaKey (address : Address) (hash : Vector UInt8 32) :
    nonceKey address ≠ txmetaKey hash :=
  @Keys.Apart.append_ne "eth/nonce/" "eth/tx/" (by decide) _ _

/-! ### Executions file nothing -/

/-- A head apart from everything an execution writes under. -/
structure Filing (head : String) : Prop where
  foreign : Foreign head
  nonces : Keys.Apart "eth/nonce/" head
  codes : Keys.Apart "eth/code/" head
  slots : Keys.Apart "eth/store/" head

theorem filing_receipts : Filing "eth/receipt/" where
  foreign := by constructor <;> decide
  nonces := by decide
  codes := by decide
  slots := by decide

theorem filing_records : Filing "eth/tx/" where
  foreign := by constructor <;> decide
  nonces := by decide
  codes := by decide
  slots := by decide

variable [SerdeJson] [Blake3] {head : String}

theorem Filing.respects (filing : Filing head) :
    Respects (H := StateHost) (fun _ before after => SameUnder head before after)
      fun _ _ _ => True where
  refl _ state := SameUnder.refl head state
  trans former latter := former.trans latter
  weaken kept := kept
  sstore host word key value := by
    change SameUnder head host.state (host.state.put (storageKey (u256ToAddr word) key) _)
    rw [storageKey_eq]
    exact sameUnder_put filing.slots host.state _ _
  bumpNonce host word :=
    sameUnder_put filing.nonces host.state (hex0x (u256ToAddr word).toList) _
  transfer host source target value _ := transfer_spares filing.foreign host source target value
  setCode host word _code _ :=
    sameUnder_put filing.codes host.state (hex0x (u256ToAddr word).toList) _

end Eth

namespace EthTx

variable [Keccak256] [Secp256k1]

theorem ofItems_hash {raw : List UInt8} {items : List Rlp} {tx : EthTx}
    (read : ofItems raw items = .ok tx) : tx.hash = Keccak256.digest raw := by
  unfold ofItems at read
  split at read
  · iterate 14 obtain ⟨_, _, read⟩ := bind_ok read
    injection read with same
    rw [← same]
  · cases read

theorem decodeLegacyTx_hash {raw : List UInt8} {tx : EthTx} (read : decodeLegacyTx raw = .ok tx) :
    tx.hash = Keccak256.digest raw := by
  have body : (do
      let decoded ← lift (Rlp.decode raw)
      let items ← lift decoded.asList
      ofItems raw items) = .ok tx := by
    unfold decodeLegacyTx at read
    split at read
    · split at read
      · cases read
      · exact read
    · exact read
  obtain ⟨_, _, body⟩ := bind_ok body
  obtain ⟨_, _, body⟩ := bind_ok body
  exact ofItems_hash body

end EthTx

/-- What is answered for a transaction. -/
def EthExecution.applied (run : EthExecution) (tx : EthTx) : Eth.EthApplied :=
  { hash := tx.hash
    sender := tx.sender
    target := tx.target
    contractAddress := run.created
    value := tx.value
    nonce := tx.nonce
    gasUsed := run.gasUsed
    logs := run.logs }

namespace Node

section Transactions

variable [SerdeJson] [Blake3] [Keccak256] [Secp256k1] [Sha256] [Ripemd160] [Bn254]
variable {head : String} {node : Node} {tx : EthTx}

open Eth (Filing ethReceipt ethTx)

attribute [local instance] Evm.interpreter

theorem ethExecute_files (filing : Filing head) {run : EthExecution}
    (ran : node.ethExecute tx = .ok run) : SameUnder head node.state run.state := by
  have moves : ∀ source target amount state, SameUnder head state
      ((TokenPrism.moveBalance TokenPrism.nativeTokenId source target amount).run.run state).2 :=
    fun source target amount =>
      TokenPrism.spares_moveBalance filing.foreign _ source target amount
  unfold ethExecute at ran
  split at ran
  · unfold ethCreate at ran
    dsimp only at ran
    split at ran
    · cases ran
    · rename_i out state framed
      split at ran
      · cases ran
      · cases ran
        have written := sameUnder_put filing.codes state
          (Eth.hex0x (Eth.contractAddress tx.sender tx.nonce).toList)
          (toVec (Bytes.hexEncode out.returnData))
        exact (ethFrame_respects filing.respects framed).trans written
  · rename_i target _
    unfold ethCallTo at ran
    dsimp only at ran
    split at ran
    · split at ran
      · cases ran
      · split at ran
        · cases ran
        · rename_i moved
          cases ran
          exact ethMove_respects (SameUnder.refl head) moves moved
    · split at ran
      · cases ran
      · rename_i state moved
        split at ran
        · cases ran
        · rename_i out after framed
          cases ran
          have paid : SameUnder head node.state state :=
            ethMove_respects (SameUnder.refl head) moves moved
          exact paid.trans (ethFrame_respects filing.respects framed)

theorem ethApplyRaw_reported {env : Env} {raw : List UInt8} {applied : Eth.EthApplied}
    (accepted : (node.ethApplyRaw env raw).1 = .ok applied) :
    ∃ tx run, EthTx.decodeLegacyTx raw = .ok tx ∧ applied = run.applied tx ∧
      tx.nonce = Eth.ethNonce node.state tx.sender ∧
      (node.ethApplyRaw env raw).2.state =
        node.ethRecorded tx (Eth.ethNonce node.state tx.sender) run := by
  revert accepted
  unfold ethApplyRaw
  split
  · intro impossible
    cases impossible
  · rename_i tx decoded
    split
    · intro impossible
      cases impossible
    · dsimp only
      split
      · intro impossible
        cases impossible
      · rename_i numbered
        split
        · intro impossible
          cases impossible
        · rename_i run _
          obtain ⟨store, kept⟩ := sealAnchorBlock_eq env ({ node with
            state := node.ethRecorded tx (Eth.ethNonce node.state tx.sender) run } : Node)
            node.head.timestamp
          split
          · intro impossible
            cases impossible
          · rename_i after ended
            intro accepted
            cases accepted
            rw [ended] at kept
            exact ⟨tx, run, decoded, rfl, not_not.mp numbered, by rw [kept]; rfl⟩

/-- What is filed under a hash reads the same. -/
structure SameFiles (hash : Vector UInt8 32) (before after : StateTree) : Prop where
  receipt : ethReceipt after hash = ethReceipt before hash
  record : ethTx after hash = ethTx before hash

omit [Blake3] [Keccak256] [Secp256k1] [Sha256] [Ripemd160] [Bn254] in
theorem SameFiles.of_same {hash : Vector UInt8 32} {before after : StateTree}
    (receipts : SameUnder "eth/receipt/" before after)
    (records : SameUnder "eth/tx/" before after) :
    SameFiles hash before after where
  receipt := by
    unfold ethReceipt StateTree.getJson? StateTree.getJson
    rw [show Eth.receiptKey hash = "eth/receipt/" ++ Eth.hex0x hash.toList from rfl, receipts]
  record := by
    unfold ethTx StateTree.getJson? StateTree.getJson
    rw [show Eth.txmetaKey hash = "eth/tx/" ++ Eth.hex0x hash.toList from rfl, records]

/-- A transaction files under its own hash alone. -/
theorem ethRecorded_files {hash : Vector UInt8 32} (other : tx.hash ≠ hash) {run : EthExecution}
    (ran : node.ethExecute tx = .ok run) (expected : UInt64) :
    SameFiles hash node.state (node.ethRecorded tx expected run) := by
  have executed : SameFiles hash node.state run.state :=
    .of_same (ethExecute_files Eth.filing_receipts ran) (ethExecute_files Eth.filing_records ran)
  constructor
  · unfold ethRecorded ethReceipt StateTree.putJson
    rw [StateTree.getJson?_put_ne _ _ (Eth.receiptKey_ne_txmetaKey _ _).symm,
      StateTree.getJson?_put_ne _ _ fun same => other (Eth.receiptKey_injective same),
      StateTree.getJson?_put_ne _ _ (Eth.nonceKey_ne_receiptKey _ _)]
    exact executed.receipt
  · unfold ethRecorded ethTx StateTree.putJson
    rw [StateTree.getJson?_put_ne _ _ fun same => other (Eth.txmetaKey_injective same),
      StateTree.getJson?_put_ne _ _ (Eth.receiptKey_ne_txmetaKey _ _),
      StateTree.getJson?_put_ne _ _ (Eth.nonceKey_ne_txmetaKey _ _)]
    exact executed.record

omit [Blake3] [Keccak256] [Secp256k1] [Sha256] [Ripemd160] [Bn254] in
theorem ethRecorded_read (node : Node) (tx : EthTx) (expected : UInt64) (run : EthExecution) :
    ethReceipt (node.ethRecorded tx expected run) tx.hash =
        some ((run.applied tx).receipt node.ethBlockNumber) ∧
      ethTx (node.ethRecorded tx expected run) tx.hash =
        some (Eth.txMetaJson tx node.ethBlockNumber) := by
  unfold ethRecorded ethReceipt ethTx
  constructor
  · rw [StateTree.putJson,
      StateTree.getJson?_put_ne _ _ (Eth.receiptKey_ne_txmetaKey _ _).symm,
      StateTree.getJson?_putJson]
    rfl
  · rw [StateTree.getJson?_putJson]

end Transactions

/-! ### Runs -/

section Runs

variable [SerdeJson] [Blake3] [ChaCha20Poly1305] [Ed25519] [Keccak256] [Secp256k1] [Sha256]
  [Ripemd160] [Bn254] {node : Node}

open Eth (Contractual ethNonce ethReceipt ethTx)

attribute [local instance] Evm.interpreter

/-- The raw transactions of a run. -/
def raws (calls : List Call) : List (List UInt8) :=
  calls.filterMap fun
    | .ethApply _ raw => some raw
    | _ => none

/-- A call leaves what is filed under a hash, or seals a transaction of that hash. -/
theorem called_files (cascade : node.cascade.Spares "eth/") (hash : Vector UInt8 32)
    (call : Call) :
    SameFiles hash node.state (called node call).state ∨
      ∃ env raw tx, call = .ethApply env raw ∧ EthTx.decodeLegacyTx raw = .ok tx ∧
        tx.hash = hash ∧ tx.nonce = ethNonce node.state tx.sender := by
  by_cases applies : ∃ env raw, call = .ethApply env raw
  · obtain ⟨env, raw, rfl⟩ := applies
    change SameFiles hash node.state (node.ethApplyRaw env raw).2.state ∨ _
    rcases ethApplyRaw_cases env node raw with refused | ⟨tx, run, anchors, sealed, _⟩
    · rw [refused]
      exact .inl ⟨rfl, rfl⟩
    · obtain ⟨store, kept⟩ := sealAnchorBlock_eq env ({ node with
        state := node.ethRecorded tx (ethNonce node.state tx.sender) run } : Node)
        node.head.timestamp
      by_cases own : tx.hash = hash
      · exact .inr ⟨env, raw, tx, rfl, anchors.decoded, own, anchors.nonce⟩
      · rw [sealed, kept]
        exact .inl (ethRecorded_files own anchors.executed _)
  · have same := called_spares cascade fun env raw named => applies ⟨env, raw, named⟩
    exact .inl (.of_same (fun rest => same ("receipt/" ++ rest)) fun rest => same ("tx/" ++ rest))

/-- Behind a transaction the nonce of its account has moved on, so nothing is filed under its
hash again. -/
theorem files_kept {raw : List UInt8} {tx : EthTx} (decoded : EthTx.decodeLegacyTx raw = .ok tx)
    (keyed : ¬ Contractual tx.sender) (held : Keyed tx.sender node) {count : Nat}
    (current : ethNonce node.state tx.sender = tx.nonce + UInt64.ofNat (count + 1))
    {calls : List Call} (few : count + 1 + calls.length < 2 ^ 64)
    (ideal : ∀ other ∈ raws calls, Keccak256.digest other = Keccak256.digest raw → other = raw) :
    SameFiles tx.hash node.state (Run.run called node calls).state := by
  induction calls generalizing node count with
  | nil => exact ⟨rfl, rfl⟩
  | cons call rest ih =>
      rw [List.length_cons] at few
      have counts := held.counts keyed call
      have idealRest : ∀ other ∈ raws rest,
          Keccak256.digest other = Keccak256.digest raw → other = raw := by
        intro other member
        refine ideal other ?_
        obtain ⟨applies, inRest, named⟩ := List.mem_filterMap.mp member
        exact List.mem_filterMap.mpr ⟨applies, List.mem_cons_of_mem _ inRest, named⟩
      have later : SameFiles tx.hash (called node call).state
          (Run.run called (called node call) rest).state := by
        rcases counts.nonce with ⟨_, same⟩ | ⟨_, next⟩
        · exact ih counts.keyed (same.trans current) (by omega) idealRest
        · have moved : ethNonce (called node call).state tx.sender =
              tx.nonce + UInt64.ofNat (count + 1 + 1) := by
            rw [next, current, UInt64.ofNat_add (count + 1) 1, UInt64.add_assoc]
            rfl
          exact ih counts.keyed moved (by omega) idealRest
      rw [Run.run_cons]
      rcases called_files held.cascade tx.hash call with same |
        ⟨env, again, tx', rfl, read, filed, turn⟩
      · exact ⟨later.receipt.trans same.receipt, later.record.trans same.record⟩
      · -- The transaction would carry the nonce it has carried.
        exfalso
        rw [EthTx.decodeLegacyTx_hash read, EthTx.decodeLegacyTx_hash decoded] at filed
        have equal := ideal again (List.mem_filterMap.mpr ⟨_, List.mem_cons_self, rfl⟩) filed
        rw [equal, decoded] at read
        rw [← Except.ok.inj read, current] at turn
        have words := congrArg UInt64.toNat (UInt64.left_eq_add.mp turn)
        rw [UInt64.toNat_ofNat_of_lt' (by change _ < 2 ^ 64; omega)] at words
        exact absurd words (Nat.succ_ne_zero count)

/-- What was answered for an accepted transaction is what is read under its hash after any calls
behind it: its receipt and the transaction itself. -/
theorem receipt_kept {env : Env} {raw : List UInt8} {applied : Eth.EthApplied}
    (accepted : (node.ethApplyRaw env raw).1 = .ok applied)
    (keyed : ¬ Contractual applied.sender) (held : Keyed applied.sender node) (calls : List Call)
    (few : calls.length + 1 < 2 ^ 64)
    (ideal : ∀ other ∈ raws calls, Keccak256.digest other = Keccak256.digest raw → other = raw) :
    ∃ tx, EthTx.decodeLegacyTx raw = .ok tx ∧ tx.hash = applied.hash ∧
      ethReceipt (Run.run called node (.ethApply env raw :: calls)).state applied.hash =
        some (applied.receipt node.ethBlockNumber) ∧
      ethTx (Run.run called node (.ethApply env raw :: calls)).state applied.hash =
        some (Eth.txMetaJson tx node.ethBlockNumber) := by
  obtain ⟨tx, run, decoded, rfl, numbered, sealed⟩ := ethApplyRaw_reported accepted
  have counts := held.counts keyed (.ethApply env raw)
  have spent := spentNonce_accepted accepted
  have current : ethNonce (called node (.ethApply env raw)).state tx.sender =
      tx.nonce + UInt64.ofNat (0 + 1) := by
    rcases counts.nonce with ⟨none, _⟩ | ⟨some, next⟩
    · rw [none] at spent
      cases spent
    · rw [numbered]
      exact next
  have kept := files_kept decoded keyed counts.keyed current (by omega) ideal
  obtain ⟨receipt, record⟩ :=
    ethRecorded_read node tx (ethNonce node.state tx.sender) run
  rw [← sealed] at receipt record
  exact ⟨tx, decoded, rfl, kept.receipt.trans receipt, kept.record.trans record⟩

end Runs

/-! ### A receipt that stays -/

section Fixed

open Eth (ethReceipt ethTx)

attribute [local instance] SerdeJson.compact Blake3.polynomial ChaCha20Poly1305.keyed
  Ed25519.keyed keyKeccak oneKey blankSha256 blankRipemd160 emptyCurve Evm.interpreter

theorem plain_accepted : ∃ applied, (chainOne.ethApplyRaw (.healthy 0) plainRaw).1 = .ok applied ∧
    applied.sender = keyAddress := by
  have checks : (EthTx.ofItems plainRaw plainItems).toOption.any (fun tx =>
      decide (tx.sender = keyAddress ∧ tx.nonce = 0 ∧ tx.chainId = none ∧
        tx.target = some (Vector.replicate 20 0x35) ∧ tx.data = [] ∧ tx.value = 0)) = true := by
    decide +kernel
  have decoded : EthTx.decodeLegacyTx plainRaw = EthTx.ofItems plainRaw plainItems :=
    EthTx.decodeLegacyTx_encode (by decide +kernel)
  cases read : EthTx.ofItems plainRaw plainItems with
  | error error =>
      rw [read] at checks
      cases checks
  | ok tx =>
      rw [read] at checks decoded
      obtain ⟨sender, nonce, chain, target, data, value⟩ := of_decide_eq_true checks
      obtain ⟨applied, accepted⟩ : ∃ applied,
          (chainOne.ethApplyRaw (.healthy 0) plainRaw).1 = .ok applied :=
        ethApplyRaw_plain decoded chain nonce target rfl data value rfl
      obtain ⟨tx', run, same, rfl, _⟩ := ethApplyRaw_reported accepted
      rw [decoded] at same
      refine ⟨_, accepted, ?_⟩
      rw [← sender, ← Except.ok.inj same]
      rfl

/-- The transaction is tried again behind another block. -/
def laterCalls : List Call :=
  [.produce (.healthy 1) (.healthy 2), .ethApply (.healthy 3) plainRaw]

theorem receipt_kept_plain :
    ∃ applied tx, (chainOne.ethApplyRaw (.healthy 0) plainRaw).1 = .ok applied ∧
      EthTx.decodeLegacyTx plainRaw = .ok tx ∧ tx.hash = applied.hash ∧
      ethReceipt (Run.run called chainOne (.ethApply (.healthy 0) plainRaw :: laterCalls)).state
        applied.hash = some (applied.receipt chainOne.ethBlockNumber) ∧
      ethTx (Run.run called chainOne (.ethApply (.healthy 0) plainRaw :: laterCalls)).state
        applied.hash = some (Eth.txMetaJson tx chainOne.ethBlockNumber) := by
  obtain ⟨applied, accepted, sender⟩ := plain_accepted
  have kept := receipt_kept accepted (sender ▸ keyAddress_keyed) (sender ▸ keyed_chainOne)
    laterCalls (by decide) (by
      intro other member _
      exact List.mem_singleton.mp member)
  obtain ⟨tx, decoded, same, receipt, record⟩ := kept
  exact ⟨applied, tx, accepted, decoded, same, receipt, record⟩

end Fixed

end Node

end Veilux
