/-
Accounts with a key.  Code runs at the addresses of contracts only, and a frame spends,
writes and bumps the nonce of the address it runs at alone; so an account whose address
is no contract's is moved by its own transactions, and by nothing they or others execute.
-/

import Veilux.Node.EthAddresses
import Veilux.Node.EthChains
import Veilux.Node.Untouched

namespace Veilux

open Evm
open Effects (Spec)

/-! ### Moves -/

namespace TokenPrism

variable [SerdeJson] {id : Hash} {source target who : PartyId} {amount : U128} {spent : Nat}

theorem debit_spec (state : StateTree) (spends : who = source → amount.val ≤ spent) :
    Spec (debit id source amount) state fun _ after =>
      (balance state id who).val ≤ (balance after id who).val + spent := by
  unfold debit
  refine Spec.get ?_
  by_cases short : balance state id source < amount
  · rw [if_pos short]
    exact Nat.le_add_right _ _
  · rw [if_neg short]
    change (balance state id who).val ≤
      (balance (withBalance state id source (balance state id source - amount)) id who).val + spent
    by_cases same : who = source
    · subst same
      have taken := spends rfl
      rw [balance_withBalance_self, U128.sub_val (not_lt.mp short)]
      omega
    · rw [balance_withBalance_ne state _ (.inl (Ne.symm same))]
      exact Nat.le_add_right _ _

/-- A move takes what it moves from its source, and nothing from anyone else, whether it goes
through or not. -/
theorem moveBalance_spec (state : StateTree) (spends : who = source → amount.val ≤ spent) :
    Spec (moveBalance id source target amount) state fun _ after =>
      (balance state id who).val ≤ (balance after id who).val + spent := by
  unfold moveBalance
  refine (debit_spec state spends).bind ?_ fun error after taken => taken
  intro done after taken
  refine Spec.get ?_
  dsimp only [addOr]
  cases added : (balance after id target).checkedAdd amount with
  | none => exact taken
  | some sum =>
      change (balance state id who).val ≤
        (balance (withBalance after id target sum) id who).val + spent
      by_cases same : who = target
      · subst same
        have grown := checkedAdd_val added
        rw [balance_withBalance_self]
        omega
      · rw [balance_withBalance_ne after _ (.inl (Ne.symm same))]
        exact taken

end TokenPrism

namespace Eth

theorem foreign : Foreign "eth/" := by
  constructor <;> decide

/-! ### The entries of an account -/

/-- The keys of an account, its balance apart. -/
def Owned (address : Address) (key : String) : Prop :=
  key = nonceKey address ∨ key = codeKey address ∨ ∃ slot, key = storageKey address slot

theorem storageKey_eq (address : Address) (slot : U256) :
    storageKey address slot =
      "eth/store/" ++ (hex0x address.toList ++ ("/" ++ hex0x slot.toBigEndian.toList)) := by
  unfold storageKey
  rw [String.append_assoc, String.append_assoc]

theorem storageKey_address {left right : Address} {slot other : U256}
    (same : storageKey left slot = storageKey right other) : left = right := by
  have texts := congrArg String.toList same
  rw [storageKey_eq, storageKey_eq] at texts
  simp only [String.toList_append, List.append_cancel_left_eq] at texts
  have widths : (hex0x left.toList).toList.length = (hex0x right.toList).toList.length := by
    simp [hex0x, Bytes.hexEncode]
  have heads := List.append_inj_left texts widths
  exact Vector.toList_inj.mp (hex0x_injective (String.toList_inj.mp heads))

theorem Owned.under {address : Address} {key : String} (owned : Owned address key) :
    ∃ rest, key = "eth/" ++ rest := by
  rcases owned with nonce | code | ⟨slot, storage⟩
  · exact ⟨"nonce/" ++ hex0x address.toList, nonce⟩
  · exact ⟨"code/" ++ hex0x address.toList, code⟩
  · refine ⟨"store/" ++ (hex0x address.toList ++ ("/" ++ hex0x slot.toBigEndian.toList)), ?_⟩
    rw [storage, storageKey_eq]
    rfl

/-- The entries of two accounts are apart. -/
theorem Owned.unique {left right : Address} {key : String} (owned : Owned left key)
    (other : Owned right key) : left = right := by
  rcases owned with nonce | code | ⟨slot, storage⟩
  · rcases other with same | same | ⟨place, same⟩
    · exact nonceKey_injective (nonce.symm.trans same)
    · exact absurd (nonce.symm.trans same) (nonceKey_ne_codeKey _ _)
    · exact absurd (nonce.symm.trans same) (nonceKey_ne_storageKey _ _ _)
  · rcases other with same | same | ⟨place, same⟩
    · exact absurd (same.symm.trans code) (nonceKey_ne_codeKey _ _)
    · exact codeKey_injective (code.symm.trans same)
    · exact absurd (code.symm.trans same) (codeKey_ne_storageKey _ _ _)
  · rcases other with same | same | ⟨place, same⟩
    · exact absurd (same.symm.trans storage) (nonceKey_ne_storageKey _ _ _)
    · exact absurd (same.symm.trans storage) (codeKey_ne_storageKey _ _ _)
    · exact storageKey_address (storage.symm.trans same)

theorem ethParty_injective {left right : Address} (same : ethParty left = ethParty right) :
    left = right := by
  have texts := congrArg (fun party : PartyId => party.name.toList) same
  simp only [ethParty, String.toList_append, List.append_cancel_left_eq] at texts
  exact Vector.toList_inj.mp (hex0x_injective (String.toList_inj.mp texts))

/-! ### What is left to an account -/

section Accounts

variable [SerdeJson] [Blake3] {address : Address} {spent further : Nat}
  {before middle after : StateTree}

/-- The entries of an account are as they were, and no more than an amount is gone. -/
structure Spared (address : Address) (spent : Nat) (before after : StateTree) : Prop where
  records : ∀ key, Owned address key → after.get key = before.get key
  balance : (ethBalance before address).val ≤ (ethBalance after address).val + spent

theorem Spared.refl (state : StateTree) : Spared address spent state state :=
  ⟨fun _ _ => rfl, Nat.le_add_right _ _⟩

theorem Spared.trans (former : Spared address spent before middle)
    (latter : Spared address further middle after) :
    Spared address (spent + further) before after where
  records key owned := (latter.records key owned).trans (former.records key owned)
  balance := by
    have first := former.balance
    have second := latter.balance
    omega

omit [Blake3] in
theorem ethNonce_congr (same : after.get (nonceKey address) = before.get (nonceKey address)) :
    ethNonce after address = ethNonce before address := by
  unfold ethNonce StateTree.getJson? StateTree.getJson
  rw [same]

omit [Blake3] in
theorem ethCode_congr (same : after.get (codeKey address) = before.get (codeKey address)) :
    ethCode after address = ethCode before address := by
  unfold ethCode StateTree.getJson? StateTree.getJson
  rw [same]

theorem Spared.nonce (spared : Spared address spent before after) :
    ethNonce after address = ethNonce before address :=
  ethNonce_congr (spared.records _ (.inl rfl))

theorem Spared.code (spared : Spared address spent before after) :
    ethCode after address = ethCode before address :=
  ethCode_congr (spared.records _ (.inr (.inl rfl)))

/-- A record of something else. -/
theorem spared_put (address : Address) (spent : Nat) (state : StateTree) (rest : String)
    (bytes : List UInt8)
    (other : ¬ Owned address ("eth/" ++ rest)) :
    Spared address spent state (state.put ("eth/" ++ rest) bytes) where
  records key owned := by
    refine StateTree.get_put_ne state bytes fun same => other ?_
    rw [same]
    exact owned
  balance := by
    unfold ethBalance
    rw [TokenPrism.balance_put_head state rest bytes (by decide)]
    exact Nat.le_add_right _ _

theorem spared_move (address : Address) (spent : Nat) (state : StateTree)
    (source target : PartyId) (amount : U128)
    (spends : ethParty address = source → amount.val ≤ spent) :
    Spared address spent state
      ((TokenPrism.moveBalance TokenPrism.nativeTokenId source target amount).run.run state).2 where
  records key owned := by
    obtain ⟨rest, rfl⟩ := owned.under
    exact TokenPrism.spares_moveBalance foreign _ source target amount state rest
  balance := TokenPrism.moveBalance_spec state spends

end Accounts

/-! ### Frames -/

section Frames

variable [SerdeJson] [Blake3] {address : Address}

/-- Frames that run elsewhere, in a world where the account has no code. -/
theorem confines : Confines (H := StateHost) (fun state => ethCode state address = [])
    (fun word => u256ToAddr word ≠ address) (fun _ => Spared address 0) fun _ _ _ => True where
  refl _ state := Spared.refl state
  trans former latter := former.trans latter
  weaken kept := kept
  sound kept bare := kept.code.trans bare
  sstore host word key value elsewhere := by
    have slot : Owned (u256ToAddr word) (storageKey (u256ToAddr word) key) := .inr (.inr ⟨key, rfl⟩)
    obtain ⟨rest, under⟩ := slot.under
    change Spared address 0 host.state (host.state.put (storageKey (u256ToAddr word) key) _)
    rw [under] at slot ⊢
    exact spared_put address 0 host.state rest _ fun owned => elsewhere (slot.unique owned)
  bumpNonce host word elsewhere :=
    spared_put address 0 host.state ("nonce/" ++ hex0x (u256ToAddr word).toList) _ fun owned =>
      elsewhere (Owned.unique (.inl rfl) owned)
  transfer host source target value elsewhere _ := by
    change Spared address 0 host.state (host.transfer source target value).2.state
    unfold StateHost.transfer
    by_cases none : value.isZero = true
    · rw [if_pos none]
      exact Spared.refl host.state
    · rw [if_neg none]
      have moved := spared_move address 0 host.state (ethParty (u256ToAddr source))
        (ethParty (u256ToAddr target)) (u256LowU128 value) fun same =>
          absurd (ethParty_injective same).symm elsewhere
      split
      · rename_i state ran
        rw [ran] at moved
        exact moved
      · rename_i error state ran
        rw [ran] at moved
        exact moved
  setCode host word _code elsewhere _ :=
    spared_put address 0 host.state ("code/" ++ hex0x (u256ToAddr word).toList) _ fun owned =>
      elsewhere (Owned.unique (.inr (.inl rfl)) owned)

variable [Keccak256] [Secp256k1] [Sha256] [Ripemd160] [Bn254]

omit [Secp256k1] [Sha256] [Ripemd160] [Bn254] in
/-- A frame is entered at the address of its code, at its caller's or at a contract's. -/
theorem admits (keyed : ¬ Contractual address) (sub : Executor StateHost)
    (vm : Interpreter StateHost) (op : Evm.Opcode) :
    Admits (fun state => ethCode state address = []) (fun word => u256ToAddr word ≠ address)
      (fun _ _ _ => True) sub vm op where
  enters inner enters bare elsewhere := by
    cases enters with
    | @call kind args mid taken enters =>
        have passed := (handling.callArgs kind).ran_ok taken
        change u256ToAddr (if kind = .call ∨ kind = .staticCall then args.target
          else mid.ctx.address) ≠ address
        by_cases direct : kind = .call ∨ kind = .staticCall
        · rw [if_pos direct]
          intro same
          have coded : (ethCode (paidHost kind args mid).state
              (u256ToAddr args.target)).isEmpty = false := enters.coded
          rw [same] at coded
          have none : ethCode (paidHost kind args mid).state address = [] := bare
          rw [none] at coded
          cases coded
        · rw [if_neg direct, passed.ctx]
          exact elsewhere
    | @create salted args mid taken enters =>
        intro same
        have made := newAddress_contractual mid args
        exact keyed (same ▸ made)
  deploys _ _ _ _ _ _ := trivial

/-- A frame that runs elsewhere leaves an account with a key alone, with all frames below it. -/
theorem frame_spares (keyed : ¬ Contractual address) (fuel levels : Nat) (frame : Frame StateHost)
    (bare : ethCode frame.host.state address = [])
    (elsewhere : u256ToAddr frame.ctx.address ≠ address) :
    Spared address 0 frame.host.state (executor fuel levels frame).2.state :=
  (confines.contract.holds fuel levels frame (fun sub vm op _ => admits keyed sub vm op)
    ⟨bare, elsewhere⟩).world

end Frames

end Eth

/-! ### Transactions -/

namespace Node

section Transactions

variable [SerdeJson] [Blake3] [Keccak256] [Secp256k1] [Sha256] [Ripemd160] [Bn254]
variable {node : Node} {tx : EthTx} {address : Address} {state after : StateTree}

open Eth (Spared Owned Contractual ethParty ethNonce ethCode ethBalance)

attribute [local instance] Evm.interpreter

/-- What a transaction may spend of an account. -/
def spendable (tx : EthTx) (address : Address) : Nat :=
  if tx.sender = address then tx.value.val else 0

omit [Keccak256] [Secp256k1] [Sha256] [Ripemd160] [Bn254] in
theorem ethMove_spared {target : Address} (moved : ethMove tx target state = .ok after) :
    Spared address (spendable tx address) state after := by
  unfold ethMove at moved
  split at moved
  · have kept := Eth.spared_move address (spendable tx address) state (ethParty tx.sender)
      (ethParty target) tx.value fun same => by
        unfold spendable
        rw [if_pos (Eth.ethParty_injective same).symm]
    split at moved
    · rename_i ended
      rw [ended] at kept
      cases moved
      exact kept
    · cases moved
  · cases moved
    exact Spared.refl state

theorem ethFrame_spared (keyed : ¬ Contractual address) {runsAt : Address} {code : List UInt8}
    {out : ExecOutcome} (bare : ethCode state address = []) (elsewhere : runsAt ≠ address)
    (ran : node.ethFrame tx runsAt code state = .ok (out, after)) :
    Spared address 0 state after := by
  unfold ethFrame at ran
  dsimp only at ran
  have kept (ctx : CallContext) (here : ctx.address = Eth.addrToU256 runsAt) :
      Spared address 0 state (Evm.executeFrame code ctx (Eth.StateHost.new state node.chainId
        node.ethBlockNumber node.head.timestamp) 0 false).2.state := by
    rw [interpreter_host]
    let frame : Frame Eth.StateHost := ⟨code, ctx, Eth.StateHost.new state node.chainId
      node.ethBlockNumber node.head.timestamp, 0, false⟩
    refine Eth.frame_spares keyed (max ctx.gasLimit.toNat 1 + 1) frame.levels frame bare ?_
    change Eth.u256ToAddr ctx.address ≠ address
    rw [here, Eth.u256ToAddr_addrToU256]
    exact elsewhere
  split at ran
  · cases ran
  · rename_i outcome host ended
    split at ran
    · cases ran
      have same := kept
        { caller := Eth.addrToU256 tx.sender
          address := Eth.addrToU256 runsAt
          value := Eth.valueU256 tx.value
          calldata := tx.data
          gasLimit := min (max tx.gasLimit 21000) Eth.maxEvmGas } rfl
      rw [ended] at same
      exact same
    · cases ran

theorem ethExecute_spared (keyed : ¬ Contractual address) (bare : ethCode node.state address = [])
    {run : EthExecution} (ran : node.ethExecute tx = .ok run) :
    Spared address (spendable tx address) node.state run.state := by
  unfold ethExecute at ran
  split at ran
  · unfold ethCreate at ran
    dsimp only at ran
    split at ran
    · cases ran
    · rename_i out state framed
      split at ran
      · cases ran
      · cases ran
        have elsewhere : Eth.contractAddress tx.sender tx.nonce ≠ address := fun same =>
          keyed (same ▸ Eth.contractAddress_contractual tx.sender tx.nonce)
        have framed := ethFrame_spared keyed bare elsewhere framed
        have written := Eth.spared_put address (spendable tx address) state
          ("code/" ++ Eth.hex0x (Eth.contractAddress tx.sender tx.nonce).toList)
          (toVec (Bytes.hexEncode out.returnData)) fun owned =>
            elsewhere (Owned.unique (.inr (.inl rfl)) owned)
        have both := framed.trans written
        rw [Nat.zero_add] at both
        exact both
  · rename_i target _
    unfold ethCallTo at ran
    dsimp only at ran
    split at ran
    · split at ran
      · cases ran
      · split at ran
        · cases ran
        · rename_i moved
          cases ran
          exact ethMove_spared moved
    · rename_i coded
      split at ran
      · cases ran
      · rename_i state moved
        split at ran
        · cases ran
        · rename_i out after framed
          cases ran
          have elsewhere : target ≠ address := by
            intro same
            rw [same, bare] at coded
            exact coded rfl
          have paid : Spared address (spendable tx address) node.state state := ethMove_spared moved
          exact paid.trans (ethFrame_spared keyed (paid.code.trans bare) elsewhere framed)

omit [Keccak256] [Secp256k1] [Sha256] [Ripemd160] [Bn254] in
/-- The receipt and the transaction are no entries of an account. -/
theorem recorded_spared (address : Address) (state : StateTree) (tx : EthTx)
    (receipt record : Json) :
    Spared address 0 state
      ((state.putJson (Eth.receiptKey tx.hash) receipt).putJson (Eth.txmetaKey tx.hash)
        record) := by
  have outside (head rest : String) (nonces : Keys.Apart ("eth/" ++ head) "eth/nonce/")
      (codes : Keys.Apart ("eth/" ++ head) "eth/code/")
      (slots : Keys.Apart ("eth/" ++ head) "eth/store/") :
      ¬ Owned address ("eth/" ++ (head ++ rest)) := by
    rw [← String.append_assoc]
    rintro (nonce | code | ⟨slot, storage⟩)
    · exact nonces.append_ne _ _ nonce
    · exact codes.append_ne _ _ code
    · rw [Eth.storageKey_eq] at storage
      exact slots.append_ne _ _ storage
  have receipts := Eth.spared_put address 0 state
    ("receipt/" ++ Eth.hex0x tx.hash.toList) (toVec receipt)
    (outside _ _ (by decide) (by decide) (by decide))
  have records := Eth.spared_put address 0
    (state.putJson (Eth.receiptKey tx.hash) receipt) ("tx/" ++ Eth.hex0x tx.hash.toList)
    (toVec record) (outside _ _ (by decide) (by decide) (by decide))
  exact receipts.trans records

/-- What a transaction does to the account it is sent from. -/
structure Spends (address : Address) (tx : EthTx) (before after : StateTree) : Prop where
  nonce : ethNonce before address = tx.nonce ∧ ethNonce after address = tx.nonce + 1
  records : ∀ key, Owned address key → key ≠ Eth.nonceKey address → after.get key = before.get key
  balance : (ethBalance before address).val ≤ (ethBalance after address).val + tx.value.val

omit [Keccak256] [Secp256k1] [Sha256] [Ripemd160] [Bn254] in
theorem Spends.of_recorded {run : EthExecution} {expected : UInt64} (mine : tx.sender = address)
    (current : ethNonce node.state address = expected) (nonce : tx.nonce = expected)
    (kept : Spared address tx.value.val node.state run.state) :
    Spends address tx node.state (node.ethRecorded tx expected run) := by
  have noted := recorded_spared address
    (run.state.putJson (Eth.nonceKey tx.sender) (Nat.repr (expected + 1).toNat)) tx
    (Eth.receiptJson tx run.created node.ethBlockNumber run.gasUsed run.logs)
    (Eth.txMetaJson tx node.ethBlockNumber)
  rw [mine] at noted
  unfold ethRecorded
  rw [mine]
  constructor
  · refine ⟨current.trans nonce.symm, ?_⟩
    rw [noted.nonce, nonce, ethNonce, StateTree.getJson?_putJson, Option.bind_some,
      Eth.StateHost.parseU64_repr]
    rfl
  · intro key owned other
    rw [noted.records key owned]
    unfold StateTree.putJson
    rw [StateTree.get_put_ne _ _ (Ne.symm other)]
    exact kept.records key owned
  · have balance := noted.balance
    have spent := kept.balance
    have same : ethBalance (run.state.putJson (Eth.nonceKey address)
        (Nat.repr (expected + 1).toNat)) address = ethBalance run.state address :=
      @TokenPrism.balance_put_head _ run.state "eth/nonce/" (Eth.hex0x address.toList) _
        (by decide) _ _
    rw [same] at balance
    omega

/-- A raw transaction is refused without a trace, or sealed: then it spends of the account it is
sent from, and spares the others. -/
theorem ethApplyRaw_outcome (env : Env) (node : Node) (raw : List UInt8) {address : Address}
    (keyed : ¬ Contractual address) (bare : ethCode node.state address = []) :
    (node.ethApplyRaw env raw).2 = node ∨
      ∃ tx, EthTx.decodeLegacyTx raw = .ok tx ∧
        node.blocks.length < (node.ethApplyRaw env raw).2.blocks.length ∧
        (tx.sender = address → Spends address tx node.state (node.ethApplyRaw env raw).2.state) ∧
        (tx.sender ≠ address → Spared address 0 node.state (node.ethApplyRaw env raw).2.state) := by
  rcases ethApplyRaw_cases env node raw with refused | ⟨tx, run, anchors, sealed, _⟩
  · exact .inl refused
  · right
    obtain ⟨store, kept⟩ := sealAnchorBlock_eq env ({ node with
      state := node.ethRecorded tx (ethNonce node.state tx.sender) run } : Node)
      node.head.timestamp
    rw [kept] at sealed
    have executed := ethExecute_spared keyed bare anchors.executed
    rw [sealed]
    refine ⟨tx, anchors.decoded, ?_, fun mine => ?_, fun other => ?_⟩
    · simp [append]
    · rw [spendable, if_pos mine] at executed
      exact Spends.of_recorded mine (congrArg _ mine.symm) anchors.nonce executed
    · rw [spendable, if_neg other] at executed
      have numbered := Eth.spared_put address 0 run.state
        ("nonce/" ++ Eth.hex0x tx.sender.toList)
        (toVec (Nat.repr (ethNonce node.state tx.sender + 1).toNat)) fun owned =>
          other (Owned.unique (.inl rfl) owned)
      exact (executed.trans numbered).trans (recorded_spared address _ tx _ _)

/-- An account with a key, whatever is executed: others may only add to its balance, and its
own transactions spend their value at most and carry its nonces in order. -/
theorem ethApplyRaw_account (env : Env) (node : Node) (raw : List UInt8) (address : Address)
    (keyed : ¬ Contractual address) (bare : ethCode node.state address = []) :
    Spared address 0 node.state (node.ethApplyRaw env raw).2.state ∨
      ∃ tx, EthTx.decodeLegacyTx raw = .ok tx ∧ tx.sender = address ∧
        Spends address tx node.state (node.ethApplyRaw env raw).2.state := by
  rcases ethApplyRaw_outcome env node raw keyed bare with same | ⟨tx, decoded, _, spends, spares⟩
  · rw [same]
    exact .inl (Spared.refl node.state)
  · by_cases mine : tx.sender = address
    · exact .inr ⟨tx, decoded, mine, spends mine⟩
    · exact .inl (spares mine)

end Transactions

/-! ### An account with a key -/

section Fixed

open Eth (Spared Contractual)

/-- Keys are digested to ones, everything else to zeros. -/
@[reducible] def keyKeccak : Keccak256 where
  digest bytes := if bytes.length = 64 then Vector.replicate 32 1 else Vector.replicate 32 0

/-- Every signature is of one key. -/
@[reducible] def oneKey : Secp256k1 where
  validSignature _ := true
  recover _ _ _ := some (4 :: List.replicate 64 7)

attribute [local instance] SerdeJson.compact Blake3.polynomial keyKeccak oneKey
  blankSha256 blankRipemd160 emptyCurve Evm.interpreter

def keyAddress : Address := Vector.replicate 20 1

theorem keyAddress_keyed : ¬ Contractual keyAddress := by
  rintro ⟨text, length, same⟩
  have zeros : Keccak256.digest text = Vector.replicate 32 0 := if_neg length
  rw [zeros] at same
  exact absurd same (by decide)

theorem ethApplyRaw_account_plain :
    Spared keyAddress 0 chainOne.state (chainOne.ethApplyRaw (.healthy 0) plainRaw).2.state ∨
      ∃ tx, EthTx.decodeLegacyTx plainRaw = .ok tx ∧ tx.sender = keyAddress ∧
        Spends keyAddress tx chainOne.state (chainOne.ethApplyRaw (.healthy 0) plainRaw).2.state :=
  ethApplyRaw_account (.healthy 0) chainOne plainRaw keyAddress keyAddress_keyed rfl

end Fixed

end Node

end Veilux
