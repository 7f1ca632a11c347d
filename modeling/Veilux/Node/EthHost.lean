/-
The two hosts of the interpreter, `MemHost` and the node's `StateHost`, as journals:
their snapshots work alike, static frames leave both as they were, and an instruction
that fails gives the world back.
-/

import Veilux.Evm.Journaled
import Veilux.Evm.MemHost
import Veilux.Node.Eth
import Veilux.Prism.TokenKeys

namespace Veilux

open Evm

namespace Evm.MemHost

instance : Journaled MemHost MemWorld where
  store := journaling
  faithful := faithful
  snapshot_eq := rfl
  revert_eq := rfl
  commit_eq := rfl
  sstore_saved _ _ _ _ := rfl
  setCode_saved _ _ _ := rfl
  bumpNonce_saved _ _ := rfl
  transfer_saved host source target value := by
    change (transfer host source target value).2.snapshots = host.snapshots
    unfold transfer
    split
    · rfl
    · rfl

end Evm.MemHost

namespace Eth.StateHost

variable [SerdeJson] [Blake3]

def journaling : Journaling StateHost StateTree where
  journal host := ⟨host.state, host.snapshots⟩
  write host state := { host with state := state }
  snapshot := snapshot
  revert := revert
  commit := commitSnapshot

omit [SerdeJson] [Blake3] in
theorem faithful : journaling.Faithful where
  write _ _ := rfl
  snapshot_name _ := rfl
  snapshot _ := rfl
  revert host id _ := by
    change Journal.mk (revert host id).state (revert host id).snapshots = _
    unfold revert Journal.revert
    change _ = if 1 ≤ id ∧ id ≤ host.snapshots.length then _ else _
    split
    · rfl
    · rfl
  commit host id _ := by
    change Journal.mk (commitSnapshot host id).state (commitSnapshot host id).snapshots = _
    unfold commitSnapshot Journal.commit
    change _ = if 1 ≤ id ∧ id ≤ host.snapshots.length then _ else _
    split
    · rfl
    · rfl

instance : Journaled StateHost StateTree where
  store := journaling
  faithful := faithful
  snapshot_eq := rfl
  revert_eq := rfl
  commit_eq := rfl
  sstore_saved _ _ _ _ := rfl
  setCode_saved _ _ _ := rfl
  bumpNonce_saved _ _ := rfl
  transfer_saved host source target value := by
    change (transfer host source target value).2.snapshots = host.snapshots
    unfold transfer
    split
    · rfl
    · split
      · rfl
      · rfl

end Eth.StateHost

/-! ### The keys of accounts -/

namespace Eth

theorem hex0x_injective {left right : List UInt8} (same : hex0x left = hex0x right) :
    left = right := by
  have texts := congrArg String.toList same
  simp only [hex0x, Bytes.hexEncode, String.toList_append, List.append_cancel_left_eq,
    String.toList_ofList] at texts
  exact Bytes.hexChars_injective texts

theorem nonceKey_injective {left right : Address} (same : nonceKey left = nonceKey right) :
    left = right := by
  have texts := congrArg String.toList same
  simp only [nonceKey, String.toList_append, List.append_cancel_left_eq] at texts
  exact Vector.toList_inj.mp (hex0x_injective (String.toList_inj.mp texts))

theorem codeKey_injective {left right : Address} (same : codeKey left = codeKey right) :
    left = right := by
  have texts := congrArg String.toList same
  simp only [codeKey, String.toList_append, List.append_cancel_left_eq] at texts
  exact Vector.toList_inj.mp (hex0x_injective (String.toList_inj.mp texts))

theorem nonceKey_ne_codeKey (left right : Address) : nonceKey left ≠ codeKey right :=
  Keys.Apart.append_ne (by decide) _ _

theorem nonceKey_ne_storageKey (left right : Address) (slot : U256) :
    nonceKey left ≠ storageKey right slot := by
  unfold nonceKey storageKey
  rw [String.append_assoc, String.append_assoc]
  exact Keys.Apart.append_ne (by decide) _ _

theorem codeKey_ne_storageKey (left right : Address) (slot : U256) :
    codeKey left ≠ storageKey right slot := by
  unfold codeKey storageKey
  rw [String.append_assoc, String.append_assoc]
  exact Keys.Apart.append_ne (by decide) _ _

end Eth

/-! ### Accounts -/

section Accounts

variable {H : Type} [Host H]

/-- Storage, balances, codes and nonces of two hosts are the same. -/
structure SameAccounts (before after : H) : Prop where
  storage : ∀ address key, Host.sload after address key = Host.sload before address key
  balances : ∀ address, Host.balance after address = Host.balance before address
  codes : ∀ address, Host.code after address = Host.code before address
  nonces : ∀ address, Host.accountNonce after address = Host.accountNonce before address

/-- The same, but for the nonce of the accounts that are one with the creator's, which is
what it was or one more. -/
structure SameButNonce (One : U256 → U256 → Prop) (creator : U256) (before after : H) : Prop where
  storage : ∀ address key, Host.sload after address key = Host.sload before address key
  balances : ∀ address, Host.balance after address = Host.balance before address
  codes : ∀ address, Host.code after address = Host.code before address
  nonces : ∀ address, ¬ One address creator →
    Host.accountNonce after address = Host.accountNonce before address
  creator : Host.accountNonce after creator = Host.accountNonce before creator ∨
    Host.accountNonce after creator = Host.accountNonce before creator + 1

theorem SameAccounts.butNonce {before after : H} (same : SameAccounts before after)
    (One : U256 → U256 → Prop) (creator : U256) : SameButNonce One creator before after where
  storage := same.storage
  balances := same.balances
  codes := same.codes
  nonces address _ := same.nonces address
  creator := .inl (same.nonces creator)

end Accounts

namespace Evm.MemHost

theorem sameAccounts_of_world {before after : MemHost} (same : after.world = before.world) :
    SameAccounts before after where
  storage address key := by
    change lookup after.world.storage _ _ = lookup before.world.storage _ _
    rw [same]
  balances address := by
    change lookup after.world.balances _ _ = lookup before.world.balances _ _
    rw [same]
  codes address := by
    change lookup after.world.codes _ _ = lookup before.world.codes _ _
    rw [same]
  nonces address := by
    change lookup after.world.nonces _ _ = lookup before.world.nonces _ _
    rw [same]

theorem bumpNonce_butNonce (host : MemHost) (creator : U256) :
    SameButNonce (· = ·) creator host (bumpNonce host creator) where
  storage _ _ := rfl
  balances _ := rfl
  codes _ := rfl
  nonces address other := by
    change lookup (host.world.nonces.insert creator _) address 0 = lookup host.world.nonces address 0
    unfold lookup
    rw [AList.lookup_insert_ne other]
  creator := by
    right
    change lookup (host.world.nonces.insert creator (host.accountNonce creator + 1)) creator 0 = _
    unfold lookup
    rw [AList.lookup_insert]
    rfl

end Evm.MemHost

namespace Eth.StateHost

variable [SerdeJson] [Blake3]

theorem sameAccounts_of_state {before after : StateHost} (same : after.state = before.state) :
    SameAccounts before after where
  storage address key := by
    change sload after address key = sload before address key
    unfold sload
    rw [same]
  balances address := by
    change valueU256 (ethBalance after.state _) = valueU256 (ethBalance before.state _)
    rw [same]
  codes address := by
    change ethCode after.state _ = ethCode before.state _
    rw [same]
  nonces address := by
    change ethNonce after.state _ = ethNonce before.state _
    rw [same]

omit [SerdeJson] [Blake3] in
theorem parseU64_repr (value : UInt64) : parseU64 (Nat.repr value.toNat) = some value := by
  have bound := value.toNat_lt
  have text : Nat.repr value.toNat = U128.toText ⟨value.toNat, by omega⟩ := rfl
  unfold parseU64
  rw [text, U128.parse_toText, Option.bind_some, if_pos bound]
  exact congrArg some (UInt64.ofNat_toNat)

theorem bumpNonce_butNonce (host : StateHost) (creator : U256) :
    SameButNonce (fun address other => u256ToAddr address = u256ToAddr other) creator host
      (bumpNonce host creator) := by
  have elsewhere {key : String} (other : nonceKey (u256ToAddr creator) ≠ key) :
      (bumpNonce host creator).state.getJson? String key = host.state.getJson? String key :=
    StateTree.getJson?_put_ne _ _ other
  constructor
  · intro address key
    change sload (bumpNonce host creator) address key = sload host address key
    unfold sload
    rw [elsewhere (nonceKey_ne_storageKey _ _ _)]
  · intro address
    change valueU256 (ethBalance _ _) = valueU256 (ethBalance host.state _)
    congr 1
    exact TokenPrism.balance_put_ne _ _ (TokenPrism.head_ne_balKey (by decide) _ _ _)
  · intro address
    change ethCode _ _ = ethCode host.state _
    unfold ethCode
    rw [elsewhere (nonceKey_ne_codeKey _ _)]
  · intro address other
    change ethNonce _ _ = ethNonce host.state _
    unfold ethNonce
    rw [elsewhere fun same => other (nonceKey_injective same).symm]
  · right
    change ethNonce (host.state.putJson _ _) _ = ethNonce host.state _ + 1
    rw [ethNonce, StateTree.getJson?_putJson, Option.bind_some, parseU64_repr]
    rfl

end Eth.StateHost

/-! ### Both hosts -/

section Hosts

variable [SerdeJson] [Blake3] [Keccak256] [Secp256k1] [Sha256] [Ripemd160] [Bn254]

/-- Nothing was written and nothing logged. -/
structure ReadOnly {H : Type} [Host H] (host : H) (left : Except Fault ExecOutcome × H) : Prop where
  accounts : SameAccounts host left.2
  silent : ∀ outcome, left.1 = .ok outcome → outcome.logs = []

/-- A static frame is read-only, whatever its code enters, on both hosts. -/
theorem static_frame_readOnly :
    (∀ fuel code ctx (host : MemHost) depth,
      ReadOnly host (executeFrameWith fuel ⟨code, ctx, host, depth, true⟩)) ∧
    (∀ fuel code ctx (host : Eth.StateHost) depth,
      ReadOnly host (executeFrameWith fuel ⟨code, ctx, host, depth, true⟩)) := by
  constructor
  · intro fuel code ctx host depth
    obtain ⟨same, silent⟩ := static_world fuel _ (⟨code, ctx, host, depth, true⟩ : Frame MemHost) rfl
    exact ⟨MemHost.sameAccounts_of_world same, silent⟩
  · intro fuel code ctx host depth
    obtain ⟨same, silent⟩ :=
      static_world fuel _ (⟨code, ctx, host, depth, true⟩ : Frame Eth.StateHost) rfl
    exact ⟨Eth.StateHost.sameAccounts_of_state same, silent⟩

/-- Calls and creations, in any frame and with the executor of any level below it: they
hand back the stack of snapshots, and one that pushed zero gives the accounts back.  The
last case of a creation is one that went through, to the address that is the word zero. -/
structure SnapshotDiscipline (H : Type) {W : Type} [Host H] [Journaled H W]
    (One : U256 → U256 → Prop) : Prop where
  call : ∀ fuel levels kind (vm after : Interpreter H),
    (doCall (below fuel levels) kind).run.run vm = (.ok (), after) →
      saved after.host = saved vm.host ∧
        (after.stack.head? = some .zero → SameAccounts vm.host after.host)
  create : ∀ fuel levels salted (vm after : Interpreter H),
    (doCreate (below fuel levels) salted).run.run vm = (.ok (), after) →
      saved after.host = saved vm.host ∧
        (after.stack.head? = some .zero →
          SameButNonce One vm.ctx.address vm.host after.host ∨
            ∃ host code, Deployment (below fuel levels) vm salted host .zero code)

omit [SerdeJson] [Blake3] in
theorem discipline_of_world {H W : Type} [Host H] [Journaled H W] {One : U256 → U256 → Prop}
    (accounts : ∀ before after : H, world after = world before → SameAccounts before after)
    (bumped : ∀ (host : H) creator,
      SameButNonce One creator host (Host.bumpNonce host creator)) :
    SnapshotDiscipline H One where
  call fuel levels kind vm after ran := by
    obtain ⟨stack, zero⟩ := doCall_journal fuel levels kind ran
    exact ⟨stack, fun pushed => accounts _ _ (zero pushed)⟩
  create fuel levels salted vm after ran := by
    obtain ⟨stack, zero⟩ := doCreate_journal fuel levels salted ran
    refine ⟨stack, fun pushed => ?_⟩
    rcases zero pushed with same | nonce | deployed
    · exact .inl ((accounts _ _ same).butNonce One _)
    · have rest := accounts _ _ nonce
      have step := bumped vm.host vm.ctx.address
      refine .inl ⟨?_, ?_, ?_, ?_, ?_⟩
      · intro address key
        rw [rest.storage, step.storage]
      · intro address
        rw [rest.balances, step.balances]
      · intro address
        rw [rest.codes, step.codes]
      · intro address other
        rw [rest.nonces, step.nonces address other]
      · rw [rest.nonces]
        exact step.creator
    · exact .inr deployed

/-- Two hosts whose worlds correspond stay so, and name their snapshots alike, along every
sequence of writes, snapshots, reverts and commits. -/
def SnapshotsAgree : Prop :=
  ∀ (Same : MemWorld → StateTree → Prop) (mem : MemHost) (host : Eth.StateHost) ops others,
    Journal.Agree Same (journal mem) (journal host) →
    List.Forall₂ (Journaling.Op.Alike Same) ops others →
    Journaling.Level Same MemHost.journaling Eth.StateHost.journaling
      (MemHost.journaling.run mem ops) (Eth.StateHost.journaling.run host others)

theorem snapshot_discipline :
    SnapshotDiscipline MemHost (· = ·) ∧
      SnapshotDiscipline Eth.StateHost
        (fun address other => Eth.u256ToAddr address = Eth.u256ToAddr other) ∧
      SnapshotsAgree := by
  refine ⟨?_, ?_, ?_⟩
  · exact discipline_of_world (fun _ _ same => MemHost.sameAccounts_of_world same)
      MemHost.bumpNonce_butNonce
  · exact discipline_of_world (fun _ _ same => Eth.StateHost.sameAccounts_of_state same)
      Eth.StateHost.bumpNonce_butNonce
  · intro Same mem host ops others agree alike
    exact Journaling.level_run MemHost.faithful Eth.StateHost.faithful agree alike

end Hosts

end Veilux
