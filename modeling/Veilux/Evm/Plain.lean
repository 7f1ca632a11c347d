/-
What the opcodes that stay inside a frame can do to it.

The handlers are sequences of a few primitive steps.  `Handles` collects what a pair
of relations on the states needs of these, and the handlers are in the relations by
one walk through their bodies.
-/

import Veilux.Evm.Frame
import Veilux.Lib.Effects

namespace Veilux

namespace Evm

open Effects

variable {H : Type}

/-- The primitive steps are in the relations, and so is every error but a revert. -/
structure Handles (through : Interpreter H → Interpreter H → Prop)
    (failed : Fault → Interpreter H → Interpreter H → Prop) : Prop
    extends Discipline through failed where
  fault : ∀ error, error ≠ .reverted → ∀ vm, failed (.vm error) vm vm
  charge : ∀ amount, Obeys through failed (charge amount)
  push : ∀ value, Obeys through failed (push value)
  pop : Obeys through failed pop
  swap : ∀ n, Obeys through failed (swap n)
  load : ∀ offset len, Obeys through failed (memLoad offset len)
  store : ∀ offset data, data ≠ [] → Obeys through failed (memStore offset data)
  buffer : ∀ data, Obeys through failed (setRetBuffer data)

namespace Handles

variable {through : Interpreter H → Interpreter H → Prop}
variable {failed : Fault → Interpreter H → Interpreter H → Prop}
variable (handles : Handles through failed)
include handles

theorem fail {α : Type} {error : VmError} (kind : error ≠ .reverted) :
    Obeys through failed (Evm.fail error : VmM H α) :=
  obeys_throw (handles.fault error kind)

theorem popUsize : Obeys through failed (Evm.popUsize : VmM H Nat) :=
  obeys_bind handles.toDiscipline handles.pop fun _ => obeys_pure handles.toDiscipline _

theorem unary (f : U256 → U256) : Obeys through failed (Evm.unary f : VmM H Unit) :=
  obeys_bind handles.toDiscipline handles.pop fun _ => handles.push _

theorem bin (f : U256 → U256 → U256) : Obeys through failed (Evm.bin f : VmM H Unit) :=
  obeys_bind handles.toDiscipline handles.pop fun _ =>
    obeys_bind handles.toDiscipline handles.pop fun _ => handles.push _

theorem ternary (f : U256 → U256 → U256 → U256) :
    Obeys through failed (Evm.ternary f : VmM H Unit) :=
  obeys_bind handles.toDiscipline handles.pop fun _ =>
    obeys_bind handles.toDiscipline handles.pop fun _ =>
      obeys_bind handles.toDiscipline handles.pop fun _ => handles.push _

theorem pushRead (read : Interpreter H → U256) :
    Obeys through failed (Evm.pushRead read : VmM H Unit) :=
  obeys_get fun vm => (handles.push _).leads vm

theorem pushAccount (read : H → U256 → U256) :
    Obeys through failed (Evm.pushAccount read : VmM H Unit) :=
  obeys_bind handles.toDiscipline handles.pop fun _ => obeys_get fun vm => (handles.push _).leads vm

theorem calldataload : Obeys through failed (Evm.calldataload : VmM H Unit) :=
  obeys_bind handles.toDiscipline handles.popUsize fun _ => obeys_get fun vm => (handles.push _).leads vm

theorem mload : Obeys through failed (Evm.mload : VmM H Unit) :=
  obeys_bind handles.toDiscipline handles.popUsize fun _ =>
    obeys_bind handles.toDiscipline (handles.load _ _) fun _ => handles.push _

theorem mstore : Obeys through failed (Evm.mstore : VmM H Unit) := by
  refine obeys_bind handles.toDiscipline handles.popUsize fun off => ?_
  refine obeys_bind handles.toDiscipline handles.pop fun value => ?_
  refine handles.store off _ ?_
  intro empty
  have length := congrArg List.length empty
  simp at length

theorem mstore8 : Obeys through failed (Evm.mstore8 : VmM H Unit) :=
  obeys_bind handles.toDiscipline handles.popUsize fun off =>
    obeys_bind handles.toDiscipline handles.pop fun _ =>
      handles.store off _ (List.cons_ne_nil _ _)

theorem dup (n : Nat) : Obeys through failed (Evm.dup n : VmM H Unit) := by
  refine obeys_get fun vm => ?_
  by_cases short : vm.stack.length ≤ n
  · rw [if_pos short]
    exact (handles.fail (by decide)).leads vm
  · rw [if_neg short]
    have found : vm.stack[n]? = some (vm.stack.get ⟨n, by omega⟩) :=
      List.getElem?_eq_getElem (by omega)
    have picked : (indexed vm.stack n : VmM H U256) = pure (vm.stack.get ⟨n, by omega⟩) := by
      unfold indexed
      rw [found]
    rw [picked, pure_bind]
    exact (handles.push _).leads vm

theorem refuse : Obeys through failed (Evm.refuse : VmM H Unit) :=
  obeys_bind handles.toDiscipline (handles.buffer []) fun _ => handles.push _

theorem popTopics (count : Nat) : Obeys through failed (Evm.popTopics count : VmM H (List U256)) := by
  induction count with
  | zero => exact obeys_pure handles.toDiscipline []
  | succ count ih =>
      exact obeys_bind handles.toDiscipline handles.pop fun _ =>
        obeys_bind handles.toDiscipline ih fun _ => obeys_pure handles.toDiscipline _

theorem storeOutput (args : CallArgs) (output : List UInt8) :
    Obeys through failed (Evm.storeOutput args output : VmM H Unit) := by
  unfold Evm.storeOutput
  by_cases some : 0 < min args.retLen output.length
  · simp only [if_pos some]
    refine handles.store _ _ ?_
    intro empty
    have length := congrArg List.length empty
    rw [List.length_take, List.length_nil] at length
    omega
  · simp only [if_neg some]
    exact obeys_pure handles.toDiscipline ()

theorem popValue (kind : CallKind) : Obeys through failed (Evm.popValue kind : VmM H U256) :=
  obeys_ite handles.pop (obeys_pure handles.toDiscipline _)

theorem callArgs (kind : CallKind) : Obeys through failed (Evm.callArgs kind : VmM H CallArgs) := by
  refine obeys_bind handles.toDiscipline (handles.charge _) fun _ => ?_
  refine obeys_bind handles.toDiscipline handles.pop fun gas => ?_
  refine obeys_bind handles.toDiscipline handles.pop fun target => ?_
  refine obeys_bind handles.toDiscipline (handles.popValue kind) fun value => ?_
  refine obeys_bind handles.toDiscipline handles.popUsize fun argsOff => ?_
  refine obeys_bind handles.toDiscipline handles.popUsize fun argsLen => ?_
  refine obeys_bind handles.toDiscipline handles.popUsize fun retOff => ?_
  refine obeys_bind handles.toDiscipline handles.popUsize fun retLen => ?_
  refine obeys_get fun vm => ?_
  exact (obeys_ite (handles.fail (by decide))
    (obeys_bind handles.toDiscipline (handles.load _ _) fun _ =>
      obeys_pure handles.toDiscipline _)).leads vm

theorem popSalt (salted : Bool) :
    Obeys through failed (Evm.popSalt salted : VmM H (Option U256)) :=
  obeys_ite
    (obeys_bind handles.toDiscipline handles.pop fun _ => obeys_pure handles.toDiscipline _)
    (obeys_pure handles.toDiscipline _)

theorem createArgs (salted : Bool) :
    Obeys through failed (Evm.createArgs salted : VmM H CreateArgs) := by
  refine obeys_get fun vm => ?_
  refine (obeys_ite (handles.fail (by decide)) ?_).leads vm
  refine obeys_bind handles.toDiscipline (handles.charge _) fun _ => ?_
  refine obeys_bind handles.toDiscipline handles.pop fun value => ?_
  refine obeys_bind handles.toDiscipline handles.popUsize fun off => ?_
  refine obeys_bind handles.toDiscipline handles.popUsize fun len => ?_
  refine obeys_bind handles.toDiscipline (handles.popSalt salted) fun salt => ?_
  exact obeys_bind handles.toDiscipline (handles.load _ _) fun _ =>
    obeys_pure handles.toDiscipline _

section Reading

variable [Host H] [Keccak256]

omit [Host H] in
theorem keccak : Obeys through failed (Evm.keccak : VmM H Unit) :=
  obeys_bind handles.toDiscipline handles.pop fun _ =>
    obeys_bind handles.toDiscipline handles.pop fun _ =>
      obeys_bind handles.toDiscipline (handles.load _ _) fun _ =>
        obeys_bind handles.toDiscipline (handles.charge _) fun _ => handles.push _

end Reading

end Handles

/-- The opcodes that copy bytes into memory. -/
def Plain.Copies : Plain → Prop
  | .calldatacopy | .codecopy | .extcodecopy | .returndatacopy => True
  | _ => False

instance : DecidablePred Plain.Copies := by
  intro op
  cases op <;> unfold Plain.Copies <;> infer_instance

section Walk

variable [Host H] [Keccak256]
variable {through : Interpreter H → Interpreter H → Prop}
variable {failed : Fault → Interpreter H → Interpreter H → Prop}

/-- The copying opcodes are the only ones whose bytes may be none. -/
theorem Handles.plain (handles : Handles through failed) (op : Plain)
    (copies : op.Copies → Obeys through failed (Evm.plain op : VmM H Unit)) :
    Obeys through failed (Evm.plain op : VmM H Unit) := by
  cases op with
  | calldatacopy | codecopy | extcodecopy | returndatacopy => exact copies trivial
  | add | mul | sub | div | sdiv | mod | smod | exp | signextend | lt | gt | slt | sgt | eq
  | and | or | xor | byte | shl | shr | sar => exact handles.bin _
  | addmod | mulmod => exact handles.ternary _
  | iszero | not => exact handles.unary _
  | keccak => exact handles.keccak
  | balance => exact handles.pushAccount Host.balance
  | extcodesize =>
      exact handles.pushAccount fun host a => .fromU64 (.ofNat (Host.code host a).length)
  | extcodehash => exact handles.pushAccount extcodehash
  | address | origin | caller | callvalue | calldatasize | codesize | returndatasize
  | number | timestamp | chainid | selfbalance | pc | msize | gas => exact handles.pushRead _
  | calldataload => exact handles.calldataload
  | gasprice => exact handles.push _
  | pop => exact obeys_bind handles.toDiscipline handles.pop fun _ =>
      obeys_pure handles.toDiscipline ()
  | mload => exact handles.mload
  | mstore => exact handles.mstore
  | mstore8 => exact handles.mstore8
  | sload => exact obeys_bind handles.toDiscipline handles.pop fun _ =>
      obeys_get fun vm => (handles.push _).leads vm
  | jumpdest => exact obeys_pure handles.toDiscipline ()
  | dup n => exact handles.dup n
  | swap n => exact handles.swap n

end Walk

/-! ### What stays as it was -/

/-- An instruction that stays inside its frame: what it leaves, and the bounds it keeps. -/
structure Local (before after : Interpreter H) : Prop where
  code : after.code = before.code
  ctx : after.ctx = before.ctx
  host : after.host = before.host
  gasLimit : after.gasLimit = before.gasLimit
  depth : after.depth = before.depth
  isStatic : after.isStatic = before.isStatic
  logs : after.logs = before.logs
  gas : before.gas.toNat ≤ after.gas.toNat
  stack : before.stack.length ≤ maxStack → after.stack.length ≤ maxStack
  memory : before.memory.length ≤ maxMemory → after.memory.length ≤ maxMemory

theorem Local.refl (vm : Interpreter H) : Local vm vm :=
  ⟨rfl, rfl, rfl, rfl, rfl, rfl, rfl, le_refl _, id, id⟩

theorem Local.trans {first second third : Interpreter H} (former : Local first second)
    (latter : Local second third) : Local first third where
  code := latter.code.trans former.code
  ctx := latter.ctx.trans former.ctx
  host := latter.host.trans former.host
  gasLimit := latter.gasLimit.trans former.gasLimit
  depth := latter.depth.trans former.depth
  isStatic := latter.isStatic.trans former.isStatic
  logs := latter.logs.trans former.logs
  gas := le_trans former.gas latter.gas
  stack := latter.stack ∘ former.stack
  memory := latter.memory ∘ former.memory

structure Passes (before after : Interpreter H) : Prop extends Local before after where
  budget : before.gas.toNat ≤ before.gasLimit.toNat → after.gas.toNat ≤ after.gasLimit.toNat

theorem Passes.refl (vm : Interpreter H) : Passes vm vm := ⟨Local.refl vm, id⟩

structure Breaks (fault : Fault) (before after : Interpreter H) : Prop
    extends Local before after where
  cause : fault ≠ .vm .reverted
  fuelled : fault ≠ .fuel

theorem passing : Discipline (Passes (H := H)) Breaks where
  refl := Passes.refl
  trans former latter :=
    ⟨former.toLocal.trans latter.toLocal, latter.budget ∘ former.budget⟩
  fails former latter :=
    ⟨former.toLocal.trans latter.toLocal, latter.cause, latter.fuelled⟩

theorem breaks_vm {error : VmError} (kind : error ≠ .reverted) (vm : Interpreter H) :
    Breaks (.vm error) vm vm :=
  ⟨Local.refl vm, fun same => kind (Fault.vm.inj same), nofun⟩

theorem toNat_saturatingAdd (left right : UInt64) :
    (saturatingAdd left right).toNat = min (left.toNat + right.toNat) (2 ^ 64 - 1) := by
  unfold saturatingAdd
  rw [UInt64.toNat_ofNat']
  omega

theorem le_saturatingAdd (left right : UInt64) :
    left.toNat ≤ (saturatingAdd left right).toNat := by
  rw [toNat_saturatingAdd]
  have bound := left.toNat_lt
  omega

theorem charge_run (amount : UInt64) (vm : Interpreter H) :
    (charge amount).run.run vm =
      (if vm.gasLimit < saturatingAdd vm.gas amount then .error (.vm .outOfGas) else .ok (),
        { vm with gas := saturatingAdd vm.gas amount }) := by
  change (if vm.gasLimit < saturatingAdd vm.gas amount then fail .outOfGas
    else pure () : VmM H Unit).run.run { vm with gas := saturatingAdd vm.gas amount } = _
  split
  · rfl
  · rfl

theorem charge_fault {amount : UInt64} {vm after : Interpreter H} {fault : Fault}
    (ran : (charge amount).run.run vm = (.error fault, after)) : fault = .vm .outOfGas := by
  rw [charge_run] at ran
  have outcome := (Prod.mk.inj ran).1
  split at outcome
  · exact (Except.error.inj outcome).symm
  · cases outcome

theorem push_run (value : U256) (vm : Interpreter H) :
    (push value).run.run vm =
      if maxStack ≤ vm.stack.length then (.error (.vm .stackOverflow), vm)
      else (.ok (), { vm with stack := value :: vm.stack }) := by
  change (if maxStack ≤ vm.stack.length then fail .stackOverflow
    else set { vm with stack := value :: vm.stack } : VmM H Unit).run.run vm = _
  split
  · rfl
  · rfl

theorem pop_run (vm : Interpreter H) :
    (pop : VmM H U256).run.run vm =
      match vm.stack with
      | [] => (.error (.vm .stackUnderflow), vm)
      | value :: rest => (.ok value, { vm with stack := rest }) := by
  change (match vm.stack with
    | [] => fail .stackUnderflow
    | value :: rest => do
        set { vm with stack := rest }
        pure value : VmM H U256).run.run vm = _
  split
  · rfl
  · rfl

theorem charge_passes (amount : UInt64) : Obeys Passes Breaks (charge amount : VmM H Unit) := by
  constructor
  intro vm
  unfold Spec
  rw [charge_run]
  have moved : Local vm { vm with gas := saturatingAdd vm.gas amount } :=
    { Local.refl vm with gas := le_saturatingAdd _ _ }
  split
  · exact ⟨moved, nofun, nofun⟩
  · rename_i within
    rw [UInt64.lt_iff_toNat_lt] at within
    exact ⟨moved, fun _ => by simpa using within⟩

theorem push_passes (value : U256) : Obeys Passes Breaks (push value : VmM H Unit) := by
  constructor
  intro vm
  unfold Spec
  rw [push_run]
  split
  · exact breaks_vm (by decide) vm
  · rename_i room
    have kept : Local vm { vm with stack := value :: vm.stack } :=
      { Local.refl vm with stack := fun _ => by rw [List.length_cons]; omega }
    exact ⟨kept, id⟩

theorem pop_passes : Obeys Passes Breaks (pop : VmM H U256) := by
  constructor
  intro vm
  unfold Spec
  rw [pop_run]
  cases items : vm.stack with
  | nil => exact breaks_vm (by decide) vm
  | cons value rest =>
      have kept : Local vm { vm with stack := rest } :=
        { Local.refl vm with
          stack := fun bound => by
            rw [items, List.length_cons] at bound
            change rest.length ≤ maxStack
            omega }
      exact ⟨kept, id⟩

theorem setRetBuffer_passes (data : List UInt8) :
    Obeys Passes Breaks (setRetBuffer data : VmM H Unit) :=
  obeys_modify fun vm => ⟨{ Local.refl vm with }, id⟩

/-- What memory is once a range was asked for. -/
def Covers (stop : Nat) (result : Except Fault Unit) (after : Interpreter H) : Prop :=
  match result with
  | .ok _ => stop ≤ after.memory.length
  | .error fault => fault ≠ .panic

theorem grow_spec {stop : Nat} (bound : stop ≤ maxMemory) (vm : Interpreter H) :
    Spec (grow stop) vm fun result after =>
      Leads Passes Breaks vm result after ∧ Covers stop result after := by
  refine Spec.get ?_
  by_cases short : vm.memory.length < stop
  · rw [if_pos short]
    have charged (amount : UInt64) : Spec (charge amount) vm fun result after =>
        Leads Passes Breaks vm result after ∧ (∀ fault, result = .error fault → fault ≠ .panic) := by
      refine ⟨(charge_passes _).leads vm, ?_⟩
      intro fault ended
      have ran : (charge amount).run.run vm = (.error fault, ((charge amount).run.run vm).2) :=
        Prod.ext ended rfl
      rw [charge_fault ran]
      nofun
    refine (charged _).bind ?_ ?_
    · intro _ after led
      have passed : Passes vm after := led.1
      refine Spec.modify ⟨?_, ?_⟩
      · refine passing.trans passed ⟨{ Local.refl after with memory := ?_ }, id⟩
        intro fits
        simp only [List.length_append, List.length_replicate]
        unfold maxMemory at bound fits ⊢
        omega
      · change stop ≤ (after.memory ++ List.replicate ((stop + 31) / 32 * 32 -
          after.memory.length) 0).length
        rw [List.length_append, List.length_replicate]
        omega
    · intro fault after led
      exact ⟨led.1, led.2 fault rfl⟩
  · rw [if_neg short]
    exact Spec.pure ⟨Passes.refl vm, not_lt.mp short⟩

theorem ensureMem_spec (offset len : Nat) (vm : Interpreter H) :
    Spec (ensureMem offset len) vm fun result after =>
      Leads Passes Breaks vm result after ∧ (len ≠ 0 → Covers (offset + len) result after) := by
  unfold ensureMem
  by_cases none : len = 0
  · rw [if_pos none]
    exact ⟨Passes.refl vm, fun some => absurd none some⟩
  · rw [if_neg none]
    by_cases far : 2 ^ 64 ≤ offset + len ∨ maxMemory < offset + len
    · rw [if_pos far]
      exact ⟨breaks_vm (by decide) vm, fun _ => nofun⟩
    · rw [if_neg far]
      exact (grow_spec (by omega) vm).mono fun result after led => ⟨led.1, fun _ => led.2⟩

theorem memLoad_spec (offset len : Nat) (vm : Interpreter H) :
    Spec (memLoad offset len) vm fun result after =>
      Leads Passes Breaks vm result after ∧ result ≠ .error .panic := by
  unfold memLoad
  by_cases none : len = 0
  · rw [if_pos none]
    exact ⟨Passes.refl vm, nofun⟩
  · rw [if_neg none]
    refine (ensureMem_spec offset len vm).bind ?_ ?_
    · intro _ after led
      have covered : offset + len ≤ after.memory.length := led.2 none
      refine Spec.get ?_
      unfold sliced
      rw [if_pos ⟨by omega, covered⟩]
      exact Spec.pure ⟨led.1, nofun⟩
    · intro fault after led
      exact ⟨led.1, fun same => led.2 none (Except.error.inj same)⟩

/-- Behind the end of the memory a store of nothing panics. -/
theorem memStore_spec (offset : Nat) (data : List UInt8) (vm : Interpreter H) :
    Spec (memStore offset data) vm fun result after =>
      Leads Passes Breaks vm result after ∧
        (result = .error .panic ↔ data = [] ∧ vm.memory.length < offset) := by
  have placed (after : Interpreter H) (covered : offset + data.length ≤ after.memory.length) :
      Passes after { after with
        memory := after.memory.take offset ++ data ++ after.memory.drop (offset + data.length) } := by
    refine ⟨{ Local.refl after with memory := ?_ }, id⟩
    intro fits
    simp only [List.length_append, List.length_take, List.length_drop]
    omega
  unfold memStore
  by_cases none : data = []
  · subst none
    have skipped : (ensureMem offset 0 : VmM H Unit) = pure () := if_pos rfl
    rw [List.length_nil, skipped, pure_bind]
    refine Spec.get ?_
    by_cases far : vm.memory.length < offset
    · rw [if_pos (by simpa using far)]
      exact ⟨⟨Local.refl vm, nofun, nofun⟩, fun _ => ⟨rfl, far⟩, fun _ => rfl⟩
    · rw [if_neg (by simpa using far)]
      exact ⟨placed vm (by simpa using far), nofun, fun both => absurd both.2 far⟩
  · have some : data.length ≠ 0 := fun zero => none (List.eq_nil_of_length_eq_zero zero)
    refine (ensureMem_spec offset data.length vm).bind ?_ ?_
    · intro _ after led
      have covered : offset + data.length ≤ after.memory.length := led.2 some
      refine Spec.get ?_
      rw [if_neg (not_lt.mpr covered)]
      exact ⟨passing.trans led.1 (placed after covered), nofun, fun both => absurd both.1 none⟩
    · intro fault after led
      exact ⟨led.1, fun same => absurd (Except.error.inj same) (led.2 some),
        fun both => absurd both.1 none⟩

theorem swap_passes (n : Nat) : Obeys Passes Breaks (swap n : VmM H Unit) := by
  refine obeys_get fun vm => ?_
  by_cases short : vm.stack.length ≤ n
  · rw [if_pos short]
    exact breaks_vm (by decide) vm
  · rw [if_neg short]
    have picked (index : Nat) (inside : index < vm.stack.length) :
        (indexed vm.stack index : VmM H U256) = pure (vm.stack.get ⟨index, inside⟩) := by
      unfold indexed
      rw [List.getElem?_eq_getElem inside]
      rfl
    rw [picked 0 (by omega), pure_bind, picked n (by omega), pure_bind]
    refine Spec.set ⟨{ Local.refl vm with stack := ?_ }, id⟩
    intro bound
    simpa only [List.length_set] using bound

/-- The opcodes that stay inside their frame do. -/
theorem handling : Handles (Passes (H := H)) Breaks where
  toDiscipline := passing
  fault _ kind vm := breaks_vm kind vm
  charge := charge_passes
  push := push_passes
  pop := pop_passes
  swap := swap_passes
  load offset len := ⟨fun vm => (memLoad_spec offset len vm).mono fun _ _ led => led.1⟩
  store offset data _ := ⟨fun vm => (memStore_spec offset data vm).mono fun _ _ led => led.1⟩
  buffer := setRetBuffer_passes

theorem copy_passes (source : Interpreter H → List UInt8) :
    Obeys Passes Breaks (copy source : VmM H Unit) := by
  refine obeys_bind passing handling.popUsize fun dest => ?_
  refine obeys_bind passing handling.popUsize fun off => ?_
  refine obeys_bind passing handling.popUsize fun len => ?_
  refine obeys_bind passing ?_ fun _ => ?_
  · exact obeys_ite (obeys_throw fun vm => ⟨Local.refl vm, nofun, nofun⟩) (obeys_pure passing ())
  · exact obeys_get fun vm => (memStore_spec _ _ vm).mono fun _ _ led => led.1

theorem plain_passes [Host H] [Keccak256] (op : Plain) :
    Obeys Passes Breaks (plain op : VmM H Unit) := by
  refine handling.plain op fun copies => ?_
  cases op with
  | calldatacopy | codecopy | returndatacopy => exact copy_passes _
  | extcodecopy => exact obeys_bind passing pop_passes fun _ => copy_passes _
  | _ => exact copies.elim

end Evm

end Veilux
