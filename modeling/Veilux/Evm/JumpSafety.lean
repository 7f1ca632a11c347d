/-
Jumps of `evm/src/vm.rs`.  The scan marks the starts of the `JUMPDEST`s, and the
program counter of a frame only ever stands where an instruction starts, or at or
behind the end of the code.
-/

import Veilux.Lib.Decoding
import Veilux.Evm.Metering
import Veilux.Evm.MemHost

namespace Veilux

namespace Evm

open Effects
open Decoding (Start Operand marks)

/-- How many bytes behind an opcode belong to it. -/
def immediate (op : UInt8) : Nat := if 0x60 ≤ op ∧ op ≤ 0x7f then op.toNat - 0x60 + 1 else 0

theorem jumpdestsFrom_eq_marks (skip : Nat) (code : List UInt8) :
    jumpdestsFrom skip code = marks immediate (fun op => decide (op = 0x5b)) skip code := by
  induction code generalizing skip with
  | nil => rw [jumpdestsFrom, marks]
  | cons op rest ih =>
      cases skip with
      | zero => rw [jumpdestsFrom, marks, ih, immediate]
      | succ skip => rw [jumpdestsFrom, marks, ih]

/-- The scan marks the starts of the `JUMPDEST` instructions. -/
theorem analyzeJumpdests_iff (code : List UInt8) (position : Nat) :
    (analyzeJumpdests code)[position]? = some true ↔
      code[position]? = some 0x5b ∧ Start immediate code position := by
  rw [analyzeJumpdests, jumpdestsFrom_eq_marks, Decoding.marks_iff]
  refine and_congr_left fun _ => ?_
  constructor
  · rintro ⟨op, reads, wanted⟩
    rw [reads, of_decide_eq_true wanted]
  · intro reads
    exact ⟨0x5b, reads, rfl⟩

/-! ### What leaves the program counter alone -/

variable {H : Type}

structure Placed (before after : Interpreter H) : Prop where
  code : after.code = before.code
  pc : after.pc = before.pc

theorem Placed.refl (vm : Interpreter H) : Placed vm vm := ⟨rfl, rfl⟩

theorem Placed.trans {first second third : Interpreter H} (former : Placed first second)
    (latter : Placed second third) : Placed first third :=
  ⟨latter.code.trans former.code, latter.pc.trans former.pc⟩

abbrev Places {α : Type} (action : VmM H α) : Prop := Obeys Placed (fun _ => Placed) action

theorem placing : Discipline (Placed (H := H)) fun (_ : Fault) => Placed where
  refl := Placed.refl
  trans := Placed.trans
  fails := Placed.trans

theorem fail_places {α : Type} (error : VmError) : Places (fail error : VmM H α) :=
  obeys_throw fun vm => Placed.refl vm

theorem panic_places {α : Type} : Places (throw .panic : VmM H α) :=
  obeys_throw fun vm => Placed.refl vm

theorem charge_places (amount : UInt64) : Places (charge amount : VmM H Unit) := by
  constructor
  intro vm
  unfold Spec
  rw [charge_run]
  split
  · exact ⟨rfl, rfl⟩
  · exact ⟨rfl, rfl⟩

theorem push_places (value : U256) : Places (push value : VmM H Unit) := by
  constructor
  intro vm
  unfold Spec
  rw [push_run]
  split
  · exact Placed.refl vm
  · exact ⟨rfl, rfl⟩

theorem pop_places : Places (pop : VmM H U256) := by
  constructor
  intro vm
  unfold Spec
  rw [pop_run]
  cases vm.stack with
  | nil => exact Placed.refl vm
  | cons value rest => exact ⟨rfl, rfl⟩

theorem indexed_places {α : Type} (list : List α) (index : Nat) :
    Places (indexed list index : VmM H α) := by
  unfold indexed
  split
  · exact obeys_pure placing _
  · exact panic_places

theorem sliced_places (bytes : List UInt8) (start stop : Nat) :
    Places (sliced bytes start stop : VmM H (List UInt8)) :=
  obeys_ite (obeys_pure placing _) panic_places

theorem swap_places (n : Nat) : Places (swap n : VmM H Unit) := by
  refine obeys_get fun vm => ?_
  by_cases short : vm.stack.length ≤ n
  · rw [if_pos short]
    exact Placed.refl vm
  · rw [if_neg short]
    have picked (index : Nat) (inside : index < vm.stack.length) :
        (indexed vm.stack index : VmM H U256) = pure (vm.stack.get ⟨index, inside⟩) := by
      unfold indexed
      rw [List.getElem?_eq_getElem inside]
      rfl
    rw [picked 0 (by omega), pure_bind, picked n (by omega), pure_bind]
    exact Spec.set ⟨rfl, rfl⟩

theorem grow_places (length : Nat) : Places (grow length : VmM H Unit) := by
  refine obeys_get fun vm => ?_
  refine (obeys_ite ?_ (obeys_pure placing ())).leads vm
  exact obeys_bind placing (charge_places _) fun _ => obeys_modify fun vm => ⟨rfl, rfl⟩

theorem ensureMem_places (offset len : Nat) : Places (ensureMem offset len : VmM H Unit) :=
  obeys_ite (obeys_pure placing ()) (obeys_ite (fail_places _) (grow_places _))

theorem memStore_places (offset : Nat) (data : List UInt8) :
    Places (memStore offset data : VmM H Unit) := by
  refine obeys_bind placing (ensureMem_places _ _) fun _ => obeys_get fun vm => ?_
  split
  · exact Placed.refl vm
  · exact Spec.set ⟨rfl, rfl⟩

theorem memLoad_places (offset len : Nat) : Places (memLoad offset len : VmM H (List UInt8)) :=
  obeys_ite (obeys_pure placing [])
    (obeys_bind placing (ensureMem_places _ _) fun _ => obeys_get fun vm =>
      (sliced_places _ _ _).leads vm)

theorem setRetBuffer_places (data : List UInt8) : Places (setRetBuffer data : VmM H Unit) :=
  obeys_modify fun _ => ⟨rfl, rfl⟩

theorem handling_places : Handles (Placed (H := H)) fun _ => Placed where
  toDiscipline := placing
  fault _ _ vm := Placed.refl vm
  charge := charge_places
  push := push_places
  pop := pop_places
  swap := swap_places
  load := memLoad_places
  store offset data _ := memStore_places offset data
  buffer := setRetBuffer_places

theorem copy_places (source : Interpreter H → List UInt8) :
    Places (copy source : VmM H Unit) := by
  refine obeys_bind placing handling_places.popUsize fun dest => ?_
  refine obeys_bind placing handling_places.popUsize fun off => ?_
  refine obeys_bind placing handling_places.popUsize fun len => ?_
  refine obeys_bind placing (obeys_ite panic_places (obeys_pure placing ())) fun _ => ?_
  exact obeys_get fun vm => (memStore_places _ _).leads vm

theorem returnWith_places : Places (returnWith : VmM H Unit) := by
  refine obeys_bind placing handling_places.popUsize fun off => ?_
  refine obeys_bind placing handling_places.popUsize fun len => ?_
  exact obeys_bind placing (memLoad_places off len) fun data => obeys_modify fun _ => ⟨rfl, rfl⟩

theorem logOp_places (topics : Nat) : Places (logOp topics : VmM H Unit) := by
  refine obeys_get fun vm => (obeys_ite (fail_places _) ?_).leads vm
  refine obeys_bind placing handling_places.popUsize fun off => ?_
  refine obeys_bind placing handling_places.popUsize fun len => ?_
  refine obeys_bind placing (handling_places.popTopics topics) fun popped => ?_
  refine obeys_bind placing (memLoad_places off len) fun data => ?_
  exact obeys_bind placing (charge_places _) fun _ => obeys_modify fun _ => ⟨rfl, rfl⟩

theorem invoke_places (sub : Executor H) (frame : Frame H) :
    Places (invoke sub frame : VmM H ExecOutcome) := by
  refine obeys_bind placing (obeys_modify fun _ => ⟨rfl, rfl⟩) fun _ => ?_
  split
  · exact obeys_pure placing _
  · exact obeys_throw fun vm => Placed.refl vm

section Hosted

variable [Host H]

omit [Host H] in
theorem onHost_places (change : H → H) : Places (onHost change : VmM H Unit) :=
  obeys_modify fun _ => ⟨rfl, rfl⟩

theorem takeSnapshot_places : Places (takeSnapshot : VmM H Nat) :=
  obeys_get fun _ => ⟨rfl, rfl⟩

theorem plain_places [Keccak256] (op : Plain) : Places (plain op : VmM H Unit) := by
  refine handling_places.plain op fun copies => ?_
  cases op with
  | calldatacopy | codecopy | returndatacopy => exact copy_places _
  | extcodecopy => exact obeys_bind placing pop_places fun _ => copy_places _
  | _ => exact copies.elim

theorem sstore_places : Places (sstore : VmM H Unit) := by
  refine obeys_get fun vm => (obeys_ite (fail_places _) ?_).leads vm
  refine obeys_bind placing (charge_places _) fun _ => ?_
  refine obeys_bind placing pop_places fun key => ?_
  exact obeys_bind placing pop_places fun value => onHost_places _

theorem selfdestruct_places : Places (selfdestruct : VmM H Unit) := by
  refine obeys_get fun vm => (obeys_ite (fail_places _) ?_).leads vm
  refine obeys_bind placing pop_places fun beneficiary => ?_
  exact obeys_ite (obeys_pure placing ()) (onHost_places _)

/-! ### Calls and creations -/

theorem payCall_places (kind : CallKind) (args : CallArgs) :
    Places (payCall kind args : VmM H Bool) := by
  refine obeys_get fun vm => (obeys_ite ?_ (obeys_pure placing true)).leads vm
  exact obeys_ite (obeys_pure placing false)
    (obeys_bind placing (onHost_places _) fun _ => obeys_pure placing true)

theorem settle_places (snapshot : Nat) (outcome : ExecOutcome) :
    Places (settle snapshot outcome : VmM H Unit) :=
  obeys_ite
    (obeys_bind placing (onHost_places _) fun _ => obeys_modify fun _ => ⟨rfl, rfl⟩)
    (onHost_places _)

theorem leaveCall_places (args : CallArgs) (snapshot : Nat) (outcome : ExecOutcome) :
    Places (leaveCall args snapshot outcome : VmM H Unit) := by
  refine obeys_bind placing (charge_places _) fun _ => ?_
  refine obeys_bind placing (settle_places snapshot outcome) fun _ => ?_
  refine obeys_bind placing (setRetBuffer_places _) fun _ => ?_
  exact obeys_bind placing (handling_places.storeOutput args _) fun _ => push_places _

omit [Host H] in
theorem refused_places {α : Type} (first : VmM H Unit) (places : Places first) (value : α) :
    Places (do
      first
      refuse
      pure value : VmM H α) :=
  obeys_bind placing places fun _ =>
    obeys_bind placing handling_places.refuse fun _ => obeys_pure placing value

section Machine

variable [Keccak256] [Secp256k1] [Sha256] [Ripemd160] [Bn254]

theorem callPrecompile_places (args : CallArgs) (snapshot : Nat) :
    Places (callPrecompile args snapshot : VmM H Unit) := by
  refine obeys_bind placing (charge_places _) fun _ => ?_
  split
  · refine obeys_bind placing (onHost_places _) fun _ => ?_
    refine obeys_bind placing (setRetBuffer_places _) fun _ => ?_
    exact obeys_bind placing (handling_places.storeOutput args _) fun _ => push_places _
  · exact obeys_bind placing (onHost_places _) fun _ => handling_places.refuse

theorem enterCall_places (kind : CallKind) (args : CallArgs) :
    Places (enterCall kind args : VmM H (Option (Frame H × Nat))) := by
  refine obeys_get fun vm => (obeys_ite ?_ ?_).leads vm
  · exact obeys_bind placing handling_places.refuse fun _ => obeys_pure placing none
  · refine obeys_bind placing takeSnapshot_places fun snapshot => ?_
    refine obeys_bind placing (payCall_places kind args) fun paid => obeys_ite (obeys_ite ?_ ?_) ?_
    · exact obeys_bind placing (callPrecompile_places args snapshot) fun _ =>
        obeys_pure placing none
    · refine obeys_get fun vm => (obeys_ite ?_ (obeys_pure placing _)).leads vm
      refine obeys_bind placing (onHost_places _) fun _ => ?_
      refine obeys_bind placing (setRetBuffer_places []) fun _ => ?_
      exact obeys_bind placing (push_places _) fun _ => obeys_pure placing none
    · exact refused_places _ (onHost_places _) none

theorem doCall_places (sub : Executor H) (kind : CallKind) :
    Places (doCall sub kind : VmM H Unit) := by
  refine obeys_bind placing (handling_places.callArgs kind) fun args => ?_
  refine obeys_bind placing (enterCall_places kind args) fun entry => ?_
  cases entry with
  | none => exact obeys_pure placing ()
  | some entered =>
      exact obeys_bind placing (invoke_places sub entered.1) fun outcome =>
        leaveCall_places args entered.2 outcome

omit [Secp256k1] [Sha256] [Ripemd160] [Bn254] [Keccak256] in
theorem payCreate_places (args : CreateArgs) (address : U256) :
    Places (payCreate args address : VmM H Bool) := by
  refine obeys_get fun vm => (obeys_ite (obeys_pure placing true) ?_).leads vm
  exact obeys_ite (obeys_pure placing false)
    (obeys_bind placing (onHost_places _) fun _ => obeys_pure placing true)

omit [Secp256k1] [Sha256] [Ripemd160] [Bn254] in
theorem enterCreate_places (args : CreateArgs) :
    Places (enterCreate args : VmM H (Option (Frame H × Nat))) := by
  refine obeys_get fun vm => (obeys_ite ?_ ?_).leads vm
  · exact obeys_bind placing handling_places.refuse fun _ => obeys_pure placing none
  · refine obeys_bind placing (onHost_places _) fun _ => ?_
    refine obeys_bind placing takeSnapshot_places fun snapshot => ?_
    refine obeys_bind placing (payCreate_places args _) fun paid => obeys_ite ?_ ?_
    · exact obeys_get fun vm => (obeys_pure placing _).leads vm
    · exact refused_places _ (onHost_places _) none

omit [Secp256k1] [Sha256] [Ripemd160] [Bn254] [Keccak256] in
theorem leaveCreate_places (address : U256) (snapshot : Nat) (outcome : ExecOutcome) :
    Places (leaveCreate address snapshot outcome : VmM H Unit) := by
  refine obeys_bind placing (charge_places _) fun _ => obeys_ite ?_ ?_
  · refine obeys_bind placing (onHost_places _) fun _ => ?_
    refine obeys_bind placing (onHost_places _) fun _ => ?_
    refine obeys_bind placing (obeys_modify fun _ => ⟨rfl, rfl⟩) fun _ => ?_
    exact obeys_bind placing (setRetBuffer_places []) fun _ => push_places _
  · refine obeys_bind placing (onHost_places _) fun _ => ?_
    exact obeys_bind placing (setRetBuffer_places _) fun _ => push_places _

omit [Secp256k1] [Sha256] [Ripemd160] [Bn254] in
theorem doCreate_places (sub : Executor H) (salted : Bool) :
    Places (doCreate sub salted : VmM H Unit) := by
  refine obeys_bind placing (handling_places.createArgs salted) fun args => ?_
  refine obeys_bind placing (enterCreate_places args) fun entry => ?_
  cases entry with
  | none => exact obeys_pure placing ()
  | some entered =>
      exact obeys_bind placing (invoke_places sub entered.1) fun outcome =>
        leaveCreate_places _ entered.2 outcome

end Machine

end Hosted

/-! ### One instruction -/

/-- How many bytes of the code an instruction takes with it. -/
def Opcode.immediate : Opcode → Nat
  | .push n => n
  | _ => 0

theorem immediate_decode (op : UInt8) : immediate op = (decode op).immediate := by
  have table : ∀ byte : Fin 256, immediate (.ofFin byte) = (decode (.ofFin byte)).immediate := by
    decide +kernel
  exact table op.toFin

/-- Where the program counter stands behind an instruction: where it was, unless the
instruction has set it. -/
def Lands (op : Opcode) (vm : Interpreter H) (result : Except Fault Flow)
    (after : Interpreter H) : Prop :=
  after.code = vm.code ∧
    match result with
    | .ok .advance => after.pc = vm.pc ∧ op.immediate = 0
    | .ok .jumped => (analyzeJumpdests vm.code)[after.pc]? = some true ∨
        after.pc = vm.pc + 1 + op.immediate
    | _ => after.pc = vm.pc

theorem Placed.lands {op : Opcode} {vm after : Interpreter H} {result : Except Fault Flow}
    (placed : Placed vm after) (stays : result ≠ .ok .jumped) (short : op.immediate = 0) :
    Lands op vm result after := by
  refine ⟨placed.code, ?_⟩
  split
  · exact ⟨placed.pc, short⟩
  · exact absurd rfl stays
  · exact placed.pc

/-- An error leaves the program counter alone. -/
theorem Placed.stuck {op : Opcode} {vm after : Interpreter H} (placed : Placed vm after)
    (fault : Fault) : Lands op vm (.error fault) after :=
  ⟨placed.code, placed.pc⟩

/-- An action that leaves the program counter alone, with what the loop does next. -/
theorem lands_of_places {action : VmM H Unit} (places : Places action) {op : Opcode} (flow : Flow)
    (stays : flow ≠ .jumped) (short : op.immediate = 0) (vm : Interpreter H) :
    Spec (action >>= fun _ => pure flow) vm (Lands op vm) := by
  refine (places.leads vm).bind ?_ ?_
  · intro _ after placed
    exact Spec.pure (Placed.lands placed (fun same => stays (Except.ok.inj same)) short)
  · intro fault after placed
    exact Placed.stuck placed fault

/-- A jump ends on a mark or fails where it was. -/
theorem jumpTo_spec (dest : U256) (vm : Interpreter H) :
    Spec (jumpTo dest) vm fun result after =>
      after.code = vm.code ∧
        match result with
        | .ok _ => (analyzeJumpdests vm.code)[after.pc]? = some true
        | .error _ => after.pc = vm.pc := by
  refine Spec.get ?_
  by_cases outside : ¬ dest.bitsFitUsize ∨
      (analyzeJumpdests vm.code).length ≤ dest.lowUsize
  · rw [if_pos outside]
    exact ⟨rfl, rfl⟩
  · rw [if_neg outside]
    have inside : dest.lowUsize < (analyzeJumpdests vm.code).length := by
      by_contra beyond
      exact outside (.inr (not_lt.mp beyond))
    have reads := List.getElem?_eq_getElem inside
    unfold indexed
    rw [reads, pure_bind]
    cases marked : (analyzeJumpdests vm.code)[dest.lowUsize] with
    | true =>
        rw [if_pos rfl]
        refine Spec.set ⟨rfl, ?_⟩
        change (analyzeJumpdests vm.code)[dest.lowUsize]? = some true
        rw [reads, marked]
    | false =>
        rw [if_neg (by decide)]
        exact ⟨rfl, rfl⟩

theorem jump_lands {op : Opcode} (dest : U256) {vm mid : Interpreter H} (placed : Placed vm mid) :
    Spec (jumpTo dest >>= fun _ => pure Flow.jumped) mid (Lands op vm) := by
  refine (jumpTo_spec dest mid).bind ?_ ?_
  · intro _ after jumped
    refine Spec.pure ⟨jumped.1.trans placed.code, .inl ?_⟩
    have marked := jumped.2
    rwa [placed.code] at marked
  · intro fault after stuck
    exact ⟨stuck.1.trans placed.code, stuck.2.trans placed.pc⟩

theorem pushImmediate_lands (n : Nat) (vm : Interpreter H) :
    Spec (pushImmediate n >>= fun _ => pure Flow.jumped) vm (Lands (.push n) vm) := by
  have pushed : Spec (pushImmediate n) vm fun result after =>
      after.code = vm.code ∧
        match result with
        | .ok _ => after.pc = vm.pc + 1 + n
        | .error _ => after.pc = vm.pc := by
    refine Spec.get ?_
    refine ((sliced_places vm.code _ _).leads vm).bind ?_ ?_
    · intro slice mid first
      refine ((push_places _).leads mid).bind ?_ ?_
      · intro _ last second
        have placed : Placed vm last := Placed.trans first second
        exact Spec.modify ⟨placed.code, rfl⟩
      · intro fault last second
        have placed : Placed vm last := Placed.trans first second
        exact ⟨placed.code, placed.pc⟩
    · intro fault mid placed
      exact ⟨placed.code, placed.pc⟩
  refine pushed.bind ?_ ?_
  · intro _ after moved
    exact Spec.pure ⟨moved.1, .inr moved.2⟩
  · intro fault after stuck
    exact stuck

section Run

variable [Host H] [Keccak256] [Secp256k1] [Sha256] [Ripemd160] [Bn254]

theorem exec_lands (sub : Executor H) (op : Opcode) (vm : Interpreter H) :
    Spec (exec sub op) vm (Lands op vm) := by
  cases op with
  | plain op => exact lands_of_places (plain_places op) .advance (by decide) rfl vm
  | stop => exact (Placed.refl vm).lands nofun rfl
  | sstore => exact lands_of_places sstore_places .advance (by decide) rfl vm
  | jump =>
      refine (pop_places.leads vm).bind ?_ ?_
      · intro dest mid placed
        exact jump_lands dest placed
      · intro fault mid placed
        exact Placed.stuck placed fault
  | jumpi =>
      refine (pop_places.leads vm).bind ?_ ?_
      · intro dest mid first
        refine (pop_places.leads mid).bind ?_ ?_
        · intro cond last second
          have placed : Placed vm last := Placed.trans first second
          by_cases zero : cond.isZero = true
          · rw [if_pos zero]
            exact placed.lands nofun rfl
          · rw [if_neg zero]
            exact jump_lands dest placed
        · intro fault last second
          exact (Placed.trans first second).stuck fault
      · intro fault mid placed
        exact Placed.stuck placed fault
  | push n => exact pushImmediate_lands n vm
  | log topics => exact lands_of_places (logOp_places topics) .advance (by decide) rfl vm
  | create salted => exact lands_of_places (doCreate_places sub salted) .advance (by decide) rfl vm
  | call kind => exact lands_of_places (doCall_places sub kind) .advance (by decide) rfl vm
  | «return» => exact lands_of_places returnWith_places .halted (by decide) rfl vm
  | revert =>
      refine (returnWith_places.leads vm).bind ?_ ?_
      · intro _ after placed
        exact Placed.stuck placed _
      · intro fault after placed
        exact Placed.stuck placed fault
  | selfdestruct => exact lands_of_places selfdestruct_places .halted (by decide) rfl vm
  | invalid op => exact (Placed.refl vm).lands nofun rfl

/-! ### Runs -/

/-- The program counter stands where an instruction starts, or the code is over. -/
def OnStart (code : List UInt8) (vm : Interpreter H) : Prop :=
  vm.code = code ∧ (Start immediate code vm.pc ∨ code.length ≤ vm.pc)

omit [Host H] [Keccak256] [Secp256k1] [Sha256] [Ripemd160] [Bn254] in
theorem onStart_new (frame : Frame H) : OnStart frame.code (.new frame) :=
  ⟨rfl, .inl Decoding.start_zero⟩

/-- A turn of the loop goes from start to start. -/
theorem step_onStart (sub : Executor H) {code : List UInt8} {vm : Interpreter H}
    (here : OnStart code vm) :
    Spec (step sub) vm fun _ after => OnStart code after := by
  obtain ⟨rfl, place⟩ := here
  refine Spec.get ?_
  by_cases beyond : vm.code.length ≤ vm.pc
  · rw [if_pos beyond]
    exact ⟨rfl, place⟩
  · rw [if_neg beyond]
    have start : Start immediate vm.code vm.pc := place.resolve_right beyond
    have reads : vm.code[vm.pc]? = some (vm.code.get ⟨vm.pc, not_le.mp beyond⟩) :=
      List.getElem?_eq_getElem (not_le.mp beyond)
    generalize vm.code.get ⟨vm.pc, not_le.mp beyond⟩ = op at reads
    unfold indexed
    rw [reads, pure_bind]
    refine ((charge_places (baseGas op)).leads vm).bind ?_ ?_
    · intro _ mid paid
      have paid : Placed vm mid := paid
      have sameCode := paid.code
      have samePc := paid.pc
      refine (exec_lands sub (decode op) mid).bind ?_ ?_
      · intro flow after lands
        obtain ⟨codeKept, lands⟩ := lands
        have kept : after.code = vm.code := codeKept.trans sameCode
        cases flow with
        | advance =>
            obtain ⟨pcKept, short⟩ := lands
            refine Spec.after rfl (Spec.pure ⟨kept, .inl ?_⟩)
            have behind := start.next
            rw [Decoding.next_eq reads, immediate_decode, short] at behind
            change Start immediate vm.code (after.pc + 1)
            rw [pcKept, samePc]
            exact behind
        | jumped =>
            refine Spec.pure ⟨kept, .inl ?_⟩
            cases lands with
            | inl marked =>
                rw [sameCode] at marked
                exact ((analyzeJumpdests_iff _ _).mp marked).2
            | inr pushed =>
                have behind := start.next
                rw [Decoding.next_eq reads, immediate_decode, ← samePc, ← pushed] at behind
                exact behind
        | halted =>
            refine Spec.pure ⟨kept, .inl ?_⟩
            have pcKept : after.pc = mid.pc := lands
            rw [pcKept, samePc]
            exact start
      · intro fault after lands
        obtain ⟨codeKept, pcKept⟩ := lands
        have pcKept : after.pc = mid.pc := pcKept
        refine ⟨codeKept.trans sameCode, .inl ?_⟩
        rw [pcKept, samePc]
        exact start
    · intro fault mid paid
      have paid : Placed vm mid := paid
      refine ⟨paid.code, .inl ?_⟩
      rw [paid.pc]
      exact start

theorem steps_of_running {sub : Executor H} {vm : Interpreter H}
    (running : ((step sub).run.run vm).1 = .ok true) : Steps sub vm ((step sub).run.run vm).2 :=
  Prod.ext running rfl

theorem reaches_onStart {sub : Executor H} {frame : Frame H} {vm : Interpreter H}
    (reached : Reaches sub (.new frame) vm) : OnStart frame.code vm := by
  induction reached with
  | refl => exact onStart_new frame
  | tail _ turn ih => exact (step_onStart sub ih).ran turn

theorem execLoop_onStart (sub : Executor H) (fuel : Nat) {code : List UInt8} {vm : Interpreter H}
    (here : OnStart code vm) : Spec (execLoop sub fuel) vm fun _ last => OnStart code last := by
  induction fuel generalizing vm with
  | zero => exact Spec.throw here
  | succ fuel ih =>
      refine (step_onStart sub here).bind ?_ ?_
      · intro running after next
        cases running with
        | true => exact ih next
        | false => exact Spec.pure next
      · intro fault after next
        exact next

/-- The marks are the instruction starts that hold a `JUMPDEST`, and no byte that a push takes
with it is ever executed. -/
theorem jump_safety (sub : Executor H) (frame : Frame H) :
    (∀ position, (analyzeJumpdests frame.code)[position]? = some true ↔
      frame.code[position]? = some 0x5b ∧ Start immediate frame.code position) ∧
    (∀ vm, Reaches sub (.new frame) vm →
      OnStart frame.code vm ∧
        (vm.pc < frame.code.length → ¬ Operand immediate frame.code vm.pc)) ∧
    ∀ fuel, OnStart frame.code ((execLoop sub fuel).run.run (.new frame)).2 := by
  refine ⟨analyzeJumpdests_iff frame.code, ?_, ?_⟩
  · intro vm reached
    have here := reaches_onStart reached
    refine ⟨here, fun inside operand => ?_⟩
    exact Decoding.not_start_of_operand operand (here.2.resolve_right (not_le.mpr inside))
  · intro fuel
    exact execLoop_onStart sub fuel (onStart_new frame)

end Run

section Fixed

attribute [local instance] onesKeccak blankSha256 blankRipemd160 emptyCurve noRecovery

/-- A push of two bytes that look like jump destinations, and a stop. -/
def pushFrame : Frame MemHost :=
  { code := [0x61, 0x5b, 0x5b, 0x00]
    ctx := unlimitedContext
    host := default
    depth := 0
    isStatic := false }

def enterNothing : Executor MemHost := fun frame => (.error .fuel, frame.host)

def afterPush : Interpreter MemHost := ((step enterNothing).run.run (.new pushFrame)).2

theorem jump_safety_push :
    afterPush.pc = 3 ∧ OnStart pushFrame.code afterPush ∧
      ¬ Operand immediate pushFrame.code afterPush.pc := by
  have turned : ((step enterNothing).run.run (.new pushFrame)).1 = .ok true := by
    decide +kernel
  have reached : Reaches enterNothing (.new pushFrame) afterPush :=
    Relation.ReflTransGen.single (steps_of_running turned)
  have landed : afterPush.pc = 3 := by
    decide +kernel
  obtain ⟨here, data⟩ := (jump_safety enterNothing pushFrame).2.1 afterPush reached
  refine ⟨landed, here, data ?_⟩
  rw [landed]
  decide

end Fixed

end Evm

end Veilux
