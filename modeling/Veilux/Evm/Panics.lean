/-
Panics of the interpreter.  The only instructions that panic are the copying ones: with a
length that cannot be allocated, or with the length zero and a destination behind the memory.
An execution panics exactly when it comes to one of these, in any of its frames.
-/

import Veilux.Evm.FailedCalls

namespace Veilux

namespace Evm

open Effects

variable {H : Type}

/-! ### Instructions that do not panic -/

/-- The action does not panic. -/
abbrev Steady {α : Type} (action : VmM H α) : Prop :=
  Obeys (fun _ _ : Interpreter H => True) (fun fault _ _ => fault ≠ .panic) action

theorem indexed_inside {α : Type} {list : List α} {index : Nat} (inside : index < list.length) :
    (indexed list index : VmM H α) = pure (list.get ⟨index, inside⟩) := by
  unfold indexed
  rw [List.getElem?_eq_getElem inside]
  rfl

theorem steadiness : Handles (fun _ _ : Interpreter H => True) (fun fault _ _ => fault ≠ .panic)
    where
  refl _ := trivial
  trans _ _ := trivial
  fails _ calm := calm
  fault error _ _ := Fault.noConfusion
  charge amount := by
    refine ⟨fun vm => ?_⟩
    unfold Spec
    rw [charge_run]
    split
    · exact Fault.noConfusion
    · trivial
  push value := by
    refine ⟨fun vm => ?_⟩
    unfold Spec
    rw [push_run]
    split
    · exact Fault.noConfusion
    · trivial
  pop := by
    refine ⟨fun vm => ?_⟩
    unfold Spec
    rw [pop_run]
    split
    · exact Fault.noConfusion
    · trivial
  swap n := by
    refine obeys_get fun vm => ?_
    by_cases short : vm.stack.length ≤ n
    · rw [if_pos short]
      exact Fault.noConfusion
    · rw [if_neg short, indexed_inside (by omega), pure_bind, indexed_inside (by omega), pure_bind]
      exact Spec.set trivial
  load offset len := by
    refine ⟨fun vm => (memLoad_spec offset len vm).mono fun result after led => ?_⟩
    cases result with
    | ok data => trivial
    | error fault => exact fun panics => led.2 (congrArg _ panics)
  store offset data some := by
    refine ⟨fun vm => (memStore_spec offset data vm).mono fun result after led => ?_⟩
    cases result with
    | ok done => trivial
    | error fault => exact fun panics => some (led.2.mp (congrArg _ panics)).1
  buffer data := obeys_modify fun _ => trivial

theorem steady_charge (amount : UInt64) : Steady (charge amount : VmM H Unit) :=
  Handles.charge steadiness amount

theorem steady_push (value : U256) : Steady (push value : VmM H Unit) :=
  Handles.push steadiness value

theorem steady_pop : Steady (pop : VmM H U256) := Handles.pop steadiness

theorem steady_popUsize : Steady (popUsize : VmM H Nat) := Handles.popUsize steadiness

theorem steady_memLoad (offset len : Nat) : Steady (memLoad offset len : VmM H (List UInt8)) :=
  Handles.load steadiness offset len

theorem steady_refuse : Steady (refuse : VmM H Unit) := Handles.refuse steadiness

theorem steady_storeOutput (args : CallArgs) (output : List UInt8) :
    Steady (storeOutput args output : VmM H Unit) := Handles.storeOutput steadiness args output

/-- The result is no panic. -/
abbrev Calms {α : Type} (result : Except Fault α) (_ : Interpreter H) : Prop :=
  result ≠ .error .panic

theorem calms_of_steady {α : Type} {action : VmM H α} (steady : Steady action)
    (vm : Interpreter H) : Spec action vm Calms := by
  refine (steady.leads vm).mono fun result after led => ?_
  cases result with
  | ok value => exact fun panics => by cases panics
  | error fault => exact fun panics => led (Except.error.inj panics)

theorem steady_bind {α β : Type} {action : VmM H α} {next : α → VmM H β} (first : Steady action)
    (rest : ∀ value, Steady (next value)) : Steady (action >>= next) :=
  obeys_bind (Handles.toDiscipline steadiness) first rest

theorem steady_pure {α : Type} (value : α) : Steady (pure value : VmM H α) :=
  obeys_pure (Handles.toDiscipline steadiness) value

theorem steady_modify (change : Interpreter H → Interpreter H) :
    Steady (modify change : VmM H Unit) := obeys_modify fun _ => trivial

theorem steady_fail {α : Type} (error : VmError) : Steady (fail error : VmM H α) :=
  obeys_throw fun _ => Fault.noConfusion

theorem steady_jumpTo (dest : U256) : Steady (jumpTo dest : VmM H Unit) := by
  refine obeys_get fun vm => ?_
  by_cases outside : ¬ dest.bitsFitUsize ∨ (analyzeJumpdests vm.code).length ≤ dest.lowUsize
  · simp only [if_pos outside]
    exact Fault.noConfusion
  · have inside : dest.lowUsize < (analyzeJumpdests vm.code).length := by omega
    simp only [if_neg outside]
    rw [indexed_inside inside, pure_bind]
    split
    · exact Spec.set trivial
    · exact Fault.noConfusion

theorem steady_jumpi : Steady (jumpi : VmM H Flow) :=
  steady_bind steady_pop fun dest => steady_bind steady_pop fun _ =>
    obeys_ite (steady_pure _) (steady_bind (steady_jumpTo dest) fun _ => steady_pure _)

/-- An immediate is read behind an instruction that is there. -/
theorem pushImmediate_steady (n : Nat) {vm : Interpreter H} (here : vm.pc < vm.code.length) :
    Spec (pushImmediate n) vm Calms := by
  refine Spec.get ?_
  have cut : vm.pc + 1 ≤ min (vm.pc + 1 + n) vm.code.length ∧
      min (vm.pc + 1 + n) vm.code.length ≤ vm.code.length := by omega
  have taken : (sliced vm.code (vm.pc + 1) (min (vm.pc + 1 + n) vm.code.length) :
      VmM H (List UInt8)) = pure ((vm.code.drop (vm.pc + 1)).take
        (min (vm.pc + 1 + n) vm.code.length - (vm.pc + 1))) := if_pos cut
  dsimp only
  rw [taken, pure_bind]
  have rest (word : U256) : Steady (do
      push word
      modify fun next : Interpreter H => { next with pc := vm.pc + 1 + n } : VmM H Unit) :=
    steady_bind (steady_push word) fun _ => steady_modify _
  exact calms_of_steady (rest _) vm

theorem steady_logOp (topics : Nat) : Steady (logOp topics : VmM H Unit) := by
  refine obeys_get fun vm => ?_
  refine (obeys_ite (steady_fail .staticViolation) ?_).leads vm
  refine steady_bind steady_popUsize fun off => steady_bind steady_popUsize fun len => ?_
  refine steady_bind (Handles.popTopics steadiness topics) fun topics => ?_
  refine steady_bind (steady_memLoad off len) fun data => ?_
  exact steady_bind (steady_charge _) fun _ => steady_modify _

theorem steady_returnWith : Steady (returnWith : VmM H Unit) :=
  steady_bind steady_popUsize fun off => steady_bind steady_popUsize fun len =>
    steady_bind (steady_memLoad off len) fun _ => steady_modify _

/-! ### Copying -/

/-- A copy that panics: its length cannot be allocated, or there is nothing to copy and the
destination is behind the memory. -/
def Overreaches (vm : Interpreter H) (dest len : U256) : Prop :=
  maxAllocation < len.lowUsize ∨ (len.lowUsize = 0 ∧ vm.memory.length < dest.lowUsize)

/-- The operands of a copy overreach. -/
def Hazard (vm : Interpreter H) (stack : List U256) : Prop :=
  ∃ dest off len rest, stack = dest :: off :: len :: rest ∧ Overreaches vm dest len

theorem spec_popUsize {α : Type} {next : Nat → VmM H α} {vm : Interpreter H}
    {post : Except Fault α → Interpreter H → Prop}
    (empty : vm.stack = [] → post (.error (.vm .stackUnderflow)) vm)
    (filled : ∀ value rest, vm.stack = value :: rest →
      Spec (next value.lowUsize) { vm with stack := rest } post) :
    Spec (popUsize >>= next) vm post := by
  have popped := pop_run vm
  cases items : vm.stack with
  | nil =>
      rw [items] at popped
      unfold popUsize
      rw [bind_assoc]
      exact Spec.ended popped (empty items)
  | cons value rest =>
      rw [items] at popped
      unfold popUsize
      rw [bind_assoc]
      exact Spec.after popped (filled value rest items)

theorem copied_eq_nil {source : List UInt8} {off len : Nat} :
    copied source off len = [] ↔ len = 0 := by
  unfold copied
  rw [List.map_eq_nil_iff, List.range_eq_nil]

/-- A copy panics if and only if its operands overreach. -/
theorem copy_spec (source : Interpreter H → List UInt8) (vm : Interpreter H) :
    Spec (copy source) vm fun result _ => result = .error .panic ↔ Hazard vm vm.stack := by
  have short (few : vm.stack.length < 3) :
      (.error (.vm .stackUnderflow) : Except Fault Unit) = .error .panic ↔ Hazard vm vm.stack := by
    refine iff_of_false (fun panics => by cases panics) ?_
    rintro ⟨dest, off, len, rest, items, _⟩
    rw [items] at few
    simp only [List.length_cons] at few
    omega
  refine spec_popUsize (fun none => short ?_) fun dest rest first => ?_
  · rw [none]
    decide
  refine spec_popUsize (fun none => short ?_) fun off rest' second => ?_
  · rw [first, show rest = [] from none, List.length_singleton]
    decide
  refine spec_popUsize (fun none => short ?_) fun len last third => ?_
  · rw [first, show rest = off :: rest' from second, show rest' = [] from none, List.length_cons,
      List.length_singleton]
    decide
  have items : vm.stack = dest :: off :: len :: last := by
    rw [first, show rest = off :: rest' from second, show rest' = len :: last from third]
  have hazard : Hazard vm vm.stack ↔ Overreaches vm dest len := by
    constructor
    · rintro ⟨dest', off', len', rest', same, far⟩
      rw [items] at same
      cases same
      exact far
    · exact fun far => ⟨dest, off, len, last, items, far⟩
  rw [hazard]
  unfold Overreaches allocate
  by_cases large : maxAllocation < len.lowUsize
  · rw [if_pos large]
    exact Spec.ended rfl (iff_of_true rfl (.inl large))
  · rw [if_neg large, pure_bind]
    refine Spec.get ?_
    refine (memStore_spec _ _ _).mono fun result after led => led.2.trans ?_
    rw [copied_eq_nil]
    exact ⟨.inr, fun either => either.resolve_left large⟩

section Hosted

variable [Host H]

omit [Host H] in
theorem steady_onHost (change : H → H) : Steady (onHost change : VmM H Unit) := steady_modify _

theorem steady_takeSnapshot : Steady (takeSnapshot : VmM H Nat) :=
  obeys_get fun _ => Spec.pure trivial

theorem steady_sstore : Steady (sstore : VmM H Unit) := by
  refine obeys_get fun vm => (obeys_ite (steady_fail .staticViolation) ?_).leads vm
  refine steady_bind (steady_charge _) fun _ => steady_bind steady_pop fun key => ?_
  exact steady_bind steady_pop fun value => steady_onHost _

theorem steady_selfdestruct : Steady (selfdestruct : VmM H Unit) := by
  refine obeys_get fun vm => (obeys_ite (steady_fail .staticViolation) ?_).leads vm
  refine steady_bind steady_pop fun beneficiary => ?_
  exact obeys_ite (steady_pure _) (steady_onHost _)

/-! ### Calls and creations before and behind the callee -/

theorem steady_payCall (kind : CallKind) (args : CallArgs) :
    Steady (payCall kind args : VmM H Bool) := by
  refine obeys_get fun vm => (obeys_ite (obeys_ite (steady_pure _) ?_) (steady_pure _)).leads vm
  exact steady_bind (steady_onHost _) fun _ => steady_pure _

theorem steady_leaveCall (args : CallArgs) (snapshot : Nat) (outcome : ExecOutcome) :
    Steady (leaveCall args snapshot outcome : VmM H Unit) := by
  refine steady_bind (steady_charge _) fun _ => steady_bind ?_ fun _ => ?_
  · exact obeys_ite (steady_bind (steady_onHost _) fun _ => steady_modify _) (steady_onHost _)
  · exact steady_bind (steady_modify _) fun _ =>
      steady_bind (steady_storeOutput args _) fun _ => steady_push _

theorem steady_payCreate (args : CreateArgs) (address : U256) :
    Steady (payCreate args address : VmM H Bool) := by
  refine obeys_get fun vm => (obeys_ite (steady_pure _) (obeys_ite (steady_pure _) ?_)).leads vm
  exact steady_bind (steady_onHost _) fun _ => steady_pure _

theorem steady_enterCreate [Keccak256] (args : CreateArgs) :
    Steady (enterCreate args : VmM H (Option (Frame H × Nat))) := by
  refine obeys_get fun vm => ?_
  have refused : Steady (do
      refuse
      pure none : VmM H (Option (Frame H × Nat))) :=
    steady_bind steady_refuse fun _ => steady_pure _
  refine (obeys_ite refused ?_).leads vm
  refine steady_bind (steady_onHost _) fun _ => steady_bind steady_takeSnapshot fun snapshot => ?_
  refine steady_bind (steady_payCreate args _) fun paid => obeys_ite ?_ ?_
  · exact obeys_get fun _ => Spec.pure trivial
  · exact steady_bind (steady_onHost _) fun _ => refused

theorem steady_leaveCreate (address : U256) (snapshot : Nat) (outcome : ExecOutcome) :
    Steady (leaveCreate address snapshot outcome : VmM H Unit) := by
  refine steady_bind (steady_charge _) fun _ => obeys_ite ?_ ?_
  · exact steady_bind (steady_onHost _) fun _ => steady_bind (steady_onHost _) fun _ =>
      steady_bind (steady_modify _) fun _ => steady_bind (steady_modify _) fun _ =>
        steady_push _
  · exact steady_bind (steady_onHost _) fun _ => steady_bind (steady_modify _) fun _ =>
      steady_push _

variable [Keccak256] [Secp256k1] [Sha256] [Ripemd160] [Bn254]

theorem steady_callPrecompile (args : CallArgs) (snapshot : Nat) :
    Steady (callPrecompile args snapshot : VmM H Unit) := by
  refine steady_bind (steady_charge _) fun _ => ?_
  cases Precompile.execute args.target args.calldata with
  | some output =>
      exact steady_bind (steady_onHost _) fun _ => steady_bind (steady_modify _) fun _ =>
        steady_bind (steady_storeOutput args output) fun _ => steady_push _
  | none => exact steady_bind (steady_onHost _) fun _ => steady_refuse

theorem steady_enterCall (kind : CallKind) (args : CallArgs) :
    Steady (enterCall kind args : VmM H (Option (Frame H × Nat))) := by
  refine obeys_get fun vm => ?_
  have refused : Steady (do
      refuse
      pure none : VmM H (Option (Frame H × Nat))) :=
    steady_bind steady_refuse fun _ => steady_pure _
  refine (obeys_ite refused ?_).leads vm
  refine steady_bind steady_takeSnapshot fun snapshot => ?_
  refine steady_bind (steady_payCall kind args) fun paid => obeys_ite (obeys_ite ?_ ?_) ?_
  · exact steady_bind (steady_callPrecompile args snapshot) fun _ => steady_pure _
  · refine obeys_get fun vm => (obeys_ite ?_ (steady_pure _)).leads vm
    exact steady_bind (steady_onHost _) fun _ => steady_bind (steady_modify _) fun _ =>
      steady_bind (steady_push _) fun _ => steady_pure _
  · exact steady_bind (steady_onHost _) fun _ => refused

/-! ### Every instruction -/

/-- The stack from the operands of a copying opcode on. -/
def Plain.operands (op : Plain) (vm : Interpreter H) : List U256 :=
  if op = .extcodecopy then vm.stack.tail else vm.stack

/-- The instruction is a copy that overreaches. -/
inductive Panics (vm : Interpreter H) : Opcode → Prop where
  | copies {op : Plain} (copies : op.Copies) (hazard : Hazard vm (op.operands vm)) :
      Panics vm (.plain op)

omit [Secp256k1] [Sha256] [Ripemd160] [Bn254] in
theorem plain_spec (op : Plain) (vm : Interpreter H) :
    Spec (plain op) vm fun result _ => result = .error .panic ↔ Panics vm (.plain op) := by
  by_cases copies : op.Copies
  · have same : Panics vm (.plain op) ↔ Hazard vm (op.operands vm) :=
      ⟨fun panics => by cases panics with | copies _ hazard => exact hazard, .copies copies⟩
    rw [same]
    cases op with
    | calldatacopy => exact copy_spec _ vm
    | codecopy => exact copy_spec _ vm
    | returndatacopy => exact copy_spec _ vm
    | extcodecopy =>
        have popped := pop_run vm
        have tail : Plain.extcodecopy.operands vm = vm.stack.tail := if_pos rfl
        rw [tail]
        cases items : vm.stack with
        | nil =>
            rw [items] at popped
            refine Spec.ended popped (iff_of_false (fun panics => by cases panics) ?_)
            rintro ⟨dest, off, len, rest, none, _⟩
            cases none
        | cons address rest =>
            rw [items] at popped
            exact Spec.after popped (copy_spec _ _)
    | _ => exact copies.elim
  · have never : ¬ Panics vm (.plain op) := fun panics => by
      cases panics with | copies some _ => exact copies some
    have steady : Steady (plain op : VmM H Unit) :=
      Handles.plain steadiness op fun some => absurd some copies
    exact (calms_of_steady steady vm).mono fun result after calm => iff_of_false calm never

/-- A panic comes from a copy that overreaches or out of a frame that is entered. -/
def Blames (sub : Executor H) (vm : Interpreter H) (op : Opcode) {α : Type}
    (result : Except Fault α) (_ : Interpreter H) : Prop :=
  result = .error .panic →
    Panics vm op ∨ ∃ inner, Enters vm op inner ∧ (sub inner).1 = .error .panic

theorem doCall_blames (sub : Executor H) (kind : CallKind) (vm : Interpreter H) :
    Spec (doCall sub kind) vm (Blames sub vm (.call kind)) := by
  refine Spec.chain ?_ ?_
  · intro args mid taken
    have entered := enterCall_spec kind args mid
    refine Spec.chain ?_ ?_
    · intro entry after ran
      have turn := entered.ran ran
      cases entry with
      | none => exact fun panics => by cases panics
      | some entry =>
          obtain ⟨inner, snapshot⟩ := entry
          have enters : Enters vm (.call kind) inner := by
            cases turn with
            | @settled _ _ result _ _ resolved settles nothing =>
                cases result with
                | ok done => cases nothing
                | error fault => cases nothing
            | entered enters => exact .call taken enters
          refine Spec.chain ?_ ?_
          · intro outcome last invoked
            exact fun panics => absurd panics (calms_of_steady (steady_leaveCall _ _ _) last)
          · intro fault last invoked panics
            rw [invoke_run] at invoked
            rw [Except.error.inj panics] at invoked
            exact .inr ⟨inner, enters, (Prod.mk.inj invoked).1⟩
    · intro fault after ran panics
      exact absurd (Except.error.inj panics) ((steady_enterCall kind args).ran_error ran)
  · intro fault mid ran panics
    exact absurd (Except.error.inj panics) ((Handles.callArgs steadiness kind).ran_error ran)

omit [Secp256k1] [Sha256] [Ripemd160] [Bn254] in
theorem doCreate_blames (sub : Executor H) (salted : Bool) (vm : Interpreter H) :
    Spec (doCreate sub salted) vm (Blames sub vm (.create salted)) := by
  refine Spec.chain ?_ ?_
  · intro args mid taken
    have entered := enterCreate_spec args mid
    refine Spec.chain ?_ ?_
    · intro entry after ran
      have turn := entered.ran ran
      cases entry with
      | none => exact fun panics => by cases panics
      | some entry =>
          obtain ⟨inner, snapshot⟩ := entry
          have enters : Enters vm (.create salted) inner := by
            cases turn with
            | @settled _ result _ _ refused settles nothing =>
                cases result with
                | ok done => cases nothing
                | error fault => cases nothing
            | entered enters => exact .create taken enters
          refine Spec.chain ?_ ?_
          · intro outcome last invoked
            exact fun panics => absurd panics (calms_of_steady (steady_leaveCreate _ _ _) last)
          · intro fault last invoked panics
            rw [invoke_run] at invoked
            rw [Except.error.inj panics] at invoked
            exact .inr ⟨inner, enters, (Prod.mk.inj invoked).1⟩
    · intro fault after ran panics
      exact absurd (Except.error.inj panics) ((steady_enterCreate args).ran_error ran)
  · intro fault mid ran panics
    exact absurd (Except.error.inj panics) ((Handles.createArgs steadiness salted).ran_error ran)

theorem exec_blames (sub : Executor H) (op : Opcode) {vm : Interpreter H}
    (here : vm.pc < vm.code.length) : Spec (exec sub op) vm (Blames sub vm op) := by
  have never {result : Except Fault Flow} {after : Interpreter H}
      (calm : result ≠ .error .panic) : Blames sub vm op result after :=
    fun panics => absurd panics calm
  have steady {action : VmM H Flow} (steady : Steady action) :
      Spec action vm (Blames sub vm op) :=
    (calms_of_steady steady vm).mono fun _ _ => never
  have passed {action : VmM H Unit} (flow : Flow)
      (blames : Spec action vm (Blames sub vm op)) :
      Spec (action >>= fun _ => pure flow) vm (Blames sub vm op) := by
    refine blames.bind ?_ ?_
    · intro _ after _ panics
      cases panics
    · intro fault after blames panics
      exact blames (by rw [Except.error.inj panics])
  cases op with
  | plain op =>
      refine passed .advance ((plain_spec op vm).mono fun result after panics => ?_)
      exact fun same => .inl (panics.mp same)
  | stop => exact steady (steady_pure _)
  | sstore => exact steady (steady_bind steady_sstore fun _ => steady_pure _)
  | jump =>
      exact steady (steady_bind steady_pop fun dest =>
        steady_bind (steady_jumpTo dest) fun _ => steady_pure _)
  | jumpi => exact steady steady_jumpi
  | push n =>
      exact passed .jumped ((pushImmediate_steady n here).mono fun result after calm panics =>
        absurd panics calm)
  | log topics => exact steady (steady_bind (steady_logOp topics) fun _ => steady_pure _)
  | create salted => exact passed .advance (doCreate_blames sub salted vm)
  | call kind => exact passed .advance (doCall_blames sub kind vm)
  | «return» => exact steady (steady_bind steady_returnWith fun _ => steady_pure _)
  | revert => exact steady (steady_bind steady_returnWith fun _ => steady_fail _)
  | selfdestruct => exact steady (steady_bind steady_selfdestruct fun _ => steady_pure _)
  | invalid op => exact steady (steady_fail _)

theorem exec_panics {sub : Executor H} {vm : Interpreter H} {op : Opcode}
    (panics : Panics vm op) : ∃ after, (exec sub op).run.run vm = (.error .panic, after) := by
  cases panics with
  | @copies op copies hazard =>
      have ended : Spec (exec sub (.plain op)) vm fun result _ => result = .error .panic := by
        have left : Spec (plain op) vm fun result _ => result = .error .panic :=
          (plain_spec op vm).mono fun result after panics => panics.mpr (.copies copies hazard)
        refine left.bind ?_ ?_
        · intro _ after impossible
          cases impossible
        · intro fault after same
          rw [Except.error.inj same]
      exact ⟨((exec sub (.plain op)).run.run vm).2, Prod.ext ended rfl⟩

/-! ### Executions -/

/-- A loop that ends in an error other than the lack of fuel comes to a turn with that error. -/
theorem execLoop_stuck {sub : Executor H} {fault : Fault} (other : fault ≠ .fuel) (fuel : Nat)
    {vm : Interpreter H} (ended : ((execLoop sub fuel).run.run vm).1 = .error fault) :
    ∃ state after, Reaches sub vm state ∧ (step sub).run.run state = (.error fault, after) := by
  induction fuel generalizing vm with
  | zero => exact absurd (Except.error.inj ended).symm other
  | succ fuel ih =>
      cases stepped : (step sub).run.run vm with
      | mk result after =>
          cases result with
          | error error =>
              rw [execLoop_error fuel stepped] at ended
              rw [Except.error.inj ended] at stepped
              exact ⟨vm, after, .refl, stepped⟩
          | ok running =>
              cases running with
              | false =>
                  rw [execLoop_done fuel stepped] at ended
                  cases ended
              | true =>
                  rw [execLoop_step fuel stepped] at ended
                  obtain ⟨state, last, reached, stuck⟩ := ih ended
                  exact ⟨state, last, .head stepped reached, stuck⟩

theorem step_stuck {sub : Executor H} {state after : Interpreter H}
    (stuck : (step sub).run.run state = (.error .panic, after)) :
    ∃ op last, Fetches state op ∧
      (exec sub (decode op)).run.run (charged op state) = (.error .panic, last) := by
  have turn := (step_spec sub state).ran stuck
  cases turn with
  | @turned op result _ last pc fetches turn goes =>
      cases ran : (exec sub (decode op)).run.run (charged op state) with
      | mk ended final =>
          cases ended with
          | ok flow =>
              rw [step_run flow fetches ran] at stuck
              cases (Prod.mk.inj stuck).1
          | error fault =>
              rw [step_error fetches ran] at stuck
              rw [Except.error.inj (Prod.mk.inj stuck).1] at ran
              exact ⟨op, final, fetches, ran⟩

theorem Executes.deeper {fuel levels : Nat} {frame middle : Frame H} {sub : Executor H}
    {state vm : Interpreter H} {byte : UInt8} {op : Opcode}
    (reached : Reaches (below fuel (levels + 1)) (.new frame) state) (fetches : Fetches state byte)
    (enters : Enters (charged byte state) (decode byte) middle)
    (executes : Executes fuel levels middle sub vm op) :
    Executes fuel (levels + 1) frame sub vm op := by
  obtain ⟨level, inner, last, final, within, same, rest⟩ := executes
  exact ⟨level, inner, last, final, .deeper reached fetches enters within, same, rest⟩

/-- A frame that ends in a panic comes to a copy that overreaches, or enters a frame that
ends in a panic. -/
theorem executor_stops (fuel level : Nat) (frame : Frame H)
    (panicked : (executor fuel level frame).1 = .error .panic) :
    ∃ state op, Reaches (below fuel level) (.new frame) state ∧ Fetches state op ∧
      (Panics (charged op state) (decode op) ∨
        ∃ inner, Enters (charged op state) (decode op) inner ∧
          (below fuel level inner).1 = .error .panic) := by
  rw [executor_eq, run_eq] at panicked
  have ended : ((execLoop (below fuel level) fuel).run.run (.new frame)).1 = .error .panic := by
    cases result : ((execLoop (below fuel level) fuel).run.run (.new frame)).1 with
    | ok done =>
        rw [result] at panicked
        cases panicked
    | error fault =>
        rw [result] at panicked
        by_cases reverted : fault = .vm .reverted
        · rw [reverted] at panicked
          cases panicked
        · rw [closed_error reverted] at panicked
          rw [Except.error.inj panicked]
  obtain ⟨state, after, reached, stuck⟩ := execLoop_stuck Fault.noConfusion fuel ended
  obtain ⟨op, last, fetches, ran⟩ := step_stuck stuck
  have here : (charged op state).pc < (charged op state).code.length :=
    Nat.not_le.mp fetches.inside
  have blames := exec_blames (below fuel level) (decode op) here
  exact ⟨state, op, reached, fetches, blames.ran ran rfl⟩

/-- The copy may be in a frame below. -/
theorem executor_blames (fuel levels : Nat) (frame : Frame H)
    (panicked : (executor fuel levels frame).1 = .error .panic) :
    ∃ sub vm op, Executes fuel levels frame sub vm op ∧ Panics vm op := by
  induction levels generalizing frame with
  | zero =>
      obtain ⟨state, op, reached, fetches, panics | ⟨inner, _, inside⟩⟩ :=
        executor_stops fuel 0 frame panicked
      · exact ⟨_, _, _, ⟨0, frame, state, op, .self 0 frame, rfl, reached, fetches, rfl, rfl⟩,
          panics⟩
      · cases inside
  | succ levels ih =>
      obtain ⟨state, op, reached, fetches, panics | ⟨inner, enters, inside⟩⟩ :=
        executor_stops fuel (levels + 1) frame panicked
      · exact ⟨_, _, _, ⟨levels + 1, frame, state, op, .self _ frame, rfl, reached, fetches, rfl,
          rfl⟩, panics⟩
      · obtain ⟨sub, vm, op, executes, panics⟩ := ih inner inside
        exact ⟨sub, vm, op, executes.deeper reached fetches enters, panics⟩

/-- An execution with enough fuel panics if and only if it comes, at any depth, to a copy that
overreaches. -/
theorem panics_iff {fuel : Nat} {frame : Frame H} (small : frame.ctx.gasLimit.toNat < 2 ^ 64 - 1)
    (enough : max frame.ctx.gasLimit.toNat 1 < fuel) :
    (executeFrameWith fuel frame).1 = .error .panic ↔
      ∃ sub vm op, Executes fuel frame.levels frame sub vm op ∧ Panics vm op := by
  constructor
  · exact executor_blames fuel frame.levels frame
  · rintro ⟨sub, vm, op, executes, panics⟩
    obtain ⟨level, inner, state, byte, within, rfl, reached, fetches, rfl, rfl⟩ := executes
    obtain ⟨after, ran⟩ := @exec_panics _ _ _ _ _ _ _ (below fuel level) _ _ panics
    have fed := executor_fed fuel frame.levels frame small (Nat.le_refl _) enough
    rcases executor_stuck Fault.noConfusion reached fetches ran with same | starved
    · exact (within.failed same).resolve_right fed
    · exact absurd ((or_self _).mp (within.failed starved)) fed

end Hosted

/-! ### A copy of nothing to a far destination -/

section Fixed

attribute [local instance] onesKeccak noRecovery blankSha256 blankRipemd160 emptyCurve

/-- `GASPRICE` twice, `GAS`, `CODECOPY`. -/
def farCopy : Frame MemHost := { callerFrame with code := [0x3a, 0x3a, 0x5a, 0x39] }

theorem panic_of_check {α : Type} {result : Except Fault α}
    (check : (match result with
      | .error .panic => true
      | _ => false) = true) : result = .error .panic := by
  split at check
  · rfl
  · cases check

/-- The execution panics, and so it comes to a copy that overreaches. -/
theorem panics_farCopy :
    (executeFrameWith 1001 farCopy).1 = .error .panic ∧
      ∃ sub vm op, Executes 1001 farCopy.levels farCopy sub vm op ∧ Panics vm op := by
  have panicked : (executeFrameWith 1001 farCopy).1 = .error .panic :=
    panic_of_check (by decide +kernel)
  exact ⟨panicked, (panics_iff (by decide) (by decide)).mp panicked⟩

end Fixed

end Evm

end Veilux
