/-
What a failing callee does to its caller.  A revert is contained: the caller has a zero on its
stack and the host of before, and goes on.  Every other error leaves all frames above it.
-/

import Veilux.Evm.MemHost
import Veilux.Evm.Metering

namespace Veilux

namespace Evm

open Effects

variable {H : Type}

/-! ### Room on the stack -/

/-- Whenever the action goes through, the stack has become shorter by as many words. -/
def Consumes (words : Nat) {α : Type} (action : VmM H α) : Prop :=
  ∀ vm value after, action.run.run vm = (.ok value, after) →
    after.stack.length + words ≤ vm.stack.length

theorem Consumes.bind {α β : Type} {first words : Nat} {action : VmM H α} {next : α → VmM H β}
    (consumes : Consumes first action) (rest : ∀ value, Consumes words (next value)) :
    Consumes (words + first) (action >>= next) := by
  intro vm value after ran
  rw [run_bind] at ran
  cases early : action.run.run vm with
  | mk result mid =>
      rw [early] at ran
      cases result with
      | error fault => cases ran
      | ok middle =>
          have left := consumes vm middle mid early
          have right := rest middle mid value after ran
          omega

theorem consumes_get {β : Type} {words : Nat} {next : Interpreter H → VmM H β}
    (rest : ∀ vm, Consumes words (next vm)) : Consumes words (get >>= next) :=
  fun vm => rest vm vm

theorem consumes_pure {α : Type} (value : α) : Consumes 0 (pure value : VmM H α) := by
  intro vm result after ran
  cases ran
  exact Nat.le_refl _

theorem consumes_fail {α : Type} (words : Nat) (error : VmError) :
    Consumes words (fail error : VmM H α) := by
  intro vm result after ran
  cases ran

theorem consumes_ite {α : Type} {words : Nat} {condition : Prop} [Decidable condition]
    {first second : VmM H α} (yes : Consumes words first) (no : Consumes words second) :
    Consumes words (if condition then first else second) := by
  split
  · exact yes
  · exact no

theorem Consumes.less {α : Type} {words fewer : Nat} {action : VmM H α}
    (consumes : Consumes words action) (le : fewer ≤ words) : Consumes fewer action := by
  intro vm value after ran
  have left := consumes vm value after ran
  omega

theorem consumes_charge (amount : UInt64) : Consumes 0 (charge amount : VmM H Unit) := by
  intro vm value after ran
  rw [charge_run] at ran
  rw [← (Prod.mk.inj ran).2]
  exact Nat.le_refl _

theorem consumes_pop : Consumes 1 (pop : VmM H U256) := by
  intro vm value after ran
  rw [pop_run] at ran
  cases items : vm.stack with
  | nil =>
      rw [items] at ran
      cases ran
  | cons top rest =>
      rw [items] at ran
      rw [← (Prod.mk.inj ran).2]
      exact Nat.le_refl _

theorem consumes_popUsize : Consumes 1 (popUsize : VmM H Nat) :=
  consumes_pop.bind fun _ => consumes_pure _

/-- Growing the memory leaves the stack. -/
theorem consumes_ensureMem (offset len : Nat) : Consumes 0 (ensureMem offset len : VmM H Unit) := by
  refine consumes_ite (consumes_pure _) (consumes_ite (consumes_fail 0 _) ?_)
  refine consumes_get fun vm => consumes_ite ?_ (consumes_pure _)
  refine (consumes_charge _).bind fun _ vm value after ran => ?_
  cases ran
  exact Nat.le_refl _

theorem consumes_memLoad (offset len : Nat) :
    Consumes 0 (memLoad offset len : VmM H (List UInt8)) := by
  refine consumes_ite (consumes_pure _) ((consumes_ensureMem offset len).bind fun _ => ?_)
  refine consumes_get fun vm start value after ran => ?_
  unfold sliced at ran
  split at ran
  · cases ran
    exact Nat.le_refl _
  · cases ran

theorem consumes_popValue (kind : CallKind) : Consumes 0 (popValue kind : VmM H U256) :=
  consumes_ite (consumes_pop.less (Nat.zero_le _)) (consumes_pure _)

theorem consumes_callArgs (kind : CallKind) : Consumes 6 (callArgs kind : VmM H CallArgs) := by
  refine (consumes_charge 100).bind fun _ => ?_
  refine consumes_pop.bind fun gas => consumes_pop.bind fun target => ?_
  refine (consumes_popValue kind).bind fun value => ?_
  refine consumes_popUsize.bind fun argsOff => consumes_popUsize.bind fun argsLen => ?_
  refine consumes_popUsize.bind fun retOff => consumes_popUsize.bind fun retLen => ?_
  refine consumes_get fun vm => consumes_ite (consumes_fail 0 _) ?_
  exact (consumes_memLoad argsOff argsLen).bind fun _ => consumes_pure _

theorem consumes_createArgs (salted : Bool) :
    Consumes 3 (createArgs salted : VmM H CreateArgs) := by
  refine consumes_get fun vm => consumes_ite (consumes_fail 3 _) ?_
  refine (consumes_charge 32000).bind fun _ => consumes_pop.bind fun value => ?_
  refine consumes_popUsize.bind fun off => consumes_popUsize.bind fun len => ?_
  have salt : Consumes 0 (popSalt salted : VmM H (Option U256)) :=
    consumes_ite ((consumes_pop.bind fun _ => consumes_pure _).less (Nat.zero_le _))
      (consumes_pure _)
  refine salt.bind fun salt => ?_
  exact (consumes_memLoad off len).bind fun _ => consumes_pure _

/-! ### Behind a callee that reverted -/

/-- The caller has no gas left, or no memory for the returned data. -/
def Strained (fault : Fault) : Prop := fault = .vm .outOfGas ∨ fault = .vm .memoryLimit

/-- The stack stays, and only the caller's own means can run out. -/
abbrev Frugal {α : Type} (action : VmM H α) : Prop :=
  Obeys (fun before after : Interpreter H => after.stack = before.stack)
    (fun fault _ _ => Strained fault) action

theorem frugality : Discipline (fun before after : Interpreter H => after.stack = before.stack)
    (fun fault _ _ => Strained fault) where
  refl _ := rfl
  trans former latter := latter.trans former
  fails _ strained := strained

theorem frugal_charge (amount : UInt64) : Frugal (charge amount : VmM H Unit) := by
  refine ⟨fun vm => ?_⟩
  unfold Spec
  rw [charge_run]
  split
  · exact .inl rfl
  · rfl

theorem frugal_grow (stop : Nat) : Frugal (grow stop : VmM H Unit) := by
  refine obeys_get fun vm => ?_
  by_cases short : vm.memory.length < stop
  · rw [if_pos short]
    exact leads_bind frugality ((frugal_charge _).leads vm) fun _ => obeys_modify fun _ => rfl
  · rw [if_neg short]
    exact Spec.pure rfl

theorem frugal_ensureMem (offset len : Nat) : Frugal (ensureMem offset len : VmM H Unit) :=
  obeys_ite (obeys_pure frugality ())
    (obeys_ite (obeys_throw fun _ => .inr rfl) (frugal_grow _))

/-- What is stored is not nothing. -/
theorem frugal_memStore (offset : Nat) {data : List UInt8} (some : data ≠ []) :
    Frugal (memStore offset data : VmM H Unit) := by
  refine ⟨fun vm => ?_⟩
  have length : data.length ≠ 0 := fun zero => some (List.eq_nil_of_length_eq_zero zero)
  have ensured : Spec (ensureMem offset data.length) vm fun result after =>
      Leads (fun before after : Interpreter H => after.stack = before.stack)
        (fun fault _ _ => Strained fault) vm result after ∧
      Covers (offset + data.length) result after :=
    ⟨(frugal_ensureMem offset data.length).leads vm, (ensureMem_spec _ _ vm).2 length⟩
  refine ensured.bind ?_ fun fault mid led => led.1
  intro _ mid led
  have covered : offset + data.length ≤ mid.memory.length := led.2
  refine Spec.get ?_
  rw [if_neg (Nat.not_lt.mpr covered)]
  exact Spec.set led.1

theorem frugal_storeOutput (args : CallArgs) (output : List UInt8) :
    Frugal (storeOutput args output : VmM H Unit) := by
  unfold storeOutput
  dsimp only
  by_cases some : 0 < min args.retLen output.length
  · rw [if_pos some]
    refine frugal_memStore _ fun none => ?_
    have length := congrArg List.length none
    rw [List.length_take, List.length_nil] at length
    omega
  · rw [if_neg some]
    exact obeys_pure frugality ()

/-- The instruction has pushed its word, or the caller's means have run out. -/
def Tight (result : Except Fault Unit) (_ : Interpreter H) : Prop :=
  ∀ fault, result = .error fault → Strained fault

/-- Behind a frugal action there is room for what is pushed. -/
theorem tight_push (value : U256) {action : VmM H Unit} (frugal : Frugal action)
    {vm : Interpreter H} (room : vm.stack.length < maxStack) :
    Spec (action >>= fun _ => push value) vm Tight := by
  refine (frugal.leads vm).bind ?_ ?_
  · intro _ mid kept
    have same : mid.stack = vm.stack := kept
    unfold Spec
    rw [push_run, same, if_neg (Nat.not_le.mpr room)]
    intro fault impossible
    cases impossible
  · intro error mid strained fault same
    rw [← Except.error.inj same]
    exact strained

section Leaving

variable [Host H]

theorem frugal_settle (snapshot : Nat) (outcome : ExecOutcome) :
    Frugal (settle snapshot outcome : VmM H Unit) := by
  refine ⟨fun vm => ?_⟩
  unfold Spec
  rw [settle_run]
  rfl

theorem leaveCall_tight (args : CallArgs) (snapshot : Nat) (outcome : ExecOutcome)
    {vm : Interpreter H} (room : vm.stack.length < maxStack) :
    Spec (leaveCall args snapshot outcome) vm Tight := by
  have stages : Frugal (do
      charge outcome.gasUsed
      settle snapshot outcome
      setRetBuffer outcome.returnData
      storeOutput args outcome.returnData : VmM H Unit) :=
    obeys_bind frugality (frugal_charge _) fun _ =>
      obeys_bind frugality (frugal_settle snapshot outcome) fun _ =>
        obeys_bind frugality (obeys_modify fun _ => rfl) fun _ => frugal_storeOutput args _
  have tight := tight_push (boolU outcome.success) stages room
  simp only [bind_assoc] at tight
  exact tight

theorem leaveCreate_tight (address : U256) (snapshot : Nat) {outcome : ExecOutcome}
    (failed : outcome.success = false) {vm : Interpreter H} (room : vm.stack.length < maxStack) :
    Spec (leaveCreate address snapshot outcome) vm Tight := by
  have skipped : ¬ (outcome.success = true ∧ outcome.returnData.length ≤ maxCodeSize) := by
    rw [failed]
    exact fun both => Bool.false_ne_true both.1
  have stages : Frugal (do
      charge outcome.gasUsed
      revertTo snapshot
      setRetBuffer outcome.returnData : VmM H Unit) :=
    obeys_bind frugality (frugal_charge _) fun _ =>
      obeys_bind frugality (obeys_modify fun _ => rfl) fun _ => obeys_modify fun _ => rfl
  have tight := tight_push .zero stages room
  simp only [bind_assoc] at tight
  unfold leaveCreate
  simp only [if_neg skipped]
  exact tight

end Leaving

/-! ### What the caller sees -/

section Callers

variable [Host H] [Keccak256] [Secp256k1] [Sha256] [Ripemd160] [Bn254]

/-- A call or a creation that enters a frame, and the snapshot it takes before. -/
inductive Entry (vm : Interpreter H) : Opcode → Frame H → Nat → Prop where
  | call {kind : CallKind} {args : CallArgs} {mid : Interpreter H}
      (taken : (callArgs kind).run.run vm = (.ok args, mid)) (enters : CallEnters kind args mid) :
      Entry vm (.call kind) (enteredFrame kind args mid) (Host.snapshot mid.host).1
  | create {salted : Bool} {args : CreateArgs} {mid : Interpreter H}
      (taken : (createArgs salted).run.run vm = (.ok args, mid)) (enters : CreateEnters args mid) :
      Entry vm (.create salted) (initFrame args mid) (Host.snapshot (bumpedHost mid)).1

omit [Secp256k1] [Sha256] [Ripemd160] [Bn254] in
theorem Entry.enters {vm : Interpreter H} {op : Opcode} {inner : Frame H} {snapshot : Nat}
    (entry : Entry vm op inner snapshot) : Enters vm op inner := by
  cases entry with
  | call taken enters => exact .call taken enters
  | create taken enters => exact .create taken enters

theorem enterCall_entered {kind : CallKind} {args : CallArgs} {vm : Interpreter H}
    (enters : CallEnters kind args vm) :
    (enterCall kind args).run.run vm =
      (.ok (some (enteredFrame kind args vm, (Host.snapshot vm.host).1)),
        { vm with host := paidHost kind args vm }) := by
  have turn := enterCall_spec kind args vm
  unfold Spec at turn
  generalize (enterCall kind args).run.run vm = left at turn ⊢
  obtain ⟨entry, after⟩ := left
  have ordinary : ¬ Precompile.isPrecompile args.target = true := by
    rw [enters.ordinary]
    exact Bool.false_ne_true
  cases turn with
  | settled resolved settles nothing =>
      cases resolved with
      | deep limit => exact absurd enters.shallow (UInt32.not_lt.mpr limit)
      | poor short => exact absurd short enters.solvent
      | precompiled solvent special executed => exact absurd special ordinary
      | rejected solvent special executed => exact absurd special ordinary
      | bare solvent empty =>
          rw [enters.coded] at empty
          cases empty
  | costly solvent special broke => exact absurd special ordinary
  | entered enters => rfl

omit [Secp256k1] [Sha256] [Ripemd160] [Bn254] in
theorem enterCreate_entered {args : CreateArgs} {vm : Interpreter H}
    (enters : CreateEnters args vm) :
    (enterCreate args).run.run vm =
      (.ok (some (initFrame args vm, (Host.snapshot (bumpedHost vm)).1)),
        { vm with host := endowedHost args (newAddress args vm) vm }) := by
  have turn := enterCreate_spec args vm
  unfold Spec at turn
  generalize (enterCreate args).run.run vm = left at turn ⊢
  obtain ⟨entry, after⟩ := left
  cases turn with
  | settled refused settles nothing =>
      rcases refused with ⟨limit, _⟩ | ⟨short, _⟩
      · exact absurd enters.shallow (UInt32.not_lt.mpr limit)
      · exact absurd short enters.funded
  | entered enters => rfl

/-- The caller goes on behind its instruction, with a zero on its stack, the host reverted to
the snapshot and no log of the callee. -/
structure Contained (vm : Interpreter H) (callee : H) (snapshot : Nat) (after : Interpreter H) :
    Prop where
  pushed : after.stack.head? = some .zero
  host : after.host = Host.revert callee snapshot
  logs : after.logs = vm.logs

/-- It does, or its own means run out. -/
def Survives (vm : Interpreter H) (callee : H) (snapshot : Nat) (result : Except Fault Flow)
    (after : Interpreter H) : Prop :=
  (result = .ok .advance ∧ Contained vm callee snapshot after) ∨
    ∃ fault, result = .error fault ∧ Strained fault

omit [Keccak256] [Secp256k1] [Sha256] [Ripemd160] [Bn254] in
theorem survives_settled {vm mid after : Interpreter H} {callee : H} {snapshot : Nat}
    {result : Except Fault Unit} (logged : mid.logs = vm.logs)
    (settled : result = .error (.vm .outOfGas) ∨
      Settles mid (Host.revert callee snapshot) mid.logs .zero result after)
    (tight : Tight result after) :
    Survives vm callee snapshot (result.map fun _ => .advance) after := by
  cases result with
  | error fault => exact .inr ⟨fault, rfl, tight fault rfl⟩
  | ok done =>
      rcases settled with impossible | settles
      · cases impossible
      · have pushed := settles.pushed
        have kept : Passes { mid with host := Host.revert callee snapshot, logs := mid.logs }
            after := settles.led
        exact .inl ⟨rfl, pushed.2, pushed.1, kept.logs.trans logged⟩

/-- Behind a callee that reverted the caller survives. -/
theorem exec_reverted {sub : Executor H} {vm : Interpreter H} {op : Opcode} {inner : Frame H}
    {snapshot : Nat} {outcome : ExecOutcome} {callee : H} (room : vm.stack.length ≤ maxStack)
    (entry : Entry vm op inner snapshot) (ran : sub inner = (.ok outcome, callee))
    (failed : outcome.success = false) :
    Spec (exec sub op) vm (Survives vm callee snapshot) := by
  cases entry with
  | @call kind args mid taken enters =>
      have invoked := invoke_run sub (enteredFrame kind args mid)
        { mid with host := paidHost kind args mid }
      rw [ran] at invoked
      have shorter := consumes_callArgs kind vm args mid taken
      have logged : mid.logs = vm.logs := ((handling.callArgs kind).ran_ok taken).logs
      have left : Spec (doCall sub kind) vm fun result after =>
          Survives vm callee (Host.snapshot mid.host).1 (result.map fun _ => .advance) after := by
        refine Spec.after taken (Spec.after (enterCall_entered enters) (Spec.after invoked ?_))
        have ended := leaveCall_spec args (Host.snapshot mid.host).1 outcome callee mid
        have tight := leaveCall_tight args (Host.snapshot mid.host).1 outcome
          (show ({ mid with host := callee } : Interpreter H).stack.length < maxStack from
            by change mid.stack.length < maxStack; omega)
        rw [failed] at ended
        refine survives_settled logged ?_ tight
        rcases ended with short | settles
        · exact .inl short.1
        · exact .inr settles
      refine left.bind ?_ ?_
      · intro _ after survives
        exact Spec.pure survives
      · intro fault after survives
        exact survives
  | @create salted args mid taken enters =>
      have invoked := invoke_run sub (initFrame args mid)
        { mid with host := endowedHost args (newAddress args mid) mid }
      rw [ran] at invoked
      have shorter := consumes_createArgs salted vm args mid taken
      have logged : mid.logs = vm.logs := ((handling.createArgs salted).ran_ok taken).logs
      have discarded : ¬ Deploys outcome := by
        intro deploys
        rw [Deploys, failed] at deploys
        exact Bool.false_ne_true deploys.1
      have left : Spec (doCreate sub salted) vm fun result after =>
          Survives vm callee (Host.snapshot (bumpedHost mid)).1 (result.map fun _ => .advance)
            after := by
        refine Spec.after taken (Spec.after (enterCreate_entered enters) (Spec.after invoked ?_))
        have ended := leaveCreate_spec (initFrame args mid).ctx.address
          (Host.snapshot (bumpedHost mid)).1 outcome callee mid
        have tight := leaveCreate_tight (initFrame args mid).ctx.address
          (Host.snapshot (bumpedHost mid)).1 failed
          (show ({ mid with host := callee } : Interpreter H).stack.length < maxStack from
            by change mid.stack.length < maxStack; omega)
        refine survives_settled logged ?_ tight
        rcases ended with short | ⟨deploys, _⟩ | ⟨_, settles⟩
        · exact .inl short.1
        · exact absurd deploys discarded
        · exact .inr settles
      refine left.bind ?_ ?_
      · intro _ after survives
        exact Spec.pure survives
      · intro fault after survives
        exact survives

/-- Behind a callee that ended in an error the caller ends in the same one. -/
theorem exec_failed {sub : Executor H} {vm : Interpreter H} {op : Opcode} {inner : Frame H}
    {fault : Fault} {callee : H} (enters : Enters vm op inner)
    (ran : sub inner = (.error fault, callee)) :
    ∃ after, (exec sub op).run.run vm = (.error fault, after) := by
  have every : Spec (exec sub op) vm fun result _ => result = .error fault := by
    cases enters with
    | @call kind args mid taken enters =>
        have invoked := invoke_run sub (enteredFrame kind args mid)
          { mid with host := paidHost kind args mid }
        rw [ran] at invoked
        have left : Spec (doCall sub kind) vm fun result _ => result = .error fault :=
          Spec.after taken (Spec.after (enterCall_entered enters) (Spec.ended invoked rfl))
        refine left.bind ?_ ?_
        · intro _ after impossible
          cases impossible
        · intro other after same
          rw [Except.error.inj same]
    | @create salted args mid taken enters =>
        have invoked := invoke_run sub (initFrame args mid)
          { mid with host := endowedHost args (newAddress args mid) mid }
        rw [ran] at invoked
        have left : Spec (doCreate sub salted) vm fun result _ => result = .error fault :=
          Spec.after taken (Spec.after (enterCreate_entered enters) (Spec.ended invoked rfl))
        refine left.bind ?_ ?_
        · intro _ after impossible
          cases impossible
        · intro other after same
          rw [Except.error.inj same]
  exact ⟨((exec sub op).run.run vm).2, Prod.ext every rfl⟩

/-- A loop that comes to an instruction that fails ends there, if it comes that far. -/
theorem execLoop_failed {sub : Executor H} {vm state after : Interpreter H} {fault : Fault}
    (reached : Reaches sub vm state) (stuck : (step sub).run.run state = (.error fault, after))
    (fuel : Nat) :
    ((execLoop sub fuel).run.run vm).1 = .error fault ∨
      ((execLoop sub fuel).run.run vm).1 = .error .fuel := by
  induction reached using Relation.ReflTransGen.head_induction_on generalizing fuel with
  | refl =>
      cases fuel with
      | zero => exact .inr rfl
      | succ fuel =>
          rw [execLoop_error fuel stuck]
          exact .inl rfl
  | head stepped _ ih =>
      cases fuel with
      | zero => exact .inr rfl
      | succ fuel =>
          rw [execLoop_step fuel stepped]
          exact ih fuel

/-- A frame ends in the error of an instruction that it comes to. -/
theorem executor_stuck {fuel level : Nat} {frame : Frame H} {state after : Interpreter H}
    {op : UInt8} {fault : Fault} (calm : fault ≠ .vm .reverted)
    (reached : Reaches (below fuel level) (.new frame) state) (fetches : Fetches state op)
    (ran : (exec (below fuel level) (decode op)).run.run (charged op state) =
      (.error fault, after)) :
    (executor fuel level frame).1 = .error fault ∨
      (executor fuel level frame).1 = .error .fuel := by
  have looped := execLoop_failed reached (step_error fetches ran) fuel
  rw [executor_eq, run_eq]
  rcases looped with same | starved
  · rw [same, closed_error calm]
    exact .inl rfl
  · rw [starved]
    exact .inr rfl

theorem executor_failed {fuel level : Nat} {frame inner : Frame H} {state : Interpreter H}
    {op : UInt8} {fault : Fault} (reached : Reaches (below fuel level) (.new frame) state)
    (fetches : Fetches state op) (enters : Enters (charged op state) (decode op) inner)
    (failed : (below fuel level inner).1 = .error fault) :
    (executor fuel level frame).1 = .error fault ∨
      (executor fuel level frame).1 = .error .fuel := by
  have calm : fault ≠ .vm .reverted := by
    intro reverted
    rw [reverted] at failed
    exact below_calm fuel level inner failed
  obtain ⟨after, ran⟩ := exec_failed enters (Prod.ext failed rfl)
  exact executor_stuck calm reached fetches ran

/-- So does the outermost frame, through all levels. -/
theorem Within.failed {fuel levels level : Nat} {root inner : Frame H} {fault : Fault}
    (within : Within fuel levels root level inner)
    (failed : (executor fuel level inner).1 = .error fault) :
    (executor fuel levels root).1 = .error fault ∨
      (executor fuel levels root).1 = .error .fuel := by
  induction within with
  | self => exact .inl failed
  | deeper reached fetches enters rest ih =>
      rcases ih failed with same | starved
      · exact executor_failed reached fetches enters same
      · exact .inr ((or_self _).mp (executor_failed reached fetches enters starved))

/-- What a failing callee does to its caller at any depth of an execution.  If it has reverted,
the caller goes on with a zero and the host of before unless its own gas or memory runs out; any
other error ends the whole execution. -/
theorem failed_callee {fuel : Nat} {frame : Frame H} {sub : Executor H} {vm : Interpreter H}
    {op : Opcode} {inner : Frame H} {snapshot : Nat}
    (small : frame.ctx.gasLimit.toNat < 2 ^ 64 - 1) (enough : max frame.ctx.gasLimit.toNat 1 < fuel)
    (executes : Executes fuel frame.levels frame sub vm op) (entry : Entry vm op inner snapshot) :
    (∀ outcome callee, sub inner = (.ok outcome, callee) → outcome.success = false →
      Spec (exec sub op) vm (Survives vm callee snapshot)) ∧
    ∀ fault callee, sub inner = (.error fault, callee) →
      (executeFrameWith fuel frame).1 = .error fault := by
  obtain ⟨level, middle, state, byte, within, rfl, reached, fetches, rfl, rfl⟩ := executes
  refine ⟨fun outcome callee ran failed => ?_, fun fault callee ran => ?_⟩
  · exact exec_reverted reached.bounded.stack entry ran failed
  · have here := executor_failed reached fetches entry.enters (congrArg Prod.fst ran)
    have fed := executor_fed fuel frame.levels frame small (Nat.le_refl _) enough
    rcases here with same | starved
    · exact (within.failed same).resolve_right fed
    · exact absurd ((or_self _).mp (within.failed starved)) fed

end Callers

/-! ### A static call to an invalid opcode -/

section Fixed

attribute [local instance] onesKeccak noRecovery blankSha256 blankRipemd160 emptyCurve

/-- `GASPRICE` five times, `GAS`, `STATICCALL`: a call to the address zero. -/
def callerCode : List UInt8 := [0x3a, 0x3a, 0x3a, 0x3a, 0x3a, 0x5a, 0xfa]

/-- `INVALID` at the address zero. -/
def calleeHost : MemHost := MemHost.setCode default .zero [0xfe]

def callerFrame : Frame MemHost :=
  { code := callerCode
    ctx := { caller := .zero, address := .one, value := .zero, calldata := [], gasLimit := 1000 }
    host := calleeHost
    depth := 0
    isStatic := false }

/-- The caller behind its first instructions. -/
def callerAt (pc : Nat) (stack : List U256) : Interpreter MemHost :=
  { Interpreter.new callerFrame with
    pc := pc
    stack := stack
    gas := .ofNat (2 * pc) }

theorem caller_reaches (sub : Executor MemHost) :
    Reaches sub (.new callerFrame) (callerAt 6
      [.fromU64 988, .zero, .zero, .zero, .zero, .zero]) := by
  have start : Interpreter.new callerFrame = callerAt 0 [] := rfl
  rw [start]
  have fetchOne : Fetches (callerAt 0 []) 0x3a := ⟨rfl, by decide⟩
  have one : Steps sub (callerAt 0 [])
      (callerAt 1 [.zero]) :=
    step_run .advance fetchOne rfl
  have fetchTwo : Fetches (callerAt 1 [.zero]) 0x3a := ⟨rfl, by decide⟩
  have two : Steps sub (callerAt 1 [.zero])
      (callerAt 2 [.zero, .zero]) :=
    step_run .advance fetchTwo rfl
  have fetchThree : Fetches (callerAt 2 [.zero, .zero]) 0x3a := ⟨rfl, by decide⟩
  have three : Steps sub (callerAt 2 [.zero, .zero])
      (callerAt 3 [.zero, .zero, .zero]) :=
    step_run .advance fetchThree rfl
  have fetchFour : Fetches (callerAt 3 [.zero, .zero, .zero]) 0x3a := ⟨rfl, by decide⟩
  have four : Steps sub (callerAt 3 [.zero, .zero, .zero])
      (callerAt 4 [.zero, .zero, .zero, .zero]) :=
    step_run .advance fetchFour rfl
  have fetchFive : Fetches (callerAt 4 [.zero, .zero, .zero, .zero]) 0x3a := ⟨rfl, by decide⟩
  have five : Steps sub (callerAt 4 [.zero, .zero, .zero, .zero])
      (callerAt 5 [.zero, .zero, .zero, .zero, .zero]) :=
    step_run .advance fetchFive rfl
  have fetchSix : Fetches (callerAt 5 [.zero, .zero, .zero, .zero, .zero]) 0x5a := ⟨rfl, by decide⟩
  have six : Steps sub (callerAt 5 [.zero, .zero, .zero, .zero, .zero])
      (callerAt 6 [.fromU64 988, .zero, .zero, .zero, .zero, .zero]) :=
    step_run .advance fetchSix rfl
  exact .head one (.head two (.head three (.head four (.head five (.single six)))))

/-- The state in which the call is made. -/
def callingVm : Interpreter MemHost :=
  charged 0xfa (callerAt 6 [.fromU64 988, .zero, .zero, .zero, .zero, .zero])

def calleeArgs : CallArgs := ⟨.fromU64 988, .zero, .zero, [], 0, 0⟩

def calledVm : Interpreter MemHost := { callingVm with stack := [], gas := 114 }

theorem callee_entry : Entry callingVm (.call .staticCall)
    (enteredFrame .staticCall calleeArgs calledVm) (Host.snapshot calledVm.host).1 :=
  .call rfl
    { shallow := by decide
      solvent := fun poor => by cases poor.1.1
      ordinary := rfl
      coded := rfl }

/-- The invalid opcode of the callee ends the caller. -/
theorem failed_callee_invalid :
    (executeFrameWith 1001 callerFrame).1 = .error (.vm (.invalidOpcode 0xfe)) := by
  have executes : Executes 1001 callerFrame.levels callerFrame (below 1001 callerFrame.levels)
      callingVm (.call .staticCall) :=
    ⟨_, callerFrame, _, 0xfa, .self _ _, rfl, caller_reaches _, ⟨rfl, by decide⟩, rfl, rfl⟩
  exact (failed_callee (by decide) (by decide) executes callee_entry).2 _ _ rfl

end Fixed

end Evm

end Veilux
