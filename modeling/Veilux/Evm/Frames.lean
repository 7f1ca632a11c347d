/-
Runs of frames.  The states a frame reaches, the frames entered below it, and the
rule that carries a property of frames through the loop and through the nesting.
-/

import Veilux.Evm.Turn

namespace Veilux

namespace Evm

open Effects

variable {H : Type}

/-- The machine once the instruction at hand is paid for. -/
def charged (op : UInt8) (vm : Interpreter H) : Interpreter H :=
  { vm with gas := saturatingAdd vm.gas (baseGas op) }

/-- The instruction at hand is there and paid for. -/
structure Fetches (vm : Interpreter H) (op : UInt8) : Prop where
  reads : vm.code[vm.pc]? = some op
  affordable : ¬ vm.gasLimit < saturatingAdd vm.gas (baseGas op)

theorem Fetches.passes {vm : Interpreter H} {op : UInt8} (fetches : Fetches vm op) :
    Passes vm (charged op vm) := by
  have within := fetches.affordable
  rw [UInt64.lt_iff_toNat_lt] at within
  exact ⟨{ Local.refl vm with gas := le_saturatingAdd _ _ }, fun _ => not_lt.mp within⟩

theorem Fetches.inside {vm : Interpreter H} {op : UInt8} (fetches : Fetches vm op) :
    ¬ vm.code.length ≤ vm.pc := by
  intro beyond
  have missing := List.getElem?_eq_none beyond
  rw [fetches.reads] at missing
  cases missing

theorem Fetches.picked {vm : Interpreter H} {op : UInt8} (fetches : Fetches vm op) :
    (indexed vm.code vm.pc : VmM H UInt8) = pure op := by
  unfold indexed
  rw [fetches.reads]

theorem Fetches.paid {vm : Interpreter H} {op : UInt8} (fetches : Fetches vm op) :
    (charge (baseGas op)).run.run vm = (.ok (), charged op vm) := by
  rw [charge_run, if_neg fetches.affordable]
  rfl

variable [Host H] [Keccak256] [Secp256k1] [Sha256] [Ripemd160] [Bn254]

/-- The frames an instruction enters. -/
inductive Enters (vm : Interpreter H) : Opcode → Frame H → Prop where
  | call {kind : CallKind} {args : CallArgs} {mid : Interpreter H}
      (taken : (callArgs kind).run.run vm = (.ok args, mid)) (enters : CallEnters kind args mid) :
      Enters vm (.call kind) (enteredFrame kind args mid)
  | create {salted : Bool} {args : CreateArgs} {mid : Interpreter H}
      (taken : (createArgs salted).run.run vm = (.ok args, mid)) (enters : CreateEnters args mid) :
      Enters vm (.create salted) (initFrame args mid)

inductive StepTurn (sub : Executor H) (vm : Interpreter H) :
    Except Fault Bool → Interpreter H → Prop where
  | finished (beyond : vm.code.length ≤ vm.pc) : StepTurn sub vm (.ok false) vm
  | unpaid {op : UInt8} (reads : vm.code[vm.pc]? = some op)
      (short : vm.gasLimit < saturatingAdd vm.gas (baseGas op)) :
      StepTurn sub vm (.error (.vm .outOfGas)) (charged op vm)
  | turned {op : UInt8} {result : Except Fault Flow} {running : Except Fault Bool}
      {after : Interpreter H} {pc : Nat} (fetches : Fetches vm op)
      (turn : Turn sub (charged op vm) (decode op) result after)
      (goes : running = result.map fun flow => decide (flow ≠ .halted)) :
      StepTurn sub vm running { after with pc := pc }

theorem step_spec (sub : Executor H) (vm : Interpreter H) :
    Spec (step sub) vm (StepTurn sub vm) := by
  refine Spec.get ?_
  by_cases beyond : vm.code.length ≤ vm.pc
  · rw [if_pos beyond]
    exact .finished beyond
  · rw [if_neg beyond]
    have reads : vm.code[vm.pc]? = some (vm.code.get ⟨vm.pc, not_le.mp beyond⟩) :=
      List.getElem?_eq_getElem (not_le.mp beyond)
    generalize vm.code.get ⟨vm.pc, not_le.mp beyond⟩ = op at reads
    have picked : (indexed vm.code vm.pc : VmM H UInt8) = pure op := by
      unfold indexed
      rw [reads]
    rw [picked, pure_bind]
    have paid := charge_run (baseGas op) vm
    by_cases short : vm.gasLimit < saturatingAdd vm.gas (baseGas op)
    · rw [if_pos short] at paid
      exact Spec.ended paid (.unpaid reads short)
    · rw [if_neg short] at paid
      refine Spec.after paid ?_
      refine (exec_spec sub (decode op) (charged op vm)).bind ?_ ?_
      · intro flow after turn
        cases flow with
        | advance => exact .turned ⟨reads, short⟩ turn rfl
        | jumped => exact .turned ⟨reads, short⟩ turn rfl
        | halted => exact .turned ⟨reads, short⟩ turn rfl
      · intro fault after turn
        exact .turned ⟨reads, short⟩ turn rfl

/-! ### Single turns -/

/-- Where the loop goes on behind an instruction. -/
def resumed (flow : Flow) (vm : Interpreter H) : Interpreter H :=
  match flow with
  | .advance => { vm with pc := vm.pc + 1 }
  | .jumped => vm
  | .halted => vm

theorem step_run {sub : Executor H} {vm after : Interpreter H} {op : UInt8} (flow : Flow)
    (fetches : Fetches vm op)
    (ran : (exec sub (decode op)).run.run (charged op vm) = (.ok flow, after)) :
    (step sub).run.run vm = (.ok (decide (flow ≠ .halted)), resumed flow after) := by
  have stepped : Spec (step sub) vm fun result last =>
      result = .ok (decide (flow ≠ .halted)) ∧ last = resumed flow after := by
    refine Spec.get ?_
    rw [if_neg fetches.inside, fetches.picked, pure_bind]
    refine Spec.after fetches.paid (Spec.after ran ?_)
    cases flow with
    | advance => exact ⟨rfl, rfl⟩
    | jumped => exact ⟨rfl, rfl⟩
    | halted => exact ⟨rfl, rfl⟩
  exact Prod.ext stepped.1 stepped.2

theorem step_error {sub : Executor H} {vm after : Interpreter H} {op : UInt8} {fault : Fault}
    (fetches : Fetches vm op)
    (ran : (exec sub (decode op)).run.run (charged op vm) = (.error fault, after)) :
    (step sub).run.run vm = (.error fault, after) := by
  have stepped : Spec (step sub) vm fun result last => result = .error fault ∧ last = after := by
    refine Spec.get ?_
    rw [if_neg fetches.inside, fetches.picked, pure_bind]
    exact Spec.after fetches.paid (Spec.ended ran ⟨rfl, rfl⟩)
  exact Prod.ext stepped.1 stepped.2

theorem execLoop_step {sub : Executor H} {vm after : Interpreter H} (fuel : Nat)
    (ran : (step sub).run.run vm = (.ok true, after)) :
    (execLoop sub (fuel + 1)).run.run vm = (execLoop sub fuel).run.run after := by
  rw [execLoop, run_bind, ran]
  rfl

theorem execLoop_done {sub : Executor H} {vm after : Interpreter H} (fuel : Nat)
    (ran : (step sub).run.run vm = (.ok false, after)) :
    (execLoop sub (fuel + 1)).run.run vm = (.ok (), after) := by
  rw [execLoop, run_bind, ran]
  rfl

theorem execLoop_error {sub : Executor H} {vm after : Interpreter H} {fault : Fault} (fuel : Nat)
    (ran : (step sub).run.run vm = (.error fault, after)) :
    (execLoop sub (fuel + 1)).run.run vm = (.error fault, after) := by
  rw [execLoop, run_bind, ran]

/-! ### Runs -/

/-- The executor one level down. -/
def below (fuel : Nat) : Nat → Executor H
  | 0 => fun frame => (.error .fuel, frame.host)
  | levels + 1 => executor fuel levels

theorem executor_eq (fuel levels : Nat) :
    (executor fuel levels : Executor H) = run (below fuel levels) fuel := by
  cases levels with
  | zero => rfl
  | succ levels => rfl

/-- One turn of the loop that goes on. -/
def Steps (sub : Executor H) (vm after : Interpreter H) : Prop :=
  (step sub).run.run vm = (.ok true, after)

/-- The states of a frame. -/
def Reaches (sub : Executor H) : Interpreter H → Interpreter H → Prop :=
  Relation.ReflTransGen (Steps sub)

/-- The frames at or below a frame, each with the levels left below it. -/
inductive Within (fuel : Nat) : Nat → Frame H → Nat → Frame H → Prop where
  | self (levels : Nat) (frame : Frame H) : Within fuel levels frame levels frame
  | deeper {levels level : Nat} {frame middle inner : Frame H} {vm : Interpreter H} {op : UInt8}
      (reached : Reaches (below fuel (levels + 1)) (.new frame) vm) (fetches : Fetches vm op)
      (enters : Enters (charged op vm) (decode op) middle)
      (rest : Within fuel levels middle level inner) :
      Within fuel (levels + 1) frame level inner

/-- The instructions executed at or below a frame, each on the state that has paid for
it and with the executor for the frames it enters. -/
def Executes (fuel levels : Nat) (frame : Frame H) (sub : Executor H)
    (vm : Interpreter H) (op : Opcode) : Prop :=
  ∃ level inner state byte, Within fuel levels frame level inner ∧
    sub = below fuel level ∧ Reaches sub (.new inner) state ∧ Fetches state byte ∧
      vm = charged byte state ∧ op = decode byte

/-- A call or creation goes on within the frame, or its error ends the frame. -/
def Ends (Outcome : Frame H → Except Fault ExecOutcome × H → Prop)
    (Inv : Frame H → Interpreter H → Prop) (frame : Frame H) (result : Except Fault Unit)
    (after : Interpreter H) : Prop :=
  match result with
  | .ok _ => Inv frame after
  | .error fault => Outcome frame (.error fault, after.host)

/-- What a property of frames needs to hold of every run: an invariant of the states of
a frame, kept by each kind of instruction. -/
structure Contract (Outcome : Frame H → Except Fault ExecOutcome × H → Prop)
    (Inv : Frame H → Interpreter H → Prop)
    (Good : Executor H → Interpreter H → Opcode → Prop) : Prop where
  start : ∀ frame, Inv frame (.new frame)
  passes : ∀ {frame vm after}, Inv frame vm → Passes vm after → Inv frame after
  finishes : ∀ {frame vm}, Inv frame vm →
    Outcome frame (.ok ⟨true, vm.returnData, vm.gas, vm.logs⟩, vm.host)
  reverts : ∀ {frame vm}, Inv frame vm →
    Outcome frame (.ok ⟨false, vm.returnData, vm.gas, []⟩, vm.host)
  breaks : ∀ {frame vm fault after}, Inv frame vm → Breaks fault vm after →
    Outcome frame (.error fault, after.host)
  starves : ∀ {frame vm}, Inv frame vm → Outcome frame (.error .fuel, vm.host)
  stores : ∀ {frame vm} key value, Inv frame vm → vm.isStatic = false →
    Inv frame { vm with host := Host.sstore vm.host vm.ctx.address key value }
  logs : ∀ {frame vm} log, Inv frame vm → vm.isStatic = false →
    Inv frame { vm with logs := vm.logs ++ [log] }
  destroys : ∀ {frame vm} beneficiary, Inv frame vm → vm.isStatic = false →
    Inv frame { vm with
      host := (Host.transfer vm.host vm.ctx.address beneficiary
        (Host.balance vm.host vm.ctx.address)).2 }
  calls : ∀ {frame vm sub kind result after}, Inv frame vm → Good sub vm (.call kind) →
    (∀ inner, Enters vm (.call kind) inner → Outcome inner (sub inner)) →
    CallTurn sub kind vm result after → Ends Outcome Inv frame result after
  creates : ∀ {frame vm sub salted result after}, Inv frame vm → Good sub vm (.create salted) →
    (∀ inner, Enters vm (.create salted) inner → Outcome inner (sub inner)) →
    CreateTurn sub salted vm result after → Ends Outcome Inv frame result after

/-- No frame ends in the error of a revert. -/
def Calm (sub : Executor H) : Prop := ∀ frame, (sub frame).1 ≠ .error (.vm .reverted)

theorem CallTurn.fault {sub : Executor H} (calm : Calm sub) {kind : CallKind}
    {vm after : Interpreter H} {fault : Fault}
    (turn : CallTurn sub kind vm (.error fault) after) : fault ≠ .vm .reverted := by
  cases turn with
  | broken broke => exact broke.cause
  | settled taken resolved settles => exact settles.led.cause
  | costly taken solvent broke => exact broke.cause
  | aborted taken enters ran left =>
      intro reverted
      have ended := congrArg Prod.fst ran
      rw [reverted] at ended
      exact calm _ ended
  | exhausted taken enters ran broke => exact broke.cause
  | returned taken enters ran settles => exact settles.led.cause

omit [Secp256k1] [Sha256] [Ripemd160] [Bn254] in
theorem CreateTurn.fault {sub : Executor H} (calm : Calm sub) {salted : Bool}
    {vm after : Interpreter H} {fault : Fault}
    (turn : CreateTurn sub salted vm (.error fault) after) : fault ≠ .vm .reverted := by
  cases turn with
  | broken broke => exact broke.cause
  | deep taken limit settles => exact settles.led.cause
  | poor taken short settles => exact settles.led.cause
  | aborted taken enters ran left =>
      intro reverted
      have ended := congrArg Prod.fst ran
      rw [reverted] at ended
      exact calm _ ended
  | exhausted taken enters ran broke => exact broke.cause
  | deployed taken enters ran deploys affordable settles => exact settles.led.cause
  | discarded taken enters ran fails settles => exact settles.led.cause

theorem run_calm (sub : Executor H) (fuel : Nat) : Calm (run sub fuel) := by
  intro frame
  unfold run
  split
  · nofun
  · nofun
  · rename_i fault vm other ended
    intro same
    exact other (Except.error.inj same)

theorem below_calm (fuel levels : Nat) : Calm (below fuel levels : Executor H) := by
  cases levels with
  | zero => intro frame; nofun
  | succ levels =>
      rw [show (below fuel (levels + 1) : Executor H) = executor fuel levels from rfl, executor_eq]
      exact run_calm _ fuel

/-- How the loop is left. -/
def closed (result : Except Fault Unit) (vm : Interpreter H) : Except Fault ExecOutcome × H :=
  match result with
  | .ok _ => (.ok ⟨true, vm.returnData, vm.gas, vm.logs⟩, vm.host)
  | .error (.vm .reverted) => (.ok ⟨false, vm.returnData, vm.gas, []⟩, vm.host)
  | .error fault => (.error fault, vm.host)

omit [Host H] [Keccak256] [Secp256k1] [Sha256] [Ripemd160] [Bn254] in
theorem closed_error {fault : Fault} (other : fault ≠ .vm .reverted) (vm : Interpreter H) :
    closed (.error fault) vm = (.error fault, vm.host) := by
  unfold closed
  split
  · rename_i same
    cases same
  · rename_i same
    exact absurd (Except.error.inj same) other
  · rename_i same
    rw [Except.error.inj same]

theorem run_eq (sub : Executor H) (fuel : Nat) (frame : Frame H) :
    run sub fuel frame = closed ((execLoop sub fuel).run.run (.new frame)).1
      ((execLoop sub fuel).run.run (.new frame)).2 := by
  unfold run
  split
  · rename_i ended
    rw [ended]
    rfl
  · rename_i ended
    rw [ended]
    rfl
  · rename_i fault vm other ended
    rw [ended, closed_error other]

section Rule

variable {Outcome : Frame H → Except Fault ExecOutcome × H → Prop}
variable {Inv : Frame H → Interpreter H → Prop}
variable {Good : Executor H → Interpreter H → Opcode → Prop}

theorem Contract.step (contract : Contract Outcome Inv Good) {sub : Executor H} (calm : Calm sub)
    {frame : Frame H} {vm : Interpreter H} (inv : Inv frame vm)
    (good : ∀ op, Fetches vm op → Good sub (charged op vm) (decode op))
    (inner : ∀ op, Fetches vm op → ∀ inner, Enters (charged op vm) (decode op) inner →
      Outcome inner (sub inner)) :
    Spec (Evm.step sub) vm fun result after =>
      match result with
      | .ok true => Inv frame after
      | .ok false => Outcome frame (closed (.ok ()) after)
      | .error fault => Outcome frame (closed (.error fault) after) := by
  refine (step_spec sub vm).mono fun running last turn => ?_
  cases turn with
  | finished beyond => exact contract.finishes inv
  | @unpaid op reads short =>
      have broke : Breaks (.vm .outOfGas) vm (charged op vm) :=
        ⟨{ Local.refl vm with gas := le_saturatingAdd _ _ }, nofun, nofun⟩
      exact contract.breaks inv broke
  | @turned op result running after pc fetches turn goes =>
      have started := contract.passes inv fetches.passes
      have goodHere := good op fetches
      have innerHere := inner op fetches
      have moved {vm : Interpreter H} (inv : Inv frame vm) : Inv frame { vm with pc := pc } :=
        contract.passes inv (Passes.moved vm pc)
      generalize decode op = opcode at turn goodHere innerHere
      generalize charged op vm = vm at turn goodHere innerHere started
      subst goes
      cases turn with
      | inside led =>
          cases result with
          | ok flow =>
              have kept := moved (contract.passes started led)
              cases flow with
              | advance => exact kept
              | jumped => exact kept
              | halted => exact contract.finishes kept
          | error fault =>
              change Outcome frame (closed (.error fault) _)
              have broke : Breaks fault vm after := led
              rw [closed_error broke.cause]
              have ended := contract.breaks started broke
              exact ended
      | reverted passed => exact contract.reverts (moved (contract.passes started passed))
      | stored free passed =>
          exact moved (contract.passes (contract.stores _ _ started free) passed)
      | logged free passed => exact moved (contract.passes (contract.logs _ started free) passed)
      | destroyed free passed =>
          exact contract.finishes
            (moved (contract.passes (contract.destroys _ started free) passed))
      | @called kind result _ _ turn goes =>
          subst goes
          have ended := contract.calls started goodHere innerHere turn
          cases result with
          | ok done => exact moved ended
          | error fault =>
              change Outcome frame (closed (.error fault) _)
              rw [closed_error (turn.fault calm)]
              exact ended
      | @created salted result _ _ turn goes =>
          subst goes
          have ended := contract.creates started goodHere innerHere turn
          cases result with
          | ok done => exact moved ended
          | error fault =>
              change Outcome frame (closed (.error fault) _)
              rw [closed_error (turn.fault calm)]
              exact ended

/-- From a state on, to the end of the loop. -/
theorem Contract.loop (contract : Contract Outcome Inv Good) {sub : Executor H} (calm : Calm sub)
    {frame : Frame H} (fuel : Nat) {vm : Interpreter H} (inv : Inv frame vm)
    (good : ∀ state, Reaches sub vm state → ∀ op, Fetches state op →
      Good sub (charged op state) (decode op))
    (inner : ∀ state, Reaches sub vm state → ∀ op, Fetches state op →
      ∀ inner, Enters (charged op state) (decode op) inner → Outcome inner (sub inner)) :
    Spec (execLoop sub fuel) vm fun result after => Outcome frame (closed result after) := by
  induction fuel generalizing vm with
  | zero => exact contract.starves inv
  | succ fuel ih =>
      have stepped := contract.step calm inv (good vm .refl) (inner vm .refl)
      unfold execLoop
      refine Spec.chain ?_ ?_
      · intro running after ran
        have ended := stepped.ran ran
        cases running with
        | true =>
            have further {state : Interpreter H} (reached : Reaches sub after state) :
                Reaches sub vm state := .head ran reached
            exact ih ended (fun state reached => good state (further reached))
              fun state reached => inner state (further reached)
        | false => exact ended
      · intro fault after ran
        exact stepped.ran ran

theorem Contract.holds (contract : Contract Outcome Inv Good) (fuel levels : Nat)
    (frame : Frame H)
    (good : ∀ sub vm op, Executes fuel levels frame sub vm op → Good sub vm op) :
    Outcome frame (executor fuel levels frame) := by
  have ran (level : Nat) (root : Frame H)
      (every : ∀ sub vm op, Executes fuel level root sub vm op → Good sub vm op)
      (inner : ∀ vm, Reaches (below fuel level) (.new root) vm → ∀ op, Fetches vm op →
        ∀ inner, Enters (charged op vm) (decode op) inner →
          Outcome inner (below fuel level inner)) :
      Outcome root (executor fuel level root) := by
    rw [executor_eq, run_eq]
    refine contract.loop (below_calm fuel level) fuel (contract.start root) ?_ inner
    intro vm reached op fetches
    exact every _ _ _ ⟨level, root, vm, op, .self level root, rfl, reached, fetches, rfl, rfl⟩
  induction levels generalizing frame with
  | zero =>
      refine ran 0 frame good fun vm reached op fetches inner enters => ?_
      exact contract.starves (contract.start inner)
  | succ levels ih =>
      refine ran (levels + 1) frame good fun vm reached op fetches inner enters => ?_
      refine ih inner fun sub state instruction executes => good sub state instruction ?_
      obtain ⟨level, innermost, last, byte, within, rest⟩ := executes
      exact ⟨level, innermost, last, byte, .deeper reached fetches enters within, rest⟩

end Rule

end Evm

end Veilux
