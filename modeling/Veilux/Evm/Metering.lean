/-
Metering.  Every turn of the loop costs gas, and no frame is entered at the depth limit,
so a frame ends within as many turns as it has gas; stack, memory and depth keep their
bounds in every state.  Gas saturates: at the largest limit it can never run out.
-/

import Veilux.Evm.Frames
import Veilux.Evm.MemHost

namespace Veilux

namespace Evm

open Effects

/-! ### Gas -/

theorem baseGas_positive (op : UInt8) : 1 ≤ (baseGas op).toNat := by
  unfold baseGas
  split_ifs <;> decide

theorem toNat_max (left right : UInt64) :
    (max left right).toNat = max left.toNat right.toNat := by
  rw [show max left right = if left ≤ right then right else left from rfl]
  by_cases order : left ≤ right
  · rw [if_pos order]
    rw [UInt64.le_iff_toNat_le] at order
    omega
  · rw [if_neg order]
    rw [UInt64.le_iff_toNat_le] at order
    omega

theorem toNat_min (left right : UInt64) :
    (min left right).toNat = min left.toNat right.toNat := by
  rw [show min left right = if left ≤ right then left else right from rfl]
  by_cases order : left ≤ right
  · rw [if_pos order]
    rw [UInt64.le_iff_toNat_le] at order
    omega
  · rw [if_neg order]
    rw [UInt64.le_iff_toNat_le] at order
    omega

theorem toNat_saturatingSub (left right : UInt64) :
    (saturatingSub left right).toNat = left.toNat - right.toNat := by
  unfold saturatingSub
  rw [UInt64.toNat_ofNat']
  have bound := left.toNat_lt
  omega

/-- Below the largest limit every instruction uses up gas. -/
theorem Fetches.grows {H : Type} {vm : Interpreter H} {op : UInt8} (fetches : Fetches vm op)
    (small : vm.gasLimit.toNat < 2 ^ 64 - 1) :
    vm.gas.toNat + 1 ≤ (saturatingAdd vm.gas (baseGas op)).toNat := by
  have affordable := fetches.affordable
  rw [UInt64.lt_iff_toNat_lt, toNat_saturatingAdd] at affordable
  have cost := baseGas_positive op
  rw [toNat_saturatingAdd]
  omega

/-! ### What a turn does inside its frame -/

variable {H : Type} [Host H] [Keccak256] [Secp256k1] [Sha256] [Ripemd160] [Bn254]

/-- The machine with another host and other logs. -/
def rehosted (vm : Interpreter H) (host : H) (logs : List Log) : Interpreter H :=
  { vm with host := host, logs := logs }

/-- An instruction that went through, apart from host and logs. -/
def Advances (vm after : Interpreter H) : Prop :=
  ∃ host logs, Passes (rehosted vm host logs) after

/-- The state behind an instruction, whether it went through or not. -/
def Stays (vm after : Interpreter H) : Prop :=
  ∃ host logs, Local (rehosted vm host logs) after

section Turns

variable {sub : Executor H} {vm after : Interpreter H}

omit [Keccak256] [Secp256k1] [Sha256] [Ripemd160] [Bn254] [Host H] in
theorem Settles.advances {host : H} {logs : List Log} {value : U256}
    (settles : Settles vm host logs value (.ok ()) after) : Advances vm after :=
  ⟨host, logs, settles.led⟩

omit [Keccak256] [Secp256k1] [Sha256] [Ripemd160] [Bn254] [Host H] in
theorem Settles.stays {host : H} {logs : List Log} {value : U256} {result : Except Fault Unit}
    (settles : Settles vm host logs value result after) : Stays vm after := by
  refine ⟨host, logs, ?_⟩
  have led := settles.led
  cases result with
  | ok done => exact led.toLocal
  | error fault => exact led.toLocal

theorem CallTurn.advances {kind : CallKind} (turn : CallTurn sub kind vm (.ok ()) after) :
    Advances vm after := by
  cases turn with
  | settled taken resolved settles => exact settles.advances
  | returned taken enters ran settles => exact settles.advances

theorem CallTurn.stays {kind : CallKind} {result : Except Fault Unit}
    (turn : CallTurn sub kind vm result after) : Stays vm after := by
  cases turn with
  | broken broke => exact ⟨vm.host, vm.logs, broke.toLocal⟩
  | settled taken resolved settles => exact settles.stays
  | costly taken solvent broke => exact ⟨_, vm.logs, broke.toLocal⟩
  | @aborted _ _ _ _ host taken enters ran left => exact ⟨host, vm.logs, left⟩
  | @exhausted _ _ _ _ host taken enters ran broke => exact ⟨host, vm.logs, broke.toLocal⟩
  | returned taken enters ran settles => exact settles.stays

omit [Secp256k1] [Sha256] [Ripemd160] [Bn254] in
theorem CreateTurn.advances {salted : Bool} (turn : CreateTurn sub salted vm (.ok ()) after) :
    Advances vm after := by
  cases turn with
  | deep taken limit settles => exact settles.advances
  | poor taken short settles => exact settles.advances
  | deployed taken enters ran deploys affordable settles => exact settles.advances
  | discarded taken enters ran fails settles => exact settles.advances

omit [Secp256k1] [Sha256] [Ripemd160] [Bn254] in
theorem CreateTurn.stays {salted : Bool} {result : Except Fault Unit}
    (turn : CreateTurn sub salted vm result after) : Stays vm after := by
  cases turn with
  | broken broke => exact ⟨vm.host, vm.logs, broke.toLocal⟩
  | deep taken limit settles => exact settles.stays
  | poor taken short settles => exact settles.stays
  | @aborted _ _ _ _ host taken enters ran left => exact ⟨host, vm.logs, left⟩
  | @exhausted _ _ _ _ host taken enters ran broke => exact ⟨host, vm.logs, broke.toLocal⟩
  | deployed taken enters ran deploys affordable settles => exact settles.stays
  | discarded taken enters ran fails settles => exact settles.stays

theorem Turn.advances {op : Opcode} {flow : Flow} (turn : Turn sub vm op (.ok flow) after) :
    Advances vm after := by
  cases turn with
  | inside led => exact ⟨vm.host, vm.logs, led⟩
  | stored free passed => exact ⟨_, vm.logs, passed⟩
  | logged free passed => exact ⟨vm.host, _, passed⟩
  | destroyed free passed => exact ⟨_, vm.logs, passed⟩
  | @called _ result _ _ turn goes =>
      cases result with
      | ok done => exact turn.advances
      | error fault => cases goes
  | @created _ result _ _ turn goes =>
      cases result with
      | ok done => exact turn.advances
      | error fault => cases goes

theorem Turn.stays {op : Opcode} {result : Except Fault Flow}
    (turn : Turn sub vm op result after) : Stays vm after := by
  cases turn with
  | inside led =>
      refine ⟨vm.host, vm.logs, ?_⟩
      cases result with
      | ok flow => exact led.toLocal
      | error fault => exact led.toLocal
  | reverted passed => exact ⟨vm.host, vm.logs, passed.toLocal⟩
  | stored free passed => exact ⟨_, vm.logs, passed.toLocal⟩
  | logged free passed => exact ⟨vm.host, _, passed.toLocal⟩
  | destroyed free passed => exact ⟨_, vm.logs, passed.toLocal⟩
  | called turn goes => exact turn.stays
  | created turn goes => exact turn.stays

theorem CallTurn.starved {kind : CallKind} (turn : CallTurn sub kind vm (.error .fuel) after) :
    ∃ inner, Enters vm (.call kind) inner ∧ (sub inner).1 = .error .fuel := by
  cases turn with
  | broken broke => exact absurd rfl broke.fuelled
  | settled taken resolved settles => exact absurd rfl settles.led.fuelled
  | aborted taken enters ran left => exact ⟨_, .call taken enters, congrArg Prod.fst ran⟩
  | returned taken enters ran settles => exact absurd rfl settles.led.fuelled

omit [Secp256k1] [Sha256] [Ripemd160] [Bn254] in
theorem CreateTurn.starved {salted : Bool} (turn : CreateTurn sub salted vm (.error .fuel) after) :
    ∃ inner, Enters vm (.create salted) inner ∧ (sub inner).1 = .error .fuel := by
  cases turn with
  | broken broke => exact absurd rfl broke.fuelled
  | deep taken limit settles => exact absurd rfl settles.led.fuelled
  | poor taken short settles => exact absurd rfl settles.led.fuelled
  | aborted taken enters ran left => exact ⟨_, .create taken enters, congrArg Prod.fst ran⟩
  | deployed taken enters ran deploys affordable settles => exact absurd rfl settles.led.fuelled
  | discarded taken enters ran fails settles => exact absurd rfl settles.led.fuelled

/-- A turn is out of fuel only when a frame it entered is. -/
theorem Turn.starved {op : Opcode} (turn : Turn sub vm op (.error .fuel) after) :
    ∃ inner, Enters vm op inner ∧ (sub inner).1 = .error .fuel := by
  cases turn with
  | inside led => exact absurd rfl led.fuelled
  | @called _ result _ _ turn goes =>
      cases result with
      | ok done => cases goes
      | error fault =>
          cases goes
          exact turn.starved
  | @created _ result _ _ turn goes =>
      cases result with
      | ok done => cases goes
      | error fault =>
          cases goes
          exact turn.starved

theorem StepTurn.starved (turn : StepTurn sub vm (.error .fuel) after) :
    ∃ op inner, Fetches vm op ∧ Enters (charged op vm) (decode op) inner ∧
      (sub inner).1 = .error .fuel := by
  cases turn with
  | @turned op result _ _ _ fetches turn goes =>
      cases result with
      | ok flow => cases goes
      | error fault =>
          cases goes
          obtain ⟨inner, enters, starved⟩ := turn.starved
          exact ⟨op, inner, fetches, enters, starved⟩

omit [Host H] [Keccak256] [Secp256k1] [Sha256] [Ripemd160] [Bn254] in
theorem Stays.moved (stays : Stays vm after) (pc : Nat) : Stays vm { after with pc := pc } := by
  obtain ⟨host, logs, kept⟩ := stays
  exact ⟨host, logs, kept.trans (Passes.moved after pc).toLocal⟩

theorem StepTurn.stays {result : Except Fault Bool} (turn : StepTurn sub vm result after) :
    Stays vm after := by
  cases turn with
  | finished beyond => exact ⟨vm.host, vm.logs, Local.refl vm⟩
  | unpaid reads short =>
      exact ⟨vm.host, vm.logs, { Local.refl vm with gas := le_saturatingAdd _ _ }⟩
  | @turned op _ _ after pc fetches turn goes =>
      obtain ⟨host, logs, kept⟩ := turn.stays.moved pc
      have paid : Local (rehosted vm host logs) (rehosted (charged op vm) host logs) :=
        (fetches.passes.elsewhere host logs).toLocal
      exact ⟨host, logs, paid.trans kept⟩

/-- A turn that went through has paid for its instruction. -/
theorem StepTurn.paid {running : Bool} (turn : StepTurn sub vm (.ok running) after) :
    (running = false ∧ after = vm) ∨ ∃ op, Fetches vm op ∧ Advances (charged op vm) after := by
  cases turn with
  | finished beyond => exact .inl ⟨rfl, rfl⟩
  | @turned op result _ after pc fetches turn goes =>
      cases result with
      | error fault => cases goes
      | ok flow =>
          obtain ⟨host, logs, passed⟩ := turn.advances
          exact .inr ⟨op, fetches, host, logs, passing.trans passed (Passes.moved after pc)⟩

end Turns

omit [Secp256k1] [Sha256] [Ripemd160] [Bn254] in
/-- A frame has at most the gas limit of the frame that entered it, or one. -/
theorem Enters.bounds {vm : Interpreter H} {op : Opcode} {inner : Frame H}
    (enters : Enters vm op inner) :
    vm.depth < maxCallDepth ∧ inner.depth = vm.depth + 1 ∧
      inner.ctx.gasLimit.toNat ≤ max vm.gasLimit.toNat 1 := by
  cases enters with
  | @call kind args mid taken enters =>
      have passed := (handling.callArgs kind).ran_ok taken
      have shallow := enters.shallow
      rw [passed.depth] at shallow
      refine ⟨shallow, congrArg (· + 1) passed.depth, ?_⟩
      change (max (min (saturatingSub mid.gasLimit mid.gas) _) 1).toNat ≤ _
      rw [toNat_max, toNat_min, toNat_saturatingSub, passed.gasLimit]
      change max _ 1 ≤ _
      omega
  | @create salted args mid taken enters =>
      have passed := (handling.createArgs salted).ran_ok taken
      have shallow := enters.shallow
      rw [passed.depth] at shallow
      refine ⟨shallow, congrArg (· + 1) passed.depth, ?_⟩
      change (max (saturatingSub mid.gasLimit mid.gas) 1).toNat ≤ _
      rw [toNat_max, toNat_saturatingSub, passed.gasLimit]
      change max _ 1 ≤ _
      omega

/-- The limits a frame was given, and what it has used of its gas. -/
structure Budget (frame : Frame H) (vm : Interpreter H) : Prop where
  limit : vm.gasLimit = frame.ctx.gasLimit
  depth : vm.depth = frame.depth
  within : vm.gas.toNat ≤ vm.gasLimit.toNat

omit [Host H] [Keccak256] [Secp256k1] [Sha256] [Ripemd160] [Bn254] in
theorem budget_new (frame : Frame H) : Budget frame (.new frame) := ⟨rfl, rfl, Nat.zero_le _⟩

omit [Host H] [Keccak256] [Secp256k1] [Sha256] [Ripemd160] [Bn254] in
/-- An instruction that goes through leaves more gas used than before, within the limit. -/
theorem Budget.advances {frame : Frame H} {vm after : Interpreter H} (budget : Budget frame vm)
    {op : UInt8} (fetches : Fetches vm op) (advances : Advances (charged op vm) after) :
    Budget frame after ∧ (saturatingAdd vm.gas (baseGas op)).toNat ≤ after.gas.toNat := by
  obtain ⟨host, logs, passed⟩ := advances
  have paid := fetches.passes.budget budget.within
  refine ⟨⟨?_, ?_, ?_⟩, passed.gas⟩
  · exact passed.gasLimit.trans budget.limit
  · exact passed.depth.trans budget.depth
  · exact passed.budget paid

/-- The loop needs no more turns than there is gas left, and one more. -/
theorem loop_fed {frame : Frame H} {sub : Executor H}
    (small : frame.ctx.gasLimit.toNat < 2 ^ 64 - 1)
    (fed : ∀ vm op inner, Budget frame vm → Fetches vm op →
      Enters (charged op vm) (decode op) inner → (sub inner).1 ≠ .error .fuel)
    (fuel : Nat) {vm : Interpreter H} (budget : Budget frame vm)
    (enough : vm.gasLimit.toNat - vm.gas.toNat < fuel) :
    ((execLoop sub fuel).run.run vm).1 ≠ .error .fuel := by
  induction fuel generalizing vm with
  | zero => omega
  | succ fuel ih =>
      have looped : Spec (execLoop sub (fuel + 1)) vm fun result _ => result ≠ .error .fuel := by
        unfold execLoop
        refine Spec.chain ?_ ?_
        · intro running after ran
          cases running with
          | false =>
              intro impossible
              cases impossible
          | true =>
              have turn := (step_spec sub vm).ran ran
              rcases turn.paid with ⟨impossible, -⟩ | ⟨op, fetches, advances⟩
              · cases impossible
              · obtain ⟨next, spent⟩ := budget.advances fetches advances
                have grown := fetches.grows (budget.limit ▸ small)
                refine ih next ?_
                have within := next.within
                rw [next.limit, ← budget.limit] at within ⊢
                omega
        · intro fault after ran starved
          have turn := (step_spec sub vm).ran ran
          rw [Except.error.inj starved] at turn
          obtain ⟨op, inner, fetches, enters, ended⟩ := turn.starved
          exact fed vm op inner budget fetches enters ended
      exact looped

omit [Host H] [Keccak256] [Secp256k1] [Sha256] [Ripemd160] [Bn254] in
theorem closed_starved {result : Except Fault Unit} {vm : Interpreter H}
    (starved : (closed result vm).1 = .error .fuel) : result = .error .fuel := by
  cases result with
  | ok done => cases starved
  | error fault =>
      by_cases reverted : fault = .vm .reverted
      · rw [reverted] at starved
        cases starved
      · rw [closed_error reverted] at starved
        rw [Except.error.inj starved]

/-- With as much fuel as gas, and a level for each depth that is left, no frame is out of
fuel. -/
theorem executor_fed (fuel levels : Nat) (frame : Frame H)
    (small : frame.ctx.gasLimit.toNat < 2 ^ 64 - 1) (deep : frame.levels ≤ levels)
    (enough : max frame.ctx.gasLimit.toNat 1 < fuel) :
    (executor fuel levels frame).1 ≠ .error .fuel := by
  have ran (level : Nat) (root : Frame H) (small : root.ctx.gasLimit.toNat < 2 ^ 64 - 1)
      (enough : max root.ctx.gasLimit.toNat 1 < fuel)
      (fed : ∀ vm op inner, Budget root vm → Fetches vm op →
        Enters (charged op vm) (decode op) inner → (below fuel level inner).1 ≠ .error .fuel) :
      (executor fuel level root).1 ≠ .error .fuel := by
    rw [executor_eq, run_eq]
    intro starved
    refine loop_fed small fed fuel (budget_new root) ?_ (closed_starved starved)
    change root.ctx.gasLimit.toNat - 0 < fuel
    omega
  induction levels generalizing frame with
  | zero =>
      refine ran 0 frame small enough fun vm op inner budget fetches enters => ?_
      -- At the limit nothing is entered.
      have shallow := enters.bounds.1
      change vm.depth < maxCallDepth at shallow
      rw [budget.depth, UInt32.lt_iff_toNat_lt] at shallow
      unfold Frame.levels at deep
      omega
  | succ levels ih =>
      refine ran (levels + 1) frame small enough fun vm op inner budget fetches enters => ?_
      obtain ⟨shallow, depth, gas⟩ := enters.bounds
      change vm.depth < maxCallDepth at shallow
      change inner.depth = vm.depth + 1 at depth
      change inner.ctx.gasLimit.toNat ≤ max vm.gasLimit.toNat 1 at gas
      rw [budget.limit] at gas
      rw [budget.depth] at shallow depth
      refine ih inner (by omega) ?_ (by omega)
      rw [UInt32.lt_iff_toNat_lt] at shallow
      unfold Frame.levels at deep ⊢
      rw [depth, UInt32.toNat_add]
      have bound : maxCallDepth.toNat = 64 := rfl
      have one : (1 : UInt32).toNat = 1 := rfl
      omega

/-- What a frame has used is within its limit. -/
def Metered (frame : Frame H) (left : Except Fault ExecOutcome × H) : Prop :=
  ∀ outcome, left.1 = .ok outcome → outcome.gasUsed.toNat ≤ frame.ctx.gasLimit.toNat

omit [Host H] [Keccak256] [Secp256k1] [Sha256] [Ripemd160] [Bn254] in
theorem Budget.passes {frame : Frame H} {vm after : Interpreter H} (budget : Budget frame vm)
    {host : H} {logs : List Log} (passed : Passes (rehosted vm host logs) after) :
    Budget frame after :=
  ⟨passed.gasLimit.trans budget.limit, passed.depth.trans budget.depth,
    passed.budget budget.within⟩

omit [Host H] [Keccak256] [Secp256k1] [Sha256] [Ripemd160] [Bn254] in
theorem Budget.used {frame : Frame H} {vm : Interpreter H} (budget : Budget frame vm) :
    vm.gas.toNat ≤ frame.ctx.gasLimit.toNat := by
  rw [← budget.limit]
  exact budget.within

theorem metering : Contract (Metered (H := H)) Budget fun _ _ _ => True where
  start := budget_new
  passes budget passed := budget.passes passed
  finishes budget outcome same := by
    rw [← Except.ok.inj same]
    exact budget.used
  reverts budget outcome same := by
    rw [← Except.ok.inj same]
    exact budget.used
  breaks _ _ := nofun
  starves _ := nofun
  stores _ _ budget _ := ⟨budget.limit, budget.depth, budget.within⟩
  logs _ budget _ := ⟨budget.limit, budget.depth, budget.within⟩
  destroys _ budget _ := ⟨budget.limit, budget.depth, budget.within⟩
  calls := by
    intro frame vm sub kind result after budget _ _ turn
    cases result with
    | ok done =>
        obtain ⟨host, logs, passed⟩ := turn.advances
        exact budget.passes passed
    | error fault => exact nofun
  creates := by
    intro frame vm sub salted result after budget _ _ turn
    cases result with
    | ok done =>
        obtain ⟨host, logs, passed⟩ := turn.advances
        exact budget.passes passed
    | error fault => exact nofun

/-! ### Bounds in every state -/

/-- A state between two turns, or the one a turn ends in. -/
def Visits (sub : Executor H) (frame : Frame H) (vm : Interpreter H) : Prop :=
  ∃ mid, Reaches sub (.new frame) mid ∧ (vm = mid ∨ ∃ result, (step sub).run.run mid = (result, vm))

structure Bounded (frame : Frame H) (vm : Interpreter H) : Prop where
  stack : vm.stack.length ≤ maxStack
  memory : vm.memory.length ≤ maxMemory
  depth : vm.depth = frame.depth

omit [Host H] [Keccak256] [Secp256k1] [Sha256] [Ripemd160] [Bn254] in
theorem Bounded.stays {frame : Frame H} {vm after : Interpreter H} (bounded : Bounded frame vm)
    (stays : Stays vm after) : Bounded frame after := by
  obtain ⟨host, logs, kept⟩ := stays
  exact ⟨kept.stack bounded.stack, kept.memory bounded.memory, kept.depth.trans bounded.depth⟩

theorem Reaches.bounded {sub : Executor H} {frame : Frame H} {vm : Interpreter H}
    (reached : Reaches sub (.new frame) vm) : Bounded frame vm := by
  induction reached with
  | refl => exact ⟨Nat.zero_le _, Nat.zero_le _, rfl⟩
  | tail _ stepped ih => exact ih.stays ((step_spec sub _).ran stepped).stays

theorem Visits.bounded {sub : Executor H} {frame : Frame H} {vm : Interpreter H}
    (visits : Visits sub frame vm) : Bounded frame vm := by
  obtain ⟨mid, reached, rfl | ⟨result, stepped⟩⟩ := visits
  · exact reached.bounded
  · exact reached.bounded.stays ((step_spec sub mid).ran stepped).stays

theorem Within.depth {fuel levels level : Nat} {root inner : Frame H}
    (within : Within fuel levels root level inner) (deep : root.depth ≤ maxCallDepth) :
    inner.depth ≤ maxCallDepth := by
  induction within with
  | self => exact deep
  | deeper reached fetches enters rest ih =>
      apply ih
      obtain ⟨shallow, depth, -⟩ := enters.bounds
      rw [depth]
      rw [UInt32.lt_iff_toNat_lt] at shallow
      rw [UInt32.le_iff_toNat_le, UInt32.toNat_add]
      have bound : maxCallDepth.toNat = 64 := rfl
      have one : (1 : UInt32).toNat = 1 := rfl
      omega

/-- A frame ends, has used no more gas than its limit when it returns, and keeps the
bounds in every state; so do all frames below it. -/
structure WellMetered (frame : Frame H) : Prop where
  ends : ∃ enough, ∀ fuel, enough ≤ fuel → (executeFrameWith fuel frame).1 ≠ .error .fuel
  gas : ∀ fuel level inner outcome, Within fuel frame.levels frame level inner →
    (executor fuel level inner).1 = .ok outcome →
      outcome.gasUsed.toNat ≤ inner.ctx.gasLimit.toNat
  bounds : ∀ fuel level inner vm, Within fuel frame.levels frame level inner →
    Visits (below fuel level) inner vm →
      vm.stack.length ≤ maxStack ∧ vm.memory.length ≤ maxMemory ∧ vm.depth ≤ maxCallDepth

theorem wellMetered_of_small {frame : Frame H} (deep : frame.depth ≤ maxCallDepth)
    (small : frame.ctx.gasLimit.toNat < 2 ^ 64 - 1) : WellMetered frame where
  ends := by
    refine ⟨max frame.ctx.gasLimit.toNat 1 + 1, fun fuel enough => ?_⟩
    exact executor_fed fuel frame.levels frame small le_rfl enough
  gas fuel level inner outcome _ returned :=
    metering.holds fuel level inner (fun _ _ _ _ => trivial) outcome returned
  bounds fuel level inner vm within visits := by
    have bounded := visits.bounded
    refine ⟨bounded.stack, bounded.memory, ?_⟩
    rw [bounded.depth]
    exact within.depth deep

/-! ### The interpreter of the node -/

/-- `execute_frame` with as much fuel as the metering asks for.  A panic leaves the caller
with no outcome, as an error does. -/
@[reducible] def interpreter : Evm where
  executeFrame code ctx host depth isStatic :=
    match executeFrameWith (max ctx.gasLimit.toNat 1 + 1) ⟨code, ctx, host, depth, isStatic⟩ with
    | (.ok outcome, host) => (.ok outcome, host)
    | (.error (.vm error), host) => (.error error, host)
    | (.error _, host) => (.error .callDepth, host)

/-! ### A loop without end -/

/-- `JUMPDEST; PUSH1 0; JUMP`. -/
def spinCode : List UInt8 := [0x5b, 0x60, 0x00, 0x56]

def spinFrame (ctx : CallContext) (host : H) (depth : UInt32) (isStatic : Bool) : Frame H :=
  { code := spinCode
    ctx := ctx
    host := host
    depth := depth
    isStatic := isStatic }

/-- The loop before its first instruction. -/
structure Spinning (vm : Interpreter H) : Prop where
  code : vm.code = spinCode
  pc : vm.pc = 0
  stack : vm.stack = []
  limit : vm.gasLimit.toNat = 2 ^ 64 - 1

omit [Host H] [Keccak256] [Secp256k1] [Sha256] [Ripemd160] [Bn254] in
theorem fetches_of_unlimited {vm : Interpreter H} {op : UInt8} (reads : vm.code[vm.pc]? = some op)
    (limit : vm.gasLimit.toNat = 2 ^ 64 - 1) : Fetches vm op := by
  refine ⟨reads, ?_⟩
  rw [UInt64.lt_iff_toNat_lt]
  have bound := (saturatingAdd vm.gas (baseGas op)).toNat_lt
  omega

theorem Spinning.rounds (sub : Executor H) {vm : Interpreter H} (spinning : Spinning vm) :
    ∃ first second third, Steps sub vm first ∧ Steps sub first second ∧ Steps sub second third ∧
      Spinning third := by
  obtain ⟨code, pc, stack, limit⟩ := spinning
  obtain ⟨_, _, memory, _, gas, gasLimit, ctx, host, logs, returnData, retBuffer, depth,
    isStatic⟩ := vm
  cases code
  cases pc
  cases stack
  let spin (pc : Nat) (stack : List U256) (gas : UInt64) : Interpreter H :=
    { code := spinCode, stack := stack, memory := memory, pc := pc, gas := gas
      gasLimit := gasLimit, ctx := ctx, host := host, logs := logs, returnData := returnData
      retBuffer := retBuffer, depth := depth, isStatic := isStatic }
  have fetch (pc : Nat) (stack : List U256) (gas : UInt64) (op : UInt8)
      (reads : spinCode[pc]? = some op) : Fetches (spin pc stack gas) op :=
    fetches_of_unlimited reads limit
  have one : Steps sub (spin 0 [] gas) (spin 1 [] (saturatingAdd gas (baseGas 0x5b))) :=
    step_run .advance (fetch 0 [] gas 0x5b rfl) rfl
  have two (gas : UInt64) : Steps sub (spin 1 [] gas)
      (spin 3 [.fromBigEndian [0]] (saturatingAdd gas (baseGas 0x60))) :=
    step_run .jumped (fetch 1 [] gas 0x60 rfl) rfl
  have three (gas : UInt64) : Steps sub (spin 3 [.fromBigEndian [0]] gas)
      (spin 0 [] (saturatingAdd gas (baseGas 0x56))) :=
    step_run .jumped (fetch 3 _ gas 0x56 rfl) rfl
  exact ⟨_, _, _, one, two _, three _, rfl, rfl, rfl, limit⟩

theorem Spinning.endless {sub : Executor H} (fuel : Nat) {vm : Interpreter H}
    (spinning : Spinning vm) : ((execLoop sub fuel).run.run vm).1 = .error .fuel := by
  induction fuel using Nat.strongRecOn generalizing vm with
  | ind fuel ih =>
      obtain ⟨first, second, third, one, two, three, again⟩ := spinning.rounds sub
      match fuel with
      | 0 => rfl
      | 1 => rw [execLoop_step 0 one]; rfl
      | 2 => rw [execLoop_step 1 one, execLoop_step 0 two]; rfl
      | fuel + 3 =>
          rw [execLoop_step _ one, execLoop_step _ two, execLoop_step _ three]
          exact ih fuel (by omega) again

theorem spinFrame_endless {ctx : CallContext} {host : H} {depth : UInt32} {isStatic : Bool}
    (unlimited : ctx.gasLimit.toNat = 2 ^ 64 - 1) (fuel : Nat) :
    (executeFrameWith fuel (spinFrame ctx host depth isStatic)).1 = .error .fuel := by
  have spinning : Spinning (Interpreter.new (spinFrame ctx host depth isStatic)) :=
    ⟨rfl, rfl, rfl, unlimited⟩
  unfold executeFrameWith
  rw [executor_eq, run_eq, spinning.endless fuel]
  rfl

/-- Metering works for every frame exactly below the largest gas limit. -/
theorem wellMetered_iff [Inhabited H] (gasLimit : UInt64) :
    (∀ code ctx (host : H) depth isStatic, ctx.gasLimit = gasLimit → depth ≤ maxCallDepth →
      WellMetered ⟨code, ctx, host, depth, isStatic⟩) ↔ gasLimit.toNat < 2 ^ 64 - 1 := by
  constructor
  · intro metered
    by_contra largest
    have bound := gasLimit.toNat_lt
    have unlimited : gasLimit.toNat = 2 ^ 64 - 1 := by omega
    let ctx : CallContext :=
      { caller := .zero, address := .zero, value := .zero, calldata := [], gasLimit := gasLimit }
    obtain ⟨enough, ends⟩ := (metered spinCode ctx default 0 false rfl (by decide)).ends
    exact ends enough le_rfl (spinFrame_endless unlimited enough)
  · intro small code ctx host depth isStatic limit deep
    refine wellMetered_of_small deep ?_
    change ctx.gasLimit.toNat < 2 ^ 64 - 1
    rw [limit]
    exact small

end Evm

/-! ### Stand-ins for the digests and curves -/

namespace Evm

@[reducible] def onesKeccak : Keccak256 where
  digest _ := Vector.replicate 32 1

@[reducible] def blankSha256 : Sha256 where
  digest _ := Vector.replicate 32 0

@[reducible] def blankRipemd160 : Ripemd160 where
  digest _ := Vector.replicate 20 0

/-- No point is on the curve. -/
@[reducible] def emptyCurve : Bn254 where
  ecAdd _ := none
  ecMul _ := none

/-- Nothing is recovered. -/
@[reducible] def noRecovery : Secp256k1 where
  validSignature _ := false
  recover _ _ _ := none

attribute [local instance] onesKeccak blankSha256 blankRipemd160 emptyCurve noRecovery

/-- All the gas there is. -/
def unlimitedContext : CallContext :=
  { caller := .zero, address := .zero, value := .zero, calldata := [], gasLimit := 2 ^ 64 - 1 }

theorem spinFrame_not_metered :
    ¬ WellMetered (spinFrame unlimitedContext (default : MemHost) 0 false) := by
  intro metered
  obtain ⟨enough, ends⟩ := metered.ends
  exact ends enough le_rfl (spinFrame_endless (by decide +kernel) enough)

end Evm

end Veilux
