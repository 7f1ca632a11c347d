/-
What an instruction can do: the host it leaves, the word it pushes and the frame it
enters, said once for calls, for creations and for the rest.
-/

import Veilux.Evm.Plain

namespace Veilux

namespace Evm

open Effects

variable {H : Type}

/-- The rest of an instruction once the host is settled: a word is pushed and nothing
outside the frame changes any more. -/
structure Settles (vm : Interpreter H) (host : H) (logs : List Log) (value : U256)
    (result : Except Fault Unit) (after : Interpreter H) : Prop where
  led : Leads Passes Breaks { vm with host := host, logs := logs } result after
  top : result = .ok () → ∃ rest, after.stack = value :: rest

theorem Settles.pushed {vm after : Interpreter H} {host : H} {logs : List Log} {value : U256}
    (settles : Settles vm host logs value (.ok ()) after) :
    after.host = host ∧ after.stack.head? = some value := by
  obtain ⟨rest, stack⟩ := settles.top rfl
  refine ⟨settles.led.host, ?_⟩
  rw [stack]
  rfl

/-- What stays inside the frame does so next to any host and logs. -/
theorem Passes.elsewhere {before after : Interpreter H} (passed : Passes before after) (host : H)
    (logs : List Log) :
    Passes { before with host := host, logs := logs } { after with host := host, logs := logs } :=
  ⟨{ passed.toLocal with host := rfl, logs := rfl }, passed.budget⟩

/-- Whatever the host was on the way. -/
theorem Settles.earlier {vm mid : Interpreter H} {held host : H} {logs : List Log} {value : U256}
    {result : Except Fault Unit} {after : Interpreter H}
    (settles : Settles mid host logs value result after)
    (passed : Passes { vm with host := held } mid) :
    Settles vm host logs value result after := by
  have started : Passes { vm with host := host, logs := logs }
      { mid with host := host, logs := logs } := passed.elsewhere host logs
  refine ⟨?_, settles.top⟩
  have led := settles.led
  cases result with
  | ok done => exact passing.trans started led
  | error fault => exact passing.fails started led

/-- A tail that ends by pushing a word. -/
theorem settles_push (vm : Interpreter H) (host : H) (logs : List Log) (value : U256)
    {first : VmM H Unit} (inside : Obeys Passes Breaks first) :
    Spec (first >>= fun _ => push value) { vm with host := host, logs := logs }
      (Settles vm host logs value) := by
  refine Spec.chain ?_ ?_
  · intro _ mid ran
    have passed := inside.ran_ok ran
    have pushed := (push_passes value).leads mid
    unfold Spec at pushed ⊢
    rw [push_run] at pushed ⊢
    by_cases full : maxStack ≤ mid.stack.length
    · rw [if_pos full] at pushed ⊢
      exact ⟨passing.fails passed pushed, nofun⟩
    · rw [if_neg full] at pushed ⊢
      exact ⟨passing.trans passed pushed, fun _ => ⟨mid.stack, rfl⟩⟩
  · intro fault mid ran
    exact ⟨inside.ran_error ran, nofun⟩

/-! ### Calls -/

section Calls

variable [Host H]

/-- The host of a call once its value has moved, behind the snapshot. -/
def paidHost (kind : CallKind) (args : CallArgs) (vm : Interpreter H) : H :=
  if kind = .call ∧ ¬ args.value.isZero then
    (Host.transfer (Host.snapshot vm.host).2 vm.ctx.address args.target args.value).2
  else (Host.snapshot vm.host).2

/-- A call whose value is not there. -/
def Poor (kind : CallKind) (args : CallArgs) (vm : Interpreter H) : Prop :=
  (kind = .call ∧ ¬ args.value.isZero) ∧
    (Host.balance (Host.snapshot vm.host).2 vm.ctx.address).lt args.value = true

instance (kind : CallKind) (args : CallArgs) (vm : Interpreter H) :
    Decidable (Poor kind args vm) :=
  inferInstanceAs (Decidable ((kind = .call ∧ ¬ args.value.isZero) ∧
    (Host.balance (Host.snapshot vm.host).2 vm.ctx.address).lt args.value = true))

variable [Keccak256] [Secp256k1] [Sha256] [Ripemd160] [Bn254]

/-- A call that runs no code: the host it leaves and the word it pushes. -/
inductive Resolved (kind : CallKind) (args : CallArgs) (vm : Interpreter H) : H → U256 → Prop where
  | deep (limit : maxCallDepth ≤ vm.depth) : Resolved kind args vm vm.host .zero
  | poor (short : Poor kind args vm) :
      Resolved kind args vm
        (Host.revert (Host.snapshot vm.host).2 (Host.snapshot vm.host).1) .zero
  | precompiled {output : List UInt8} (solvent : ¬ Poor kind args vm)
      (special : Precompile.isPrecompile args.target = true)
      (executed : Precompile.execute args.target args.calldata = some output) :
      Resolved kind args vm
        (Host.commitSnapshot (paidHost kind args vm) (Host.snapshot vm.host).1) .one
  | rejected (solvent : ¬ Poor kind args vm)
      (special : Precompile.isPrecompile args.target = true)
      (executed : Precompile.execute args.target args.calldata = none) :
      Resolved kind args vm
        (Host.revert (paidHost kind args vm) (Host.snapshot vm.host).1) .zero
  | bare (solvent : ¬ Poor kind args vm)
      (empty : (Host.code (paidHost kind args vm) args.target).isEmpty = true) :
      Resolved kind args vm
        (Host.commitSnapshot (paidHost kind args vm) (Host.snapshot vm.host).1) .one

/-- A call that goes on to run code. -/
structure CallEnters (kind : CallKind) (args : CallArgs) (vm : Interpreter H) : Prop where
  shallow : vm.depth < maxCallDepth
  solvent : ¬ Poor kind args vm
  ordinary : Precompile.isPrecompile args.target = false
  coded : (Host.code (paidHost kind args vm) args.target).isEmpty = false

/-- The frame it enters. -/
def enteredFrame (kind : CallKind) (args : CallArgs) (vm : Interpreter H) : Frame H :=
  callFrame kind args (Host.code (paidHost kind args vm) args.target)
    { vm with host := paidHost kind args vm }

inductive EnterTurn (kind : CallKind) (args : CallArgs) (vm : Interpreter H) :
    Except Fault (Option (Frame H × Nat)) → Interpreter H → Prop where
  | settled {host : H} {value : U256} {result : Except Fault Unit} {after : Interpreter H}
      {entry : Except Fault (Option (Frame H × Nat))}
      (resolved : Resolved kind args vm host value)
      (settles : Settles vm host vm.logs value result after)
      (nothing : entry = result.map fun _ => none) :
      EnterTurn kind args vm entry after
  | costly {after : Interpreter H} (solvent : ¬ Poor kind args vm)
      (special : Precompile.isPrecompile args.target = true)
      (broke : Breaks (.vm .outOfGas) { vm with host := paidHost kind args vm } after) :
      EnterTurn kind args vm (.error (.vm .outOfGas)) after
  | entered (enters : CallEnters kind args vm) :
      EnterTurn kind args vm
        (.ok (some (enteredFrame kind args vm, (Host.snapshot vm.host).1)))
        { vm with host := paidHost kind args vm }

omit [Keccak256] [Secp256k1] [Sha256] [Ripemd160] [Bn254] in
theorem payCall_run (kind : CallKind) (args : CallArgs) (vm : Interpreter H) :
    (payCall kind args).run.run { vm with host := (Host.snapshot vm.host).2 } =
      if Poor kind args vm then (.ok false, { vm with host := (Host.snapshot vm.host).2 })
      else (.ok true, { vm with host := paidHost kind args vm }) := by
  unfold paidHost
  change (if kind = .call ∧ ¬ args.value.isZero then
      if (Host.balance (Host.snapshot vm.host).2 vm.ctx.address).lt args.value then pure false
      else do
        transfer vm.ctx.address args.target args.value
        pure true
    else pure true : VmM H Bool).run.run { vm with host := (Host.snapshot vm.host).2 } = _
  by_cases valued : kind = .call ∧ ¬ args.value.isZero
  · rw [if_pos valued, if_pos valued]
    by_cases short : (Host.balance (Host.snapshot vm.host).2 vm.ctx.address).lt args.value = true
    · rw [if_pos short, if_pos (show Poor kind args vm from ⟨valued, short⟩)]
      rfl
    · rw [if_neg short, if_neg (fun poor : Poor kind args vm => short poor.2)]
      rfl
  · rw [if_neg valued, if_neg valued, if_neg (fun poor : Poor kind args vm => valued poor.1)]
    rfl

theorem settled_none {kind : CallKind} {args : CallArgs} {vm state : Interpreter H} {host : H}
    {value : U256} {action : VmM H Unit} (resolved : Resolved kind args vm host value)
    (settles : Spec action state (Settles vm host vm.logs value)) :
    Spec (action >>= fun _ => pure none) state (EnterTurn kind args vm) := by
  refine settles.bind ?_ ?_
  · intro _ after settled
    exact EnterTurn.settled resolved settled rfl
  · intro fault after settled
    exact EnterTurn.settled resolved settled rfl

theorem callPrecompile_spec {kind : CallKind} {args : CallArgs} {vm : Interpreter H}
    (solvent : ¬ Poor kind args vm) (special : Precompile.isPrecompile args.target = true) :
    Spec (callPrecompile args (Host.snapshot vm.host).1 >>= fun _ => pure none)
      { vm with host := paidHost kind args vm } (EnterTurn kind args vm) := by
  unfold callPrecompile
  rw [bind_assoc]
  refine Spec.chain ?_ ?_
  · intro _ mid charged
    have passed := (charge_passes _).ran_ok charged
    have held : mid.host = paidHost kind args vm := passed.host
    have logged : mid.logs = vm.logs := passed.logs
    cases executed : Precompile.execute args.target args.calldata with
    | some output =>
        have tail : Obeys Passes Breaks (do
            setRetBuffer output
            storeOutput args output : VmM H Unit) :=
          obeys_bind passing (setRetBuffer_passes output) fun _ => handling.storeOutput args output
        refine settled_none (.precompiled solvent special executed) ?_
        have settles := settles_push mid
          (Host.commitSnapshot mid.host (Host.snapshot vm.host).1) mid.logs .one tail
        rw [bind_assoc] at settles
        refine Spec.mono settles fun result after settled => ?_
        rw [held, logged] at settled
        exact settled.earlier passed
    | none =>
        refine settled_none (.rejected solvent special executed) ?_
        have settles := settles_push mid (Host.revert mid.host (Host.snapshot vm.host).1) mid.logs
          .zero (setRetBuffer_passes [])
        refine Spec.mono settles fun result after settled => ?_
        rw [held, logged] at settled
        exact settled.earlier passed
  · intro fault mid charged
    have broke := (charge_passes _).ran_error charged
    rw [charge_fault charged] at broke ⊢
    exact .costly solvent special broke

theorem enterCall_spec (kind : CallKind) (args : CallArgs) (vm : Interpreter H) :
    Spec (enterCall kind args) vm (EnterTurn kind args vm) := by
  refine Spec.get ?_
  by_cases deep : maxCallDepth ≤ vm.depth
  · rw [if_pos deep]
    exact settled_none (.deep deep) (settles_push _ _ _ .zero (setRetBuffer_passes []))
  · rw [if_neg deep]
    have taken : (takeSnapshot : VmM H Nat).run.run vm =
        (.ok (Host.snapshot vm.host).1, { vm with host := (Host.snapshot vm.host).2 }) := rfl
    refine Spec.after taken ?_
    have paid := payCall_run kind args vm
    by_cases poor : Poor kind args vm
    · rw [if_pos poor] at paid
      refine Spec.after paid ?_
      exact settled_none (.poor poor) (settles_push _ _ _ .zero (setRetBuffer_passes []))
    · rw [if_neg poor] at paid
      refine Spec.after paid ?_
      rw [if_pos rfl]
      by_cases special : Precompile.isPrecompile args.target = true
      · rw [if_pos special]
        exact callPrecompile_spec poor special
      · rw [if_neg special]
        refine Spec.get ?_
        by_cases empty : (Host.code (paidHost kind args vm) args.target).isEmpty = true
        · rw [if_pos empty]
          exact settled_none (.bare poor empty) (settles_push _ _ _ .one (setRetBuffer_passes []))
        · rw [if_neg empty]
          exact Spec.pure (.entered
            { shallow := UInt32.not_le.mp deep
              solvent := poor
              ordinary := by simpa using special
              coded := by simpa using empty })

/-- The host behind a frame that returned. -/
def settledHost (host : H) (snapshot : Nat) (success : Bool) : H :=
  if success then Host.commitSnapshot host snapshot else Host.revert host snapshot

inductive CallTurn (sub : Executor H) (kind : CallKind) (vm : Interpreter H) :
    Except Fault Unit → Interpreter H → Prop where
  | broken {fault : Fault} {after : Interpreter H} (broke : Breaks fault vm after) :
      CallTurn sub kind vm (.error fault) after
  | settled {args : CallArgs} {mid : Interpreter H} {host : H} {value : U256}
      {result : Except Fault Unit} {after : Interpreter H}
      (taken : (callArgs kind).run.run vm = (.ok args, mid))
      (resolved : Resolved kind args mid host value)
      (settles : Settles vm host vm.logs value result after) :
      CallTurn sub kind vm result after
  | costly {args : CallArgs} {mid after : Interpreter H}
      (taken : (callArgs kind).run.run vm = (.ok args, mid)) (solvent : ¬ Poor kind args mid)
      (broke : Breaks (.vm .outOfGas) { vm with host := paidHost kind args mid } after) :
      CallTurn sub kind vm (.error (.vm .outOfGas)) after
  | aborted {args : CallArgs} {mid after : Interpreter H} {fault : Fault} {host : H}
      (taken : (callArgs kind).run.run vm = (.ok args, mid)) (enters : CallEnters kind args mid)
      (ran : sub (enteredFrame kind args mid) = (.error fault, host))
      (left : Local { vm with host := host } after) :
      CallTurn sub kind vm (.error fault) after
  | exhausted {args : CallArgs} {mid after : Interpreter H} {outcome : ExecOutcome} {host : H}
      (taken : (callArgs kind).run.run vm = (.ok args, mid)) (enters : CallEnters kind args mid)
      (ran : sub (enteredFrame kind args mid) = (.ok outcome, host))
      (broke : Breaks (.vm .outOfGas) { vm with host := host } after) :
      CallTurn sub kind vm (.error (.vm .outOfGas)) after
  | returned {args : CallArgs} {mid after : Interpreter H} {outcome : ExecOutcome} {host : H}
      {result : Except Fault Unit}
      (taken : (callArgs kind).run.run vm = (.ok args, mid)) (enters : CallEnters kind args mid)
      (ran : sub (enteredFrame kind args mid) = (.ok outcome, host))
      (settles : Settles vm (settledHost host (Host.snapshot mid.host).1 outcome.success)
        (if outcome.success then vm.logs ++ outcome.logs else vm.logs) (boolU outcome.success)
        result after) :
      CallTurn sub kind vm result after

omit [Host H] [Keccak256] [Secp256k1] [Sha256] [Ripemd160] [Bn254] in
theorem Passes.hosted {before after : Interpreter H} (passed : Passes before after) (host : H) :
    Passes { before with host := host } { after with host := host } :=
  ⟨{ passed.toLocal with host := rfl }, passed.budget⟩

omit [Host H] [Keccak256] [Secp256k1] [Sha256] [Ripemd160] [Bn254] in
theorem invoke_run (sub : Executor H) (frame : Frame H) (vm : Interpreter H) :
    (invoke sub frame).run.run vm = ((sub frame).1, { vm with host := (sub frame).2 }) := by
  unfold invoke
  generalize sub frame = returned
  obtain ⟨ended, host⟩ := returned
  cases ended with
  | ok outcome => rfl
  | error fault => rfl

omit [Keccak256] [Secp256k1] [Sha256] [Ripemd160] [Bn254] in
theorem settle_run (snapshot : Nat) (outcome : ExecOutcome) (vm : Interpreter H) :
    (settle snapshot outcome).run.run vm =
      (.ok (), { vm with
        host := settledHost vm.host snapshot outcome.success
        logs := if outcome.success then vm.logs ++ outcome.logs else vm.logs }) := by
  unfold settle settledHost
  cases outcome.success with
  | true => rfl
  | false => rfl

omit [Keccak256] [Secp256k1] [Sha256] [Ripemd160] [Bn254] in
theorem leaveCall_spec (args : CallArgs) (snapshot : Nat) (outcome : ExecOutcome) (host : H)
    (vm : Interpreter H) :
    Spec (leaveCall args snapshot outcome) { vm with host := host } fun result after =>
      (result = .error (.vm .outOfGas) ∧ Breaks (.vm .outOfGas) { vm with host := host } after) ∨
        Settles vm (settledHost host snapshot outcome.success)
          (if outcome.success then vm.logs ++ outcome.logs else vm.logs) (boolU outcome.success)
          result after := by
  refine Spec.chain ?_ ?_
  · intro _ mid charged
    have passed := (charge_passes _).ran_ok charged
    refine Spec.after (settle_run snapshot outcome mid) ?_
    have tail : Obeys Passes Breaks (do
        setRetBuffer outcome.returnData
        storeOutput args outcome.returnData : VmM H Unit) :=
      obeys_bind passing (setRetBuffer_passes _) fun _ => handling.storeOutput args _
    have settles := settles_push mid (settledHost mid.host snapshot outcome.success)
      (if outcome.success then mid.logs ++ outcome.logs else mid.logs)
      (boolU outcome.success) tail
    rw [bind_assoc] at settles
    refine settles.mono fun result after settles => .inr ?_
    rw [show mid.host = host from passed.host, show mid.logs = vm.logs from passed.logs] at settles
    exact settles.earlier passed
  · intro fault mid charged
    have broke := (charge_passes _).ran_error charged
    rw [charge_fault charged] at broke ⊢
    exact .inl ⟨rfl, broke⟩

theorem doCall_spec (sub : Executor H) (kind : CallKind) (vm : Interpreter H) :
    Spec (doCall sub kind) vm (CallTurn sub kind vm) := by
  refine Spec.chain ?_ ?_
  · intro args mid taken
    have passed := (handling.callArgs kind).ran_ok taken
    have logged : mid.logs = vm.logs := passed.logs
    refine (enterCall_spec kind args mid).bind ?_ ?_
    · intro entry after turn
      cases turn with
      | @settled _ _ result _ _ resolved settles nothing =>
          cases result with
          | error fault => cases nothing
          | ok done =>
              cases nothing
              rw [logged] at settles
              exact .settled taken resolved (settles.earlier passed)
      | entered enters =>
          change Spec (invoke sub (enteredFrame kind args mid) >>= fun outcome =>
            leaveCall args (Host.snapshot mid.host).1 outcome) _ _
          have ran := invoke_run sub (enteredFrame kind args mid)
            { mid with host := paidHost kind args mid }
          cases left : sub (enteredFrame kind args mid) with
          | mk result host =>
              rw [left] at ran
              cases result with
              | error fault =>
                  exact Spec.ended ran (.aborted taken enters left (passed.hosted host).toLocal)
              | ok outcome =>
                  refine Spec.after ran ?_
                  refine (leaveCall_spec args _ outcome host mid).mono fun result after ended => ?_
                  cases ended with
                  | inl short =>
                      rw [short.1]
                      exact .exhausted taken enters left
                        (passing.fails (passed.hosted host) short.2)
                  | inr settles =>
                      rw [logged] at settles
                      exact .returned taken enters left (settles.earlier passed)
    · intro fault after turn
      cases turn with
      | @settled _ _ result _ _ resolved settles nothing =>
          cases result with
          | ok done => cases nothing
          | error broke =>
              cases nothing
              rw [logged] at settles
              exact .settled taken resolved (settles.earlier passed)
      | costly solvent special broke =>
          exact .costly taken solvent (passing.fails (passed.hosted _) broke)
  · intro fault mid taken
    exact .broken ((handling.callArgs kind).ran_error taken)

end Calls

/-! ### Creations -/

section Creations

variable [Host H]

def bumpedHost (vm : Interpreter H) : H := Host.bumpNonce vm.host vm.ctx.address

/-- The host of a creation once the endowment has moved, behind the snapshot. -/
def endowedHost (args : CreateArgs) (address : U256) (vm : Interpreter H) : H :=
  if args.value.isZero then (Host.snapshot (bumpedHost vm)).2
  else
    (Host.transfer (Host.snapshot (bumpedHost vm)).2 vm.ctx.address address args.value).2

/-- A creation whose endowment is not there. -/
def Unfunded (args : CreateArgs) (vm : Interpreter H) : Prop :=
  ¬ args.value.isZero ∧
    (Host.balance (Host.snapshot (bumpedHost vm)).2 vm.ctx.address).lt args.value = true

instance (args : CreateArgs) (vm : Interpreter H) : Decidable (Unfunded args vm) :=
  inferInstanceAs (Decidable (¬ args.value.isZero ∧
    (Host.balance (Host.snapshot (bumpedHost vm)).2 vm.ctx.address).lt args.value = true))

variable [Keccak256]

/-- The frame of the init code. -/
def initFrame (args : CreateArgs) (vm : Interpreter H) : Frame H :=
  createFrame args (newAddress args vm)
    { vm with host := endowedHost args (newAddress args vm) vm }

structure CreateEnters (args : CreateArgs) (vm : Interpreter H) : Prop where
  shallow : vm.depth < maxCallDepth
  funded : ¬ Unfunded args vm

/-- An outcome whose data becomes the code. -/
def Deploys (outcome : ExecOutcome) : Prop :=
  outcome.success ∧ outcome.returnData.length ≤ maxCodeSize

omit [Host H] [Keccak256] in
instance (outcome : ExecOutcome) : Decidable (Deploys outcome) :=
  inferInstanceAs (Decidable (outcome.success ∧ outcome.returnData.length ≤ maxCodeSize))

inductive CreateTurn (sub : Executor H) (salted : Bool) (vm : Interpreter H) :
    Except Fault Unit → Interpreter H → Prop where
  | broken {fault : Fault} {after : Interpreter H} (broke : Breaks fault vm after) :
      CreateTurn sub salted vm (.error fault) after
  | deep {args : CreateArgs} {mid after : Interpreter H} {result : Except Fault Unit}
      (taken : (createArgs salted).run.run vm = (.ok args, mid)) (limit : maxCallDepth ≤ vm.depth)
      (settles : Settles vm vm.host vm.logs .zero result after) :
      CreateTurn sub salted vm result after
  | poor {args : CreateArgs} {mid after : Interpreter H} {result : Except Fault Unit}
      (taken : (createArgs salted).run.run vm = (.ok args, mid)) (short : Unfunded args mid)
      (settles : Settles vm
        (Host.revert (Host.snapshot (bumpedHost mid)).2 (Host.snapshot (bumpedHost mid)).1)
        vm.logs .zero result after) :
      CreateTurn sub salted vm result after
  | aborted {args : CreateArgs} {mid after : Interpreter H} {fault : Fault} {host : H}
      (taken : (createArgs salted).run.run vm = (.ok args, mid)) (enters : CreateEnters args mid)
      (ran : sub (initFrame args mid) = (.error fault, host))
      (left : Local { vm with host := host } after) :
      CreateTurn sub salted vm (.error fault) after
  | exhausted {args : CreateArgs} {mid after : Interpreter H} {outcome : ExecOutcome} {host : H}
      (taken : (createArgs salted).run.run vm = (.ok args, mid)) (enters : CreateEnters args mid)
      (ran : sub (initFrame args mid) = (.ok outcome, host))
      (broke : Breaks (.vm .outOfGas) { vm with host := host } after) :
      CreateTurn sub salted vm (.error (.vm .outOfGas)) after
  | deployed {args : CreateArgs} {mid after : Interpreter H} {outcome : ExecOutcome} {host : H}
      {result : Except Fault Unit}
      (taken : (createArgs salted).run.run vm = (.ok args, mid)) (enters : CreateEnters args mid)
      (ran : sub (initFrame args mid) = (.ok outcome, host)) (deploys : Deploys outcome)
      (affordable : ¬ mid.gasLimit < saturatingAdd mid.gas outcome.gasUsed)
      (settles : Settles vm
        (Host.commitSnapshot (Host.setCode host (newAddress args mid) outcome.returnData)
          (Host.snapshot (bumpedHost mid)).1)
        (vm.logs ++ outcome.logs) (newAddress args mid) result after) :
      CreateTurn sub salted vm result after
  | discarded {args : CreateArgs} {mid after : Interpreter H} {outcome : ExecOutcome} {host : H}
      {result : Except Fault Unit}
      (taken : (createArgs salted).run.run vm = (.ok args, mid)) (enters : CreateEnters args mid)
      (ran : sub (initFrame args mid) = (.ok outcome, host)) (fails : ¬ Deploys outcome)
      (settles : Settles vm (Host.revert host (Host.snapshot (bumpedHost mid)).1) vm.logs .zero
        result after) :
      CreateTurn sub salted vm result after

omit [Keccak256] in
theorem payCreate_run (args : CreateArgs) (address : U256) (vm : Interpreter H) :
    (payCreate args address).run.run { vm with host := (Host.snapshot (bumpedHost vm)).2 } =
      if Unfunded args vm then (.ok false, { vm with host := (Host.snapshot (bumpedHost vm)).2 })
      else (.ok true, { vm with host := endowedHost args address vm }) := by
  unfold endowedHost
  change (if args.value.isZero then pure true
    else if (Host.balance (Host.snapshot (bumpedHost vm)).2 vm.ctx.address).lt args.value then
      pure false
    else do
      transfer vm.ctx.address address args.value
      pure true : VmM H Bool).run.run { vm with host := (Host.snapshot (bumpedHost vm)).2 } = _
  by_cases none : args.value.isZero = true
  · rw [if_pos none, if_pos none, if_neg (fun unfunded : Unfunded args vm => unfunded.1 none)]
    rfl
  · rw [if_neg none, if_neg none]
    by_cases short :
        (Host.balance (Host.snapshot (bumpedHost vm)).2 vm.ctx.address).lt args.value = true
    · rw [if_pos short, if_pos (show Unfunded args vm from ⟨none, short⟩)]
      rfl
    · rw [if_neg short, if_neg (fun unfunded : Unfunded args vm => short unfunded.2)]
      rfl

omit [Keccak256] in
theorem leaveCreate_spec (address : U256) (snapshot : Nat) (outcome : ExecOutcome) (host : H)
    (vm : Interpreter H) :
    Spec (leaveCreate address snapshot outcome) { vm with host := host } fun result after =>
      (result = .error (.vm .outOfGas) ∧ Breaks (.vm .outOfGas) { vm with host := host } after) ∨
        (Deploys outcome ∧ ¬ vm.gasLimit < saturatingAdd vm.gas outcome.gasUsed ∧ Settles vm
          (Host.commitSnapshot (Host.setCode host address outcome.returnData) snapshot)
          (vm.logs ++ outcome.logs) address result after) ∨
        (¬ Deploys outcome ∧ Settles vm (Host.revert host snapshot) vm.logs .zero result after) := by
  refine Spec.chain ?_ ?_
  · intro _ mid charged
    have passed := (charge_passes _).ran_ok charged
    have held : mid.host = host := passed.host
    have logged : mid.logs = vm.logs := passed.logs
    have affordable : ¬ vm.gasLimit < saturatingAdd vm.gas outcome.gasUsed := by
      intro short
      rw [charge_run, if_pos short] at charged
      cases (Prod.mk.inj charged).1
    by_cases deploys : Deploys outcome
    · rw [if_pos (show outcome.success = true ∧ _ from deploys)]
      have settles := settles_push mid
        (Host.commitSnapshot (Host.setCode mid.host address outcome.returnData) snapshot)
        (mid.logs ++ outcome.logs) address (setRetBuffer_passes [])
      refine Spec.mono settles fun result after settled => .inr (.inl ⟨deploys, affordable, ?_⟩)
      rw [held, logged] at settled
      exact settled.earlier passed
    · rw [if_neg (show ¬ (outcome.success = true ∧ _) from deploys)]
      have settles := settles_push mid (Host.revert mid.host snapshot) mid.logs .zero
        (setRetBuffer_passes outcome.returnData)
      refine Spec.mono settles fun result after settled => .inr (.inr ⟨deploys, ?_⟩)
      rw [held, logged] at settled
      exact settled.earlier passed
  · intro fault mid charged
    have broke := (charge_passes _).ran_error charged
    rw [charge_fault charged] at broke ⊢
    exact .inl ⟨rfl, broke⟩

inductive EnterCreateTurn (args : CreateArgs) (vm : Interpreter H) :
    Except Fault (Option (Frame H × Nat)) → Interpreter H → Prop where
  | settled {host : H} {result : Except Fault Unit} {after : Interpreter H}
      {entry : Except Fault (Option (Frame H × Nat))}
      (refused : (maxCallDepth ≤ vm.depth ∧ host = vm.host) ∨
        (Unfunded args vm ∧
          host = Host.revert (Host.snapshot (bumpedHost vm)).2 (Host.snapshot (bumpedHost vm)).1))
      (settles : Settles vm host vm.logs .zero result after)
      (nothing : entry = result.map fun _ => none) :
      EnterCreateTurn args vm entry after
  | entered (enters : CreateEnters args vm) :
      EnterCreateTurn args vm
        (.ok (some (initFrame args vm, (Host.snapshot (bumpedHost vm)).1)))
        { vm with host := endowedHost args (newAddress args vm) vm }

theorem enterCreate_spec (args : CreateArgs) (vm : Interpreter H) :
    Spec (enterCreate args) vm (EnterCreateTurn args vm) := by
  have refused {host : H} (reason : (maxCallDepth ≤ vm.depth ∧ host = vm.host) ∨
      (Unfunded args vm ∧
        host = Host.revert (Host.snapshot (bumpedHost vm)).2 (Host.snapshot (bumpedHost vm)).1)) :
      Spec (refuse >>= fun _ => pure none) { vm with host := host } (EnterCreateTurn args vm) := by
    have settles := settles_push vm host vm.logs .zero (setRetBuffer_passes [])
    refine Spec.bind settles ?_ ?_
    · intro _ after settled
      exact .settled reason settled rfl
    · intro fault after settled
      exact .settled reason settled rfl
  refine Spec.get ?_
  by_cases deep : maxCallDepth ≤ vm.depth
  · rw [if_pos deep]
    exact refused (.inl ⟨deep, rfl⟩)
  · rw [if_neg deep]
    have bumped : (onHost fun host => Host.bumpNonce host vm.ctx.address : VmM H Unit).run.run vm =
        (.ok (), { vm with host := bumpedHost vm }) := rfl
    refine Spec.after bumped ?_
    have taken : (takeSnapshot : VmM H Nat).run.run { vm with host := bumpedHost vm } =
        (.ok (Host.snapshot (bumpedHost vm)).1,
          { vm with host := (Host.snapshot (bumpedHost vm)).2 }) := rfl
    refine Spec.after taken ?_
    have paid := payCreate_run args (newAddress args vm) vm
    by_cases poor : Unfunded args vm
    · rw [if_pos poor] at paid
      refine Spec.after paid ?_
      exact refused (.inr ⟨poor, rfl⟩)
    · rw [if_neg poor] at paid
      refine Spec.after paid ?_
      exact Spec.pure (.entered ⟨UInt32.not_le.mp deep, poor⟩)

theorem doCreate_spec (sub : Executor H) (salted : Bool) (vm : Interpreter H) :
    Spec (doCreate sub salted) vm (CreateTurn sub salted vm) := by
  refine Spec.chain ?_ ?_
  · intro args mid taken
    have passed := (handling.createArgs salted).ran_ok taken
    have logged : mid.logs = vm.logs := passed.logs
    have kept {host : H} {result : Except Fault Unit} {after : Interpreter H}
        (refused : (maxCallDepth ≤ mid.depth ∧ host = mid.host) ∨
          (Unfunded args mid ∧ host =
            Host.revert (Host.snapshot (bumpedHost mid)).2 (Host.snapshot (bumpedHost mid)).1))
        (settles : Settles mid host mid.logs .zero result after) :
        CreateTurn sub salted vm result after := by
      rw [logged] at settles
      rcases refused with ⟨limit, rfl⟩ | ⟨short, rfl⟩
      · rw [passed.depth] at limit
        rw [passed.host] at settles
        exact .deep taken limit (settles.earlier passed)
      · exact .poor taken short (settles.earlier passed)
    refine (enterCreate_spec args mid).bind ?_ ?_
    · intro entry after turn
      cases turn with
      | @settled _ result _ _ refused settles nothing =>
          cases result with
          | error fault => cases nothing
          | ok done =>
              cases nothing
              exact kept refused settles
      | entered enters =>
          change Spec (invoke sub (initFrame args mid) >>= fun outcome =>
            leaveCreate (newAddress args mid) (Host.snapshot (bumpedHost mid)).1 outcome) _ _
          have ran := invoke_run sub (initFrame args mid)
            { mid with host := endowedHost args (newAddress args mid) mid }
          cases left : sub (initFrame args mid) with
          | mk result host =>
              rw [left] at ran
              cases result with
              | error fault =>
                  exact Spec.ended ran (.aborted taken enters left (passed.hosted host).toLocal)
              | ok outcome =>
                  refine Spec.after ran ?_
                  refine (leaveCreate_spec _ _ outcome host mid).mono fun result after ended => ?_
                  rcases ended with short | ⟨deploys, affordable, settles⟩ | ⟨fails, settles⟩
                  · rw [short.1]
                    exact .exhausted taken enters left
                      (passing.fails (passed.hosted host) short.2)
                  · rw [logged] at settles
                    exact .deployed taken enters left deploys affordable (settles.earlier passed)
                  · rw [logged] at settles
                    exact .discarded taken enters left fails (settles.earlier passed)
    · intro fault after turn
      cases turn with
      | @settled _ result _ _ refused settles nothing =>
          cases result with
          | ok done => cases nothing
          | error broke =>
              cases nothing
              exact kept refused settles
  · intro fault mid taken
    exact .broken ((handling.createArgs salted).ran_error taken)

end Creations

/-! ### Instructions -/

section Instructions

/-- In a static frame a call has no value. -/
theorem callArgs_static {kind : CallKind} {args : CallArgs} {vm mid : Interpreter H}
    (taken : (callArgs kind).run.run vm = (.ok args, mid)) (static : vm.isStatic = true) :
    args.value.isZero = true := by
  let Unvalued (result : Except Fault CallArgs) (_ : Interpreter H) : Prop :=
    ∀ args, result = .ok args → args.value.isZero = true
  have walk {α : Type} {action : VmM H α} {next : α → VmM H CallArgs}
      (inside : Obeys Passes Breaks action)
      (rest : ∀ value vm, vm.isStatic = true → Spec (next value) vm Unvalued) (vm : Interpreter H)
      (static : vm.isStatic = true) : Spec (action >>= next) vm Unvalued := by
    refine Spec.chain ?_ nofun
    intro value after ran
    exact rest value after ((inside.ran_ok ran).isStatic.trans static)
  have every : Spec (callArgs kind) vm Unvalued := by
    refine walk (charge_passes _) (fun _ => ?_) vm static
    refine walk pop_passes fun gas => ?_
    refine walk pop_passes fun target => ?_
    refine walk (handling.popValue kind) fun value => ?_
    refine walk handling.popUsize fun argsOff => ?_
    refine walk handling.popUsize fun argsLen => ?_
    refine walk handling.popUsize fun retOff => ?_
    refine walk handling.popUsize fun retLen vm static => ?_
    refine Spec.get ?_
    by_cases valued : vm.isStatic = true ∧ ¬ value.isZero = true
    · rw [if_pos valued]
      exact nofun
    · rw [if_neg valued]
      refine walk (handling.load argsOff argsLen) (fun calldata vm _ => ?_) vm static
      intro args same
      rw [← Except.ok.inj same]
      exact not_not.mp fun some => valued ⟨static, some⟩
  exact every.ran taken args rfl

/-- In a static frame nothing is created. -/
theorem createArgs_static {salted : Bool} {args : CreateArgs} {vm mid : Interpreter H}
    (taken : (createArgs salted).run.run vm = (.ok args, mid)) : vm.isStatic = false := by
  cases static : vm.isStatic with
  | false => rfl
  | true =>
      have failed : (createArgs salted).run.run vm = (.error (.vm .staticViolation), vm) := by
        change (if vm.isStatic then fail .staticViolation else _ : VmM H CreateArgs).run.run vm = _
        rw [if_pos static]
        rfl
      rw [failed] at taken
      cases (Prod.mk.inj taken).1

variable [Host H] [Keccak256] [Secp256k1] [Sha256] [Ripemd160] [Bn254]

inductive Turn (sub : Executor H) (vm : Interpreter H) :
    Opcode → Except Fault Flow → Interpreter H → Prop where
  | inside {op : Opcode} {result : Except Fault Flow} {after : Interpreter H}
      (led : Leads Passes Breaks vm result after) : Turn sub vm op result after
  | reverted {after : Interpreter H} (passed : Passes vm after) :
      Turn sub vm .revert (.error (.vm .reverted)) after
  | stored {key value : U256} {after : Interpreter H} (free : vm.isStatic = false)
      (passed : Passes { vm with host := Host.sstore vm.host vm.ctx.address key value } after) :
      Turn sub vm .sstore (.ok .advance) after
  | logged {topics : Nat} {log : Log} {after : Interpreter H} (free : vm.isStatic = false)
      (passed : Passes { vm with logs := vm.logs ++ [log] } after) :
      Turn sub vm (.log topics) (.ok .advance) after
  | destroyed {beneficiary : U256} {after : Interpreter H} (free : vm.isStatic = false)
      (passed : Passes { vm with
        host := (Host.transfer vm.host vm.ctx.address beneficiary
          (Host.balance vm.host vm.ctx.address)).2 } after) :
      Turn sub vm .selfdestruct (.ok .halted) after
  | called {kind : CallKind} {result : Except Fault Unit} {flow : Except Fault Flow}
      {after : Interpreter H} (turn : CallTurn sub kind vm result after)
      (goes : flow = result.map fun _ => .advance) :
      Turn sub vm (.call kind) flow after
  | created {salted : Bool} {result : Except Fault Unit} {flow : Except Fault Flow}
      {after : Interpreter H} (turn : CreateTurn sub salted vm result after)
      (goes : flow = result.map fun _ => .advance) :
      Turn sub vm (.create salted) flow after

omit [Host H] [Keccak256] [Secp256k1] [Sha256] [Ripemd160] [Bn254] in
theorem Passes.moved (vm : Interpreter H) (pc : Nat) : Passes vm { vm with pc := pc } :=
  ⟨{ Local.refl vm with }, id⟩

omit [Host H] [Keccak256] [Secp256k1] [Sha256] [Ripemd160] [Bn254] in
theorem Passes.changed {before after : Interpreter H} (passed : Passes before after)
    (change : H → H) :
    Passes { before with host := change before.host } { after with host := change after.host } :=
  ⟨{ passed.toLocal with host := congrArg change passed.host }, passed.budget⟩

omit [Host H] [Keccak256] [Secp256k1] [Sha256] [Ripemd160] [Bn254] in
theorem jumpTo_passes (dest : U256) : Obeys Passes Breaks (jumpTo dest : VmM H Unit) := by
  refine obeys_get fun vm => ?_
  have stuck : Breaks (.vm (.invalidJump dest.lowUsize)) vm vm := handling.fault _ (by simp) vm
  by_cases outside : ¬ dest.bitsFitUsize ∨ (analyzeJumpdests vm.code).length ≤ dest.lowUsize
  · simp only [if_pos outside]
    exact stuck
  · simp only [if_neg outside]
    unfold indexed
    split
    · rename_i marked _
      cases marked with
      | true => exact Passes.moved vm _
      | false => exact stuck
    · exact ⟨Local.refl vm, nofun, nofun⟩

omit [Host H] [Keccak256] [Secp256k1] [Sha256] [Ripemd160] [Bn254] in
theorem pushImmediate_passes (n : Nat) : Obeys Passes Breaks (pushImmediate n : VmM H Unit) := by
  refine obeys_get fun vm => ?_
  refine leads_bind passing ?_ fun slice => ?_
  · unfold sliced
    split
    · exact Passes.refl vm
    · exact ⟨Local.refl vm, nofun, nofun⟩
  · exact obeys_bind passing (push_passes _) fun _ => obeys_modify fun vm => Passes.moved vm _

omit [Host H] [Keccak256] [Secp256k1] [Sha256] [Ripemd160] [Bn254] in
theorem returnWith_passes : Obeys Passes Breaks (returnWith : VmM H Unit) := by
  refine obeys_bind passing handling.popUsize fun off => ?_
  refine obeys_bind passing handling.popUsize fun len => ?_
  refine obeys_bind passing (handling.load off len) fun data => ?_
  exact obeys_modify fun vm => ⟨{ Local.refl vm with }, id⟩

omit [Host H] [Keccak256] [Secp256k1] [Sha256] [Ripemd160] [Bn254] in
theorem jumpi_passes : Obeys Passes Breaks (jumpi : VmM H Flow) := by
  refine obeys_bind passing pop_passes fun dest => ?_
  refine obeys_bind passing pop_passes fun cond => ?_
  exact obeys_ite (obeys_pure passing _)
    (obeys_bind passing (jumpTo_passes dest) fun _ => obeys_pure passing _)

theorem turn_going {sub : Executor H} {vm : Interpreter H} {op : Opcode} {action : VmM H Unit}
    (flow : Flow) (spec : Spec action vm fun result after =>
      Turn sub vm op (result.map fun _ => flow) after) :
    Spec (action >>= fun _ => pure flow) vm (Turn sub vm op) := by
  refine spec.bind ?_ ?_
  · intro _ after turn
    exact turn
  · intro fault after turn
    exact turn

theorem sstore_spec (sub : Executor H) (vm : Interpreter H) :
    Spec sstore vm fun result after =>
      Turn sub vm .sstore (result.map fun _ => .advance) after := by
  refine Spec.get ?_
  by_cases static : vm.isStatic = true
  · rw [if_pos static]
    have barred : Breaks (.vm .staticViolation) vm vm := handling.fault _ (by simp) vm
    exact .inside barred
  · rw [if_neg static]
    refine Spec.chain ?_ fun fault mid ran => .inside ((charge_passes _).ran_error ran)
    intro _ charged ran
    have paid := (charge_passes _).ran_ok ran
    refine Spec.chain ?_ fun fault mid ran =>
      .inside (passing.fails paid (pop_passes.ran_error ran))
    intro key keyed ran
    have popped := passing.trans paid (pop_passes.ran_ok ran)
    refine Spec.chain ?_ fun fault mid ran =>
      .inside (passing.fails popped (pop_passes.ran_error ran))
    intro value valued ran
    have passed := passing.trans popped (pop_passes.ran_ok ran)
    exact .stored (Bool.eq_false_iff.mpr static)
      (passed.changed fun host => Host.sstore host vm.ctx.address key value)

theorem logOp_spec (sub : Executor H) (topics : Nat) (vm : Interpreter H) :
    Spec (logOp topics) vm fun result after =>
      Turn sub vm (.log topics) (result.map fun _ => .advance) after := by
  refine Spec.get ?_
  by_cases static : vm.isStatic = true
  · rw [if_pos static]
    have barred : Breaks (.vm .staticViolation) vm vm := handling.fault _ (by simp) vm
    exact .inside barred
  · rw [if_neg static]
    refine Spec.chain ?_ fun fault mid ran => .inside (handling.popUsize.ran_error ran)
    intro off first ran
    have offset := handling.popUsize.ran_ok ran
    refine Spec.chain ?_ fun fault mid ran =>
      .inside (passing.fails offset (handling.popUsize.ran_error ran))
    intro len second ran
    have ranged := passing.trans offset (handling.popUsize.ran_ok ran)
    refine Spec.chain ?_ fun fault mid ran =>
      .inside (passing.fails ranged ((handling.popTopics topics).ran_error ran))
    intro words third ran
    have listed := passing.trans ranged ((handling.popTopics topics).ran_ok ran)
    refine Spec.chain ?_ fun fault mid ran =>
      .inside (passing.fails listed ((handling.load off len).ran_error ran))
    intro data fourth ran
    have loaded := passing.trans listed ((handling.load off len).ran_ok ran)
    refine Spec.chain ?_ fun fault mid ran =>
      .inside (passing.fails loaded ((charge_passes _).ran_error ran))
    intro _ last ran
    have passed := passing.trans loaded ((charge_passes _).ran_ok ran)
    let log : Log := { address := last.ctx.address, topics := words, data := data }
    have added := passed.elsewhere vm.host (vm.logs ++ [log])
    have same : { last with host := vm.host, logs := vm.logs ++ [log] } =
        { last with logs := last.logs ++ [log] } := by
      rw [← passed.host, passed.logs]
    rw [same] at added
    exact .logged (Bool.eq_false_iff.mpr static) added

theorem selfdestruct_spec (sub : Executor H) (vm : Interpreter H) :
    Spec selfdestruct vm fun result after =>
      Turn sub vm .selfdestruct (result.map fun _ => .halted) after := by
  refine Spec.get ?_
  by_cases static : vm.isStatic = true
  · rw [if_pos static]
    have barred : Breaks (.vm .staticViolation) vm vm := handling.fault _ (by simp) vm
    exact .inside barred
  · rw [if_neg static]
    refine Spec.chain ?_ fun fault mid ran => .inside (pop_passes.ran_error ran)
    intro beneficiary popped ran
    have passed := pop_passes.ran_ok ran
    by_cases empty : (Host.balance vm.host vm.ctx.address).isZero = true
    · simp only [if_pos empty]
      exact .inside passed
    · simp only [if_neg empty]
      exact .destroyed (Bool.eq_false_iff.mpr static)
        (passed.changed fun host => (Host.transfer host vm.ctx.address beneficiary
          (Host.balance vm.host vm.ctx.address)).2)

theorem exec_spec (sub : Executor H) (op : Opcode) (vm : Interpreter H) :
    Spec (exec sub op) vm (Turn sub vm op) := by
  have within {action : VmM H Flow} (inside : Obeys Passes Breaks action) :
      Spec action vm (Turn sub vm op) :=
    (inside.leads vm).mono fun _ _ led => .inside led
  have going {action : VmM H Unit} (inside : Obeys Passes Breaks action) (flow : Flow) :
      Obeys Passes Breaks (action >>= fun _ => pure flow) :=
    obeys_bind passing inside fun _ => obeys_pure passing flow
  cases op with
  | plain op => exact within (going (plain_passes op) _)
  | stop => exact within (obeys_pure passing _)
  | sstore => exact turn_going _ (sstore_spec sub vm)
  | jump =>
      exact within (obeys_bind passing pop_passes fun dest => going (jumpTo_passes dest) _)
  | jumpi => exact within jumpi_passes
  | push n => exact within (going (pushImmediate_passes n) _)
  | log topics => exact turn_going _ (logOp_spec sub topics vm)
  | create salted =>
      exact turn_going _ ((doCreate_spec sub salted vm).mono fun _ _ turn => .created turn rfl)
  | call kind =>
      exact turn_going _ ((doCall_spec sub kind vm).mono fun _ _ turn => .called turn rfl)
  | «return» => exact within (going returnWith_passes _)
  | revert =>
      refine Spec.chain ?_ ?_
      · intro _ after ran
        exact .reverted (returnWith_passes.ran_ok ran)
      · intro fault after ran
        exact .inside (returnWith_passes.ran_error ran)
  | selfdestruct => exact turn_going _ (selfdestruct_spec sub vm)
  | invalid byte => exact within (obeys_throw (breaks_vm nofun))

end Instructions

end Evm

end Veilux
