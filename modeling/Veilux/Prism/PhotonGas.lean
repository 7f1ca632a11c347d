/-
The gas of contract calls.  A machine pays for an instruction before it executes
it; the prism reports what a completed run has paid, and a flat 500 for a run that
ended in an error.
-/

import Veilux.Prism.Contract
import Veilux.Prism.PhotonJumps

namespace Veilux

namespace Vm

/-- What is paid once the instruction at hand is, or was before if it is not affordable. -/
def paid (vm : Vm) : Nat :=
  match vm.code[vm.pc]? with
  | none => vm.gas.toNat
  | some byte =>
      match vm.charge (opcodeGas byte) with
      | .ok charged => charged.gas.toNat
      | .error _ => vm.gas.toNat

/-- The gas that the rounds of a run have paid for. -/
def spent : Nat → Vm → Nat
  | 0, vm => vm.gas.toNat
  | fuel + 1, vm =>
      match vm.step with
      | .next after => spent fuel after
      | .done _ after => after.gas.toNat
      | .fail _ => vm.paid

/-- The gas that `run` consumes. -/
def gasSpent (vm : Vm) : Nat := spent (vm.gasLimit.toNat + 1) vm

variable {vm after : Vm}

theorem step_gasUsed {result : ExecResult} (ran : vm.step = .done result after) :
    result.gasUsed = after.gas := by
  unfold step at ran
  split at ran
  · cases ran
    rfl
  · split at ran
    · cases ran
    · split at ran
      · cases ran
      · split at ran
        · cases ran
        · cases ran
        · cases ran
        · cases ran
          rfl

/-- A completed run reports what it has paid. -/
theorem loop_gasUsed {fuel : Nat} {result : ExecResult}
    (ran : loop fuel vm = some (.ok (result, after))) : result.gasUsed.toNat = spent fuel vm := by
  induction fuel generalizing vm with
  | zero => cases ran
  | succ fuel ih =>
      unfold loop at ran
      unfold spent
      cases taken : vm.step with
      | next middle =>
          rw [taken] at ran
          exact ih ran
      | done halted final =>
          rw [taken] at ran
          cases ran
          rw [step_gasUsed taken]
      | fail error =>
          rw [taken] at ran
          cases ran

theorem paid_le (within : vm.gas.toNat ≤ vm.gasLimit.toNat) : vm.paid ≤ vm.gasLimit.toNat := by
  unfold paid
  split
  · exact within
  · split
    · rename_i charged covered
      obtain ⟨bound, rfl⟩ := charge_eq covered
      exact UInt64.le_iff_toNat_le.mp bound
    · exact within

theorem step_done_gas {result : ExecResult} (ran : vm.step = .done result after)
    (within : vm.gas.toNat ≤ vm.gasLimit.toNat) : after.gas.toNat ≤ vm.gasLimit.toNat := by
  unfold step at ran
  split at ran
  · cases ran
    exact within
  · split at ran
    · cases ran
    · rename_i charged covered
      obtain ⟨bound, rfl⟩ := charge_eq covered
      split at ran
      · cases ran
      · rename_i op decoded
        split at ran
        · cases ran
        · cases ran
        · cases ran
        · rename_i value halted executed
          cases ran
          by_cases stores : op = .sstore
          · subst stores
            obtain ⟨key, value, rest, shape, impossible⟩ := exec_sstore executed
            cases impossible
          · have same : after.gas = vm.gas + _ := (exec_frame executed stores).gas
            rw [same]
            exact UInt64.le_iff_toNat_le.mp bound

/-- No run pays more than its limit. -/
theorem spent_le (fuel : Nat) (vm : Vm) (within : vm.gas.toNat ≤ vm.gasLimit.toNat) :
    spent fuel vm ≤ vm.gasLimit.toNat := by
  induction fuel generalizing vm with
  | zero => exact within
  | succ fuel ih =>
      unfold spent
      cases taken : vm.step with
      | next middle =>
          obtain ⟨⟨byte, bound, gas⟩, gasLimit, _⟩ := step_next taken
          rw [← gas, ← gasLimit] at bound
          have rest := ih middle (UInt64.le_iff_toNat_le.mp bound)
          rwa [gasLimit] at rest
      | done result final => exact step_done_gas taken within
      | fail error => exact paid_le within

/-- The instruction at hand ends the run with an error. -/
def Fails (vm : Vm) : Prop := ∃ error, vm.step = .fail error

/-- Up to the instruction that fails, if one does, at most so much is paid. -/
def FailsWithin (bound : Nat) (vm : Vm) : Prop :=
  ∀ last, Reaches vm last → Fails last → last.paid ≤ bound

theorem reaches_next {last : Vm} (taken : vm.step = .next after) :
    Reaches vm last ↔ last = vm ∨ Reaches after last := by
  constructor
  · intro reached
    obtain rfl | ⟨middle, first, rest⟩ := Relation.ReflTransGen.cases_head reached
    · exact .inl rfl
    · unfold Steps at first
      rw [taken] at first
      cases first
      exact .inr rest
  · rintro (rfl | rest)
    · exact .refl
    · exact .head taken rest

theorem reaches_halted {last : Vm} (halted : ∀ after, vm.step ≠ .next after) :
    Reaches vm last ↔ last = vm := by
  constructor
  · intro reached
    obtain rfl | ⟨middle, first, _⟩ := Relation.ReflTransGen.cases_head reached
    · rfl
    · exact absurd first (halted middle)
  · rintro rfl
    exact .refl

/-- A run that ends pays at most the bound before it fails, or does not fail. -/
theorem failsWithin_iff {fuel bound : Nat} {outcome : Except VmError (ExecResult × Vm)}
    (ended : loop fuel vm = some outcome) :
    FailsWithin bound vm ↔ outcome.isOk = true ∨ spent fuel vm ≤ bound := by
  induction fuel generalizing vm with
  | zero => cases ended
  | succ fuel ih =>
      unfold loop at ended
      unfold spent
      cases taken : vm.step with
      | next middle =>
          rw [taken] at ended
          have goes : ¬ Fails vm := by
            rintro ⟨error, failed⟩
            rw [taken] at failed
            cases failed
          refine Iff.trans ⟨fun within last reached fails => ?_, fun within last reached fails => ?_⟩
            (ih ended)
          · exact within last ((reaches_next taken).mpr (.inr reached)) fails
          · obtain rfl | rest := (reaches_next taken).mp reached
            · exact absurd fails goes
            · exact within last rest fails
      | done halted final =>
          rw [taken] at ended
          cases ended
          refine iff_of_true (fun last reached fails => ?_) (.inl rfl)
          obtain rfl := (reaches_halted fun after => by rw [taken]; exact Step.noConfusion).mp reached
          obtain ⟨error, failed⟩ := fails
          rw [taken] at failed
          cases failed
      | fail error =>
          rw [taken] at ended
          cases ended
          have still (last : Vm) := @reaches_halted vm last fun after => by rw [taken]; exact Step.noConfusion
          constructor
          · exact fun within => .inr (within vm .refl ⟨error, taken⟩)
          · rintro (finished | small) last reached fails
            · cases finished
            · obtain rfl := (still last).mp reached
              exact small

end Vm

namespace ContractPrism

section Costs

variable [SerdeJson] [Blake3]

/-- The machine that a command starts, if it is a call of a deployed contract. -/
def started (state : StateTree) (command : Command) : Option Vm :=
  match fromSlice ContractCommand command.payload with
  | .ok (.call address args value gasLimit) =>
      match state.getJson ContractMeta (codeKey address) with
      | .ok (some info) => some (machine state command info address args value gasLimit)
      | _ => none
  | _ => none

/-- What is left to a run that ends in an error. -/
def flatCost : Nat := 500

/-- No instruction of the run fails once more than the flat cost is paid. -/
def Covered (vm : Vm) : Prop := vm.FailsWithin flatCost

omit [SerdeJson] [Blake3] in
theorem capped_le (gasLimit : UInt64) : (min gasLimit maxCallGas).toNat ≤ maxCallGas.toNat := by
  change (if gasLimit ≤ maxCallGas then gasLimit else maxCallGas).toNat ≤ _
  split
  · rename_i below
    exact UInt64.le_iff_toNat_le.mp below
  · exact le_refl _

/-- Every machine that a command starts comes to an end. -/
theorem started_ends {state : StateTree} {command : Command} {vm : Vm}
    (starts : started state command = some vm) :
    Vm.loop (vm.gasLimit.toNat + 1) vm = some vm.run ∧ vm.gasSpent ≤ maxCallGas.toNat := by
  unfold started at starts
  split at starts
  · rename_i address args value gasLimit parsed
    split at starts
    · rename_i info found
      cases starts
      refine ⟨Vm.run_eq_loop _ _ _ _ (machine_room state command info address args value gasLimit),
        ?_⟩
      have bound := Vm.spent_le
        ((machine state command info address args value gasLimit).gasLimit.toNat + 1)
        (machine state command info address args value gasLimit) (Nat.zero_le _)
      refine bound.trans ?_
      exact capped_le gasLimit
    · cases starts
  · cases starts

/-- The cost of a call is at least the gas of its run exactly when the run is covered. -/
theorem handle_cost {order : IterationOrder} {state : StateTree} {command : Command} {vm : Vm}
    (starts : started state command = some vm) :
    ∃ output after, (handle order command).run.run state = (.ok output, after) ∧
      output.cost.toNat ≤ maxCallGas.toNat ∧ output.derivedCommands = [] ∧
      (vm.gasSpent ≤ output.cost.toNat ↔ Covered vm) := by
  obtain ⟨ends, bounded⟩ := started_ends starts
  unfold started at starts
  unfold handle
  split at starts
  · rename_i address args value gasLimit parsed
    rw [parsed]
    dsimp only
    rw [call_run]
    split at starts
    · rename_i info found
      cases starts
      rw [found]
      dsimp only
      cases ran : (machine state command info address args value gasLimit).run with
      | ok completed =>
          obtain ⟨result, after⟩ := completed
          rw [ran] at ends
          have covered := @Vm.failsWithin_iff _ _ flatCost _ ends
          have same : result.gasUsed.toNat =
              (machine state command info address args value gasLimit).gasSpent :=
            Vm.loop_gasUsed ends
          refine ⟨_, _, rfl, ?_, rfl, ?_⟩
          · change result.gasUsed.toNat ≤ _
            rw [same]
            exact bounded
          · change _ ≤ result.gasUsed.toNat ↔ _
            rw [same]
            exact iff_of_true (le_refl _) (covered.mpr (.inl rfl))
      | error error =>
          have flat : (500 : UInt64).toNat ≤ maxCallGas.toNat := by
            decide
          refine ⟨_, _, rfl, flat, rfl, ?_⟩
          change _ ≤ flatCost ↔ _
          rw [ran] at ends
          refine Iff.trans ?_ (Vm.failsWithin_iff ends).symm
          exact ⟨.inr, fun covered => covered.resolve_left nofun⟩
    · cases starts
  · cases starts

end Costs

end ContractPrism

end Veilux
