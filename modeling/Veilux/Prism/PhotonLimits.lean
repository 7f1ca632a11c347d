/-
Gas limits of the PhotonVM.  No instruction reads the limit, so what a run does does not depend
on it: a lower limit stops the run at the first instruction it cannot pay.
-/

import Veilux.Prism.PhotonGas

namespace Veilux

namespace Vm

/-- The machine under another limit. -/
def under (vm : Vm) (limit : UInt64) : Vm := { vm with gasLimit := limit }

def Flow.under (limit : UInt64) : Flow → Flow
  | .advance vm => .advance (vm.under limit)
  | .resume vm => .resume (vm.under limit)
  | .halt returnValue vm => .halt returnValue (vm.under limit)

variable {vm after : Vm} {limit : UInt64}

theorem push_under (vm : Vm) (limit value : UInt64) :
    (vm.under limit).push value = (vm.push value).map fun vm => vm.under limit := by
  unfold push
  change (if maxStack ≤ vm.stack.length then _ else _) = _
  split <;> rfl

theorem pop_under (vm : Vm) (limit : UInt64) :
    (vm.under limit).pop = vm.pop.map fun popped => (popped.1, popped.2.under limit) := by
  obtain ⟨code, stack, pc, gas, gasLimit, storage, ctx, logs, jumpdests⟩ := vm
  cases stack <;> rfl

theorem pop2_under (vm : Vm) (limit : UInt64) :
    (vm.under limit).pop2 =
      vm.pop2.map fun popped => (popped.1, popped.2.1, popped.2.2.under limit) := by
  unfold pop2
  rw [pop_under]
  cases vm.pop with
  | error error => rfl
  | ok popped =>
      change ((popped.2.under limit).pop >>= _) = Except.map _ (popped.2.pop >>= _)
      rw [pop_under]
      cases popped.2.pop <;> rfl

theorem jumpTo_under (vm : Vm) (limit : UInt64) (dest : Nat) :
    (vm.under limit).jumpTo dest = (vm.jumpTo dest).map fun vm => vm.under limit := by
  unfold jumpTo
  change (if vm.jumpdests.contains dest then _ else _) = _
  split <;> rfl

theorem pushed_under (vm : Vm) (limit value : UInt64) :
    ((vm.under limit).push value >>= fun vm => pure (.advance vm)) =
      ((vm.push value >>= fun vm => pure (.advance vm)).map (Flow.under limit) :
        Except VmError Flow) := by
  rw [push_under]
  cases vm.push value <;> rfl

theorem binary_under (vm : Vm) (limit : UInt64) (operation : UInt64 → UInt64 → UInt64) :
    (vm.under limit).binary operation = (vm.binary operation).map (Flow.under limit) := by
  unfold binary
  rw [pop2_under]
  cases vm.pop2 with
  | error error => rfl
  | ok popped => exact pushed_under popped.2.2 limit _

theorem dividing_under (vm : Vm) (limit : UInt64) (operation : UInt64 → UInt64 → UInt64) :
    (vm.under limit).dividing operation = (vm.dividing operation).map (Flow.under limit) := by
  unfold dividing
  rw [pop2_under]
  cases vm.pop2 with
  | error error => rfl
  | ok popped =>
      obtain ⟨left, right, vm⟩ := popped
      by_cases zero : right = 0
      · subst zero
        rfl
      · change (if right = 0 then _ else _) = Except.map _ (if right = 0 then _ else _)
        rw [if_neg zero, if_neg zero]
        exact pushed_under vm limit _

theorem unary_under (vm : Vm) (limit : UInt64) (operation : UInt64 → UInt64) :
    (vm.under limit).unary operation = (vm.unary operation).map (Flow.under limit) := by
  unfold unary
  rw [pop_under]
  cases vm.pop with
  | error error => rfl
  | ok popped => exact pushed_under popped.2 limit _

/-- No instruction reads the limit. -/
theorem exec_under (vm : Vm) (limit : UInt64) (op : Opcode) :
    (vm.under limit).exec op = (vm.exec op).map (Flow.under limit) := by
  cases op with
  | stop => rfl
  | add => exact binary_under vm limit _
  | sub => exact binary_under vm limit _
  | mul => exact binary_under vm limit _
  | div => exact dividing_under vm limit _
  | mod => exact dividing_under vm limit _
  | lt =>
      unfold exec
      exact binary_under vm limit _
  | gt =>
      unfold exec
      exact binary_under vm limit _
  | eq =>
      unfold exec
      exact binary_under vm limit _
  | isZero =>
      unfold exec
      exact unary_under vm limit _
  | and => exact binary_under vm limit _
  | or => exact binary_under vm limit _
  | not => exact unary_under vm limit _
  | pop =>
      unfold exec
      dsimp only
      rw [pop_under]
      cases vm.pop <;> rfl
  | dup =>
      obtain ⟨code, stack, pc, gas, gasLimit, storage, ctx, logs, jumpdests⟩ := vm
      cases stack with
      | nil => rfl
      | cons top rest => exact pushed_under _ limit top
  | swap =>
      obtain ⟨code, stack, pc, gas, gasLimit, storage, ctx, logs, jumpdests⟩ := vm
      cases stack with
      | nil => rfl
      | cons first rest => cases rest <;> rfl
  | push8 =>
      unfold exec
      dsimp only
      by_cases short : vm.code.length < vm.pc + 1 + 8
      · have same : (vm.under limit).code.length < (vm.under limit).pc + 1 + 8 := short
        rw [if_pos same, if_pos short]
        rfl
      · have same : ¬ (vm.under limit).code.length < (vm.under limit).pc + 1 + 8 := short
        rw [if_neg same, if_neg short]
        have pushes (word : UInt64) :
            ((vm.under limit).push word >>= fun after =>
              pure (.resume { after with pc := vm.pc + 1 + 8 })) =
            ((vm.push word >>= fun after =>
              pure (.resume { after with pc := vm.pc + 1 + 8 })).map (Flow.under limit) :
                Except VmError Flow) := by
          rw [push_under]
          cases vm.push word <;> rfl
        exact pushes _
  | sload =>
      unfold exec
      dsimp only
      rw [pop_under]
      cases vm.pop with
      | error error => rfl
      | ok popped => exact pushed_under popped.2 limit _
  | sstore =>
      unfold exec
      dsimp only
      rw [pop_under]
      cases vm.pop with
      | error error => rfl
      | ok popped =>
          change ((popped.2.under limit).pop >>= _) = Except.map _ (popped.2.pop >>= _)
          rw [pop_under]
          cases popped.2.pop <;> rfl
  | jump =>
      unfold exec
      dsimp only
      rw [pop_under]
      cases vm.pop with
      | error error => rfl
      | ok popped =>
          change ((popped.2.under limit).jumpTo _ >>= _) = Except.map _ (popped.2.jumpTo _ >>= _)
          rw [jumpTo_under]
          cases popped.2.jumpTo popped.1.toNat <;> rfl
  | jumpi =>
      unfold exec
      dsimp only
      rw [pop_under]
      cases vm.pop with
      | error error => rfl
      | ok popped =>
          change ((popped.2.under limit).pop >>= _) = Except.map _ (popped.2.pop >>= _)
          rw [pop_under]
          cases popped.2.pop with
          | error error => rfl
          | ok next =>
              by_cases taken : next.1 ≠ 0
              · change (if next.1 ≠ 0 then _ else _) = Except.map _ (if next.1 ≠ 0 then _ else _)
                rw [if_pos taken, if_pos taken]
                change ((next.2.under limit).jumpTo _ >>= _) =
                  Except.map _ (next.2.jumpTo _ >>= _)
                rw [jumpTo_under]
                cases next.2.jumpTo popped.1.toNat <;> rfl
              · change (if next.1 ≠ 0 then _ else _) = Except.map _ (if next.1 ≠ 0 then _ else _)
                rw [if_neg taken, if_neg taken]
                rfl
  | jumpdest => rfl
  | caller => exact pushed_under vm limit _
  | callValue => exact pushed_under vm limit _
  | arg =>
      unfold exec
      dsimp only
      rw [pop_under]
      cases vm.pop with
      | error error => rfl
      | ok popped => exact pushed_under popped.2 limit _
  | log =>
      unfold exec
      dsimp only
      rw [pop_under]
      cases vm.pop <;> rfl
  | ret =>
      unfold exec
      dsimp only
      rw [pop_under]
      cases vm.pop <;> rfl
  | revert => rfl

/-! ### Steps -/

def Step.under (limit : UInt64) : Step → Step
  | .next vm => .next (vm.under limit)
  | .done result vm => .done result (vm.under limit)
  | .fail error => .fail error

/-- What the instruction at hand would bring the gas to. -/
def due (vm : Vm) : UInt64 :=
  match vm.code[vm.pc]? with
  | none => vm.gas
  | some byte => vm.gas + opcodeGas byte

/-- An instruction that both limits can pay does the same under both. -/
theorem step_under (high : vm.due ≤ vm.gasLimit) (low : vm.due ≤ limit) :
    (vm.under limit).step = vm.step.under limit := by
  unfold step
  unfold due at high low
  cases fetched : vm.code[vm.pc]? with
  | none =>
      have same : (vm.under limit).code[(vm.under limit).pc]? = none := fetched
      rw [same]
      rfl
  | some byte =>
      have same : (vm.under limit).code[(vm.under limit).pc]? = some byte := fetched
      rw [fetched] at high low
      have dear : vm.charge (opcodeGas byte) =
          .ok { vm with gas := vm.gas + opcodeGas byte } := if_neg (UInt64.not_lt.mpr high)
      have cheap : (vm.under limit).charge (opcodeGas byte) =
          .ok (({ vm with gas := vm.gas + opcodeGas byte } : Vm).under limit) :=
        if_neg (UInt64.not_lt.mpr low)
      rw [same]
      dsimp only
      rw [dear, cheap]
      dsimp only
      cases Opcode.ofByte byte with
      | none => rfl
      | some op =>
          dsimp only
          rw [exec_under]
          cases ({ vm with gas := vm.gas + opcodeGas byte } : Vm).exec op with
          | error error => rfl
          | ok flow => cases flow <;> rfl

/-- An instruction that the limit cannot pay ends the run. -/
theorem step_unpaid (within : vm.gas ≤ limit) (unpaid : ¬ vm.due ≤ limit) :
    (vm.under limit).step = .fail (.outOfGas vm.due limit) := by
  unfold step
  unfold due at unpaid ⊢
  cases fetched : vm.code[vm.pc]? with
  | none =>
      rw [fetched] at unpaid
      exact absurd within unpaid
  | some byte =>
      have same : (vm.under limit).code[(vm.under limit).pc]? = some byte := fetched
      rw [fetched] at unpaid
      have short : (vm.under limit).charge (opcodeGas byte) =
          .error (.outOfGas (vm.gas + opcodeGas byte) limit) := if_pos (UInt64.not_le.mp unpaid)
      rw [same]
      dsimp only
      rw [short]

/-- The gas behind a step is what was due. -/
theorem step_next_due (ran : vm.step = .next after) : after.gas = vm.due := by
  unfold step at ran
  unfold due
  cases fetched : vm.code[vm.pc]? with
  | none =>
      rw [fetched] at ran
      cases ran
  | some byte =>
      rw [fetched] at ran
      dsimp only at ran ⊢
      split at ran
      · cases ran
      · rename_i charged paid
        obtain ⟨_, rfl⟩ := charge_eq paid
        split at ran
        · cases ran
        · rename_i op decoded
          have kept : ∀ flow, ({ vm with gas := vm.gas + opcodeGas byte } : Vm).exec op = .ok flow →
              flow.vm.gas = vm.gas + opcodeGas byte := by
            intro flow executed
            by_cases stores : op = .sstore
            · subst stores
              obtain ⟨key, value, rest, _, rfl⟩ := exec_sstore executed
              rfl
            · exact (exec_frame executed stores).gas
          split at ran
          · cases ran
          · rename_i executed
            cases ran
            exact kept _ executed
          · rename_i executed
            cases ran
            exact kept _ executed
          · cases ran

theorem step_done_due {result : ExecResult} (ran : vm.step = .done result after) :
    result.gasUsed = vm.due := by
  unfold step at ran
  unfold due
  cases fetched : vm.code[vm.pc]? with
  | none =>
      rw [fetched] at ran
      cases ran
      rfl
  | some byte =>
      rw [fetched] at ran
      dsimp only at ran ⊢
      split at ran
      · cases ran
      · rename_i charged paid
        obtain ⟨_, rfl⟩ := charge_eq paid
        split at ran
        · cases ran
        · rename_i op decoded
          split at ran
          · cases ran
          · cases ran
          · cases ran
          · rename_i returnValue halted executed
            cases ran
            by_cases stores : op = .sstore
            · subst stores
              obtain ⟨_, _, _, _, impossible⟩ := exec_sstore executed
              cases impossible
            · exact (exec_frame executed stores).gas

theorem gas_le_due (room : vm.gasLimit.toNat + 5000 < 2 ^ 64) (within : vm.gas ≤ vm.gasLimit) :
    vm.gas ≤ vm.due := by
  unfold due
  split
  · exact UInt64.le_refl _
  · rename_i byte _
    obtain ⟨_, bounded⟩ := opcodeGas_bounds byte
    have limited := UInt64.le_iff_toNat_le.mp within
    rw [UInt64.le_iff_toNat_le, UInt64.toNat_add, Nat.mod_eq_of_lt (by omega)]
    omega

/-- A completed run has used what its first instruction is due, and more. -/
theorem due_le_gasUsed (room : vm.gasLimit.toNat + 5000 < 2 ^ 64) {fuel : Nat}
    {result : ExecResult} (ran : loop fuel vm = some (.ok (result, after))) :
    vm.due ≤ result.gasUsed := by
  induction fuel generalizing vm with
  | zero => cases ran
  | succ fuel ih =>
      unfold loop at ran
      cases taken : vm.step with
      | next middle =>
          rw [taken] at ran
          obtain ⟨⟨byte, paid, gas⟩, gasLimit, _⟩ := step_next taken
          have within : middle.gas ≤ middle.gasLimit := by
            rw [gas, gasLimit]
            exact paid
          rw [← gasLimit] at room
          have later := ih room ran
          rw [← step_next_due taken]
          exact UInt64.le_trans (gas_le_due room within) later
      | done halted final =>
          rw [taken] at ran
          cases ran
          rw [step_done_due taken]
          exact UInt64.le_refl _
      | fail error =>
          rw [taken] at ran
          cases ran

/-! ### Runs -/

/-- What is left of an outcome under a lower limit. -/
def Cut (limit : UInt64) (low : Except VmError (ExecResult × Vm)) :
    Except VmError (ExecResult × Vm) → Prop
  | .ok (result, after) =>
      if result.gasUsed ≤ limit then low = .ok (result, after.under limit)
      else ∃ needed, low = .error (.outOfGas needed limit)
  | .error error => low = .error error ∨ ∃ needed, low = .error (.outOfGas needed limit)

theorem loop_under (room : vm.gasLimit.toNat + 5000 < 2 ^ 64) (lower : limit ≤ vm.gasLimit)
    (within : vm.gas ≤ limit) {fuel : Nat} {outcome : Except VmError (ExecResult × Vm)}
    (ended : loop fuel vm = some outcome) :
    ∃ low, loop fuel (vm.under limit) = some low ∧ Cut limit low outcome := by
  induction fuel generalizing vm with
  | zero => cases ended
  | succ fuel ih =>
      by_cases cheap : vm.due ≤ limit
      · have same := step_under (UInt64.le_trans cheap lower) cheap
        unfold loop at ended ⊢
        rw [same]
        cases taken : vm.step with
        | next middle =>
            rw [taken] at ended same
            obtain ⟨⟨byte, paid, gas⟩, _, _⟩ := step_next same
            obtain ⟨_, gasLimit, _⟩ := step_next taken
            have kept : middle.gas ≤ limit := by
              change (middle.under limit).gas ≤ limit
              rw [gas]
              exact paid
            rw [← gasLimit] at room lower
            exact ih room lower kept ended
        | done result final =>
            rw [taken] at ended
            cases ended
            refine ⟨_, rfl, ?_⟩
            change if result.gasUsed ≤ limit then _ else _
            rw [if_pos (by rw [step_done_due taken]; exact cheap)]
        | fail error =>
            rw [taken] at ended
            cases ended
            exact ⟨_, rfl, .inl rfl⟩
      · have short : loop (fuel + 1) (vm.under limit) = some (.error (.outOfGas vm.due limit)) := by
          unfold loop
          rw [step_unpaid within cheap]
        refine ⟨_, short, ?_⟩
        cases outcome with
        | error error => exact .inr ⟨_, rfl⟩
        | ok completed =>
            obtain ⟨result, final⟩ := completed
            change if result.gasUsed ≤ limit then _ else _
            rw [if_neg fun used => cheap (UInt64.le_trans (due_le_gasUsed room ended) used)]
            exact ⟨_, rfl⟩

theorem loop_more {fuel : Nat} {outcome : Except VmError (ExecResult × Vm)}
    (ended : loop fuel vm = some outcome) (more : Nat) : loop (fuel + more) vm = some outcome := by
  induction fuel generalizing vm with
  | zero => cases ended
  | succ fuel ih =>
      rw [Nat.succ_add]
      unfold loop at ended ⊢
      cases taken : vm.step with
      | next middle =>
          rw [taken] at ended
          exact ih ended
      | done result final =>
          rw [taken] at ended
          exact ended
      | fail error =>
          rw [taken] at ended
          exact ended

/-- Under a lower limit a run goes through with the same result when the limit covers the gas it
uses, and is out of gas otherwise; a failure stays a failure. -/
theorem run_limited (code : List UInt8) (storage : Storage) (ctx : ExecContext)
    {low high : UInt64} (lower : low ≤ high) (room : high.toNat + 5000 < 2 ^ 64) :
    Cut low (run (new code low storage ctx)) (run (new code high storage ctx)) := by
  have small : low.toNat ≤ high.toNat := UInt64.le_iff_toNat_le.mp lower
  have ended := run_eq_loop code high storage ctx room
  have below := run_eq_loop code low storage ctx (by omega)
  obtain ⟨outcome, cut, same⟩ :=
    @loop_under (new code high storage ctx) low room lower (UInt64.zero_le) _ _ ended
  have longer := loop_more below (high.toNat - low.toNat)
  rw [show low.toNat + 1 + (high.toNat - low.toNat) = high.toNat + 1 by omega] at longer
  change loop (high.toNat + 1) (new code low storage ctx) = some outcome at cut
  rw [Option.some.inj (longer.symm.trans cut)]
  exact same

end Vm

end Veilux
