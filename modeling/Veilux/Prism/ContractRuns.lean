/-
Runs of the contract prism.  A contract is a machine of its own: its code and its slots are
written, and its calls answered, as if no other command had been executed.  The gas limit of a
call decides no more than whether the call goes through.
-/

import Veilux.Lib.Keys
import Veilux.Lib.Unwinding
import Veilux.Prism.PhotonLimits

namespace Veilux

namespace ContractPrism

/-! ### Keys -/

theorem codeKey_injective {left right : Hash} (same : codeKey left = codeKey right) :
    left = right := by
  have texts := congrArg String.toList same
  simp only [codeKey, String.toList_append, List.append_cancel_left_eq] at texts
  exact Hash.toHex_injective (String.toList_inj.mp texts)

theorem storeKey_injective {left right : Hash} (same : storeKey left = storeKey right) :
    left = right := by
  have texts := congrArg String.toList same
  simp only [storeKey, String.toList_append, List.append_cancel_left_eq] at texts
  exact Hash.toHex_injective (String.toList_inj.mp texts)

theorem codeKey_ne_storeKey (left right : Hash) : codeKey left ≠ storeKey right :=
  @Keys.Apart.append_ne codePrefix storePrefix (by decide) _ _

section Runs

variable [SerdeJson] [Blake3] {order : IterationOrder} {address : Hash} {command : Command}
  {state other : StateTree}

/-! ### What a command reads and writes -/

/-- The address a deployment yields. -/
def createdAt (command : Command) (code : List UInt8) : Hash :=
  Hash.commit "contract/address"
    [command.submitter.bytes, Bytes.leBytes 8 command.nonce.toNat, code]

/-- The command deploys the contract or calls it. -/
def concerns (address : Hash) (command : Command) : Bool :=
  match fromSlice ContractCommand command.payload with
  | .ok (.deploy code) => createdAt command code = address
  | .ok (.call callee _ _ _) => callee = address
  | .error _ => false

/-- What is stored of a contract. -/
def stored (address : Hash) (state : StateTree) : Option (List UInt8) × Option (List UInt8) :=
  (state.get (codeKey address), state.get (storeKey address))

def step (order : IterationOrder) (state : StateTree) (command : Command) : StateTree :=
  ((handle order command).run.run state).2

def answer (order : IterationOrder) (state : StateTree) (command : Command) :
    Except PrismError PrismOutput :=
  ((handle order command).run.run state).1

omit [SerdeJson] in
theorem deploy_run (command : Command) (code : List UInt8) (state : StateTree) :
    (deploy command code).run.run state =
      if maxCodeSize < code.length then
        (.error (.limitExceeded
          ("code size " ++ Nat.repr code.length ++ " exceeds max " ++ Nat.repr maxCodeSize)), state)
      else
        (.ok (.single (event command (.deployed (createdAt command code) code.length))
            (32000 + UInt64.ofNat code.length * 200)),
          state.putJson (codeKey (createdAt command code))
            { address := createdAt command code
              deployer := command.submitter
              code := code
              codeSize := code.length : ContractMeta }) := by
  unfold deploy
  split
  · rfl
  · rfl

theorem step_refused {text : String}
    (parsed : fromSlice ContractCommand command.payload = .error text) :
    step order state command = state := by
  unfold step handle
  rw [parsed]
  rfl

theorem step_deploy {code : List UInt8}
    (parsed : fromSlice ContractCommand command.payload = .ok (.deploy code)) :
    step order state command =
      if maxCodeSize < code.length then state
      else state.putJson (codeKey (createdAt command code))
        { address := createdAt command code
          deployer := command.submitter
          code := code
          codeSize := code.length : ContractMeta } := by
  unfold step handle
  rw [parsed]
  change ((deploy command code).run.run state).2 = _
  rw [deploy_run]
  split <;> rfl

theorem step_call {callee : Hash} {args : List UInt64} {value gasLimit : UInt64}
    (parsed : fromSlice ContractCommand command.payload = .ok (.call callee args value gasLimit)) :
    step order state command =
      ((call order command callee args value gasLimit).run.run state).2 := by
  unfold step handle
  rw [parsed]

/-- Another contract's commands write other keys. -/
theorem stored_others (order : IterationOrder) (state : StateTree)
    (foreign : concerns address command = false) :
    stored address (step order state command) = stored address state := by
  unfold concerns at foreign
  cases parsed : fromSlice ContractCommand command.payload with
  | error text => rw [step_refused parsed]
  | ok operation =>
      rw [parsed] at foreign
      cases operation with
      | deploy code =>
          have elsewhere : createdAt command code ≠ address := of_decide_eq_false foreign
          rw [step_deploy parsed]
          split
          · rfl
          · unfold stored StateTree.putJson
            rw [StateTree.get_put_ne _ _ fun same => elsewhere (codeKey_injective same),
              StateTree.get_put_ne _ _ (codeKey_ne_storeKey _ _)]
      | call callee args value gasLimit =>
          have elsewhere : callee ≠ address := of_decide_eq_false foreign
          rw [step_call parsed, call_state]
          split
          · split
            · unfold stored StateTree.putJson
              rw [StateTree.get_put_ne _ _ (codeKey_ne_storeKey _ _).symm,
                StateTree.get_put_ne _ _ fun same => elsewhere (storeKey_injective same)]
            · rfl
          · rfl

omit [Blake3] in
theorem getJson_stored (same : stored address state = stored address other) :
    state.getJson ContractMeta (codeKey address) =
      other.getJson ContractMeta (codeKey address) := by
  unfold StateTree.getJson
  rw [(Prod.mk.inj same).1]

theorem machine_stored (same : stored address state = stored address other) (info : ContractMeta)
    (args : List UInt64) (value gasLimit : UInt64) :
    machine state command info address args value gasLimit =
      machine other command info address args value gasLimit := by
  unfold machine loadStorage StateTree.getJson? StateTree.getJson
  rw [(Prod.mk.inj same).2]

/-- A command is answered from what is stored of its contract, and so is the contract left. -/
theorem stored_own (order : IterationOrder) (own : concerns address command = true)
    (same : stored address state = stored address other) :
    answer order state command = answer order other command ∧
      stored address (step order state command) = stored address (step order other command) := by
  unfold concerns at own
  cases parsed : fromSlice ContractCommand command.payload with
  | error text =>
      rw [parsed] at own
      cases own
  | ok operation =>
      rw [parsed] at own
      cases operation with
      | deploy code =>
          have here : createdAt command code = address := of_decide_eq_true own
          refine ⟨?_, ?_⟩
          · unfold answer handle
            rw [parsed]
            change ((deploy command code).run.run state).1 =
              ((deploy command code).run.run other).1
            rw [deploy_run, deploy_run]
            split <;> rfl
          · rw [step_deploy parsed, step_deploy parsed]
            split
            · exact same
            · unfold stored StateTree.putJson
              rw [here, StateTree.get_put_self, StateTree.get_put_self,
                StateTree.get_put_ne _ _ (codeKey_ne_storeKey _ _),
                StateTree.get_put_ne _ _ (codeKey_ne_storeKey _ _), (Prod.mk.inj same).2]
      | call callee args value gasLimit =>
          have here : callee = address := of_decide_eq_true own
          subst here
          unfold answer step handle
          rw [parsed]
          dsimp only
          rw [call_run, call_run, getJson_stored same]
          cases other.getJson ContractMeta (codeKey callee) with
          | error error => exact ⟨rfl, same⟩
          | ok found =>
              cases found with
              | none => exact ⟨rfl, same⟩
              | some info =>
                  dsimp only
                  rw [machine_stored same]
                  cases (machine other command info callee args value gasLimit).run with
                  | error error => exact ⟨rfl, same⟩
                  | ok completed =>
                      refine ⟨rfl, ?_⟩
                      unfold stored StateTree.putJson
                      dsimp only
                      rw [StateTree.get_put_self, StateTree.get_put_self,
                        StateTree.get_put_ne _ _ (codeKey_ne_storeKey _ _).symm,
                        StateTree.get_put_ne _ _ (codeKey_ne_storeKey _ _).symm,
                        (Prod.mk.inj same).1]

theorem separates (order : IterationOrder) (address : Hash) :
    Unwinding.Separates (step order) (answer order) (concerns address) (stored address) where
  others state _command foreign := stored_others order state foreign
  answered _command own same := (stored_own order own same).1
  moved _command own same := (stored_own order own same).2

/-- Over every run of commands a contract is left, and its own commands are answered, as in the
run of its own commands alone. -/
theorem contracts_apart (order : IterationOrder) (address : Hash) (state : StateTree)
    (commands : List Command) :
    Unwinding.answers (step order) (answer order) (concerns address) state commands =
        Unwinding.answers (step order) (answer order) (concerns address) state
          (commands.filter (concerns address)) ∧
      stored address (Run.run (step order) state commands) =
        stored address (Run.run (step order) state (commands.filter (concerns address))) :=
  (separates order address).purged rfl commands

/-! ### Gas limits -/

/-- The run of a call that does not go through. -/
def reverted (command : Command) (address : Hash) (gasLimit : UInt64) (state : StateTree) :
    Except PrismError PrismOutput × StateTree :=
  (.ok (.single (event command (.called address none (min gasLimit maxCallGas) [] true)) 500),
    state)

omit [SerdeJson] [Blake3] in
theorem capped_le_capped {low high : UInt64} (lower : low ≤ high) :
    min low maxCallGas ≤ min high maxCallGas := by
  have numbers := UInt64.le_iff_toNat_le.mp lower
  change (if low ≤ maxCallGas then low else maxCallGas) ≤
    if high ≤ maxCallGas then high else maxCallGas
  rw [UInt64.le_iff_toNat_le]
  split <;> split <;> simp only [UInt64.le_iff_toNat_le] at * <;> omega

/-- A call under a lower gas limit does what it does under the higher one when that goes through
within the lower limit, and is reverted otherwise. -/
theorem call_limited (order : IterationOrder) (command : Command) (args : List UInt64)
    (value : UInt64) {low high : UInt64} (lower : low ≤ high) {info : ContractMeta}
    (found : state.getJson ContractMeta (codeKey address) = .ok (some info)) :
    (call order command address args value low).run.run state =
      match (machine state command info address args value high).run with
      | .ok (result, _) =>
          if result.gasUsed ≤ min low maxCallGas then
            (call order command address args value high).run.run state
          else reverted command address low state
      | .error _ => reverted command address low state := by
  have cut : Vm.Cut (min low maxCallGas) (machine state command info address args value low).run
      (machine state command info address args value high).run :=
    Vm.run_limited info.code (loadStorage state address) (context command args value)
      (capped_le_capped lower) (machine_room state command info address args value high)
  rw [call_run, call_run, found]
  dsimp only
  cases ended : (machine state command info address args value high).run with
  | error error =>
      rw [ended] at cut
      rcases cut with same | ⟨needed, short⟩
      · rw [same]
        rfl
      · rw [short]
        rfl
  | ok completed =>
      obtain ⟨result, after⟩ := completed
      rw [ended] at cut
      change if result.gasUsed ≤ min low maxCallGas then _ else _ at cut
      dsimp only
      split at cut
      · rename_i enough
        rw [cut, if_pos enough]
        rfl
      · rename_i short
        obtain ⟨needed, failed⟩ := cut
        rw [failed, if_neg short]
        rfl

end Runs

section TwoSlots

attribute [local instance] SerdeJson.compact Blake3.polynomial

theorem call_limited_two :
    (call (leading 1) twoSlotCall Hash.zero [] 0 100).run.run twoSlotState =
      match (machine twoSlotState twoSlotCall twoSlotMeta Hash.zero [] 0 100000).run with
      | .ok (result, _) =>
          if result.gasUsed ≤ min 100 maxCallGas then
            (call (leading 1) twoSlotCall Hash.zero [] 0 100000).run.run twoSlotState
          else reverted twoSlotCall Hash.zero 100 twoSlotState
      | .error _ => reverted twoSlotCall Hash.zero 100 twoSlotState :=
  call_limited (leading 1) twoSlotCall [] 0 (show (100 : UInt64) ≤ 100000 by decide)
    (StateTree.getJson_putJson StateTree.empty (codeKey Hash.zero) twoSlotMeta)

end TwoSlots

end ContractPrism

end Veilux
