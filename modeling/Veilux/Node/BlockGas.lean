/-
The gas of the contract calls in a block.  The limit of a block counts what the
handlers report, so it holds the machines to it only where a report covers the run.
-/

import Veilux.Node.Assembly
import Veilux.Node.Replay
import Veilux.Prism.Costs

namespace Veilux

open ContractPrism (Covered flatCost started)

section Gas

variable [SerdeJson] [Blake3]

/-- The machine that a visited handler runs. -/
def ContractPrism.machine? (visit : Command × StateTree) : Option Vm :=
  if visit.1.prism = "contract" then started visit.2 visit.1 else none

/-- The gas that a visited handler consumes in the machine. -/
def ContractPrism.work (visit : Command × StateTree) : Nat :=
  ((machine? visit).map Vm.gasSpent).getD 0

/-- The machine of the visit, if any, is covered by what the handler reports. -/
def ContractPrism.Honest (visit : Command × StateTree) : Prop :=
  ∀ vm, machine? visit = some vm → Covered vm

open ContractPrism (Honest machine? work)

theorem Cascade.pays_shipped [Ed25519] [Inference] {order : IterationOrder}
    {visit : Command × StateTree} (honest : Honest visit) :
    (Cascade.shipped order).Pays work visit := by
  intro prism output after installed handled
  unfold work
  cases runs : machine? visit with
  | none => exact Nat.zero_le _
  | some vm =>
      have covered := honest vm runs
      unfold machine? at runs
      split at runs
      · rename_i named
        rw [named, Cascade.shipped_contract] at installed
        cases installed
        obtain ⟨called, final, ran, _, _, exact⟩ := @ContractPrism.handle_cost _ _ order _ _ _ runs
        change (ContractPrism.handle order visit.1).run.run visit.2 = _ at handled
        rw [ran] at handled
        cases handled
        exact exact.mpr covered
      · cases runs

namespace Node

/-- The gas of a block is at least that of its machines, unless the counter is full. -/
theorem executeAll_pays {cascade : Cascade} {bound : Nat} (modest : cascade.Modest bound)
    (small : maxCascadeDepth * bound < 2 ^ 64) {measure : Command × StateTree → Nat}
    {policy : FeePolicy} {price : U128} {proposer : PartyId} {commands : List Command}
    {acc exec : Execution}
    (executed : executeAll cascade policy price proposer commands acc = .ok exec)
    (pays : ∀ visit ∈ executeVisits cascade policy price proposer commands acc,
      cascade.Pays measure visit)
    (free : exec.gas.toNat < 2 ^ 64 - 1) :
    acc.gas.toNat +
        ((executeVisits cascade policy price proposer commands acc).map measure).sum ≤
      exec.gas.toNat := by
  induction commands generalizing acc with
  | nil =>
      cases executed
      exact le_refl _
  | cons command rest ih =>
      unfold executeAll at executed
      unfold executeVisits at pays ⊢
      cases ran : cascade.apply command acc.state with
      | mk result state =>
          rw [ran] at executed pays
          cases result with
          | error error => cases executed
          | ok receipt =>
              dsimp only at executed pays ⊢
              have here := Cascade.apply_pays modest small ran
                fun visit member => pays visit (List.mem_append_left _ member)
              have later := ih executed
                fun visit member => pays visit (List.mem_append_right _ member)
              have counted : (acc.charge policy price proposer command receipt state).gas.toNat =
                  min (acc.gas.toNat + receipt.totalCost.toNat) (2 ^ 64 - 1) :=
                saturatingAdd64_toNat _ _
              rw [List.map_append, List.sum_append]
              omega

/-- The gas consumed by the machines of a block. -/
def blockWork (node : Node) (block : Block) : Nat := ((node.blockVisits block).map work).sum

theorem commitBlock_verified [ChaCha20Poly1305] {env : Env} {node after : Node} {block : Block}
    {summary : BlockSummary} (committed : node.commitBlock env block = (.ok summary, after)) :
    ∃ exec, Verified env node block exec := by
  unfold commitBlock at committed
  cases verified : node.verifyBlock env block with
  | error error =>
      rw [verified] at committed
      cases committed
  | ok executed =>
      obtain ⟨events, state⟩ := executed
      obtain ⟨exec, checks, _⟩ := verifyBlock_verified verified
      exact ⟨exec, checks⟩

/-- The limit of a committed block bounds its machines, if their runs are covered. -/
theorem commitBlock_bounded [Ed25519] [ChaCha20Poly1305] [Inference] {order : IterationOrder}
    (priced : Inference.Priced) {env : Env} {node after : Node} {block : Block}
    {summary : BlockSummary} (shipped : node.cascade = Cascade.shipped order)
    (committed : node.commitBlock env block = (.ok summary, after))
    (counted : node.limits.maxBlockGas.toNat < 2 ^ 64 - 1)
    (honest : ∀ visit ∈ node.blockVisits block, Honest visit) :
    node.blockWork block ≤ node.limits.maxBlockGas.toNat := by
  obtain ⟨exec, checks⟩ := commitBlock_verified committed
  have within := UInt64.le_iff_toNat_le.mp checks.gas
  have modest : node.cascade.Modest costCeiling := by
    rw [shipped]
    exact Cascade.shipped_modest priced order
  have paid := executeAll_pays modest (by decide) checks.executed
    (fun visit member => by
      rw [shipped]
      exact Cascade.pays_shipped (honest visit member))
    (by omega)
  change (0 : UInt64).toNat + node.blockWork block ≤ _ at paid
  have start : (0 : UInt64).toNat = 0 := rfl
  omega

end Node

end Gas

/-! ### A call that fails -/

section Fixed

attribute [local instance] SerdeJson.compact Blake3.polynomial Ed25519.keyed
  ChaCha20Poly1305.keyed

/-- A model that answers nothing, at the listed price. -/
@[reducible] def pricedModel : Inference where
  run model _ := ([], AiPrism.inferenceCost model)

attribute [local instance] pricedModel

open ContractPrism (machine? work Honest)

namespace Node

def failingMeta (code : List UInt8) : ContractMeta :=
  { address := Hash.zero
    deployer := ⟨"alice"⟩
    code := code
    codeSize := code.length }

def failingOperation : ContractCommand := .call Hash.zero [] 0 6000

def failingCall : Command :=
  { prism := "contract"
    submitter := ⟨"alice"⟩
    visibility := .pub
    payload := toVec failingOperation
    nonce := 0 }

def failingState (code : List UInt8) : StateTree :=
  StateTree.empty.putJson (ContractPrism.codeKey Hash.zero) (failingMeta code)

/-- A node with the contract, whose blocks may use 1000. -/
noncomputable def failingNode (code : List UInt8) : Node :=
  { Node.new ⟨"v1"⟩ (Cascade.shipped (ContractPrism.leading 0)) with
    state := failingState code
    limits := { Limits.default with maxBlockGas := 1000 } }

def failedEvent : Event :=
  ContractPrism.event failingCall (.called Hash.zero none 6000 [] true)

def failingBlock (code : List UInt8) : Block :=
  { height := 1
    parent := Block.deterministicGenesis.hash
    eventsRoot := merkleRoot ([failedEvent].map Event.commitment)
    stateRoot := ((failingState code).putJson "chain/now" (10 : UInt64)).root
    timestamp := 10
    proposer := ⟨"v2"⟩
    events := []
    commands := [failingCall] }

noncomputable def failingVm (code : List UInt8) : Vm :=
  ContractPrism.machine ((failingState code).putJson "chain/now" (10 : UInt64)) failingCall
    (failingMeta code) Hash.zero [] 0 6000

theorem failing_found (code : List UInt8) :
    ((failingState code).putJson "chain/now" (10 : UInt64)).getJson ContractMeta
      (ContractPrism.codeKey Hash.zero) = .ok (some (failingMeta code)) := by
  have apart : "chain/now" ≠ ContractPrism.codeKey Hash.zero := by
    decide
  exact (StateTree.getJson_put_ne _ _ apart).trans (StateTree.getJson_putJson _ _ _)

theorem failing_parsed :
    fromSlice ContractCommand failingCall.payload = .ok failingOperation := by
  unfold failingCall
  rw [fromSlice_toVec]

theorem failing_started (code : List UInt8) :
    started ((failingState code).putJson "chain/now" (10 : UInt64)) failingCall =
      some (failingVm code) := by
  unfold started
  rw [failing_parsed]
  dsimp only [failingOperation]
  rw [failing_found]
  rfl

theorem failing_handled {code : List UInt8} {error : VmError}
    (failed : (failingVm code).run = .error error) :
    (ContractPrism.handle (ContractPrism.leading 0) failingCall).run.run
        ((failingState code).putJson "chain/now" (10 : UInt64)) =
      (.ok (.single failedEvent 500), (failingState code).putJson "chain/now" (10 : UInt64)) := by
  unfold ContractPrism.handle
  rw [failing_parsed]
  dsimp only [failingOperation]
  rw [ContractPrism.call_run, failing_found]
  dsimp only
  unfold failingVm at failed
  rw [failed]
  rfl

theorem failingNode_installed (code : List UInt8) :
    (failingNode code).cascade.prisms.lookup failingCall.prism =
      some (ContractPrism.prism (ContractPrism.leading 0)) :=
  Cascade.shipped_contract _

/-- The block with the failing call is committed, at a cost of 500. -/
theorem failingBlock_committed {code : List UInt8} {error : VmError}
    (failed : (failingVm code).run = .error error) :
    ∃ summary after,
      (failingNode code).commitBlock (.healthy 10) (failingBlock code) = (.ok summary, after) := by
  have executed : executeAll (failingNode code).cascade (failingNode code).feePolicy
      (basePrice ((failingNode code).openingState (failingBlock code).timestamp)
        (failingNode code).feePolicy)
      (failingBlock code).proposer (failingBlock code).commands
      ((failingNode code).opening (failingBlock code).timestamp) =
        .ok ⟨(failingState code).putJson "chain/now" (10 : UInt64), [failedEvent], 500⟩ := by
    have applied := Cascade.apply_single (failingNode_installed code) (failing_handled failed)
    refine (executeAll_single applied).trans ?_
    unfold Execution.charge
    have free : chargeFee (failingNode code).feePolicy (basePrice
        ((failingNode code).openingState (failingBlock code).timestamp)
        (failingNode code).feePolicy)
        ((failingState code).putJson "chain/now" (10 : UInt64)) failingCall.submitter
        (failingBlock code).proposer 500 = (failingState code).putJson "chain/now" (10 : UInt64) :=
      if_pos (.inl Bool.false_ne_true)
    have counted : saturatingAdd64 0 500 = 500 := by
      decide
    rw [free]
    change Except.ok (Execution.mk _ ([] ++ [failedEvent]) (saturatingAdd64 0 500)) = _
    rw [counted, List.nil_append]
  have steady : ¬ (failingNode code).feePolicy.dynamic = true := by
    change ¬ FeePolicy.default.dynamic = true
    decide
  have unchanged : adjustBasePrice ((failingState code).putJson "chain/now" (10 : UInt64))
      (failingNode code).feePolicy 500 = (failingState code).putJson "chain/now" (10 : UInt64) := by
    unfold adjustBasePrice
    rw [if_neg steady]
  have early : Block.deterministicGenesis.timestamp ≤ 10 := by
    decide
  have late : (10 : UInt64) ≤ saturatingAdd64 10 maxFutureDriftSecs := by
    decide
  have cheap : (500 : UInt64) ≤ 1000 := by
    decide
  have verified := @verifyBlock_ok _ _ (.healthy 10) (failingNode code) (failingBlock code) _
    rfl rfl early late executed cheap rfl (by rw [unchanged, failingBlock])
  have distinct : ((failingNode code).keyrings.map ViewKeyring.party).Nodup := List.nodup_nil
  obtain ⟨summary, ledgers, store, committed⟩ :=
    @commitBlock_ok _ _ _ (.healthy 10) (fun _ => rfl) _ _ _ _ verified distinct
  exact ⟨summary, _, committed⟩

theorem failingBlock_visits {code : List UInt8} {error : VmError}
    (failed : (failingVm code).run = .error error) :
    (failingNode code).blockVisits (failingBlock code) =
      [(failingCall, (failingState code).putJson "chain/now" (10 : UInt64))] := by
  have applied := Cascade.apply_single (failingNode_installed code) (failing_handled failed)
  refine (executeVisits_single applied).trans ?_
  exact Cascade.visits_single (failingNode_installed code) (failing_handled failed)

theorem failing_machine (code : List UInt8) :
    machine? (failingCall, (failingState code).putJson "chain/now" (10 : UInt64)) =
      some (failingVm code) :=
  (if_pos rfl).trans (failing_started code)

/-- The work of the block is what the one machine consumes. -/
theorem failingBlock_work {code : List UInt8} {error : VmError}
    (failed : (failingVm code).run = .error error) :
    (failingNode code).blockWork (failingBlock code) = (failingVm code).gasSpent := by
  unfold blockWork work
  rw [failingBlock_visits failed, List.map_singleton, failing_machine]
  rfl

/-- A code that reverts at once. -/
def revertAtOnce : List UInt8 := [0xfd]

theorem revertAtOnce_failed : (failingVm revertAtOnce).run = .error (.reverted "REVERT opcode") := by
  rfl

/-- A store and a revert. -/
def storeAndRevert : List UInt8 :=
  [0x60, 0, 0, 0, 0, 0, 0, 0, 0, 0x60, 0, 0, 0, 0, 0, 0, 0, 0, 0x55, 0xfd]

theorem storeAndRevert_failed : (failingVm storeAndRevert).run = .error (.reverted "REVERT opcode") := by
  rfl

end Node

end Fixed

end Veilux
