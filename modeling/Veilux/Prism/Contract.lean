/-
The contract prism of `prisms/contract/src/lib.rs`: deployment and calls of
PhotonVM code.

Contract storage is a `HashMap<u64, u64>` written to the state as JSON, entry by
entry in the order the map iterates in.  That order is a parameter of the
handler: any enumeration of the stored entries.
-/

import Veilux.Kernel.Prism
import Veilux.Prism.PhotonVm

namespace Veilux

/-! ### Hash maps on the wire -/

/-- An iteration order of the standard hash map. -/
structure IterationOrder where
  entries : Storage → List (UInt64 × UInt64)
  perm : ∀ storage, (entries storage).Perm storage.toList

/-- The entries of a JSON object with integer keys, in the order of the text. -/
structure Listing where
  entries : List (UInt64 × UInt64)

/-- Integer keys are written as decimal strings. -/
instance : Serialize Listing where
  toJson listing :=
    .obj (listing.entries.map fun entry => (Nat.repr entry.1.toNat, .num entry.2.toNat))
  toJson_injective := by
    intro left right same
    cases left
    cases right
    congr 1
    refine List.map_injective_iff.mpr ?_ (Json.obj.inj same)
    intro first second equal
    obtain ⟨keys, values⟩ := Prod.mk.inj equal
    exact Prod.ext (UInt64.toNat_inj.mp (Nat.repr_inj.mp keys))
      (UInt64.toNat_inj.mp (Json.num.inj values))

/-- Reading a hash map inserts the entries one after the other. -/
def Listing.storage (listing : Listing) : Storage :=
  listing.entries.foldl (fun storage entry => storage.insert entry.1 entry.2) ∅

instance : Serialize (Option UInt64) where
  toJson
    | none => .null
    | some value => toJson value
  toJson_injective := by
    intro left right same
    cases left with
    | none =>
        cases right with
        | none => rfl
        | some value => cases same
    | some value =>
        cases right with
        | none => cases same
        | some other => exact congrArg some (Serialize.toJson_injective same)

/-! ### Commands and events -/

structure ContractMeta where
  address : Hash
  deployer : PartyId
  code : List UInt8
  codeSize : Nat
  deriving DecidableEq

instance : Serialize ContractMeta where
  toJson info := .obj
    [("address", toJson info.address), ("deployer", toJson info.deployer),
      ("code", toJson info.code), ("code_size", toJson info.codeSize)]
  toJson_injective := by
    intro left right same
    cases left
    cases right
    simpa using same

inductive ContractCommand where
  | deploy (code : List UInt8)
  | call (address : Hash) (args : List UInt64) (value gasLimit : UInt64)
  deriving DecidableEq

instance : Serialize ContractCommand where
  toJson
    | .deploy code => .obj [("op", .str "deploy"), ("code", toJson code)]
    | .call address args value gasLimit => .obj
        [("op", .str "call"), ("address", toJson address), ("args", toJson args),
          ("value", toJson value), ("gas_limit", toJson gasLimit)]
  toJson_injective := by
    intro left right same
    cases left <;> cases right <;> simp_all

inductive ContractEvent where
  | deployed (address : Hash) (codeSize : Nat)
  | called (address : Hash) (returnValue : Option UInt64) (gasUsed : UInt64)
      (logs : List UInt64) (reverted : Bool)

instance : Serialize ContractEvent where
  toJson
    | .deployed address codeSize => .obj
        [("kind", .str "deployed"), ("address", toJson address), ("code_size", toJson codeSize)]
    | .called address returnValue gasUsed logs reverted => .obj
        [("kind", .str "called"), ("address", toJson address),
          ("return_value", toJson returnValue), ("gas_used", toJson gasUsed),
          ("logs", toJson logs), ("reverted", toJson reverted)]
  toJson_injective := by
    intro left right same
    cases left <;> cases right <;> simp_all

namespace ContractPrism

def codePrefix : String := "contract/code/"
def storePrefix : String := "contract/store/"
def maxCodeSize : Nat := 48 * 1024

def codeKey (address : Hash) : String := codePrefix ++ address.toHex

def storeKey (address : Hash) : String := storePrefix ++ address.toHex

def maxCallGas : UInt64 := 10000000

section Handlers

variable [SerdeJson]

def loadStorage (state : StateTree) (address : Hash) : Storage :=
  match state.getJson? Listing (storeKey address) with
  | none => ∅
  | some listing => listing.storage

variable [Blake3]

def event (command : Command) (payload : ContractEvent) : Event :=
  { sourceCommand := command.id
    prism := "contract"
    visibility := command.visibility
    payload := toVec payload }

def deploy (command : Command) (code : List UInt8) : PrismM PrismOutput := do
  if maxCodeSize < code.length then
    throw (.limitExceeded
      ("code size " ++ Nat.repr code.length ++ " exceeds max " ++ Nat.repr maxCodeSize))
  let address := Hash.commit "contract/address"
    [command.submitter.bytes, Bytes.leBytes 8 command.nonce.toNat, code]
  let info : ContractMeta :=
    { address := address
      deployer := command.submitter
      code := code
      codeSize := code.length }
  modify fun state => state.putJson (codeKey address) info
  return .single (event command (.deployed address info.codeSize))
    (32000 + UInt64.ofNat info.codeSize * 200)

/-- The context a call runs in: the first eight bytes of the caller's hash. -/
def context (command : Command) (args : List UInt64) (value : UInt64) : ExecContext :=
  { callerHash := Vm.fromBeBytes (command.submitter.idHash.asBytes.take 8)
    callValue := value
    args := args }

/-- The machine a call starts: the deployed code over the stored slots. -/
def machine (state : StateTree) (command : Command) (info : ContractMeta) (address : Hash)
    (args : List UInt64) (value gasLimit : UInt64) : Vm :=
  Vm.new info.code (min gasLimit maxCallGas) (loadStorage state address)
    (context command args value)

def call (order : IterationOrder) (command : Command) (address : Hash) (args : List UInt64)
    (value gasLimit : UInt64) : PrismM PrismOutput := do
  match (← get).getJson ContractMeta (codeKey address) with
  | .error error => throw (.internal error.text)
  | .ok none => throw (.notFound ("contract " ++ address.toHex))
  | .ok (some info) =>
      match (machine (← get) command info address args value gasLimit).run with
      | .ok (result, vm) =>
          modify fun state => state.putJson (storeKey address) (Listing.mk (order.entries vm.storage))
          return .single
            (event command (.called address result.returnValue result.gasUsed result.logs false))
            result.gasUsed
      | .error _ =>
          return .single
            (event command (.called address none (min gasLimit maxCallGas) [] true)) 500

def handle (order : IterationOrder) (command : Command) : PrismM PrismOutput :=
  match fromSlice ContractCommand command.payload with
  | .error text => throw (.invalidPayload text)
  | .ok (.deploy code) => deploy command code
  | .ok (.call address args value gasLimit) => call order command address args value gasLimit

def prism (order : IterationOrder) : Prism :=
  { name := "contract"
    handle := handle order }

/-! ### Dependence on the iteration order -/

/-- Slots filled before a run or written by it. -/
def Touched (vm : Vm) (slot : UInt64) : Prop :=
  slot ∈ vm.storage ∨ slot ∈ Vm.writes (vm.gasLimit.toNat + 1) vm

/-- A completing call has at most one slot stored or written by its code. -/
def OneSlot (state : StateTree) (command : Command) : Prop :=
  match fromSlice ContractCommand command.payload with
  | .ok (.call address args value gasLimit) =>
      ∀ info result, state.getJson ContractMeta (codeKey address) = .ok (some info) →
        (machine state command info address args value gasLimit).run = .ok result →
        ∀ first second,
          Touched (machine state command info address args value gasLimit) first →
          Touched (machine state command info address args value gasLimit) second →
          first = second
  | _ => True

theorem machine_room (state : StateTree) (command : Command) (info : ContractMeta)
    (address : Hash) (args : List UInt64) (value gasLimit : UInt64) :
    (machine state command info address args value gasLimit).gasLimit.toNat + 5000 < 2 ^ 64 := by
  change (min gasLimit maxCallGas).toNat + 5000 < 2 ^ 64
  have bound : (min gasLimit maxCallGas).toNat ≤ 10000000 := by
    change (if gasLimit ≤ maxCallGas then gasLimit else maxCallGas).toNat ≤ 10000000
    split
    · rename_i below
      exact UInt64.le_iff_toNat_le.mp below
    · exact Nat.le_refl 10000000
  omega

/-- The slots filled when a call completes are the touched ones. -/
theorem mem_storage_iff_touched {state : StateTree} {command : Command} {info : ContractMeta}
    {address : Hash} {args : List UInt64} {value gasLimit : UInt64} {result : ExecResult}
    {vm : Vm}
    (ran : (machine state command info address args value gasLimit).run = .ok (result, vm))
    (slot : UInt64) :
    slot ∈ vm.storage ↔ Touched (machine state command info address args value gasLimit) slot := by
  have looped := Vm.run_eq_loop info.code (min gasLimit maxCallGas) (loadStorage state address)
    (context command args value) (machine_room state command info address args value gasLimit)
  change Vm.loop _ (machine state command info address args value gasLimit) =
    some (machine state command info address args value gasLimit).run at looped
  rw [ran] at looped
  exact Vm.loop_storage _ _ looped slot

end Handlers

/-- The order that lists one slot before all others. -/
def leading (slot : UInt64) : IterationOrder where
  entries storage :=
    storage.toList.filter (fun entry => entry.1 = slot) ++
      storage.toList.filter (fun entry => !decide (entry.1 = slot))
  perm _ := List.filter_append_perm _ _

theorem leading_head {storage : Storage} {slot : UInt64} (member : slot ∈ storage) :
    ((leading slot).entries storage).head?.map Prod.fst = some slot := by
  obtain ⟨value, stored⟩ := Std.ExtTreeMap.mem_iff_isSome_getElem?.mp member |>
    Option.isSome_iff_exists.mp
  have listed : (slot, value) ∈ storage.toList.filter (fun entry => entry.1 = slot) :=
    List.mem_filter.mpr
      ⟨Std.ExtTreeMap.mem_toList_iff_getElem?_eq_some.mpr stored, decide_eq_true rfl⟩
  unfold leading
  cases front : storage.toList.filter (fun entry => entry.1 = slot) with
  | nil =>
      rw [front] at listed
      cases listed
  | cons head tail =>
      have first : head ∈ storage.toList.filter (fun entry => entry.1 = slot) := by
        rw [front]
        exact List.mem_cons_self
      simp only [front, List.cons_append, List.head?_cons, Option.map_some]
      exact congrArg some (of_decide_eq_true (List.mem_filter.mp first).2)

/-- All orders list the storage alike exactly when it fills at most one slot. -/
theorem entries_eq_iff (storage : Storage) :
    (∀ left right : IterationOrder, left.entries storage = right.entries storage) ↔
      ∀ first second, first ∈ storage → second ∈ storage → first = second := by
  constructor
  · intro same first second inFirst inSecond
    have heads := congrArg (fun entries => entries.head?.map Prod.fst)
      (same (leading first) (leading second))
    rw [leading_head inFirst, leading_head inSecond] at heads
    exact Option.some.inj heads
  · intro single left right
    have leftPerm := left.perm storage
    have rightPerm := right.perm storage
    have distinct := Std.ExtTreeMap.distinct_keys_toList (t := storage)
    have members : ∀ entry ∈ storage.toList, entry.1 ∈ storage := by
      intro entry member
      exact Std.ExtTreeMap.mem_iff_isSome_getElem?.mpr (Option.isSome_iff_exists.mpr
        ⟨entry.2, Std.ExtTreeMap.mem_toList_iff_getElem?_eq_some.mp member⟩)
    match shape : storage.toList with
    | [] =>
        rw [shape] at leftPerm rightPerm
        rw [leftPerm.eq_nil, rightPerm.eq_nil]
    | [entry] =>
        rw [shape] at leftPerm rightPerm
        rw [List.perm_singleton.mp leftPerm, List.perm_singleton.mp rightPerm]
    | first :: second :: rest =>
        -- Two entries have different keys, but both are filled.
        rw [shape] at distinct members
        have same := single first.1 second.1 (members first List.mem_cons_self)
          (members second (List.mem_cons_of_mem _ List.mem_cons_self))
        have different := (List.pairwise_cons.mp distinct).1 second List.mem_cons_self
        rw [same] at different
        exact absurd Std.ReflCmp.compare_self different

theorem putJson_listing_inj {state : StateTree} {key : String} {left right : Listing}
    (same : state.putJson key left = state.putJson key right) : left = right := by
  have reads := congrArg (fun tree => tree.get key) same
  simp only [StateTree.putJson, StateTree.get_put_self, Option.some.injEq] at reads
  exact toVec_injective reads

section Determinism

variable [SerdeJson] [Blake3]

/-- A call by cases: the state is rewritten only when the code completes. -/
theorem call_run (order : IterationOrder) (state : StateTree) (command : Command)
    (address : Hash) (args : List UInt64) (value gasLimit : UInt64) :
    (call order command address args value gasLimit).run.run state =
      match state.getJson ContractMeta (codeKey address) with
      | .error error => (.error (.internal error.text), state)
      | .ok none => (.error (.notFound ("contract " ++ address.toHex)), state)
      | .ok (some info) =>
          match (machine state command info address args value gasLimit).run with
          | .ok (result, vm) =>
              (.ok (.single
                (event command (.called address result.returnValue result.gasUsed result.logs false))
                result.gasUsed),
                state.putJson (storeKey address) (Listing.mk (order.entries vm.storage)))
          | .error _ =>
              (.ok (.single
                (event command (.called address none (min gasLimit maxCallGas) [] true)) 500),
                state) := by
  unfold call
  rw [PrismM.run_bind_ok (show (get : PrismM StateTree).run.run state = (.ok state, state) from rfl)]
  cases state.getJson ContractMeta (codeKey address) with
  | error error => rfl
  | ok found =>
      cases found with
      | none => rfl
      | some info =>
          dsimp only
          rw [PrismM.run_bind_ok
            (show (get : PrismM StateTree).run.run state = (.ok state, state) from rfl)]
          cases (machine state command info address args value gasLimit).run with
          | error error => rfl
          | ok completed => rfl

theorem call_state (order : IterationOrder) (state : StateTree) (command : Command)
    (address : Hash) (args : List UInt64) (value gasLimit : UInt64) :
    ((call order command address args value gasLimit).run.run state).2 =
      match state.getJson ContractMeta (codeKey address) with
      | .ok (some info) =>
          match (machine state command info address args value gasLimit).run with
          | .ok (_, vm) =>
              state.putJson (storeKey address) (Listing.mk (order.entries vm.storage))
          | .error _ => state
      | _ => state := by
  rw [call_run]
  cases state.getJson ContractMeta (codeKey address) with
  | error error => rfl
  | ok found =>
      cases found with
      | none => rfl
      | some info =>
          dsimp only
          cases (machine state command info address args value gasLimit).run with
          | error error => rfl
          | ok completed => rfl

/-- With one touched slot there is one order to list it in. -/
theorem entries_eq_of_touched {state : StateTree} {command : Command} {info : ContractMeta}
    {address : Hash} {args : List UInt64} {value gasLimit : UInt64} {result : ExecResult}
    {vm : Vm}
    (ran : (machine state command info address args value gasLimit).run = .ok (result, vm))
    (single : ∀ first second,
      Touched (machine state command info address args value gasLimit) first →
      Touched (machine state command info address args value gasLimit) second → first = second)
    (left right : IterationOrder) : left.entries vm.storage = right.entries vm.storage := by
  refine (entries_eq_iff vm.storage).mpr ?_ left right
  intro first second
  rw [mem_storage_iff_touched ran, mem_storage_iff_touched ran]
  exact single first second

/-- A command that leaves one slot does the same under every iteration order. -/
theorem handle_order_eq {state : StateTree} {command : Command}
    (single : OneSlot state command) (left right : IterationOrder) :
    (handle left command).run.run state = (handle right command).run.run state := by
  unfold handle
  unfold OneSlot at single
  cases parsed : fromSlice ContractCommand command.payload with
  | error text => rfl
  | ok operation =>
      rw [parsed] at single
      cases operation with
      | deploy code => rfl
      | call address args value gasLimit =>
          dsimp only at single ⊢
          rw [call_run, call_run]
          cases found : state.getJson ContractMeta (codeKey address) with
          | error error => rfl
          | ok stored =>
              cases stored with
              | none => rfl
              | some info =>
                  dsimp only
                  cases ran : (machine state command info address args value gasLimit).run with
                  | error error => rfl
                  | ok completed =>
                      obtain ⟨result, vm⟩ := completed
                      dsimp only
                      rw [entries_eq_of_touched ran (single info _ found ran) left right]

/-- Every pair of iteration orders leaves the same state, and so the same root,
exactly when the command is not a call that completes with two or more slots
stored or written. -/
theorem final_state_unique_iff (state : StateTree) (command : Command) :
    (∀ left right : IterationOrder,
      ((handle left command).run.run state).2 = ((handle right command).run.run state).2 ∧
      ((handle left command).run.run state).2.root =
        ((handle right command).run.run state).2.root) ↔
    OneSlot state command := by
  have rootless : (∀ left right : IterationOrder,
      ((handle left command).run.run state).2 = ((handle right command).run.run state).2 ∧
      ((handle left command).run.run state).2.root =
        ((handle right command).run.run state).2.root) ↔
      ∀ left right : IterationOrder,
        ((handle left command).run.run state).2 = ((handle right command).run.run state).2 := by
    constructor
    · intro both left right
      exact (both left right).1
    · intro same left right
      exact ⟨same left right, by rw [same left right]⟩
  rw [rootless]
  unfold handle OneSlot
  cases fromSlice ContractCommand command.payload with
  | error text => exact iff_of_true (fun _ _ => rfl) trivial
  | ok operation =>
      cases operation with
      | deploy code => exact iff_of_true (fun _ _ => rfl) trivial
      | call address args value gasLimit =>
          simp only [call_state]
          cases found : state.getJson ContractMeta (codeKey address) with
          | error error =>
              refine iff_of_true (fun _ _ => rfl) ?_
              intro info result impossible
              cases impossible
          | ok stored =>
              cases stored with
              | none =>
                  refine iff_of_true (fun _ _ => rfl) ?_
                  intro info result impossible
                  cases impossible
              | some info =>
                  simp only [Except.ok.injEq, Option.some.injEq]
                  cases ran : (machine state command info address args value gasLimit).run with
                  | error error =>
                      refine iff_of_true (fun _ _ => rfl) ?_
                      rintro _ result rfl impossible
                      rw [ran] at impossible
                      cases impossible
                  | ok completed =>
                      obtain ⟨result, vm⟩ := completed
                      dsimp only
                      constructor
                      · rintro same _ _ rfl _ first second
                        rw [← mem_storage_iff_touched ran, ← mem_storage_iff_touched ran]
                        refine (entries_eq_iff vm.storage).mp ?_ first second
                        intro left right
                        exact Listing.mk.inj (putJson_listing_inj (same left right))
                      · intro single left right
                        rw [entries_eq_of_touched ran (single info _ rfl ran) left right]

end Determinism

/-! ### A contract with two slots -/

section TwoSlots

attribute [local instance] SerdeJson.compact Blake3.polynomial

/-- Stores 7 in slot 1 and 8 in slot 2. -/
def twoSlotCode : List UInt8 :=
  let push (value : UInt8) : List UInt8 := [0x60, 0, 0, 0, 0, 0, 0, 0, value]
  push 7 ++ push 1 ++ [0x55] ++ push 8 ++ push 2 ++ [0x55]

def twoSlotMeta : ContractMeta :=
  { address := Hash.zero
    deployer := ⟨"alice"⟩
    code := twoSlotCode
    codeSize := twoSlotCode.length }

def twoSlotState : StateTree := StateTree.empty.putJson (codeKey Hash.zero) twoSlotMeta

def twoSlotCall : Command :=
  { prism := "contract"
    submitter := ⟨"bob"⟩
    visibility := .pub
    payload := toVec (ContractCommand.call Hash.zero [] 0 100000)
    nonce := 0 }

theorem twoSlot_run :
    ∃ result vm, (Vm.new twoSlotCode 100000 ∅ (context twoSlotCall [] 0)).run = .ok (result, vm) ∧
      (1 : UInt64) ∈ vm.storage ∧ (2 : UInt64) ∈ vm.storage := by
  have filled : (match (Vm.new twoSlotCode 100000 ∅ (context twoSlotCall [] 0)).run with
      | .ok (_, vm) => vm.storage.contains 1 && vm.storage.contains 2
      | .error _ => false) = true := by
    decide +kernel
  cases ran : (Vm.new twoSlotCode 100000 ∅ (context twoSlotCall [] 0)).run with
  | error error =>
      rw [ran] at filled
      cases filled
  | ok completed =>
      rw [ran] at filled
      obtain ⟨first, second⟩ := Bool.and_eq_true_iff.mp filled
      exact ⟨completed.1, completed.2, rfl, Std.ExtTreeMap.contains_iff_mem.mp first,
        Std.ExtTreeMap.contains_iff_mem.mp second⟩

/-- Two nodes that iterate the two slots in different orders end in different states. -/
theorem final_state_differs :
    ((handle (leading 1) twoSlotCall).run.run twoSlotState).2 ≠
      ((handle (leading 2) twoSlotCall).run.run twoSlotState).2 := by
  have loaded : twoSlotState.getJson ContractMeta (codeKey Hash.zero) = .ok (some twoSlotMeta) :=
    StateTree.getJson_putJson StateTree.empty (codeKey Hash.zero) twoSlotMeta
  have fresh : loadStorage twoSlotState Hash.zero = ∅ := by
    have different : codeKey Hash.zero ≠ storeKey Hash.zero := by
      intro same
      have texts := congrArg (fun text => text.toList[9]?) same
      simp [codeKey, storeKey, codePrefix, storePrefix] at texts
    have absent : twoSlotState.getJson? Listing (storeKey Hash.zero) = none := by
      unfold twoSlotState StateTree.putJson
      rw [StateTree.getJson?_put_ne _ _ different]
      simp only [StateTree.getJson?, StateTree.getJson, StateTree.get_empty]
    unfold loadStorage
    rw [absent]
  obtain ⟨result, vm, ran, inFirst, inSecond⟩ := twoSlot_run
  have started : machine twoSlotState twoSlotCall twoSlotMeta Hash.zero [] 0 100000 =
      Vm.new twoSlotCode 100000 ∅ (context twoSlotCall [] 0) := by
    unfold machine
    rw [fresh]
    rfl
  have parsed : fromSlice ContractCommand twoSlotCall.payload =
      .ok (.call Hash.zero [] 0 100000) := by
    simp only [twoSlotCall, fromSlice_toVec]
  intro same
  unfold handle at same
  simp only [parsed, call_state, loaded, started, ran] at same
  have listings : Listing.mk ((leading 1).entries vm.storage) =
      Listing.mk ((leading 2).entries vm.storage) := putJson_listing_inj same
  have heads := congrArg (fun listing => listing.entries.head?.map Prod.fst) listings
  rw [leading_head inFirst, leading_head inSecond] at heads
  cases heads

end TwoSlots

end ContractPrism

end Veilux
