/-
PhotonVM, the stack machine of `prisms/contract/src/vm.rs`.  The top of the stack
is the head of the list.  Contract storage is a hash map in the source: the
machine only reads and inserts single slots, so its contents are a finite map.

Every instruction costs gas, so the main loop ends within the gas limit.
-/

import Mathlib

namespace Veilux

inductive VmError where
  | stackUnderflow
  | stackOverflow
  | outOfGas (needed had : UInt64)
  | invalidOpcode (op : UInt8)
  | invalidJump (dest : Nat)
  | divByZero
  | reverted (text : String)
  | truncatedOperand
  deriving DecidableEq

inductive Opcode where
  | stop | add | sub | mul | div | mod | lt | gt | eq | isZero | and | or | not | pop | dup | swap
  | push8 | sload | sstore | jump | jumpi | jumpdest | caller | callValue | arg | log | ret | revert
  deriving DecidableEq

def Opcode.ofByte : UInt8 → Option Opcode
  | 0x00 => some .stop
  | 0x01 => some .add
  | 0x02 => some .sub
  | 0x03 => some .mul
  | 0x04 => some .div
  | 0x05 => some .mod
  | 0x10 => some .lt
  | 0x11 => some .gt
  | 0x12 => some .eq
  | 0x13 => some .isZero
  | 0x16 => some .and
  | 0x17 => some .or
  | 0x19 => some .not
  | 0x50 => some .pop
  | 0x51 => some .dup
  | 0x52 => some .swap
  | 0x60 => some .push8
  | 0x54 => some .sload
  | 0x55 => some .sstore
  | 0x56 => some .jump
  | 0x57 => some .jumpi
  | 0x5b => some .jumpdest
  | 0x33 => some .caller
  | 0x34 => some .callValue
  | 0x35 => some .arg
  | 0xa0 => some .log
  | 0xf3 => some .ret
  | 0xfd => some .revert
  | _ => none

def opcodeGas (op : UInt8) : UInt64 :=
  match Opcode.ofByte op with
  | some .stop | some .jumpdest => 1
  | some .sload => 200
  | some .sstore => 5000
  | some .push8 | some .dup | some .swap | some .pop => 3
  | some .jump | some .jumpi => 8
  | some .log => 375
  | _ => 5

/-- The contents of the `HashMap<u64, u64>` behind a contract. -/
abbrev Storage := Std.ExtTreeMap UInt64 UInt64

structure ExecContext where
  callerHash : UInt64
  callValue : UInt64
  args : List UInt64

structure ExecResult where
  returnValue : Option UInt64
  gasUsed : UInt64
  logs : List UInt64
  reverted : Bool

structure Vm where
  code : List UInt8
  stack : List UInt64
  pc : Nat
  gas : UInt64
  gasLimit : UInt64
  storage : Storage
  ctx : ExecContext
  logs : List UInt64
  jumpdests : List Nat

namespace Vm

def maxStack : Nat := 1024

def jumpdestByte : UInt8 := 0x5b

def new (code : List UInt8) (gasLimit : UInt64) (storage : Storage) (ctx : ExecContext) : Vm :=
  { code := code
    stack := []
    pc := 0
    gas := 0
    gasLimit := gasLimit
    storage := storage
    ctx := ctx
    logs := []
    jumpdests := (List.range code.length).filter fun index => code[index]? = some jumpdestByte }

def charge (vm : Vm) (amount : UInt64) : Except VmError Vm :=
  let gas := vm.gas + amount
  if vm.gasLimit < gas then .error (.outOfGas gas vm.gasLimit)
  else .ok { vm with gas := gas }

def push (vm : Vm) (value : UInt64) : Except VmError Vm :=
  if maxStack ≤ vm.stack.length then .error .stackOverflow
  else .ok { vm with stack := value :: vm.stack }

def pop (vm : Vm) : Except VmError (UInt64 × Vm) :=
  match vm.stack with
  | [] => .error .stackUnderflow
  | top :: rest => .ok (top, { vm with stack := rest })

/-- The operand pushed last is the right one. -/
def pop2 (vm : Vm) : Except VmError (UInt64 × UInt64 × Vm) := do
  let (right, vm) ← vm.pop
  let (left, vm) ← vm.pop
  return (left, right, vm)

def jumpTo (vm : Vm) (dest : Nat) : Except VmError Vm :=
  if vm.jumpdests.contains dest then .ok { vm with pc := dest }
  else .error (.invalidJump dest)

def finish (vm : Vm) (returnValue : Option UInt64) (reverted : Bool) : ExecResult :=
  { returnValue := returnValue
    gasUsed := vm.gas
    logs := vm.logs
    reverted := reverted }

/-- How an instruction leaves the loop body: to the closing `pc += 1`, by
`continue`, or by `return`. -/
inductive Flow where
  | advance (vm : Vm)
  | resume (vm : Vm)
  | halt (returnValue : Option UInt64) (vm : Vm)

def Flow.vm : Flow → Vm
  | .advance vm => vm
  | .resume vm => vm
  | .halt _ vm => vm

def binary (vm : Vm) (operation : UInt64 → UInt64 → UInt64) : Except VmError Flow := do
  let (left, right, vm) ← vm.pop2
  return .advance (← vm.push (operation left right))

def dividing (vm : Vm) (operation : UInt64 → UInt64 → UInt64) : Except VmError Flow := do
  let (left, right, vm) ← vm.pop2
  if right = 0 then
    throw .divByZero
  return .advance (← vm.push (operation left right))

def unary (vm : Vm) (operation : UInt64 → UInt64) : Except VmError Flow := do
  let (value, vm) ← vm.pop
  return .advance (← vm.push (operation value))

def flag (holds : Bool) : UInt64 := if holds then 1 else 0

/-- `u64::from_be_bytes`. -/
def fromBeBytes (bytes : List UInt8) : UInt64 :=
  bytes.foldl (fun value byte => value * 256 + byte.toUInt64) 0

def exec (vm : Vm) : Opcode → Except VmError Flow
  | .stop => return .halt none vm
  | .add => vm.binary (· + ·)
  | .sub => vm.binary (· - ·)
  | .mul => vm.binary (· * ·)
  | .div => vm.dividing (· / ·)
  | .mod => vm.dividing (· % ·)
  | .lt => vm.binary fun left right => flag (left < right)
  | .gt => vm.binary fun left right => flag (right < left)
  | .eq => vm.binary fun left right => flag (left = right)
  | .isZero => vm.unary fun value => flag (value = 0)
  | .and => vm.binary (· &&& ·)
  | .or => vm.binary (· ||| ·)
  | .not => vm.unary (~~~ ·)
  | .pop => do
      let (_, vm) ← vm.pop
      return .advance vm
  | .dup =>
      match vm.stack with
      | [] => throw .stackUnderflow
      | top :: _ => return .advance (← vm.push top)
  | .swap =>
      match vm.stack with
      | first :: second :: rest => return .advance { vm with stack := second :: first :: rest }
      | _ => throw .stackUnderflow
  | .push8 => do
      let start := vm.pc + 1
      let stop := start + 8
      if vm.code.length < stop then
        throw .truncatedOperand
      let vm ← vm.push (fromBeBytes ((vm.code.drop start).take 8))
      return .resume { vm with pc := stop }
  | .sload => do
      let (key, vm) ← vm.pop
      return .advance (← vm.push (vm.storage[key]?.getD 0))
  | .sstore => do
      let (key, vm) ← vm.pop
      let (value, vm) ← vm.pop
      return .advance { vm with storage := vm.storage.insert key value }
  | .jump => do
      let (dest, vm) ← vm.pop
      return .resume (← vm.jumpTo dest.toNat)
  | .jumpi => do
      let (dest, vm) ← vm.pop
      let (cond, vm) ← vm.pop
      if cond ≠ 0 then
        return .resume (← vm.jumpTo dest.toNat)
      return .advance vm
  | .jumpdest => return .advance vm
  | .caller => return .advance (← vm.push vm.ctx.callerHash)
  | .callValue => return .advance (← vm.push vm.ctx.callValue)
  | .arg => do
      let (index, vm) ← vm.pop
      return .advance (← vm.push (vm.ctx.args[index.toNat]?.getD 0))
  | .log => do
      let (value, vm) ← vm.pop
      return .advance { vm with logs := vm.logs ++ [value] }
  | .ret => do
      let (value, vm) ← vm.pop
      return .halt (some value) vm
  | .revert => throw (.reverted "REVERT opcode")

/-! ### The loop -/

inductive Step where
  | next (vm : Vm)
  | done (result : ExecResult) (vm : Vm)
  | fail (error : VmError)

/-- One round of the `loop`. -/
def step (vm : Vm) : Step :=
  match vm.code[vm.pc]? with
  | none => .done (vm.finish none false) vm
  | some byte =>
      match vm.charge (opcodeGas byte) with
      | .error error => .fail error
      | .ok vm =>
          match Opcode.ofByte byte with
          | none => .fail (.invalidOpcode byte)
          | some op =>
              match vm.exec op with
              | .error error => .fail error
              | .ok (.advance vm) => .next { vm with pc := vm.pc + 1 }
              | .ok (.resume vm) => .next vm
              | .ok (.halt returnValue vm) => .done (vm.finish returnValue false) vm

def loop : Nat → Vm → Option (Except VmError (ExecResult × Vm))
  | 0, _ => none
  | fuel + 1, vm =>
      match vm.step with
      | .next vm => loop fuel vm
      | .done result vm => some (.ok (result, vm))
      | .fail error => some (.error error)

/-- `Vm::run`; by `loop_isSome` the rounds allowed here are never used up. -/
def run (vm : Vm) : Except VmError (ExecResult × Vm) :=
  (loop (vm.gasLimit.toNat + 1) vm).getD (.error (.outOfGas vm.gas vm.gasLimit))

/-! ### What an instruction leaves alone -/

/-- Gas accounting and storage are as before. -/
structure Frame (before after : Vm) : Prop where
  gas : after.gas = before.gas
  gasLimit : after.gasLimit = before.gasLimit
  storage : after.storage = before.storage

theorem Frame.refl (vm : Vm) : Frame vm vm := ⟨rfl, rfl, rfl⟩

theorem Frame.trans {first second third : Vm} (left : Frame first second)
    (right : Frame second third) : Frame first third :=
  ⟨right.gas.trans left.gas, right.gasLimit.trans left.gasLimit,
    right.storage.trans left.storage⟩

private theorem bind_ok {α β : Type} {first : Except VmError α} {next : α → Except VmError β}
    {result : β} (ran : (first >>= next) = .ok result) :
    ∃ value, first = .ok value ∧ next value = .ok result := by
  cases first with
  | error error => cases ran
  | ok value => exact ⟨value, rfl, ran⟩

variable {vm after : Vm}

theorem push_frame {value : UInt64} (pushed : vm.push value = .ok after) : Frame vm after := by
  unfold push at pushed
  split at pushed
  · cases pushed
  · cases pushed
    exact ⟨rfl, rfl, rfl⟩

theorem pop_eq {value : UInt64} (popped : vm.pop = .ok (value, after)) :
    ∃ rest, vm.stack = value :: rest ∧ after = { vm with stack := rest } := by
  unfold pop at popped
  split at popped
  · cases popped
  · rename_i top rest shape
    cases popped
    exact ⟨rest, shape, rfl⟩

theorem pop_frame {value : UInt64} (popped : vm.pop = .ok (value, after)) : Frame vm after := by
  obtain ⟨rest, _, rfl⟩ := pop_eq popped
  exact ⟨rfl, rfl, rfl⟩

theorem pop2_frame {left right : UInt64} (popped : vm.pop2 = .ok (left, right, after)) :
    Frame vm after := by
  unfold pop2 at popped
  obtain ⟨⟨last, middle⟩, first, popped⟩ := bind_ok popped
  obtain ⟨⟨value, final⟩, second, popped⟩ := bind_ok popped
  cases popped
  exact (pop_frame first).trans (pop_frame second)

theorem jumpTo_frame {dest : Nat} (jumped : vm.jumpTo dest = .ok after) : Frame vm after := by
  unfold jumpTo at jumped
  split at jumped
  · cases jumped
    exact ⟨rfl, rfl, rfl⟩
  · cases jumped

theorem binary_frame {operation : UInt64 → UInt64 → UInt64} {flow : Flow}
    (ran : vm.binary operation = .ok flow) : Frame vm flow.vm := by
  unfold binary at ran
  obtain ⟨⟨left, right, middle⟩, popped, ran⟩ := bind_ok ran
  obtain ⟨final, pushed, ran⟩ := bind_ok ran
  cases ran
  exact (pop2_frame popped).trans (push_frame pushed)

theorem dividing_frame {operation : UInt64 → UInt64 → UInt64} {flow : Flow}
    (ran : vm.dividing operation = .ok flow) : Frame vm flow.vm := by
  unfold dividing at ran
  obtain ⟨⟨left, right, middle⟩, popped, ran⟩ := bind_ok ran
  by_cases zero : right = 0
  · simp only [zero, if_true] at ran
    cases ran
  · simp only [zero, if_false] at ran
    obtain ⟨final, pushed, ran⟩ := bind_ok ran
    cases ran
    exact (pop2_frame popped).trans (push_frame pushed)

theorem unary_frame {operation : UInt64 → UInt64} {flow : Flow}
    (ran : vm.unary operation = .ok flow) : Frame vm flow.vm := by
  unfold unary at ran
  obtain ⟨⟨value, middle⟩, popped, ran⟩ := bind_ok ran
  obtain ⟨final, pushed, ran⟩ := bind_ok ran
  cases ran
  exact (pop_frame popped).trans (push_frame pushed)

/-- Only `SSTORE` touches the storage. -/
theorem exec_frame {op : Opcode} {flow : Flow} (ran : vm.exec op = .ok flow)
    (reads : op ≠ .sstore) : Frame vm flow.vm := by
  cases op with
  | sstore => exact absurd rfl reads
  | stop =>
      cases ran
      exact Frame.refl vm
  | add => exact binary_frame ran
  | sub => exact binary_frame ran
  | mul => exact binary_frame ran
  | div => exact dividing_frame ran
  | mod => exact dividing_frame ran
  | lt =>
      unfold exec at ran
      exact binary_frame ran
  | gt =>
      unfold exec at ran
      exact binary_frame ran
  | eq =>
      unfold exec at ran
      exact binary_frame ran
  | isZero =>
      unfold exec at ran
      exact unary_frame ran
  | and => exact binary_frame ran
  | or => exact binary_frame ran
  | not => exact unary_frame ran
  | pop =>
      obtain ⟨⟨value, middle⟩, popped, ran⟩ := bind_ok ran
      cases ran
      exact pop_frame popped
  | dup =>
      unfold exec at ran
      dsimp only at ran
      split at ran
      · cases ran
      · obtain ⟨final, pushed, ran⟩ := bind_ok ran
        cases ran
        exact push_frame pushed
  | swap =>
      unfold exec at ran
      dsimp only at ran
      split at ran
      · cases ran
        exact ⟨rfl, rfl, rfl⟩
      · cases ran
  | push8 =>
      unfold exec at ran
      dsimp only at ran
      split at ran
      · cases ran
      · obtain ⟨final, pushed, ran⟩ := bind_ok ran
        cases ran
        exact ⟨(push_frame pushed).gas, (push_frame pushed).gasLimit, (push_frame pushed).storage⟩
  | sload =>
      obtain ⟨⟨key, middle⟩, popped, ran⟩ := bind_ok ran
      obtain ⟨final, pushed, ran⟩ := bind_ok ran
      cases ran
      exact (pop_frame popped).trans (push_frame pushed)
  | jump =>
      obtain ⟨⟨dest, middle⟩, popped, ran⟩ := bind_ok ran
      obtain ⟨final, jumped, ran⟩ := bind_ok ran
      cases ran
      exact (pop_frame popped).trans (jumpTo_frame jumped)
  | jumpi =>
      obtain ⟨⟨dest, middle⟩, first, ran⟩ := bind_ok ran
      obtain ⟨⟨cond, final⟩, second, ran⟩ := bind_ok ran
      have popped := (pop_frame first).trans (pop_frame second)
      by_cases taken : cond ≠ 0
      · simp only [if_pos taken] at ran
        obtain ⟨landed, jumped, ran⟩ := bind_ok ran
        cases ran
        exact popped.trans (jumpTo_frame jumped)
      · simp only [if_neg taken] at ran
        cases ran
        exact popped
  | jumpdest =>
      cases ran
      exact Frame.refl vm
  | caller =>
      obtain ⟨final, pushed, ran⟩ := bind_ok ran
      cases ran
      exact push_frame pushed
  | callValue =>
      obtain ⟨final, pushed, ran⟩ := bind_ok ran
      cases ran
      exact push_frame pushed
  | arg =>
      obtain ⟨⟨index, middle⟩, popped, ran⟩ := bind_ok ran
      obtain ⟨final, pushed, ran⟩ := bind_ok ran
      cases ran
      exact (pop_frame popped).trans (push_frame pushed)
  | log =>
      obtain ⟨⟨value, middle⟩, popped, ran⟩ := bind_ok ran
      cases ran
      exact ⟨(pop_frame popped).gas, (pop_frame popped).gasLimit, (pop_frame popped).storage⟩
  | ret =>
      obtain ⟨⟨value, middle⟩, popped, ran⟩ := bind_ok ran
      cases ran
      exact pop_frame popped
  | revert => cases ran

theorem exec_sstore {flow : Flow} (ran : vm.exec .sstore = .ok flow) :
    ∃ key value rest, vm.stack = key :: value :: rest ∧
      flow = .advance { vm with
        stack := rest
        storage := vm.storage.insert key value } := by
  obtain ⟨⟨key, middle⟩, first, ran⟩ := bind_ok ran
  obtain ⟨⟨value, final⟩, second, ran⟩ := bind_ok ran
  cases ran
  obtain ⟨rest, shape, rfl⟩ := pop_eq first
  obtain ⟨rest, tail, rfl⟩ := pop_eq second
  refine ⟨key, value, rest, ?_, rfl⟩
  rw [shape]
  exact congrArg (key :: ·) tail

/-! ### Runs -/

theorem charge_eq {amount : UInt64} (charged : vm.charge amount = .ok after) :
    vm.gas + amount ≤ vm.gasLimit ∧ after = { vm with gas := vm.gas + amount } := by
  unfold charge at charged
  dsimp only at charged
  split at charged
  · cases charged
  · rename_i within
    cases charged
    exact ⟨UInt64.not_lt.mp within, rfl⟩

/-- The slot the next instruction writes, if it is a complete `SSTORE`. -/
def slot (vm : Vm) : Option UInt64 :=
  match vm.code[vm.pc]?.bind Opcode.ofByte, vm.stack with
  | some .sstore, key :: _ :: _ => some key
  | _, _ => none

/-- The slots written by a run, in order. -/
def writes : Nat → Vm → List UInt64
  | 0, _ => []
  | fuel + 1, vm =>
      match vm.step with
      | .next after => vm.slot.toList ++ writes fuel after
      | .done _ _ => []
      | .fail _ => []

/-- A step that continues has charged for its instruction, and stored at most at
the slot of a `SSTORE`. -/
theorem step_next (ran : vm.step = .next after) :
    (∃ byte, vm.gas + opcodeGas byte ≤ vm.gasLimit ∧ after.gas = vm.gas + opcodeGas byte) ∧
      after.gasLimit = vm.gasLimit ∧
      ∀ key, key ∈ after.storage ↔ key ∈ vm.storage ∨ vm.slot = some key := by
  unfold step at ran
  cases fetched : vm.code[vm.pc]? with
  | none =>
      rw [fetched] at ran
      cases ran
  | some byte =>
      rw [fetched] at ran
      dsimp only at ran
      split at ran
      · cases ran
      · rename_i charged paid
        obtain ⟨within, rfl⟩ := charge_eq paid
        cases decoded : Opcode.ofByte byte with
        | none =>
            rw [decoded] at ran
            cases ran
        | some op =>
            rw [decoded] at ran
            dsimp only at ran
            -- Whether the program counter moves or was set, the rest is the flow's machine.
            obtain ⟨flow, executed, gas, gasLimit, storage⟩ : ∃ flow,
                ({ vm with gas := vm.gas + opcodeGas byte } : Vm).exec op = .ok flow ∧
                after.gas = flow.vm.gas ∧ after.gasLimit = flow.vm.gasLimit ∧
                after.storage = flow.vm.storage := by
              split at ran
              · cases ran
              · rename_i moved executed
                cases ran
                exact ⟨_, executed, rfl, rfl, rfl⟩
              · rename_i moved executed
                cases ran
                exact ⟨_, executed, rfl, rfl, rfl⟩
              · cases ran
            rw [gas, gasLimit, storage]
            by_cases stores : op = .sstore
            · subst stores
              obtain ⟨key, value, rest, shape, rfl⟩ := exec_sstore executed
              refine ⟨⟨byte, within, rfl⟩, rfl, fun other => ?_⟩
              have written : vm.slot = some key := by
                change vm.stack = _ at shape
                simp only [slot, fetched, Option.bind_some, decoded, shape]
              rw [written]
              change other ∈ vm.storage.insert key value ↔ _
              rw [Std.ExtTreeMap.mem_insert, Std.LawfulEqCmp.compare_eq_iff_eq, or_comm,
                Option.some.injEq]
            · have frame := exec_frame executed stores
              refine ⟨⟨byte, within, frame.gas⟩, frame.gasLimit, fun other => ?_⟩
              have unwritten : vm.slot = none := by
                unfold slot
                rw [fetched, Option.bind_some, decoded]
                split
                · rename_i isStore _
                  exact absurd (Option.some.inj isStore) stores
                · rfl
              rw [unwritten, frame.storage]
              simp only [reduceCtorEq, or_false]

theorem step_done {result : ExecResult} (ran : vm.step = .done result after) :
    after.storage = vm.storage := by
  unfold step at ran
  split at ran
  · cases ran
    rfl
  · rename_i byte fetched
    split at ran
    · cases ran
    · rename_i charged paid
      obtain ⟨_, rfl⟩ := charge_eq paid
      split at ran
      · cases ran
      · rename_i op decoded
        split at ran
        · cases ran
        · cases ran
        · cases ran
        · rename_i returnValue halted executed
          cases ran
          by_cases stores : op = .sstore
          · subst stores
            obtain ⟨key, value, rest, shape, impossible⟩ := exec_sstore executed
            cases impossible
          · exact (exec_frame executed stores).storage

/-- The slots filled at the end are those filled at the start and those written. -/
theorem loop_storage (fuel : Nat) (vm : Vm) {result : ExecResult}
    (ran : loop fuel vm = some (.ok (result, after))) (key : UInt64) :
    key ∈ after.storage ↔ key ∈ vm.storage ∨ key ∈ writes fuel vm := by
  induction fuel generalizing vm with
  | zero => cases ran
  | succ fuel ih =>
      unfold loop at ran
      unfold writes
      cases taken : vm.step with
      | next middle =>
          rw [taken] at ran
          rw [ih middle ran, (step_next taken).2.2 key, List.mem_append, Option.mem_toList,
            or_assoc]
      | done halted final =>
          rw [taken] at ran
          cases ran
          rw [step_done taken]
          simp only [List.not_mem_nil, or_false]
      | fail error =>
          rw [taken] at ran
          cases ran

theorem opcodeGas_bounds (byte : UInt8) :
    1 ≤ (opcodeGas byte).toNat ∧ (opcodeGas byte).toNat ≤ 5000 := by
  unfold opcodeGas
  split <;> decide

/-- Gas pays for every round: a machine within its limit stops before the rounds
do, whatever the code. -/
theorem loop_isSome (fuel : Nat) (vm : Vm) (room : vm.gasLimit.toNat + 5000 < 2 ^ 64)
    (within : vm.gas.toNat ≤ vm.gasLimit.toNat)
    (enough : vm.gasLimit.toNat < vm.gas.toNat + fuel) : (loop fuel vm).isSome = true := by
  induction fuel generalizing vm with
  | zero => omega
  | succ fuel ih =>
      unfold loop
      cases taken : vm.step with
      | done result final => rfl
      | fail error => rfl
      | next middle =>
          obtain ⟨⟨byte, paid, gas⟩, gasLimit, _⟩ := step_next taken
          obtain ⟨positive, bounded⟩ := opcodeGas_bounds byte
          have raised : middle.gas.toNat = vm.gas.toNat + (opcodeGas byte).toNat := by
            rw [gas, UInt64.toNat_add]
            exact Nat.mod_eq_of_lt (by omega)
          have limited := UInt64.le_iff_toNat_le.mp paid
          rw [← gas] at limited
          apply ih
          · rw [gasLimit]
            exact room
          · rw [gasLimit]
            exact limited
          · rw [gasLimit]
            omega

theorem run_eq_loop (code : List UInt8) (gasLimit : UInt64) (storage : Storage)
    (ctx : ExecContext) (room : gasLimit.toNat + 5000 < 2 ^ 64) :
    loop (gasLimit.toNat + 1) (new code gasLimit storage ctx) =
      some (run (new code gasLimit storage ctx)) := by
  have ended := loop_isSome (gasLimit.toNat + 1) (new code gasLimit storage ctx) room
    (Nat.zero_le _) (by change gasLimit.toNat < 0 + _; omega)
  unfold run
  change _ = some ((loop (gasLimit.toNat + 1) (new code gasLimit storage ctx)).getD _)
  cases ran : loop (gasLimit.toNat + 1) (new code gasLimit storage ctx) with
  | none =>
      rw [ran] at ended
      cases ended
  | some outcome => rfl

end Vm

end Veilux
