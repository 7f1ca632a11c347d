/-
Operands of 2^64 and more: the condition on the offsets and lengths of each opcode under
which it acts on them as they stand, or fails, in every machine that has them on its stack.
Each opcode has a machine for every operand that does not fit it, in which the operand is
taken for another: with all memory and gas nothing else stands in its way.
-/

import Veilux.Evm.ExactOperands

namespace Veilux

namespace Evm

open Effects (run_bind)

/-! ### Operands that fit -/

/-- The offsets and lengths that an opcode finds on the stack, in the order it pops them. -/
inductive Asks : Opcode → List U256 → List U256 → Prop
  | keccak (off len : U256) (rest : List U256) :
      Asks (.plain .keccak) [off, len] (off :: len :: rest)
  | calldataload (off : U256) (rest : List U256) :
      Asks (.plain .calldataload) [off] (off :: rest)
  | calldatacopy (dest off len : U256) (rest : List U256) :
      Asks (.plain .calldatacopy) [dest, off, len] (dest :: off :: len :: rest)
  | codecopy (dest off len : U256) (rest : List U256) :
      Asks (.plain .codecopy) [dest, off, len] (dest :: off :: len :: rest)
  | extcodecopy (address dest off len : U256) (rest : List U256) :
      Asks (.plain .extcodecopy) [dest, off, len] (address :: dest :: off :: len :: rest)
  | returndatacopy (dest off len : U256) (rest : List U256) :
      Asks (.plain .returndatacopy) [dest, off, len] (dest :: off :: len :: rest)
  | mload (off : U256) (rest : List U256) : Asks (.plain .mload) [off] (off :: rest)
  | mstore (off value : U256) (rest : List U256) :
      Asks (.plain .mstore) [off] (off :: value :: rest)
  | mstore8 (off value : U256) (rest : List U256) :
      Asks (.plain .mstore8) [off] (off :: value :: rest)
  | log (topics : List U256) (off len : U256) (rest : List U256) (few : topics.length ≤ 4) :
      Asks (.log topics.length) [off, len] (off :: len :: topics ++ rest)
  | create (salted : Bool) (value off len : U256) (salts rest : List U256)
      (count : salts.length = if salted then 1 else 0) :
      Asks (.create salted) [off, len] (value :: off :: len :: salts ++ rest)
  | call (kind : CallKind) (argsOff argsLen retOff retLen : U256) (stack : List U256)
      (operands : CallStack kind argsOff argsLen retOff retLen stack) :
      Asks (.call kind) [argsOff, argsLen, retOff, retLen] stack
  | return (off len : U256) (rest : List U256) : Asks .return [off, len] (off :: len :: rest)
  | revert (off len : U256) (rest : List U256) : Asks .revert [off, len] (off :: len :: rest)

/-- The operands are taken for what they are, or refused. -/
def Fits : Opcode → List U256 → Prop
  | .plain .keccak, [off, len] => RangeFits off len
  | .plain .calldataload, [off] => ReadFits off 32
  | .plain .calldatacopy, [dest, off, len] => CopyFits dest off len
  | .plain .codecopy, [dest, off, len] => CopyFits dest off len
  | .plain .extcodecopy, [dest, off, len] => CopyFits dest off len
  | .plain .returndatacopy, [dest, off, len] => CopyFits dest off len
  | .plain .mload, [off] => WordFits 32 off
  | .plain .mstore, [off] => WordFits 32 off
  | .plain .mstore8, [off] => WordFits 1 off
  | .log topics, [off, len] => topics ≤ 4 → RangeFits off len
  | .create _, [off, len] => RangeFits off len
  | .call _, [argsOff, argsLen, retOff, retLen] => CallFits argsOff argsLen retOff retLen
  | .return, [off, len] => RangeFits off len
  | .revert, [off, len] => RangeFits off len
  | _, _ => True

/-- The memory keeps to its limit, and no buffer is longer than a `Vec<u8>` can be. -/
structure Real {H : Type} [Host H] (vm : Interpreter H) : Prop where
  memory : vm.memory.length ≤ maxMemory
  calldata : vm.ctx.calldata.length ≤ maxAllocation
  code : vm.code.length ≤ maxAllocation
  retBuffer : vm.retBuffer.length ≤ maxAllocation
  codes : ∀ address, (Host.code vm.host address).length ≤ maxAllocation

section Width

variable [Keccak256] [Secp256k1] [Sha256] [Ripemd160] [Bn254]

/-- On operands that fit an opcode acts on them as they stand, or fails. -/
theorem agrees_exec {H : Type} [Host H] {sub : Executor H} {vm : Interpreter H} {op : Opcode}
    {words : List U256} (real : Real vm) (asks : Asks op words vm.stack) (fits : Fits op words) :
    Agrees (exec sub op) (Exact.exec sub op) vm := by
  generalize same : vm.stack = stack at asks
  cases asks with
  | keccak off len rest => exact (agrees_keccak same fits).bind _
  | calldataload off rest => exact (agrees_calldataload same real.calldata fits).bind _
  | calldatacopy dest off len rest =>
      exact (agrees_copy same real.calldata real.memory fits).bind _
  | codecopy dest off len rest => exact (agrees_copy same real.code real.memory fits).bind _
  | extcodecopy address dest off len rest =>
      refine Agrees.bind (agrees_pop same ?_) _
      exact agrees_copy rfl (real.codes address) real.memory fits
  | returndatacopy dest off len rest =>
      exact (agrees_copy same real.retBuffer real.memory fits).bind _
  | mload off rest => exact (agrees_mload same fits).bind _
  | mstore off value rest => exact (agrees_mstore same fits).bind _
  | mstore8 off value rest => exact (agrees_mstore8 same fits).bind _
  | log topics off len rest few => exact (agrees_logOp same (fits few)).bind _
  | create salted value off len salts rest count => exact (agrees_doCreate same fits).bind _
  | call kind argsOff argsLen retOff retLen stack operands =>
      subst same
      exact (agrees_doCall operands fits).bind _
  | «return» off len rest => exact (agrees_returnWith same fits).bind _
  | revert off len rest => exact (agrees_returnWith same fits).bind _

end Width

/-! ### Machines in which truncation shows -/

section Running

variable {H α β : Type} {vm after : Interpreter H} {action code exact : VmM H α}
  {next : α → VmM H β} {value : α}

theorem not_agrees (fine : ¬ Fails (code.run.run vm))
    (different : exact.run.run vm ≠ code.run.run vm) : ¬ Agrees code exact vm := by
  rintro (failed | same)
  · exact fine failed
  · exact different same.symm

/-- The code goes through where it should have failed. -/
theorem not_agrees_of_fails (fine : ¬ Fails (code.run.run vm)) (fails : Fails (exact.run.run vm)) :
    ¬ Agrees code exact vm :=
  not_agrees fine fun same => fine (same ▸ fails)

theorem run_after (ran : action.run.run vm = (.ok value, after)) :
    (action >>= next).run.run vm = (next value).run.run after := by
  rw [run_bind, ran]

theorem fails_bind (fails : Fails (action.run.run vm)) : Fails ((action >>= next).run.run vm) := by
  obtain ⟨fault, ended, kind⟩ := fails
  refine ⟨fault, ?_, kind⟩
  rw [run_bind]
  cases ran : action.run.run vm with
  | mk result later =>
      rw [ran] at ended
      cases ended
      rfl

theorem not_fails_ok : ¬ Fails ((.ok value, after) : Except Fault α × Interpreter H) := by
  rintro ⟨fault, ended, _⟩
  cases ended

theorem not_fails_pure : ¬ Fails ((pure value : VmM H α).run.run vm) := not_fails_ok

theorem fails_fail {error : VmError} (kind : error ≠ .reverted) :
    Fails ((fail error : VmM H α).run.run vm) :=
  ⟨.vm error, rfl, fun same => kind (Fault.vm.inj same)⟩

variable {off len : U256}

/-- Memory of the full size never grows. -/
theorem ensureMem_full {offset size : Nat} (full : vm.memory.length = maxMemory)
    (accepted : ¬ Refused offset size) :
    (ensureMem offset size).run.run vm = (.ok (), vm) := by
  unfold ensureMem
  by_cases none : size = 0
  · rw [if_pos none]
    rfl
  · have inside : offset + size ≤ maxMemory := by
      unfold Refused at accepted
      omega
    have near : ¬ (2 ^ 64 ≤ offset + size ∨ maxMemory < offset + size) := by
      unfold maxMemory at inside ⊢
      omega
    rw [if_neg none, if_neg near]
    change (if vm.memory.length < offset + size then _ else pure () : VmM H Unit).run.run vm = _
    rw [if_neg (by omega)]
    rfl

theorem memLoad_full {offset size : Nat} (full : vm.memory.length = maxMemory)
    (accepted : ¬ Refused offset size) :
    (memLoad offset size).run.run vm = (.ok ((vm.memory.drop offset).take size), vm) := by
  unfold memLoad
  by_cases none : size = 0
  · rw [if_pos none, none, List.take_zero]
    rfl
  · have inside : offset + size ≤ maxMemory := by
      unfold Refused at accepted
      omega
    rw [if_neg none, run_after (ensureMem_full full accepted)]
    change (sliced vm.memory offset (offset + size) : VmM H (List UInt8)).run.run vm = _
    unfold sliced
    rw [if_pos (by omega), Nat.add_sub_cancel_left]
    rfl

theorem memStore_full {offset : Nat} {data : List UInt8} (full : vm.memory.length = maxMemory)
    (inside : offset + data.length ≤ maxMemory) :
    (memStore offset data).run.run vm = (.ok (), { vm with
      memory := vm.memory.take offset ++ data ++ vm.memory.drop (offset + data.length) }) := by
  have accepted : ¬ Refused offset data.length := fun refused =>
    absurd refused.2 (Nat.not_lt.mpr inside)
  unfold memStore
  rw [run_after (ensureMem_full full accepted)]
  change (if vm.memory.length < offset + data.length then throw .panic
    else set { vm with
      memory := vm.memory.take offset ++ data ++ vm.memory.drop (offset + data.length) } :
        VmM H Unit).run.run vm = _
  rw [if_neg (by omega)]
  rfl

theorem refused_of_not_taken (truncated : ¬ Taken off len) : Refused off.toNat len.toNat := by
  unfold Taken Narrow at truncated
  unfold Refused maxMemory
  omega

/-- A word that is taken for another lies in memory where the code takes it to be. -/
theorem word_inside {size : Nat} (truncated : ¬ WordFits size off) :
    off.lowUsize + size ≤ maxMemory :=
  Nat.not_lt.mp (not_or.mp truncated).2

theorem word_refused {size : Nat} (some : size ≠ 0) (truncated : ¬ WordFits size off) :
    Refused off.toNat size := by
  have wide := Nat.not_lt.mp (not_or.mp truncated).1
  unfold Refused maxMemory
  omega

/-- A truncated range is loaded by the code. -/
theorem range_passes {next : List UInt8 → VmM H β} (full : vm.memory.length = maxMemory)
    (truncated : ¬ RangeFits off len) (fine : ∀ data, ¬ Fails ((next data).run.run vm)) :
    ¬ Fails ((memLoad off.lowUsize len.lowUsize >>= next).run.run vm) := by
  rw [run_after (memLoad_full full (not_or.mp truncated).2)]
  exact fine _

/-- It should not be. -/
theorem range_fails {next : List UInt8 → VmM H β} (truncated : ¬ RangeFits off len) :
    Fails ((memLoad off.toNat len.toNat >>= next).run.run vm) := by
  refine fails_bind ⟨.vm .memoryLimit, ?_, nofun⟩
  rw [memLoad_refused (refused_of_not_taken (not_or.mp truncated).1)]

end Running

/-! ### One machine for each opcode -/

/-- A host that has one code at every address. -/
structure Shelf where
  code : List UInt8

instance : Host Shelf where
  sload _ _ _ := .zero
  sstore host _ _ _ := host
  balance _ _ := .zero
  blockNumber _ := 0
  blockTimestamp _ := 0
  chainId _ := 0
  code host _ := host.code
  setCode host _ _ := host
  accountNonce _ _ := 0
  bumpNonce host _ := host
  transfer host _ _ _ := (false, host)
  snapshot host := (0, host)
  revert host _ := host
  commitSnapshot host _ := host

/-- A machine with the full memory and gas for everything, and the source in all of its
buffers. -/
def roomy (source : List UInt8) (depth : UInt32) (gas : UInt64) (stack : List U256) :
    Interpreter Shelf :=
  { code := source
    stack := stack
    memory := List.replicate maxMemory 0
    pc := 0
    gas := gas
    gasLimit := 18446744073709551615
    ctx :=
      { caller := .zero
        address := .zero
        value := .zero
        calldata := source
        gasLimit := 0 }
    host := ⟨source⟩
    logs := []
    returnData := []
    retBuffer := source
    depth := depth
    isStatic := false }

section Machines

variable {source : List UInt8} {depth : UInt32} {gas : UInt64} {word : U256} {stack : List U256}

theorem roomy_full : (roomy source depth gas stack).memory.length = maxMemory :=
  List.length_replicate

theorem roomy_real (bounded : source.length ≤ maxAllocation) :
    Real (roomy source depth gas stack) :=
  { memory := roomy_full.le
    calldata := bounded
    code := bounded
    retBuffer := bounded
    codes := fun _ => bounded }

theorem roomy_dynamic : ¬ (roomy source depth gas stack).isStatic = true := nofun

theorem roomy_deep : maxCallDepth ≤ (roomy source maxCallDepth gas stack).depth :=
  UInt32.le_refl maxCallDepth

theorem roomy_pop : (pop : VmM Shelf U256).run.run (roomy source depth gas (word :: stack)) =
    (.ok word, roomy source depth gas stack) :=
  rfl

theorem roomy_popUsize :
    (popUsize : VmM Shelf Nat).run.run (roomy source depth gas (word :: stack)) =
      (.ok word.lowUsize, roomy source depth gas stack) :=
  rfl

theorem roomy_operand :
    (Exact.operand : VmM Shelf Nat).run.run (roomy source depth gas (word :: stack)) =
      (.ok word.toNat, roomy source depth gas stack) :=
  rfl

theorem roomy_get : (get : VmM Shelf (Interpreter Shelf)).run.run (roomy source depth gas stack) =
    (.ok (roomy source depth gas stack), roomy source depth gas stack) :=
  rfl

theorem roomy_charge {amount : UInt64} :
    (charge amount).run.run (roomy source depth gas stack) =
      (.ok (), roomy source depth (saturatingAdd gas amount) stack) := by
  rw [charge_run, if_neg]
  · rfl
  · have bound := (saturatingAdd gas amount).toNat_lt
    rw [UInt64.lt_iff_toNat_lt]
    change ¬ (18446744073709551615 < (saturatingAdd gas amount).toNat)
    omega

theorem roomy_push (room : stack.length < maxStack) :
    (push word).run.run (roomy source depth gas stack) =
      (.ok (), roomy source depth gas (word :: stack)) := by
  have fits : ¬ maxStack ≤ (roomy source depth gas stack).stack.length := Nat.not_le.mpr room
  rw [push_run, if_neg fits]
  rfl

theorem roomy_refuse (room : stack.length < maxStack) :
    (refuse : VmM Shelf Unit).run.run (roomy source depth gas stack) =
      (.ok (), { roomy source depth gas (.zero :: stack) with retBuffer := [] }) := by
  have fits : ¬ maxStack ≤ (roomy source depth gas stack).stack.length := Nat.not_le.mpr room
  change (push .zero).run.run { roomy source depth gas stack with retBuffer := [] } = _
  rw [push_run, if_neg fits]
  rfl

theorem roomy_popTopics (topics : List U256) :
    (popTopics topics.length : VmM Shelf (List U256)).run.run
      (roomy source depth gas (topics ++ stack)) = (.ok topics, roomy source depth gas stack) := by
  induction topics with
  | nil => rfl
  | cons topic topics ih =>
      change (pop >>= fun topic => popTopics topics.length >>= fun rest =>
        pure (topic :: rest) : VmM Shelf (List U256)).run.run
          (roomy source depth gas (topic :: (topics ++ stack))) = _
      rw [run_after roomy_pop, run_after ih]
      rfl

/-- The machine after a store that fits. -/
def stored (source : List UInt8) (offset : Nat) (data : List UInt8) : Interpreter Shelf :=
  { roomy source 0 0 [] with
    memory := (List.replicate maxMemory 0).take offset ++ data ++
      (List.replicate maxMemory 0).drop (offset + data.length) }

theorem stored_run {offset : Nat} {data : List UInt8} (inside : offset + data.length ≤ maxMemory) :
    (do
      memStore offset data
      pure Flow.advance : VmM Shelf Flow).run.run (roomy source 0 0 []) =
        (.ok .advance, stored source offset data) := by
  rw [run_after (memStore_full roomy_full inside)]
  rfl

/-- Stores of as many bytes at one place leave different memories unless they are one store. -/
theorem stored_inj {offset : Nat} {data other : List UInt8} (lengths : data.length = other.length)
    (same : stored source offset data = stored source offset other) : data = other := by
  have memories := congrArg Interpreter.memory same
  unfold stored at memories
  dsimp only at memories
  rw [lengths] at memories
  exact List.append_cancel_left (List.append_cancel_right memories)

variable [Keccak256] [Secp256k1] [Sha256] [Ripemd160] [Bn254]

/-- Some machine with these operands goes on where it should fail, or goes wrong. -/
def Separated (op : Opcode) (words : List U256) : Prop :=
  ∃ (sub : Executor Shelf) (vm : Interpreter Shelf), Real vm ∧ Asks op words vm.stack ∧
    ¬ Agrees (exec sub op) (Exact.exec sub op) vm

/-- No frame is entered. -/
def idle : Executor Shelf := fun frame => (.error .fuel, frame.host)

omit [Keccak256] [Secp256k1] [Sha256] [Ripemd160] [Bn254] in
theorem nil_bounded : ([] : List UInt8).length ≤ maxAllocation := Nat.zero_le _

variable {off len : U256}

theorem separated_return (truncated : ¬ RangeFits off len) : Separated .return [off, len] := by
  refine ⟨idle, roomy [] 0 0 [off, len], roomy_real nil_bounded, .return _ _ _, ?_⟩
  unfold exec Exact.exec returnWith Exact.returnWith
  simp only [bind_assoc]
  refine not_agrees_of_fails ?_ ?_
  · rw [run_after roomy_popUsize, run_after roomy_popUsize]
    exact range_passes roomy_full truncated fun data => not_fails_ok
  · rw [run_after roomy_operand, run_after roomy_operand]
    exact range_fails truncated

theorem separated_revert (truncated : ¬ RangeFits off len) : Separated .revert [off, len] := by
  refine ⟨idle, roomy [] 0 0 [off, len], roomy_real nil_bounded, .revert _ _ _, ?_⟩
  unfold exec Exact.exec returnWith Exact.returnWith
  simp only [bind_assoc]
  refine not_agrees_of_fails ?_ ?_
  · rw [run_after roomy_popUsize, run_after roomy_popUsize]
    refine range_passes roomy_full truncated fun data => ?_
    rintro ⟨fault, ended, kind⟩
    exact kind (Except.error.inj ended).symm
  · rw [run_after roomy_operand, run_after roomy_operand]
    exact range_fails truncated

theorem separated_keccak (truncated : ¬ RangeFits off len) :
    Separated (.plain .keccak) [off, len] := by
  refine ⟨idle, roomy [] 0 0 [off, len], roomy_real nil_bounded, .keccak _ _ _, ?_⟩
  unfold exec Exact.exec plain keccak Exact.keccak
  simp only [bind_assoc]
  refine not_agrees_of_fails ?_ ?_
  · rw [run_after roomy_pop, run_after roomy_pop]
    refine range_passes roomy_full truncated fun data => ?_
    rw [run_after roomy_charge, run_after (roomy_push (by decide))]
    exact not_fails_pure
  · rw [run_after roomy_operand, run_after roomy_operand]
    exact range_fails truncated

theorem separated_log {topics : List U256} (few : topics.length ≤ 4)
    (truncated : ¬ RangeFits off len) : Separated (.log topics.length) [off, len] := by
  refine ⟨idle, roomy [] 0 0 (off :: len :: topics ++ []), roomy_real nil_bounded,
    .log topics off len [] few, ?_⟩
  unfold exec Exact.exec logOp Exact.logOp
  simp only [bind_assoc]
  refine not_agrees_of_fails ?_ ?_
  · rw [run_after roomy_get, if_neg roomy_dynamic]
    simp only [bind_assoc]
    rw [List.cons_append, List.cons_append, run_after roomy_popUsize, run_after roomy_popUsize,
      run_after (roomy_popTopics topics)]
    refine range_passes roomy_full truncated fun data => ?_
    rw [run_after roomy_charge]
    exact not_fails_ok
  · rw [run_after roomy_get, if_neg roomy_dynamic]
    simp only [bind_assoc]
    rw [List.cons_append, List.cons_append, run_after roomy_operand, run_after roomy_operand,
      run_after (roomy_popTopics topics)]
    exact range_fails truncated

theorem separated_create {salted : Bool} (truncated : ¬ RangeFits off len) :
    Separated (.create salted) [off, len] := by
  have roomy_salt (gas : UInt64) : ∃ salt, (popSalt salted : VmM Shelf (Option U256)).run.run
      (roomy [] maxCallDepth gas (if salted then [.zero] else [])) =
        (.ok salt, roomy [] maxCallDepth gas []) := by
    cases salted with
    | false => exact ⟨none, rfl⟩
    | true => exact ⟨some .zero, rfl⟩
  refine ⟨idle, roomy [] maxCallDepth 0
    (.zero :: off :: len :: (if salted then [.zero] else []) ++ []), roomy_real nil_bounded,
    .create salted .zero off len _ [] (by cases salted <;> rfl), ?_⟩
  rw [List.append_nil]
  unfold exec Exact.exec doCreate Exact.doCreate createArgs Exact.createArgs
  simp only [bind_assoc]
  refine not_agrees_of_fails ?_ ?_
  · rw [run_after roomy_get, if_neg roomy_dynamic]
    simp only [bind_assoc]
    obtain ⟨salt, popped⟩ := roomy_salt (saturatingAdd 0 32000)
    rw [run_after roomy_charge, run_after roomy_pop, run_after roomy_popUsize,
      run_after roomy_popUsize, run_after popped]
    refine range_passes roomy_full truncated fun data => ?_
    unfold enterCreate
    simp only [bind_assoc, pure_bind]
    rw [run_after roomy_get, if_pos roomy_deep]
    simp only [bind_assoc]
    rw [run_after (roomy_refuse (by decide))]
    exact not_fails_ok
  · rw [run_after roomy_get, if_neg roomy_dynamic]
    simp only [bind_assoc]
    obtain ⟨salt, popped⟩ := roomy_salt (saturatingAdd 0 32000)
    rw [run_after roomy_charge, run_after roomy_pop, run_after roomy_operand,
      run_after roomy_operand, run_after popped]
    exact range_fails truncated

theorem separated_mload (truncated : ¬ WordFits 32 off) : Separated (.plain .mload) [off] := by
  refine ⟨idle, roomy [] 0 0 [off], roomy_real nil_bounded, .mload _ _, ?_⟩
  unfold exec Exact.exec plain mload Exact.mload
  simp only [bind_assoc]
  refine not_agrees_of_fails ?_ ?_
  · have accepted : ¬ Refused off.lowUsize 32 := fun refused =>
      absurd refused.2 (Nat.not_lt.mpr (word_inside truncated))
    rw [run_after roomy_popUsize, run_after (memLoad_full roomy_full accepted),
      run_after (roomy_push (by decide))]
    exact not_fails_pure
  · rw [run_after roomy_operand]
    refine fails_bind ⟨.vm .memoryLimit, ?_, nofun⟩
    rw [memLoad_refused (word_refused (by decide) truncated)]

omit [Keccak256] [Secp256k1] [Sha256] [Ripemd160] [Bn254] in
/-- A store where it does not belong. -/
theorem separated_memStore {data : List UInt8} {gas : UInt64} (some : data ≠ [])
    (truncated : ¬ WordFits data.length off) :
    ¬ Agrees (do
        memStore off.lowUsize data
        pure Flow.advance)
      (do
        memStore off.toNat data
        pure Flow.advance) (roomy source depth gas stack) := by
  refine not_agrees_of_fails ?_ ?_
  · rw [run_after (memStore_full roomy_full (word_inside truncated))]
    exact not_fails_pure
  · refine fails_bind ⟨.vm .memoryLimit, ?_, nofun⟩
    have long : data.length ≠ 0 := fun zero => some (List.eq_nil_of_length_eq_zero zero)
    rw [memStore_refused (word_refused long truncated)]

theorem separated_mstore (truncated : ¬ WordFits 32 off) :
    Separated (.plain .mstore) [off] := by
  have length : (U256.toBigEndian .zero).toList.length = 32 := Vector.length_toList
  refine ⟨idle, roomy [] 0 0 [off, .zero], roomy_real nil_bounded, .mstore _ _ _, ?_⟩
  unfold exec Exact.exec plain mstore Exact.mstore Agrees
  simp only [bind_assoc]
  rw [run_after roomy_popUsize, run_after roomy_pop, run_after roomy_operand, run_after roomy_pop]
  refine separated_memStore (fun none => ?_) (by rwa [length])
  rw [none] at length
  cases length

theorem separated_mstore8 (truncated : ¬ WordFits 1 off) :
    Separated (.plain .mstore8) [off] := by
  refine ⟨idle, roomy [] 0 0 [off, .zero], roomy_real nil_bounded, .mstore8 _ _ _, ?_⟩
  unfold exec Exact.exec plain mstore8 Exact.mstore8 Agrees
  simp only [bind_assoc]
  rw [run_after roomy_popUsize, run_after roomy_pop, run_after roomy_operand, run_after roomy_pop]
  exact separated_memStore (List.cons_ne_nil _ _) truncated

omit [Keccak256] [Secp256k1] [Sha256] [Ripemd160] [Bn254] in
/-- A buffer in which a read that does not fit shows: one byte that the sum of offset and
index wraps to, or bytes up to what the offset is truncated to. -/
theorem source_of_not_readFits {count : Nat} (some : 0 < count) (truncated : ¬ ReadFits off count) :
    ∃ source : List UInt8, source.length ≤ maxAllocation ∧
      copied source off.lowUsize count ≠ Exact.padded source off.toNat count := by
  have low : off.lowUsize ≤ off.toNat := by
    rw [lowUsize_eq_mod]
    exact Nat.mod_le _ _
  have differ {source : List UInt8} {i : Nat} (inside : i < count)
      (read : source.getD ((off.lowUsize + i) % 2 ^ 64) 0 ≠ source.getD (off.toNat + i) 0) :
      copied source off.lowUsize count ≠ Exact.padded source off.toNat count := by
    intro same
    have at_ := List.map_inj_left.mp same i (List.mem_range.mpr inside)
    exact read at_
  by_cases wraps : off.lowUsize + count ≤ 2 ^ 64
  · have missed := not_and.mp truncated wraps
    rw [not_or] at missed
    obtain ⟨wide, near⟩ := missed
    unfold Narrow at wide
    refine ⟨List.replicate (off.lowUsize + 1) 1, ?_, differ some ?_⟩
    · rw [List.length_replicate]
      omega
    · unfold maxAllocation at near
      have read : (List.replicate (off.lowUsize + 1) (1 : UInt8)).getD off.lowUsize 0 = 1 := by
        rw [List.getD_eq_getElem _ _ (by rw [List.length_replicate]; omega), List.getElem_replicate]
      have beyond : (List.replicate (off.lowUsize + 1) (1 : UInt8)).getD off.toNat 0 = 0 :=
        List.getD_eq_default _ _ (by rw [List.length_replicate]; omega)
      rw [Nat.add_zero off.lowUsize, Nat.add_zero off.toNat, Nat.mod_eq_of_lt (by omega), beyond,
        read]
      decide
  · have small : off.lowUsize < 2 ^ 64 := by
      rw [lowUsize_eq_mod]
      exact Nat.mod_lt _ (by decide)
    refine ⟨[1], by decide, @differ _ (2 ^ 64 - off.lowUsize) (by omega) ?_⟩
    have beyond : ([1] : List UInt8).getD (off.toNat + (2 ^ 64 - off.lowUsize)) 0 = 0 :=
      List.getD_eq_default _ _ (by rw [List.length_singleton]; omega)
    rw [Nat.add_sub_of_le small.le, Nat.mod_self, beyond]
    decide

theorem separated_calldataload (truncated : ¬ ReadFits off 32) :
    Separated (.plain .calldataload) [off] := by
  obtain ⟨source, bounded, differ⟩ := source_of_not_readFits (by decide) truncated
  have words : U256.fromBigEndian (copied source off.lowUsize 32) ≠
      U256.fromBigEndian (Exact.padded source off.toNat 32) := by
    intro same
    apply differ
    rw [← U256.toBigEndian_fromBigEndian (copied_length _ _ _), same,
      U256.toBigEndian_fromBigEndian (padded_length _ _ _)]
  refine ⟨idle, roomy source 0 0 [off], roomy_real bounded, .calldataload _ _, ?_⟩
  unfold exec Exact.exec plain calldataload Exact.calldataload
  simp only [bind_assoc]
  have pushes (word : U256) : (do
      push word
      pure Flow.advance : VmM Shelf Flow).run.run (roomy source 0 0 []) =
        (.ok .advance, roomy source 0 0 [word]) := by
    rw [run_after (roomy_push (by decide))]
    rfl
  refine not_agrees ?_ ?_
  · rw [run_after roomy_popUsize, run_after roomy_get, pushes]
    exact not_fails_ok
  · rw [run_after roomy_popUsize, run_after roomy_get, run_after roomy_operand,
      run_after roomy_get, pushes, pushes]
    intro same
    have left := congrArg Interpreter.stack (Prod.mk.inj same).2
    exact words (List.cons.inj left).1.symm

omit [Keccak256] [Secp256k1] [Sha256] [Ripemd160] [Bn254] in
/-- A copy onto the wrong place, of the wrong length or from the wrong place. -/
theorem separated_copy {read : Interpreter Shelf → List UInt8}
    (reads : ∀ source gas stack, read (roomy source 0 gas stack) = source) {dest : U256}
    (truncated : ¬ CopyFits dest off len) : ∃ source : List UInt8,
      source.length ≤ maxAllocation ∧ ¬ Agrees (do
          copy read
          pure Flow.advance)
        (do
          Exact.copy read
          pure Flow.advance) (roomy source 0 0 [dest, off, len]) := by
  obtain ⟨near, rest⟩ := not_or.mp truncated
  obtain ⟨some, misread⟩ := not_or.mp rest
  have inside := Nat.not_lt.mp near
  have allocated : ¬ maxAllocation < len.lowUsize := by
    unfold maxMemory at inside
    unfold maxAllocation
    omega
  have code (source : List UInt8) : (do
      copy read
      pure Flow.advance : VmM Shelf Flow).run.run (roomy source 0 0 [dest, off, len]) =
        (.ok .advance, stored source dest.lowUsize (copied source off.lowUsize len.lowUsize)) := by
    unfold copy allocate
    simp only [bind_assoc]
    rw [run_after roomy_popUsize, run_after roomy_popUsize, run_after roomy_popUsize,
      if_neg allocated, pure_bind, run_after roomy_get, reads,
      stored_run (by rwa [copied_length])]
  have exact_ (source : List UInt8) : (do
      Exact.copy read
      pure Flow.advance : VmM Shelf Flow).run.run (roomy source 0 0 [dest, off, len]) =
        (do
          memStore dest.toNat (Exact.padded source off.toNat len.toNat)
          pure Flow.advance : VmM Shelf Flow).run.run (roomy source 0 0 []) := by
    unfold Exact.copy
    simp only [bind_assoc]
    rw [run_after roomy_operand, run_after roomy_operand, run_after roomy_operand,
      run_after roomy_get, if_neg some, reads]
  by_cases narrow : Narrow dest ∧ Narrow len
  · -- both store as many bytes at one place, but not the same
    obtain ⟨destNarrow, lenNarrow⟩ := narrow
    have unread : ¬ ReadFits off len.toNat := fun fits => misread ⟨destNarrow, lenNarrow, fits⟩
    obtain ⟨source, bounded, differ⟩ :=
      source_of_not_readFits (Nat.pos_iff_ne_zero.mpr some) unread
    rw [← lenNarrow.lowUsize] at differ
    refine ⟨source, bounded, not_agrees ?_ ?_⟩
    · rw [code]
      exact not_fails_ok
    · rw [code, exact_, ← destNarrow.lowUsize, ← lenNarrow.lowUsize,
        stored_run (by rwa [padded_length])]
      intro same
      refine differ (stored_inj ?_ (Prod.mk.inj same).2).symm
      rw [copied_length, padded_length]
  · -- what should be stored does not fit into memory
    refine ⟨[], Nat.zero_le _, not_agrees_of_fails ?_ ?_⟩
    · rw [code]
      exact not_fails_ok
    · have refused : Refused dest.toNat len.toNat := by
        unfold Narrow at narrow
        unfold Refused maxMemory
        omega
      rw [exact_]
      refine fails_bind ⟨.vm .memoryLimit, ?_, nofun⟩
      rw [memStore_refused (by rwa [padded_length])]

variable {dest : U256}

theorem separated_calldatacopy (truncated : ¬ CopyFits dest off len) :
    Separated (.plain .calldatacopy) [dest, off, len] := by
  obtain ⟨source, bounded, wrong⟩ :=
    @separated_copy off len (fun vm => vm.ctx.calldata) (fun _ _ _ => rfl) dest truncated
  exact ⟨idle, roomy source 0 0 [dest, off, len], roomy_real bounded, .calldatacopy _ _ _ _, wrong⟩

theorem separated_codecopy (truncated : ¬ CopyFits dest off len) :
    Separated (.plain .codecopy) [dest, off, len] := by
  obtain ⟨source, bounded, wrong⟩ :=
    @separated_copy off len (fun vm => vm.code) (fun _ _ _ => rfl) dest truncated
  exact ⟨idle, roomy source 0 0 [dest, off, len], roomy_real bounded, .codecopy _ _ _ _, wrong⟩

theorem separated_returndatacopy (truncated : ¬ CopyFits dest off len) :
    Separated (.plain .returndatacopy) [dest, off, len] := by
  obtain ⟨source, bounded, wrong⟩ :=
    @separated_copy off len (fun vm => vm.retBuffer) (fun _ _ _ => rfl) dest truncated
  exact ⟨idle, roomy source 0 0 [dest, off, len], roomy_real bounded, .returndatacopy _ _ _ _,
    wrong⟩

theorem separated_extcodecopy (truncated : ¬ CopyFits dest off len) :
    Separated (.plain .extcodecopy) [dest, off, len] := by
  obtain ⟨source, bounded, wrong⟩ :=
    @separated_copy off len (fun vm => Host.code vm.host .zero) (fun _ _ _ => rfl) dest truncated
  refine ⟨idle, roomy source 0 0 [.zero, dest, off, len], roomy_real bounded,
    .extcodecopy .zero _ _ _ _, ?_⟩
  unfold exec Exact.exec plain extcodecopy Exact.extcodecopy Agrees
  simp only [bind_assoc]
  rw [run_after roomy_pop, run_after roomy_pop]
  exact wrong

/-- A callee that returns. -/
def returning (output : List UInt8) : Executor Shelf :=
  fun frame => (.ok ⟨true, output, 0, []⟩, frame.host)

omit [Keccak256] [Secp256k1] [Sha256] [Ripemd160] [Bn254] in
theorem zero_not_precompile : ¬ Precompile.isPrecompile .zero = true := by decide

theorem enterCall_run {kind : CallKind} {args : CallArgs} (target : args.target = .zero)
    (value : args.value = .zero) :
    (enterCall kind args).run.run (roomy [1] 0 gas []) =
      (.ok (some (callFrame kind args [1] (roomy [1] 0 gas []), 0)), roomy [1] 0 gas []) := by
  have shallow : ¬ maxCallDepth ≤ (roomy [1] 0 gas []).depth := by
    change ¬ (64 : UInt32) ≤ 0
    decide
  have paid : (payCall kind args : VmM Shelf Bool).run.run (roomy [1] 0 gas []) =
      (.ok true, roomy [1] 0 gas []) := by
    unfold payCall
    have free : ¬ (kind = .call ∧ ¬ args.value.isZero = true) := by
      rw [value]
      exact fun paying => paying.2 (by decide)
    rw [run_after roomy_get, if_neg free]
    rfl
  have taken : (takeSnapshot : VmM Shelf Nat).run.run (roomy [1] 0 gas []) =
      (.ok 0, roomy [1] 0 gas []) := rfl
  unfold enterCall
  rw [run_after roomy_get, if_neg shallow, run_after taken, run_after paid, if_pos rfl, target,
    if_neg zero_not_precompile, run_after roomy_get]
  rfl

omit [Keccak256] [Secp256k1] [Sha256] [Ripemd160] [Bn254] in
theorem invoke_returning {kind : CallKind} {args : CallArgs} {output : List UInt8} :
    (invoke (returning output) (callFrame kind args [1] (roomy [1] 0 gas []))).run.run
      (roomy [1] 0 gas []) = (.ok ⟨true, output, 0, []⟩, roomy [1] 0 gas []) :=
  rfl

section Output

variable {args : CallArgs} {vm : Interpreter Shelf} {room : Nat}

omit [Keccak256] [Secp256k1] [Sha256] [Ripemd160] [Bn254] in
theorem storeOutput_replicate :
    (storeOutput args (List.replicate room 1) : VmM Shelf Unit) =
      if 0 < min args.retLen room then
        memStore args.retOff (List.replicate (min args.retLen room) 1)
      else pure () := by
  unfold storeOutput
  rw [List.length_replicate]
  dsimp only
  rw [List.take_replicate, Nat.min_assoc, Nat.min_self]

omit [Keccak256] [Secp256k1] [Sha256] [Ripemd160] [Bn254] in
/-- Ones stored into zeros are counted. -/
theorem storeOutput_ones (blank : vm.memory = List.replicate maxMemory 0)
    (inside : args.retOff + min args.retLen room ≤ maxMemory ∨ min args.retLen room = 0) :
    ∃ memory, memory.count 1 = min args.retLen room ∧
      (storeOutput args (List.replicate room 1)).run.run vm =
        (.ok (), { vm with memory := memory }) := by
  have full : vm.memory.length = maxMemory := by rw [blank, List.length_replicate]
  have zeros (count : Nat) : (List.replicate count (0 : UInt8)).count 1 = 0 :=
    List.count_eq_zero.mpr fun member => absurd (List.eq_of_mem_replicate member) (by decide)
  rw [storeOutput_replicate]
  by_cases some : 0 < min args.retLen room
  · rw [if_pos some, memStore_full full (by rw [List.length_replicate]; omega)]
    refine ⟨_, ?_, rfl⟩
    rw [blank, List.count_append, List.count_append, List.take_replicate, List.drop_replicate,
      zeros, zeros, List.count_replicate_self, Nat.zero_add, Nat.add_zero]
  · rw [if_neg some]
    refine ⟨vm.memory, ?_, rfl⟩
    rw [blank, zeros]
    omega

omit [Keccak256] [Secp256k1] [Sha256] [Ripemd160] [Bn254] in
theorem storeOutput_refused (refused : Refused args.retOff (min args.retLen room)) :
    Fails ((storeOutput args (List.replicate room 1)).run.run vm) := by
  rw [storeOutput_replicate, if_pos (Nat.pos_of_ne_zero refused.1),
    memStore_refused (by rwa [List.length_replicate])]
  exact ⟨.vm .memoryLimit, rfl, nofun⟩

/-- The end of a call. -/
def finish (args : CallArgs) (output : List UInt8) : VmM Shelf Flow := do
  storeOutput args output
  push .one
  pure .advance

omit [Keccak256] [Secp256k1] [Sha256] [Ripemd160] [Bn254] in
theorem finish_fails (fails : Fails ((storeOutput args (List.replicate room 1)).run.run vm)) :
    Fails ((finish args (List.replicate room 1)).run.run vm) :=
  fails_bind fails

omit [Keccak256] [Secp256k1] [Sha256] [Ripemd160] [Bn254] in
theorem finish_ones (blank : vm.memory = List.replicate maxMemory 0) (empty : vm.stack = [])
    (inside : args.retOff + min args.retLen room ≤ maxMemory ∨ min args.retLen room = 0) :
    ∃ after, after.memory.count 1 = min args.retLen room ∧
      (finish args (List.replicate room 1)).run.run vm = (.ok .advance, after) := by
  obtain ⟨memory, counted, ran⟩ := storeOutput_ones blank inside
  refine ⟨{ vm with memory := memory, stack := .one :: vm.stack }, counted, ?_⟩
  unfold finish
  have pushed : (push .one).run.run { vm with memory := memory } =
      (.ok (), { vm with memory := memory, stack := .one :: vm.stack }) := by
    rw [push_run, empty]
    rfl
  rw [run_after ran, run_after pushed]
  rfl

variable {code exact : CallArgs} {retOff retLen : U256}

omit [Keccak256] [Secp256k1] [Sha256] [Ripemd160] [Bn254] in
/-- An output that shows where it is stored: ones, as many as the code has room for and
one more, or a single one where the code takes the offset for another. -/
theorem finish_differs (pair : Counterparts code exact retOff retLen)
    (truncated : ¬ OutputFits retOff retLen) : ∃ room, ∀ vm : Interpreter Shelf,
      vm.memory = List.replicate maxMemory 0 → vm.stack = [] →
        ¬ Agrees (finish code (List.replicate room 1)) (finish exact (List.replicate room 1)) vm := by
  obtain ⟨some, rest⟩ := not_or.mp truncated
  have codeOff : code.retOff = retOff.lowUsize := by rw [pair.code]
  have codeLen : code.retLen = retLen.lowUsize := by rw [pair.code]
  have low : retLen.lowUsize ≤ retLen.toNat := by
    rw [lowUsize_eq_mod]
    exact Nat.mod_le _ _
  by_cases elsewhere : retLen.lowUsize ≠ 0 ∧ ¬ Narrow retOff
  · obtain ⟨lowSome, wide⟩ := elsewhere
    refine ⟨1, fun vm blank empty => ?_⟩
    have near : retOff.lowUsize < maxMemory := by
      by_contra far
      exact rest ⟨lowSome, .inl (Nat.not_lt.mp far)⟩
    obtain ⟨after, _, ran⟩ := @finish_ones code vm 1 blank empty (by rw [codeOff, codeLen]; omega)
    refine not_agrees_of_fails ?_ (finish_fails (storeOutput_refused ?_))
    · rw [ran]
      exact not_fails_ok
    · rw [pair.retOff, pair.retLen]
      unfold Narrow at wide
      unfold Refused maxMemory
      omega
  · refine ⟨retLen.lowUsize + 1, fun vm blank empty => ?_⟩
    have placed (lowSome : retLen.lowUsize ≠ 0) : Narrow retOff := by
      by_contra wide
      exact elsewhere ⟨lowSome, wide⟩
    have wide : ¬ Narrow retLen := by
      intro narrow
      have lowSome : retLen.lowUsize ≠ 0 := by rwa [narrow.lowUsize]
      exact rest ⟨lowSome, .inr ⟨placed lowSome, .inl narrow⟩⟩
    have inside : retOff.lowUsize + min retLen.lowUsize (retLen.lowUsize + 1) ≤ maxMemory ∨
        min retLen.lowUsize (retLen.lowUsize + 1) = 0 := by
      by_cases lowSome : retLen.lowUsize = 0
      · omega
      · by_contra far
        exact rest ⟨lowSome, .inr ⟨placed lowSome, .inr (by omega)⟩⟩
    obtain ⟨after, counted, ran⟩ :=
      @finish_ones code vm (retLen.lowUsize + 1) blank empty (by rwa [codeOff, codeLen])
    by_cases refused : Refused exact.retOff (min exact.retLen (retLen.lowUsize + 1))
    · refine not_agrees_of_fails ?_ (finish_fails (storeOutput_refused refused))
      rw [ran]
      exact not_fails_ok
    · have accepted : exact.retOff + min exact.retLen (retLen.lowUsize + 1) ≤ maxMemory ∨
          min exact.retLen (retLen.lowUsize + 1) = 0 := by
        unfold Refused at refused
        omega
      obtain ⟨later, exactCounted, exactRan⟩ :=
        @finish_ones exact vm (retLen.lowUsize + 1) blank empty accepted
      refine not_agrees ?_ ?_
      · rw [ran]
        exact not_fails_ok
      · rw [ran, exactRan]
        intro same
        have memories := congrArg Interpreter.memory (Prod.mk.inj same).2
        rw [codeLen] at counted
        rw [memories, counted, pair.retLen] at exactCounted
        have small : retLen.lowUsize < 2 ^ 64 := by
          rw [lowUsize_eq_mod]
          exact Nat.mod_lt _ (by decide)
        unfold Narrow at wide
        omega

end Output

omit [Keccak256] [Secp256k1] [Sha256] [Ripemd160] [Bn254] in
theorem roomy_popValue (kind : CallKind) :
    (popValue kind : VmM Shelf U256).run.run (roomy source depth gas
      ((if kind = .call ∨ kind = .callCode then [.zero] else []) ++ stack)) =
        (.ok .zero, roomy source depth gas stack) := by
  cases kind with
  | call => rfl
  | callCode => rfl
  | delegateCall => rfl
  | staticCall => rfl

variable {argsOff argsLen retOff retLen : U256}

/-- The stack of a call that moves nothing. -/
def callStack (kind : CallKind) (argsOff argsLen retOff retLen : U256) : List U256 :=
  .zero :: .zero :: ((if kind = .call ∨ kind = .callCode then [.zero] else []) ++
    [argsOff, argsLen, retOff, retLen])

omit [Keccak256] [Secp256k1] [Sha256] [Ripemd160] [Bn254] in
theorem callStack_operands (kind : CallKind) :
    CallStack kind argsOff argsLen retOff retLen
      (callStack kind argsOff argsLen retOff retLen) := by
  refine ⟨.zero, .zero, _, [], rfl, ?_⟩
  split
  · rfl
  · rfl

omit [Keccak256] [Secp256k1] [Sha256] [Ripemd160] [Bn254] in
theorem callArgs_run {α : Type} {kind : CallKind} (next : CallArgs → VmM Shelf α) :
    (callArgs kind >>= next).run.run
        (roomy source depth gas (callStack kind argsOff argsLen retOff retLen)) =
      (do
        let calldata ← memLoad argsOff.lowUsize argsLen.lowUsize
        next ⟨.zero, .zero, .zero, calldata, retOff.lowUsize, retLen.lowUsize⟩).run.run
          (roomy source depth (saturatingAdd gas 100) []) := by
  unfold callArgs callStack
  simp only [bind_assoc]
  have dynamic : ¬ ((roomy source depth (saturatingAdd gas 100) []).isStatic = true ∧
      ¬ U256.zero.isZero = true) := nofun
  rw [run_after roomy_charge, run_after roomy_pop, run_after roomy_pop,
    run_after (roomy_popValue kind), run_after roomy_popUsize, run_after roomy_popUsize,
    run_after roomy_popUsize, run_after roomy_popUsize, run_after roomy_get, if_neg dynamic]
  simp only [bind_assoc, pure_bind]

omit [Keccak256] [Secp256k1] [Sha256] [Ripemd160] [Bn254] in
theorem exactArgs_run {α : Type} {kind : CallKind} (next : CallArgs → VmM Shelf α) :
    (Exact.callArgs kind >>= next).run.run
        (roomy source depth gas (callStack kind argsOff argsLen retOff retLen)) =
      (do
        let calldata ← memLoad argsOff.toNat argsLen.toNat
        next ⟨.zero, .zero, .zero, calldata, retOff.toNat, retLen.toNat⟩).run.run
          (roomy source depth (saturatingAdd gas 100) []) := by
  unfold Exact.callArgs callStack
  simp only [bind_assoc]
  have dynamic : ¬ ((roomy source depth (saturatingAdd gas 100) []).isStatic = true ∧
      ¬ U256.zero.isZero = true) := nofun
  rw [run_after roomy_charge, run_after roomy_pop, run_after roomy_pop,
    run_after (roomy_popValue kind), run_after roomy_operand, run_after roomy_operand,
    run_after roomy_operand, run_after roomy_operand, run_after roomy_get, if_neg dynamic]
  simp only [bind_assoc, pure_bind]

/-- What the code loads as the arguments of a call. -/
def argument (off len : U256) : List UInt8 :=
  ((List.replicate maxMemory 0).drop off.lowUsize).take len.lowUsize

omit [Keccak256] [Secp256k1] [Sha256] [Ripemd160] [Bn254] in
theorem leaveCall_finish {args : CallArgs} {output : List UInt8} :
    (do
      leaveCall args 0 ⟨true, output, 0, []⟩
      pure Flow.advance : VmM Shelf Flow).run.run (roomy [1] 0 gas []) =
      (finish args output).run.run
        { roomy [1] 0 (saturatingAdd gas 0) [] with retBuffer := output } := by
  have settled : (settle 0 ⟨true, output, 0, []⟩ : VmM Shelf Unit).run.run
      (roomy [1] 0 (saturatingAdd gas 0) []) =
        (.ok (), roomy [1] 0 (saturatingAdd gas 0) []) := rfl
  unfold leaveCall
  simp only [bind_assoc]
  rw [run_after roomy_charge, run_after settled]
  rfl

theorem separated_call {kind : CallKind} (truncated : ¬ CallFits argsOff argsLen retOff retLen) :
    Separated (.call kind) [argsOff, argsLen, retOff, retLen] := by
  obtain ⟨accepted, rest⟩ := not_or.mp truncated
  by_cases taken : Taken argsOff argsLen
  · -- the callee is called alike, and its output lands elsewhere
    obtain ⟨room, differs⟩ := @finish_differs
      ⟨.zero, .zero, .zero, argument argsOff argsLen, retOff.lowUsize, retLen.lowUsize⟩
      ⟨.zero, .zero, .zero, argument argsOff argsLen, retOff.toNat, retLen.toNat⟩ _ _
      ⟨rfl, rfl, rfl⟩ (not_and.mp rest taken)
    refine ⟨returning (List.replicate room 1), roomy [1] 0 0 (callStack kind _ _ _ _),
      roomy_real (by decide), .call kind _ _ _ _ _ (callStack_operands kind), ?_⟩
    have loaded : (memLoad argsOff.lowUsize argsLen.lowUsize : VmM Shelf (List UInt8)).run.run
        (roomy [1] 0 (saturatingAdd 0 100) []) =
          (.ok (argument argsOff argsLen), roomy [1] 0 (saturatingAdd 0 100) []) :=
      memLoad_full roomy_full accepted
    have outer := differs { roomy [1] 0 (saturatingAdd (saturatingAdd 0 100) 0) [] with
      retBuffer := List.replicate room 1 } rfl rfl
    unfold exec Exact.exec doCall Exact.doCall Agrees
    simp only [bind_assoc]
    rw [callArgs_run, exactArgs_run, ← taken.memLoad, run_after loaded, run_after loaded,
      run_after (enterCall_run rfl rfl), run_after (enterCall_run rfl rfl)]
    dsimp only
    rw [bind_assoc, bind_assoc, run_after invoke_returning, run_after invoke_returning,
      leaveCall_finish, leaveCall_finish]
    exact outer
  · -- the code does not see that the arguments are out of memory
    refine ⟨idle, roomy [] maxCallDepth 0 (callStack kind argsOff argsLen retOff retLen),
      roomy_real nil_bounded, .call kind _ _ _ _ _ (callStack_operands kind), ?_⟩
    have truncated : ¬ RangeFits argsOff argsLen := not_or.mpr ⟨taken, accepted⟩
    unfold exec Exact.exec doCall Exact.doCall
    simp only [bind_assoc]
    refine not_agrees_of_fails ?_ ?_
    · rw [callArgs_run]
      refine range_passes roomy_full truncated fun data => ?_
      unfold enterCall
      simp only [bind_assoc]
      rw [run_after roomy_get, if_pos roomy_deep]
      simp only [bind_assoc]
      rw [run_after (roomy_refuse (by decide))]
      exact not_fails_ok
    · rw [exactArgs_run]
      exact range_fails truncated

theorem separated_of_not_fits {op : Opcode} {words : List U256} (truncated : ¬ Fits op words) :
    Separated op words := by
  unfold Fits at truncated
  split at truncated
  · exact separated_keccak truncated
  · exact separated_calldataload truncated
  · exact separated_calldatacopy truncated
  · exact separated_codecopy truncated
  · exact separated_extcodecopy truncated
  · exact separated_returndatacopy truncated
  · exact separated_mload truncated
  · exact separated_mstore truncated
  · exact separated_mstore8 truncated
  · obtain ⟨few, unfit⟩ := Classical.not_imp.mp truncated
    rename_i topics off len
    have separated := @separated_log _ _ _ _ _ off len (List.replicate topics .zero)
      (by rwa [List.length_replicate]) unfit
    rwa [List.length_replicate] at separated
  · exact separated_create truncated
  · exact separated_call truncated
  · exact separated_return truncated
  · exact separated_revert truncated
  · exact absurd trivial truncated

end Machines

/-! ### The operands that are kept -/

section Kept

variable [Keccak256] [Secp256k1] [Sha256] [Ripemd160] [Bn254]

/-- The indices for which `SIGNEXTEND` and `BYTE` are right, and the offsets and lengths
with which every machine acts on what it is given, or fails. -/
theorem operands_kept_iff :
    (∀ i : U256, (∀ x : U256, (signextend i x).toNat = signExtended i.toNat x.toNat) ↔
      i.toNat < 2 ^ 64 ∨ 31 ≤ i.toNat % 2 ^ 64) ∧
    (∀ i : U256, (∀ x : U256, (byteOp i x).toNat = byteAt i.toNat x.toNat) ↔
      i.toNat < 2 ^ 64 ∨ 32 ≤ i.toNat % 2 ^ 64) ∧
    ∀ (op : Opcode) (words : List U256),
      (∀ {H : Type} [Host H] (sub : Executor H) (vm : Interpreter H), Real vm →
        Asks op words vm.stack → Agrees (exec sub op) (Exact.exec sub op) vm) ↔ Fits op words := by
  refine ⟨signextend_iff, byteOp_iff, fun op words => ⟨fun agrees => ?_, fun fits => ?_⟩⟩
  · by_contra truncated
    obtain ⟨sub, vm, real, asks, differs⟩ := separated_of_not_fits truncated
    exact differs (agrees sub vm real asks)
  · exact fun sub vm real asks => agrees_exec real asks fits

end Kept

section Fixed

/-- 2^64, whose low 64 bits are zero. -/
def beyond : U256 := .ofLimbs 0 1 0 0

/-- Byte 2^64 of a word is its first byte, and a word stored behind all memory is stored at
its start. -/
theorem truncated_to_zero :
    (byteOp beyond U256.zero.not).toNat = 255 ∧ byteAt beyond.toNat U256.zero.not.toNat = 0 ∧
      ¬ Agrees mstore Exact.mstore { roomy [] 0 0 [beyond, .one] with memory := [] } := by
  refine ⟨by decide +kernel, by decide +kernel, ?_⟩
  refine not_agrees_of_fails ?_ ?_
  · have ran : (mstore.run.run { roomy [] 0 0 [beyond, .one] with memory := [] }).1 = .ok () := by
      rfl
    rintro ⟨fault, ended, _⟩
    rw [ran] at ended
    cases ended
  · have ran : (Exact.mstore.run.run { roomy [] 0 0 [beyond, .one] with memory := [] }).1 =
        .error (.vm .memoryLimit) := by
      rfl
    exact ⟨_, ran, nofun⟩

end Fixed

end Evm

end Veilux
