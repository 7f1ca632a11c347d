/-
The opcodes that take offsets and lengths, on the operands as they stand: offsets and
lengths are the numbers on the stack, buffers are read as if followed by zeros, and a
copy of nothing touches nothing.
-/

import Veilux.Evm.ByteIndex
import Veilux.Evm.Plain

namespace Veilux

namespace Evm

open Effects (run_bind)

namespace Exact

section Handlers

variable {H : Type}

def operand : VmM H Nat := do
  let value ← pop
  pure value.toNat

def padded (source : List UInt8) (off len : Nat) : List UInt8 :=
  (List.range len).map fun i => source.getD (off + i) 0

def copy (source : Interpreter H → List UInt8) : VmM H Unit := do
  let dest ← operand
  let off ← operand
  let len ← operand
  let vm ← get
  if len = 0 then pure () else memStore dest (padded (source vm) off len)

def calldataload : VmM H Unit := do
  let off ← operand
  let vm ← get
  push (.fromBigEndian (padded vm.ctx.calldata off 32))

def mload : VmM H Unit := do
  let off ← operand
  let data ← memLoad off 32
  push (.fromBigEndian data)

def mstore : VmM H Unit := do
  let off ← operand
  let value ← pop
  memStore off value.toBigEndian.toList

def mstore8 : VmM H Unit := do
  let off ← operand
  let value ← pop
  memStore off [value.toBigEndian.toList.getD 31 0]

def keccak [Keccak256] : VmM H Unit := do
  let off ← operand
  let len ← operand
  let data ← memLoad off len
  charge (30 + 6 * ((.ofNat len + 31) / 32))
  push (.fromBigEndian (Keccak256.digest data).toList)

def logOp (topicCount : Nat) : VmM H Unit := do
  let vm ← get
  if vm.isStatic then fail .staticViolation
  else do
    let off ← operand
    let len ← operand
    let topics ← popTopics topicCount
    let data ← memLoad off len
    charge (375 * .ofNat topicCount + 8 * .ofNat len)
    modify fun vm =>
      { vm with logs := vm.logs ++ [{ address := vm.ctx.address, topics := topics, data := data }] }

def returnWith : VmM H Unit := do
  let off ← operand
  let len ← operand
  let data ← memLoad off len
  modify fun vm => { vm with returnData := data }

def callArgs (kind : CallKind) : VmM H CallArgs := do
  charge 100
  let gas ← pop
  let target ← pop
  let value ← popValue kind
  let argsOff ← operand
  let argsLen ← operand
  let retOff ← operand
  let retLen ← operand
  let vm ← get
  if vm.isStatic ∧ ¬ value.isZero then fail .staticViolation
  else do
    let calldata ← memLoad argsOff argsLen
    pure ⟨gas, target, value, calldata, retOff, retLen⟩

def createArgs (salted : Bool) : VmM H CreateArgs := do
  let vm ← get
  if vm.isStatic then fail .staticViolation
  else do
    charge 32000
    let value ← pop
    let off ← operand
    let len ← operand
    let salt ← popSalt salted
    let init ← memLoad off len
    pure ⟨value, salt, init⟩

variable [Host H] [Keccak256] [Secp256k1] [Sha256] [Ripemd160] [Bn254]

omit [Keccak256] [Secp256k1] [Sha256] [Ripemd160] [Bn254] in
def extcodecopy : VmM H Unit := do
  let a ← pop
  copy fun vm => Host.code vm.host a

def doCall (sub : Executor H) (kind : CallKind) : VmM H Unit := do
  let args ← callArgs kind
  match ← enterCall kind args with
  | none => pure ()
  | some (frame, snapshot) => do
      let outcome ← invoke sub frame
      leaveCall args snapshot outcome

omit [Secp256k1] [Sha256] [Ripemd160] [Bn254] in
def doCreate (sub : Executor H) (salted : Bool) : VmM H Unit := do
  let args ← createArgs salted
  match ← enterCreate args with
  | none => pure ()
  | some (frame, snapshot) => do
      let outcome ← invoke sub frame
      leaveCreate frame.ctx.address snapshot outcome

/-- The opcodes that read memory or a buffer at an operand; the others are as they are. -/
def exec (sub : Executor H) : Opcode → VmM H Flow
  | .plain .keccak => do
      keccak
      pure .advance
  | .plain .calldataload => do
      calldataload
      pure .advance
  | .plain .calldatacopy => do
      copy fun vm => vm.ctx.calldata
      pure .advance
  | .plain .codecopy => do
      copy fun vm => vm.code
      pure .advance
  | .plain .returndatacopy => do
      copy fun vm => vm.retBuffer
      pure .advance
  | .plain .extcodecopy => do
      extcodecopy
      pure .advance
  | .plain .mload => do
      mload
      pure .advance
  | .plain .mstore => do
      mstore
      pure .advance
  | .plain .mstore8 => do
      mstore8
      pure .advance
  | .log topics => do
      logOp topics
      pure .advance
  | .create salted => do
      doCreate sub salted
      pure .advance
  | .call kind => do
      doCall sub kind
      pure .advance
  | .return => do
      returnWith
      pure .halted
  | .revert => do
      returnWith
      fail .reverted
  | op => Evm.exec sub op

end Handlers

end Exact

/-! ### Agreement -/

section Agreement

variable {H α β : Type} {vm : Interpreter H}

/-- A fault other than a revert. -/
def Fails (result : Except Fault α × Interpreter H) : Prop :=
  ∃ fault, result.1 = .error fault ∧ fault ≠ .vm .reverted

/-- The code fails, or does what it should. -/
def Agrees (code exact : VmM H α) (vm : Interpreter H) : Prop :=
  Fails (code.run.run vm) ∨ code.run.run vm = exact.run.run vm

theorem agrees_refl (code : VmM H α) (vm : Interpreter H) : Agrees code code vm := .inr rfl

theorem agrees_of_ran {code exact : VmM H α} (fault : Fault) (after : Interpreter H)
    (ran : code.run.run vm = (.error fault, after)) (kind : fault ≠ .vm .reverted) :
    Agrees code exact vm := by
  refine .inl ⟨fault, ?_, kind⟩
  rw [ran]

theorem Agrees.bind {code exact : VmM H α} (agrees : Agrees code exact vm)
    (next : α → VmM H β) : Agrees (code >>= next) (exact >>= next) vm := by
  rcases agrees with ⟨fault, ended, kind⟩ | same
  · refine agrees_of_ran fault (code.run.run vm).2 ?_ kind
    rw [run_bind]
    cases ran : code.run.run vm with
    | mk result after =>
        rw [ran] at ended
        cases ended
        rfl
  · right
    rw [run_bind, run_bind, same]

theorem Agrees.chain {first second : VmM H α} {code exact : α → VmM H β}
    (agrees : Agrees first second vm) (rest : ∀ value after, Agrees (code value) (exact value) after) :
    Agrees (first >>= code) (second >>= exact) vm := by
  rcases agrees.bind code with failed | same
  · exact .inl failed
  · unfold Agrees
    rw [same, run_bind, run_bind]
    cases second.run.run vm with
    | mk result after =>
        cases result with
        | error fault => exact .inr rfl
        | ok value => exact rest value after

/-- Both go on after one and the same action. -/
theorem agrees_after (action : VmM H α) {code exact : α → VmM H β}
    (agrees : ∀ value after, action.run.run vm = (.ok value, after) →
      Agrees (code value) (exact value) after) :
    Agrees (action >>= code) (action >>= exact) vm := by
  cases ran : action.run.run vm with
  | mk result after =>
      have left := run_bind action code vm
      have right := run_bind action exact vm
      rw [ran] at left right
      cases result with
      | error fault => exact .inr (left.trans right.symm)
      | ok value =>
          unfold Agrees
          rw [left, right]
          exact agrees value after ran

theorem agrees_get {code exact : Interpreter H → VmM H β}
    (agrees : Agrees (code vm) (exact vm) vm) : Agrees (get >>= code) (get >>= exact) vm :=
  agrees_after get fun _ _ ran => by
    cases ran
    exact agrees

theorem agrees_ite {guard : Prop} [Decidable guard] {stop code exact : VmM H α}
    (agrees : Agrees code exact vm) :
    Agrees (if guard then stop else code) (if guard then stop else exact) vm := by
  split
  · exact agrees_refl _ _
  · exact agrees

variable {word : U256} {rest : List U256}

theorem agrees_pop {code exact : U256 → VmM H β} (stack : vm.stack = word :: rest)
    (agrees : Agrees (code word) (exact word) { vm with stack := rest }) :
    Agrees (pop >>= code) (pop >>= exact) vm := by
  refine agrees_after pop fun value after ran => ?_
  rw [pop_run, stack] at ran
  cases ran
  exact agrees

theorem popUsize_run (stack : vm.stack = word :: rest) :
    (popUsize : VmM H Nat).run.run vm = (.ok word.lowUsize, { vm with stack := rest }) := by
  have popped := pop_run vm
  rw [stack] at popped
  unfold popUsize
  rw [run_bind, popped]
  rfl

theorem operand_run (stack : vm.stack = word :: rest) :
    (Exact.operand : VmM H Nat).run.run vm = (.ok word.toNat, { vm with stack := rest }) := by
  have popped := pop_run vm
  rw [stack] at popped
  unfold Exact.operand
  rw [run_bind, popped]
  rfl

theorem agrees_word {code : U256 → VmM H β} {exact : Nat → VmM H β} (stack : vm.stack = word :: rest)
    (agrees : Agrees (code word) (exact word.toNat) { vm with stack := rest }) :
    Agrees (pop >>= code) (Exact.operand >>= exact) vm := by
  have popped := pop_run vm
  rw [stack] at popped
  unfold Agrees
  rw [run_bind, run_bind, popped, operand_run stack]
  exact agrees

theorem agrees_operand {code exact : Nat → VmM H β} (stack : vm.stack = word :: rest)
    (agrees : Agrees (code word.lowUsize) (exact word.toNat) { vm with stack := rest }) :
    Agrees (popUsize >>= code) (Exact.operand >>= exact) vm := by
  unfold Agrees
  rw [run_bind, run_bind, popUsize_run stack, operand_run stack]
  exact agrees

end Agreement

/-! ### Operands that are taken for what they are -/

def Narrow (word : U256) : Prop := word.toNat < 2 ^ 64

theorem Narrow.lowUsize {word : U256} (narrow : Narrow word) : word.lowUsize = word.toNat :=
  (lowUsize_eq_mod word).trans (Nat.mod_eq_of_lt narrow)

theorem lowUsize_of_zero {word : U256} (zero : word.toNat = 0) : word.lowUsize = 0 := by
  rw [lowUsize_eq_mod, zero]
  rfl

/-- The code takes the range for what it is, or for nothing where it is nothing. -/
def Taken (off len : U256) : Prop := len.toNat = 0 ∨ Narrow off ∧ Narrow len

/-- What the code takes the range for does not fit into memory. -/
def Refused (off len : Nat) : Prop := len ≠ 0 ∧ maxMemory < off + len

section Ranges

variable {H : Type} {off len : U256}

theorem Taken.memLoad (taken : Taken off len) :
    (memLoad off.lowUsize len.lowUsize : VmM H (List UInt8)) = memLoad off.toNat len.toNat := by
  rcases taken with nothing | ⟨offNarrow, lenNarrow⟩
  · unfold Evm.memLoad
    rw [lowUsize_of_zero nothing, nothing, if_pos rfl, if_pos rfl]
  · rw [offNarrow.lowUsize, lenNarrow.lowUsize]

theorem Taken.lowUsize (taken : Taken off len) : len.lowUsize = len.toNat := by
  rcases taken with nothing | ⟨_, lenNarrow⟩
  · rw [lowUsize_of_zero nothing, nothing]
  · exact lenNarrow.lowUsize

theorem ensureMem_refused {offset size : Nat} (refused : Refused offset size)
    (vm : Interpreter H) :
    (ensureMem offset size).run.run vm = (.error (.vm .memoryLimit), vm) := by
  unfold ensureMem
  rw [if_neg refused.1, if_pos (.inr refused.2)]
  rfl

theorem memLoad_refused {offset size : Nat} (refused : Refused offset size)
    (vm : Interpreter H) :
    (memLoad offset size).run.run vm = (.error (.vm .memoryLimit), vm) := by
  unfold memLoad
  rw [if_neg refused.1, run_bind, ensureMem_refused refused]

theorem memStore_refused {offset : Nat} {data : List UInt8}
    (refused : Refused offset data.length) (vm : Interpreter H) :
    (memStore offset data).run.run vm = (.error (.vm .memoryLimit), vm) := by
  unfold memStore
  rw [run_bind, ensureMem_refused refused]

/-- Loading a range behind its operands. -/
theorem agrees_memLoad {β : Type} {next next' : List UInt8 → VmM H β} {vm : Interpreter H}
    (fits : Taken off len ∨ Refused off.lowUsize len.lowUsize)
    (agrees : Taken off len → ∀ data after, Agrees (next data) (next' data) after) :
    Agrees (memLoad off.lowUsize len.lowUsize >>= next)
      (memLoad off.toNat len.toNat >>= next') vm := by
  rcases fits with taken | refused
  · rw [taken.memLoad]
    exact agrees_after _ fun data after _ => agrees taken data after
  · refine agrees_of_ran (.vm .memoryLimit) vm ?_ nofun
    rw [run_bind, memLoad_refused refused]

theorem copied_length (source : List UInt8) (off len : Nat) :
    (copied source off len).length = len := by
  unfold copied
  rw [List.length_map, List.length_range]

theorem padded_length (source : List UInt8) (off len : Nat) :
    (Exact.padded source off len).length = len := by
  unfold Exact.padded
  rw [List.length_map, List.length_range]

/-- The buffer is read where it should be, or beyond its end in both cases. -/
def ReadFits (off : U256) (len : Nat) : Prop :=
  off.lowUsize + len ≤ 2 ^ 64 ∧ (Narrow off ∨ maxAllocation ≤ off.lowUsize)

theorem ReadFits.copied {count : Nat} (fits : ReadFits off count) {source : List UInt8}
    (bounded : source.length ≤ maxAllocation) :
    copied source off.lowUsize count = Exact.padded source off.toNat count := by
  unfold Evm.copied Exact.padded
  refine List.map_congr_left fun i member => ?_
  have inside := List.mem_range.mp member
  obtain ⟨unwrapped, where_⟩ := fits
  rw [Nat.mod_eq_of_lt (by omega)]
  rcases where_ with narrow | beyond
  · rw [narrow.lowUsize]
  · have low : off.lowUsize ≤ off.toNat := by
      rw [lowUsize_eq_mod]
      exact Nat.mod_le _ _
    rw [List.getD_eq_default _ _ (by omega), List.getD_eq_default _ _ (by omega)]

end Ranges

/-! ### One opcode after the other -/

section Opcodes

variable {H : Type} {vm : Interpreter H} {off len dest value : U256} {rest : List U256}

/-- A word in memory is where it should be, or too far for the memory. -/
def WordFits (size : Nat) (off : U256) : Prop := Narrow off ∨ maxMemory < off.lowUsize + size

def RangeFits (off len : U256) : Prop := Taken off len ∨ Refused off.lowUsize len.lowUsize

def CopyFits (dest off len : U256) : Prop :=
  maxMemory < dest.lowUsize + len.lowUsize ∨ len.toNat = 0 ∨
    Narrow dest ∧ Narrow len ∧ ReadFits off len.toNat

theorem agrees_returnWith (stack : vm.stack = off :: len :: rest) (fits : RangeFits off len) :
    Agrees returnWith Exact.returnWith vm := by
  refine agrees_operand stack (agrees_operand rfl ?_)
  exact agrees_memLoad fits fun _ data after => agrees_refl _ _

theorem agrees_keccak [Keccak256] (stack : vm.stack = off :: len :: rest)
    (fits : RangeFits off len) : Agrees keccak Exact.keccak vm := by
  refine agrees_word stack (agrees_word rfl ?_)
  refine agrees_memLoad fits fun taken data after => ?_
  rw [taken.lowUsize]
  exact agrees_refl _ _

theorem agrees_logOp {topics : List U256} (stack : vm.stack = off :: len :: topics ++ rest)
    (fits : RangeFits off len) : Agrees (logOp topics.length) (Exact.logOp topics.length) vm := by
  refine agrees_get (agrees_ite ?_)
  refine agrees_operand stack (agrees_operand rfl (agrees_after _ fun read after _ => ?_))
  refine agrees_memLoad fits fun taken data later => ?_
  rw [taken.lowUsize]
  exact agrees_refl _ _

theorem agrees_mload (stack : vm.stack = off :: rest) (fits : WordFits 32 off) :
    Agrees mload Exact.mload vm := by
  refine agrees_operand stack ?_
  rcases fits with narrow | far
  · rw [narrow.lowUsize]
    exact agrees_refl _ _
  · refine agrees_of_ran (.vm .memoryLimit) { vm with stack := rest } ?_ nofun
    rw [run_bind, memLoad_refused ⟨by decide, far⟩]

/-- A store of a fixed number of bytes. -/
theorem agrees_memStore {data : List UInt8} (some : data ≠ [])
    (fits : WordFits data.length off) :
    Agrees (memStore off.lowUsize data) (memStore off.toNat data) vm := by
  rcases fits with narrow | far
  · rw [narrow.lowUsize]
    exact agrees_refl _ _
  · refine agrees_of_ran _ _ (memStore_refused ⟨?_, far⟩ vm) nofun
    exact fun zero => some (List.eq_nil_of_length_eq_zero zero)

theorem agrees_mstore (stack : vm.stack = off :: value :: rest) (fits : WordFits 32 off) :
    Agrees mstore Exact.mstore vm := by
  have length : value.toBigEndian.toList.length = 32 := Vector.length_toList
  refine agrees_operand stack (agrees_pop rfl ?_)
  refine agrees_memStore (fun none => ?_) (by rwa [length])
  rw [none] at length
  cases length

theorem agrees_mstore8 (stack : vm.stack = off :: value :: rest) (fits : WordFits 1 off) :
    Agrees mstore8 Exact.mstore8 vm :=
  agrees_operand stack (agrees_pop rfl (agrees_memStore (List.cons_ne_nil _ _) fits))

theorem agrees_calldataload (stack : vm.stack = off :: rest)
    (bounded : vm.ctx.calldata.length ≤ maxAllocation) (fits : ReadFits off 32) :
    Agrees calldataload Exact.calldataload vm := by
  refine agrees_operand stack (agrees_get ?_)
  rw [fits.copied bounded]
  exact agrees_refl _ _

/-- A store of nothing panics behind the memory, and else does nothing. -/
theorem memStore_nil (offset : Nat) (vm : Interpreter H) :
    (memStore offset []).run.run vm =
      (if vm.memory.length < offset then .error .panic else .ok (), vm) := by
  unfold memStore ensureMem
  rw [List.length_nil, if_pos rfl, pure_bind]
  change (if vm.memory.length < offset + 0 then throw .panic
    else set { vm with memory := vm.memory.take offset ++ [] ++ vm.memory.drop (offset + 0) } :
      VmM H Unit).run.run vm = _
  rw [Nat.add_zero, List.append_nil, List.take_append_drop]
  split
  · rfl
  · rfl

theorem agrees_copy {source : Interpreter H → List UInt8}
    (stack : vm.stack = dest :: off :: len :: rest)
    (bounded : (source { vm with stack := rest }).length ≤ maxAllocation)
    (memory : vm.memory.length ≤ maxMemory) (fits : CopyFits dest off len) :
    Agrees (copy source) (Exact.copy source) vm := by
  refine agrees_operand stack (agrees_operand rfl (agrees_operand rfl ?_))
  unfold allocate
  by_cases huge : maxAllocation < len.lowUsize
  · rw [if_pos huge]
    exact agrees_of_ran .panic { vm with stack := rest } rfl nofun
  · rw [if_neg huge, pure_bind]
    refine agrees_get ?_
    have length := copied_length (source { vm with stack := rest }) off.lowUsize len.lowUsize
    by_cases nothing : len.lowUsize = 0
    · unfold CopyFits at fits
      rw [nothing] at length fits ⊢
      rw [List.eq_nil_of_length_eq_zero length]
      have stored := memStore_nil dest.lowUsize { vm with stack := rest }
      by_cases beyond : vm.memory.length < dest.lowUsize
      · rw [if_pos beyond] at stored
        exact agrees_of_ran _ _ stored nofun
      · rw [if_neg beyond] at stored
        have none : len.toNat = 0 := by
          rcases fits with far | none | ⟨_, narrow, _⟩
          · exact absurd (far.trans_le (Nat.not_lt.mp beyond)) (Nat.not_lt.mpr memory)
          · exact none
          · rw [← narrow.lowUsize, nothing]
        right
        rw [stored, if_pos none]
        rfl
    · rcases fits with far | none | ⟨destNarrow, lenNarrow, read⟩
      · refine agrees_of_ran _ _ (memStore_refused ⟨?_, ?_⟩ _) nofun
        · rwa [length]
        · rwa [length]
      · exact absurd (lowUsize_of_zero none) nothing
      · rw [lenNarrow.lowUsize] at nothing ⊢
        rw [if_neg nothing, destNarrow.lowUsize, read.copied bounded]
        exact agrees_refl _ _

end Opcodes

/-! ### Creations and calls -/

section Frames

variable {H : Type} {vm : Interpreter H} {off len value : U256} {rest : List U256}

theorem charge_stack {amount : UInt64} {after : Interpreter H}
    (ran : (charge amount).run.run vm = (.ok (), after)) : after.stack = vm.stack := by
  rw [charge_run] at ran
  cases (Prod.mk.inj ran).2
  rfl

theorem agrees_createArgs {salted : Bool} {salts : List U256}
    (stack : vm.stack = value :: off :: len :: salts ++ rest) (fits : RangeFits off len) :
    Agrees (createArgs salted) (Exact.createArgs salted) vm := by
  refine agrees_get (agrees_ite (agrees_after _ fun _ after ran => ?_))
  rw [← charge_stack ran] at stack
  refine agrees_pop stack (agrees_operand rfl (agrees_operand rfl (agrees_after _ ?_)))
  exact fun salt later _ => agrees_memLoad fits fun _ data final => agrees_refl _ _

theorem agrees_doCreate [Host H] [Keccak256] {sub : Executor H} {salted : Bool}
    {salts : List U256} (stack : vm.stack = value :: off :: len :: salts ++ rest)
    (fits : RangeFits off len) : Agrees (doCreate sub salted) (Exact.doCreate sub salted) vm :=
  (agrees_createArgs stack fits).bind _

/-- The stretch for the output is where it should be, or too far for any output. -/
def OutputFits (retOff retLen : U256) : Prop :=
  retLen.toNat = 0 ∨ retLen.lowUsize ≠ 0 ∧
    (maxMemory ≤ retOff.lowUsize ∨
      Narrow retOff ∧ (Narrow retLen ∨ maxMemory < retOff.lowUsize + retLen.lowUsize))

/-- The operands of a call as the code takes them, and as they are. -/
structure Counterparts (code exact : CallArgs) (retOff retLen : U256) : Prop where
  code : code = { exact with
    retOff := retOff.lowUsize
    retLen := retLen.lowUsize }
  retOff : exact.retOff = retOff.toNat
  retLen : exact.retLen = retLen.toNat

variable {code exact : CallArgs} {retOff retLen : U256}

theorem agrees_storeOutput (pair : Counterparts code exact retOff retLen)
    (fits : OutputFits retOff retLen) (output : List UInt8) :
    Agrees (storeOutput code output) (storeOutput exact output) vm := by
  obtain ⟨rfl, offSame, lenSame⟩ := pair
  unfold storeOutput
  dsimp only
  rw [offSame, lenSame]
  have refused {n : Nat} (taken : n = min retLen.lowUsize output.length) (some : 0 < n)
      (far : maxMemory < retOff.lowUsize + n) :
      Agrees (if 0 < n then memStore retOff.lowUsize (output.take n) else pure ())
        (if 0 < min retLen.toNat output.length then
          memStore retOff.toNat (output.take (min retLen.toNat output.length)) else pure ()) vm := by
    have length : (output.take n).length = n := by
      rw [List.length_take]
      omega
    rw [if_pos some]
    refine agrees_of_ran _ _ (memStore_refused ⟨?_, ?_⟩ vm) nofun
    · rw [length]
      exact Nat.pos_iff_ne_zero.mp some
    · rwa [length]
  have low : retLen.lowUsize ≤ retLen.toNat := by
    rw [lowUsize_eq_mod]
    exact Nat.mod_le _ _
  rcases fits with nothing | ⟨some, far | ⟨narrow, lenNarrow | far⟩⟩
  · rw [lowUsize_of_zero nothing, nothing, Nat.zero_min, if_neg (Nat.lt_irrefl 0),
      if_neg (Nat.lt_irrefl 0)]
    exact agrees_refl _ _
  · by_cases empty : output.length = 0
    · rw [empty, Nat.min_zero, Nat.min_zero, if_neg (Nat.lt_irrefl 0), if_neg (Nat.lt_irrefl 0)]
      exact agrees_refl _ _
    · exact refused rfl (by omega) (by omega)
  · rw [lenNarrow.lowUsize, narrow.lowUsize]
    exact agrees_refl _ _
  · by_cases short : output.length ≤ retLen.lowUsize
    · rw [Nat.min_eq_right short, Nat.min_eq_right (short.trans low), narrow.lowUsize]
      exact agrees_refl _ _
    · exact refused rfl (by omega) (by omega)

variable [Host H] [Keccak256] [Secp256k1] [Sha256] [Ripemd160] [Bn254]

omit [Keccak256] [Secp256k1] [Sha256] [Ripemd160] [Bn254] in
theorem agrees_leaveCall (pair : Counterparts code exact retOff retLen)
    (fits : OutputFits retOff retLen) (snapshot : Nat) (outcome : ExecOutcome) :
    Agrees (leaveCall code snapshot outcome) (leaveCall exact snapshot outcome) vm := by
  refine agrees_after _ fun _ _ _ => agrees_after _ fun _ _ _ => agrees_after _ fun _ _ _ => ?_
  exact (agrees_storeOutput pair fits _).bind _

theorem agrees_callPrecompile (pair : Counterparts code exact retOff retLen)
    (fits : OutputFits retOff retLen) (snapshot : Nat) :
    Agrees (callPrecompile code snapshot) (callPrecompile exact snapshot) vm := by
  have target : code.target = exact.target := by rw [pair.code]
  have calldata : code.calldata = exact.calldata := by rw [pair.code]
  unfold callPrecompile
  rw [target, calldata]
  refine agrees_after _ fun _ _ _ => ?_
  cases Precompile.execute exact.target exact.calldata with
  | none => exact agrees_refl _ _
  | some output =>
      refine agrees_after _ fun _ _ _ => agrees_after _ fun _ _ _ => ?_
      exact (agrees_storeOutput pair fits _).bind _

omit [Keccak256] [Secp256k1] [Sha256] [Ripemd160] [Bn254] in
theorem payCall_counterpart (pair : Counterparts code exact retOff retLen) (kind : CallKind) :
    (payCall kind code : VmM H Bool) = payCall kind exact := by
  rw [pair.code]
  rfl

theorem agrees_enterCall {kind : CallKind} (pair : Counterparts code exact retOff retLen)
    (fits : OutputFits retOff retLen) :
    Agrees (enterCall kind code) (enterCall kind exact) vm := by
  have target : code.target = exact.target := by rw [pair.code]
  have frame (body : List UInt8) (vm : Interpreter H) :
      callFrame kind code body vm = callFrame kind exact body vm := by
    rw [pair.code]
    rfl
  unfold enterCall
  rw [payCall_counterpart pair, target]
  simp only [frame]
  refine agrees_get ?_
  by_cases deep : maxCallDepth ≤ vm.depth
  · rw [if_pos deep, if_pos deep]
    exact agrees_refl _ _
  · rw [if_neg deep, if_neg deep]
    refine agrees_after _ fun snapshot after _ => agrees_after _ fun paid later _ => ?_
    cases paid with
    | false =>
        rw [if_neg Bool.false_ne_true, if_neg Bool.false_ne_true]
        exact agrees_refl _ _
    | true =>
        rw [if_pos rfl, if_pos rfl]
        by_cases precompile : Precompile.isPrecompile exact.target = true
        · rw [if_pos precompile, if_pos precompile]
          exact (agrees_callPrecompile pair fits snapshot).bind _
        · rw [if_neg precompile, if_neg precompile]
          exact agrees_refl _ _

/-- The operands of a call on the stack: two of the calls take a value. -/
def CallStack (kind : CallKind) (argsOff argsLen retOff retLen : U256) (stack : List U256) :
    Prop :=
  ∃ gas target values rest, stack = gas :: target :: values ++
      argsOff :: argsLen :: retOff :: retLen :: rest ∧
    values.length = if kind = .call ∨ kind = .callCode then 1 else 0

variable {argsOff argsLen : U256}

def CallFits (argsOff argsLen retOff retLen : U256) : Prop :=
  Refused argsOff.lowUsize argsLen.lowUsize ∨ Taken argsOff argsLen ∧ OutputFits retOff retLen

omit [Host H] [Keccak256] [Secp256k1] [Sha256] [Ripemd160] [Bn254] in
theorem popValue_stack {kind : CallKind} {values : List U256} {after : Interpreter H}
    (stack : vm.stack = values ++ rest)
    (count : values.length = if kind = .call ∨ kind = .callCode then 1 else 0)
    (ran : (popValue kind).run.run vm = (.ok value, after)) : after.stack = rest := by
  unfold popValue at ran
  by_cases valued : kind = .call ∨ kind = .callCode
  · rw [if_pos valued] at ran count
    obtain ⟨only, rfl⟩ := List.length_eq_one_iff.mp count
    rw [pop_run, stack] at ran
    cases ran
    rfl
  · rw [if_neg valued] at ran count
    rw [List.eq_nil_of_length_eq_zero count] at stack
    cases ran
    exact stack

omit [Host H] [Keccak256] [Secp256k1] [Sha256] [Ripemd160] [Bn254] in
/-- Four operands, whatever the machine is behind them. -/
theorem agrees_operands {β : Type} {next next' : Nat → Nat → Nat → Nat → VmM H β}
    (stack : vm.stack = argsOff :: argsLen :: retOff :: retLen :: rest)
    (agrees : ∀ after, Agrees
      (next argsOff.lowUsize argsLen.lowUsize retOff.lowUsize retLen.lowUsize)
      (next' argsOff.toNat argsLen.toNat retOff.toNat retLen.toNat) after) :
    Agrees
      (do
        let a ← popUsize
        let b ← popUsize
        let c ← popUsize
        let d ← popUsize
        next a b c d)
      (do
        let a ← Exact.operand
        let b ← Exact.operand
        let c ← Exact.operand
        let d ← Exact.operand
        next' a b c d) vm :=
  agrees_operand stack (agrees_operand rfl (agrees_operand rfl (agrees_operand rfl (agrees _))))

theorem agrees_doCall {sub : Executor H} {kind : CallKind}
    (stack : CallStack kind argsOff argsLen retOff retLen vm.stack)
    (fits : CallFits argsOff argsLen retOff retLen) :
    Agrees (doCall sub kind) (Exact.doCall sub kind) vm := by
  obtain ⟨gas, target, values, rest, stack, count⟩ := stack
  unfold doCall Exact.doCall callArgs Exact.callArgs
  simp only [bind_assoc]
  refine agrees_after _ fun _ charged ran => ?_
  rw [← charge_stack ran] at stack
  refine agrees_pop stack (agrees_pop rfl ?_)
  refine agrees_after _ fun value valued ran => ?_
  refine agrees_operands (popValue_stack rfl count ran) fun after => agrees_get ?_
  by_cases static : after.isStatic = true ∧ ¬ value.isZero = true
  · rw [if_pos static, if_pos static]
    exact agrees_after _ fun _ _ thrown => by cases thrown
  rw [if_neg static, if_neg static]
  simp only [bind_assoc, pure_bind]
  rcases fits with refused | ⟨taken, output⟩
  · refine agrees_of_ran (.vm .memoryLimit) after ?_ (by decide)
    rw [run_bind, memLoad_refused refused]
  · rw [taken.memLoad]
    refine agrees_after _ fun calldata loaded _ => ?_
    have pair : Counterparts
        ⟨gas, target, value, calldata, retOff.lowUsize, retLen.lowUsize⟩
        ⟨gas, target, value, calldata, retOff.toNat, retLen.toNat⟩ retOff retLen :=
      ⟨rfl, rfl, rfl⟩
    refine (agrees_enterCall pair output).chain fun entered later => ?_
    cases entered with
    | none => exact agrees_refl _ _
    | some entry =>
        obtain ⟨frame, snapshot⟩ := entry
        exact agrees_after _ fun outcome _ _ => agrees_leaveCall pair output snapshot outcome

end Frames

end Evm

end Veilux
