/-
Frames of `evm/src/vm.rs`: the opcodes that change the host or the control flow,
calls and creations, the loop, and `execute_frame`.

A call is cut where the source calls `execute_frame`: what comes before decides on
the frame to enter, what comes after takes its outcome.
-/

import Veilux.Evm.Interpreter

namespace Veilux

namespace Evm

inductive Opcode where
  | plain (op : Plain)
  | stop
  | sstore
  | jump
  | jumpi
  | push (n : Nat)
  | log (topics : Nat)
  | create (salted : Bool)
  | call (kind : CallKind)
  | return
  | revert
  | selfdestruct
  | invalid (op : UInt8)
  deriving DecidableEq

/-- The `match` of `exec_loop`. -/
def decode (op : UInt8) : Opcode :=
  match op.toNat with
  | 0x00 => .stop
  | 0x01 => .plain .add
  | 0x02 => .plain .mul
  | 0x03 => .plain .sub
  | 0x04 => .plain .div
  | 0x05 => .plain .sdiv
  | 0x06 => .plain .mod
  | 0x07 => .plain .smod
  | 0x08 => .plain .addmod
  | 0x09 => .plain .mulmod
  | 0x0a => .plain .exp
  | 0x0b => .plain .signextend
  | 0x10 => .plain .lt
  | 0x11 => .plain .gt
  | 0x12 => .plain .slt
  | 0x13 => .plain .sgt
  | 0x14 => .plain .eq
  | 0x15 => .plain .iszero
  | 0x16 => .plain .and
  | 0x17 => .plain .or
  | 0x18 => .plain .xor
  | 0x19 => .plain .not
  | 0x1a => .plain .byte
  | 0x1b => .plain .shl
  | 0x1c => .plain .shr
  | 0x1d => .plain .sar
  | 0x20 => .plain .keccak
  | 0x30 => .plain .address
  | 0x31 => .plain .balance
  | 0x32 => .plain .origin
  | 0x33 => .plain .caller
  | 0x34 => .plain .callvalue
  | 0x35 => .plain .calldataload
  | 0x36 => .plain .calldatasize
  | 0x37 => .plain .calldatacopy
  | 0x38 => .plain .codesize
  | 0x39 => .plain .codecopy
  | 0x3a => .plain .gasprice
  | 0x3b => .plain .extcodesize
  | 0x3c => .plain .extcodecopy
  | 0x3d => .plain .returndatasize
  | 0x3e => .plain .returndatacopy
  | 0x3f => .plain .extcodehash
  | 0x42 => .plain .timestamp
  | 0x43 => .plain .number
  | 0x46 => .plain .chainid
  | 0x47 => .plain .selfbalance
  | 0x50 => .plain .pop
  | 0x51 => .plain .mload
  | 0x52 => .plain .mstore
  | 0x53 => .plain .mstore8
  | 0x54 => .plain .sload
  | 0x55 => .sstore
  | 0x56 => .jump
  | 0x57 => .jumpi
  | 0x58 => .plain .pc
  | 0x59 => .plain .msize
  | 0x5a => .plain .gas
  | 0x5b => .plain .jumpdest
  | 0xf0 => .create false
  | 0xf1 => .call .call
  | 0xf2 => .call .callCode
  | 0xf3 => .return
  | 0xf4 => .call .delegateCall
  | 0xf5 => .create true
  | 0xfa => .call .staticCall
  | 0xfd => .revert
  | 0xff => .selfdestruct
  | byte =>
      if 0x60 ≤ byte ∧ byte ≤ 0x7f then .push (byte - 0x60 + 1)
      else if 0x80 ≤ byte ∧ byte ≤ 0x8f then .plain (.dup (byte - 0x80))
      else if 0x90 ≤ byte ∧ byte ≤ 0x9f then .plain (.swap (byte - 0x90 + 1))
      else if 0xa0 ≤ byte ∧ byte ≤ 0xa4 then .log (byte - 0xa0)
      else .invalid op

def baseGas (op : UInt8) : UInt64 :=
  if op = 0x00 ∨ op = 0x5b then 1
  else if op = 0x54 then 200
  else if 0x60 ≤ op ∧ op ≤ 0x9f then 3
  else if (0x01 ≤ op ∧ op ≤ 0x03) ∨ (0x10 ≤ op ∧ op ≤ 0x1d) then 3
  else if op = 0x20 then 30
  else if 0x51 ≤ op ∧ op ≤ 0x53 then 3
  else if op = 0x56 ∨ op = 0x57 then 8
  else if op = 0x3b ∨ op = 0x3c ∨ op = 0x3f then 100
  else 2

/-- What `execute_frame` is given. -/
structure Frame (H : Type) where
  code : List UInt8
  ctx : CallContext
  host : H
  depth : UInt32
  isStatic : Bool

def Interpreter.new {H : Type} (frame : Frame H) : Interpreter H :=
  { code := frame.code
    stack := []
    memory := []
    pc := 0
    gas := 0
    gasLimit := frame.ctx.gasLimit
    ctx := frame.ctx
    host := frame.host
    logs := []
    returnData := []
    retBuffer := []
    depth := frame.depth
    isStatic := frame.isStatic }

abbrev Executor (H : Type) := Frame H → Except Fault ExecOutcome × H

/-! ### Addresses of created contracts -/

section Addresses

variable [Keccak256]

omit [Keccak256] in
def addr20 (value : U256) : List UInt8 := value.toBigEndian.toList.drop 12

omit [Keccak256] in
def addrToU256 (bytes : List UInt8) : U256 := .fromBigEndian (List.replicate 12 0 ++ bytes)

def createAddress (sender : U256) (nonce : UInt64) : U256 :=
  let rlp := Rlp.encodeList
    [Rlp.encodeStr (addr20 sender), Rlp.encodeStr (Rlp.trimmed 8 nonce.toNat)]
  addrToU256 ((Keccak256.digest rlp).toList.drop 12)

def create2Address (sender salt : U256) (init : List UInt8) : U256 :=
  let buf := 0xff :: addr20 sender ++ salt.toBigEndian.toList ++ (Keccak256.digest init).toList
  addrToU256 ((Keccak256.digest buf).toList.drop 12)

end Addresses

section Host

variable {H : Type} [Host H]

omit [Host H] in
/-- `&mut self.host` handed to a method. -/
def onHost (change : H → H) : VmM H Unit :=
  modify fun vm => { vm with host := change vm.host }

/-- `self.host.transfer(..)`, whose result no caller looks at. -/
def transfer (source target value : U256) : VmM H Unit :=
  onHost fun host => (Host.transfer host source target value).2

def takeSnapshot : VmM H Nat := do
  let vm ← get
  set { vm with host := (Host.snapshot vm.host).2 }
  pure (Host.snapshot vm.host).1

def revertTo (snapshot : Nat) : VmM H Unit := onHost fun host => Host.revert host snapshot

def commitTo (snapshot : Nat) : VmM H Unit := onHost fun host => Host.commitSnapshot host snapshot

omit [Host H] in
def setRetBuffer (data : List UInt8) : VmM H Unit :=
  modify fun vm => { vm with retBuffer := data }

omit [Host H] in
/-- A call or creation that does not take place. -/
def refuse : VmM H Unit := do
  setRetBuffer []
  push .zero

/-! ### Storage, logs, jumps and the end of a frame -/

/-- What an instruction means for the loop: go on behind it, go on where it said, or
leave the frame. -/
inductive Flow where
  | advance
  | jumped
  | halted
  deriving DecidableEq

def sstore : VmM H Unit := do
  let vm ← get
  if vm.isStatic then fail .staticViolation
  else do
    charge 20000
    let key ← pop
    let value ← pop
    onHost fun host => Host.sstore host vm.ctx.address key value

omit [Host H] in
/-- The topics, popped one after another. -/
def popTopics : Nat → VmM H (List U256)
  | 0 => pure []
  | n + 1 => do
      let topic ← pop
      let rest ← popTopics n
      pure (topic :: rest)

omit [Host H] in
def logOp (topicCount : Nat) : VmM H Unit := do
  let vm ← get
  if vm.isStatic then fail .staticViolation
  else do
    let off ← popUsize
    let len ← popUsize
    let topics ← popTopics topicCount
    let data ← memLoad off len
    charge (375 * .ofNat topicCount + 8 * .ofNat len)
    modify fun vm =>
      { vm with logs := vm.logs ++ [{ address := vm.ctx.address, topics := topics, data := data }] }

omit [Host H] in
def jumpTo (dest : U256) : VmM H Unit := do
  let vm ← get
  let d := dest.lowUsize
  if ¬ dest.bitsFitUsize ∨ (analyzeJumpdests vm.code).length ≤ d then fail (.invalidJump d)
  else do
    let marked ← indexed (analyzeJumpdests vm.code) d
    if marked then set { vm with pc := d } else fail (.invalidJump d)

omit [Host H] in
def jumpi : VmM H Flow := do
  let dest ← pop
  let cond ← pop
  if cond.isZero then pure .advance
  else do
    jumpTo dest
    pure .jumped

omit [Host H] in
/-- The immediate is cut at the end of the code and filled up on the left. -/
def pushImmediate (n : Nat) : VmM H Unit := do
  let vm ← get
  let start := vm.pc + 1
  let slice ← sliced vm.code start (min (start + n) vm.code.length)
  push (.fromBigEndian slice)
  modify fun vm => { vm with pc := start + n }

omit [Host H] in
def returnWith : VmM H Unit := do
  let off ← popUsize
  let len ← popUsize
  let data ← memLoad off len
  modify fun vm => { vm with returnData := data }

def selfdestruct : VmM H Unit := do
  let vm ← get
  if vm.isStatic then fail .staticViolation
  else do
    let beneficiary ← pop
    let balance := Host.balance vm.host vm.ctx.address
    if balance.isZero then pure () else transfer vm.ctx.address beneficiary balance

end Host

/-! ### Calls -/

structure CallArgs where
  gas : U256
  target : U256
  value : U256
  calldata : List UInt8
  retOff : Nat
  retLen : Nat

section Calls

variable {H : Type}

/-- Two of the calls have a value on the stack. -/
def popValue (kind : CallKind) : VmM H U256 :=
  if kind = .call ∨ kind = .callCode then pop else pure .zero

/-- Charge, operands and calldata of a call. -/
def callArgs (kind : CallKind) : VmM H CallArgs := do
  charge 100
  let gas ← pop
  let target ← pop
  let value ← popValue kind
  let argsOff ← popUsize
  let argsLen ← popUsize
  let retOff ← popUsize
  let retLen ← popUsize
  let vm ← get
  if vm.isStatic ∧ ¬ value.isZero then fail .staticViolation
  else do
    let calldata ← memLoad argsOff argsLen
    pure ⟨gas, target, value, calldata, retOff, retLen⟩

/-- The frame of a call that runs code. -/
def callFrame (kind : CallKind) (args : CallArgs) (code : List UInt8) (vm : Interpreter H) :
    Frame H :=
  let forwarded := min (saturatingSub vm.gasLimit vm.gas) args.gas.lowU64Saturating
  { code := code
    ctx :=
      { caller := if kind = .delegateCall then vm.ctx.caller else vm.ctx.address
        address := if kind = .call ∨ kind = .staticCall then args.target else vm.ctx.address
        value := if kind = .delegateCall then vm.ctx.value else args.value
        calldata := args.calldata
        gasLimit := max forwarded 1 }
    host := vm.host
    depth := vm.depth + 1
    isStatic := vm.isStatic || decide (kind = .staticCall) }

/-- Output behind the return offset, as much of it as the caller has room for. -/
def storeOutput (args : CallArgs) (output : List UInt8) : VmM H Unit :=
  let n := min args.retLen output.length
  if 0 < n then memStore args.retOff (output.take n) else pure ()

variable [Host H] [Keccak256] [Secp256k1] [Sha256] [Ripemd160] [Bn254]

omit [Keccak256] [Secp256k1] [Sha256] [Ripemd160] [Bn254] in
/-- The value of a call moves before anything runs; `false` when it is not there. -/
def payCall (kind : CallKind) (args : CallArgs) : VmM H Bool := do
  let vm ← get
  if kind = .call ∧ ¬ args.value.isZero then
    if (Host.balance vm.host vm.ctx.address).lt args.value then pure false
    else do
      transfer vm.ctx.address args.target args.value
      pure true
  else pure true

/-- A precompiled contract: its gas is the caller's. -/
def callPrecompile (args : CallArgs) (snapshot : Nat) : VmM H Unit := do
  charge (Precompile.gasCost args.target args.calldata)
  match Precompile.execute args.target args.calldata with
  | some output => do
      commitTo snapshot
      setRetBuffer output
      storeOutput args output
      push .one
  | none => do
      revertTo snapshot
      refuse

/-- The part of `do_call` before the callee runs: nothing is left to run, or the frame
to enter with the snapshot taken for it. -/
def enterCall (kind : CallKind) (args : CallArgs) : VmM H (Option (Frame H × Nat)) := do
  let vm ← get
  if maxCallDepth ≤ vm.depth then do
    refuse
    pure none
  else do
    let snapshot ← takeSnapshot
    let paid ← payCall kind args
    if paid then
      if Precompile.isPrecompile args.target then do
        callPrecompile args snapshot
        pure none
      else do
        let vm ← get
        let code := Host.code vm.host args.target
        if code.isEmpty then do
          commitTo snapshot
          setRetBuffer []
          push .one
          pure none
        else pure (some (callFrame kind args code vm, snapshot))
    else do
      revertTo snapshot
      refuse
      pure none

omit [Host H] [Keccak256] [Secp256k1] [Sha256] [Ripemd160] [Bn254] in
/-- `execute_frame(..)?` on the host of the caller. -/
def invoke (sub : Executor H) (frame : Frame H) : VmM H ExecOutcome := do
  modify fun vm => { vm with host := (sub frame).2 }
  match (sub frame).1 with
  | .ok outcome => pure outcome
  | .error fault => throw fault

omit [Keccak256] [Secp256k1] [Sha256] [Ripemd160] [Bn254] in
/-- A callee that went through is committed, with its logs. -/
def settle (snapshot : Nat) (outcome : ExecOutcome) : VmM H Unit :=
  if outcome.success then do
    commitTo snapshot
    modify fun vm => { vm with logs := vm.logs ++ outcome.logs }
  else revertTo snapshot

omit [Keccak256] [Secp256k1] [Sha256] [Ripemd160] [Bn254] in
/-- The part of `do_call` after the callee. -/
def leaveCall (args : CallArgs) (snapshot : Nat) (outcome : ExecOutcome) : VmM H Unit := do
  charge outcome.gasUsed
  settle snapshot outcome
  setRetBuffer outcome.returnData
  storeOutput args outcome.returnData
  push (boolU outcome.success)

def doCall (sub : Executor H) (kind : CallKind) : VmM H Unit := do
  let args ← callArgs kind
  match ← enterCall kind args with
  | none => pure ()
  | some (frame, snapshot) => do
      let outcome ← invoke sub frame
      leaveCall args snapshot outcome

end Calls

/-! ### Creations -/

structure CreateArgs where
  value : U256
  salt : Option U256
  init : List UInt8

section Creations

variable {H : Type}

def popSalt (salted : Bool) : VmM H (Option U256) :=
  if salted then do
    let salt ← pop
    pure (some salt)
  else pure none

def createArgs (salted : Bool) : VmM H CreateArgs := do
  let vm ← get
  if vm.isStatic then fail .staticViolation
  else do
    charge 32000
    let value ← pop
    let off ← popUsize
    let len ← popUsize
    let salt ← popSalt salted
    let init ← memLoad off len
    pure ⟨value, salt, init⟩

def createFrame (args : CreateArgs) (address : U256) (vm : Interpreter H) : Frame H :=
  { code := args.init
    ctx :=
      { caller := vm.ctx.address
        address := address
        value := args.value
        calldata := []
        gasLimit := max (saturatingSub vm.gasLimit vm.gas) 1 }
    host := vm.host
    depth := vm.depth + 1
    isStatic := false }

variable [Host H]

/-- The endowment moves before the init code runs; `false` when it is not there. -/
def payCreate (args : CreateArgs) (address : U256) : VmM H Bool := do
  let vm ← get
  if args.value.isZero then pure true
  else if (Host.balance vm.host vm.ctx.address).lt args.value then pure false
  else do
    transfer vm.ctx.address address args.value
    pure true

def newAddress [Keccak256] (args : CreateArgs) (vm : Interpreter H) : U256 :=
  match args.salt with
  | some salt => create2Address vm.ctx.address salt args.init
  | none => createAddress vm.ctx.address (Host.accountNonce vm.host vm.ctx.address)

/-- The part of `do_create` before the init code runs.  The creator's nonce is bumped
outside the snapshot. -/
def enterCreate [Keccak256] (args : CreateArgs) : VmM H (Option (Frame H × Nat)) := do
  let vm ← get
  if maxCallDepth ≤ vm.depth then do
    refuse
    pure none
  else do
    let address := newAddress args vm
    onHost fun host => Host.bumpNonce host vm.ctx.address
    let snapshot ← takeSnapshot
    let paid ← payCreate args address
    if paid then do
      let vm ← get
      pure (some (createFrame args address vm, snapshot))
    else do
      revertTo snapshot
      refuse
      pure none

/-- The part of `do_create` after the init code: what it returned becomes the code. -/
def leaveCreate (address : U256) (snapshot : Nat) (outcome : ExecOutcome) : VmM H Unit := do
  charge outcome.gasUsed
  if outcome.success ∧ outcome.returnData.length ≤ maxCodeSize then do
    onHost fun host => Host.setCode host address outcome.returnData
    commitTo snapshot
    modify fun vm => { vm with logs := vm.logs ++ outcome.logs }
    setRetBuffer []
    push address
  else do
    revertTo snapshot
    setRetBuffer outcome.returnData
    push .zero

def doCreate [Keccak256] (sub : Executor H) (salted : Bool) : VmM H Unit := do
  let args ← createArgs salted
  match ← enterCreate args with
  | none => pure ()
  | some (frame, snapshot) => do
      let outcome ← invoke sub frame
      leaveCreate frame.ctx.address snapshot outcome

end Creations

/-! ### The loop -/

section Loop

variable {H : Type} [Host H] [Keccak256] [Secp256k1] [Sha256] [Ripemd160] [Bn254]

def exec (sub : Executor H) : Opcode → VmM H Flow
  | .plain op => do
      plain op
      pure .advance
  | .stop => pure .halted
  | .sstore => do
      sstore
      pure .advance
  | .jump => do
      let dest ← pop
      jumpTo dest
      pure .jumped
  | .jumpi => jumpi
  | .push n => do
      pushImmediate n
      pure .jumped
  | .log topics => do
      logOp topics
      pure .advance
  | .create salted => do
      doCreate sub salted
      pure .advance
  | .call kind => do
      doCall sub kind
      pure .advance
  | .return => do
      returnWith
      pure .halted
  | .revert => do
      returnWith
      fail .reverted
  | .selfdestruct => do
      selfdestruct
      pure .halted
  | .invalid op => fail (.invalidOpcode op)

/-- One turn of `exec_loop`; `false` when the frame is left. -/
def step (sub : Executor H) : VmM H Bool := do
  let vm ← get
  if vm.code.length ≤ vm.pc then pure false
  else do
    let op ← indexed vm.code vm.pc
    charge (baseGas op)
    match ← exec sub (decode op) with
    | .advance => do
        modify fun vm => { vm with pc := vm.pc + 1 }
        pure true
    | .jumped => pure true
    | .halted => pure false

def execLoop (sub : Executor H) : Nat → VmM H Unit
  | 0 => throw .fuel
  | fuel + 1 => do
      let running ← step sub
      if running then execLoop sub fuel else pure ()

/-- `Interpreter::run`: a revert is an outcome, every other error leaves the frame. -/
def run (sub : Executor H) (fuel : Nat) (frame : Frame H) : Except Fault ExecOutcome × H :=
  match (execLoop sub fuel).run.run (Interpreter.new frame) with
  | (.ok (), vm) => (.ok ⟨true, vm.returnData, vm.gas, vm.logs⟩, vm.host)
  | (.error (.vm .reverted), vm) => (.ok ⟨false, vm.returnData, vm.gas, []⟩, vm.host)
  | (.error fault, vm) => (.error fault, vm.host)

/-- Frames with at most so many levels of frames below them. -/
def executor (fuel : Nat) : Nat → Executor H
  | 0 => run (fun frame => (.error .fuel, frame.host)) fuel
  | levels + 1 => run (executor fuel levels) fuel

/-- How deep the frames below one can go: at the limit no frame is entered. -/
def Frame.levels (frame : Frame H) : Nat := maxCallDepth.toNat - frame.depth.toNat

def executeFrameWith (fuel : Nat) (frame : Frame H) : Except Fault ExecOutcome × H :=
  executor fuel frame.levels frame

end Loop

end Evm

end Veilux
