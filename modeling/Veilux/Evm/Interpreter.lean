/-
The interpreter of `evm/src/vm.rs` up to calls: its state, the primitive steps on
gas, stack and memory, and the opcodes that only work on these and read the host.

A slice or index that is out of range panics; `Fault.panic` stands for it.  Sums
that index a buffer wrap around as `usize` does in a release build.
-/

import Veilux.Evm.Precompile

namespace Veilux

namespace Evm

def maxStack : Nat := 1024
def maxMemory : Nat := 1048576
def maxCallDepth : UInt32 := 64
def maxCodeSize : Nat := 24576

/-- The longest `Vec<u8>`. -/
def maxAllocation : Nat := 2 ^ 63 - 1

inductive CallKind where
  | call
  | callCode
  | delegateCall
  | staticCall
  deriving DecidableEq

/-- How an instruction can end a frame: with an error of the machine, in a panic, or,
in the model only, without fuel. -/
inductive Fault where
  | vm (error : VmError)
  | panic
  | fuel
  deriving DecidableEq

/-- The stack has its top first; the jump destinations follow from the code. -/
structure Interpreter (H : Type) where
  code : List UInt8
  stack : List U256
  memory : List UInt8
  pc : Nat
  gas : UInt64
  gasLimit : UInt64
  ctx : CallContext
  host : H
  logs : List Log
  returnData : List UInt8
  retBuffer : List UInt8
  depth : UInt32
  isStatic : Bool

abbrev VmM (H : Type) := ExceptT Fault (StateM (Interpreter H))

/-- Which bytes of a code are jump destinations.  `skip` bytes belong to a push. -/
def jumpdestsFrom : Nat → List UInt8 → List Bool
  | _, [] => []
  | 0, op :: rest =>
      decide (op = 0x5b) ::
        jumpdestsFrom (if 0x60 ≤ op ∧ op ≤ 0x7f then op.toNat - 0x60 + 1 else 0) rest
  | skip + 1, _ :: rest => false :: jumpdestsFrom skip rest

def analyzeJumpdests (code : List UInt8) : List Bool := jumpdestsFrom 0 code

section Primitives

variable {H : Type} {α : Type}

def fail (error : VmError) : VmM H α := throw (.vm error)

/-- `list[index]`. -/
def indexed (list : List α) (index : Nat) : VmM H α :=
  match list[index]? with
  | some value => pure value
  | none => throw .panic

/-- `bytes[start..stop]`. -/
def sliced (bytes : List UInt8) (start stop : Nat) : VmM H (List UInt8) :=
  if start ≤ stop ∧ stop ≤ bytes.length then pure ((bytes.drop start).take (stop - start))
  else throw .panic

/-- `u64::saturating_add`. -/
def saturatingAdd (left right : UInt64) : UInt64 :=
  .ofNat (min (left.toNat + right.toNat) (2 ^ 64 - 1))

/-- `u64::saturating_sub`. -/
def saturatingSub (left right : UInt64) : UInt64 := .ofNat (left.toNat - right.toNat)

def charge (amount : UInt64) : VmM H Unit := do
  let vm ← get
  set { vm with gas := saturatingAdd vm.gas amount }
  if vm.gasLimit < saturatingAdd vm.gas amount then fail .outOfGas else pure ()

def push (value : U256) : VmM H Unit := do
  let vm ← get
  if maxStack ≤ vm.stack.length then fail .stackOverflow
  else set { vm with stack := value :: vm.stack }

def pop : VmM H U256 := do
  let vm ← get
  match vm.stack with
  | [] => fail .stackUnderflow
  | value :: rest => do
      set { vm with stack := rest }
      pure value

def popUsize : VmM H Nat := do
  let value ← pop
  pure value.lowUsize

/-- The memory grows to whole words. -/
def grow (length : Nat) : VmM H Unit := do
  let vm ← get
  if vm.memory.length < length then do
    let newLen := (length + 31) / 32 * 32
    charge (.ofNat ((newLen - vm.memory.length) / 32 * 3))
    modify fun vm =>
      { vm with memory := vm.memory ++ List.replicate (newLen - vm.memory.length) 0 }
  else pure ()

def ensureMem (offset len : Nat) : VmM H Unit :=
  if len = 0 then pure ()
  else if 2 ^ 64 ≤ offset + len ∨ maxMemory < offset + len then fail .memoryLimit
  else grow (offset + len)

def memStore (offset : Nat) (data : List UInt8) : VmM H Unit := do
  ensureMem offset data.length
  let vm ← get
  if vm.memory.length < offset + data.length then throw .panic
  else
    set { vm with
      memory := vm.memory.take offset ++ data ++ vm.memory.drop (offset + data.length) }

def memLoad (offset len : Nat) : VmM H (List UInt8) :=
  if len = 0 then pure []
  else do
    ensureMem offset len
    let vm ← get
    sliced vm.memory offset (offset + len)

end Primitives

/-! ### Opcodes on stack and memory -/

/-- The opcodes that change neither the host nor the logs. -/
inductive Plain where
  | add | mul | sub | div | sdiv | mod | smod | addmod | mulmod | exp | signextend
  | lt | gt | slt | sgt | eq | iszero | and | or | xor | not | byte | shl | shr | sar
  | keccak
  | address | balance | origin | caller | callvalue
  | calldataload | calldatasize | calldatacopy | codesize | codecopy | gasprice
  | extcodesize | extcodecopy | returndatasize | returndatacopy | extcodehash
  | number | timestamp | chainid | selfbalance
  | pop | mload | mstore | mstore8 | sload
  | pc | msize | gas | jumpdest
  | dup (n : Nat)
  | swap (n : Nat)
  deriving DecidableEq

def boolU (value : Bool) : U256 := if value then .one else .zero

def signedLt (left right : U256) : Bool :=
  match left.isNeg, right.isNeg with
  | true, false => true
  | false, true => false
  | _, _ => left.lt right

def shiftL (shift value : U256) : U256 :=
  if ¬ shift.bitsFitUsize ∨ 256 ≤ shift.lowUsize then .zero else value.shl shift.lowUsize

def shiftR (shift value : U256) : U256 :=
  if ¬ shift.bitsFitUsize ∨ 256 ≤ shift.lowUsize then .zero else value.shr shift.lowUsize

def sdiv (left right : U256) : U256 :=
  if right.isZero then .zero
  else
    let ua := if left.isNeg then left.neg else left
    let ub := if right.isNeg then right.neg else right
    let q := (ua.divMod ub).1
    if left.isNeg ^^ right.isNeg then q.neg else q

def smod (left right : U256) : U256 :=
  if right.isZero then .zero
  else
    let ua := if left.isNeg then left.neg else left
    let ub := if right.isNeg then right.neg else right
    let r := (ua.divMod ub).2
    if left.isNeg then r.neg else r

def addmod (left right modulus : U256) : U256 :=
  if modulus.isZero then .zero else ((left.overflowingAdd right).1.divMod modulus).2

def mulmod (left right modulus : U256) : U256 :=
  if modulus.isZero then .zero else ((left.wrappingMul right).divMod modulus).2

/-- Square and multiply; the exponent has 256 bits. -/
def expLoop : Nat → U256 → U256 → U256 → U256
  | 0, _, _, result => result
  | bits + 1, base, e, result =>
      if e.isZero then result
      else
        expLoop bits (base.wrappingMul base) (e.shr 1)
          (if e.bit 0 then result.wrappingMul base else result)

def exp (base e : U256) : U256 := expLoop 256 base e .one

def signextend (i x : U256) : U256 :=
  if 31 ≤ i.lowU64 then x
  else
    let bit := i.lowUsize * 8 + 7
    let mask := (U256.one.shl (bit + 1)).wrappingSub .one
    if x.bit bit then x.or mask.not else x.and mask

def sar (shift value : U256) : U256 :=
  let s := shift.lowUsize
  if ¬ shift.bitsFitUsize ∨ 256 ≤ s then if value.isNeg then U256.zero.not else .zero
  else
    let r := value.shr s
    if value.isNeg then r.or ((U256.one.shl (256 - s)).wrappingSub .one).not else r

def byteOp (i x : U256) : U256 :=
  if 32 ≤ i.lowU64 then .zero
  else .fromU64 (x.toBigEndian.toList.getD i.lowUsize 0).toUInt64

section Handlers

variable {H : Type}

def unary (f : U256 → U256) : VmM H Unit := do
  let a ← pop
  push (f a)

def bin (f : U256 → U256 → U256) : VmM H Unit := do
  let a ← pop
  let b ← pop
  push (f a b)

def ternary (f : U256 → U256 → U256 → U256) : VmM H Unit := do
  let a ← pop
  let b ← pop
  let m ← pop
  push (f a b m)

/-- A word read off the state of the machine. -/
def pushRead (read : Interpreter H → U256) : VmM H Unit := do
  let vm ← get
  push (read vm)

/-- `vec![0u8; len]`. -/
def allocate (len : Nat) : VmM H Unit := if maxAllocation < len then throw .panic else pure ()

/-- `source.get(off + i)` for each `i`, and zero beyond the source. -/
def copied (source : List UInt8) (off len : Nat) : List UInt8 :=
  (List.range len).map fun i => source.getD ((off + i) % 2 ^ 64) 0

/-- The body of the copying opcodes behind their source. -/
def copy (source : Interpreter H → List UInt8) : VmM H Unit := do
  let dest ← popUsize
  let off ← popUsize
  let len ← popUsize
  allocate len
  let vm ← get
  memStore dest (copied (source vm) off len)

def calldataload : VmM H Unit := do
  let off ← popUsize
  let vm ← get
  push (.fromBigEndian (copied vm.ctx.calldata off 32))

def mload : VmM H Unit := do
  let off ← popUsize
  let data ← memLoad off 32
  push (.fromBigEndian data)

def mstore : VmM H Unit := do
  let off ← popUsize
  let value ← pop
  memStore off value.toBigEndian.toList

def mstore8 : VmM H Unit := do
  let off ← popUsize
  let value ← pop
  memStore off [value.toBigEndian.toList.getD 31 0]

def dup (n : Nat) : VmM H Unit := do
  let vm ← get
  if vm.stack.length ≤ n then fail .stackUnderflow
  else do
    let value ← indexed vm.stack n
    push value

def swap (n : Nat) : VmM H Unit := do
  let vm ← get
  if vm.stack.length ≤ n then fail .stackUnderflow
  else do
    let top ← indexed vm.stack 0
    let other ← indexed vm.stack n
    set { vm with stack := (vm.stack.set 0 other).set n top }

variable [Host H] [Keccak256]

def keccak : VmM H Unit := do
  let off ← pop
  let len ← pop
  let data ← memLoad off.lowUsize len.lowUsize
  charge (30 + 6 * ((.ofNat len.lowUsize + 31) / 32))
  push (.fromBigEndian (Keccak256.digest data).toList)

/-- A word the host knows of an address. -/
def pushAccount (read : H → U256 → U256) : VmM H Unit := do
  let a ← pop
  let vm ← get
  push (read vm.host a)

def extcodecopy : VmM H Unit := do
  let a ← pop
  copy fun vm => Host.code vm.host a

def extcodehash (host : H) (address : U256) : U256 :=
  if (Host.code host address).isEmpty then .zero
  else .fromBigEndian (Keccak256.digest (Host.code host address)).toList

def plain : Plain → VmM H Unit
  | .add => bin U256.wrappingAdd
  | .mul => bin U256.wrappingMul
  | .sub => bin U256.wrappingSub
  | .div => bin fun a b => (a.divMod b).1
  | .sdiv => bin sdiv
  | .mod => bin fun a b => (a.divMod b).2
  | .smod => bin smod
  | .addmod => ternary addmod
  | .mulmod => ternary mulmod
  | .exp => bin exp
  | .signextend => bin signextend
  | .lt => bin fun a b => boolU (a.lt b)
  | .gt => bin fun a b => boolU (b.lt a)
  | .slt => bin fun a b => boolU (signedLt a b)
  | .sgt => bin fun a b => boolU (signedLt b a)
  | .eq => bin fun a b => boolU (decide (a = b))
  | .iszero => unary fun a => boolU a.isZero
  | .and => bin U256.and
  | .or => bin U256.or
  | .xor => bin U256.xor
  | .not => unary U256.not
  | .byte => bin byteOp
  | .shl => bin shiftL
  | .shr => bin shiftR
  | .sar => bin sar
  | .keccak => keccak
  | .address => pushRead fun vm => vm.ctx.address
  | .balance => pushAccount Host.balance
  | .origin => pushRead fun vm => vm.ctx.caller
  | .caller => pushRead fun vm => vm.ctx.caller
  | .callvalue => pushRead fun vm => vm.ctx.value
  | .calldataload => calldataload
  | .calldatasize => pushRead fun vm => .fromU64 (.ofNat vm.ctx.calldata.length)
  | .calldatacopy => copy fun vm => vm.ctx.calldata
  | .codesize => pushRead fun vm => .fromU64 (.ofNat vm.code.length)
  | .codecopy => copy fun vm => vm.code
  | .gasprice => push .zero
  | .extcodesize => pushAccount fun host a => .fromU64 (.ofNat (Host.code host a).length)
  | .extcodecopy => extcodecopy
  | .returndatasize => pushRead fun vm => .fromU64 (.ofNat vm.retBuffer.length)
  | .returndatacopy => copy fun vm => vm.retBuffer
  | .extcodehash => pushAccount extcodehash
  | .number => pushRead fun vm => .fromU64 (Host.blockNumber vm.host)
  | .timestamp => pushRead fun vm => .fromU64 (Host.blockTimestamp vm.host)
  | .chainid => pushRead fun vm => .fromU64 (Host.chainId vm.host)
  | .selfbalance => pushRead fun vm => Host.balance vm.host vm.ctx.address
  | .pop => do
      let _ ← pop
      pure ()
  | .mload => mload
  | .mstore => mstore
  | .mstore8 => mstore8
  | .sload => do
      let key ← pop
      let vm ← get
      push (Host.sload vm.host vm.ctx.address key)
  | .pc => pushRead fun vm => .fromU64 (.ofNat vm.pc)
  | .msize => pushRead fun vm => .fromU64 (.ofNat vm.memory.length)
  | .gas => pushRead fun vm => .fromU64 (saturatingSub vm.gasLimit vm.gas)
  | .jumpdest => pure ()
  | .dup n => dup n
  | .swap n => swap n

end Handlers

end Evm

end Veilux
