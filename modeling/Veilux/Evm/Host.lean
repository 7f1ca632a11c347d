/-
The boundary of the interpreter in `evm/src/vm.rs` and the words of
`evm/src/u256.rs` that cross it.  The frame loop itself is a parameter: what is
said of a node holds for every interpreter that works through the host.
-/

import Veilux.Evm.Transaction

namespace Veilux

/-- Four 64-bit limbs, least significant first. -/
structure U256 where
  limbs : Vector UInt64 4
  deriving DecidableEq

namespace U256

def zero : U256 := ⟨Vector.replicate 4 0⟩

/-- The last 32 bytes, padded on the left. -/
def buffer (bytes : List UInt8) : List UInt8 :=
  List.replicate (32 - min bytes.length 32) 0 ++ bytes.drop (bytes.length - min bytes.length 32)

def limb (bytes : List UInt8) : UInt64 :=
  bytes.foldl (fun value byte => (value <<< 8) ||| byte.toUInt64) 0

def fromBigEndian (bytes : List UInt8) : U256 :=
  ⟨Vector.ofFn fun index : Fin 4 => limb (((buffer bytes).drop ((3 - index.val) * 8)).take 8)⟩

def toBigEndian (value : U256) : Vector UInt8 32 :=
  Vector.ofFn fun index : Fin 32 =>
    ((value.limbs.toList.getD (3 - index.val / 8) 0) >>>
      UInt64.ofNat (56 - index.val % 8 * 8)).toUInt8

def isZero (value : U256) : Bool := decide (value = zero)

end U256

namespace Evm

inductive VmError where
  | stackUnderflow
  | stackOverflow
  | outOfGas
  | invalidOpcode (op : UInt8)
  | invalidJump (target : Nat)
  | reverted
  | memoryLimit
  | staticViolation
  | callDepth
  deriving DecidableEq

/-- The `Display` texts. -/
def VmError.text : VmError → String
  | .stackUnderflow => "stack underflow"
  | .stackOverflow => "stack overflow"
  | .outOfGas => "out of gas"
  | .invalidOpcode op => "invalid opcode 0x" ++ Bytes.hexEncode [op]
  | .invalidJump target => "invalid jump destination " ++ Nat.repr target
  | .reverted => "reverted"
  | .memoryLimit => "memory limit exceeded"
  | .staticViolation => "state-modifying opcode in a static call"
  | .callDepth => "call depth limit exceeded"

structure Log where
  address : U256
  topics : List U256
  data : List UInt8
  deriving DecidableEq

structure CallContext where
  caller : U256
  address : U256
  value : U256
  calldata : List UInt8
  gasLimit : UInt64
  deriving DecidableEq

structure ExecOutcome where
  success : Bool
  returnData : List UInt8
  gasUsed : UInt64
  logs : List Log
  deriving DecidableEq

/-- The `Host` trait; a method that takes `&mut self` returns the host it leaves. -/
class Host (H : Type) where
  sload : H → U256 → U256 → U256
  sstore : H → U256 → U256 → U256 → H
  balance : H → U256 → U256
  blockNumber : H → UInt64
  blockTimestamp : H → UInt64
  chainId : H → UInt64
  code : H → U256 → List UInt8
  setCode : H → U256 → List UInt8 → H
  accountNonce : H → U256 → UInt64
  bumpNonce : H → U256 → H
  transfer : H → U256 → U256 → U256 → Bool × H
  snapshot : H → Nat × H
  revert : H → Nat → H
  commitSnapshot : H → Nat → H

end Evm

open Evm (VmError CallContext ExecOutcome Host)

/-- `execute_frame`: the code, its context, the host, the call depth and whether
the frame is static. -/
class Evm where
  executeFrame : {H : Type} → [Host H] → List UInt8 → CallContext → H → UInt32 → Bool →
    Except VmError ExecOutcome × H

end Veilux
