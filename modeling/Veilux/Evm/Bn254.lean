/-
The curve operations of `evm/src/bn254.rs`: arithmetic modulo the field prime on words, the
affine formulas for the points of `y^2 = x^3 + 3`, and the two contracts over them.

The loops of `powmod` and `mul` end when the exponent is zero; 256 rounds are enough for any
word.
-/

import Veilux.Evm.Precompile

namespace Veilux

namespace Bn254

def modulus : U256 :=
  U256.fromBigEndian
    [0x30, 0x64, 0x4e, 0x72, 0xe1, 0x31, 0xa0, 0x29, 0xb8, 0x50, 0x45, 0xb6, 0x81, 0x81, 0x58,
      0x5d, 0x97, 0x81, 0x6a, 0x91, 0x68, 0x71, 0xca, 0x8d, 0x3c, 0x20, 0x8c, 0x16, 0xd8, 0x7c,
      0xfd, 0x47]

/-! ### Arithmetic modulo a word -/

def addmod (a b p : U256) : U256 :=
  let sum := a.overflowingAdd b
  if sum.2 = true ∨ sum.1.cmpU p ≠ .lt then sum.1.wrappingSub p else sum.1

def submod (a b p : U256) : U256 :=
  if a.cmpU b = .lt then (a.wrappingAdd p).wrappingSub b else a.wrappingSub b

def prodBit (prod : List UInt64) (index : Nat) : Bool :=
  decide ((prod.getD (index / 64) 0 >>> UInt64.ofNat (index % 64)) &&& 1 = 1)

/-- One round of the reduction: the next bit is shifted in. -/
def reduceBit (prod : List UInt64) (p rem : U256) (index : Nat) : U256 :=
  let rem := rem.shl 1
  let rem := if prodBit prod index then rem.setBit 0 else rem
  if rem.cmpU p ≠ .lt then rem.wrappingSub p else rem

def reduce512 (prod : List UInt64) (p : U256) : U256 :=
  (List.range 512).reverse.foldl (reduceBit prod p) .zero

/-- The product of `full_mul` has the same loop as the words' own. -/
def mulmod (a b p : U256) : U256 := reduce512 (a.fullMul b) p

def powLoop (p : U256) : Nat → U256 → U256 → U256 → U256
  | 0, result, _, _ => result
  | bits + 1, result, base, exp =>
      if exp.isZero then result
      else
        powLoop p bits (if exp.bit 0 then mulmod result base p else result) (mulmod base base p)
          (exp.shr 1)

def powmod (a e p : U256) : U256 := powLoop p 256 .one (a.divMod p).2 e

def invmod (a p : U256) : U256 := powmod a (p.wrappingSub (.fromU64 2)) p

/-! ### Points -/

structure G1 where
  x : U256
  y : U256
  infinity : Bool
  deriving DecidableEq

namespace G1

def atInfinity : G1 :=
  { x := .zero
    y := .zero
    infinity := true }

def new (x y : U256) : G1 :=
  if x.isZero && y.isZero then atInfinity
  else
    { x := x
      y := y
      infinity := false }

def isOnCurve (point : G1) : Bool :=
  if point.infinity then true
  else
    let p := modulus
    let y2 := mulmod point.y point.y p
    let x3 := mulmod (mulmod point.x point.x p) point.x p
    let rhs := addmod x3 (.fromU64 3) p
    decide (y2 = rhs)

def double (point : G1) : G1 :=
  if point.infinity || point.y.isZero then atInfinity
  else
    let p := modulus
    let three := U256.fromU64 3
    let two := U256.fromU64 2
    let num := mulmod three (mulmod point.x point.x p) p
    let den := invmod (mulmod two point.y p) p
    let lambda := mulmod num den p
    let x3 := submod (mulmod lambda lambda p) (mulmod two point.x p) p
    let y3 := submod (mulmod lambda (submod point.x x3 p) p) point.y p
    new x3 y3

def add (point other : G1) : G1 :=
  if point.infinity then other
  else if other.infinity then point
  else
    let p := modulus
    if point.x = other.x then
      if point.y = other.y then point.double else atInfinity
    else
      let num := submod other.y point.y p
      let den := invmod (submod other.x point.x p) p
      let lambda := mulmod num den p
      let x3 := submod (submod (mulmod lambda lambda p) point.x p) other.x p
      let y3 := submod (mulmod lambda (submod point.x x3 p) p) point.y p
      new x3 y3

def mulLoop : Nat → G1 → G1 → U256 → G1
  | 0, result, _, _ => result
  | bits + 1, result, base, k =>
      if k.isZero then result
      else mulLoop bits (if k.bit 0 then result.add base else result) base.double (k.shr 1)

def mul (point : G1) (scalar : U256) : G1 := mulLoop 256 atInfinity point scalar

def toBytes (point : G1) : List UInt8 :=
  if point.infinity then List.replicate 64 0
  else point.x.toBigEndian.toList ++ point.y.toBigEndian.toList

/-- The 64 bytes from an offset on; what the input lacks is zero. -/
def readPoint (input : List UInt8) (offset : Nat) : Option G1 :=
  let buf := Precompile.padded 64 (input.drop offset)
  let x := U256.fromBigEndian (buf.take 32)
  let y := U256.fromBigEndian (buf.drop 32)
  let point := new x y
  if point.isOnCurve then some point else none

def ecAdd (input : List UInt8) : Option (List UInt8) :=
  match readPoint input 0 with
  | none => none
  | some a =>
      match readPoint input 64 with
      | none => none
      | some b => some (a.add b).toBytes

def ecMul (input : List UInt8) : Option (List UInt8) :=
  match readPoint input 0 with
  | none => none
  | some a =>
      let scalar := U256.fromBigEndian (Precompile.padded 32 (input.drop 64))
      some (a.mul scalar).toBytes

end G1

/-- The contracts 6 and 7 run this code. -/
@[reducible] def code : Bn254 where
  ecAdd := G1.ecAdd
  ecMul := G1.ecMul

end Bn254

end Veilux
