/-
Hashes and Merkle trees of `kernel/src/crypto.rs`.  The digest function itself
is a parameter: `Blake3.digest` stands for `blake3::hash`, and the byte strings
fed to it are built exactly as the hasher updates build them.
-/

import Veilux.Lib.Bytes

namespace Veilux

open Bytes (leBytes utf8)

/-- `blake3::hash`, a function of the whole input. -/
class Blake3 where
  digest : List UInt8 → Vector UInt8 32

/-- A polynomial digest, to evaluate the model on concrete inputs. -/
@[reducible] def Blake3.polynomial : Blake3 where
  digest bytes :=
    Vector.ofFn fun index : Fin 32 => UInt8.ofNat
      (bytes.foldl (fun sum byte => (sum * 65599 + byte.toNat + 1) % 2 ^ 256) 0 /
        2 ^ (8 * index.val))

structure Hash where
  bytes : Vector UInt8 32
  deriving DecidableEq

instance : Inhabited Hash := ⟨⟨Vector.replicate 32 0⟩⟩

namespace Hash

def zero : Hash := ⟨Vector.replicate 32 0⟩

def asBytes (hash : Hash) : List UInt8 := hash.bytes.toList

@[simp] theorem asBytes_length (hash : Hash) : hash.asBytes.length = 32 := by
  simp [asBytes]

theorem asBytes_injective {left right : Hash} (same : left.asBytes = right.asBytes) :
    left = right := by
  cases left
  cases right
  congr 1
  exact Vector.toList_inj.mp same

def toHex (hash : Hash) : String := "0x" ++ Bytes.hexEncode hash.asBytes

theorem toHex_toList (hash : Hash) :
    hash.toHex.toList = '0' :: 'x' :: Bytes.hexChars hash.asBytes := by
  simp only [toHex, Bytes.hexEncode, String.toList_append, String.toList_ofList]
  rfl

theorem toHex_length (hash : Hash) : hash.toHex.toList.length = 66 := by
  rw [toHex_toList]
  simp only [List.length_cons, Bytes.hexChars_length, asBytes_length]

theorem toHex_injective {left right : Hash} (same : left.toHex = right.toHex) :
    left = right := by
  have texts := congrArg String.toList same
  rw [toHex_toList, toHex_toList] at texts
  apply asBytes_injective
  exact Bytes.hexChars_injective (List.cons.inj (List.cons.inj texts).2).2

section Digest

variable [Blake3]

def digest (bytes : List UInt8) : Hash := ⟨Blake3.digest bytes⟩

def combine (left right : Hash) : Hash := digest (left.asBytes ++ right.asBytes)

/-- The hasher input of `Hash::commit`: the domain, a separator, and every part
behind its length. -/
def commitBytes (domain : String) (parts : List (List UInt8)) : List UInt8 :=
  utf8 domain ++ 0xff :: parts.flatMap (fun part => leBytes 8 part.length ++ part)

def commit (domain : String) (parts : List (List UInt8)) : Hash :=
  digest (commitBytes domain parts)

end Digest

/-- Equal inputs of `commit` under one domain come from the same parts, as long as
the parts have 64-bit lengths. -/
theorem commitBytes_injective {domain : String} {left right : List (List UInt8)}
    (leftSizes : ∀ part ∈ left, part.length < 2 ^ 64)
    (rightSizes : ∀ part ∈ right, part.length < 2 ^ 64)
    (same : commitBytes domain left = commitBytes domain right) : left = right := by
  unfold commitBytes at same
  simp only [List.append_cancel_left_eq, List.cons.injEq, true_and] at same
  induction left generalizing right with
  | nil =>
      cases right with
      | nil => rfl
      | cons other others => simp [List.flatMap_cons, leBytes] at same
  | cons part rest ih =>
      cases right with
      | nil => simp [List.flatMap_cons, leBytes] at same
      | cons other others =>
          simp only [List.flatMap_cons, List.append_assoc] at same
          obtain ⟨lengths, same⟩ := List.append_inj same (by simp)
          have sizes : part.length = other.length :=
            Bytes.leBytes_injective (by simpa using leftSizes part List.mem_cons_self)
              (by simpa using rightSizes other List.mem_cons_self) lengths
          obtain ⟨parts, tails⟩ := List.append_inj same sizes
          rw [parts, ih (fun part member => leftSizes part (List.mem_cons_of_mem _ member))
            (fun part member => rightSizes part (List.mem_cons_of_mem _ member)) tails]

end Hash

/-! ### Merkle trees -/

section Merkle

variable [Blake3]

/-- One level up: neighbours are combined, an odd last node with itself. -/
def merkleLevel : List Hash → List Hash
  | [] => []
  | [last] => [Hash.combine last last]
  | left :: right :: rest => Hash.combine left right :: merkleLevel rest

theorem merkleLevel_length : (level : List Hash) →
    (merkleLevel level).length = (level.length + 1) / 2
  | [] => by simp [merkleLevel]
  | [_] => by simp [merkleLevel]
  | _ :: _ :: rest => by
      simp only [merkleLevel, List.length_cons, merkleLevel_length rest]
      omega

/-- The `while level.len() > 1` loop.  Every round at least halves the level, so
its length is more rounds than the loop takes. -/
def merkleLoop : Nat → List Hash → Hash
  | 0, level => level.headD Hash.zero
  | fuel + 1, level =>
      if level.length ≤ 1 then level.headD Hash.zero
      else merkleLoop fuel (merkleLevel level)

def merkleRoot (leaves : List Hash) : Hash :=
  if leaves.isEmpty then Hash.zero else merkleLoop leaves.length leaves

/-- Rounds beyond the length of the level change nothing. -/
theorem merkleLoop_fuel (fuel : Nat) (level : List Hash) (enough : level.length ≤ fuel) :
    merkleLoop (fuel + 1) level = merkleLoop fuel level := by
  induction fuel generalizing level with
  | zero =>
      have short : level.length ≤ 1 := by omega
      simp only [merkleLoop, if_pos short]
  | succ fuel ih =>
      rw [merkleLoop]
      by_cases short : level.length ≤ 1
      · simp only [merkleLoop, if_pos short]
      · rw [if_neg short, ih, merkleLoop, if_neg short]
        rw [merkleLevel_length]
        omega

end Merkle

end Veilux
