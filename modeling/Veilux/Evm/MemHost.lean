/-
`MemHost` of `evm/src/vm.rs`: a host in memory, with whole copies as snapshots.
-/

import Veilux.Evm.Host
import Veilux.Evm.Word
import Veilux.Lib.Journal

namespace Veilux

namespace Evm

/-- `HashMap<K, V>`. -/
abbrev Table (K V : Type) := AList fun _ : K => V

/-- `Snapshot`. -/
structure MemWorld where
  storage : Table (U256 × U256) U256
  balances : Table U256 U256
  codes : Table U256 (List UInt8)
  nonces : Table U256 UInt64

structure MemHost where
  world : MemWorld
  blockNumber : UInt64
  timestamp : UInt64
  chainId : UInt64
  snapshots : List MemWorld

/-- The derived `Default`. -/
instance : Inhabited MemHost := ⟨⟨⟨∅, ∅, ∅, ∅⟩, 0, 0, 0, []⟩⟩

namespace MemHost

def lookup {K V : Type} [DecidableEq K] (table : Table K V) (key : K) (default : V) : V :=
  (AList.lookup key table).getD default

def sload (host : MemHost) (address key : U256) : U256 :=
  lookup host.world.storage (address, key) .zero

def sstore (host : MemHost) (address key value : U256) : MemHost :=
  { host with
    world := { host.world with storage := host.world.storage.insert (address, key) value } }

def balance (host : MemHost) (address : U256) : U256 := lookup host.world.balances address .zero

def code (host : MemHost) (address : U256) : List UInt8 := lookup host.world.codes address []

def setCode (host : MemHost) (address : U256) (code : List UInt8) : MemHost :=
  { host with world := { host.world with codes := host.world.codes.insert address code } }

def accountNonce (host : MemHost) (address : U256) : UInt64 := lookup host.world.nonces address 0

def bumpNonce (host : MemHost) (address : U256) : MemHost :=
  { host with
    world := { host.world with
      nonces := host.world.nonces.insert address (host.accountNonce address + 1) } }

def withBalance (host : MemHost) (address value : U256) : MemHost :=
  { host with world := { host.world with balances := host.world.balances.insert address value } }

def transfer (host : MemHost) (source target value : U256) : Bool × MemHost :=
  if (host.balance source).lt value then (false, host)
  else
    let debited := host.withBalance source ((host.balance source).wrappingSub value)
    (true, debited.withBalance target ((debited.balance target).wrappingAdd value))

def snapshot (host : MemHost) : Nat × MemHost :=
  (host.snapshots.length + 1, { host with snapshots := host.snapshots ++ [host.world] })

/-- The loop of `revert`, over the snapshots from the last to the first. -/
def unwind (host : MemHost) (snapshot : Nat) : List MemWorld → MemHost
  | [] => { host with snapshots := [] }
  | last :: rest =>
      if snapshot ≤ rest.length + 1 then
        if rest.length + 1 = snapshot then
          { host with world := last, snapshots := rest.reverse }
        else unwind host snapshot rest
      else { host with snapshots := (last :: rest).reverse }

def revert (host : MemHost) (snapshot : Nat) : MemHost :=
  unwind host snapshot host.snapshots.reverse

/-- `snapshot - 1` wraps below zero, and nothing is cut off then. -/
def commitSnapshot (host : MemHost) (snapshot : Nat) : MemHost :=
  if snapshot ≤ host.snapshots.length ∧ ¬ host.snapshots.isEmpty then
    { host with
      snapshots := if snapshot = 0 then host.snapshots else host.snapshots.take (snapshot - 1) }
  else host

instance : Host MemHost where
  sload := sload
  sstore := sstore
  balance := balance
  blockNumber := blockNumber
  blockTimestamp := timestamp
  chainId := chainId
  code := code
  setCode := setCode
  accountNonce := accountNonce
  bumpNonce := bumpNonce
  transfer := transfer
  snapshot := snapshot
  revert := revert
  commitSnapshot := commitSnapshot

/-! ### Snapshots -/

theorem unwind_inside (host : MemHost) {id : Nat} (positive : 1 ≤ id) :
    ∀ stack : List MemWorld, id ≤ stack.length →
      unwind host id stack =
        { host with
          world := stack.reverse.getD (id - 1) host.world
          snapshots := stack.reverse.take (id - 1) }
  | [], inside => absurd inside (by simp only [List.length_nil]; omega)
  | last :: rest, inside => by
      rw [List.length_cons] at inside
      unfold unwind
      rw [if_pos inside]
      by_cases found : rest.length + 1 = id
      · rw [if_pos found]
        have place : id - 1 = rest.reverse.length := by
          rw [List.length_reverse]
          omega
        rw [List.reverse_cons, place, List.take_left]
        simp
      · rw [if_neg found, unwind_inside host positive rest (by omega)]
        have before : id - 1 < rest.reverse.length := by
          rw [List.length_reverse]
          omega
        rw [List.reverse_cons, List.take_append_of_le_length (le_of_lt before),
          List.getD_append _ _ _ _ before]

theorem unwind_outside (host : MemHost) {id : Nat} (stack : List MemWorld)
    (outside : stack.length < id) : unwind host id stack = { host with snapshots := stack.reverse } := by
  cases stack with
  | nil => rfl
  | cons last rest =>
      rw [List.length_cons] at outside
      unfold unwind
      rw [if_neg (by omega)]

/-- The worlds of a host, and what a transaction may do to the present one. -/
def journaling : Journaling MemHost MemWorld where
  journal host := ⟨host.world, host.snapshots⟩
  write host world := { host with world := world }
  snapshot := snapshot
  revert := revert
  commit := commitSnapshot

theorem faithful : journaling.Faithful where
  write _ _ := rfl
  snapshot_name _ := rfl
  snapshot _ := rfl
  revert host id positive := by
    change Journal.mk (revert host id).world (revert host id).snapshots = _
    unfold revert Journal.revert
    by_cases inside : id ≤ host.snapshots.length
    · rw [unwind_inside host positive _ (by rwa [List.length_reverse]), List.reverse_reverse,
        if_pos ⟨positive, inside⟩]
      rfl
    · rw [unwind_outside host _ (by rw [List.length_reverse]; omega), List.reverse_reverse,
        if_neg (fun both => inside both.2)]
      rfl
  commit host id positive := by
    change Journal.mk (commitSnapshot host id).world (commitSnapshot host id).snapshots = _
    unfold commitSnapshot Journal.commit
    by_cases inside : id ≤ host.snapshots.length
    · have some : ¬ host.snapshots.isEmpty = true := by
        intro empty
        rw [List.isEmpty_iff.mp empty, List.length_nil] at inside
        omega
      rw [if_pos ⟨inside, some⟩, if_neg (by omega), if_pos ⟨positive, inside⟩]
      rfl
    · rw [if_neg (fun both => inside both.1), if_neg (fun both => inside both.2)]
      rfl

end MemHost

end Evm

end Veilux
