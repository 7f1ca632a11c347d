/-
The validator set of `consensus/src/validator.rs`: stake, quorum threshold and
proposer rotation in 64-bit arithmetic, and the electorate behind them.
-/

import Veilux.Lib.Quorum
import Veilux.Kernel.Types

namespace Veilux

structure Validator where
  party : PartyId
  publicKey : List UInt8
  stake : UInt64
  active : Bool
  missed : UInt64
  deriving DecidableEq

def Validator.new (party : PartyId) (publicKey : List UInt8) (stake : UInt64) : Validator :=
  { party := party
    publicKey := publicKey
    stake := stake
    active := true
    missed := 0 }

/-- `add` files every validator under its own party, so keys and parties agree. -/
structure ValidatorSet where
  validators : Std.ExtTreeMap PartyId Validator
  keyed : ∀ (party : PartyId) (validator : Validator),
    validators[party]? = some validator → validator.party = party

namespace ValidatorSet

def new : ValidatorSet :=
  { validators := ∅
    keyed := by
      intro party validator found
      simp at found }

def add (vset : ValidatorSet) (validator : Validator) : ValidatorSet :=
  { validators := vset.validators.insert validator.party validator
    keyed := by
      intro party found present
      rw [Std.ExtTreeMap.getElem?_insert] at present
      split at present
      · rename_i same
        cases present
        exact Std.LawfulEqCmp.eq_of_compare same
      · exact vset.keyed party found present }

def get (vset : ValidatorSet) (party : PartyId) : Option Validator := vset.validators[party]?

def isValidator (vset : ValidatorSet) (party : PartyId) : Bool :=
  match vset.get party with
  | some validator => validator.active
  | none => false

def activeValues (vset : ValidatorSet) : List Validator :=
  (vset.validators.toList.map Prod.snd).filter Validator.active

def active (vset : ValidatorSet) : List Validator :=
  vset.activeValues.insertionSort (fun left right => (compare left.party right.party).isLE = true)

def totalStake (vset : ValidatorSet) : UInt64 := (vset.activeValues.map Validator.stake).sum

def quorumThreshold (vset : ValidatorSet) : UInt64 := vset.totalStake * 2 / 3 + 1

def proposerFor (vset : ValidatorSet) (height : Nat) (round : UInt32) : Option PartyId :=
  let active := vset.active
  if active.isEmpty then none
  else
    let seed := UInt64.ofNat height * 31 + round.toUInt64
    (active[(seed % UInt64.ofNat active.length).toNat]?).map Validator.party

/-! ### The electorate -/

def weight (vset : ValidatorSet) (party : PartyId) : Nat :=
  match vset.get party with
  | some validator => validator.stake.toNat
  | none => 0

/-- The active validators as a set of parties. -/
def electorate (vset : ValidatorSet) : Finset PartyId :=
  (vset.activeValues.map Validator.party).toFinset

theorem mem_activeValues {vset : ValidatorSet} {validator : Validator} :
    validator ∈ vset.activeValues ↔
      vset.get validator.party = some validator ∧ validator.active = true := by
  unfold activeValues get
  rw [List.mem_filter, List.mem_map]
  constructor
  · rintro ⟨⟨⟨party, found⟩, member, rfl⟩, isActive⟩
    have stored := Std.ExtTreeMap.mem_toList_iff_getElem?_eq_some.mp member
    have same : found.party = party := vset.keyed party found stored
    refine ⟨?_, isActive⟩
    change vset.validators[found.party]? = some found
    rw [same]
    exact stored
  · rintro ⟨stored, isActive⟩
    exact ⟨⟨(validator.party, validator),
      Std.ExtTreeMap.mem_toList_iff_getElem?_eq_some.mpr stored, rfl⟩, isActive⟩

theorem mem_electorate {vset : ValidatorSet} {party : PartyId} :
    party ∈ vset.electorate ↔ vset.isValidator party = true := by
  unfold electorate isValidator
  rw [List.mem_toFinset, List.mem_map]
  constructor
  · rintro ⟨validator, member, rfl⟩
    obtain ⟨stored, isActive⟩ := mem_activeValues.mp member
    simp only [stored, isActive]
  · intro accepted
    cases stored : vset.get party with
    | none =>
        rw [stored] at accepted
        cases accepted
    | some validator =>
        rw [stored] at accepted
        have same : validator.party = party := vset.keyed party validator stored
        refine ⟨validator, mem_activeValues.mpr ⟨?_, accepted⟩, same⟩
        rw [same]
        exact stored

/-- A 64-bit sum is the exact sum reduced once at the end. -/
theorem sum_toNat (stakes : List UInt64) :
    stakes.sum.toNat = (stakes.map UInt64.toNat).sum % 2 ^ 64 := by
  induction stakes with
  | nil => rfl
  | cons stake rest ih =>
      simp only [List.sum_cons, List.map_cons, UInt64.toNat_add, ih, Nat.add_mod_mod]

theorem activeValues_nodup (vset : ValidatorSet) :
    (vset.activeValues.map Validator.party).Nodup := by
  have distinct := Std.ExtTreeMap.distinct_keys_toList (t := vset.validators)
  have keysOf : ∀ entry ∈ vset.validators.toList, entry.2.party = entry.1 := by
    rintro ⟨party, validator⟩ member
    exact vset.keyed party validator
      (Std.ExtTreeMap.mem_toList_iff_getElem?_eq_some.mp member)
  unfold activeValues
  apply List.Nodup.sublist (List.Sublist.map _ List.filter_sublist)
  rw [List.map_map]
  apply List.pairwise_map.mpr
  apply distinct.imp_of_mem
  intro left right leftMember rightMember different same
  apply different
  rw [Function.comp_apply, Function.comp_apply, keysOf left leftMember,
    keysOf right rightMember] at same
  rw [same]
  exact Std.ReflCmp.compare_self

theorem totalStake_toNat (vset : ValidatorSet) :
    vset.totalStake.toNat = Quorum.power vset.weight vset.electorate % 2 ^ 64 := by
  unfold totalStake
  rw [sum_toNat, List.map_map]
  congr 1
  unfold Quorum.power electorate
  rw [List.sum_toFinset _ vset.activeValues_nodup, List.map_map]
  apply congrArg List.sum
  apply List.map_congr_left
  intro validator member
  simp only [Function.comp_apply, weight, (mem_activeValues.mp member).1]

/-- Below half of the 64-bit range nothing wraps and the code's threshold is the
two-thirds threshold of the electorate. -/
theorem quorumThreshold_toNat (vset : ValidatorSet)
    (bound : Quorum.power vset.weight vset.electorate < 2 ^ 63) :
    vset.quorumThreshold.toNat =
      Quorum.threshold (Quorum.power vset.weight vset.electorate) := by
  have total := vset.totalStake_toNat
  rw [Nat.mod_eq_of_lt (by omega)] at total
  unfold quorumThreshold Quorum.threshold
  simp only [UInt64.toNat_add, UInt64.toNat_div, UInt64.toNat_mul, total, UInt64.reduceToNat]
  generalize Quorum.power vset.weight vset.electorate = stake at bound
  rw [Nat.mod_eq_of_lt (show stake * 2 < 2 ^ 64 by omega)]
  exact Nat.mod_eq_of_lt (by omega)

/-- The division leaves room for the final increment, whatever the stakes. -/
theorem quorumThreshold_ne_zero (vset : ValidatorSet) : vset.quorumThreshold ≠ 0 := by
  intro zero
  have value := congrArg UInt64.toNat zero
  unfold quorumThreshold at value
  simp only [UInt64.toNat_add, UInt64.toNat_div, UInt64.reduceToNat] at value
  have bound := (vset.totalStake * 2).toNat_lt
  generalize (vset.totalStake * 2).toNat = doubled at value bound
  omega

end ValidatorSet

end Veilux
