/-
Rotation of the proposer.  Along the heights of round zero the index of the proposer walks
around the sorted active validators in steps of 31, along the rounds of one height in steps
of one.
-/

import Veilux.Lib.Rotation
import Veilux.Consensus.Validator

namespace Veilux

namespace ValidatorSet

open Rotation (place Fair fair_iff_coprime fair_of_coprime)

variable {vset : ValidatorSet} {height : Nat} {round : UInt32} {party : PartyId}

/-- The position in the list of a validator. -/
def Seat (vset : ValidatorSet) (party : PartyId) (seat : Nat) : Prop :=
  (vset.active[seat]?).map Validator.party = some party

theorem active_perm (vset : ValidatorSet) : vset.active.Perm vset.activeValues :=
  List.perm_insertionSort _ _

theorem active_nodup (vset : ValidatorSet) : (vset.active.map Validator.party).Nodup :=
  ((vset.active_perm.map Validator.party).nodup_iff).mpr vset.activeValues_nodup

theorem mem_active_parties : party ∈ vset.active.map Validator.party ↔
    vset.isValidator party = true := by
  rw [← mem_electorate, electorate, List.mem_toFinset]
  exact (vset.active_perm.map Validator.party).mem_iff

theorem Seat.lt {seat : Nat} (sits : vset.Seat party seat) : seat < vset.active.length := by
  by_contra outside
  rw [Seat, List.getElem?_eq_none (Nat.le_of_not_lt outside)] at sits
  cases sits

/-- Every active validator has one seat. -/
theorem exists_seat (active : vset.isValidator party = true) :
    ∃ seat, seat < vset.active.length ∧ ∀ other, vset.Seat party other ↔ other = seat := by
  obtain ⟨seat, inside, found⟩ := List.mem_iff_getElem.mp (mem_active_parties.mpr active)
  have sits : vset.Seat party seat := by
    rw [Seat, ← List.getElem?_map, List.getElem?_eq_getElem inside, found]
  refine ⟨seat, sits.lt, fun other => ⟨fun there => ?_, fun same => same ▸ sits⟩⟩
  have both : (vset.active.map Validator.party)[other]? =
      (vset.active.map Validator.party)[seat]? := by
    rw [List.getElem?_map, List.getElem?_map]
    exact there.trans sits.symm
  have within : other < (vset.active.map Validator.party).length := by
    rw [List.length_map]
    exact there.lt
  exact (List.getElem?_inj within vset.active_nodup).mp both

/-- Every seat is taken by an active validator. -/
theorem exists_sitting {seat : Nat} (inside : seat < vset.active.length) :
    ∃ party, vset.isValidator party = true ∧ vset.Seat party seat := by
  refine ⟨(vset.active[seat]).party, mem_active_parties.mp ?_, ?_⟩
  · exact List.mem_map_of_mem (List.getElem_mem inside)
  · rw [Seat, List.getElem?_eq_getElem inside]
    rfl

/-- While nothing wraps the proposer has the seat that the seed has modulo their number. -/
theorem proposerFor_eq_iff (occupied : vset.active ≠ []) (size : vset.active.length < 2 ^ 64)
    (fits : 31 * height + round.toNat < 2 ^ 64) :
    vset.proposerFor height round = some party ↔
      vset.Seat party ((31 * height + round.toNat) % vset.active.length) := by
  have nonempty : ¬ vset.active.isEmpty = true := fun empty =>
    occupied (List.isEmpty_iff.mp empty)
  have seed : ((UInt64.ofNat height * 31 + round.toUInt64) %
      UInt64.ofNat vset.active.length).toNat =
        (31 * height + round.toNat) % vset.active.length := by
    rw [UInt64.toNat_mod, UInt64.toNat_add, UInt64.toNat_mul, UInt64.toNat_ofNat',
      UInt64.toNat_ofNat', UInt32.toNat_toUInt64]
    change (height % 2 ^ 64 * 31 % 2 ^ 64 + round.toNat) % 2 ^ 64 %
      (vset.active.length % 2 ^ 64) = _
    have value : (height % 2 ^ 64 * 31 % 2 ^ 64 + round.toNat) % 2 ^ 64 =
        31 * height + round.toNat := by
      omega
    rw [value, Nat.mod_eq_of_lt size]
  unfold proposerFor Seat
  dsimp only
  rw [if_neg nonempty, seed]

/-- Whom a fair walk of the seed selects. -/
theorem fair_iff {step start : Nat} {selects : Nat → PartyId → Prop}
    (selected : ∀ steps, steps < vset.active.length → ∀ party, selects steps party ↔
      vset.Seat party (place vset.active.length step start steps)) :
    (∀ party, vset.isValidator party = true →
      ∃! steps, steps < vset.active.length ∧ selects steps party) ↔
      Fair vset.active.length step start := by
  constructor
  · intro each seat inside
    obtain ⟨party, active, sits⟩ := exists_sitting inside
    obtain ⟨own, _, unique⟩ := exists_seat active
    have same : seat = own := (unique seat).mp sits
    obtain ⟨steps, ⟨within, chosen⟩, only⟩ := each party active
    refine ⟨steps, ⟨within, ?_⟩, fun other there => only other ⟨there.1, ?_⟩⟩
    · rw [same]
      exact (unique _).mp ((selected steps within party).mp chosen)
    · refine (selected other there.1 party).mpr ?_
      rwa [there.2]
  · intro fair party active
    obtain ⟨seat, inside, unique⟩ := exists_seat active
    obtain ⟨steps, ⟨within, reached⟩, only⟩ := fair seat inside
    refine ⟨steps, ⟨within, ?_⟩, fun other there => only other ⟨there.1, ?_⟩⟩
    · exact (selected steps within party).mpr ((unique _).mpr reached)
    · exact (unique _).mp ((selected other there.1 party).mp there.2)

/-- Over as many heights as there are active validators each of them proposes once, exactly
when their number is no multiple of the width of the step. -/
theorem proposers_of_heights_iff (vset : ValidatorSet) (height : Nat)
    (occupied : 1 ≤ vset.active.length)
    (fits : 31 * (height + vset.active.length) < 2 ^ 64) :
    (∀ party, vset.isValidator party = true → ∃! steps, steps < vset.active.length ∧
      vset.proposerFor (height + steps) 0 = some party) ↔ ¬ 31 ∣ vset.active.length := by
  have selected (steps : Nat) (within : steps < vset.active.length) (party : PartyId) :
      vset.proposerFor (height + steps) 0 = some party ↔
        vset.Seat party (place vset.active.length 31 (31 * height) steps) := by
    have zero : (0 : UInt32).toNat = 0 := rfl
    have bound : 31 * (height + steps) + (0 : UInt32).toNat < 2 ^ 64 := by
      rw [zero]
      omega
    rw [proposerFor_eq_iff (List.ne_nil_of_length_pos occupied) (by omega) bound, zero,
      Nat.add_zero, Nat.mul_add, place]
  have prime : Nat.Prime 31 := by norm_num
  rw [fair_iff selected, fair_iff_coprime occupied, prime.coprime_iff_not_dvd]

/-- A set of validators with names of different lengths. -/
def crowd (size : Nat) : ValidatorSet :=
  (List.range size).foldl (fun vset index =>
    vset.add (.new ⟨String.ofList (List.replicate index 'v')⟩ [] 1)) new

theorem proposers_of_heights_four :
    (crowd 4).active.length = 4 ∧
      ∀ party, (crowd 4).isValidator party = true → ∃! steps, steps < (crowd 4).active.length ∧
        (crowd 4).proposerFor (7 + steps) 0 = some party :=
  ⟨by decide +kernel,
    (proposers_of_heights_iff (crowd 4) 7 (by decide +kernel) (by decide +kernel)).mpr
      (by decide +kernel)⟩

/-- With 31 validators the first of them proposes at every height. -/
theorem one_proposer_of_thirtyOne :
    (crowd 31).active.length = 31 ∧ (crowd 31).isValidator ⟨"v"⟩ = true ∧
      ∀ steps < 31, (crowd 31).proposerFor (0 + steps) 0 ≠ some ⟨"v"⟩ := by
  decide +kernel

/-- Over as many rounds as there are active validators each of them proposes once. -/
theorem proposers_of_rounds (vset : ValidatorSet) (height round : Nat)
    (fits : 31 * height + round + vset.active.length < 2 ^ 64)
    (rounds : round + vset.active.length ≤ 2 ^ 32) :
    ∀ party, vset.isValidator party = true → ∃! steps, steps < vset.active.length ∧
      vset.proposerFor height (UInt32.ofNat (round + steps)) = some party := by
  have selected (steps : Nat) (within : steps < vset.active.length) (party : PartyId) :
      vset.proposerFor height (UInt32.ofNat (round + steps)) = some party ↔
        vset.Seat party (place vset.active.length 1 (31 * height + round) steps) := by
    have value : (UInt32.ofNat (round + steps)).toNat = round + steps :=
      UInt32.toNat_ofNat_of_lt (by
        change round + steps < 2 ^ 32
        omega)
    have occupied : vset.active ≠ [] := List.ne_nil_of_length_pos (by omega)
    rw [proposerFor_eq_iff occupied (by omega) (by omega), value, place, Nat.one_mul,
      Nat.add_assoc]
  exact (fair_iff selected).mpr (fair_of_coprime (Nat.coprime_one_left _))

theorem proposers_of_rounds_four :
    (crowd 4).active.length = 4 ∧
      ∀ party, (crowd 4).isValidator party = true → ∃! steps, steps < (crowd 4).active.length ∧
        (crowd 4).proposerFor 7 (UInt32.ofNat (2 + steps)) = some party :=
  ⟨by decide +kernel, proposers_of_rounds (crowd 4) 7 2 (by decide +kernel) (by decide +kernel)⟩

end ValidatorSet

end Veilux
