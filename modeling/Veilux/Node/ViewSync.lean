/-
The view coordinator of `node/src/viewsync.rs`: who asked for which view of the
current height, and the highest view asked for by a quorum.
-/

import Veilux.Consensus.Certificate

namespace Veilux

/-- `HashMap<u32, HashSet<PartyId>>`; a voter is listed once per view. -/
structure ViewCoordinator where
  height : Nat
  votes : AList (fun _ : UInt32 => List PartyId)

namespace ViewCoordinator

def new (height : Nat) : ViewCoordinator :=
  { height := height
    votes := ∅ }

def reset (_ : ViewCoordinator) (height : Nat) : ViewCoordinator := new height

def hasQuorum (vset : ValidatorSet) (voters : List PartyId) : Bool :=
  decide (vset.quorumThreshold ≤ ((voters.filterMap vset.get).map Validator.stake).sum)

def quorumView (coordinator : ViewCoordinator) (vset : ValidatorSet) : Option UInt32 :=
  ((coordinator.votes.entries.filter fun entry => hasQuorum vset entry.2).map Sigma.fst).max?

def record (coordinator : ViewCoordinator) (height : Nat) (view : UInt32) (voter : PartyId)
    (vset : ValidatorSet) : Option UInt32 × ViewCoordinator :=
  if height ≠ coordinator.height then (none, coordinator)
  else if ¬ vset.isValidator voter then (none, coordinator)
  else
    let voters := ((coordinator.votes.lookup view).getD []).insert voter
    let coordinator := { coordinator with votes := coordinator.votes.insert view voters }
    (coordinator.quorumView vset, coordinator)

/-! ### What the coordinator counts -/

/-- Every voter listed for a view is listed once, active and backed. -/
def Sound (vset : ValidatorSet) (backed : UInt32 → PartyId → Prop)
    (coordinator : ViewCoordinator) : Prop :=
  ∀ view voters, coordinator.votes.lookup view = some voters →
    voters.Nodup ∧ ∀ voter ∈ voters, vset.isValidator voter = true ∧ backed view voter

section Soundness

variable {vset : ValidatorSet} {backed : UInt32 → PartyId → Prop}
  {coordinator : ViewCoordinator}

theorem sound_new (height : Nat) : Sound vset backed (new height) := by
  intro view voters found
  cases found

theorem Sound.mono {weaker : UInt32 → PartyId → Prop} (sound : Sound vset backed coordinator)
    (implies : ∀ view voter, backed view voter → weaker view voter) :
    Sound vset weaker coordinator := by
  intro view voters found
  obtain ⟨distinct, each⟩ := sound view voters found
  exact ⟨distinct, fun voter member =>
    ⟨(each voter member).1, implies view voter (each voter member).2⟩⟩

/-- One vote keeps the coordinator sound when it is backed at the coordinator's
own height. -/
theorem Sound.record {height : Nat} {view : UInt32} {voter : PartyId}
    (sound : Sound vset backed coordinator)
    (isBacked : height = coordinator.height → vset.isValidator voter = true →
      backed view voter) :
    Sound vset backed (coordinator.record height view voter vset).2 := by
  unfold ViewCoordinator.record
  split
  · exact sound
  · rename_i sameHeight
    split
    · exact sound
    · rename_i isActive
      have here := isBacked (Decidable.not_not.mp sameHeight) (Decidable.not_not.mp isActive)
      intro other voters found
      change (coordinator.votes.insert view _).lookup other = _ at found
      by_cases same : other = view
      · subst same
        rw [AList.lookup_insert] at found
        cases found
        cases earlier : coordinator.votes.lookup other with
        | none =>
            refine ⟨List.Nodup.insert List.nodup_nil, fun member inside => ?_⟩
            rcases List.mem_insert_iff.mp inside with new | old
            · rw [new]
              exact ⟨Decidable.not_not.mp isActive, here⟩
            · cases old
        | some filed =>
            obtain ⟨distinct, each⟩ := sound other filed earlier
            refine ⟨List.Nodup.insert distinct, fun member inside => ?_⟩
            rcases List.mem_insert_iff.mp inside with new | old
            · rw [new]
              exact ⟨Decidable.not_not.mp isActive, here⟩
            · exact each member old
      · rw [AList.lookup_insert_ne same] at found
        exact sound other voters found

instance : Std.MaxEqOr UInt32 where
  max_eq_or left right := by
    change (if left ≤ right then right else left) = left ∨ _ = right
    split
    · exact .inr (if_pos (by assumption))
    · exact .inl rfl

/-- A reported view has a certificate at the coordinator's height. -/
theorem Sound.certificate {height : Nat} {view : UInt32} {voter : PartyId} {chosen : UInt32}
    (sound : Sound vset backed (coordinator.record height view voter vset).2)
    (reported : (coordinator.record height view voter vset).1 = some chosen) :
    height = coordinator.height ∧ Nonempty (Certificate vset (backed chosen)) := by
  unfold ViewCoordinator.record at sound reported
  split at reported
  · cases reported
  · rename_i sameHeight
    split at reported
    · cases reported
    · rename_i isActive
      rw [if_neg sameHeight, if_neg isActive] at sound
      refine ⟨Decidable.not_not.mp sameHeight, ?_⟩
      dsimp only at sound reported
      generalize ({ coordinator with
        votes := coordinator.votes.insert view
          (((coordinator.votes.lookup view).getD []).insert voter) } : ViewCoordinator) =
        recorded at sound reported
      obtain ⟨entry, member, rfl⟩ := List.mem_map.mp (List.max?_mem reported)
      obtain ⟨inside, reached⟩ := List.mem_filter.mp member
      have found : recorded.votes.lookup entry.1 = some entry.2 :=
        AList.mem_lookup_iff.mpr inside
      obtain ⟨distinct, each⟩ := sound entry.1 entry.2 found
      refine ⟨⟨entry.2.toFinset, ?_, ?_, ?_⟩⟩
      · intro voter present
        exact ValidatorSet.mem_electorate.mpr (each voter (List.mem_toFinset.mp present)).1
      · exact Nat.le_trans (UInt64.le_iff_toNat_le.mp (of_decide_eq_true reached))
          (VoteSet.power_le distinct)
      · intro voter present
        exact (each voter (List.mem_toFinset.mp present)).2

end Soundness

end ViewCoordinator

end Veilux
