/-
State proofs of `kernel/src/state.rs` and their check in `lightclient/src/lib.rs`: the
root binds the entries of a tree, and a path of any shape that reaches it starts at
one of them.
-/

import Veilux.Kernel.Merkle
import Veilux.Kernel.State

namespace Veilux

open Bytes (utf8)
open Merkle (height padded)

section Paths

variable [Blake3]

theorem verifyMerkleProof_iff {leaf root : Hash} {proof : List MerkleStep} :
    verifyMerkleProof leaf proof root = true ↔ Merkle.climb Hash.combine leaf proof = root := by
  have same : (fun acc (step : MerkleStep) =>
        if step.siblingOnRight then Hash.combine acc step.sibling
        else Hash.combine step.sibling acc) =
      fun node step => Merkle.join Hash.combine (step.pair node) := by
    funext acc step
    unfold Merkle.Step.pair
    split
    · rfl
    · rfl
  unfold verifyMerkleProof Merkle.climb
  rw [same, decide_eq_true_iff]

omit [Blake3] in
theorem eq_headD_of_single {index : Nat} {nodes : List Hash} {node : Hash}
    (found : nodes[index]? = some node) (few : nodes.length ≤ 1) : node = nodes.headD Hash.zero := by
  have inside := (List.getElem?_eq_some_iff.mp found).1
  have first : index = 0 := by omega
  rw [first] at found
  rw [List.headD_eq_head?_getD, List.head?_eq_getElem?, found]
  rfl

/-- The proof for a position climbs from its node to the root. -/
theorem climb_merkleProofLoop {fuel index : Nat} {nodes : List Hash} {node : Hash}
    (enough : nodes.length ≤ fuel + 1) (found : nodes[index]? = some node) :
    Merkle.climb Hash.combine node (merkleProofLoop fuel index nodes) = merkleLoop fuel nodes := by
  induction fuel generalizing index nodes node with
  | zero => exact eq_headD_of_single found (by omega)
  | succ fuel ih =>
      rw [merkleProofLoop, merkleLoop]
      by_cases few : nodes.length ≤ 1
      · rw [if_pos few, if_pos few]
        exact eq_headD_of_single found few
      · rw [if_neg few, if_neg few]
        have here : nodes.getD index Hash.zero = node := by
          rw [List.getD_eq_getElem?_getD, found]
          rfl
        have above := @Merkle.level_getElem? _ Hash.combine _ _ _ found
        rw [← merkleLevel_eq] at above
        have shorter : (merkleLevel nodes).length ≤ fuel + 1 := by
          rw [merkleLevel_length]
          omega
        rw [← ih shorter above, here]
        dsimp only
        rw [List.getD_eq_getElem?_getD]
        rfl

theorem climb_merkleProof {index : Nat} {leaves : List Hash} {leaf : Hash}
    (found : leaves[index]? = some leaf) :
    Merkle.climb Hash.combine leaf (merkleProof leaves index) = merkleRoot leaves := by
  have inside := (List.getElem?_eq_some_iff.mp found).1
  have some : leaves.isEmpty = false := by
    cases leaves with
    | nil => cases found
    | cons head rest => rfl
  rw [merkleProof, if_neg (by omega), merkleRoot, some,
    climb_merkleProofLoop (Nat.le_succ _) found]
  rfl

/-- No path leads to zero. -/
theorem Ideal.climb_ne_zero {leaves : Set (List UInt8)} {pairs : Set (Hash × Hash)}
    (ideal : Ideal leaves pairs) {input : List UInt8} (inside : input ∈ leaves)
    {proof : List MerkleStep}
    (known : ∀ pair ∈ Merkle.climbed Hash.combine (Hash.digest input) proof, pair ∈ pairs) :
    Merkle.climb Hash.combine (Hash.digest input) proof ≠ Hash.zero := by
  induction proof using List.reverseRecOn with
  | nil => exact ideal.leafNonzero input inside
  | append_singleton path step _ =>
      rw [Merkle.climb_append_singleton]
      rw [Merkle.climbed_append] at known
      exact ideal.nodeNonzero _ (known _ (List.mem_append_right _ (List.mem_singleton_self _)))

end Paths

namespace StateTree

/-! ### Entries -/

def leafInput (entry : String × List UInt8) : List UInt8 :=
  Hash.commitBytes "kv" [utf8 entry.1, entry.2]

/-- Every byte vector has a length that fits 64 bits. -/
def Fits (entry : String × List UInt8) : Prop :=
  (utf8 entry.1).length < 2 ^ 64 ∧ entry.2.length < 2 ^ 64

theorem leafInput_injective {left right : String × List UInt8} (leftFits : Fits left)
    (rightFits : Fits right) (same : leafInput left = leafInput right) : left = right := by
  have sizes : ∀ {entry : String × List UInt8}, Fits entry →
      ∀ part ∈ [utf8 entry.1, entry.2], part.length < 2 ^ 64 := by
    intro entry fits part member
    rcases List.mem_cons.mp member with same | rest
    · rw [same]
      exact fits.1
    · rw [List.mem_singleton.mp rest]
      exact fits.2
  have parts := Hash.commitBytes_injective (sizes leftFits) (sizes rightFits) same
  obtain ⟨keys, values⟩ := List.cons.inj parts
  exact Prod.ext (Bytes.utf8_injective keys) (List.cons.inj values).1

theorem mem_entries {state : StateTree} {key : String} {value : List UInt8} :
    (key, value) ∈ state.entries.toList ↔ state.get key = some value :=
  Std.ExtTreeMap.mem_toList_iff_getElem?_eq_some

theorem entries_nodup (state : StateTree) : state.entries.toList.Nodup := by
  apply List.Nodup.of_map Prod.fst
  rw [Std.ExtTreeMap.map_fst_toList_eq_keys]
  exact Std.ExtTreeMap.nodup_keys

variable [Blake3]

/-- The pairs that the root of a tree combines. -/
def pairs (state : StateTree) : List (Hash × Hash) :=
  merklePairs (state.entries.toList.map fun entry => leafHash entry.1 entry.2)

theorem leaves_eq (state : StateTree) :
    (state.entries.toList.map fun entry => leafHash entry.1 entry.2) =
      (state.entries.toList.map leafInput).map Hash.digest := by
  rw [List.map_map]
  rfl

theorem root_eq (state : StateTree) :
    state.root = merkleRoot ((state.entries.toList.map leafInput).map Hash.digest) := by
  rw [root, leaves_eq]
  split
  · rename_i empty
    have none : state.entries.toList = [] := by
      rw [← List.isEmpty_iff, Std.ExtTreeMap.isEmpty_toList]
      exact empty
    rw [none]
    rfl
  · rfl

/-- The digest is ideal for these entries and these pairs. -/
def IdealFor (entries : List (String × List UInt8)) (pairs : List (Hash × Hash)) : Prop :=
  Ideal {input | input ∈ entries.map leafInput} {pair | pair ∈ pairs}

omit [Blake3] in
theorem leafInputs_nodup {state : StateTree} (fits : ∀ entry ∈ state.entries.toList, Fits entry) :
    (state.entries.toList.map leafInput).Nodup := by
  apply (entries_nodup state).map_on
  intro first firstIn second secondIn same
  exact leafInput_injective (fits first firstIn) (fits second secondIn) same

omit [Blake3] in
/-- Entries are read off their inputs. -/
theorem mem_of_leafInput_mem {state : StateTree} {entry : String × List UInt8}
    (fits : ∀ other ∈ state.entries.toList, Fits other) (entryFits : Fits entry)
    (member : leafInput entry ∈ state.entries.toList.map leafInput) :
    entry ∈ state.entries.toList := by
  obtain ⟨other, found, same⟩ := List.mem_map.mp member
  rw [← leafInput_injective (fits other found) entryFits same]
  exact found

/-- The root of a tree says which entries it has. -/
theorem state_root_injective (left right : StateTree)
    (fits : ∀ entry ∈ left.entries.toList ++ right.entries.toList, Fits entry)
    (ideal : IdealFor (left.entries.toList ++ right.entries.toList) (left.pairs ++ right.pairs)) :
    left.root = right.root ↔ ∀ key, left.get key = right.get key := by
  have leftFits : ∀ entry ∈ left.entries.toList, Fits entry :=
    fun entry member => fits entry (List.mem_append_left _ member)
  have rightFits : ∀ entry ∈ right.entries.toList, Fits entry :=
    fun entry member => fits entry (List.mem_append_right _ member)
  have roots : merkleRoot ((left.entries.toList.map leafInput).map Hash.digest) =
      merkleRoot ((right.entries.toList.map leafInput).map Hash.digest) ↔
      padded (left.entries.toList.map leafInput) = padded (right.entries.toList.map leafInput) :=
    Ideal.root_eq_iff ideal
    (fun input member => List.map_append ▸ List.mem_append_left _ member)
    (fun input member => List.map_append ▸ List.mem_append_right _ member)
    (fun pair member => List.mem_append_left _ (by rwa [pairs, leaves_eq]))
    (fun pair member => List.mem_append_right _ (by rwa [pairs, leaves_eq]))
  constructor
  · intro same
    rw [root_eq, root_eq, roots] at same
    have inputs := Merkle.eq_of_pad_eq (leafInputs_nodup leftFits) (leafInputs_nodup rightFits) same
    intro key
    apply Option.ext
    intro value
    rw [← mem_entries, ← mem_entries]
    constructor
    · intro member
      apply mem_of_leafInput_mem rightFits (leftFits _ member)
      rw [← inputs]
      exact List.mem_map_of_mem member
    · intro member
      apply mem_of_leafInput_mem leftFits (rightFits _ member)
      rw [inputs]
      exact List.mem_map_of_mem member
  · intro same
    rw [ext_get same]

/-! ### Proofs -/

/-- `prove`: the value at a key with the path of its position. -/
def prove (state : StateTree) (key : String) : Option (List UInt8 × List MerkleStep) := do
  let value ← state.get key
  let index ← state.entries.keys.findIdx? fun other => other = key
  return (value, merkleProof (state.entries.toList.map fun entry => leafHash entry.1 entry.2) index)

omit [Blake3] in
/-- The position of a key is the position of its entry. -/
theorem entry_at {state : StateTree} {key : String} {value : List UInt8}
    (found : state.get key = some value) :
    ∃ index, state.entries.keys.findIdx? (fun other => other = key) = some index ∧
      state.entries.toList[index]? = some (key, value) := by
  have member : (key, value) ∈ state.entries.toList := mem_entries.mpr found
  have keyIn : key ∈ state.entries.keys := by
    rw [← Std.ExtTreeMap.map_fst_toList_eq_keys]
    exact List.mem_map_of_mem member
  have matched : decide (key = key) = true := decide_eq_true rfl
  have located := @List.findIdx?_eq_some_of_exists _ _ (fun other => decide (other = key))
    ⟨key, keyIn, matched⟩
  refine ⟨_, located, ?_⟩
  obtain ⟨inside, same, _⟩ := List.findIdx?_eq_some_iff_getElem.mp located
  generalize List.findIdx (fun other => decide (other = key)) state.entries.keys = index at inside same
  have name : state.entries.keys[index]? = some key := by
    rw [List.getElem?_eq_getElem inside, of_decide_eq_true same]
  rw [← Std.ExtTreeMap.map_fst_toList_eq_keys, List.getElem?_map] at name
  obtain ⟨entry, here, named⟩ := Option.map_eq_some_iff.mp name
  have stored : state.get entry.1 = some entry.2 := mem_entries.mp (List.mem_of_getElem? here)
  rw [named, found] at stored
  rw [here, Option.some_inj]
  exact Prod.ext named (Option.some.inj stored).symm

/-- The proof of an entry verifies. -/
theorem prove_verifies {state : StateTree} {key : String} {value : List UInt8}
    (found : state.get key = some value) :
    ∃ proof, state.prove key = some (value, proof) ∧
      verifyMerkleProof (leafHash key value) proof state.root = true := by
  obtain ⟨index, located, here⟩ := entry_at found
  refine ⟨merkleProof (state.entries.toList.map fun entry => leafHash entry.1 entry.2) index, ?_, ?_⟩
  · unfold prove
    rw [found, located]
    rfl
  · rw [verifyMerkleProof_iff, climb_merkleProof, root_eq, leaves_eq]
    rw [List.getElem?_map, here]
    rfl

/-- A path that reaches the root starts at an entry. -/
theorem get_of_verified {state : StateTree} {key : String} {value : List UInt8}
    {proof : List MerkleStep} (fits : ∀ entry ∈ state.entries.toList, Fits entry)
    (entryFits : Fits (key, value))
    (ideal : IdealFor ((key, value) :: state.entries.toList)
      (Merkle.climbed Hash.combine (leafHash key value) proof ++ state.pairs))
    (verified : verifyMerkleProof (leafHash key value) proof state.root = true) :
    state.get key = some value := by
  have inputIn : leafInput (key, value) ∈ ((key, value) :: state.entries.toList).map leafInput :=
    List.mem_map_of_mem List.mem_cons_self
  have entriesIn : ∀ input ∈ state.entries.toList.map leafInput,
      input ∈ ((key, value) :: state.entries.toList).map leafInput :=
    fun input member => List.mem_cons_of_mem _ member
  have pairsIn : ∀ pair ∈ merklePairs ((state.entries.toList.map leafInput).map Hash.digest),
      pair ∈ Merkle.climbed Hash.combine (leafHash key value) proof ++ state.pairs := by
    intro pair member
    rw [pairs, leaves_eq]
    exact List.mem_append_right _ member
  rw [verifyMerkleProof_iff, root_eq] at verified
  by_cases none : state.entries.toList.map leafInput = []
  · -- the root of the empty tree is zero, which no leaf and no combination is
    rw [none] at verified
    exact absurd verified (ideal.climb_ne_zero inputIn fun pair member =>
      List.mem_append_left _ member)
  · have tree := spans_merkleRoot (fun nothing => none (List.map_eq_nil_iff.mp nothing)) pairsIn
    rw [← verified, Merkle.padded_map] at tree
    have inside := Merkle.mem_of_climb ideal.injectiveOn tree
      (fun pair member => List.mem_append_left _ member) (ideal.apart _ inputIn)
      (ideal.apart_of_mem fun input member => entriesIn input (Merkle.padded_subset _ member))
    obtain ⟨input, member, same⟩ := List.mem_map.mp inside
    have entered := Merkle.padded_subset _ member
    have equal := ideal.digest_eq (entriesIn input entered) inputIn same
    rw [equal] at entered
    exact mem_entries.mp (mem_of_leafInput_mem fits entryFits entered)

/-- Every entry is proved, and whatever a path of any shape proves is an entry. -/
theorem state_proofs_sound (state : StateTree)
    (fits : ∀ entry ∈ state.entries.toList, Fits entry) :
    (∀ key value, state.get key = some value → ∃ proof, state.prove key = some (value, proof) ∧
      verifyMerkleProof (leafHash key value) proof state.root = true) ∧
    ∀ key value proof, Fits (key, value) →
      IdealFor ((key, value) :: state.entries.toList)
        (Merkle.climbed Hash.combine (leafHash key value) proof ++ state.pairs) →
      verifyMerkleProof (leafHash key value) proof state.root = true →
      state.get key = some value :=
  ⟨fun _ _ found => prove_verifies found, fun _ _ _ entryFits ideal verified =>
    get_of_verified fits entryFits ideal verified⟩

end StateTree

/-! ### Three entries, and four -/

section Entries

attribute [local instance] Blake3.polynomial

def threeEntries : StateTree := ((StateTree.empty.put "b" [2]).put "a" [1]).put "c" [3]

/-- The last value once more, under another key. -/
def fourEntries : StateTree := threeEntries.put "d" [3]

theorem state_root_three_four :
    StateTree.IdealFor (threeEntries.entries.toList ++ fourEntries.entries.toList)
        (threeEntries.pairs ++ fourEntries.pairs) ∧
      threeEntries.root ≠ fourEntries.root := by
  have ideal : StateTree.IdealFor (threeEntries.entries.toList ++ fourEntries.entries.toList)
      (threeEntries.pairs ++ fourEntries.pairs) :=
    Ideal.of_lists (by decide +kernel) (by decide +kernel) (by decide) (by decide +kernel)
  have fits : ∀ entry ∈ threeEntries.entries.toList ++ fourEntries.entries.toList,
      StateTree.Fits entry := by
    unfold StateTree.Fits
    decide
  refine ⟨ideal, ?_⟩
  intro same
  have reads := (StateTree.state_root_injective threeEntries fourEntries fits ideal).mp same "d"
  have differ : threeEntries.get "d" ≠ fourEntries.get "d" := by decide
  exact differ reads

def pathOfC : List MerkleStep := ((threeEntries.prove "c").map Prod.snd).getD []

theorem state_proofs_sound_three :
    StateTree.IdealFor (("c", [3]) :: threeEntries.entries.toList)
        (Merkle.climbed Hash.combine (StateTree.leafHash "c" [3]) pathOfC ++ threeEntries.pairs) ∧
      pathOfC.length = 2 ∧
      (∃ proof, threeEntries.prove "c" = some ([3], proof) ∧
        verifyMerkleProof (StateTree.leafHash "c" [3]) proof threeEntries.root = true) ∧
      threeEntries.get "c" = some [3] := by
  have fits : ∀ entry ∈ threeEntries.entries.toList, StateTree.Fits entry := by
    unfold StateTree.Fits
    decide
  have ideal : StateTree.IdealFor (("c", [3]) :: threeEntries.entries.toList)
      (Merkle.climbed Hash.combine (StateTree.leafHash "c" [3]) pathOfC ++ threeEntries.pairs) :=
    Ideal.of_lists (by decide +kernel) (by decide +kernel) (by decide) (by decide +kernel)
  have entryFits : StateTree.Fits ("c", [3]) := by
    unfold StateTree.Fits
    decide
  obtain ⟨complete, sound⟩ := StateTree.state_proofs_sound threeEntries fits
  exact ⟨ideal, by decide, complete "c" [3] (by decide),
    sound "c" [3] pathOfC entryFits ideal (by decide +kernel)⟩

end Entries

end Veilux
