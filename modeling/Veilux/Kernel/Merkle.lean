/-
Merkle roots and proofs of `kernel/src/crypto.rs`, as trees of `Hash.combine`.  What is
assumed of the digest is said of the byte strings that are hashed in each case: it is
injective on them, leaves and inner nodes stay apart, and none of them is zero.
-/

import Veilux.Lib.Merkle
import Veilux.Kernel.Crypto

namespace Veilux

open Merkle (Step couples level rounds combined height padded join)

abbrev MerkleStep := Merkle.Step Hash

section Proofs

variable [Blake3]

/-- The loop of `merkle_proof`, with the rounds that `merkle_root` takes. -/
def merkleProofLoop : Nat → Nat → List Hash → List MerkleStep
  | 0, _, _ => []
  | fuel + 1, index, level =>
      if level.length ≤ 1 then []
      else
        let siblingIndex := if index % 2 = 0 then index + 1 else index - 1
        let sibling := level.getD siblingIndex (level.getD index Hash.zero)
        ⟨sibling, decide (index % 2 = 0)⟩ ::
          merkleProofLoop fuel (index / 2) (merkleLevel level)

def merkleProof (leaves : List Hash) (index : Nat) : List MerkleStep :=
  if leaves.length ≤ index then [] else merkleProofLoop leaves.length index leaves

def verifyMerkleProof (leaf : Hash) (proof : List MerkleStep) (root : Hash) : Bool :=
  let reached := proof.foldl (fun acc step =>
    if step.siblingOnRight then Hash.combine acc step.sibling
    else Hash.combine step.sibling acc) leaf
  decide (reached = root)

/-! ### The tree behind a root -/

theorem merkleLevel_eq : (nodes : List Hash) → merkleLevel nodes = level Hash.combine nodes
  | [] => rfl
  | [_] => rfl
  | left :: right :: rest => by
      rw [merkleLevel, merkleLevel_eq rest]
      rfl

theorem merkleLoop_eq {fuel : Nat} {nodes : List Hash} (enough : nodes.length ≤ fuel + 1) :
    merkleLoop fuel nodes = (rounds Hash.combine (height nodes) nodes).headD Hash.zero := by
  induction fuel generalizing nodes with
  | zero =>
      rw [Merkle.height_eq_zero (by omega)]
      rfl
  | succ fuel ih =>
      rw [merkleLoop]
      by_cases few : nodes.length ≤ 1
      · rw [if_pos few, Merkle.height_eq_zero few]
        rfl
      · have several : 1 < nodes.length := by omega
        have shorter : (merkleLevel nodes).length ≤ fuel + 1 := by
          rw [merkleLevel_length]
          omega
        rw [if_neg few, ih shorter, merkleLevel_eq, Merkle.height_level Hash.combine several]
        rfl

theorem merkleRoot_eq (leaves : List Hash) :
    merkleRoot leaves = (rounds Hash.combine (height leaves) leaves).headD Hash.zero := by
  unfold merkleRoot
  cases leaves with
  | nil => rfl
  | cons leaf rest =>
      rw [List.isEmpty_cons]
      exact merkleLoop_eq (Nat.le_succ _)

/-- The pairs that a root combines. -/
def merklePairs (leaves : List Hash) : List (Hash × Hash) :=
  combined Hash.combine (height leaves) leaves

theorem spans_merkleRoot {leaves : List Hash} {pairs : Set (Hash × Hash)} (some : leaves ≠ [])
    (known : ∀ pair ∈ merklePairs leaves, pair ∈ pairs) :
    Merkle.Spans Hash.combine pairs (height leaves) (merkleRoot leaves) (padded leaves) := by
  obtain ⟨root, ended⟩ := Merkle.rounds_height Hash.combine some
  have same : merkleRoot leaves = root := by
    rw [merkleRoot_eq, ended]
    rfl
  rw [same]
  exact Merkle.spans_root known ended

/-! ### What is assumed of the digest -/

def nodeInput (pair : Hash × Hash) : List UInt8 := pair.1.asBytes ++ pair.2.asBytes

/-- The digest has no collision among these inputs. -/
def CollisionFree (inputs : Set (List UInt8)) : Prop :=
  ∀ left ∈ inputs, ∀ right ∈ inputs, Hash.digest left = Hash.digest right → left = right

/-- The digest is collision-free on the leaf inputs and on the pairs that are combined,
and leaves, inner nodes and zero never coincide. -/
structure Ideal (leaves : Set (List UInt8)) (pairs : Set (Hash × Hash)) : Prop where
  free : CollisionFree (leaves ∪ nodeInput '' pairs)
  apart : ∀ leaf ∈ leaves, ∀ pair ∈ pairs, Hash.digest leaf ≠ Hash.combine pair.1 pair.2
  leafNonzero : ∀ leaf ∈ leaves, Hash.digest leaf ≠ Hash.zero
  nodeNonzero : ∀ pair ∈ pairs, Hash.combine pair.1 pair.2 ≠ Hash.zero

variable {leaves : Set (List UInt8)} {pairs : Set (Hash × Hash)}

omit [Blake3] in
theorem nodeInput_injective {left right : Hash × Hash} (same : nodeInput left = nodeInput right) :
    left = right := by
  have sizes : left.1.asBytes.length = right.1.asBytes.length := by
    rw [Hash.asBytes_length, Hash.asBytes_length]
  obtain ⟨first, second⟩ := List.append_inj same sizes
  exact Prod.ext (Hash.asBytes_injective first) (Hash.asBytes_injective second)

namespace Ideal

/-- Finitely many inputs can be checked. -/
theorem of_lists {inputs : List (List UInt8)} {pairs : List (Hash × Hash)}
    (free : (inputs ++ pairs.map nodeInput).Pairwise fun left right =>
      Hash.digest left = Hash.digest right → left = right)
    (apart : ∀ leaf ∈ inputs, ∀ pair ∈ pairs, Hash.digest leaf ≠ Hash.combine pair.1 pair.2)
    (leafNonzero : ∀ leaf ∈ inputs, Hash.digest leaf ≠ Hash.zero)
    (nodeNonzero : ∀ pair ∈ pairs, Hash.combine pair.1 pair.2 ≠ Hash.zero) :
    Ideal {input | input ∈ inputs} {pair | pair ∈ pairs} := by
  have listed : ∀ input ∈ {input | input ∈ inputs} ∪ nodeInput '' {pair | pair ∈ pairs},
      input ∈ inputs ++ pairs.map nodeInput := by
    rintro input (leaf | ⟨pair, member, rfl⟩)
    · exact List.mem_append_left _ leaf
    · exact List.mem_append_right _ (List.mem_map_of_mem member)
  have symmetric : Std.Symm fun left right : List UInt8 =>
      Hash.digest left = Hash.digest right → left = right :=
    ⟨fun _ _ alike same => (alike same.symm).symm⟩
  have either := List.Pairwise.forall_of_forall (fun _ _ _ => rfl) free
  exact
    { free := fun left leftIn right rightIn => either (listed left leftIn) (listed right rightIn)
      apart := apart
      leafNonzero := leafNonzero
      nodeNonzero := nodeNonzero }

theorem digest_eq (ideal : Ideal leaves pairs) {left right : List UInt8} (leftIn : left ∈ leaves)
    (rightIn : right ∈ leaves) (same : Hash.digest left = Hash.digest right) : left = right :=
  ideal.free left (.inl leftIn) right (.inl rightIn) same

theorem injectiveOn (ideal : Ideal leaves pairs) : Merkle.InjectiveOn Hash.combine pairs := by
  intro left leftIn right rightIn same
  exact nodeInput_injective (ideal.free (nodeInput left) (.inr ⟨left, leftIn, rfl⟩)
    (nodeInput right) (.inr ⟨right, rightIn, rfl⟩) same)

theorem apart_of_mem (ideal : Ideal leaves pairs) {inputs : List (List UInt8)}
    (inside : ∀ input ∈ inputs, input ∈ leaves) :
    ∀ leaf ∈ inputs.map Hash.digest, Merkle.Apart Hash.combine pairs leaf := by
  intro leaf member
  obtain ⟨input, found, rfl⟩ := List.mem_map.mp member
  exact ideal.apart input (inside input found)

theorem map_digest_eq (ideal : Ideal leaves pairs) {left right : List (List UInt8)}
    (leftIn : ∀ input ∈ left, input ∈ leaves) (rightIn : ∀ input ∈ right, input ∈ leaves)
    (same : left.map Hash.digest = right.map Hash.digest) : left = right := by
  induction left generalizing right with
  | nil => exact (List.map_eq_nil_iff.mp same.symm).symm
  | cons input rest ih =>
      cases right with
      | nil => cases same
      | cons other others =>
          obtain ⟨first, later⟩ := List.cons.inj same
          rw [ideal.digest_eq (leftIn _ List.mem_cons_self) (rightIn _ List.mem_cons_self) first,
            ih (fun item member => leftIn item (List.mem_cons_of_mem _ member))
              (fun item member => rightIn item (List.mem_cons_of_mem _ member)) later]

/-- No root is zero. -/
theorem root_ne_zero (ideal : Ideal leaves pairs) {inputs : List (List UInt8)} (some : inputs ≠ [])
    (inside : ∀ input ∈ inputs, input ∈ leaves)
    (known : ∀ pair ∈ merklePairs (inputs.map Hash.digest), pair ∈ pairs) :
    merkleRoot (inputs.map Hash.digest) ≠ Hash.zero := by
  have tree := spans_merkleRoot (fun none => some (List.map_eq_nil_iff.mp none)) known
  rw [Merkle.padded_map] at tree
  generalize merkleRoot (inputs.map Hash.digest) = root at tree
  generalize height (inputs.map Hash.digest) = count at tree
  generalize total : (padded inputs).map Hash.digest = all at tree
  cases tree with
  | leaf node =>
      have member : root ∈ (padded inputs).map Hash.digest := total ▸ List.mem_singleton_self root
      obtain ⟨input, found, rfl⟩ := List.mem_map.mp member
      exact ideal.leafNonzero input (inside input (Merkle.padded_subset inputs found))
  | node topKnown _ _ => exact ideal.nodeNonzero _ topKnown

/-- Two lists have one root exactly when they are padded to one list. -/
theorem root_eq_iff (ideal : Ideal leaves pairs) {left right : List (List UInt8)}
    (leftIn : ∀ input ∈ left, input ∈ leaves) (rightIn : ∀ input ∈ right, input ∈ leaves)
    (leftKnown : ∀ pair ∈ merklePairs (left.map Hash.digest), pair ∈ pairs)
    (rightKnown : ∀ pair ∈ merklePairs (right.map Hash.digest), pair ∈ pairs) :
    merkleRoot (left.map Hash.digest) = merkleRoot (right.map Hash.digest) ↔
      padded left = padded right := by
  have leftPadded : ∀ input ∈ padded left, input ∈ leaves :=
    fun input member => leftIn input (Merkle.padded_subset left member)
  have rightPadded : ∀ input ∈ padded right, input ∈ leaves :=
    fun input member => rightIn input (Merkle.padded_subset right member)
  by_cases leftNone : left = []
  · by_cases rightNone : right = []
    · rw [leftNone, rightNone]
      exact iff_of_true rfl rfl
    · rw [leftNone]
      constructor
      · exact fun same => absurd same.symm (ideal.root_ne_zero rightNone rightIn rightKnown)
      · exact fun same => absurd (Merkle.padded_eq_nil.mp same.symm) rightNone
  · by_cases rightNone : right = []
    · rw [rightNone]
      constructor
      · exact fun same => absurd same (ideal.root_ne_zero leftNone leftIn leftKnown)
      · exact fun same => absurd (Merkle.padded_eq_nil.mp same) leftNone
    · have leftTree := spans_merkleRoot (fun none => leftNone (List.map_eq_nil_iff.mp none)) leftKnown
      have rightTree := spans_merkleRoot (fun none => rightNone (List.map_eq_nil_iff.mp none))
        rightKnown
      rw [Merkle.padded_map] at leftTree rightTree
      constructor
      · intro same
        rw [same] at leftTree
        obtain ⟨_, digests⟩ := leftTree.unique ideal.injectiveOn rightTree
          (ideal.apart_of_mem leftPadded) (ideal.apart_of_mem rightPadded)
        exact ideal.map_digest_eq leftPadded rightPadded digests
      · intro same
        rw [same] at leftTree
        have heights : height (left.map Hash.digest) = height (right.map Hash.digest) := by
          have sizes := leftTree.length.symm.trans rightTree.length
          exact Nat.pow_right_injective (le_refl 2) sizes
        rw [heights] at leftTree
        exact leftTree.root_eq rightTree

end Ideal

end Proofs

end Veilux
