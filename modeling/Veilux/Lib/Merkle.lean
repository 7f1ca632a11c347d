/-
Merkle trees over lists, an odd last node combined with itself.  The node function is
a parameter.  A root spans a full tree whose leaves are the list, padded; where the node
function is injective on the pairs that are combined, and no leaf is a combination, the
root fixes that tree, and a path that reaches the root starts at one of its leaves.
-/

import Mathlib

namespace Merkle

/-! ### Neighbours -/

section Couples

variable {A B : Type}

/-- Neighbours as pairs, an odd last one with itself. -/
def couples : List A → List (A × A)
  | [] => []
  | [last] => [(last, last)]
  | left :: right :: rest => (left, right) :: couples rest

theorem couples_length : (items : List A) → (couples items).length = (items.length + 1) / 2
  | [] => by simp [couples]
  | [_] => by simp [couples]
  | _ :: _ :: rest => by
      simp only [couples, List.length_cons, couples_length rest]
      omega

theorem couples_map (f : A → B) : (items : List A) →
    couples (items.map f) = (couples items).map (Prod.map f f)
  | [] => rfl
  | [_] => rfl
  | left :: right :: rest => by
      simp only [List.map_cons, couples, Prod.map_apply, couples_map f rest]

/-- The couple above a position. -/
theorem couples_getElem? : (items : List A) → (index : Nat) →
    (couples items)[index]? =
      (items[2 * index]?).map fun first => (first, (items[2 * index + 1]?).getD first)
  | [], _ => rfl
  | [_], 0 => rfl
  | [_], _ + 1 => rfl
  | _ :: _ :: _, 0 => rfl
  | left :: right :: rest, index + 1 => by
      have doubled : 2 * (index + 1) = 2 * index + 1 + 1 := by omega
      simp only [couples, doubled, List.getElem?_cons_succ, couples_getElem? rest index]

def flatten (pairs : List (A × A)) : List A := pairs.flatMap fun pair => [pair.1, pair.2]

theorem flatten_append (front back : List (A × A)) :
    flatten (front ++ back) = flatten front ++ flatten back :=
  List.flatMap_append

theorem flatten_map (f : A → B) (pairs : List (A × A)) :
    flatten (pairs.map (Prod.map f f)) = (flatten pairs).map f := by
  induction pairs with
  | nil => rfl
  | cons pair rest ih =>
      simp only [flatten, List.map_cons, List.flatMap_cons, List.map_append] at ih ⊢
      rw [ih]
      rfl

/-- Flattening gives the items back, perhaps with the last one again. -/
theorem flatten_couples : (items : List A) →
    ∃ extra, flatten (couples items) = items ++ extra ∧ extra ⊆ items
  | [] => ⟨[], rfl, List.nil_subset _⟩
  | [last] => ⟨[last], rfl, List.Subset.refl _⟩
  | left :: right :: rest => by
      obtain ⟨extra, same, inside⟩ := flatten_couples rest
      refine ⟨extra, ?_, ?_⟩
      · change left :: right :: flatten (couples rest) = _
        rw [same]
        rfl
      · exact fun item member => List.mem_cons_of_mem _ (List.mem_cons_of_mem _ (inside member))

theorem mem_of_mem_flatten {pairs : List (A × A)} {items : List A}
    (inside : ∀ pair ∈ pairs, pair.1 ∈ items ∧ pair.2 ∈ items) : flatten pairs ⊆ items := by
  intro item member
  obtain ⟨pair, found, position⟩ := List.mem_flatMap.mp member
  rcases List.mem_cons.mp position with same | rest
  · rw [same]
    exact (inside pair found).1
  · rw [List.mem_singleton.mp rest]
    exact (inside pair found).2

theorem mem_of_mem_couples {items : List A} {pair : A × A} (member : pair ∈ couples items) :
    pair.1 ∈ items ∧ pair.2 ∈ items := by
  induction items using couples.induct with
  | case1 => cases member
  | case2 last =>
      rw [List.mem_singleton.mp member]
      exact ⟨List.mem_singleton_self _, List.mem_singleton_self _⟩
  | case3 left right rest ih =>
      rcases List.mem_cons.mp member with same | later
      · rw [same]
        exact ⟨List.mem_cons_self, List.mem_cons_of_mem _ List.mem_cons_self⟩
      · obtain ⟨first, second⟩ := ih later
        exact ⟨List.mem_cons_of_mem _ (List.mem_cons_of_mem _ first),
          List.mem_cons_of_mem _ (List.mem_cons_of_mem _ second)⟩

end Couples

/-! ### The padded list -/

/-- The leaves of the full tree of a height: at every level an odd last node is
repeated, with everything below it. -/
def pad : Nat → {A : Type} → List A → List A
  | 0, _, items => items
  | height + 1, _, items => flatten (pad height (couples items))

theorem pad_map {A B : Type} (height : Nat) (f : A → B) (items : List A) :
    pad height (items.map f) = (pad height items).map f := by
  induction height generalizing A B with
  | zero => rfl
  | succ height ih => rw [pad, pad, couples_map, ih, flatten_map]

/-- Padding only appends, and only what is there. -/
theorem pad_eq_append {A : Type} (height : Nat) (items : List A) :
    ∃ extra, pad height items = items ++ extra ∧ extra ⊆ items := by
  induction height generalizing A with
  | zero => exact ⟨[], (List.append_nil _).symm, List.nil_subset _⟩
  | succ height ih =>
      obtain ⟨above, padded, fromAbove⟩ := ih (couples items)
      obtain ⟨odd, same, fromItems⟩ := flatten_couples items
      refine ⟨odd ++ flatten above, ?_, ?_⟩
      · rw [pad, padded, flatten_append, same, List.append_assoc]
      · apply List.append_subset.mpr
        refine ⟨fromItems, mem_of_mem_flatten ?_⟩
        intro pair member
        exact mem_of_mem_couples (fromAbove member)

/-- Lists that are continued from their own items, the longer one without repetitions. -/
theorem eq_of_append_eq {A : Type} {left right leftExtra rightExtra : List A}
    (fromLeft : leftExtra ⊆ left) (nodup : right.Nodup) (shorter : left.length ≤ right.length)
    (same : left ++ leftExtra = right ++ rightExtra) : left = right := by
  obtain ⟨rest, split⟩ : left <+: right := List.prefix_of_prefix_length_le
    (List.prefix_append left leftExtra) (same ▸ List.prefix_append right rightExtra) shorter
  rw [← split, List.append_assoc] at same
  have behind : leftExtra = rest ++ rightExtra := List.append_cancel_left same
  have none : rest = [] := by
    apply List.eq_nil_iff_forall_not_mem.mpr
    intro item member
    have inLeft : item ∈ left := fromLeft (behind ▸ List.mem_append_left _ member)
    rw [← split] at nodup
    exact List.disjoint_of_nodup_append nodup inLeft member
  rw [← split, none, List.append_nil]

/-- A list without repetitions is fixed by what it is padded to. -/
theorem eq_of_pad_eq {A : Type} {first second : Nat} {left right : List A}
    (leftNodup : left.Nodup) (rightNodup : right.Nodup) (same : pad first left = pad second right) :
    left = right := by
  obtain ⟨leftExtra, leftPadded, fromLeft⟩ := pad_eq_append first left
  obtain ⟨rightExtra, rightPadded, fromRight⟩ := pad_eq_append second right
  rw [leftPadded, rightPadded] at same
  rcases le_total left.length right.length with fewer | more
  · exact eq_of_append_eq fromLeft rightNodup fewer same
  · exact (eq_of_append_eq fromRight leftNodup more same.symm).symm

/-- The number of rounds until one node is left. -/
def height {A : Type} (items : List A) : Nat := Nat.clog 2 items.length

theorem height_couples {A : Type} {items : List A} (several : 1 < items.length) :
    height items = height (couples items) + 1 := by
  unfold height
  rw [couples_length, Nat.clog_of_one_lt (by omega) several]
  rfl

theorem height_eq_zero {A : Type} {items : List A} (few : items.length ≤ 1) : height items = 0 :=
  Nat.clog_of_right_le_one few 2

theorem height_map {A B : Type} (f : A → B) (items : List A) : height (items.map f) = height items := by
  unfold height
  rw [List.length_map]

def padded {A : Type} (items : List A) : List A := pad (height items) items

theorem padded_map {A B : Type} (f : A → B) (items : List A) :
    padded (items.map f) = (padded items).map f := by
  unfold padded
  rw [height_map, pad_map]

theorem padded_subset {A : Type} (items : List A) : padded items ⊆ items := by
  obtain ⟨extra, same, inside⟩ := pad_eq_append (height items) items
  unfold padded
  rw [same]
  exact List.append_subset.mpr ⟨List.Subset.refl _, inside⟩

theorem padded_eq_nil {A : Type} {items : List A} : padded items = [] ↔ items = [] := by
  obtain ⟨extra, same, inside⟩ := pad_eq_append (height items) items
  unfold padded
  rw [same, List.append_eq_nil_iff]
  constructor
  · exact fun both => both.1
  · rintro rfl
    exact ⟨rfl, List.subset_nil.mp inside⟩

/-! ### Roots -/

section Trees

variable {H : Type} (combine : H → H → H)

def join (pair : H × H) : H := combine pair.1 pair.2

/-- One level up. -/
def level (nodes : List H) : List H := (couples nodes).map (join combine)

def rounds : Nat → List H → List H
  | 0, nodes => nodes
  | count + 1, nodes => rounds count (level combine nodes)

/-- The pairs that some rounds combine. -/
def combined : Nat → List H → List (H × H)
  | 0, _ => []
  | count + 1, nodes => couples nodes ++ combined count (level combine nodes)

theorem height_level {nodes : List H} (several : 1 < nodes.length) :
    height nodes = height (level combine nodes) + 1 := by
  rw [height_couples several, level, height_map]

/-- The rounds end with a single node. -/
theorem rounds_height {nodes : List H} (some : nodes ≠ []) :
    ∃ root, rounds combine (height nodes) nodes = [root] := by
  induction size : height nodes generalizing nodes with
  | zero =>
      have single : nodes.length = 1 := by
        have positive := List.length_pos_iff.mpr some
        by_contra several
        have more := @height_couples H nodes (by omega)
        omega
      exact List.length_eq_one_iff.mp single
  | succ count ih =>
      have several : 1 < nodes.length := by
        by_contra few
        rw [height_eq_zero (by omega)] at size
        omega
      have higher := height_level combine several
      apply ih
      · intro none
        have empty := congrArg List.length none
        rw [level, List.length_map, couples_length, List.length_nil] at empty
        omega
      · omega

/-- The full tree of a height below a root, with its leaves in order. -/
inductive Spans (pairs : Set (H × H)) : Nat → H → List H → Prop
  | leaf (node : H) : Spans pairs 0 node [node]
  | node {count : Nat} {left right : H} {lefts rights : List H} (known : (left, right) ∈ pairs)
      (first : Spans pairs count left lefts) (second : Spans pairs count right rights) :
      Spans pairs (count + 1) (join combine (left, right)) (lefts ++ rights)

variable {combine} {pairs : Set (H × H)}

/-- Rounds over the roots of equally high trees build a tree over all their leaves. -/
theorem spans_rounds {A : Type} {count below : Nat} {items : List A} {hash : A → H}
    {leaves : A → List H} {root : H}
    (trees : ∀ item ∈ items, Spans combine pairs below (hash item) (leaves item))
    (known : ∀ pair ∈ combined combine count (items.map hash), pair ∈ pairs)
    (ended : rounds combine count (items.map hash) = [root]) :
    Spans combine pairs (count + below) root ((pad count items).flatMap leaves) := by
  induction count generalizing A below with
  | zero =>
      obtain ⟨item, rfl, same⟩ := List.map_eq_singleton_iff.mp ended
      rw [pad, List.flatMap_cons, List.flatMap_nil, List.append_nil, Nat.zero_add, ← same]
      exact trees item (List.mem_singleton_self item)
  | succ count ih =>
      let hashPair : A × A → H := fun pair => join combine (hash pair.1, hash pair.2)
      let leavesPair : A × A → List H := fun pair => leaves pair.1 ++ leaves pair.2
      have up : level combine (items.map hash) = (couples items).map hashPair := by
        rw [level, couples_map, List.map_map]
        rfl
      rw [combined] at known
      rw [rounds, up] at ended
      have pairTrees : ∀ pair ∈ couples items,
          Spans combine pairs (below + 1) (hashPair pair) (leavesPair pair) := by
        intro pair member
        obtain ⟨first, second⟩ := mem_of_mem_couples member
        refine .node (known _ (List.mem_append_left _ ?_)) (trees _ first) (trees _ second)
        rw [couples_map]
        exact List.mem_map_of_mem member
      have tree := ih pairTrees
        (fun pair member => known pair (List.mem_append_right _ (up ▸ member))) ended
      have leavesSame : (pad (count + 1) items).flatMap leaves =
          (pad count (couples items)).flatMap leavesPair := by
        rw [pad, flatten, List.flatMap_assoc]
        congr 1
        funext pair
        change leaves pair.1 ++ (leaves pair.2 ++ []) = _
        rw [List.append_nil]
      rw [leavesSame, Nat.add_right_comm]
      exact tree

/-- The root of a list spans its padding. -/
theorem spans_root {nodes : List H} {root : H}
    (known : ∀ pair ∈ combined combine (height nodes) nodes, pair ∈ pairs)
    (ended : rounds combine (height nodes) nodes = [root]) :
    Spans combine pairs (height nodes) root (padded nodes) := by
  have trees : ∀ node ∈ nodes, Spans combine pairs 0 (id node) [node] := fun node _ => .leaf node
  have tree : Spans combine pairs (height nodes + 0) root
      ((pad (height nodes) nodes).flatMap fun node => [node]) :=
    spans_rounds trees (by rwa [List.map_id]) (by rwa [List.map_id])
  rw [List.flatMap_singleton'] at tree
  exact tree

theorem Spans.length {count : Nat} {root : H} {leaves : List H}
    (tree : Spans combine pairs count root leaves) : leaves.length = 2 ^ count := by
  induction tree with
  | leaf node => rfl
  | node _ _ _ ihLeft ihRight =>
      rw [List.length_append, ihLeft, ihRight, Nat.pow_succ]
      omega

/-- The leaves fix the root. -/
theorem Spans.root_eq {count : Nat} {first second : H} {leaves : List H}
    (left : Spans combine pairs count first leaves)
    (right : Spans combine pairs count second leaves) : first = second := by
  induction left generalizing second with
  | leaf node =>
      generalize single : [node] = nodes at right
      cases right with
      | leaf => exact (List.cons.inj single).1
  | @node count l r ls rs _ firstLeft _ ihLeft ihRight =>
      generalize whole : ls ++ rs = nodes at right
      cases right with
      | node _ otherLeft otherRight =>
          have sizes := firstLeft.length.trans otherLeft.length.symm
          obtain ⟨rfl, rfl⟩ := List.append_inj whole sizes
          rw [ihLeft otherLeft, ihRight otherRight]

/-- What the node function needs to be on the pairs in question. -/
def InjectiveOn (combine : H → H → H) (pairs : Set (H × H)) : Prop :=
  ∀ left ∈ pairs, ∀ right ∈ pairs, join combine left = join combine right → left = right

/-- No leaf is a combination. -/
def Apart (combine : H → H → H) (pairs : Set (H × H)) (leaf : H) : Prop :=
  ∀ pair ∈ pairs, leaf ≠ join combine pair

/-- A root has one full tree. -/
theorem Spans.unique (injective : InjectiveOn combine pairs) {root : H} {first second : Nat}
    {lefts rights : List H} (left : Spans combine pairs first root lefts)
    (right : Spans combine pairs second root rights)
    (leftApart : ∀ leaf ∈ lefts, Apart combine pairs leaf)
    (rightApart : ∀ leaf ∈ rights, Apart combine pairs leaf) : first = second ∧ lefts = rights := by
  induction left generalizing second rights with
  | leaf node =>
      cases right with
      | leaf => exact ⟨rfl, rfl⟩
      | node known _ _ => exact absurd rfl (leftApart _ (List.mem_singleton_self _) _ known)
  | @node count l r ls rs known _ _ ihLeft ihRight =>
      generalize meets : join combine (l, r) = top at right
      cases right with
      | leaf => exact absurd meets.symm (rightApart _ (List.mem_singleton_self _) _ known)
      | node otherKnown otherLeft otherRight =>
          cases injective _ known _ otherKnown meets
          obtain ⟨heights, leftSame⟩ := ihLeft otherLeft
            (fun leaf member => leftApart leaf (List.mem_append_left _ member))
            (fun leaf member => rightApart leaf (List.mem_append_left _ member))
          obtain ⟨_, rightSame⟩ := ihRight otherRight
            (fun leaf member => leftApart leaf (List.mem_append_right _ member))
            (fun leaf member => rightApart leaf (List.mem_append_right _ member))
          rw [heights, leftSame, rightSame]
          exact ⟨rfl, rfl⟩

/-! ### Paths -/

structure Step (H : Type) where
  sibling : H
  siblingOnRight : Bool
  deriving DecidableEq

/-- The pair that a step combines. -/
def Step.pair (node : H) (step : Step H) : H × H :=
  if step.siblingOnRight then (node, step.sibling) else (step.sibling, node)

variable (combine) in
def climb (leaf : H) (path : List (Step H)) : H :=
  path.foldl (fun node step => join combine (step.pair node)) leaf

variable (combine) in
/-- The pairs that a path combines. -/
def climbed : H → List (Step H) → List (H × H)
  | _, [] => []
  | node, step :: rest => step.pair node :: climbed (join combine (step.pair node)) rest

theorem climbed_append (leaf : H) (front back : List (Step H)) :
    climbed combine leaf (front ++ back) =
      climbed combine leaf front ++ climbed combine (climb combine leaf front) back := by
  induction front generalizing leaf with
  | nil => rfl
  | cons step rest ih =>
      rw [List.cons_append, climbed, ih]
      rfl

theorem climb_append_singleton (leaf : H) (path : List (Step H)) (step : Step H) :
    climb combine leaf (path ++ [step]) = join combine (step.pair (climb combine leaf path)) := by
  rw [climb, List.foldl_append]
  rfl

/-- A path of any length that ends at the root starts at a leaf of its tree. -/
theorem mem_of_climb (injective : InjectiveOn combine pairs) {leaf : H} {path : List (Step H)}
    {count : Nat} {leaves : List H} (tree : Spans combine pairs count (climb combine leaf path) leaves)
    (known : ∀ pair ∈ climbed combine leaf path, pair ∈ pairs)
    (leafApart : Apart combine pairs leaf) (apart : ∀ other ∈ leaves, Apart combine pairs other) :
    leaf ∈ leaves := by
  induction path using List.reverseRecOn generalizing count leaves with
  | nil =>
      generalize same : climb combine leaf [] = top at tree
      cases tree with
      | leaf => exact List.mem_singleton.mpr same
      | node topKnown _ _ => exact absurd same (leafApart _ topKnown)
  | append_singleton path step ih =>
      rw [climbed_append] at known
      have stepKnown : step.pair (climb combine leaf path) ∈ pairs :=
        known _ (List.mem_append_right _ (List.mem_singleton_self _))
      generalize same : climb combine leaf (path ++ [step]) = top at tree
      rw [climb_append_singleton] at same
      cases tree with
      | leaf => exact absurd same.symm (apart _ (List.mem_singleton_self _) _ stepKnown)
      | @node _ l r _ _ topKnown left right =>
          have parts := injective _ stepKnown _ topKnown same
          have front : ∀ pair ∈ climbed combine leaf path, pair ∈ pairs :=
            fun pair member => known pair (List.mem_append_left _ member)
          unfold Step.pair at parts
          split at parts
          · cases (Prod.mk.inj parts).1
            exact List.mem_append_left _ (ih left front fun other member =>
              apart other (List.mem_append_left _ member))
          · cases (Prod.mk.inj parts).2
            exact List.mem_append_right _ (ih right front fun other member =>
              apart other (List.mem_append_right _ member))

/-- The step from a position to the level above it. -/
def stepAt (nodes : List H) (index : Nat) (node : H) : Step H :=
  let siblingIndex := if index % 2 = 0 then index + 1 else index - 1
  { sibling := (nodes[siblingIndex]?).getD node
    siblingOnRight := decide (index % 2 = 0) }

theorem level_getElem? {nodes : List H} {index : Nat} {node : H} (found : nodes[index]? = some node) :
    (level combine nodes)[index / 2]? =
      some (join combine ((stepAt nodes index node).pair node)) := by
  rw [level, List.getElem?_map, couples_getElem?]
  rcases Nat.mod_two_eq_zero_or_one index with even | odd
  · have here : 2 * (index / 2) = index := by omega
    rw [here, found]
    simp only [stepAt, Step.pair, even, if_true, decide_true, Option.map_some]
  · have before : 2 * (index / 2) = index - 1 := by omega
    have here : index - 1 + 1 = index := by omega
    have bound : index - 1 < nodes.length := by
      have inside := (List.getElem?_eq_some_iff.mp found).1
      omega
    rw [before, here, found, List.getElem?_eq_getElem bound]
    have notEven : ¬ index % 2 = 0 := by omega
    simp only [stepAt, Step.pair, notEven, if_false, decide_false, Option.map_some,
      Option.getD_some, List.getElem?_eq_getElem bound, Bool.false_eq_true]

end Trees

end Merkle
