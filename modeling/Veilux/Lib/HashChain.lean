/-
Chains in which every member names the hash of the one before.  Two chains from one member
whose ends have one hash are one chain, as long as the hash tells their members apart.
-/

import Veilux.Lib.Run

namespace HashChain

variable {Link Digest : Type}

/-- Where a history from `first` ends. -/
def tip (first : Link) (history : List Link) : Link :=
  Run.run (fun _ next => next) first history

/-- Every member of the history stands in the relation to the one before it. -/
def Chained (relation : Link → Link → Prop) (first : Link) (history : List Link) : Prop :=
  Run.Along (fun _ next => next) relation first history

@[simp] theorem tip_nil (first : Link) : tip first [] = first := rfl

@[simp] theorem tip_cons (first next : Link) (history : List Link) :
    tip first (next :: history) = tip next history := rfl

@[simp] theorem tip_snoc (first last : Link) (history : List Link) :
    tip first (history ++ [last]) = last :=
  Run.run_snoc _ first history last

theorem tip_append (first : Link) (front back : List Link) :
    tip first (front ++ back) = tip (tip first front) back :=
  Run.run_append _ first front back

theorem tip_mem (first : Link) (history : List Link) : tip first history ∈ first :: history := by
  induction history generalizing first with
  | nil => exact List.mem_singleton_self first
  | cons next history ih => exact List.mem_cons_of_mem first (ih next)

theorem getLast?_tip (front : List Link) (first : Link) (history : List Link) :
    (front ++ first :: history).getLast? = some (tip first history) := by
  induction history generalizing front first with
  | nil => exact List.getLast?_concat
  | cons next history ih =>
      have shifted := ih (front ++ [first]) next
      rw [List.append_assoc] at shifted
      exact shifted

theorem tip_map {Other : Type} (view : Link → Other) (first : Link) (history : List Link) :
    tip (view first) (history.map view) = view (tip first history) := by
  induction history generalizing first with
  | nil => rfl
  | cons next history ih => exact ih next

variable {relation : Link → Link → Prop} {first : Link}

theorem chained_append {front back : List Link} :
    Chained relation first (front ++ back) ↔
      Chained relation first front ∧ Chained relation (tip first front) back :=
  Run.along_append _

theorem chained_snoc {history : List Link} {last : Link} :
    Chained relation first (history ++ [last]) ↔
      Chained relation first history ∧ relation (tip first history) last := by
  rw [chained_append]
  exact and_congr_right fun _ => and_iff_left trivial

theorem Chained.mono {weaker : Link → Link → Prop} {history : List Link}
    (chained : Chained relation first history)
    (weaken : ∀ earlier later, relation earlier later → weaker earlier later) :
    Chained weaker first history :=
  Run.along_mono _ weaken chained

theorem chained_iff_isChain {history : List Link} :
    Chained relation first history ↔ (first :: history).IsChain relation := by
  induction history generalizing first with
  | nil => exact ⟨fun _ => List.isChain_singleton first, fun _ => trivial⟩
  | cons next history ih =>
      rw [List.isChain_cons_cons, ← ih]
      exact Iff.rfl

/-- Heights that go up by one count the members. -/
theorem height_tip {height : Link → Nat} {history : List Link}
    (chained : Chained (fun earlier later => height later = height earlier + 1) first history) :
    height (tip first history) = height first + history.length := by
  induction history generalizing first with
  | nil => rfl
  | cons next history ih =>
      have above : height next = height first + 1 := chained.1
      rw [tip_cons, ih chained.2, above, List.length_cons]
      omega

/-- From one end hash back to the first member, link by link. -/
theorem history_unique {hash parent : Link → Digest} {left right : List Link}
    (leftChained : Chained (fun earlier later => parent later = hash earlier) first left)
    (rightChained : Chained (fun earlier later => parent later = hash earlier) first right)
    (long : left.length = right.length)
    (apart : ∀ one ∈ first :: left, ∀ other ∈ first :: right, hash one = hash other → one = other)
    (ends : hash (tip first left) = hash (tip first right)) : left = right := by
  induction left using List.reverseRecOn generalizing right with
  | nil => exact (List.length_eq_zero_iff.mp long.symm).symm
  | append_singleton left last ih =>
      rcases List.eq_nil_or_concat' right with rfl | ⟨others, other, rfl⟩
      · simp at long
      · rw [List.length_append, List.length_append] at long
        have shorter : left.length = others.length := by simpa using long
        rw [tip_snoc, tip_snoc] at ends
        have same : last = other :=
          apart last (by simp) other (by simp) ends
        obtain ⟨leftEarlier, leftLast⟩ := chained_snoc.mp leftChained
        obtain ⟨rightEarlier, rightLast⟩ := chained_snoc.mp rightChained
        have before : hash (tip first left) = hash (tip first others) := by
          rw [← leftLast, ← rightLast, same]
        have earlier : left = others := by
          apply ih leftEarlier rightEarlier shorter _ before
          intro one oneIn two twoIn
          apply apart one _ two
          · exact List.mem_append_left [other] twoIn
          · exact List.mem_append_left [last] oneIn
        rw [earlier, same]

end HashChain
