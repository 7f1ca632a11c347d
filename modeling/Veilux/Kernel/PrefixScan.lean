/-
Prefix scans of `kernel/src/state.rs`.  UTF-8 keeps the order of texts, so the keys with a
common front lie side by side from that front on, and a scan that stops at the first other
key misses none.
-/

import Veilux.Kernel.State
import Veilux.Lib.Lexicographic

namespace Veilux

open Bytes (utf8)

/-! ### UTF-8 keeps the order of texts -/

section Utf8

variable {low high : Nat} {front back : List UInt8}

theorem ofNat_lt {low high : Nat} (less : low < high) (bound : high < 256) :
    UInt8.ofNat low < UInt8.ofNat high := by
  rw [UInt8.lt_iff_toNat_lt, UInt8.toNat_ofNat_of_lt' (lt_trans less bound),
    UInt8.toNat_ofNat_of_lt' bound]
  exact less

/-- The first byte decides, or it is the same and the rest decides. -/
theorem bytes_lt (bound : high < 256) (less : low < high ∨ low = high ∧ front < back) :
    UInt8.ofNat low :: front < UInt8.ofNat high :: back := by
  apply List.cons_lt_cons_iff.mpr
  rcases less with first | ⟨rfl, rest⟩
  · exact .inl (ofNat_lt first bound)
  · exact .inr ⟨rfl, rest⟩

end Utf8

theorem utf8EncodeChar_ordered : Lexicographic.Ordered String.utf8EncodeChar := by
  intro left right less front back
  have below : left.val.toNat < right.val.toNat := less
  have bound : right.val.toNat < 0x110000 := by
    have valid := right.valid
    rcases valid with few | many
    · exact lt_trans few (by decide)
    · exact many.2
  unfold String.utf8EncodeChar
  dsimp only
  generalize left.val.toNat = low at below
  generalize right.val.toNat = high at below bound
  by_cases one : low ≤ 0x7f
  · rw [if_pos one]
    split
    · exact bytes_lt (by omega) (.inl below)
    · split
      · exact bytes_lt (by omega) (.inl (by omega))
      · split
        · exact bytes_lt (by omega) (.inl (by omega))
        · exact bytes_lt (by omega) (.inl (by omega))
  · have oneHigh : ¬ high ≤ 0x7f := by omega
    rw [if_neg one, if_neg oneHigh]
    by_cases two : low ≤ 0x7ff
    · rw [if_pos two]
      split
      · apply bytes_lt (by omega)
        by_cases first : low / 64 < high / 64
        · exact .inl (by omega)
        · exact .inr ⟨by omega, bytes_lt (by omega) (.inl (by omega))⟩
      · split
        · exact bytes_lt (by omega) (.inl (by omega))
        · exact bytes_lt (by omega) (.inl (by omega))
    · have twoHigh : ¬ high ≤ 0x7ff := by omega
      rw [if_neg two, if_neg twoHigh]
      by_cases three : low ≤ 0xffff
      · rw [if_pos three]
        split
        · apply bytes_lt (by omega)
          by_cases first : low / 4096 < high / 4096
          · exact .inl (by omega)
          · refine .inr ⟨by omega, bytes_lt (by omega) ?_⟩
            by_cases second : low / 64 < high / 64
            · exact .inl (by omega)
            · exact .inr ⟨by omega, bytes_lt (by omega) (.inl (by omega))⟩
        · exact bytes_lt (by omega) (.inl (by omega))
      · have threeHigh : ¬ high ≤ 0xffff := by omega
        rw [if_neg three, if_neg threeHigh]
        apply bytes_lt (by omega)
        by_cases first : low / 262144 < high / 262144
        · exact .inl (by omega)
        · refine .inr ⟨by omega, bytes_lt (by omega) ?_⟩
          by_cases second : low / 4096 < high / 4096
          · exact .inl (by omega)
          · refine .inr ⟨by omega, bytes_lt (by omega) ?_⟩
            by_cases third : low / 64 < high / 64
            · exact .inl (by omega)
            · exact .inr ⟨by omega, bytes_lt (by omega) (.inl (by omega))⟩

theorem utf8_eq_flatMap (text : String) : utf8 text = text.toList.flatMap String.utf8EncodeChar := by
  unfold utf8
  rw [← String.utf8Encode_toList, List.utf8Encode, List.data_toByteArray]

/-- The written bytes, character by character. -/
theorem toVec_eq_flatMap {α : Type} [Serialize α] (value : α) :
    toVec value = (Json.print (toJson value)).flatMap String.utf8EncodeChar := by
  unfold toVec Json.toVec
  rw [utf8_eq_flatMap, String.toList_ofList]

theorem utf8EncodeChar_ne_nil (char : Char) : String.utf8EncodeChar char ≠ [] := by
  unfold String.utf8EncodeChar
  dsimp only
  repeat' split
  all_goals exact List.cons_ne_nil _ _

/-- Texts compare as their bytes do. -/
theorem utf8_lt_iff {left right : String} : utf8 left < utf8 right ↔ left < right := by
  rw [utf8_eq_flatMap, utf8_eq_flatMap, String.lt_iff]
  exact Lexicographic.flatMap_lt_iff utf8EncodeChar_ordered utf8EncodeChar_ne_nil

/-! ### The scan -/

/-- `str::starts_with`, a comparison of bytes. -/
def startsWith (text front : String) : Bool := (utf8 front).isPrefixOf (utf8 text)

theorem startsWith_iff {text front : String} :
    startsWith text front = true ↔ utf8 front <+: utf8 text :=
  List.isPrefixOf_iff_prefix

namespace StateTree

/-- `range(front..)`: the entries from `front` on, in key order. -/
def range (state : StateTree) (front : String) : List (String × List UInt8) :=
  state.entries.toList.filter fun entry => ¬ entry.1 < front

def iterPrefix (state : StateTree) (front : String) : List (String × List UInt8) :=
  (state.range front).takeWhile fun entry => startsWith entry.1 front

theorem entries_ascending (state : StateTree) :
    state.entries.toList.Pairwise fun earlier later => utf8 earlier.1 < utf8 later.1 := by
  apply Std.ExtTreeMap.ordered_keys_toList.imp
  intro earlier later compared
  exact utf8_lt_iff.mpr (compareOfLessAndEq_eq_lt.mp compared)

/-- A key with the front is not before it. -/
theorem not_lt_of_startsWith {key front : String} (leads : startsWith key front = true) :
    ¬ key < front := by
  intro before
  exact List.IsPrefix.le (startsWith_iff.mp leads) (utf8_lt_iff.mpr before)

/-- Stopping at the first other key loses nothing. -/
theorem iterPrefix_eq_filter (state : StateTree) (front : String) :
    state.iterPrefix front = state.entries.toList.filter fun entry => startsWith entry.1 front := by
  have ascending : (state.range front).Pairwise fun earlier later =>
      utf8 earlier.1 < utf8 later.1 := state.entries_ascending.filter _
  have closed : ∀ earlier ∈ state.range front, ∀ later ∈ state.range front,
      utf8 earlier.1 < utf8 later.1 →
        startsWith later.1 front = true → startsWith earlier.1 front = true := by
    intro earlier inside later _ below leads
    have least : ¬ utf8 earlier.1 < utf8 front := by
      rw [utf8_lt_iff]
      exact of_decide_eq_true (List.mem_filter.mp inside).2
    exact startsWith_iff.mpr
      (Lexicographic.prefix_of_between least below (startsWith_iff.mp leads))
  unfold iterPrefix
  rw [Lexicographic.takeWhile_eq_filter ascending closed]
  unfold range
  rw [List.filter_filter]
  apply List.filter_congr
  intro entry _
  rw [Bool.and_eq_left_iff_imp]
  intro leads
  exact decide_eq_true (not_lt_of_startsWith leads)

theorem iterPrefix_exact (state : StateTree) (front : String) :
    (state.iterPrefix front).Pairwise (fun earlier later => utf8 earlier.1 < utf8 later.1) ∧
      (state.iterPrefix front).Nodup ∧
      ∀ key value, (key, value) ∈ state.iterPrefix front ↔
        state.get key = some value ∧ utf8 front <+: utf8 key := by
  have ascending := state.entries_ascending.filter fun entry => startsWith entry.1 front
  rw [← iterPrefix_eq_filter] at ascending
  refine ⟨ascending, ?_, ?_⟩
  · apply ascending.imp
    intro earlier later below same
    rw [same] at below
    exact List.lt_irrefl _ below
  · intro key value
    rw [iterPrefix_eq_filter, List.mem_filter, startsWith_iff,
      Std.ExtTreeMap.mem_toList_iff_getElem?_eq_some]
    rfl

end StateTree

end Veilux
