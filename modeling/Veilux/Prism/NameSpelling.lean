/-
Spellings of a name.  Exactly the texts that are a valid label up to surrounding white
space, ASCII case and the top-level suffix are accepted, and all spellings of a label
are normalized to one name.
-/

import Veilux.Prism.Name

namespace Veilux

namespace NamePrism

open Bytes (utf8)

/-- `.veil`. -/
def suffix : List Char := '.' :: rootTld.toList

/-- A label the name service accepts. -/
structure ValidLabel (label : List Char) : Prop where
  nonempty : label ≠ []
  short : (utf8 (String.ofList label)).length ≤ maxLabelLen
  chars : ∀ char ∈ label, labelChar char = true
  head : label.head? ≠ some '-'
  last : label.getLast? ≠ some '-'

/-- A text with the label inside white space, in any case, with or without the suffix. -/
def Spells (label : List Char) (raw : String) : Prop :=
  ∃ front core back, raw.toList = front ++ core ++ back ∧
    (∀ char ∈ front, isWhiteSpace char = true) ∧ (∀ char ∈ back, isWhiteSpace char = true) ∧
    (core.map asciiLower = label ∨ core.map asciiLower = label ++ suffix)

/-- The name of a label. -/
def nameOf (label : List Char) : String := String.ofList label ++ "." ++ rootTld

/-! ### Characters -/

theorem toNat_asciiLower (char : Char) :
    (asciiLower char).toNat =
      if 65 ≤ char.toNat ∧ char.toNat ≤ 90 then char.toNat + 32 else char.toNat := by
  unfold asciiLower
  have range : ('A' ≤ char ∧ char ≤ 'Z') ↔ (65 ≤ char.toNat ∧ char.toNat ≤ 90) := Iff.rfl
  by_cases upper : 65 ≤ char.toNat ∧ char.toNat ≤ 90
  · rw [if_pos (range.mpr upper), if_pos upper]
    have valid : (char.toNat + 32).isValidChar := Or.inl (by omega)
    rw [Char.toNat_ofNat, if_pos valid]
  · rw [if_neg fun both => upper (range.mp both), if_neg upper]

theorem isWhiteSpace_asciiLower (char : Char) :
    isWhiteSpace (asciiLower char) = isWhiteSpace char := by
  unfold isWhiteSpace
  rw [toNat_asciiLower]
  dsimp only
  split
  · rw [Bool.eq_iff_iff]
    simp only [Bool.or_eq_true, Bool.and_eq_true, decide_eq_true_eq]
    omega
  · rfl

theorem labelChar_iff (char : Char) :
    labelChar char = true ↔ (97 ≤ char.toNat ∧ char.toNat ≤ 122) ∨
      (48 ≤ char.toNat ∧ char.toNat ≤ 57) ∨ char.toNat = 45 := by
  unfold labelChar
  have dash : char = '-' ↔ char.toNat = 45 := by
    constructor
    · rintro rfl
      rfl
    · intro same
      exact Char.toNat_inj.mp same
  simp only [Bool.or_eq_true, Bool.and_eq_true, decide_eq_true_eq, dash, or_assoc]
  exact Iff.rfl

theorem labelChar_not_space {char : Char} (label : labelChar char = true) :
    isWhiteSpace char = false := by
  rw [labelChar_iff] at label
  unfold isWhiteSpace
  rw [Bool.eq_false_iff]
  simp only [ne_eq, Bool.or_eq_true, Bool.and_eq_true, decide_eq_true_eq]
  omega

theorem asciiLower_labelChar {char : Char} (label : labelChar char = true) :
    asciiLower char = char := by
  rw [labelChar_iff] at label
  apply Char.toNat_inj.mp
  rw [toNat_asciiLower, if_neg (by omega)]

theorem labelChar_ne_dot {char : Char} (label : labelChar char = true) : char ≠ '.' := by
  rintro rfl
  exact absurd label (by decide)

theorem suffix_eq : suffix = ['.', 'v', 'e', 'i', 'l'] := by decide

theorem suffix_not_space {char : Char} (member : char ∈ suffix) : isWhiteSpace char = false := by
  rw [suffix_eq] at member
  simp only [List.mem_cons, List.not_mem_nil, or_false] at member
  rcases member with rfl | rfl | rfl | rfl | rfl
  · rfl
  · rfl
  · rfl
  · rfl
  · rfl

/-! ### Trimming -/

/-- White space is dropped up to the first other character. -/
theorem dropWhile_append {front rest : List Char}
    (blank : ∀ char ∈ front, isWhiteSpace char = true)
    (clean : ∀ char, rest.head? = some char → isWhiteSpace char = false) :
    (front ++ rest).dropWhile isWhiteSpace = rest := by
  induction front with
  | nil =>
      cases rest with
      | nil => rfl
      | cons first others =>
          rw [List.nil_append, List.dropWhile_cons, clean first rfl]
          rfl
  | cons first others ih =>
      rw [List.cons_append, List.dropWhile_cons, blank first List.mem_cons_self]
      exact ih fun char member => blank char (List.mem_cons_of_mem _ member)

theorem trim_append {front core back : List Char}
    (blankFront : ∀ char ∈ front, isWhiteSpace char = true)
    (blankBack : ∀ char ∈ back, isWhiteSpace char = true) (nonempty : core ≠ [])
    (first : ∀ char, core.head? = some char → isWhiteSpace char = false)
    (last : ∀ char, core.getLast? = some char → isWhiteSpace char = false) :
    trim (front ++ core ++ back) = core := by
  unfold trim
  rw [List.append_assoc, dropWhile_append blankFront]
  · rw [List.reverse_append, dropWhile_append, List.reverse_reverse]
    · intro char member
      exact blankBack char (List.mem_reverse.mp member)
    · intro char found
      rw [List.head?_reverse] at found
      exact last char found
  · intro char found
    rw [List.head?_append_of_ne_nil _ nonempty] at found
    exact first char found

/-- A text is what is left of it between two pieces of white space. -/
theorem trim_split (text : List Char) :
    ∃ front back, text = front ++ trim text ++ back ∧
      (∀ char ∈ front, isWhiteSpace char = true) ∧
      (∀ char ∈ back, isWhiteSpace char = true) := by
  have frontSplit := List.takeWhile_append_dropWhile (p := isWhiteSpace) (l := text)
  have backSplit := List.takeWhile_append_dropWhile (p := isWhiteSpace)
    (l := (text.dropWhile isWhiteSpace).reverse)
  refine ⟨text.takeWhile isWhiteSpace,
    ((text.dropWhile isWhiteSpace).reverse.takeWhile isWhiteSpace).reverse, ?_, ?_, ?_⟩
  · have middle := congrArg List.reverse backSplit
    rw [List.reverse_append, List.reverse_reverse] at middle
    unfold trim
    rw [List.append_assoc, middle, frontSplit]
  · exact fun char member => List.mem_takeWhile_imp member
  · exact fun char member => List.mem_takeWhile_imp (List.mem_reverse.mp member)

/-! ### The suffix -/

theorem stripSuffix_append (text : List Char) : stripSuffix (text ++ suffix) suffix = text := by
  unfold stripSuffix
  rw [if_pos (List.suffix_append _ _), List.length_append, Nat.add_sub_cancel, List.take_left]

theorem stripSuffix_label {text : List Char} (chars : ∀ char ∈ text, labelChar char = true) :
    stripSuffix text suffix = text := by
  unfold stripSuffix
  rw [if_neg]
  intro ends
  have dot : '.' ∈ text := ends.subset List.mem_cons_self
  exact labelChar_ne_dot (chars '.' dot) rfl

/-- A text is what is left of it, with or without the suffix. -/
theorem stripSuffix_cases (text : List Char) :
    text = stripSuffix text suffix ∨ text = stripSuffix text suffix ++ suffix := by
  unfold stripSuffix
  split
  · rename_i ends
    right
    obtain ⟨front, rfl⟩ := ends
    rw [List.length_append, Nat.add_sub_cancel, List.take_left]
  · exact .inl rfl

/-! ### Names -/

theorem nameOf_toList (label : List Char) : (nameOf label).toList = label ++ suffix := by
  unfold nameOf suffix
  rw [String.toList_append, String.toList_append, String.toList_ofList, List.append_assoc]
  rfl

theorem nameOf_injective {left right : List Char} (same : nameOf left = nameOf right) :
    left = right := by
  have texts := congrArg String.toList same
  rw [nameOf_toList, nameOf_toList] at texts
  exact List.append_cancel_right texts

theorem label_spells (raw : String) : Spells (label raw) raw := by
  obtain ⟨front, back, split, blankFront, blankBack⟩ := trim_split raw.toList
  exact ⟨front, trim raw.toList, back, split, blankFront, blankBack, stripSuffix_cases _⟩

theorem ValidLabel.not_space {text : List Char} (valid : ValidLabel text) {char : Char}
    (member : char ∈ text ++ suffix) : isWhiteSpace char = false := by
  rcases List.mem_append.mp member with inLabel | inSuffix
  · exact labelChar_not_space (valid.chars char inLabel)
  · exact suffix_not_space inSuffix

/-- A text spells one valid label at most. -/
theorem label_of_spells {text : List Char} {raw : String} (valid : ValidLabel text)
    (spells : Spells text raw) : label raw = text := by
  obtain ⟨front, core, back, split, blankFront, blankBack, cores⟩ := spells
  have clean : ∀ char ∈ core, isWhiteSpace char = false := by
    intro char member
    rw [← isWhiteSpace_asciiLower]
    have lowered := List.mem_map_of_mem (f := asciiLower) member
    apply valid.not_space
    rcases cores with plain | suffixed
    · rw [plain] at lowered
      exact List.mem_append_left _ lowered
    · rw [suffixed] at lowered
      exact lowered
  have nonempty : core ≠ [] := by
    rintro rfl
    rcases cores with plain | suffixed
    · exact valid.nonempty plain.symm
    · exact valid.nonempty (List.append_eq_nil_iff.mp suffixed.symm).1
  have trimmed : trim raw.toList = core := by
    rw [split]
    exact trim_append blankFront blankBack nonempty
      (fun char found => clean char (List.mem_of_mem_head? found))
      (fun char found => clean char (List.mem_of_getLast? found))
  unfold label
  rw [trimmed]
  change stripSuffix (core.map asciiLower) suffix = text
  rcases cores with plain | suffixed
  · rw [plain]
    exact stripSuffix_label valid.chars
  · rw [suffixed]
    exact stripSuffix_append text

theorem normalize_label (raw : String) (name : String) :
    normalize raw = .ok name ↔ ValidLabel (label raw) ∧ name = nameOf (label raw) := by
  unfold normalize
  dsimp only
  generalize label raw = text
  constructor
  · intro accepted
    split at accepted
    · cases accepted
    · rename_i sized
      split at accepted
      · cases accepted
      · rename_i chars
        split at accepted
        · cases accepted
        · rename_i dashes
          rw [not_or] at sized dashes
          refine ⟨⟨?_, Nat.not_lt.mp sized.2, ?_, dashes.1, dashes.2⟩, ?_⟩
          · rintro rfl
            exact sized.1 rfl
          · exact List.all_eq_true.mp (of_not_not chars)
          · exact (Except.ok.inj accepted).symm
  · rintro ⟨valid, rfl⟩
    have sized : ¬ (text.isEmpty = true ∨ maxLabelLen < (utf8 (String.ofList text)).length) := by
      rintro (empty | long)
      · exact valid.nonempty (List.isEmpty_iff.mp empty)
      · exact Nat.not_lt.mpr valid.short long
    have chars : ¬ ¬ text.all labelChar = true := not_not_intro (List.all_eq_true.mpr valid.chars)
    have dashes : ¬ (text.head? = some '-' ∨ text.getLast? = some '-') :=
      not_or.mpr ⟨valid.head, valid.last⟩
    rw [if_neg sized, if_neg chars, if_neg dashes]
    rfl

/-- The accepted texts are the spellings of the valid labels, and a spelling is normalized
to the name of its label. -/
theorem normalize_iff (raw name : String) :
    normalize raw = .ok name ↔ ∃ text, ValidLabel text ∧ Spells text raw ∧ name = nameOf text := by
  rw [normalize_label]
  constructor
  · rintro ⟨valid, named⟩
    exact ⟨label raw, valid, label_spells raw, named⟩
  · rintro ⟨text, valid, spells, named⟩
    rw [label_of_spells valid spells]
    exact ⟨valid, named⟩

theorem spells_nameOf {text : List Char} (valid : ValidLabel text) : Spells text (nameOf text) := by
  refine ⟨[], text ++ suffix, [], ?_, nofun, nofun, .inr ?_⟩
  · rw [nameOf_toList, List.nil_append, List.append_nil]
  · rw [List.map_append]
    congr 1
    exact (List.map_congr_left fun char member => asciiLower_labelChar (valid.chars char member)).trans
      (List.map_id' text)

theorem normalize_idempotent {raw name : String} (accepted : normalize raw = .ok name) :
    normalize name = .ok name := by
  obtain ⟨text, valid, _, rfl⟩ := (normalize_iff raw name).mp accepted
  exact (normalize_iff _ _).mpr ⟨text, valid, spells_nameOf valid, rfl⟩

end NamePrism

end Veilux
