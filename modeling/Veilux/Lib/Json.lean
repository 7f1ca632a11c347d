/-
Compact JSON text.  `Json.print` writes a value the way a compact serializer
does: no white space, fields in the order given, control characters escaped.
`print_front` is the fact behind every use of the text: a printed value can be
read back from the front of any continuation that does not start with a digit.
-/

import Veilux.Lib.Bytes

/-- JSON values; `num` holds the unsigned integers. -/
inductive Json where
  | null
  | bool (value : Bool)
  | num (value : Nat)
  | str (text : String)
  | arr (items : List Json)
  | obj (fields : List (String × Json))

namespace Json

def quote : Char := Char.ofNat 0x22
def backslash : Char := Char.ofNat 0x5c

/-- Short escapes for quote, backslash, `\b`, `\t`, `\n`, `\f` and `\r`; the other
control characters are written `\u00xx`. -/
def escapeChar (char : Char) : List Char :=
  if char = quote then [backslash, quote]
  else if char = backslash then [backslash, backslash]
  else if char.toNat = 0x08 then [backslash, 'b']
  else if char.toNat = 0x09 then [backslash, 't']
  else if char.toNat = 0x0a then [backslash, 'n']
  else if char.toNat = 0x0c then [backslash, 'f']
  else if char.toNat = 0x0d then [backslash, 'r']
  else if char.toNat < 0x20 then
    [backslash, 'u', '0', '0', Bytes.hexDigit (char.toNat / 16), Bytes.hexDigit (char.toNat % 16)]
  else [char]

def printString (text : String) : List Char :=
  quote :: text.toList.flatMap escapeChar ++ [quote]

mutual

def print : Json → List Char
  | .null => ['n', 'u', 'l', 'l']
  | .bool true => ['t', 'r', 'u', 'e']
  | .bool false => ['f', 'a', 'l', 's', 'e']
  | .num value => Nat.toDigits 10 value
  | .str text => printString text
  | .arr [] => ['[', ']']
  | .arr (item :: items) => '[' :: (print item ++ printItems items)
  | .obj [] => [Char.ofNat 0x7b, Char.ofNat 0x7d]
  | .obj ((name, value) :: fields) =>
      Char.ofNat 0x7b :: (printString name ++ ':' :: (print value ++ printFields fields))

/-- The items after the first, with the separators and the closing bracket. -/
def printItems : List Json → List Char
  | [] => [']']
  | item :: items => ',' :: (print item ++ printItems items)

def printFields : List (String × Json) → List Char
  | [] => [Char.ofNat 0x7d]
  | (name, value) :: fields =>
      ',' :: (printString name ++ ':' :: (print value ++ printFields fields))

end

/-! ### Reading a printed value back -/

/-- A continuation that cannot extend a printed number. -/
def Closed (rest : List Char) : Prop := ∀ char ∈ rest.head?, char.isDigit = false

private theorem closed_cons {char : Char} (rest : List Char) (stop : char.isDigit = false) :
    Closed (char :: rest) := by
  intro other member
  have same : other = char := (Option.some.inj member).symm
  rw [same]
  exact stop

private theorem closed_printItems (items : List Json) (rest : List Char) :
    Closed (printItems items ++ rest) := by
  cases items with
  | nil => exact closed_cons _ (by decide)
  | cons item items => exact closed_cons _ (by decide)

private theorem closed_printFields (fields : List (String × Json)) (rest : List Char) :
    Closed (printFields fields ++ rest) := by
  cases fields with
  | nil => exact closed_cons _ (by decide)
  | cons field fields => exact closed_cons _ (by decide)

private theorem digits_front {left right leftRest rightRest : List Char}
    (leftDigits : ∀ char ∈ left, char.isDigit = true)
    (rightDigits : ∀ char ∈ right, char.isDigit = true)
    (leftClosed : Closed leftRest) (rightClosed : Closed rightRest)
    (same : left ++ leftRest = right ++ rightRest) :
    left = right ∧ leftRest = rightRest := by
  induction left generalizing right with
  | nil =>
      cases right with
      | nil => exact ⟨rfl, same⟩
      | cons char right =>
          have digit := rightDigits char List.mem_cons_self
          have stop := leftClosed char (by
            rw [show leftRest = char :: (right ++ rightRest) from same]
            rfl)
          rw [digit] at stop
          cases stop
  | cons char left ih =>
      cases right with
      | nil =>
          have digit := leftDigits char List.mem_cons_self
          have stop := rightClosed char (by
            rw [show rightRest = char :: (left ++ leftRest) from same.symm]
            rfl)
          rw [digit] at stop
          cases stop
      | cons other right =>
          obtain ⟨headSame, tailSame⟩ := List.cons.inj same
          obtain ⟨restSame, tail⟩ := ih
            (fun item member => leftDigits item (List.mem_cons_of_mem char member))
            (fun item member => rightDigits item (List.mem_cons_of_mem other member)) tailSame
          exact ⟨by rw [headSame, restSame], tail⟩

private theorem toDigits_front {left right : Nat} {leftRest rightRest : List Char}
    (leftClosed : Closed leftRest) (rightClosed : Closed rightRest)
    (same : Nat.toDigits 10 left ++ leftRest = Nat.toDigits 10 right ++ rightRest) :
    left = right ∧ leftRest = rightRest := by
  obtain ⟨digits, rest⟩ := digits_front
    (fun _ member => Nat.isDigit_of_mem_toDigits (by decide) (by decide) member)
    (fun _ member => Nat.isDigit_of_mem_toDigits (by decide) (by decide) member)
    leftClosed rightClosed same
  have values := congrArg (fun chars => Nat.ofDigitChars 10 chars 0) digits
  simp only [Nat.ofDigitChars_ten_toDigits] at values
  exact ⟨values, rest⟩

/-- What an escape starts with decides which of its three shapes it has. -/
private theorem escapeChar_cases (char : Char) :
    (∃ mark, escapeChar char = [backslash, mark] ∧ mark ≠ 'u' ∧
      (mark, char.toNat) ∈ [(quote, 0x22), (backslash, 0x5c), ('b', 0x08), ('t', 0x09),
        ('n', 0x0a), ('f', 0x0c), ('r', 0x0d)]) ∨
    (char.toNat < 0x20 ∧ escapeChar char = [backslash, 'u', '0', '0',
      Bytes.hexDigit (char.toNat / 16), Bytes.hexDigit (char.toNat % 16)]) ∨
    (char ≠ quote ∧ char ≠ backslash ∧ escapeChar char = [char]) := by
  unfold escapeChar
  by_cases isQuote : char = quote
  · exact Or.inl ⟨quote, by simp [isQuote], by decide, by simp [isQuote, quote]⟩
  rw [if_neg isQuote]
  by_cases isBackslash : char = backslash
  · exact Or.inl ⟨backslash, by simp [isBackslash], by decide, by simp [isBackslash, backslash]⟩
  rw [if_neg isBackslash]
  split
  · exact Or.inl ⟨'b', rfl, by decide, by simp [*]⟩
  split
  · exact Or.inl ⟨'t', rfl, by decide, by simp [*]⟩
  split
  · exact Or.inl ⟨'n', rfl, by decide, by simp [*]⟩
  split
  · exact Or.inl ⟨'f', rfl, by decide, by simp [*]⟩
  split
  · exact Or.inl ⟨'r', rfl, by decide, by simp [*]⟩
  split
  · rename_i control
    exact Or.inr (Or.inl ⟨control, rfl⟩)
  · exact Or.inr (Or.inr ⟨isQuote, isBackslash, rfl⟩)

private theorem char_eq_of_toNat {left right : Char} (same : left.toNat = right.toNat) :
    left = right := by
  rw [← Char.ofNat_toNat left, ← Char.ofNat_toNat right, same]

private theorem mark_unique {mark : Char} {left right : Nat}
    (leftMember : (mark, left) ∈ [(quote, 0x22), (backslash, 0x5c), ('b', 0x08), ('t', 0x09),
        ('n', 0x0a), ('f', 0x0c), ('r', 0x0d)])
    (rightMember : (mark, right) ∈ [(quote, 0x22), (backslash, 0x5c), ('b', 0x08), ('t', 0x09),
        ('n', 0x0a), ('f', 0x0c), ('r', 0x0d)]) : left = right := by
  simp only [List.mem_cons, List.not_mem_nil, or_false, Prod.mk.injEq] at leftMember rightMember
  rcases leftMember with ⟨rfl, rfl⟩ | ⟨rfl, rfl⟩ | ⟨rfl, rfl⟩ | ⟨rfl, rfl⟩ | ⟨rfl, rfl⟩ |
    ⟨rfl, rfl⟩ | ⟨rfl, rfl⟩ <;>
  rcases rightMember with ⟨same, rfl⟩ | ⟨same, rfl⟩ | ⟨same, rfl⟩ | ⟨same, rfl⟩ | ⟨same, rfl⟩ |
    ⟨same, rfl⟩ | ⟨same, rfl⟩ <;>
  first
    | rfl
    | exact absurd same (by decide)

private theorem escapeChar_front {left right : Char} {leftRest rightRest : List Char}
    (same : escapeChar left ++ leftRest = escapeChar right ++ rightRest) :
    left = right ∧ leftRest = rightRest := by
  rcases escapeChar_cases left with ⟨mark, leftShape, notU, leftMember⟩ |
    ⟨leftControl, leftShape⟩ | ⟨_, leftPlain, leftShape⟩ <;>
  rcases escapeChar_cases right with ⟨other, rightShape, otherNotU, rightMember⟩ |
    ⟨rightControl, rightShape⟩ | ⟨_, rightPlain, rightShape⟩ <;>
  rw [leftShape, rightShape] at same <;>
  simp only [List.cons_append, List.nil_append, List.cons.injEq, true_and] at same
  · obtain ⟨markSame, restSame⟩ := same
    subst markSame
    exact ⟨char_eq_of_toNat (mark_unique leftMember rightMember), restSame⟩
  · exact absurd same.1 notU
  · exact absurd same.1.symm rightPlain
  · exact absurd same.1.symm otherNotU
  · obtain ⟨highSame, lowSame, restSame⟩ := same
    have high := Bytes.hexDigit_injective (by omega) (by omega) highSame
    have low := Bytes.hexDigit_injective (by omega) (by omega) lowSame
    exact ⟨char_eq_of_toNat (by omega), restSame⟩
  · exact absurd same.1.symm rightPlain
  · exact absurd same.1 leftPlain
  · exact absurd same.1 leftPlain
  · exact same

private theorem escapeChar_not_quote (char : Char) (tail rest : List Char) :
    escapeChar char ++ tail ≠ quote :: rest := by
  intro same
  rcases escapeChar_cases char with ⟨mark, shape, _, _⟩ | ⟨_, shape⟩ | ⟨notQuote, _, shape⟩ <;>
    rw [shape] at same
  · exact absurd (List.cons.inj same).1 (by decide)
  · exact absurd (List.cons.inj same).1 (by decide)
  · exact notQuote (List.cons.inj same).1

private theorem escaped_front {left right leftRest rightRest : List Char}
    (same : left.flatMap escapeChar ++ quote :: leftRest =
      right.flatMap escapeChar ++ quote :: rightRest) :
    left = right ∧ leftRest = rightRest := by
  induction left generalizing right with
  | nil =>
      cases right with
      | nil => exact ⟨rfl, (List.cons.inj same).2⟩
      | cons char right =>
          rw [List.flatMap_cons, List.append_assoc] at same
          exact absurd same.symm (escapeChar_not_quote char _ _)
  | cons char left ih =>
      rw [List.flatMap_cons, List.append_assoc] at same
      cases right with
      | nil => exact absurd same (escapeChar_not_quote char _ _)
      | cons other right =>
          rw [List.flatMap_cons, List.append_assoc] at same
          obtain ⟨headSame, tailSame⟩ := escapeChar_front same
          obtain ⟨restSame, tail⟩ := ih tailSame
          exact ⟨by rw [headSame, restSame], tail⟩

theorem printString_front {left right : String} {leftRest rightRest : List Char}
    (same : printString left ++ leftRest = printString right ++ rightRest) :
    left = right ∧ leftRest = rightRest := by
  simp only [printString, List.cons_append, List.append_assoc, List.nil_append,
    List.cons.injEq, true_and] at same
  obtain ⟨text, rest⟩ := escaped_front same
  exact ⟨String.toList_inj.mp text, rest⟩

private theorem toDigits_head (value : Nat) :
    ∃ char rest, Nat.toDigits 10 value = char :: rest ∧ char.isDigit = true := by
  cases digits : Nat.toDigits 10 value with
  | nil => exact absurd digits Nat.toDigits_ne_nil
  | cons char rest =>
      have member : char ∈ Nat.toDigits 10 value := by
        rw [digits]
        exact List.mem_cons_self
      exact ⟨char, rest, rfl, Nat.isDigit_of_mem_toDigits (by decide) (by decide) member⟩

/-- The first character of a printed value. -/
private def opening : Json → Char
  | .null => 'n'
  | .bool true => 't'
  | .bool false => 'f'
  | .num value => (Nat.toDigits 10 value).headD '0'
  | .str _ => quote
  | .arr _ => '['
  | .obj _ => Char.ofNat 0x7b

private theorem print_opening (value : Json) : ∃ rest, print value = opening value :: rest := by
  cases value with
  | null => exact ⟨_, rfl⟩
  | bool value => cases value <;> exact ⟨_, rfl⟩
  | num value =>
      obtain ⟨char, rest, digits, _⟩ := toDigits_head value
      exact ⟨rest, by simp only [print, opening, digits, List.headD_cons]⟩
  | str text => exact ⟨_, rfl⟩
  | arr items => cases items <;> exact ⟨_, rfl⟩
  | obj fields => cases fields <;> exact ⟨_, rfl⟩

/-- Two values with the same opening character have the same constructor. -/
private theorem opening_num {value : Nat} {other : Json}
    (same : opening (.num value) = opening other) : ∃ number, other = .num number := by
  obtain ⟨char, rest, digits, digit⟩ := toDigits_head value
  have head : opening other = char := by
    rw [← same]
    simp only [opening, digits, List.headD_cons]
  rw [← head] at digit
  cases other with
  | num number => exact ⟨number, rfl⟩
  | bool flag => cases flag <;> exact absurd digit (by decide)
  | _ => exact absurd digit (by simp only [opening]; decide)

private theorem opening_of_front {left right : Json} {leftRest rightRest : List Char}
    (same : print left ++ leftRest = print right ++ rightRest) : opening left = opening right := by
  obtain ⟨leftTail, leftText⟩ := print_opening left
  obtain ⟨rightTail, rightText⟩ := print_opening right
  rw [leftText, rightText] at same
  exact (List.cons.inj same).1

private theorem opening_ne_bracket (value : Json) (rest tail : List Char) :
    print value ++ rest ≠ ']' :: tail := by
  obtain ⟨body, text⟩ := print_opening value
  rw [text]
  intro same
  have head : opening value = ']' := (List.cons.inj same).1
  cases value with
  | num number =>
      obtain ⟨char, digitsRest, digits, digit⟩ := toDigits_head number
      simp only [opening, digits, List.headD_cons] at head
      rw [head] at digit
      exact absurd digit (by decide)
  | bool flag => cases flag <;> exact absurd head (by decide)
  | _ => exact absurd head (by simp only [opening]; decide)

mutual

/-- A printed value is determined by any text it is a front part of. -/
theorem print_front (left right : Json) (leftRest rightRest : List Char)
    (leftClosed : Closed leftRest) (rightClosed : Closed rightRest)
    (same : print left ++ leftRest = print right ++ rightRest) :
    left = right ∧ leftRest = rightRest := by
  have head := opening_of_front same
  match left, right with
  | .num value, other =>
      obtain ⟨number, rfl⟩ := opening_num head
      simp only [print] at same
      obtain ⟨values, rests⟩ := toDigits_front leftClosed rightClosed same
      exact ⟨by rw [values], rests⟩
  | value, .num number =>
      obtain ⟨other, rfl⟩ := opening_num head.symm
      simp only [print] at same
      obtain ⟨values, rests⟩ := toDigits_front leftClosed rightClosed same
      exact ⟨by rw [values], rests⟩
  | .null, .null => exact ⟨rfl, by simpa [print] using same⟩
  | .bool true, .bool true => exact ⟨rfl, by simpa [print] using same⟩
  | .bool false, .bool false => exact ⟨rfl, by simpa [print] using same⟩
  | .str text, .str other =>
      simp only [print] at same
      obtain ⟨texts, rests⟩ := printString_front same
      exact ⟨by rw [texts], rests⟩
  | .arr [], .arr [] => exact ⟨rfl, by simpa [print] using same⟩
  | .arr (item :: items), .arr (other :: others) =>
      simp only [print, List.cons_append, List.append_assoc, List.cons.injEq, true_and] at same
      obtain ⟨itemSame, tailSame⟩ := print_front item other _ _
        (closed_printItems items leftRest) (closed_printItems others rightRest) same
      obtain ⟨itemsSame, rests⟩ := printItems_front items others leftRest rightRest tailSame
      exact ⟨by rw [itemSame, itemsSame], rests⟩
  | .arr [], .arr (other :: others) =>
      simp only [print, List.cons_append, List.append_assoc, List.nil_append, List.cons.injEq,
        true_and] at same
      exact absurd same.symm (opening_ne_bracket other _ _)
  | .arr (item :: items), .arr [] =>
      simp only [print, List.cons_append, List.append_assoc, List.nil_append, List.cons.injEq,
        true_and] at same
      exact absurd same (opening_ne_bracket item _ _)
  | .obj [], .obj [] => exact ⟨rfl, by simpa [print] using same⟩
  | .obj ((name, value) :: fields), .obj ((other, found) :: others) =>
      simp only [print, List.cons_append, List.append_assoc, List.cons.injEq, true_and] at same
      obtain ⟨nameSame, afterName⟩ := printString_front same
      obtain ⟨valueSame, tailSame⟩ := print_front value found _ _
        (closed_printFields fields leftRest) (closed_printFields others rightRest)
        (List.cons.inj afterName).2
      obtain ⟨fieldsSame, rests⟩ := printFields_front fields others leftRest rightRest tailSame
      exact ⟨by rw [nameSame, valueSame, fieldsSame], rests⟩
  | .obj [], .obj ((other, found) :: others) =>
      simp only [print, printString, List.cons_append, List.nil_append, List.cons.injEq,
        true_and] at same
      exact absurd same.1 (by decide)
  | .obj ((name, value) :: fields), .obj [] =>
      simp only [print, printString, List.cons_append, List.nil_append, List.cons.injEq,
        true_and] at same
      exact absurd same.1 (by decide)

theorem printItems_front (left right : List Json) (leftRest rightRest : List Char)
    (same : printItems left ++ leftRest = printItems right ++ rightRest) :
    left = right ∧ leftRest = rightRest := by
  match left, right with
  | [], [] => exact ⟨rfl, (List.cons.inj same).2⟩
  | [], _ :: _ => exact absurd (List.cons.inj same).1 (by decide)
  | _ :: _, [] => exact absurd (List.cons.inj same).1 (by decide)
  | item :: items, other :: others =>
      simp only [printItems, List.cons_append, List.append_assoc, List.cons.injEq,
        true_and] at same
      obtain ⟨itemSame, tailSame⟩ := print_front item other _ _
        (closed_printItems items leftRest) (closed_printItems others rightRest) same
      obtain ⟨itemsSame, rests⟩ := printItems_front items others leftRest rightRest tailSame
      exact ⟨by rw [itemSame, itemsSame], rests⟩

theorem printFields_front (left right : List (String × Json)) (leftRest rightRest : List Char)
    (same : printFields left ++ leftRest = printFields right ++ rightRest) :
    left = right ∧ leftRest = rightRest := by
  match left, right with
  | [], [] => exact ⟨rfl, (List.cons.inj same).2⟩
  | [], (_, _) :: _ => exact absurd (List.cons.inj same).1 (by decide)
  | (_, _) :: _, [] => exact absurd (List.cons.inj same).1 (by decide)
  | (name, value) :: fields, (other, found) :: others =>
      simp only [printFields, List.cons_append, List.append_assoc, List.cons.injEq,
        true_and] at same
      obtain ⟨nameSame, afterName⟩ := printString_front same
      obtain ⟨valueSame, tailSame⟩ := print_front value found _ _
        (closed_printFields fields leftRest) (closed_printFields others rightRest)
        (List.cons.inj afterName).2
      obtain ⟨fieldsSame, rests⟩ := printFields_front fields others leftRest rightRest tailSame
      exact ⟨by rw [nameSame, valueSame, fieldsSame], rests⟩

end

/-- The text written for a value, as bytes. -/
def toVec (value : Json) : List UInt8 := Bytes.utf8 (String.ofList (print value))

theorem toVec_injective {left right : Json} (same : toVec left = toVec right) : left = right := by
  have text : print left = print right := by
    have strings := congrArg String.toList (Bytes.utf8_injective same)
    simpa only [String.toList_ofList] using strings
  have empty : Closed [] := by
    intro char member
    cases member
  exact (print_front left right [] [] empty empty (by rw [text])).1

end Json
