/-
Strings of 16-bit code units.  A text is written as UTF-16 and read back by code points;
`encode` is the UTF-8 of a string of code units and `stringify` its JSON quotation, both
defined on every string, with the texts among them.
-/

import Veilux.Lib.Json

namespace Utf16

/-- A string as a sequence of code units. -/
abbrev Units := List UInt16

/-! ### Code points -/

def isLeading (unit : UInt16) : Bool := 0xd800 ≤ unit.toNat && unit.toNat ≤ 0xdbff

def isTrailing (unit : UInt16) : Bool := 0xdc00 ≤ unit.toNat && unit.toNat ≤ 0xdfff

/-- The code point of a leading and a trailing surrogate. -/
def pairPoint (first second : UInt16) : Nat :=
  (first.toNat - 0xd800) * 0x400 + (second.toNat - 0xdc00) + 0x10000

/-- The code points of a string; a surrogate without its partner stands for itself. -/
def codePoints : Units → List Nat
  | [] => []
  | [unit] => [unit.toNat]
  | first :: second :: rest =>
      if isLeading first && isTrailing second then pairPoint first second :: codePoints rest
      else first.toNat :: codePoints (second :: rest)

/-- One code unit, or the two surrogates of a code point above the first 65536. -/
def unitsOf (point : Nat) : Units :=
  if point ≤ 0xffff then [UInt16.ofNat point]
  else
    [UInt16.ofNat ((point - 0x10000) / 0x400 + 0xd800),
      UInt16.ofNat ((point - 0x10000) % 0x400 + 0xdc00)]

def ofChars (chars : List Char) : Units := chars.flatMap fun char => unitsOf char.toNat

/-- A text as a string of code units. -/
def ofText (text : String) : Units := ofChars text.toList

theorem ofChars_append (left right : List Char) :
    ofChars (left ++ right) = ofChars left ++ ofChars right :=
  List.flatMap_append

theorem char_range (char : Char) :
    char.toNat < 0xd800 ∨ 0xdfff < char.toNat ∧ char.toNat < 0x110000 :=
  char.valid

theorem codePoints_single {unit : UInt16} (plain : isLeading unit = false) (rest : Units) :
    codePoints (unit :: rest) = unit.toNat :: codePoints rest := by
  cases rest with
  | nil => rfl
  | cons second rest => simp [codePoints, plain]

/-- What was written of a code point is read back, whatever follows. -/
theorem codePoints_unitsOf (char : Char) (rest : Units) :
    codePoints (unitsOf char.toNat ++ rest) = char.toNat :: codePoints rest := by
  have range := char_range char
  unfold unitsOf
  split
  · next small =>
      have value : (UInt16.ofNat char.toNat).toNat = char.toNat := by
        rw [UInt16.toNat_ofNat']
        omega
      have plain : isLeading (UInt16.ofNat char.toNat) = false := by
        unfold isLeading
        rw [value]
        simp only [Bool.and_eq_false_iff, decide_eq_false_iff_not]
        omega
      rw [List.singleton_append, codePoints_single plain, value]
  · next large =>
      have first : (UInt16.ofNat ((char.toNat - 0x10000) / 0x400 + 0xd800)).toNat =
          (char.toNat - 0x10000) / 0x400 + 0xd800 := by
        rw [UInt16.toNat_ofNat']
        omega
      have second : (UInt16.ofNat ((char.toNat - 0x10000) % 0x400 + 0xdc00)).toNat =
          (char.toNat - 0x10000) % 0x400 + 0xdc00 := by
        rw [UInt16.toNat_ofNat']
        omega
      have leading : isLeading (UInt16.ofNat ((char.toNat - 0x10000) / 0x400 + 0xd800)) =
          true := by
        unfold isLeading
        rw [first]
        simp only [Bool.and_eq_true, decide_eq_true_eq]
        omega
      have trailing : isTrailing (UInt16.ofNat ((char.toNat - 0x10000) % 0x400 + 0xdc00)) =
          true := by
        unfold isTrailing
        rw [second]
        simp only [Bool.and_eq_true, decide_eq_true_eq]
        omega
      simp only [List.cons_append, List.nil_append, codePoints, leading, trailing, Bool.and_self,
        if_true]
      have point : ((char.toNat - 0x10000) / 0x400 + 0xd800 - 0xd800) * 0x400 +
          ((char.toNat - 0x10000) % 0x400 + 0xdc00 - 0xdc00) + 0x10000 = char.toNat := by
        omega
      rw [pairPoint, first, second, point]

theorem codePoints_ofChars (chars : List Char) :
    codePoints (ofChars chars) = chars.map Char.toNat := by
  induction chars with
  | nil => rfl
  | cons char chars ih =>
      change codePoints (unitsOf char.toNat ++ ofChars chars) = _
      rw [codePoints_unitsOf, ih, List.map_cons]

/-! ### UTF-8 -/

/-- The scalar value of a code point; a lone surrogate is replaced. -/
def scalar (point : Nat) : Char :=
  if valid : point.isValidChar then Char.ofNatAux point valid else Char.ofNat 0xfffd

def encode (units : Units) : List UInt8 :=
  (codePoints units).flatMap fun point => String.utf8EncodeChar (scalar point)

theorem scalar_toNat (char : Char) : scalar char.toNat = char := by
  have valid : char.toNat.isValidChar := char.valid
  unfold scalar
  rw [dif_pos valid]
  rfl

/-- Of a text, the encoding is its UTF-8. -/
theorem encode_ofChars (chars : List Char) :
    encode (ofChars chars) = Bytes.utf8 (String.ofList chars) := by
  unfold encode Bytes.utf8
  rw [codePoints_ofChars, ← String.utf8Encode_toList, List.utf8Encode, List.data_toByteArray,
    List.toList_toArray, String.toList_ofList, List.flatMap_map]
  simp only [scalar_toNat]

theorem encode_ofText (text : String) : encode (ofText text) = Bytes.utf8 text := by
  unfold ofText
  rw [encode_ofChars, String.ofList_toList]

/-- No surrogate is without its partner. -/
def WellFormed (units : Units) : Prop := ∀ point ∈ codePoints units, point.isValidChar

theorem unitsOf_pairPoint {first second : UInt16} (leading : isLeading first = true)
    (trailing : isTrailing second = true) : unitsOf (pairPoint first second) = [first, second] := by
  simp only [isLeading, isTrailing, Bool.and_eq_true, decide_eq_true_eq] at leading trailing
  have large : ¬ pairPoint first second ≤ 0xffff := by
    unfold pairPoint
    omega
  have high : (pairPoint first second - 0x10000) / 0x400 + 0xd800 = first.toNat := by
    unfold pairPoint
    omega
  have low : (pairPoint first second - 0x10000) % 0x400 + 0xdc00 = second.toNat := by
    unfold pairPoint
    omega
  rw [unitsOf, if_neg large, high, low, UInt16.ofNat_toNat, UInt16.ofNat_toNat]

theorem unitsOf_unit (unit : UInt16) : unitsOf unit.toNat = [unit] := by
  have bound := unit.toNat_lt
  rw [unitsOf, if_pos (by omega), UInt16.ofNat_toNat]

/-- A well-formed string is written from its code points. -/
theorem flatMap_unitsOf (units : Units) : (codePoints units).flatMap unitsOf = units := by
  induction units using codePoints.induct with
  | case1 => rfl
  | case2 unit => simp [codePoints, unitsOf_unit]
  | case3 first second rest pair ih =>
      rw [Bool.and_eq_true] at pair
      simp [codePoints, pair.1, pair.2, unitsOf_pairPoint, ih]
  | case4 first second rest lone ih =>
      rw [codePoints, if_neg lone, List.flatMap_cons, unitsOf_unit, ih]
      rfl

theorem ofText_codePoints {units : Units} (wellFormed : WellFormed units) :
    ofText (String.ofList ((codePoints units).map scalar)) = units := by
  unfold ofText ofChars
  rw [String.toList_ofList, List.flatMap_map]
  conv => rhs; rw [← flatMap_unitsOf units]
  apply List.flatMap_congr
  intro point member
  have valid := wellFormed point member
  have value : (scalar point).toNat = point := by
    unfold scalar
    rw [dif_pos valid]
    rfl
  rw [value]

/-! ### JSON -/

/-- `\u` and four hexadecimal digits. -/
def unicodeEscape (point : Nat) : List Char :=
  [Json.backslash, 'u', Bytes.hexDigit (point / 0x1000), Bytes.hexDigit (point / 0x100 % 0x10),
    Bytes.hexDigit (point / 0x10 % 0x10), Bytes.hexDigit (point % 0x10)]

/-- The quotation of one code point. -/
def quotePoint (point : Nat) : Units :=
  if point = 0x08 then ofChars [Json.backslash, 'b']
  else if point = 0x09 then ofChars [Json.backslash, 't']
  else if point = 0x0a then ofChars [Json.backslash, 'n']
  else if point = 0x0c then ofChars [Json.backslash, 'f']
  else if point = 0x0d then ofChars [Json.backslash, 'r']
  else if point = 0x22 then ofChars [Json.backslash, Json.quote]
  else if point = 0x5c then ofChars [Json.backslash, Json.backslash]
  else if point < 0x20 ∨ 0xd800 ≤ point ∧ point ≤ 0xdfff then ofChars (unicodeEscape point)
  else unitsOf point

def stringify (units : Units) : Units :=
  ofChars [Json.quote] ++ (codePoints units).flatMap quotePoint ++ ofChars [Json.quote]

theorem quotePoint_toNat (char : Char) :
    quotePoint char.toNat = ofChars (Json.escapeChar char) := by
  have range := char_range char
  have single : unitsOf char.toNat = ofChars [char] := by
    simp [ofChars]
  have quoted : char = Json.quote ↔ char.toNat = 0x22 :=
    ⟨fun same => same ▸ rfl, fun same => Char.toNat_inj.mp same⟩
  have slashed : char = Json.backslash ↔ char.toNat = 0x5c :=
    ⟨fun same => same ▸ rfl, fun same => Char.toNat_inj.mp same⟩
  unfold quotePoint Json.escapeChar
  simp only [quoted, slashed]
  split
  · next same => simp [same]
  · split
    · next same => simp [same]
    · split
      · next same => simp [same]
      · split
        · next same => simp [same]
        · split
          · next same => simp [same]
          · split
            · rfl
            · split
              · rfl
              · split
                · next control =>
                    have low : char.toNat < 0x20 := by omega
                    have high : char.toNat / 0x1000 = 0 := by omega
                    have middle : char.toNat / 0x100 % 0x10 = 0 := by omega
                    have second : char.toNat / 0x10 % 0x10 = char.toNat / 16 := by omega
                    rw [if_pos low, unicodeEscape, high, middle, second]
                    rfl
                · next printable =>
                    have high : ¬ char.toNat < 0x20 := fun low => printable (.inl low)
                    rw [if_neg high, single]

/-- Of a text, the quotation is its JSON string. -/
theorem stringify_ofText (text : String) :
    stringify (ofText text) = ofChars (Json.printString text) := by
  unfold stringify ofText Json.printString
  rw [codePoints_ofChars, List.flatMap_map]
  simp only [quotePoint_toNat, ofChars, List.flatMap_assoc, List.flatMap_append,
    List.flatMap_cons, List.flatMap_nil, List.append_nil, List.cons_append, List.append_assoc]

end Utf16
