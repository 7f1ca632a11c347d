/-
Byte strings: fixed-width little-endian integers, UTF-8 text and lower-case
hexadecimal text.  Each encoding is given with the injectivity statement that
key construction and signed payloads rely on.
-/

import Mathlib

namespace Bytes

/-- The `width` low-order bytes of `value`, least significant first. -/
def leBytes : Nat → Nat → List UInt8
  | 0, _ => []
  | width + 1, value => UInt8.ofNat value :: leBytes width (value / 256)

@[simp] theorem leBytes_length (width value : Nat) :
    (leBytes width value).length = width := by
  induction width generalizing value with
  | zero => rfl
  | succ width ih => simp only [leBytes, List.length_cons, ih]

theorem leBytes_injective {width left right : Nat}
    (leftBound : left < 256 ^ width) (rightBound : right < 256 ^ width)
    (same : leBytes width left = leBytes width right) : left = right := by
  induction width generalizing left right with
  | zero =>
      simp only [Nat.pow_zero, Nat.lt_one_iff] at leftBound rightBound
      rw [leftBound, rightBound]
  | succ width ih =>
      obtain ⟨lowSame, highSame⟩ := List.cons.inj same
      have lowEqual : left % 256 = right % 256 := by
        simpa using congrArg UInt8.toNat lowSame
      rw [Nat.pow_succ] at leftBound rightBound
      have highEqual : left / 256 = right / 256 :=
        ih (Nat.div_lt_of_lt_mul (by omega)) (Nat.div_lt_of_lt_mul (by omega)) highSame
      omega

/-- The number with these low-order-first bytes. -/
def ofLeBytes : List UInt8 → Nat
  | [] => 0
  | byte :: rest => byte.toNat + 256 * ofLeBytes rest

theorem ofLeBytes_leBytes (width value : Nat) :
    ofLeBytes (leBytes width value) = value % 256 ^ width := by
  induction width generalizing value with
  | zero => rw [leBytes, ofLeBytes, Nat.pow_zero, Nat.mod_one]
  | succ width ih =>
      rw [leBytes, ofLeBytes, ih, Nat.pow_succ, Nat.mul_comm (256 ^ width) 256, Nat.mod_mul]
      rfl

/-- The UTF-8 bytes of a text. -/
def utf8 (text : String) : List UInt8 := text.toByteArray.data.toList

theorem utf8_injective {left right : String} (same : utf8 left = utf8 right) :
    left = right := by
  have data : left.toByteArray.data = right.toByteArray.data := by
    apply Array.toList_inj.mp
    exact same
  apply String.toByteArray_inj.mp
  exact ByteArray.ext data

/-! ### Hexadecimal text -/

def hexDigit (value : Nat) : Char :=
  if value < 10 then Char.ofNat (48 + value) else Char.ofNat (87 + value)

theorem hexDigit_injective {left right : Nat} (leftBound : left < 16)
    (rightBound : right < 16) (same : hexDigit left = hexDigit right) : left = right := by
  revert leftBound rightBound same
  have table : ∀ a : Fin 16, ∀ b : Fin 16, hexDigit a.val = hexDigit b.val → a = b := by
    decide
  intro leftBound rightBound same
  exact congrArg Fin.val (table ⟨left, leftBound⟩ ⟨right, rightBound⟩ same)

theorem hexDigit_ne_slash {value : Nat} (bound : value < 16) :
    hexDigit value ≠ Char.ofNat 47 := by
  have table : ∀ a : Fin 16, hexDigit a.val ≠ Char.ofNat 47 := by decide
  exact table ⟨value, bound⟩

def hexByte (byte : UInt8) : List Char :=
  [hexDigit (byte.toNat / 16), hexDigit (byte.toNat % 16)]

def hexChars (bytes : List UInt8) : List Char := bytes.flatMap hexByte

def hexEncode (bytes : List UInt8) : String := String.ofList (hexChars bytes)

@[simp] theorem hexChars_length (bytes : List UInt8) :
    (hexChars bytes).length = 2 * bytes.length := by
  induction bytes with
  | nil => rfl
  | cons byte rest ih =>
      simp only [hexChars, List.flatMap_cons, List.length_append, List.length_cons] at ih ⊢
      rw [ih]
      simp only [hexByte, List.length_cons, List.length_nil]
      omega

theorem hexByte_injective {left right : UInt8} (same : hexByte left = hexByte right) :
    left = right := by
  obtain ⟨highSame, rest⟩ := List.cons.inj same
  obtain ⟨lowSame, _⟩ := List.cons.inj rest
  have leftBound := left.toNat_lt
  have rightBound := right.toNat_lt
  have high := hexDigit_injective (by omega) (by omega) highSame
  have low := hexDigit_injective (by omega) (by omega) lowSame
  apply UInt8.toNat_inj.mp
  omega

theorem hexChars_injective {left right : List UInt8}
    (same : hexChars left = hexChars right) : left = right := by
  induction left generalizing right with
  | nil =>
      cases right with
      | nil => rfl
      | cons byte rest => cases same
  | cons byte rest ih =>
      cases right with
      | nil => cases same
      | cons other others =>
          have split : hexByte byte ++ hexChars rest = hexByte other ++ hexChars others := same
          obtain ⟨headSame, tailSame⟩ := List.append_inj split rfl
          rw [hexByte_injective headSame, ih tailSame]

/-- The value of a digit of either case. -/
def hexValue (char : Char) : Option Nat :=
  if '0' ≤ char ∧ char ≤ '9' then some (char.toNat - 48)
  else if 'a' ≤ char ∧ char ≤ 'f' then some (char.toNat - 87)
  else if 'A' ≤ char ∧ char ≤ 'F' then some (char.toNat - 55)
  else none

/-- `hex::decode`: pairs of digits; an odd digit or another character is an error. -/
def hexDecode : List Char → Option (List UInt8)
  | [] => some []
  | [_] => none
  | high :: low :: rest =>
      match hexValue high, hexValue low, hexDecode rest with
      | some upper, some lower, some bytes => some (UInt8.ofNat (16 * upper + lower) :: bytes)
      | _, _, _ => none

/-- `trim_start_matches("0x")`: every leading `0x` is dropped. -/
def trimHex : List Char → List Char
  | '0' :: 'x' :: rest => trimHex rest
  | text => text

theorem hexValue_hexDigit {value : Nat} (bound : value < 16) :
    hexValue (hexDigit value) = some value := by
  have table : ∀ a : Fin 16, hexValue (hexDigit a.val) = some a.val := by
    decide
  exact table ⟨value, bound⟩

theorem hexDecode_hexChars (bytes : List UInt8) : hexDecode (hexChars bytes) = some bytes := by
  induction bytes with
  | nil => rfl
  | cons byte rest ih =>
      have bound := byte.toNat_lt
      change hexDecode (hexDigit (byte.toNat / 16) :: hexDigit (byte.toNat % 16) ::
        hexChars rest) = _
      rw [hexDecode, hexValue_hexDigit (by omega), hexValue_hexDigit (by omega), ih]
      dsimp only
      have joined : 16 * (byte.toNat / 16) + byte.toNat % 16 = byte.toNat := by
        omega
      rw [joined, UInt8.ofNat_toNat]

/-- A plain hexadecimal text has nothing to trim. -/
theorem trimHex_hexChars (bytes : List UInt8) : trimHex (hexChars bytes) = hexChars bytes := by
  have table : ∀ a : Fin 16, hexDigit a.val ≠ 'x' := by
    decide
  cases bytes with
  | nil => rfl
  | cons byte rest =>
      have bound := byte.toNat_lt
      have low : hexDigit (byte.toNat % 16) ≠ 'x' := table ⟨byte.toNat % 16, by omega⟩
      change trimHex (hexDigit (byte.toNat / 16) :: hexDigit (byte.toNat % 16) :: hexChars rest) = _
      unfold trimHex
      split
      · rename_i trimmed same
        exact absurd (List.cons.inj (List.cons.inj same).2).1 low
      · rfl

theorem mem_hexChars_ne_slash {bytes : List UInt8} {char : Char}
    (member : char ∈ hexChars bytes) : char ≠ Char.ofNat 47 := by
  obtain ⟨byte, _, inByte⟩ := List.mem_flatMap.mp member
  have bound := byte.toNat_lt
  simp only [hexByte, List.mem_cons, List.not_mem_nil, or_false] at inByte
  rcases inByte with same | same <;>
    · rw [same]
      exact hexDigit_ne_slash (by omega)

end Bytes
