/-
The `serde_json` boundary.  Serialization is modelled by the value each
`derive(Serialize)` writes; deserialization is a parameter, required only to
read back what was written.
-/

import Veilux.Lib.Json
import Veilux.Kernel.Crypto

namespace Veilux

/-- The JSON value written for a type.  Distinct values are written differently. -/
class Serialize (α : Type) where
  toJson : α → Json
  toJson_injective : Function.Injective toJson

export Serialize (toJson)

@[simp] theorem toJson_inj {α : Type} [Serialize α] {left right : α} :
    toJson left = toJson right ↔ left = right :=
  Serialize.toJson_injective.eq_iff

/-- `serde_json::to_vec`. -/
def toVec {α : Type} [Serialize α] (value : α) : List UInt8 := (toJson value).toVec

theorem toVec_injective {α : Type} [Serialize α] {left right : α}
    (same : toVec left = toVec right) : left = right :=
  Serialize.toJson_injective (Json.toVec_injective same)

/-- `serde_json::from_slice` with the text of its error. -/
class SerdeJson where
  fromSlice : (α : Type) → [Serialize α] → List UInt8 → Except String α
  fromSlice_toVec : ∀ (α : Type) [Serialize α] (value : α),
    fromSlice α (toVec value) = .ok value

export SerdeJson (fromSlice)

@[simp] theorem fromSlice_toVec {α : Type} [Serialize α] [SerdeJson] (value : α) :
    fromSlice α (toVec value) = .ok value :=
  SerdeJson.fromSlice_toVec α value

open Classical in
/-- A reader that accepts exactly the compact text the serializer writes. -/
@[reducible] noncomputable def SerdeJson.compact : SerdeJson where
  fromSlice α _ bytes :=
    if written : ∃ value : α, toVec value = bytes then .ok written.choose
    else .error "expected value at line 1 column 1"
  fromSlice_toVec α _ value := by
    have written : ∃ other : α, toVec other = toVec value := ⟨value, rfl⟩
    rw [dif_pos written]
    exact congrArg Except.ok (toVec_injective written.choose_spec)

/-! ### Primitive types -/

instance : Serialize Bool where
  toJson := .bool
  toJson_injective := fun _ _ same => Json.bool.inj same

instance : Serialize UInt8 where
  toJson value := .num value.toNat
  toJson_injective := fun _ _ same => UInt8.toNat_inj.mp (Json.num.inj same)

instance : Serialize UInt64 where
  toJson value := .num value.toNat
  toJson_injective := fun _ _ same => UInt64.toNat_inj.mp (Json.num.inj same)

/-- The `usize` and unbounded counters of the model. -/
instance : Serialize Nat where
  toJson := .num
  toJson_injective := fun _ _ same => Json.num.inj same

instance : Serialize String where
  toJson := .str
  toJson_injective := fun _ _ same => Json.str.inj same

instance {α : Type} [Serialize α] : Serialize (List α) where
  toJson values := .arr (values.map toJson)
  toJson_injective := fun _ _ same =>
    List.map_injective_iff.mpr Serialize.toJson_injective (Json.arr.inj same)

instance {α : Type} [Serialize α] {size : Nat} : Serialize (Vector α size) where
  toJson values := .arr (values.toList.map toJson)
  toJson_injective := fun _ _ same => Vector.toList_inj.mp
    (List.map_injective_iff.mpr Serialize.toJson_injective (Json.arr.inj same))

/-- The newtype around `[u8; 32]` is written as the array it wraps. -/
instance : Serialize Hash where
  toJson hash := toJson hash.bytes
  toJson_injective := by
    intro left right same
    cases left
    cases right
    congr 1
    exact Serialize.toJson_injective same

/-! ### 128-bit amounts -/

/-- `u128`; the arithmetic of `Fin` wraps as the release build does. -/
abbrev U128 := Fin (2 ^ 128)

namespace U128

instance neZero : NeZero (2 ^ 128) := ⟨by decide⟩

/-- `u128::to_string`. -/
def toText (value : U128) : String := Nat.repr value.val

/-- `str::parse::<u128>`: an optional plus sign, then decimal digits, in range. -/
def parse (text : String) : Option U128 :=
  let digits := if text.toList.head? = some '+' then text.toList.tail else text.toList
  if digits.isEmpty || !digits.all Char.isDigit then none
  else
    let value := Nat.ofDigitChars 10 digits 0
    if bound : value < 2 ^ 128 then some ⟨value, bound⟩ else none

theorem parse_toText (value : U128) : parse value.toText = some value := by
  have chars : value.toText.toList = Nat.toDigits 10 value.val := Nat.toList_repr
  have digits : ∀ char ∈ Nat.toDigits 10 value.val, char.isDigit = true :=
    fun _ member => Nat.isDigit_of_mem_toDigits (by decide) (by decide) member
  have noSign : (Nat.toDigits 10 value.val).head? ≠ some '+' := by
    intro sign
    have isDigit := digits '+' (List.mem_of_head? sign)
    exact absurd isDigit (by decide)
  have nonempty : (Nat.toDigits 10 value.val).isEmpty = false := by
    rw [List.isEmpty_eq_false_iff]
    exact Nat.toDigits_ne_nil
  have allDigits : (Nat.toDigits 10 value.val).all Char.isDigit = true :=
    List.all_eq_true.mpr digits
  simp only [parse, chars, if_neg noSign, nonempty, allDigits, Nat.ofDigitChars_ten_toDigits,
    Bool.not_true, Bool.or_self, Bool.false_eq_true, if_false, value.isLt, dif_pos]

theorem toText_injective {left right : U128} (same : left.toText = right.toText) :
    left = right := by
  have parsed := congrArg parse same
  rw [parse_toText, parse_toText] at parsed
  exact Option.some.inj parsed

def checkedAdd (left right : U128) : Option U128 :=
  if bound : left.val + right.val < 2 ^ 128 then some ⟨left.val + right.val, bound⟩ else none

def saturatingSub (left right : U128) : U128 :=
  ⟨left.val - right.val, Nat.lt_of_le_of_lt (Nat.sub_le _ _) left.isLt⟩

def ofNatSaturating (value : Nat) : U128 :=
  ⟨min value (2 ^ 128 - 1), by
    have upper := Nat.min_le_right value (2 ^ 128 - 1)
    omega⟩

def saturatingAdd (left right : U128) : U128 := ofNatSaturating (left.val + right.val)

def saturatingMul (left right : U128) : U128 := ofNatSaturating (left.val * right.val)

end U128

/-- The `u128_dec` helper writes an amount as a decimal string. -/
instance : Serialize U128 where
  toJson value := .str value.toText
  toJson_injective := fun _ _ same => U128.toText_injective (Json.str.inj same)

end Veilux
