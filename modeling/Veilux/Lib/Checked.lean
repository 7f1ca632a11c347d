/-
Code that can panic.  A computation fails with an error of its own, panics (a slice out of
bounds, an overflow) or is cut off; one that settles does neither of the last two, and what
it returns is as promised.
-/

import Mathlib.Algebra.Group.Nat.Defs
import Mathlib.Data.List.Basic

inductive Fault (E : Type) where
  | failed (error : E)
  | panicked
  | exhausted

abbrev Checked (E A : Type) : Type := Except (Fault E) A

namespace Checked

variable {E A B : Type}

/-- It returns something good, or an error of its own. -/
def Settles (good : A → Prop) : Checked E A → Prop
  | .ok value => good value
  | .error (.failed _) => True
  | .error .panicked => False
  | .error .exhausted => False

@[simp] theorem settles_ok {good : A → Prop} {value : A} :
    Settles good (.ok value : Checked E A) ↔ good value := Iff.rfl

@[simp] theorem settles_failed {good : A → Prop} (error : E) :
    Settles good (.error (.failed error) : Checked E A) := trivial

theorem Settles.cases {good : A → Prop} {result : Checked E A} (settled : Settles good result) :
    (∃ error, result = .error (.failed error)) ∨ ∃ value, result = .ok value ∧ good value := by
  cases result with
  | ok value => exact .inr ⟨value, rfl, settled⟩
  | error fault =>
      cases fault with
      | failed error => exact .inl ⟨error, rfl⟩
      | panicked => exact settled.elim
      | exhausted => exact settled.elim

/-- The rule for sequences. -/
theorem Settles.bind {known : A → Prop} {good : B → Prop} {first : Checked E A}
    {next : A → Checked E B} (settled : Settles known first)
    (following : ∀ value, known value → Settles good (next value)) :
    Settles good (first >>= next) := by
  rcases settled.cases with ⟨error, rfl⟩ | ⟨value, rfl, holds⟩
  · trivial
  · exact following value holds

/-! ### Machine integers and slices -/

/-- `ok_or(error)?`. -/
def orFail (error : E) : Option A → Checked E A
  | none => .error (.failed error)
  | some value => .ok value

/-- `+` on `usize`. -/
def usizeAdd (left right : Nat) : Checked E Nat :=
  if left + right < 2 ^ 64 then .ok (left + right) else .error .panicked

def checkedAdd (left right : Nat) : Option Nat :=
  if left + right < 2 ^ 64 then some (left + right) else none

/-- `-` on `u8`. -/
def byteSub (left right : UInt8) : Checked E UInt8 :=
  if right ≤ left then .ok (left - right) else .error .panicked

/-- `(value << 8) | byte` on `usize`; a bit shifted out counts as an overflow. -/
def shiftIn (value : Nat) (byte : UInt8) : Checked E Nat :=
  if value * 256 + byte.toNat < 2 ^ 64 then .ok (value * 256 + byte.toNat) else .error .panicked

/-- `bytes.get(first..last)`. -/
def slice (bytes : List UInt8) (first last : Nat) : Option (List UInt8) :=
  if first ≤ last ∧ last ≤ bytes.length then some ((bytes.drop first).take (last - first)) else none

/-- `&bytes[start..]`. -/
def sliceFrom (bytes : List UInt8) (start : Nat) : Checked E (List UInt8) :=
  if start ≤ bytes.length then .ok (bytes.drop start) else .error .panicked

theorem settles_usizeAdd {left right : Nat} (fits : left + right < 2 ^ 64) :
    Settles (· = left + right) (usizeAdd left right : Checked E Nat) := by
  unfold usizeAdd
  rw [if_pos fits]
  rfl

theorem settles_checkedAdd (error : E) (left right : Nat) :
    Settles (· = left + right) (orFail error (checkedAdd left right)) := by
  unfold checkedAdd
  split
  · rfl
  · trivial

theorem settles_byteSub {left right : UInt8} (below : right ≤ left) :
    Settles (· = left - right) (byteSub left right : Checked E UInt8) := by
  unfold byteSub
  rw [if_pos below]
  rfl

theorem settles_shiftIn {value : Nat} {byte : UInt8} (fits : value * 256 + byte.toNat < 2 ^ 64) :
    Settles (· = value * 256 + byte.toNat) (shiftIn value byte : Checked E Nat) := by
  unfold shiftIn
  rw [if_pos fits]
  rfl

theorem settles_slice (error : E) (bytes : List UInt8) (first last : Nat) :
    Settles (fun part => first ≤ last ∧ last ≤ bytes.length ∧
      part = (bytes.drop first).take (last - first)) (orFail error (slice bytes first last)) := by
  unfold slice
  split
  · next inside => exact ⟨inside.1, inside.2, rfl⟩
  · trivial

theorem settles_sliceFrom {bytes : List UInt8} {start : Nat} (inside : start ≤ bytes.length) :
    Settles (· = bytes.drop start) (sliceFrom bytes start : Checked E (List UInt8)) := by
  unfold sliceFrom
  rw [if_pos inside]
  rfl

end Checked
