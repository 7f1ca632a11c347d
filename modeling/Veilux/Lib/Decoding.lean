/-
Instruction streams: a code is decoded from the left, each instruction followed by
as many operands as its first symbol says.  A position is where an instruction
starts or belongs to the operands of the one before, never both.
-/

import Mathlib

namespace Decoding

variable {α : Type} (width : α → Nat) (code : List α)

/-- Behind the instruction at a position. -/
def next (position : Nat) : Nat := position + 1 + (code[position]?).elim 0 width

/-- Instructions start here when the code is decoded from its first symbol. -/
def Start (position : Nat) : Prop := ∃ count, (next width code)^[count] 0 = position

/-- The symbol belongs to the operands of an instruction. -/
def Operand (position : Nat) : Prop :=
  ∃ start, Start width code start ∧ start < position ∧ position < next width code start

variable {width} {code}

theorem lt_next (position : Nat) : position < next width code position := by
  rw [next]
  omega

theorem next_eq {position : Nat} {symbol : α} (reads : code[position]? = some symbol) :
    next width code position = position + 1 + width symbol := by
  rw [next, reads]
  rfl

theorem start_zero : Start width code 0 := ⟨0, rfl⟩

theorem Start.next {position : Nat} (start : Start width code position) :
    Start width code (next width code position) := by
  obtain ⟨count, rfl⟩ := start
  exact ⟨count + 1, Function.iterate_succ_apply' _ _ _⟩

variable (width) (code) in
theorem iterate_strictMono (position : Nat) :
    StrictMono fun count => (next width code)^[count] position := by
  apply strictMono_nat_of_lt_succ
  intro count
  rw [Function.iterate_succ_apply']
  exact lt_next _

variable (width) (code) in
theorem le_iterate (count position : Nat) : position ≤ (next width code)^[count] position :=
  (iterate_strictMono width code position).monotone (Nat.zero_le count)

/-- Two starts are at least an instruction apart. -/
theorem Start.next_le {first second : Nat} (start : Start width code first)
    (other : Start width code second) (before : first < second) :
    Decoding.next width code first ≤ second := by
  obtain ⟨early, rfl⟩ := start
  obtain ⟨late, rfl⟩ := other
  have order : early < late := (iterate_strictMono width code 0).lt_iff_lt.mp before
  have further := (iterate_strictMono width code 0).monotone order
  simp only [Nat.succ_eq_add_one, Function.iterate_succ_apply'] at further
  exact further

theorem not_start_of_operand {position : Nat} (operand : Operand width code position) :
    ¬ Start width code position := by
  intro start
  obtain ⟨first, begins, after, inside⟩ := operand
  exact absurd (begins.next_le start after) (not_le.mpr inside)

theorem start_or_operand (position : Nat) :
    Start width code position ∨ Operand width code position := by
  induction position with
  | zero => exact .inl start_zero
  | succ position ih =>
      have extend {start : Nat} (begins : Start width code start) (before : start ≤ position)
          (inside : position < Decoding.next width code start) :
          Start width code (position + 1) ∨ Operand width code (position + 1) := by
        by_cases ends : Decoding.next width code start = position + 1
        · rw [← ends]
          exact .inl begins.next
        · exact .inr ⟨start, begins, by omega, by omega⟩
      cases ih with
      | inl start => exact extend start (le_refl _) (lt_next _)
      | inr operand =>
          obtain ⟨start, begins, before, inside⟩ := operand
          exact extend begins (by omega) inside

/-! ### Marking the starts in one pass -/

/-- One mark for each symbol, from the left; `skip` symbols are operands. -/
def marks (width : α → Nat) (wanted : α → Bool) : Nat → List α → List Bool
  | _, [] => []
  | 0, symbol :: rest => wanted symbol :: marks width wanted (width symbol) rest
  | skip + 1, _ :: rest => false :: marks width wanted skip rest

theorem marks_length (wanted : α → Bool) (skip : Nat) (code : List α) :
    (marks width wanted skip code).length = code.length := by
  induction code generalizing skip with
  | nil =>
      rw [marks]
      rfl
  | cons symbol rest ih =>
      cases skip with
      | zero => rw [marks, List.length_cons, ih, List.length_cons]
      | succ skip => rw [marks, List.length_cons, ih, List.length_cons]

/-- A pass over the symbols from `first` on, when the next start is `skip` further. -/
theorem marks_drop (wanted : α → Bool) {first : Nat} (skip index : Nat) {rest : List α}
    (here : code.drop first = rest) :
    (marks width wanted skip rest)[index]? = some true ↔
      (∃ symbol, code[first + index]? = some symbol ∧ wanted symbol = true) ∧
        ∃ count, (next width code)^[count] (first + skip) = first + index := by
  induction rest generalizing first skip index with
  | nil =>
      have short : code.length ≤ first := List.drop_eq_nil_iff.mp here
      have missing : code[first + index]? = none := List.getElem?_eq_none (by omega)
      simp [marks, missing]
  | cons symbol rest ih =>
      have reads : code[first]? = some symbol := by
        rw [← List.head?_drop, here]
        rfl
      have tail : code.drop (first + 1) = rest := by
        rw [← List.tail_drop, here]
        rfl
      cases skip with
      | zero =>
          cases index with
          | zero =>
              rw [marks, List.getElem?_cons_zero, Nat.add_zero, reads]
              constructor
              · intro marked
                exact ⟨⟨symbol, rfl, Option.some.inj marked⟩, 0, rfl⟩
              · rintro ⟨⟨other, same, marked⟩, _⟩
                rw [Option.some.inj same, marked]
          | succ index =>
              have shifted : first + (index + 1) = first + 1 + index := by omega
              rw [marks, List.getElem?_cons_succ, ih _ _ tail, shifted, Nat.add_zero,
                ← next_eq reads]
              refine and_congr_right fun _ => ?_
              constructor
              · rintro ⟨count, landed⟩
                exact ⟨count + 1, landed⟩
              · rintro ⟨count, landed⟩
                cases count with
                | zero =>
                    rw [Function.iterate_zero_apply] at landed
                    omega
                | succ count => exact ⟨count, landed⟩
      | succ skip =>
          cases index with
          | zero =>
              rw [marks, List.getElem?_cons_zero, Nat.add_zero]
              constructor
              · intro marked
                cases marked
              · rintro ⟨_, count, landed⟩
                have beyond := le_iterate width code count (first + (skip + 1))
                omega
          | succ index =>
              have shifted : first + (index + 1) = first + 1 + index := by omega
              have start : first + (skip + 1) = first + 1 + skip := by omega
              rw [marks, List.getElem?_cons_succ, ih _ _ tail, shifted, start]

/-- The marks are at the starts of the wanted instructions. -/
theorem marks_iff (wanted : α → Bool) (position : Nat) :
    (marks width wanted 0 code)[position]? = some true ↔
      (∃ symbol, code[position]? = some symbol ∧ wanted symbol = true) ∧
        Start width code position := by
  have pass := @marks_drop _ width _ wanted 0 0 position code List.drop_zero
  rw [Nat.zero_add, Nat.zero_add] at pass
  exact pass

end Decoding
