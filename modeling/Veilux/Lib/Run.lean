/-
Runs of a deterministic step function, and the induction rule for invariants
along the runs whose steps all meet a condition on the state they start from.
-/

import Mathlib

namespace Run

variable {State Input : Type} (step : State → Input → State)

def run (start : State) (inputs : List Input) : State := inputs.foldl step start

@[simp] theorem run_nil (start : State) : run step start [] = start := rfl

@[simp] theorem run_cons (start : State) (input : Input) (inputs : List Input) :
    run step start (input :: inputs) = run step (step start input) inputs := rfl

theorem run_append (start : State) (front back : List Input) :
    run step start (front ++ back) = run step (run step start front) back :=
  List.foldl_append

theorem run_snoc (start : State) (inputs : List Input) (input : Input) :
    run step start (inputs ++ [input]) = step (run step start inputs) input :=
  run_append step start inputs [input]

/-- Every step of the run meets `allowed` in the state it is taken from. -/
def Along (allowed : State → Input → Prop) : State → List Input → Prop
  | _, [] => True
  | state, input :: inputs => allowed state input ∧ Along allowed (step state input) inputs

/-- The rule for invariants: one step preserves it, so every run does. -/
theorem invariant {allowed : State → Input → Prop} {holds : State → Prop}
    (preserved : ∀ state input, holds state → allowed state input → holds (step state input))
    {start : State} {inputs : List Input} (initially : holds start)
    (along : Along step allowed start inputs) : holds (run step start inputs) := by
  induction inputs generalizing start with
  | nil => exact initially
  | cons input inputs ih =>
      exact ih (preserved start input initially along.1) along.2

/-- An invariant can be used at every step of the run that preserves it. -/
theorem along_invariant {allowed : State → Input → Prop} {holds : State → Prop}
    (preserved : ∀ state input, holds state → allowed state input → holds (step state input))
    {start : State} {inputs : List Input} (initially : holds start)
    (along : Along step allowed start inputs) :
    Along step (fun state input => holds state ∧ allowed state input) start inputs := by
  induction inputs generalizing start with
  | nil => trivial
  | cons input inputs ih =>
      exact ⟨⟨initially, along.1⟩, ih (preserved start input initially along.1) along.2⟩

theorem along_append {allowed : State → Input → Prop} {start : State}
    {front back : List Input} :
    Along step allowed start (front ++ back) ↔
      Along step allowed start front ∧ Along step allowed (run step start front) back := by
  induction front generalizing start with
  | nil => exact ⟨fun along => ⟨trivial, along⟩, fun along => along.2⟩
  | cons input inputs ih =>
      simp only [List.cons_append, Along, run_cons, ih, and_assoc]

theorem along_mono {allowed weaker : State → Input → Prop}
    (implies : ∀ state input, allowed state input → weaker state input)
    {start : State} {inputs : List Input} (along : Along step allowed start inputs) :
    Along step weaker start inputs := by
  induction inputs generalizing start with
  | nil => trivial
  | cons input inputs ih => exact ⟨implies _ _ along.1, ih along.2⟩

/-- A condition along a run, said of every step of it. -/
theorem along_iff_splits {allowed : State → Input → Prop} {start : State} {inputs : List Input} :
    Along step allowed start inputs ↔
      ∀ front input back, inputs = front ++ input :: back →
        allowed (run step start front) input := by
  induction inputs generalizing start with
  | nil =>
      constructor
      · intro _ front input back split
        exact absurd split.symm (List.append_ne_nil_of_right_ne_nil _ (List.cons_ne_nil _ _))
      · exact fun _ => trivial
  | cons first rest ih =>
      constructor
      · rintro ⟨permitted, later⟩ front input back split
        cases front with
        | nil =>
            obtain ⟨rfl, _⟩ := List.cons.inj split
            exact permitted
        | cons head tail =>
            obtain ⟨rfl, remaining⟩ := List.cons.inj split
            exact ih.mp later tail input back remaining
      · intro each
        refine ⟨each [] first rest rfl, ih.mpr ?_⟩
        intro front input back split
        exact each (first :: front) input back (congrArg (List.cons first) split)

/-- A condition on every input is a condition on every step. -/
theorem along_and {allowed : State → Input → Prop} {proper : Input → Prop} {start : State}
    {inputs : List Input} (along : Along step allowed start inputs)
    (all : ∀ input ∈ inputs, proper input) :
    Along step (fun state input => allowed state input ∧ proper input) start inputs := by
  induction inputs generalizing start with
  | nil => trivial
  | cons input inputs ih =>
      exact ⟨⟨along.1, all input List.mem_cons_self⟩,
        ih along.2 fun other member => all other (List.mem_cons_of_mem _ member)⟩

/-- A list with a marked input splits at its first one. -/
theorem exists_first {marked : Input → Prop} {inputs : List Input} {input : Input}
    (member : input ∈ inputs) (isMarked : marked input) :
    ∃ front first back, inputs = front ++ first :: back ∧ marked first ∧
      ∀ other ∈ front, ¬ marked other := by
  induction inputs with
  | nil => cases member
  | cons head tail ih =>
      by_cases headMarked : marked head
      · refine ⟨[], head, tail, rfl, headMarked, ?_⟩
        intro other inside
        cases inside
      · have inTail : input ∈ tail := by
          rcases List.mem_cons.mp member with same | inTail
          · rw [same] at isMarked
            exact absurd isMarked headMarked
          · exact inTail
        obtain ⟨front, first, back, split, firstMarked, clean⟩ := ih inTail
        refine ⟨head :: front, first, back, ?_, firstMarked, ?_⟩
        · rw [split, List.cons_append]
        · intro other inside
          rcases List.mem_cons.mp inside with same | inFront
          · rw [same]
            exact headMarked
          · exact clean other inFront

end Run
