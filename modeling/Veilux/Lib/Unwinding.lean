/-
Separation of a part of a deterministic machine from the rest.  Some inputs concern the part,
and a view of the state is all they read and change of it.  When the other inputs leave the
view, what the part sees of a run is what it sees of a run of its own inputs alone.
-/

import Veilux.Lib.Run

namespace Unwinding

variable {State Input Answer View : Type} (step : State → Input → State)
  (answer : State → Input → Answer) (concerns : Input → Bool)

/-- The answers to the inputs that concern the part. -/
def answers : State → List Input → List Answer
  | _, [] => []
  | state, input :: inputs =>
      if concerns input then answer state input :: answers (step state input) inputs
      else answers (step state input) inputs

/-- The other inputs leave the view, and the inputs of the part are answered from it. -/
structure Separates (view : State → View) : Prop where
  others : ∀ state input, concerns input = false → view (step state input) = view state
  answered : ∀ {first second} input, concerns input = true → view first = view second →
    answer first input = answer second input
  moved : ∀ {first second} input, concerns input = true → view first = view second →
    view (step first input) = view (step second input)

variable {step answer concerns} {view : State → View}

theorem Separates.purged (separates : Separates step answer concerns view) {first second : State}
    (same : view first = view second) (inputs : List Input) :
    answers step answer concerns first inputs =
        answers step answer concerns second (inputs.filter concerns) ∧
      view (Run.run step first inputs) = view (Run.run step second (inputs.filter concerns)) := by
  induction inputs generalizing first second with
  | nil => exact ⟨rfl, same⟩
  | cons input inputs ih =>
      cases own : concerns input with
      | true =>
          obtain ⟨listed, last⟩ := ih (separates.moved input own same)
          rw [List.filter_cons_of_pos own]
          refine ⟨?_, last⟩
          unfold answers
          rw [own, if_pos rfl, if_pos rfl, separates.answered input own same, listed]
      | false =>
          have left := separates.others first input own
          obtain ⟨listed, last⟩ := ih (left.trans same)
          rw [List.filter_cons_of_neg (by rw [own]; exact Bool.false_ne_true)]
          refine ⟨?_, last⟩
          rw [answers, own, if_neg Bool.false_ne_true]
          exact listed

end Unwinding
