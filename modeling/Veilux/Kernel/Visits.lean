/-
Which handlers a cascade runs, and on what.  Two cascades that treat each of
these visits alike end alike, so replaying a block needs agreement on the visits
of its own execution only.
-/

import Veilux.Kernel.Cascade

namespace Veilux

namespace Cascade

/-- The commands a round hands to prisms, each with the state it meets. -/
def roundVisits (cascade : Cascade) : List Command → StateTree → List (Command × StateTree)
  | [], _ => []
  | command :: rest, state =>
      (command, state) ::
        match cascade.prisms.lookup command.prism with
        | none => []
        | some prism =>
            match (prism.handle command).run.run state with
            | (.error _, _) => []
            | (.ok _, state) => cascade.roundVisits rest state

def roundsVisits (cascade : Cascade) : Nat → List Command → CascadeReceipt → StateTree →
    List (Command × StateTree)
  | _, [], _, _ => []
  | 0, _ :: _, _, _ => []
  | left + 1, frontier, receipt, state =>
      cascade.roundVisits frontier state ++
        match cascade.round frontier ⟨receipt.events, receipt.totalCost, []⟩ state with
        | (.error _, _) => []
        | (.ok done, state) =>
            cascade.roundsVisits left done.next
              { events := done.events
                totalCost := done.totalCost
                depth := receipt.depth + 1 } state

def visits (cascade : Cascade) (command : Command) (state : StateTree) :
    List (Command × StateTree) :=
  cascade.roundsVisits maxCascadeDepth [command] ⟨[], 0, 0⟩ state

/-- Both cascades know the command's prism and it does the same, or neither does. -/
def Alike (left right : Cascade) (visit : Command × StateTree) : Prop :=
  match left.prisms.lookup visit.1.prism, right.prisms.lookup visit.1.prism with
  | none, none => True
  | some first, some second =>
      (first.handle visit.1).run.run visit.2 = (second.handle visit.1).run.run visit.2
  | _, _ => False

theorem round_eq {left right : Cascade} {commands : List Command} {acc : Round}
    {state : StateTree} (alike : ∀ visit ∈ left.roundVisits commands state, Alike left right visit) :
    left.round commands acc state = right.round commands acc state := by
  induction commands generalizing acc state with
  | nil => rfl
  | cons command rest ih =>
      have here := alike (command, state) List.mem_cons_self
      unfold Alike at here
      unfold round
      unfold roundVisits at alike
      dsimp only at here
      cases first : left.prisms.lookup command.prism with
      | none =>
          rw [first] at here
          cases second : right.prisms.lookup command.prism with
          | none => rfl
          | some other =>
              rw [second] at here
              exact absurd here id
      | some prism =>
          rw [first] at here alike
          cases second : right.prisms.lookup command.prism with
          | none =>
              rw [second] at here
              exact absurd here id
          | some other =>
              rw [second] at here
              dsimp only at here ⊢
              rw [← here]
              dsimp only at alike
              cases ran : (prism.handle command).run.run state with
              | mk result after =>
                  rw [ran] at alike
                  cases result with
                  | error error => rfl
                  | ok output =>
                      exact ih fun visit member => alike visit (List.mem_cons_of_mem _ member)

theorem rounds_eq {left right : Cascade} {fuel : Nat} {frontier : List Command}
    {receipt : CascadeReceipt} {state : StateTree}
    (alike : ∀ visit ∈ left.roundsVisits fuel frontier receipt state, Alike left right visit) :
    left.rounds fuel frontier receipt state = right.rounds fuel frontier receipt state := by
  induction fuel generalizing frontier receipt state with
  | zero =>
      cases frontier with
      | nil => rfl
      | cons command rest => rfl
  | succ fuel ih =>
      cases frontier with
      | nil => rfl
      | cons command rest =>
          unfold roundsVisits at alike
          unfold rounds
          have same := @round_eq left right (command :: rest)
            ⟨receipt.events, receipt.totalCost, []⟩ state
            fun visit member => alike visit (List.mem_append_left _ member)
          rw [← same]
          cases ran : left.round (command :: rest) ⟨receipt.events, receipt.totalCost, []⟩ state with
          | mk result after =>
              rw [ran] at alike
              cases result with
              | error error => rfl
              | ok done =>
                  exact ih fun visit member => alike visit (List.mem_append_right _ member)

/-- Cascades that treat the visits alike give the command the same result. -/
theorem apply_eq {left right : Cascade} {command : Command} {state : StateTree}
    (alike : ∀ visit ∈ left.visits command state, Alike left right visit) :
    left.apply command state = right.apply command state :=
  rounds_eq alike

/-- A command that derives no others is the only visit. -/
theorem visits_single {cascade : Cascade} {prism : Prism} {command : Command}
    {state after : StateTree} {event : Event} {cost : UInt64}
    (installed : cascade.prisms.lookup command.prism = some prism)
    (handled : (prism.handle command).run.run state = (.ok (.single event cost), after)) :
    cascade.visits command state = [(command, state)] := by
  unfold visits maxCascadeDepth roundsVisits roundVisits round
  rw [installed]
  dsimp only
  rw [handled]
  simp only [PrismOutput.single, round, roundVisits, roundsVisits, List.nil_append,
    List.append_nil]

end Cascade

end Veilux
