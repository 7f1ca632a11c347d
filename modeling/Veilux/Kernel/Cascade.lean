/-
The cascade of `kernel/src/cascade.rs`: a command is handled by its prism, and
the commands derived from it are handled in rounds up to a fixed depth.
-/

import Veilux.Kernel.Prism

namespace Veilux

inductive CascadeError where
  | unknownPrism (name : String)
  | depthExceeded (limit : Nat)
  | prism (error : PrismError)
  deriving DecidableEq

structure CascadeReceipt where
  events : List Event
  totalCost : UInt64
  depth : Nat

def maxCascadeDepth : Nat := 8

/-- The installed prisms, looked up by name. -/
structure Cascade where
  prisms : AList (fun _ : String => Prism)

namespace Cascade

def empty : Cascade := ⟨∅⟩

def install (cascade : Cascade) (prism : Prism) : Cascade :=
  ⟨cascade.prisms.insert prism.name prism⟩

def has (cascade : Cascade) (name : String) : Bool := (cascade.prisms.lookup name).isSome

/-- What one round over the frontier has accumulated. -/
structure Round where
  events : List Event
  totalCost : UInt64
  next : List Command

/-- The `for cmd in frontier.drain(..)` loop. -/
def round (cascade : Cascade) : List Command → Round → StateTree →
    Except CascadeError Round × StateTree
  | [], acc, state => (.ok acc, state)
  | command :: rest, acc, state =>
      match cascade.prisms.lookup command.prism with
      | none => (.error (.unknownPrism command.prism), state)
      | some prism =>
          match (prism.handle command).run.run state with
          | (.error error, state) => (.error (.prism error), state)
          | (.ok output, state) =>
              cascade.round rest
                { events := acc.events ++ output.events
                  totalCost := acc.totalCost + output.cost
                  next := acc.next ++ output.derivedCommands } state

/-- The `while !frontier.is_empty()` loop with `left` rounds of depth remaining. -/
def rounds (cascade : Cascade) : Nat → List Command → CascadeReceipt → StateTree →
    Except CascadeError CascadeReceipt × StateTree
  | _, [], receipt, state => (.ok receipt, state)
  | 0, _ :: _, _, state => (.error (.depthExceeded maxCascadeDepth), state)
  | left + 1, frontier, receipt, state =>
      match cascade.round frontier ⟨receipt.events, receipt.totalCost, []⟩ state with
      | (.error error, state) => (.error error, state)
      | (.ok done, state) =>
          cascade.rounds left done.next
            { events := done.events
              totalCost := done.totalCost
              depth := receipt.depth + 1 } state

def apply (cascade : Cascade) (command : Command) (state : StateTree) :
    Except CascadeError CascadeReceipt × StateTree :=
  cascade.rounds maxCascadeDepth [command] ⟨[], 0, 0⟩ state

/-- A command that derives no others is done after one round. -/
theorem apply_single {cascade : Cascade} {prism : Prism} {command : Command}
    {state after : StateTree} {event : Event} {cost : UInt64}
    (installed : cascade.prisms.lookup command.prism = some prism)
    (handled : (prism.handle command).run.run state = (.ok (.single event cost), after)) :
    cascade.apply command state =
      (.ok
        { events := [event]
          totalCost := cost
          depth := 1 }, after) := by
  unfold apply maxCascadeDepth rounds round
  rw [installed]
  dsimp only
  rw [handled]
  simp only [PrismOutput.single, round, rounds, List.nil_append, UInt64.zero_add]

end Cascade

end Veilux
