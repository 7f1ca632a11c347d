/-
What the outputs of handlers add up to.  Where every output costs at most a bound
and derives at most one command, the total cost of a cascade does not wrap, so it
covers any work that each single cost covers.
-/

import Veilux.Kernel.Visits

namespace Veilux

namespace PrismM

variable {α β : Type} {holds : α → Prop} {wanted : β → Prop}

/-- Whatever the action returns has the property. -/
def Yields (holds : α → Prop) (action : PrismM α) : Prop :=
  ∀ state value after, Accepts action state value after → holds value

theorem yields_pure {value : α} (here : holds value) : Yields holds (pure value) := by
  intro state result after accepted
  rw [accepts_pure] at accepted
  rw [← accepted.1]
  exact here

theorem yields_throw (error : PrismError) : Yields holds (throw error) :=
  fun _ _ _ accepted => absurd accepted accepts_throw

theorem yields_bind {action : PrismM α} {next : α → PrismM β}
    (rest : ∀ value, Yields wanted (next value)) : Yields wanted (action >>= next) := by
  intro state result after accepted
  obtain ⟨value, middle, _, second⟩ := accepts_bind.mp accepted
  exact rest value middle result after second

theorem yields_ite {guard : Prop} [Decidable guard] {yes no : PrismM α} (first : Yields holds yes)
    (second : Yields holds no) : Yields holds (if guard then yes else no) := by
  split
  · exact first
  · exact second

theorem yields_unless {guard : Prop} [Decidable guard] {error : PrismError} {next : α → PrismM β}
    {rest : PrismM β} (goes : ¬ guard → Yields wanted rest) :
    Yields wanted (if guard then throw error >>= next else rest) := by
  split
  · intro state result after accepted
    obtain ⟨_, _, first, _⟩ := accepts_bind.mp accepted
    exact absurd first accepts_throw
  · rename_i passes
    exact goes passes

theorem yields_guard {guard : Prop} [Decidable guard] {error : PrismError} {next : α → PrismM β}
    {rest : PrismM β} (goes : Yields wanted rest) :
    Yields wanted (if guard then throw error >>= next else rest) :=
  yields_unless fun _ => goes

end PrismM

/-- An output that costs at most so much and derives at most one command. -/
structure PrismOutput.Modest (bound : Nat) (output : PrismOutput) : Prop where
  cost : output.cost.toNat ≤ bound
  derived : output.derivedCommands.length ≤ 1

theorem PrismOutput.single_modest {bound : Nat} (event : Event) {cost : UInt64}
    (within : cost.toNat ≤ bound) : (PrismOutput.single event cost).Modest bound :=
  ⟨within, Nat.zero_le _⟩

def Prism.Modest (bound : Nat) (prism : Prism) : Prop :=
  ∀ command, PrismM.Yields (PrismOutput.Modest bound) (prism.handle command)

namespace Cascade

def Modest (bound : Nat) (cascade : Cascade) : Prop :=
  ∀ name prism, cascade.prisms.lookup name = some prism → prism.Modest bound

variable {bound : Nat} {cascade : Cascade}

theorem modest_empty : empty.Modest bound := by
  intro name prism installed
  cases installed

theorem Modest.install {prism : Prism} (modest : cascade.Modest bound)
    (next : prism.Modest bound) : (cascade.install prism).Modest bound := by
  intro name found installed
  unfold Cascade.install at installed
  by_cases here : name = prism.name
  · subst here
    rw [AList.lookup_insert] at installed
    cases installed
    exact next
  · rw [AList.lookup_insert_ne here] at installed
    exact modest name found installed

/-! ### Costs of a cascade -/

/-- The cost of the visited handler covers the work done in it. -/
def Pays (cascade : Cascade) (work : Command × StateTree → Nat)
    (visit : Command × StateTree) : Prop :=
  ∀ prism output after, cascade.prisms.lookup visit.1.prism = some prism →
    (prism.handle visit.1).run.run visit.2 = (.ok output, after) →
      work visit ≤ output.cost.toNat

variable {work : Command × StateTree → Nat}

theorem round_pays (modest : cascade.Modest bound) {commands : List Command} {acc done : Round}
    {state after : StateTree} (ran : cascade.round commands acc state = (.ok done, after))
    (pays : ∀ visit ∈ cascade.roundVisits commands state, Pays cascade work visit)
    (room : acc.totalCost.toNat + commands.length * bound < 2 ^ 64) :
    acc.totalCost.toNat + ((cascade.roundVisits commands state).map work).sum ≤
        done.totalCost.toNat ∧
      done.totalCost.toNat ≤ acc.totalCost.toNat + commands.length * bound ∧
      done.next.length ≤ acc.next.length + commands.length := by
  induction commands generalizing acc state with
  | nil =>
      cases ran
      simp [roundVisits]
  | cons command rest ih =>
      unfold round at ran
      unfold roundVisits at pays ⊢
      cases installed : cascade.prisms.lookup command.prism with
      | none =>
          rw [installed] at ran
          cases ran
      | some prism =>
          rw [installed] at ran pays
          dsimp only at ran pays ⊢
          cases handled : (prism.handle command).run.run state with
          | mk result middle =>
              rw [handled] at ran pays
              cases result with
              | error error => cases ran
              | ok output =>
                  dsimp only at ran pays ⊢
                  obtain ⟨cost, derived⟩ :=
                    modest _ prism installed command state output middle handled
                  have here : work (command, state) ≤ output.cost.toNat :=
                    pays _ List.mem_cons_self prism output middle installed handled
                  rw [List.length_cons, Nat.succ_mul] at room
                  have sum : (acc.totalCost + output.cost).toNat =
                      acc.totalCost.toNat + output.cost.toNat := by
                    rw [UInt64.toNat_add]
                    exact Nat.mod_eq_of_lt (by omega)
                  obtain ⟨covered, bounded, short⟩ := ih ran
                    (fun visit member => pays visit (List.mem_cons_of_mem _ member))
                    (by rw [sum]; omega)
                  rw [sum] at covered bounded
                  rw [List.length_append] at short
                  rw [List.map_cons, List.sum_cons, List.length_cons, Nat.succ_mul]
                  refine ⟨by omega, by omega, by omega⟩

theorem rounds_pays (modest : cascade.Modest bound) {left : Nat} {frontier : List Command}
    {receipt final : CascadeReceipt} {state after : StateTree} (single : frontier.length ≤ 1)
    (ran : cascade.rounds left frontier receipt state = (.ok final, after))
    (pays : ∀ visit ∈ cascade.roundsVisits left frontier receipt state, Pays cascade work visit)
    (room : receipt.totalCost.toNat + left * bound < 2 ^ 64) :
    receipt.totalCost.toNat + ((cascade.roundsVisits left frontier receipt state).map work).sum ≤
      final.totalCost.toNat := by
  induction left generalizing frontier receipt state with
  | zero =>
      cases frontier with
      | nil =>
          cases ran
          exact le_refl _
      | cons command rest => cases ran
  | succ left ih =>
      cases frontier with
      | nil =>
          cases ran
          exact le_refl _
      | cons command rest =>
          unfold rounds at ran
          unfold roundsVisits at pays ⊢
          have alone : rest = [] := List.length_eq_zero_iff.mp (by simpa using single)
          subst alone
          rw [Nat.succ_mul] at room
          cases turn : cascade.round [command] ⟨receipt.events, receipt.totalCost, []⟩ state with
          | mk result middle =>
              rw [turn] at ran pays
              cases result with
              | error error => cases ran
              | ok done =>
                  dsimp only at ran pays ⊢
                  obtain ⟨covered, bounded, short⟩ := round_pays modest turn
                    (fun visit member => pays visit (List.mem_append_left _ member))
                    (by simp only [List.length_cons, List.length_nil]; omega)
                  simp only [List.length_cons, List.length_nil] at covered bounded short
                  have rest := ih short ran
                    (fun visit member => pays visit (List.mem_append_right _ member))
                    (by dsimp only; omega)
                  rw [List.map_append, List.sum_append]
                  dsimp only at rest
                  omega

/-- The receipt of a command covers the work of all its visits. -/
theorem apply_pays (modest : cascade.Modest bound) (small : maxCascadeDepth * bound < 2 ^ 64)
    {command : Command} {receipt : CascadeReceipt} {state after : StateTree}
    (ran : cascade.apply command state = (.ok receipt, after))
    (pays : ∀ visit ∈ cascade.visits command state, Pays cascade work visit) :
    ((cascade.visits command state).map work).sum ≤ receipt.totalCost.toNat := by
  have covered := rounds_pays modest (le_refl 1) ran pays (by simpa using small)
  have start : (0 : UInt64).toNat = 0 := rfl
  rwa [start, Nat.zero_add] at covered

end Cascade

end Veilux
