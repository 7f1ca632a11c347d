/-
The integer square root of `prisms/dex/src/lib.rs` and the first deposit into a pool that
calls it.  Newton's iteration is right below the largest amount; there its start value
wraps to zero, and the division by it aborts.
-/

import Veilux.Prism.Positions

namespace Veilux

open PrismM

namespace DexPrism

/-! ### Newton's iteration -/

/-- An iterate is not below the root. -/
theorem lt_newton_succ_sq (n : Nat) {x : Nat} (positive : 0 < x) :
    n < ((x + n / x) / 2 + 1) * ((x + n / x) / 2 + 1) := by
  have above : n < x * (n / x + 1) := by
    have parts := Nat.div_add_mod n x
    have rest := Nat.mod_lt n positive
    rw [Nat.mul_succ]
    omega
  have halves : x + (n / x + 1) ≤ 2 * ((x + n / x) / 2 + 1) := by omega
  generalize (x + n / x) / 2 + 1 = y at halves ⊢
  generalize n / x + 1 = q at above halves
  have means := four_mul_le_sq_add x q
  have squares : (x + q) ^ 2 ≤ (2 * y) ^ 2 := Nat.pow_le_pow_left halves 2
  have expand : (2 * y) ^ 2 = 4 * (y * y) := by ring
  rw [expand] at squares
  rw [Nat.mul_assoc] at means
  omega

/-- An iteration that does not descend has found the root. -/
theorem mul_self_le_of_stop {n x : Nat} (stop : x ≤ (x + n / x) / 2) :
    x * x ≤ n := by
  have quotient : x ≤ n / x := by omega
  exact (Nat.mul_le_mul_left x quotient).trans (Nat.mul_div_le n x)

/-- The sum in an iteration does not exceed the one it starts from. -/
theorem add_div_le {n x : Nat} (positive : 0 < x) (small : x ≤ n) : x + n / x ≤ n + 1 := by
  have quotient : 1 ≤ n / x := (Nat.one_le_div_iff positive).mpr small
  have product := Nat.mul_div_le n x
  obtain ⟨a, rfl⟩ := Nat.exists_eq_add_of_le positive
  obtain ⟨b, same⟩ := Nat.exists_eq_add_of_le quotient
  rw [same] at product ⊢
  have expand : (Nat.succ 0 + a) * (1 + b) = 1 + a + b + a * b := by ring
  rw [expand] at product
  omega

theorem isqrtLoop_eq {n x y : U128} (room : n.val + 1 < 2 ^ 128) (positive : 0 < x.val)
    (small : x.val ≤ n.val) (above : n.val < (x.val + 1) * (x.val + 1))
    (next : y.val = (x.val + n.val / x.val) / 2) :
    ∃ root, isqrtLoop n x y = some root ∧ root.val * root.val ≤ n.val ∧
      n.val < (root.val + 1) * (root.val + 1) := by
  induction bound : x.val using Nat.strong_induction_on generalizing x y with
  | _ size ih =>
      subst bound
      unfold isqrtLoop
      by_cases smaller : y < x
      · have descends : y.val < x.val := smaller
        have quotient : 1 ≤ n.val / x.val := (Nat.one_le_div_iff positive).mpr small
        have yPositive : 0 < y.val := by omega
        have nonzero : ¬ y = 0 := by
          intro same
          rw [same] at yPositive
          exact Nat.lt_irrefl 0 yPositive
        have sum : (y + n / y).val = y.val + n.val / y.val := by
          have fits := add_div_le yPositive (by omega : y.val ≤ n.val)
          rw [Fin.val_add, Fin.div_val]
          exact Nat.mod_eq_of_lt (by omega)
        have following : ((y + n / y) / 2).val = (y.val + n.val / y.val) / 2 := by
          rw [Fin.div_val, sum]
          rfl
        rw [dif_pos smaller, if_neg nonzero]
        refine ih y.val descends yPositive (by omega) ?_ following rfl
        rw [next]
        exact lt_newton_succ_sq n.val positive
      · rw [dif_neg smaller]
        refine ⟨x, rfl, ?_, above⟩
        have stop : x.val ≤ y.val := Nat.le_of_not_lt smaller
        rw [next] at stop
        exact mul_self_le_of_stop stop

theorem isqrt_eq {n : U128} (room : n.val + 1 < 2 ^ 128) :
    ∃ root, isqrt n = some root ∧ root.val * root.val ≤ n.val ∧
      n.val < (root.val + 1) * (root.val + 1) := by
  unfold isqrt
  by_cases none : n = 0
  · rw [if_pos none, none]
    exact ⟨0, rfl, by decide, by decide⟩
  · have positive : 0 < n.val := by
      apply Nat.pos_of_ne_zero
      intro same
      exact none (Fin.ext same)
    rw [if_neg none]
    apply isqrtLoop_eq room positive (le_refl _)
    · exact lt_of_lt_of_le (Nat.lt_succ_self _) (Nat.le_mul_of_pos_left _ (Nat.succ_pos _))
    · rw [Fin.div_val, Fin.val_add, Nat.div_self positive]
      change (n.val + 1) % 2 ^ 128 / 2 = _
      rw [Nat.mod_eq_of_lt room]

/-- At the largest amount the start value is zero. -/
theorem isqrt_max {n : U128} (largest : n.val = 2 ^ 128 - 1) : isqrt n = none := by
  have top : n = Fin.ofNat (2 ^ 128) (2 ^ 128 - 1) := Fin.ext largest
  rw [top]
  unfold isqrt
  rw [if_neg (by decide)]
  unfold isqrtLoop
  rw [dif_pos (by decide), if_pos (by decide)]

/-! ### Aborting -/

section Aborting

variable {α β : Type} {state : StateTree}

/-- A handler divides by zero; the process does not survive it. -/
def Aborts (action : PrismM α) (state : StateTree) : Prop :=
  (action.run.run state).1 = .error (.internal "attempt to divide by zero")

theorem aborts_pure {value : α} : ¬ Aborts (pure value : PrismM α) state := by
  intro aborted
  cases aborted

theorem aborts_throw {error : PrismError} :
    Aborts (throw error : PrismM α) state ↔ error = .internal "attempt to divide by zero" := by
  constructor
  · intro aborted
    cases aborted
    rfl
  · rintro rfl
    rfl

theorem aborts_get : ¬ Aborts (get : PrismM StateTree) state := by
  intro aborted
  cases aborted

theorem aborts_modify {update : StateTree → StateTree} :
    ¬ Aborts (modify update : PrismM PUnit) state := by
  intro aborted
  cases aborted

theorem aborts_bind {action : PrismM α} {next : α → PrismM β} :
    Aborts (action >>= next) state ↔ Aborts action state ∨
      ∃ value middle, Accepts action state value middle ∧ Aborts (next value) middle := by
  unfold Aborts Accepts
  cases first : action.run.run state with
  | mk outcome middle =>
      cases outcome with
      | error error =>
          rw [run_bind_error first]
          constructor
          · intro aborted
            cases aborted
            exact .inl rfl
          · rintro (aborted | ⟨_, _, impossible, _⟩)
            · cases aborted
              rfl
            · cases impossible
      | ok value =>
          rw [run_bind_ok first]
          constructor
          · exact fun aborted => .inr ⟨value, middle, rfl, aborted⟩
          · rintro (impossible | ⟨_, _, same, aborted⟩)
            · cases impossible
            · cases same
              exact aborted

theorem aborts_ite {guard : Prop} [Decidable guard] {yes no : PrismM α} :
    Aborts (if guard then yes else no) state ↔
      (guard ∧ Aborts yes state) ∨ (¬ guard ∧ Aborts no state) := by
  by_cases holds : guard
  · rw [if_pos holds]
    simp only [holds, true_and, not_true_eq_false, false_and, or_false]
  · rw [if_neg holds]
    simp only [holds, false_and, not_false_eq_true, true_and, false_or]

theorem aborts_divide {left right : U128} :
    Aborts (U128.divide left right) state ↔ right = 0 := by
  unfold U128.divide
  rw [aborts_ite, aborts_throw]
  simp only [aborts_pure, and_true, and_false, or_false]

variable [SerdeJson]

theorem aborts_debit {token : Hash} {who : PartyId} {amount : U128} :
    ¬ Aborts (TokenPrism.debit token who amount) state := by
  unfold TokenPrism.debit TokenPrism.setBalance
  simp [aborts_bind, aborts_get, aborts_ite, aborts_throw, aborts_modify]

end Aborting

/-! ### The first deposit -/

section Deposits

variable [SerdeJson] [Blake3] {state : StateTree}

omit [SerdeJson] [Blake3] in
theorem aborts_minted_empty {amountA amountB : U128} {pool : Pool} (empty : pool.totalShares = 0) :
    Aborts (minted pool amountA amountB) state ↔ 2 ^ 128 - 1 ≤ amountA.val * amountB.val := by
  have value : (amountA.saturatingMul amountB).val =
      min (amountA.val * amountB.val) (2 ^ 128 - 1) := rfl
  unfold minted
  rw [if_pos empty]
  by_cases large : 2 ^ 128 - 1 ≤ amountA.val * amountB.val
  · rw [Nat.min_eq_right large] at value
    rw [isqrt_max value, aborts_throw]
    exact ⟨fun _ => large, fun _ => rfl⟩
  · have room : (amountA.saturatingMul amountB).val + 1 < 2 ^ 128 := by omega
    obtain ⟨root, found, _, _⟩ := isqrt_eq room
    rw [found]
    exact ⟨fun aborted => absurd aborted aborts_pure, fun reached => absurd reached large⟩

omit [SerdeJson] [Blake3] in
/-- A deposit into a pool with shares divides by both reserves. -/
theorem aborts_minted_shared {amountA amountB : U128} {pool : Pool}
    (shared : pool.totalShares ≠ 0) :
    Aborts (minted pool amountA amountB) state ↔ pool.reserveA = 0 ∨ pool.reserveB = 0 := by
  unfold minted
  rw [if_neg shared]
  simp only [aborts_bind, aborts_divide, aborts_pure, U128.accepts_divide, and_false, or_false,
    exists_false]
  constructor
  · rintro (drained | ⟨_, _, _, drained⟩)
    · exact .inl drained
    · exact .inr drained
  · rintro (drained | drained)
    · exact .inl drained
    · by_cases first : pool.reserveA = 0
      · exact .inl first
      · exact .inr ⟨_, _, ⟨first, rfl, rfl⟩, drained⟩

variable {command : Command} {id : Hash} {amountA amountB : U128} {pool : Pool}

/-- A deposit aborts where its shares are computed. -/
theorem aborts_addLiquidity (stored : state.getJson Pool (key id) = .ok (some pool)) :
    Aborts (addLiquidity command id amountA amountB) state ↔
      amountA ≠ 0 ∧ amountB ≠ 0 ∧ Aborts (minted pool amountA amountB) state := by
  have loads : ∀ found middle, Accepts (load id) state found middle ↔
      found = pool ∧ middle = state := by
    intro found middle
    rw [accepts_load, stored]
    constructor
    · rintro ⟨same, rfl⟩
      cases same
      exact ⟨rfl, rfl⟩
    · rintro ⟨rfl, rfl⟩
      exact ⟨rfl, rfl⟩
  have reads : ¬ Aborts (load id) state := by
    have loaded := (loads pool state).mpr ⟨rfl, rfl⟩
    unfold Accepts at loaded
    unfold Aborts
    rw [loaded]
    intro impossible
    cases impossible
  unfold addLiquidity save
  simp only [aborts_bind, reads, loads, aborts_ite, aborts_throw, aborts_pure, aborts_modify,
    aborts_debit, false_or, or_false, and_false, reduceCtorEq, exists_false]
  constructor
  · rintro ⟨_, _, ⟨rfl, rfl⟩, ⟨_, _, _, impossible, _⟩ | ⟨positive, aborted⟩⟩
    · exact absurd impossible accepts_throw
    · exact ⟨fun none => positive (.inl none), fun none => positive (.inr none), aborted⟩
  · rintro ⟨positiveA, positiveB, aborted⟩
    refine ⟨pool, state, ⟨rfl, rfl⟩, .inr ⟨?_, aborted⟩⟩
    rintro (none | none)
    · exact positiveA none
    · exact positiveB none

/-- A deposit into a pool without shares aborts when the product of its amounts reaches the
largest amount. -/
theorem aborts_addLiquidity_empty (stored : state.getJson Pool (key id) = .ok (some pool))
    (empty : pool.totalShares = 0) :
    Aborts (addLiquidity command id amountA amountB) state ↔
      amountA ≠ 0 ∧ amountB ≠ 0 ∧ 2 ^ 128 - 1 ≤ amountA.val * amountB.val := by
  rw [aborts_addLiquidity stored, aborts_minted_empty empty]

/-- The root is found for every amount but the largest, and the first deposit survives as
long as the product of its amounts is below it. -/
theorem isqrt_total_iff :
    (∀ n : U128, (∃ root, isqrt n = some root ∧ root.val * root.val ≤ n.val ∧
        n.val < (root.val + 1) * (root.val + 1)) ↔ n.val ≠ 2 ^ 128 - 1) ∧
    ∀ (command : Command) (id : Hash) (amountA amountB : U128) (state : StateTree) (pool : Pool),
      state.getJson Pool (key id) = .ok (some pool) → pool.totalShares = 0 →
      (¬ Aborts (addLiquidity command id amountA amountB) state ↔
        amountA = 0 ∨ amountB = 0 ∨ amountA.val * amountB.val < 2 ^ 128 - 1) := by
  constructor
  · intro n
    constructor
    · rintro ⟨root, found, _, _⟩ largest
      rw [isqrt_max largest] at found
      cases found
    · intro smaller
      exact isqrt_eq (by omega)
  · intro command id amountA amountB state pool stored empty
    rw [aborts_addLiquidity_empty stored empty]
    by_cases noneA : amountA = 0
    · simp [noneA]
    · by_cases noneB : amountB = 0
      · simp [noneB]
      · simp [noneA, noneB]

end Deposits

section Large

attribute [local instance] SerdeJson.compact Blake3.polynomial

/-- A new pool of two tokens. -/
def newPool : Pool :=
  { id := .zero
    tokenA := ⟨Vector.replicate 32 1⟩
    tokenB := ⟨Vector.replicate 32 2⟩
    reserveA := 0
    reserveB := 0
    totalShares := 0
    shares := ∅ }

def withNewPool : StateTree := StateTree.empty.putJson (key .zero) newPool

def dexCommand (submitter : String) (operation : DexCommand) : Command :=
  { prism := "dex"
    submitter := ⟨submitter⟩
    visibility := .pub
    payload := toVec operation
    nonce := 0 }

/-- The root of the largest amount divides by zero, and so does a first deposit of 2^64 units
of each token. -/
theorem isqrt_aborts :
    isqrt (Fin.ofNat (2 ^ 128) (2 ^ 128 - 1)) = none ∧
      Aborts (addLiquidity (dexCommand "alice" (.addLiquidity .zero 18446744073709551616
        18446744073709551616)) .zero 18446744073709551616 18446744073709551616) withNewPool := by
  refine ⟨isqrt_max rfl, ?_⟩
  have stored : withNewPool.getJson Pool (key .zero) = .ok (some newPool) :=
    StateTree.getJson_putJson _ _ newPool
  exact (aborts_addLiquidity_empty stored rfl).mpr ⟨by decide, by decide, by decide⟩

/-- The theorem at the root of 143, and at a first deposit of two units and eight. -/
theorem isqrt_total_iff_small :
    (∃ root, isqrt 143 = some root ∧ root.val * root.val ≤ 143 ∧
      143 < (root.val + 1) * (root.val + 1)) ∧
      ¬ Aborts (addLiquidity (dexCommand "alice" (.addLiquidity .zero 2 8)) .zero 2 8)
        withNewPool :=
  ⟨(isqrt_total_iff.1 143).mpr (by decide),
    (isqrt_total_iff.2 _ .zero 2 8 withNewPool newPool (StateTree.getJson_putJson _ _ newPool)
      rfl).mpr (.inr (.inr (by decide)))⟩

end Large

end DexPrism

end Veilux
