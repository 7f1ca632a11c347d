/-
What an accepted `credit` of `prisms/token/src/lib.rs` does: the account gains the amount,
and nothing but its balance and the token's record is written.
-/

import Veilux.Prism.Positions

namespace Veilux

open PrismM

namespace TokenPrism

variable [SerdeJson] {state after : StateTree} {token : Hash} {who : PartyId} {amount : U128}

structure Credited (state after : StateTree) (token : Hash) (who : PartyId) (amount : U128) :
    Prop where
  gained : (balance after token who).val = (balance state token who).val + amount.val
  others : ∀ other whom, other ≠ token ∨ whom ≠ who →
    balance after other whom = balance state other whom
  elsewhere : ∀ {head : String} (rest : String), Keys.Apart head balPrefix →
    Keys.Apart head metaPrefix → after.get (head ++ rest) = state.get (head ++ rest)

theorem credited_withBalance (fits : (balance state token who).val + amount.val < 2 ^ 128) :
    Credited state (withBalance state token who (balance state token who + amount)) token who
      amount := by
  constructor
  · rw [balance_withBalance_self, Fin.val_add, Nat.mod_eq_of_lt fits]
  · intro other whom different
    apply balance_withBalance_ne
    rcases different with otherToken | otherParty
    · exact .inr otherToken.symm
    · exact .inl otherParty.symm
  · intro head rest apart _
    exact get_head_withBalance _ _ apart _ _ _

theorem Credited.record (credited : Credited state after token who amount) (id : Hash)
    (info : TokenMeta) : Credited state (after.putJson (metaKey id) info) token who amount := by
  have kept : ∀ other whom, balance (after.putJson (metaKey id) info) other whom =
      balance after other whom := by
    intro other whom
    exact balance_put_ne _ _ fun same => balKey_ne_metaKey _ _ _ same.symm
  constructor
  · rw [kept]
    exact credited.gained
  · intro other whom different
    rw [kept]
    exact credited.others other whom different
  · intro head rest apart untouched
    rw [StateTree.putJson, StateTree.get_put_ne _ _ (head_ne_metaKey untouched _ _).symm]
    exact credited.elsewhere rest apart untouched

theorem credited_of_accepts (accepted : Accepts (credit token who amount) state () after) :
    (balance state token who).val + amount.val < 2 ^ 128 ∧
      Credited state after token who amount := by
  simp only [credit, setBalance, accepts_bind, accepts_get, accepts_modify, accepts_addOr]
    at accepted
  obtain ⟨_, _, ⟨rfl, rfl⟩, sum, _, ⟨added, rfl⟩, _, _, rfl, _, _, ⟨rfl, rfl⟩, recorded⟩ := accepted
  have fits : (balance state token who).val + amount.val < 2 ^ 128 := by
    rw [← checkedAdd_val added]
    exact sum.isLt
  have written := credited_withBalance fits
  rw [checkedAdd_eq_add added] at recorded
  refine ⟨fits, ?_⟩
  unfold withBalance at written
  cases found : tokenMeta? (state.putJson (balKey token who)
      (balance state token who + amount).toText) token with
  | none =>
      rw [found] at recorded
      rw [← (accepts_pure.mp recorded).2]
      exact written
  | some info =>
      rw [found] at recorded
      rw [← accepts_modify.mp recorded]
      exact written.record _ _

/-- A credit of a token that no record names. -/
theorem accepts_credit_unrecorded (unrecorded : tokenMeta? state token = none)
    (fits : (balance state token who).val + amount.val < 2 ^ 128) :
    Accepts (credit token who amount) state ()
      (withBalance state token who (balance state token who + amount)) := by
  simp only [credit, setBalance, accepts_bind, accepts_get, accepts_modify, accepts_addOr]
  refine ⟨_, _, ⟨rfl, rfl⟩, _, _, ⟨checkedAdd_of_lt fits, rfl⟩, (), _, rfl, _, _, ⟨rfl, rfl⟩, ?_⟩
  have kept : tokenMeta? (withBalance state token who (balance state token who + amount)) token =
      none := by
    rw [tokenMeta?_withBalance, unrecorded]
  unfold withBalance at kept
  rw [kept]
  exact accepts_pure.mpr ⟨rfl, rfl⟩

/-- A credit fails only where the balance would overflow. -/
theorem credit_accepted (fits : (balance state token who).val + amount.val < 2 ^ 128) :
    ∃ after, Accepts (credit token who amount) state () after := by
  cases recorded : tokenMeta? state token with
  | none => exact ⟨_, accepts_credit_unrecorded recorded fits⟩
  | some info => exact ⟨_, Positions.accepts_credit recorded fits⟩

theorem Credited.total (credited : Credited state after token who amount) :
    total after token = total state token + amount.val := by
  have updated : (fun whom => (balance after token whom).val) =
      Function.update (fun whom => (balance state token whom).val) who
        (balance after token who).val := by
    funext whom
    by_cases same : whom = who
    · rw [same, Function.update_self]
    · rw [Function.update_of_ne same, credited.others token whom (.inr same)]
  have sum := Total.total_update (balances_finite state token) who (balance after token who).val
  rw [← updated, credited.gained] at sum
  unfold TokenPrism.total
  omega

end TokenPrism

end Veilux
