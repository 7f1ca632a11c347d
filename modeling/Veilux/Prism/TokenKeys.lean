/-
Entries of other families beside the token prism's: a key whose head is apart from
the heads of balances and records is neither, so writing it changes no balance, no
total and no record.
-/

import Veilux.Lib.Keys
import Veilux.Prism.TokenSupply

namespace Veilux

namespace TokenPrism

theorem head_ne_balKey {head : String} (apart : Keys.Apart head balPrefix) (rest : String)
    (id : Hash) (who : PartyId) : head ++ rest ≠ balKey id who := by
  unfold balKey
  rw [String.append_assoc, String.append_assoc]
  exact apart.append_ne _ _

theorem head_ne_metaKey {head : String} (apart : Keys.Apart head metaPrefix) (rest : String)
    (id : Hash) : head ++ rest ≠ metaKey id :=
  apart.append_ne _ _

section Elsewhere

variable [SerdeJson]

theorem balance_put_head (state : StateTree) {head : String} (rest : String)
    (bytes : List UInt8) (apart : Keys.Apart head balPrefix) (id : Hash) (who : PartyId) :
    balance (state.put (head ++ rest) bytes) id who = balance state id who :=
  balance_put_ne state bytes (head_ne_balKey apart rest id who)

theorem total_put_head (state : StateTree) {head : String} (rest : String)
    (bytes : List UInt8) (apart : Keys.Apart head balPrefix) (id : Hash) :
    total (state.put (head ++ rest) bytes) id = total state id :=
  total_put state bytes id fun who => head_ne_balKey apart rest id who

end Elsewhere

theorem get_metaKey_put_head (state : StateTree) {head : String} (rest : String)
    (bytes : List UInt8) (apart : Keys.Apart head metaPrefix) (id : Hash) :
    (state.put (head ++ rest) bytes).get (metaKey id) = state.get (metaKey id) :=
  StateTree.get_put_ne state bytes (head_ne_metaKey apart rest id)

/-- A balance is written behind none of the other heads. -/
theorem get_head_withBalance (state : StateTree) {head : String} (rest : String)
    (apart : Keys.Apart head balPrefix) (id : Hash) (who : PartyId) (value : U128) :
    (withBalance state id who value).get (head ++ rest) = state.get (head ++ rest) :=
  StateTree.get_put_ne state _ fun same => head_ne_balKey apart rest id who same.symm

end TokenPrism

end Veilux
