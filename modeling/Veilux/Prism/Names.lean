/-
Names of parties inside keys.  A submitter's name has no slash, so a pair of names
joined by one can be read back when the submitter is on one side of it.
-/

import Veilux.Lib.Keys
import Veilux.Node.Node

namespace Veilux

theorem PartyId.toList_injective {left right : PartyId}
    (same : left.name.toList = right.name.toList) : left = right := by
  cases left
  cases right
  exact congrArg PartyId.mk (String.toList_inj.mp same)

theorem Node.slash_notMem {party : PartyId} (named : Node.reserved party = false) :
    '/' ∉ party.name.toList := by
  unfold Node.reserved at named
  rw [Bool.or_eq_false_iff] at named
  exact fun member => Bool.false_ne_true (named.1.symm.trans (List.contains_iff_mem.mpr member))

namespace TokenPrism

/-! ### The text of a pair -/

def pairText (owner spender : PartyId) : String := owner.name ++ "/" ++ spender.name

theorem pairText_toList (owner spender : PartyId) :
    (pairText owner spender).toList = owner.name.toList ++ '/' :: spender.name.toList := by
  simp only [pairText, String.toList_append, List.append_assoc]
  rfl

/-- Two plain owners: the pairs are the same. -/
theorem pairText_owners {owner spender whose whom : PartyId}
    (plain : Node.reserved owner = false) (otherPlain : Node.reserved whose = false)
    (same : pairText owner spender = pairText whose whom) : owner = whose ∧ spender = whom := by
  have texts := congrArg String.toList same
  rw [pairText_toList, pairText_toList] at texts
  obtain ⟨owners, spenders⟩ :=
    Keys.split_first (Node.slash_notMem plain) (Node.slash_notMem otherPlain) texts
  exact ⟨PartyId.toList_injective owners, PartyId.toList_injective spenders⟩

/-- Two plain spenders: the pairs are the same. -/
theorem pairText_spenders {owner spender whose whom : PartyId}
    (plain : Node.reserved spender = false) (otherPlain : Node.reserved whom = false)
    (same : pairText owner spender = pairText whose whom) : owner = whose ∧ spender = whom := by
  have texts := congrArg String.toList same
  rw [pairText_toList, pairText_toList] at texts
  obtain ⟨owners, spenders⟩ :=
    Keys.split_last (Node.slash_notMem plain) (Node.slash_notMem otherPlain) texts
  exact ⟨PartyId.toList_injective owners, PartyId.toList_injective spenders⟩

end TokenPrism

end Veilux
