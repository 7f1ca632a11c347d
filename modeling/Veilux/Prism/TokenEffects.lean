/-
What accepted token commands do to supplies and totals, token by token, and that they
derive no further commands.
-/

import Veilux.Kernel.Handled
import Veilux.Prism.NativeToken
import Veilux.Prism.TokenKeys

namespace Veilux

open PrismM

namespace TokenPrism

section Effects

variable [SerdeJson] {state after : StateTree}

theorem supply_of_read {id : Hash} {info : TokenMeta}
    (read : state.getJson TokenMeta (metaKey id) = .ok (some info)) :
    supply state id = info.totalSupply.val := by
  unfold supply tokenMeta? StateTree.getJson?
  rw [read]
  rfl

theorem supply_of_absent {id : Hash} (absent : state.get (metaKey id) = none) :
    supply state id = 0 := by
  unfold supply tokenMeta? StateTree.getJson? StateTree.getJson
  rw [absent]
  rfl

theorem supply_congr {id : Hash} (same : after.get (metaKey id) = state.get (metaKey id)) :
    supply after id = supply state id := by
  unfold supply tokenMeta? StateTree.getJson? StateTree.getJson
  rw [same]

theorem supply_putMeta_ne (state : StateTree) {id other : Hash} (info : TokenMeta)
    (different : id ≠ other) :
    supply (state.putJson (metaKey id) info) other = supply state other :=
  supply_congr (StateTree.get_put_ne state _ fun same => different (metaKey_injective same))

theorem supply_put_head (state : StateTree) {head : String} (rest : String) (bytes : List UInt8)
    (apart : Keys.Apart head metaPrefix) (id : Hash) :
    supply (state.put (head ++ rest) bytes) id = supply state id :=
  supply_congr (get_metaKey_put_head state rest bytes apart id)

/-- Supply and total of the other tokens are as before. -/
def SameOthers (state after : StateTree) (id : Hash) : Prop :=
  ∀ other, id ≠ other → supply after other = supply state other ∧
    total after other = total state other

/-- A balance written together with the record. -/
theorem sameOthers_issue (state : StateTree) (id : Hash) (who : PartyId) (value : U128)
    (info : TokenMeta) :
    SameOthers state ((withBalance state id who value).putJson (metaKey id) info) id := by
  intro other different
  rw [supply_putMeta_ne _ _ different, supply_withBalance, total_putMeta,
    total_withBalance_ne _ _ _ different]
  exact ⟨rfl, rfl⟩

variable [Blake3] {command : Command} {output : PrismOutput}

theorem create_effect {name symbol : String} {decimals : UInt8} {initialSupply : U128}
    {mintable : Bool}
    (accepted : Accepts (create command name symbol decimals initialSupply mintable)
      state output after) :
    ∃ id, supply state id = 0 ∧ supply after id = initialSupply.val ∧
      total after id + (balance state id command.submitter).val =
        total state id + initialSupply.val ∧ SameOthers state after id := by
  obtain ⟨info, recorded, absent, rfl⟩ := accepts_create accepted
  generalize createdId command.submitter symbol name = id at absent
  have unread : balance (state.putJson (metaKey id) info) id command.submitter =
      balance state id command.submitter :=
    balance_put_ne state _ fun same => balKey_ne_metaKey _ _ _ same.symm
  have sum := total_withBalance (state.putJson (metaKey id) info) id command.submitter initialSupply
  rw [total_putMeta, unread] at sum
  refine ⟨id, supply_of_absent absent, ?_, sum, ?_⟩
  · rw [supply_withBalance, supply_putMeta, recorded]
  · intro other different
    rw [supply_withBalance, supply_putMeta_ne _ _ different, total_withBalance_ne _ _ _ different,
      total_putMeta]
    exact ⟨rfl, rfl⟩

theorem mint_effect {tokenId : Hash} {target : PartyId} {amount : U128}
    (accepted : Accepts (mint command tokenId target amount) state output after) :
    supply after tokenId = supply state tokenId + amount.val ∧
      total after tokenId = total state tokenId + amount.val ∧ SameOthers state after tokenId := by
  obtain ⟨info, credited, raised, found, creditedVal, raisedVal, rfl⟩ := accepts_mint accepted
  have sum := total_withBalance state tokenId target credited
  refine ⟨?_, ?_, sameOthers_issue state tokenId target credited _⟩
  · rw [supply_putMeta, supply_of_read found]
    exact raisedVal
  · rw [total_putMeta]
    omega

theorem burn_effect {tokenId : Hash} {amount : U128}
    (accepted : Accepts (burn command tokenId amount) state output after) :
    supply after tokenId = supply state tokenId - amount.val ∧
      total after tokenId + amount.val = total state tokenId ∧
      SameOthers state after tokenId := by
  obtain ⟨info, found, enough, rfl⟩ := accepts_burn accepted
  have sum := total_withBalance state tokenId command.submitter
    (balance state tokenId command.submitter - amount)
  rw [Fin.sub_val_of_le enough] at sum
  have bound : amount.val ≤ (balance state tokenId command.submitter).val := enough
  refine ⟨?_, ?_, sameOthers_issue state tokenId command.submitter _ _⟩
  · rw [supply_putMeta, supply_of_read found]
    rfl
  · rw [total_putMeta]
    omega

/-- Units of one token are issued or withdrawn, everything else is as before. -/
inductive Issued (state after : StateTree) (id : Hash) : Prop where
  | created (who : PartyId) (fresh : supply state id = 0)
      (sum : total after id + (balance state id who).val = total state id + supply after id)
  | minted (amount : U128) (recorded : supply after id = supply state id + amount.val)
      (sum : total after id = total state id + amount.val)
  | burned (amount : U128) (recorded : supply after id = supply state id - amount.val)
      (sum : total after id + amount.val = total state id)

/-- What an accepted token command does to supplies and totals, unless an account pays
itself. -/
theorem handle_effect (accepted : Accepts (handle command) state output after)
    (proper : ¬ SelfMove command) :
    (∀ id, supply after id = supply state id ∧ total after id = total state id) ∨
      (Issues command ∧ ∃ id, SameOthers state after id ∧ Issued state after id) := by
  obtain ⟨operation, parsed, executed⟩ := accepts_handle accepted
  by_cases moves : Issues command
  · refine .inr ⟨moves, ?_⟩
    unfold Issues at moves
    rw [parsed] at moves
    cases operation with
    | create name symbol decimals initialSupply mintable =>
        obtain ⟨id, none, recorded, sum, same⟩ := create_effect executed
        rw [← recorded] at sum
        exact ⟨id, same, .created _ none sum⟩
    | mint tokenId target amount =>
        obtain ⟨recorded, sum, same⟩ := mint_effect executed
        exact ⟨tokenId, same, .minted amount recorded sum⟩
    | burn tokenId amount =>
        obtain ⟨recorded, sum, same⟩ := burn_effect executed
        exact ⟨tokenId, same, .burned amount recorded sum⟩
    | approve tokenId spender amount => cases moves
    | transfer tokenId target amount => cases moves
    | transferFrom tokenId source target amount => cases moves
  · obtain ⟨records, totals⟩ := totals_kept parsed executed moves proper
    exact .inl fun id => ⟨supply_congr (records id), totals id⟩

/-- An accepted token command never lowers what the record promises beyond the balances,
unless an account pays itself. -/
theorem excess_le (accepted : Accepts (handle command) state output after)
    (proper : ¬ SelfMove command) (id : Hash) : excess state id ≤ excess after id := by
  unfold excess
  rcases handle_effect accepted proper with kept | ⟨_, tokenId, same, issued⟩
  · rw [(kept id).1, (kept id).2]
  · by_cases own : tokenId = id
    · subst own
      rcases issued with ⟨who, fresh, sum⟩ | ⟨amount, recorded, sum⟩ | ⟨amount, recorded, sum⟩
      all_goals omega
    · rw [(same id own).1, (same id own).2]

/-- Over a record that covers the balances nothing is lost to rounding at zero. -/
theorem excess_eq (accepted : Accepts (handle command) state output after)
    (proper : ¬ SelfMove command) {id : Hash} (backed : total state id ≤ supply state id) :
    excess after id = excess state id := by
  unfold excess
  rcases handle_effect accepted proper with kept | ⟨_, tokenId, same, issued⟩
  · rw [(kept id).1, (kept id).2]
  · by_cases own : tokenId = id
    · subst own
      rcases issued with ⟨who, fresh, sum⟩ | ⟨amount, recorded, sum⟩ | ⟨amount, recorded, sum⟩
      · have held := balance_le_total state tokenId who
        omega
      · omega
      · omega
    · rw [(same id own).1, (same id own).2]

/-- Token commands write balances, records and allowances only. -/
theorem handle_elsewhere (accepted : Accepts (handle command) state output after)
    {head : String} (rest : String) (balances : Keys.Apart head balPrefix)
    (records : Keys.Apart head metaPrefix) (allowances : Keys.Apart head allowPrefix) :
    after.get (head ++ rest) = state.get (head ++ rest) := by
  have noRecord : ∀ (middle : StateTree) id (info : TokenMeta),
      (middle.putJson (metaKey id) info).get (head ++ rest) = middle.get (head ++ rest) :=
    fun middle id info => StateTree.get_put_ne middle _
      (head_ne_metaKey records rest id).symm
  have noAllowance : ∀ (middle : StateTree) id owner spender (text : String),
      (middle.putJson (allowKey id owner spender) text).get (head ++ rest) =
        middle.get (head ++ rest) := by
    intro middle id owner spender text
    apply StateTree.get_put_ne middle
    unfold allowKey
    rw [String.append_assoc, String.append_assoc, String.append_assoc, String.append_assoc]
    exact (allowances.append_ne _ _).symm
  obtain ⟨operation, parsed, executed⟩ := accepts_handle accepted
  cases operation with
  | create name symbol decimals initialSupply mintable =>
      obtain ⟨_, _, _, rfl⟩ := accepts_create executed
      rw [get_head_withBalance _ _ balances, noRecord]
  | transfer tokenId target amount =>
      obtain ⟨_, _, _, rfl⟩ := accepts_transfer executed
      unfold moved
      rw [get_head_withBalance _ _ balances, get_head_withBalance _ _ balances]
  | approve tokenId spender amount =>
      rw [accepts_approve executed, noAllowance]
  | transferFrom tokenId source target amount =>
      obtain ⟨_, _, _, _, rfl⟩ := accepts_transferFrom executed
      unfold moved
      rw [noAllowance, get_head_withBalance _ _ balances, get_head_withBalance _ _ balances]
  | mint tokenId target amount =>
      obtain ⟨_, _, _, _, _, _, rfl⟩ := accepts_mint executed
      rw [noRecord, get_head_withBalance _ _ balances]
  | burn tokenId amount =>
      obtain ⟨_, _, _, rfl⟩ := accepts_burn executed
      rw [noRecord, get_head_withBalance _ _ balances]

/-- Every operation ends with one event. -/
theorem handle_underived (command : Command) : Underived (handle command) := by
  unfold handle
  split
  · exact underived_throw _
  · rename_i operation parsed
    cases operation
    all_goals
      repeat' first
        | exact underived_single _ _
        | apply Underived.ite
        | apply Underived.bind; intro _

end Effects

end TokenPrism

end Veilux
