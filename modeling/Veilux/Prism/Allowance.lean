/-
Allowances.  An allowance is stored under the text `owner/spender`; the owner of an
approval is a submitter and has no slash in its name, but the spender it names may
have one, and so may the account that is spent from.  Two pairs can therefore share
a text.
-/

import Veilux.Prism.Names
import Veilux.Prism.TokenSupply

namespace Veilux

namespace TokenPrism

open PrismM

/-! ### The keys of allowances -/

theorem allowKey_eq_append (id : Hash) (owner spender : PartyId) :
    allowKey id owner spender = allowPrefix ++ id.toHex ++ "/" ++ pairText owner spender := by
  simp only [allowKey, pairText, String.append_assoc]

theorem allowKey_eq_iff {id other : Hash} {owner spender whose whom : PartyId} :
    allowKey id owner spender = allowKey other whose whom ↔
      id = other ∧ pairText owner spender = pairText whose whom := by
  rw [allowKey_eq_append, allowKey_eq_append]
  constructor
  · intro same
    have texts := congrArg String.toList same
    simp only [String.toList_append, List.append_assoc, List.append_cancel_left_eq] at texts
    obtain ⟨ids, names⟩ := List.append_inj texts (by rw [Hash.toHex_length, Hash.toHex_length])
    refine ⟨Hash.toHex_injective (String.toList_inj.mp ids), String.toList_inj.mp ?_⟩
    exact (List.append_cancel_left_eq _ _ _).mp names
  · rintro ⟨rfl, same⟩
    rw [same]

/-! ### What commands do to allowances -/

section Allowances

variable [SerdeJson]

theorem allowance_put_ne (state : StateTree) {key : String} (bytes : List UInt8) {id : Hash}
    {owner spender : PartyId} (different : key ≠ allowKey id owner spender) :
    allowance (state.put key bytes) id owner spender = allowance state id owner spender := by
  unfold allowance amountAt
  rw [StateTree.getJson?_put_ne state bytes different]

/-- One allowance rewritten: it is read under every pair with the same text. -/
theorem allowance_putAllowance (state : StateTree) (tokenId : Hash) (owner spender : PartyId)
    (value : U128) (id : Hash) (whose whom : PartyId) :
    allowance (state.putJson (allowKey tokenId owner spender) value.toText) id whose whom =
      if tokenId = id ∧ pairText owner spender = pairText whose whom then value
      else allowance state id whose whom := by
  split
  · rename_i same
    unfold allowance
    rw [← allowKey_eq_iff.mpr same]
    exact amountAt_putJson state _ value
  · rename_i different
    exact allowance_put_ne state _ fun same => different (allowKey_eq_iff.mp same)

theorem allowance_withBalance (state : StateTree) (tokenId id : Hash) (who owner spender : PartyId)
    (value : U128) :
    allowance (withBalance state tokenId who value) id owner spender =
      allowance state id owner spender :=
  allowance_put_ne state _ (balKey_ne_allowKey tokenId id who owner spender)

theorem allowance_putMeta (state : StateTree) (tokenId id : Hash) (owner spender : PartyId)
    (info : TokenMeta) :
    allowance (state.putJson (metaKey tokenId) info) id owner spender =
      allowance state id owner spender :=
  allowance_put_ne state _ (metaKey_ne_allowKey tokenId id owner spender)

theorem allowance_moved (state : StateTree) (tokenId id : Hash)
    (source target owner spender : PartyId) (amount : U128) :
    allowance (moved state tokenId source target amount) id owner spender =
      allowance state id owner spender := by
  unfold moved
  rw [allowance_withBalance, allowance_withBalance]

end Allowances

section History

variable [SerdeJson] [Blake3]

/-- The allowances as the owners themselves granted them: an approval sets the
allowance of its own pair, a transfer in its name uses it up. -/
abbrev Grants := Hash → PartyId → PartyId → Nat

def Grants.none : Grants := fun _ _ _ => 0

def Grants.after (grants : Grants) (command : Command) : Grants :=
  match fromSlice TokenCommand command.payload with
  | .ok (.approve tokenId spender amount) => fun id owner whom =>
      if id = tokenId ∧ owner = command.submitter ∧ whom = spender then amount.val
      else grants id owner whom
  | .ok (.transferFrom tokenId source _ amount) => fun id owner whom =>
      if id = tokenId ∧ owner = source ∧ whom = command.submitter then
        grants id owner whom - amount.val
      else grants id owner whom
  | _ => grants

def grants (commands : List Command) : Grants := commands.foldl Grants.after Grants.none

/-- What a command grants one pair, and what it spends in its name. -/
def granted (id : Hash) (owner spender : PartyId) (command : Command) : Nat :=
  match fromSlice TokenCommand command.payload with
  | .ok (.approve tokenId whom amount) =>
      if id = tokenId ∧ owner = command.submitter ∧ spender = whom then amount.val else 0
  | _ => 0

def spent (id : Hash) (owner spender : PartyId) (command : Command) : Nat :=
  match fromSlice TokenCommand command.payload with
  | .ok (.transferFrom tokenId source _ amount) =>
      if id = tokenId ∧ owner = source ∧ spender = command.submitter then amount.val else 0
  | _ => 0

/-- Every transfer in another's name is within what that account has left for
exactly this spender. -/
def Covered (commands : List Command) : Prop :=
  ∀ front command back, commands = front ++ command :: back →
    ∀ tokenId source target amount,
      fromSlice TokenCommand command.payload = .ok (.transferFrom tokenId source target amount) →
      amount.val ≤ grants front tokenId source command.submitter

/-- A positive amount is spent under the text of an approval by somebody else. -/
def Collides (front : List Command) (command : Command) : Prop :=
  ∃ tokenId source target amount,
    fromSlice TokenCommand command.payload = .ok (.transferFrom tokenId source target amount) ∧
    0 < amount ∧ ∃ earlier ∈ front, ∃ spender permitted,
      fromSlice TokenCommand earlier.payload = .ok (.approve tokenId spender permitted) ∧
      earlier.submitter ≠ source ∧
      pairText earlier.submitter spender = pairText source command.submitter

/-! ### Stored allowances against grants -/

omit [Blake3] in
theorem grants_snoc (commands : List Command) (command : Command) :
    grants (commands ++ [command]) = (grants commands).after command := by
  unfold grants
  rw [List.foldl_append, List.foldl_cons, List.foldl_nil]

/-- Between plain names the stored allowance is the granted one, and every stored
allowance goes back to an approval with its text. -/
structure Tracks (front : List Command) (state : StateTree) : Prop where
  exact : ∀ id owner spender, Node.reserved owner = false → Node.reserved spender = false →
    (allowance state id owner spender).val = grants front id owner spender
  approved : ∀ id owner spender, allowance state id owner spender ≠ 0 →
    ∃ earlier ∈ front, ∃ whom permitted,
      fromSlice TokenCommand earlier.payload = .ok (.approve id whom permitted) ∧
      pairText earlier.submitter whom = pairText owner spender

variable {state after : StateTree} {command : Command} {output : PrismOutput}
  {front : List Command}

omit [Blake3] in
theorem Tracks.congr (tracks : Tracks front state)
    (kept : ∀ id owner spender, allowance after id owner spender = allowance state id owner spender)
    (silent : (grants front).after command = grants front) :
    Tracks (front ++ [command]) after := by
  constructor
  · intro id owner spender plain otherPlain
    rw [kept, grants_snoc, silent]
    exact tracks.exact id owner spender plain otherPlain
  · intro id owner spender nonzero
    rw [kept] at nonzero
    obtain ⟨earlier, member, found⟩ := tracks.approved id owner spender nonzero
    exact ⟨earlier, List.mem_append_left _ member, found⟩

theorem Tracks.approve (tracks : Tracks front state) {tokenId : Hash} {spender : PartyId}
    {amount : U128} (plain : Node.reserved command.submitter = false)
    (parsed : fromSlice TokenCommand command.payload = .ok (.approve tokenId spender amount))
    (accepted : Accepts (TokenPrism.approve command tokenId spender amount) state output after) :
    Tracks (front ++ [command]) after := by
  obtain rfl := accepts_approve accepted
  constructor
  · intro id owner whom ownerPlain whomPlain
    have written := tracks.exact id owner whom ownerPlain whomPlain
    rw [allowance_putAllowance, grants_snoc]
    unfold Grants.after
    rw [parsed]
    dsimp only
    split
    · rename_i same
      obtain ⟨owners, spenders⟩ := pairText_owners plain ownerPlain same.2
      rw [if_pos ⟨same.1.symm, owners.symm, spenders.symm⟩]
    · rename_i different
      rw [if_neg, written]
      rintro ⟨rfl, rfl, rfl⟩
      exact different ⟨rfl, rfl⟩
  · intro id owner whom nonzero
    rw [allowance_putAllowance] at nonzero
    split at nonzero
    · rename_i same
      refine ⟨command, List.mem_append_right _ (List.mem_singleton_self _), spender, amount, ?_,
        same.2⟩
      rw [parsed, same.1]
    · obtain ⟨earlier, member, found⟩ := tracks.approved id owner whom nonzero
      exact ⟨earlier, List.mem_append_left _ member, found⟩

theorem Tracks.transferFrom (tracks : Tracks front state) {tokenId : Hash}
    {source target : PartyId} {amount : U128} (plain : Node.reserved command.submitter = false)
    (parsed : fromSlice TokenCommand command.payload =
      .ok (.transferFrom tokenId source target amount))
    (accepted : Accepts (TokenPrism.transferFrom command tokenId source target amount) state
      output after) : Tracks (front ++ [command]) after := by
  obtain ⟨_, _, _, permitted, rfl⟩ := accepts_transferFrom accepted
  constructor
  · intro id owner whom ownerPlain whomPlain
    have written := tracks.exact id owner whom ownerPlain whomPlain
    rw [allowance_putAllowance, grants_snoc]
    unfold Grants.after
    rw [parsed]
    dsimp only
    split
    · rename_i same
      obtain ⟨owners, spenders⟩ := pairText_spenders plain whomPlain same.2
      rw [if_pos ⟨same.1.symm, owners.symm, spenders.symm⟩, Fin.sub_val_of_le permitted, ← written,
        same.1, owners, spenders]
    · rename_i different
      rw [if_neg, allowance_moved, written]
      rintro ⟨rfl, rfl, rfl⟩
      exact different ⟨rfl, rfl⟩
  · intro id owner whom nonzero
    rw [allowance_putAllowance] at nonzero
    have before : ∃ whose other, pairText whose other = pairText owner whom ∧
        allowance state id whose other ≠ 0 := by
      split at nonzero
      · rename_i same
        refine ⟨source, command.submitter, same.2, ?_⟩
        intro zero
        rw [← same.1] at zero
        rw [zero] at permitted nonzero
        have nothing : amount = 0 := Fin.le_zero_iff.mp permitted
        rw [nothing] at nonzero
        exact nonzero (sub_zero 0)
      · rw [allowance_moved] at nonzero
        exact ⟨owner, whom, rfl, nonzero⟩
    obtain ⟨whose, other, text, positive⟩ := before
    obtain ⟨earlier, member, spender, permitted, found, same⟩ :=
      tracks.approved id whose other positive
    exact ⟨earlier, List.mem_append_left _ member, spender, permitted, found, same.trans text⟩

theorem Tracks.handle (tracks : Tracks front state)
    (plain : Node.reserved command.submitter = false)
    (accepted : Accepts (handle command) state output after) :
    Tracks (front ++ [command]) after := by
  obtain ⟨operation, parsed, executed⟩ := accepts_handle accepted
  have silent : (∀ tokenId spender amount, operation ≠ .approve tokenId spender amount) →
      (∀ tokenId source target amount, operation ≠ .transferFrom tokenId source target amount) →
      (grants front).after command = grants front := by
    intro noApproval noSpending
    unfold Grants.after
    rw [parsed]
    cases operation with
    | approve tokenId spender amount => exact absurd rfl (noApproval tokenId spender amount)
    | transferFrom tokenId source target amount =>
        exact absurd rfl (noSpending tokenId source target amount)
    | create name symbol decimals initialSupply mintable => rfl
    | transfer tokenId target amount => rfl
    | mint tokenId target amount => rfl
    | burn tokenId amount => rfl
  cases operation with
  | approve tokenId spender amount => exact tracks.approve plain parsed executed
  | transferFrom tokenId source target amount => exact tracks.transferFrom plain parsed executed
  | create name symbol decimals initialSupply mintable =>
      obtain ⟨info, _, _, rfl⟩ := accepts_create executed
      apply tracks.congr _ (silent (by simp) (by simp))
      intro id owner spender
      rw [allowance_withBalance, allowance_putMeta]
  | transfer tokenId target amount =>
      obtain ⟨_, _, _, rfl⟩ := accepts_transfer executed
      apply tracks.congr _ (silent (by simp) (by simp))
      intro id owner spender
      rw [allowance_moved]
  | mint tokenId target amount =>
      obtain ⟨info, credited, raised, _, _, _, rfl⟩ := accepts_mint executed
      apply tracks.congr _ (silent (by simp) (by simp))
      intro id owner spender
      rw [allowance_putMeta, allowance_withBalance]
  | burn tokenId amount =>
      obtain ⟨info, _, _, rfl⟩ := accepts_burn executed
      apply tracks.congr _ (silent (by simp) (by simp))
      intro id owner spender
      rw [allowance_putMeta, allowance_withBalance]

/-! ### Runs -/

/-- No allowance is stored. -/
def NoAllowances (state : StateTree) : Prop :=
  ∀ id owner spender, allowance state id owner spender = 0

theorem tracks_run {start : StateTree} {commands : List Command} (none : NoAllowances start)
    (accepted : Run.Along TokenPrism.step Accepted start commands)
    (plain : ∀ command ∈ commands, Node.reserved command.submitter = false) :
    Tracks commands (Run.run TokenPrism.step start commands) := by
  induction commands using List.reverseRecOn with
  | nil =>
      constructor
      · intro id owner spender _ _
        rw [Run.run_nil, none]
        rfl
      · exact fun id owner spender nonzero => absurd (none id owner spender) nonzero
  | append_singleton commands command ih =>
      obtain ⟨front, ⟨output, after, last⟩, _⟩ := (Run.along_append TokenPrism.step).mp accepted
      rw [Run.run_snoc, step_of_accepts last]
      apply (ih front fun other member => plain other (List.mem_append_left _ member)).handle _ last
      exact plain command (List.mem_append_right _ (List.mem_singleton_self command))

omit [Blake3] in
/-- Covered spending adds up: what a pair has spent and has left was granted. -/
theorem Covered.total {commands : List Command} (covered : Covered commands) (id : Hash)
    (owner spender : PartyId) :
    (commands.map (spent id owner spender)).sum + grants commands id owner spender ≤
      (commands.map (granted id owner spender)).sum := by
  induction commands using List.reverseRecOn with
  | nil => exact Nat.le_refl _
  | append_singleton commands command ih =>
      have earlier : Covered commands := by
        intro front middle back split
        apply covered front middle (back ++ [command])
        rw [split, List.append_assoc, List.cons_append]
      have before := ih earlier
      have last := covered commands command [] rfl
      rw [List.map_append, List.map_append, List.sum_append, List.sum_append, grants_snoc]
      simp only [List.map_cons, List.map_nil, List.sum_cons, List.sum_nil, Nat.add_zero]
      generalize (commands.map (spent id owner spender)).sum = out at before ⊢
      generalize (commands.map (granted id owner spender)).sum = given at before ⊢
      unfold spent granted Grants.after
      cases parsed : fromSlice TokenCommand command.payload with
      | error text =>
          dsimp only
          exact before
      | ok operation =>
          cases operation with
          | approve tokenId whom amount =>
              dsimp only
              split
              · omega
              · omega
          | transferFrom tokenId source target amount =>
              have within := last tokenId source target amount parsed
              dsimp only
              split
              · rename_i same
                obtain ⟨rfl, rfl, rfl⟩ := same
                omega
              · exact before
          | create name symbol decimals initialSupply mintable => exact before
          | transfer tokenId target amount => exact before
          | mint tokenId target amount => exact before
          | burn tokenId amount => exact before

omit [Blake3] in
/-- Nobody else's approval gives an account that never submits anything to spend. -/
theorem grants_zero {commands : List Command} {owner : PartyId}
    (silent : ∀ command ∈ commands, command.submitter ≠ owner) (id : Hash) (spender : PartyId) :
    grants commands id owner spender = 0 := by
  induction commands using List.reverseRecOn with
  | nil => rfl
  | append_singleton commands command ih =>
      have before := ih fun other member => silent other (List.mem_append_left _ member)
      have other := silent command (List.mem_append_right _ (List.mem_singleton_self command))
      rw [grants_snoc]
      unfold Grants.after
      cases parsed : fromSlice TokenCommand command.payload with
      | error text => exact before
      | ok operation =>
          cases operation with
          | approve tokenId whom amount =>
              dsimp only
              rw [if_neg fun same => other same.2.1.symm]
              exact before
          | transferFrom tokenId source target amount =>
              dsimp only
              split
              · omega
              · exact before
          | create name symbol decimals initialSupply mintable => exact before
          | transfer tokenId target amount => exact before
          | mint tokenId target amount => exact before
          | burn tokenId amount => exact before

/-- Over a run of accepted commands of plainly named submitters from a state without
allowances, every transfer in another's name is covered by that account's own grants
to exactly this spender, and all of them together by the sum of these grants, exactly
when none spends under the text of somebody else's approval. -/
theorem spending_authorized_iff (start : StateTree) (commands : List Command)
    (none : NoAllowances start) (accepted : Run.Along TokenPrism.step Accepted start commands)
    (plain : ∀ command ∈ commands, Node.reserved command.submitter = false) :
    (Covered commands ∧ ∀ id owner spender,
      (commands.map (spent id owner spender)).sum ≤
        (commands.map (granted id owner spender)).sum) ↔
    ∀ front command back, commands = front ++ command :: back → ¬ Collides front command := by
  constructor
  · rintro ⟨covered, _⟩ front command back split
      ⟨tokenId, source, target, amount, parsed, positive, earlier, member, spender, permitted, _,
        other, text⟩
    have within := covered front command back split tokenId source target amount parsed
    have earlierPlain : Node.reserved earlier.submitter = false := by
      apply plain
      rw [split]
      exact List.mem_append_left _ member
    -- The account spent from is reserved, or it would be the approving one.
    have silent : ∀ before ∈ front, before.submitter ≠ source := by
      intro before inside same
      have sourcePlain : Node.reserved source = false := by
        rw [← same]
        apply plain
        rw [split]
        exact List.mem_append_left _ inside
      exact other (pairText_owners earlierPlain sourcePlain text).1
    rw [grants_zero silent] at within
    have bound : 0 < amount.val := positive
    omega
  · intro clean
    have covered : Covered commands := by
      intro front command back split tokenId source target amount parsed
      rw [split, Run.along_append] at accepted
      obtain ⟨before, ⟨output, after, last⟩, _⟩ := accepted
      have frontPlain : ∀ other ∈ front, Node.reserved other.submitter = false := by
        intro other member
        apply plain
        rw [split]
        exact List.mem_append_left _ member
      have tracks := tracks_run none before frontPlain
      have commandPlain : Node.reserved command.submitter = false := by
        apply plain
        rw [split]
        exact List.mem_append_right _ List.mem_cons_self
      obtain ⟨operation, read, executed⟩ := accepts_handle last
      rw [parsed] at read
      cases read
      obtain ⟨_, _, _, permitted, _⟩ := accepts_transferFrom executed
      by_cases nothing : amount = 0
      · rw [nothing]
        exact Nat.zero_le _
      · have positive : 0 < amount := Fin.pos_iff_ne_zero.mpr nothing
        have stored : allowance (Run.run TokenPrism.step start front) tokenId source
            command.submitter ≠ 0 := by
          intro zero
          rw [zero] at permitted
          exact nothing (Fin.le_zero_iff.mp permitted)
        obtain ⟨earlier, member, spender, granted, found, text⟩ :=
          tracks.approved tokenId source command.submitter stored
        have own : earlier.submitter = source := by
          by_contra other
          exact clean front command back split
            ⟨tokenId, source, target, amount, parsed, positive, earlier, member, spender, granted,
              found, other, text⟩
        have sourcePlain : Node.reserved source = false := by
          rw [← own]
          exact frontPlain earlier member
        rw [← tracks.exact tokenId source command.submitter sourcePlain commandPlain]
        exact permitted
    refine ⟨covered, fun id owner spender => ?_⟩
    have sums := covered.total id owner spender
    omega

/-! ### Spending from escrow -/

theorem approve_accepted {tokenId : Hash} {spender : PartyId} {amount : U128} {info : TokenMeta}
    (found : state.getJson TokenMeta (metaKey tokenId) = .ok (some info)) :
    ∃ output, Accepts (approve command tokenId spender amount) state output
      (state.putJson (allowKey tokenId command.submitter spender) amount.toText) := by
  simp only [approve, setAllowance, accepts_bind, accepts_modify, accepts_pure, accepts_loadMeta]
  exact ⟨_, info, state, ⟨found, rfl⟩, (), _, rfl, rfl, rfl⟩

theorem transferFrom_accepted {tokenId : Hash} {source target : PartyId} {amount : U128}
    {info : TokenMeta} (found : state.getJson TokenMeta (metaKey tokenId) = .ok (some info))
    (permitted : amount ≤ allowance state tokenId source command.submitter)
    (enough : amount ≤ balance state tokenId source)
    (fits : (balance state tokenId target).val + amount.val < 2 ^ 128) :
    ∃ output after, Accepts (transferFrom command tokenId source target amount) state output
      after := by
  have added : (balance state tokenId target).checkedAdd amount =
      some ⟨(balance state tokenId target).val + amount.val, fits⟩ := by
    unfold U128.checkedAdd
    rw [dif_pos fits]
  simp only [transferFrom, setBalance, setAllowance, accepts_bind, accepts_get, accepts_ite,
    accepts_throw, accepts_modify, accepts_pure, accepts_loadMeta, accepts_addOr]
  exact ⟨_, _, info, state, ⟨found, rfl⟩, state, state, ⟨rfl, rfl⟩, .inr ⟨not_lt.mpr permitted,
    state, state, ⟨rfl, rfl⟩, .inr ⟨not_lt.mpr enough, state, state, ⟨rfl, rfl⟩, (), _, rfl, _, _,
      ⟨added, rfl⟩, (), _, rfl, (), _, rfl, rfl, rfl⟩⟩⟩

end History

section Escrow

attribute [local instance] SerdeJson.compact Blake3.polynomial

def goldInfo : TokenMeta :=
  { tokenId := goldId
    name := "Gold"
    symbol := "GLD"
    decimals := 18
    totalSupply := 500
    owner := ⟨"alice"⟩
    mintable := true }

/-- One account holds all of the 500 units. -/
def heldBy (holder : PartyId) : StateTree :=
  withBalance (StateTree.empty.putJson (metaKey goldId) goldInfo) goldId holder 500

/-- An owner allows a spender 500 units, and mallory spends them from an account. -/
def spendingRun (owner spender source : String) : List Command :=
  [tokenCommand owner 0 (.approve goldId ⟨spender⟩ 500),
    tokenCommand "mallory" 0 (.transferFrom goldId ⟨source⟩ ⟨"mallory"⟩ 500)]

theorem noAllowances_heldBy (holder : PartyId) : NoAllowances (heldBy holder) := by
  intro id owner spender
  unfold heldBy
  rw [allowance_withBalance, allowance_putMeta]
  simp only [allowance, amountAt, StateTree.getJson?, StateTree.getJson, StateTree.get_empty,
    Option.bind_none, Option.getD_none]

theorem spendingRun_accepted {owner spender source : String} (other : source ≠ "mallory")
    (text : pairText ⟨owner⟩ ⟨spender⟩ = pairText ⟨source⟩ ⟨"mallory"⟩) :
    Run.Along TokenPrism.step Accepted (heldBy ⟨source⟩) (spendingRun owner spender source) := by
  have recorded : (heldBy ⟨source⟩).getJson TokenMeta (metaKey goldId) = .ok (some goldInfo) := by
    unfold heldBy withBalance
    rw [StateTree.putJson, StateTree.getJson_put_ne _ _ (balKey_ne_metaKey goldId goldId _)]
    exact StateTree.getJson_putJson StateTree.empty (metaKey goldId) goldInfo
  obtain ⟨output, approved⟩ := @approve_accepted _ _ (heldBy ⟨source⟩)
    (tokenCommand owner 0 (.approve goldId ⟨spender⟩ 500)) goldId ⟨spender⟩ 500 _ recorded
  have first : Accepts (handle (tokenCommand owner 0 (.approve goldId ⟨spender⟩ 500)))
      (heldBy ⟨source⟩) output
      ((heldBy ⟨source⟩).putJson (allowKey goldId ⟨owner⟩ ⟨spender⟩) (U128.toText 500)) := by
    unfold handle tokenCommand
    rw [fromSlice_toVec]
    exact approved
  refine ⟨⟨_, _, first⟩, ?_, trivial⟩
  rw [step_of_accepts first]
  apply accepted_of_execute rfl
  have different : PartyId.mk source ≠ ⟨"mallory"⟩ := fun same => other (PartyId.mk.inj same)
  have outside : ∀ who, allowKey goldId ⟨owner⟩ ⟨spender⟩ ≠ balKey goldId who :=
    fun who same => balKey_ne_allowKey goldId goldId who ⟨owner⟩ ⟨spender⟩ same.symm
  apply transferFrom_accepted
  · rw [StateTree.putJson, StateTree.getJson_put_ne _ _
      (fun same => metaKey_ne_allowKey goldId goldId _ _ same.symm)]
    exact recorded
  · change _ ≤ allowance (StateTree.putJson _ (allowKey goldId ⟨owner⟩ ⟨spender⟩) _) goldId
      ⟨source⟩ ⟨"mallory"⟩
    rw [allowance_putAllowance, if_pos ⟨rfl, text⟩]
  · rw [StateTree.putJson, balance_put_ne _ _ (outside _), heldBy, balance_withBalance_self]
  · have empty : balance StateTree.empty goldId ⟨"mallory"⟩ = 0 := by
      simp only [balance, amountAt, StateTree.getJson?, StateTree.getJson, StateTree.get_empty,
        Option.bind_none, Option.getD_none]
    rw [StateTree.putJson, balance_put_ne _ _ (outside _), heldBy,
      balance_withBalance_ne _ _ (.inl different), StateTree.putJson,
      balance_put_ne _ _ fun same => balKey_ne_metaKey _ _ _ same.symm, empty]
    decide

/-- The party named staking allows escrow/mallory, and mallory empties staking/escrow,
an account that has approved nothing. -/
theorem escrow_spent_unauthorized :
    NoAllowances (heldBy ⟨"staking/escrow"⟩) ∧
    Run.Along TokenPrism.step Accepted (heldBy ⟨"staking/escrow"⟩)
      (spendingRun "staking" "escrow/mallory" "staking/escrow") ∧
    (∀ command ∈ spendingRun "staking" "escrow/mallory" "staking/escrow",
      Node.reserved command.submitter = false) ∧
    ((spendingRun "staking" "escrow/mallory" "staking/escrow").map
        (granted goldId ⟨"staking/escrow"⟩ ⟨"mallory"⟩)).sum = 0 ∧
    ((spendingRun "staking" "escrow/mallory" "staking/escrow").map
        (spent goldId ⟨"staking/escrow"⟩ ⟨"mallory"⟩)).sum = 500 := by
  refine ⟨noAllowances_heldBy _, spendingRun_accepted (by decide) (by decide), ?_, ?_, ?_⟩
  · intro command member
    rcases List.mem_pair.mp member with rfl | rfl
    · decide
    · decide
  · simp only [spendingRun, tokenCommand, granted, List.map_cons, List.map_nil, fromSlice_toVec]
    decide
  · simp only [spendingRun, tokenCommand, spent, List.map_cons, List.map_nil, fromSlice_toVec]
    decide

/-- An allowance used by the spender it names. -/
theorem spending_authorized_bob :
    let commands := spendingRun "bob" "mallory" "bob"
    (∀ front command back, commands = front ++ command :: back → ¬ Collides front command) ∧
    Covered commands ∧ ∀ id owner spender,
      (commands.map (spent id owner spender)).sum ≤
        (commands.map (granted id owner spender)).sum := by
  intro commands
  have plain : ∀ command ∈ commands, Node.reserved command.submitter = false := by
    intro command member
    rcases List.mem_pair.mp member with rfl | rfl
    · decide
    · decide
  have clean : ∀ front command back, commands = front ++ command :: back →
      ¬ Collides front command := by
    rintro front command back split ⟨tokenId, source, target, amount, parsed, _, earlier, member,
      spender, permitted, found, different, _⟩
    have inside : command ∈ commands := by
      rw [split]
      exact List.mem_append_right _ List.mem_cons_self
    have before : earlier ∈ commands := by
      rw [split]
      exact List.mem_append_left _ member
    rcases List.mem_pair.mp inside with rfl | rfl
    · simp only [tokenCommand, fromSlice_toVec] at parsed
      cases parsed
    · simp only [tokenCommand, fromSlice_toVec] at parsed
      cases parsed
      rcases List.mem_pair.mp before with rfl | rfl
      · exact different rfl
      · simp only [tokenCommand, fromSlice_toVec] at found
        cases found
  exact ⟨clean, (spending_authorized_iff (heldBy ⟨"bob"⟩) commands (noAllowances_heldBy _)
    (spendingRun_accepted (by decide) rfl) plain).mpr clean⟩

end Escrow

end TokenPrism

end Veilux
