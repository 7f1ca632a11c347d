/-
Backing of bridged tokens.  Token and bridge commands run through one cascade; the
total of a token exceeds its recorded supply by no more than what was redeemed beyond
what was sent.
-/

import Veilux.Prism.BridgeRuns
import Veilux.Prism.TokenEffects

namespace Veilux

open PrismM
open TokenPrism (balance total supply excess withBalance supply_put_head)

namespace BridgePrism

section Effects

variable [SerdeJson] [Blake3] {command : Command} {state after : StateTree} {output : PrismOutput}

/-- The units of a token a bridge command takes out of circulation. -/
def sendOf (id : Hash) : BridgeCommand → Nat
  | .send _ _ tokenId amount => if tokenId = id then amount.val else 0
  | _ => 0

/-- The units of a token a bridge command credits. -/
def redeemOf (id : Hash) : BridgeCommand → Nat
  | .redeem transfer _ => if transfer.tokenId = id then transfer.amount.val else 0
  | _ => 0

theorem registerChain_balance {chain : ForeignChain} {guardians : List String} {quorum : Nat}
    (accepted : Accepts (registerChain command chain guardians quorum) state output after)
    (id : Hash) (who : PartyId) : balance after id who = balance state id who := by
  obtain ⟨_, _, _, rfl⟩ := accepts_registerChain accepted
  exact TokenPrism.balance_put_head state _ _ (by decide) id who

omit [Blake3] in
/-- One balance rewritten, and an entry of the bridge. -/
theorem credited_effect (state : StateTree) (tokenId : Hash) (who : PartyId) (value : U128)
    {head : String} (rest : String) (bytes : List UInt8)
    (balances : Keys.Apart head TokenPrism.balPrefix)
    (records : Keys.Apart head TokenPrism.metaPrefix) (id : Hash) :
    supply ((withBalance state tokenId who value).put (head ++ rest) bytes) id = supply state id ∧
      total ((withBalance state tokenId who value).put (head ++ rest) bytes) id +
          (if tokenId = id then (balance state tokenId who).val else 0) =
        total state id + if tokenId = id then value.val else 0 := by
  rw [supply_put_head _ _ _ records, TokenPrism.supply_withBalance,
    TokenPrism.total_put_head _ _ _ balances]
  refine ⟨rfl, ?_⟩
  by_cases same : tokenId = id
  · subst same
    rw [if_pos rfl, if_pos rfl]
    exact TokenPrism.total_withBalance state tokenId who value
  · rw [if_neg same, if_neg same, TokenPrism.total_withBalance_ne _ _ _ same]

variable [Ed25519]

/-- Sends leave the record and lower the total, redeems raise it. -/
theorem execute_effect {operation : BridgeCommand}
    (accepted : Accepts (execute command operation) state output after) (id : Hash) :
    supply after id = supply state id ∧
      total after id + sendOf id operation = total state id + redeemOf id operation := by
  cases operation with
  | registerChain chain guardians quorum =>
      obtain ⟨_, _, _, rfl⟩ := accepts_registerChain accepted
      refine ⟨supply_put_head state _ _ (by decide) id, ?_⟩
      change total (state.put (_ ++ _) _) id + 0 = _ + 0
      rw [TokenPrism.total_put_head state _ _ (by decide)]
  | send chain recipient tokenId amount =>
      obtain ⟨enough, sequence, rfl⟩ := accepts_send accepted
      obtain ⟨records, sum⟩ := credited_effect state tokenId command.submitter
        (balance state tokenId command.submitter - amount) (Nat.repr chain.asU16)
        (toVec (sequence + 1)) (show Keys.Apart "bridge/outseq/" _ by decide) (by decide) id
      refine ⟨records, ?_⟩
      have bound : amount.val ≤ (balance state tokenId command.submitter).val := enough
      rw [Fin.sub_val_of_le enough] at sum
      change total (StateTree.put _ (outSeqKey chain) _) id + _ = _ at sum
      change total (StateTree.put _ (outSeqKey chain) _) id +
        (if tokenId = id then amount.val else 0) = _ + 0
      by_cases same : tokenId = id
      · rw [if_pos same, if_pos same] at sum
        rw [if_pos same]
        omega
      · rw [if_neg same, if_neg same] at sum
        rw [if_neg same]
        exact sum
  | redeem transfer signatures =>
      obtain ⟨config, verified, credited, _, _, _, added, rfl⟩ := accepts_redeem accepted
      obtain ⟨records, sum⟩ := credited_effect state transfer.tokenId transfer.recipient credited
        (Nat.repr transfer.chain.asU16) (toVec (transfer.sequence + 1))
        (show Keys.Apart "bridge/seq/" _ by decide) (by decide) id
      refine ⟨records, ?_⟩
      rw [TokenPrism.checkedAdd_val added] at sum
      change total (StateTree.put _ (seqKey transfer.chain) _) id + _ = _ at sum
      change total (StateTree.put _ (seqKey transfer.chain) _) id + 0 =
        _ + if transfer.tokenId = id then transfer.amount.val else 0
      by_cases same : transfer.tokenId = id
      · rw [if_pos same, if_pos same] at sum
        rw [if_pos same]
        omega
      · rw [if_neg same, if_neg same] at sum
        rw [if_neg same]
        exact sum

theorem handle_underived (command : Command) : Underived (handle command) := by
  unfold handle
  split
  · exact underived_throw _
  · rename_i operation parsed
    cases operation
    all_goals
      repeat' first
        | exact underived_single _ _
        | exact underived_throw _
        | apply Underived.ite
        | apply Underived.bind; intro _
        | split

end Effects

/-! ### Runs of token and bridge commands -/

section Runs

variable [SerdeJson]

/-- What a routed command is to the bridge. -/
def operationOf (command : Command) : Option BridgeCommand :=
  if command.prism = "bridge" then (fromSlice BridgeCommand command.payload).toOption else none

def sent (id : Hash) (commands : List Command) : Nat :=
  ((commands.filterMap operationOf).map (sendOf id)).sum

def credits (id : Hash) (commands : List Command) : Nat :=
  ((commands.filterMap operationOf).map (redeemOf id)).sum

/-- An account pays itself in a token command. -/
def PaysItself (command : Command) : Prop :=
  command.prism = "token" ∧ TokenPrism.SelfMove command

variable [Blake3] [Ed25519]

def cascade : Cascade := (Cascade.empty.install TokenPrism.prism).install prism

theorem lookup_cascade {name : String} {found : Prism}
    (installed : cascade.prisms.lookup name = some found) :
    (name = "token" ∧ found = TokenPrism.prism) ∨ (name = "bridge" ∧ found = prism) := by
  by_cases bridge : name = "bridge"
  · subst bridge
    have here : cascade.prisms.lookup "bridge" = some prism := AList.lookup_insert _
    rw [here] at installed
    exact .inr ⟨rfl, (Option.some.inj installed).symm⟩
  · have below : cascade.prisms.lookup name =
        (Cascade.empty.install TokenPrism.prism).prisms.lookup name := AList.lookup_insert_ne bridge
    rw [below] at installed
    by_cases token : name = "token"
    · subst token
      have here : (Cascade.empty.install TokenPrism.prism).prisms.lookup "token" =
          some TokenPrism.prism := AList.lookup_insert _
      rw [here] at installed
      exact .inl ⟨rfl, (Option.some.inj installed).symm⟩
    · have none : (Cascade.empty.install TokenPrism.prism).prisms.lookup name = none :=
        AList.lookup_insert_ne token
      rw [none] at installed
      cases installed

theorem cascade_flat : cascade.Flat := by
  intro name found installed
  rcases lookup_cascade installed with ⟨_, rfl⟩ | ⟨_, rfl⟩
  · exact TokenPrism.handle_underived
  · exact handle_underived

/-- One routed command: what the record promises beyond the balances falls by no more than
what is redeemed beyond what is sent. -/
theorem excess_step {command : Command} {state after : StateTree} {receipt : CascadeReceipt}
    (applied : cascade.apply command state = (.ok receipt, after))
    (proper : ¬ PaysItself command) (id : Hash) :
    excess state id + sent id [command] ≤ excess after id + credits id [command] := by
  obtain ⟨found, output, installed, accepted⟩ := cascade_flat.handled applied
  unfold sent credits
  rcases lookup_cascade installed with ⟨token, rfl⟩ | ⟨bridge, rfl⟩
  · have other : operationOf command = none := by
      unfold operationOf
      rw [if_neg (by rw [token]; decide)]
    have kept := TokenPrism.excess_le accepted (fun self => proper ⟨token, self⟩) id
    rw [List.filterMap_cons_none other]
    simpa using kept
  · obtain ⟨operation, parsed, executed⟩ := accepts_handle accepted
    have routed : operationOf command = some operation := by
      unfold operationOf
      rw [if_pos bridge, parsed]
      rfl
    obtain ⟨records, sum⟩ := execute_effect executed id
    rw [List.filterMap_cons_some routed]
    simp only [List.filterMap_nil, List.map_cons, List.map_nil, List.sum_cons, List.sum_nil,
      Nat.add_zero]
    unfold excess
    omega

omit [Blake3] [Ed25519] in
theorem sent_append (id : Hash) (front back : List Command) :
    sent id (front ++ back) = sent id front + sent id back := by
  unfold sent
  rw [List.filterMap_append, List.map_append, List.sum_append]

omit [Blake3] [Ed25519] in
theorem credits_append (id : Hash) (front back : List Command) :
    credits id (front ++ back) = credits id front + credits id back := by
  unfold credits
  rw [List.filterMap_append, List.map_append, List.sum_append]

omit [Blake3] [Ed25519] in
theorem ledger_excess {state : StateTree} (ledger : TokenPrism.Ledger state) (id : Hash) :
    excess state id = 0 := by
  unfold excess
  rcases ledger id with ⟨absent, none⟩ | ⟨info, stored, sum⟩
  · rw [TokenPrism.supply_of_absent absent, none]
    rfl
  · have read : state.getJson TokenMeta (TokenPrism.metaKey id) = .ok (some info) := by
      unfold StateTree.getJson
      rw [stored]
      dsimp only
      rw [fromSlice_toVec]
    rw [TokenPrism.supply_of_read read, sum, Int.sub_self]

theorem excess_run {start : StateTree} {commands : List Command}
    (ledger : TokenPrism.Ledger start)
    (accepted : Run.Along cascade.step cascade.Accepted start commands)
    (proper : ∀ command ∈ commands, ¬ PaysItself command) (id : Hash) :
    (sent id commands : Int) ≤
      excess (Run.run cascade.step start commands) id + credits id commands := by
  induction commands using List.reverseRecOn with
  | nil =>
      rw [Run.run_nil, ledger_excess ledger]
      rfl
  | append_singleton front command ih =>
      obtain ⟨before, ⟨receipt, after, applied⟩, _⟩ := (Run.along_append cascade.step).mp accepted
      have earlier := ih before fun other member =>
        proper other (List.mem_append_left _ member)
      have last := excess_step applied
        (proper command (List.mem_append_right _ (List.mem_singleton_self _))) id
      rw [Run.run_snoc, Cascade.step_eq applied, sent_append, credits_append]
      push_cast
      omega

/-- A token's total exceeds its recorded supply by no more than what was redeemed beyond what
was sent; redeems were attested by the guardians registered for their chain, and
registrations move nothing. -/
theorem bridge_backing (start : StateTree) (commands : List Command)
    (ledger : TokenPrism.Ledger start)
    (accepted : Run.Along cascade.step cascade.Accepted start commands)
    (proper : ∀ command ∈ commands, ¬ PaysItself command) :
    (∀ front back, commands = front ++ back → ∀ id,
      total (Run.run cascade.step start front) id + sent id front ≤
          supply (Run.run cascade.step start front) id + credits id front ∧
        (credits id front ≤ sent id front →
          total (Run.run cascade.step start front) id ≤
            supply (Run.run cascade.step start front) id)) ∧
    (∀ front command back transfer signatures, commands = front ++ command :: back →
      operationOf command = some (.redeem transfer signatures) →
      ∃ config, Registered (Run.run cascade.step start front) config transfer.chain ∧
        ∃ signers : List String, signers.Nodup ∧ config.quorum ≤ signers.length ∧
          ∀ guardian ∈ signers,
            SignedFor config.guardians transfer.digest signatures guardian) ∧
    (∀ front command back chain guardians quorum, commands = front ++ command :: back →
      operationOf command = some (.registerChain chain guardians quorum) → ∀ id who,
        balance (Run.run cascade.step start (front ++ [command])) id who =
          balance (Run.run cascade.step start front) id who) := by
  have executed : ∀ front command back operation, commands = front ++ command :: back →
      operationOf command = some operation → ∃ output, Accepts (execute command operation)
        (Run.run cascade.step start front) output
        (Run.run cascade.step start (front ++ [command])) := by
    intro front command back operation split routed
    rw [split] at accepted
    obtain ⟨_, ⟨receipt, after, applied⟩, _⟩ := (Run.along_append cascade.step).mp accepted
    obtain ⟨found, output, installed, handled⟩ := cascade_flat.handled applied
    rw [Run.run_snoc, Cascade.step_eq applied]
    unfold operationOf at routed
    split at routed
    · rename_i bridge
      rcases lookup_cascade installed with ⟨token, rfl⟩ | ⟨_, rfl⟩
      · rw [bridge] at token
        exact absurd token (by decide)
      · obtain ⟨parsedOperation, parsed, executed⟩ := accepts_handle handled
        rw [parsed] at routed
        cases routed
        exact ⟨output, executed⟩
    · cases routed
  refine ⟨?_, ?_, ?_⟩
  · intro front back split id
    rw [split] at accepted proper
    have bound := excess_run ledger ((Run.along_append cascade.step).mp accepted).1
      (fun command member => proper command (List.mem_append_left _ member)) id
    unfold excess at bound
    constructor
    · omega
    · intro covered
      omega
  · intro front command back transfer signatures split routed
    obtain ⟨output, redeemed⟩ := executed front command back _ split routed
    obtain ⟨config, verified, _, registered, _, quorum, _, _⟩ := accepts_redeem redeemed
    exact ⟨config, registered, verifyQuorum_spec quorum⟩
  · intro front command back chain guardians quorum split routed id who
    obtain ⟨output, registered⟩ := executed front command back _ split routed
    exact registerChain_balance registered id who

end Runs

/-! ### A chain of one guardian, again -/

section Solo

attribute [local instance] SerdeJson.compact Blake3.polynomial Ed25519.keyed

def bobGold : Hash := TokenPrism.createdId ⟨"bob"⟩ "GLD" "Gold"

/-- Bob creates a thousand units; Alice registers a chain under her own key and redeems 250 of
them to herself. -/
def unbackedRun : List Command :=
  TokenPrism.tokenCommand "bob" 0 (.create "Gold" "GLD" 18 1000 true) :: soloRun bobGold

/-- The state behind Bob's creation. -/
def goldState (info : TokenMeta) : StateTree :=
  withBalance (StateTree.empty.putJson (TokenPrism.metaKey bobGold) info) bobGold ⟨"bob"⟩ 1000

def goldBridged (info : TokenMeta) : StateTree :=
  (goldState info).putJson (BridgeConfig.configKey .custom) soloConfig

theorem get_goldState (info : TokenMeta) {head : String} (rest : String)
    (balances : Keys.Apart head TokenPrism.balPrefix)
    (records : Keys.Apart head TokenPrism.metaPrefix) :
    (goldState info).get (head ++ rest) = none := by
  unfold goldState
  rw [TokenPrism.get_head_withBalance _ _ balances, StateTree.putJson,
    StateTree.get_put_ne _ _ fun same => TokenPrism.head_ne_metaKey records rest bobGold same.symm,
    StateTree.get_empty]

theorem balance_goldBridged (info : TokenMeta) :
    balance (goldBridged info) bobGold ⟨"alice"⟩ = 0 := by
  have others : PartyId.mk "bob" ≠ PartyId.mk "alice" := by decide
  unfold goldBridged goldState StateTree.putJson
  rw [BridgeConfig.configKey, TokenPrism.balance_put_head _ _ _ (by decide),
    TokenPrism.balance_withBalance_ne _ _ (.inl others),
    TokenPrism.balance_put_ne _ _ fun same => TokenPrism.balKey_ne_metaKey _ _ _ same.symm]
  simp only [balance, TokenPrism.amountAt, StateTree.getJson?, StateTree.getJson,
    StateTree.get_empty, Option.bind_none, Option.getD_none]

theorem total_goldBridged (info : TokenMeta) : total (goldBridged info) bobGold = 1000 := by
  have empty : balance (StateTree.empty.putJson (TokenPrism.metaKey bobGold) info) bobGold
      ⟨"bob"⟩ = 0 := by
    unfold StateTree.putJson
    rw [TokenPrism.balance_put_ne _ _ fun same => TokenPrism.balKey_ne_metaKey _ _ _ same.symm]
    simp only [balance, TokenPrism.amountAt, StateTree.getJson?, StateTree.getJson,
      StateTree.get_empty, Option.bind_none, Option.getD_none]
  have none : total StateTree.empty bobGold = 0 := by
    have ledger := ledger_excess TokenPrism.noTokens_empty.ledger bobGold
    have unrecorded := TokenPrism.supply_of_absent
      (StateTree.get_empty (TokenPrism.metaKey bobGold))
    unfold excess at ledger
    omega
  have sum := TokenPrism.total_withBalance
    (StateTree.empty.putJson (TokenPrism.metaKey bobGold) info) bobGold ⟨"bob"⟩ 1000
  rw [TokenPrism.total_putMeta, none, empty] at sum
  unfold goldBridged StateTree.putJson
  rw [BridgeConfig.configKey, TokenPrism.total_put_head _ _ _ (by decide)]
  exact sum

theorem unbackedRun_accepted :
    Run.Along cascade.step cascade.Accepted StateTree.empty unbackedRun ∧
      total (Run.run cascade.step StateTree.empty unbackedRun) bobGold = 1250 ∧
      supply (Run.run cascade.step StateTree.empty unbackedRun) bobGold = 1000 := by
  have token : cascade.prisms.lookup "token" = some TokenPrism.prism := by
    rfl
  have bridge : cascade.prisms.lookup "bridge" = some prism := AList.lookup_insert _
  obtain ⟨output, info, created⟩ : ∃ output info, Accepts (TokenPrism.create
      (TokenPrism.tokenCommand "bob" 0 (.create "Gold" "GLD" 18 1000 true)) "Gold" "GLD" 18 1000
      true) StateTree.empty output (goldState info) :=
    TokenPrism.create_accepted (StateTree.get_empty _)
  have handled : Accepts (TokenPrism.handle
      (TokenPrism.tokenCommand "bob" 0 (.create "Gold" "GLD" 18 1000 true))) StateTree.empty output
      (goldState info) := by
    unfold TokenPrism.handle TokenPrism.tokenCommand
    rw [fromSlice_toVec]
    exact created
  obtain ⟨first, creates⟩ : ∃ receipt, cascade.apply (TokenPrism.tokenCommand "bob" 0 _)
      StateTree.empty = (.ok receipt, goldState info) := cascade_flat.apply_ok token handled
  obtain ⟨_, registers⟩ := soloRegister_accepted (get_goldState info _ (by decide) (by decide))
  obtain ⟨second, registered⟩ : ∃ receipt, cascade.apply (bridgeCommand "alice" 0 _)
      (goldState info) = (.ok receipt, goldBridged info) := cascade_flat.apply_ok bridge registers
  have unused : (goldBridged info).get (seqKey .custom) = none := by
    unfold goldBridged StateTree.putJson
    rw [StateTree.get_put_ne _ _ (Ne.symm (seqKey_ne_configKey _ _))]
    exact get_goldState info _ (by decide) (by decide)
  have added : (balance (goldBridged info) bobGold ⟨"alice"⟩).checkedAdd 250 = some 250 := by
    rw [balance_goldBridged]
    rfl
  obtain ⟨_, redeems⟩ := soloRedeem_accepted bobGold (StateTree.getJson_putJson _ _ _) unused added
  obtain ⟨third, redeemed⟩ : ∃ receipt, cascade.apply (bridgeCommand "alice" 1 _)
      (goldBridged info) = (.ok receipt, _) := cascade_flat.apply_ok bridge redeems
  have final : Run.run cascade.step StateTree.empty unbackedRun =
      (withBalance (goldBridged info) bobGold ⟨"alice"⟩ 250).putJson (seqKey .custom)
        (1 : UInt64) := by
    change cascade.step (cascade.step (cascade.step StateTree.empty _) _) _ = _
    rw [Cascade.step_eq creates, Cascade.step_eq registered]
    exact Cascade.step_eq redeemed
  refine ⟨⟨⟨first, _, creates⟩, ?_⟩, ?_, ?_⟩
  · rw [Cascade.step_eq creates]
    refine ⟨⟨second, _, registered⟩, ?_, trivial⟩
    rw [Cascade.step_eq registered]
    exact ⟨third, _, redeemed⟩
  · have sum := TokenPrism.total_withBalance (goldBridged info) bobGold ⟨"alice"⟩ 250
    rw [balance_goldBridged, total_goldBridged] at sum
    rw [final, StateTree.putJson, seqKey, TokenPrism.total_put_head _ _ _ (by decide)]
    exact sum
  · obtain ⟨stored, recorded, _, same⟩ := TokenPrism.accepts_create created
    rw [final, StateTree.putJson, seqKey, supply_put_head _ _ _ (by decide),
      TokenPrism.supply_withBalance, goldBridged, StateTree.putJson, BridgeConfig.configKey,
      supply_put_head _ _ _ (by decide), same, TokenPrism.supply_withBalance]
    exact (TokenPrism.supply_putMeta _ _ _).trans (congrArg Fin.val recorded)

theorem unbackedRun_proper : ∀ command ∈ unbackedRun, ¬ PaysItself command := by
  intro command member pays
  simp only [unbackedRun, soloRun, List.mem_cons, List.not_mem_nil, or_false] at member
  rcases member with rfl | rfl | rfl
  · have self := pays.2
    simp only [TokenPrism.SelfMove, TokenPrism.tokenCommand, fromSlice_toVec] at self
  · exact absurd pays.1 (by decide)
  · exact absurd pays.1 (by decide)

/-- An ordinary party credits itself units that nobody issued or sent. -/
theorem bridge_unbacked :
    TokenPrism.Ledger StateTree.empty ∧
    Run.Along cascade.step cascade.Accepted StateTree.empty unbackedRun ∧
    (∀ command ∈ unbackedRun, ¬ PaysItself command) ∧ sent bobGold unbackedRun = 0 ∧
    supply (Run.run cascade.step StateTree.empty unbackedRun) bobGold <
      total (Run.run cascade.step StateTree.empty unbackedRun) bobGold := by
  obtain ⟨accepted, sum, recorded⟩ := unbackedRun_accepted
  refine ⟨TokenPrism.noTokens_empty.ledger, accepted, unbackedRun_proper, ?_, ?_⟩
  · simp [sent, unbackedRun, soloRun, operationOf, bridgeCommand, TokenPrism.tokenCommand,
      fromSlice_toVec, Except.toOption, sendOf]
  · rw [sum, recorded]
    decide

/-- Before the redeem the token is backed. -/
theorem bridge_backing_gold :
    TokenPrism.Ledger StateTree.empty ∧
    Run.Along cascade.step cascade.Accepted StateTree.empty unbackedRun ∧
    total (Run.run cascade.step StateTree.empty (unbackedRun.take 2)) bobGold ≤
      supply (Run.run cascade.step StateTree.empty (unbackedRun.take 2)) bobGold := by
  obtain ⟨accepted, _, _⟩ := unbackedRun_accepted
  refine ⟨TokenPrism.noTokens_empty.ledger, accepted, ?_⟩
  apply ((bridge_backing _ _ TokenPrism.noTokens_empty.ledger accepted unbackedRun_proper).1
    (unbackedRun.take 2) (unbackedRun.drop 2) (List.take_append_drop 2 _).symm bobGold).2
  simp [credits, sent, unbackedRun, soloRun, operationOf, bridgeCommand, TokenPrism.tokenCommand,
    fromSlice_toVec, Except.toOption, redeemOf]

end Solo

end BridgePrism

end Veilux
