/-
Runs of the bridge prism.  The stored configuration of a chain is its last
registration and the stored sequence number is the number of redeems so far, so the
redeems of a chain are numbered from zero without gap or repetition.
-/

import Veilux.Kernel.Merkle
import Veilux.Lib.Run
import Veilux.Prism.Bridge
import Veilux.Prism.TokenKeys

namespace Veilux

open Bytes (leBytes utf8)

/-! ### The digest of a transfer -/

namespace InboundTransfer

def digestInput (transfer : InboundTransfer) : List UInt8 :=
  Hash.commitBytes "bridge/inbound" transfer.digestParts

/-- Texts are shorter than the address space. -/
def Sized (transfer : InboundTransfer) : Prop :=
  (utf8 transfer.foreignSender).length < 2 ^ 64 ∧ transfer.recipient.bytes.length < 2 ^ 64

theorem Sized.parts {transfer : InboundTransfer} (sized : transfer.Sized) :
    ∀ part ∈ transfer.digestParts, part.length < 2 ^ 64 := by
  intro part member
  simp only [digestParts, List.mem_cons, List.not_mem_nil, or_false] at member
  rcases member with rfl | rfl | rfl | rfl | rfl | rfl
  · rw [Bytes.leBytes_length]
    decide
  · rw [Bytes.leBytes_length]
    decide
  · exact sized.1
  · exact sized.2
  · rw [Hash.asBytes_length]
    decide
  · rw [Bytes.leBytes_length]
    decide

theorem digestParts_injective {left right : InboundTransfer}
    (same : left.digestParts = right.digestParts) : left = right := by
  cases left
  cases right
  simp only [digestParts, List.cons.injEq, and_true] at same
  obtain ⟨chains, sequences, senders, recipients, tokens, amounts⟩ := same
  have chainBytes : ∀ chain : ForeignChain, chain.asU16 < 256 ^ 2 := by
    intro chain
    cases chain <;> decide
  rw [mk.injEq]
  refine ⟨?_, ?_, ?_, ?_, ?_, ?_⟩
  · exact ForeignChain.asU16_injective
      (Bytes.leBytes_injective (chainBytes _) (chainBytes _) chains)
  · exact UInt64.toNat_inj.mp
      (Bytes.leBytes_injective (UInt64.toNat_lt _) (UInt64.toNat_lt _) sequences)
  · exact Bytes.utf8_injective senders
  · exact PartyId.bytes_injective recipients
  · exact Hash.asBytes_injective tokens
  · exact Fin.ext (Bytes.leBytes_injective (Fin.isLt _) (Fin.isLt _) amounts)

theorem digest_injective [Blake3] {left right : InboundTransfer} (leftSized : left.Sized)
    (rightSized : right.Sized) (free : CollisionFree {left.digestInput, right.digestInput})
    (same : left.digest = right.digest) : left = right := by
  apply digestParts_injective
  apply Hash.commitBytes_injective leftSized.parts rightSized.parts
  exact free _ (Set.mem_insert _ _) _ (Set.mem_insert_of_mem _ (Set.mem_singleton _)) same

end InboundTransfer

namespace BridgePrism

open PrismM
open TokenPrism (balance withBalance)

/-! ### The keys do not collide -/

theorem seqKey_injective {left right : ForeignChain} (same : seqKey left = seqKey right) :
    left = right := by
  cases left <;> cases right <;> first | rfl | exact absurd same (by decide)

theorem configKey_injective {left right : ForeignChain}
    (same : BridgeConfig.configKey left = BridgeConfig.configKey right) : left = right := by
  cases left <;> cases right <;> first | rfl | exact absurd same (by decide)

theorem seqKey_ne_configKey (left right : ForeignChain) :
    seqKey left ≠ BridgeConfig.configKey right :=
  Keys.Apart.append_ne (by decide) _ _

theorem outSeqKey_ne_seqKey (left right : ForeignChain) : outSeqKey left ≠ seqKey right :=
  Keys.Apart.append_ne (by decide) _ _

theorem outSeqKey_ne_configKey (left right : ForeignChain) :
    outSeqKey left ≠ BridgeConfig.configKey right :=
  Keys.Apart.append_ne (by decide) _ _

theorem get_configKey_withBalance (state : StateTree) (chain : ForeignChain) (id : Hash)
    (who : PartyId) (value : U128) :
    (withBalance state id who value).get (BridgeConfig.configKey chain) =
      state.get (BridgeConfig.configKey chain) :=
  TokenPrism.get_head_withBalance state _ (by decide) id who value

theorem get_seqKey_withBalance (state : StateTree) (chain : ForeignChain) (id : Hash)
    (who : PartyId) (value : U128) :
    (withBalance state id who value).get (seqKey chain) = state.get (seqKey chain) :=
  TokenPrism.get_head_withBalance state _ (by decide) id who value

/-! ### What a run has registered and redeemed -/

section Runs

variable [SerdeJson]

/-- The configuration a command registers for the chain. -/
def registration (chain : ForeignChain) (command : Command) : Option BridgeConfig :=
  match fromSlice BridgeCommand command.payload with
  | .ok (.registerChain registered guardians quorum) =>
      if registered = chain then
        some
          { chain := chain
            guardians := guardians
            quorum := quorum
            admin := command.submitter }
      else none
  | _ => none

/-- The last registration of the chain. -/
def registered (chain : ForeignChain) (commands : List Command) : Option BridgeConfig :=
  (commands.filterMap (registration chain)).getLast?

/-- The transfer a command redeems from the chain. -/
def redemption (chain : ForeignChain) (command : Command) : Option InboundTransfer :=
  match fromSlice BridgeCommand command.payload with
  | .ok (.redeem transfer _) => if transfer.chain = chain then some transfer else none
  | _ => none

def redeemed (chain : ForeignChain) (commands : List Command) : List InboundTransfer :=
  commands.filterMap (redemption chain)

/-- No chain has been registered and nothing redeemed. -/
def Fresh (state : StateTree) : Prop :=
  ∀ chain, state.get (BridgeConfig.configKey chain) = none ∧ state.get (seqKey chain) = none

/-- The state knows the last registrations and the number of redeems. -/
structure Tracks (commands : List Command) (state : StateTree) : Prop where
  config : ∀ chain, state.getJson BridgeConfig (BridgeConfig.configKey chain) =
    .ok (registered chain commands)
  sequence : ∀ chain, sequenceAt state (seqKey chain) =
    UInt64.ofNat (redeemed chain commands).length

theorem Fresh.tracks {state : StateTree} (fresh : Fresh state) : Tracks [] state := by
  constructor
  · intro chain
    unfold StateTree.getJson
    rw [(fresh chain).1]
    rfl
  · intro chain
    unfold sequenceAt StateTree.getJson? StateTree.getJson
    rw [(fresh chain).2]
    rfl

/-- Reads of the bridge's own entries are the same in both states. -/
theorem Tracks.congr {commands : List Command} {state after : StateTree}
    {command : Command} (tracks : Tracks commands state)
    (configs : ∀ chain, after.get (BridgeConfig.configKey chain) =
      state.get (BridgeConfig.configKey chain))
    (sequences : ∀ chain, after.get (seqKey chain) = state.get (seqKey chain))
    (unregistered : ∀ chain, registration chain command = none)
    (unredeemed : ∀ chain, redemption chain command = none) :
    Tracks (commands ++ [command]) after := by
  constructor
  · intro chain
    have same : registered chain (commands ++ [command]) = registered chain commands := by
      unfold registered
      rw [List.filterMap_append, List.filterMap_cons_none (unregistered chain),
        List.filterMap_nil, List.append_nil]
    rw [same, ← tracks.config chain]
    unfold StateTree.getJson
    rw [configs chain]
  · intro chain
    have same : redeemed chain (commands ++ [command]) = redeemed chain commands := by
      unfold redeemed
      rw [List.filterMap_append, List.filterMap_cons_none (unredeemed chain),
        List.filterMap_nil, List.append_nil]
    rw [same, ← tracks.sequence chain]
    unfold sequenceAt StateTree.getJson? StateTree.getJson
    rw [sequences chain]

theorem redeemed_snoc (chain : ForeignChain) (commands : List Command) (command : Command) :
    redeemed chain (commands ++ [command]) =
      redeemed chain commands ++ (redemption chain command).toList := by
  unfold redeemed
  rw [List.filterMap_append]
  cases found : redemption chain command with
  | none =>
      rw [List.filterMap_cons_none found]
      rfl
  | some transfer =>
      rw [List.filterMap_cons_some found]
      rfl

theorem registered_snoc {chain : ForeignChain} {commands : List Command} {command : Command}
    {config : BridgeConfig} (found : registration chain command = some config) :
    registered chain (commands ++ [command]) = some config := by
  unfold registered
  rw [List.filterMap_append, List.filterMap_cons_some found, List.filterMap_nil]
  exact List.getLast?_concat

variable [Blake3] [Ed25519] {command : Command} {commands : List Command}
  {state after : StateTree} {output : PrismOutput}

/-! ### One accepted command -/

theorem accepts_handle (accepted : Accepts (handle command) state output after) :
    ∃ operation, fromSlice BridgeCommand command.payload = .ok operation ∧
      Accepts (execute command operation) state output after := by
  unfold handle at accepted
  cases parsed : fromSlice BridgeCommand command.payload with
  | error text =>
      rw [parsed] at accepted
      exact absurd accepted accepts_throw
  | ok operation =>
      rw [parsed] at accepted
      exact ⟨operation, rfl, accepted⟩

omit [Ed25519] in
theorem Tracks.registerChain {chain : ForeignChain} {guardians : List String} {quorum : Nat}
    (tracks : Tracks commands state)
    (parsed : fromSlice BridgeCommand command.payload =
      .ok (.registerChain chain guardians quorum))
    (accepted : Accepts (registerChain command chain guardians quorum) state output after) :
    Tracks (commands ++ [command]) after := by
  obtain ⟨_, _, _, rfl⟩ := accepts_registerChain accepted
  have unredeemed : ∀ other, redemption other command = none := by
    intro other
    unfold redemption
    rw [parsed]
  constructor
  · intro other
    by_cases same : chain = other
    · subst same
      rw [StateTree.getJson_putJson, registered_snoc]
      unfold registration
      rw [parsed]
      dsimp only
      rw [if_pos rfl]
    · have unregistered : registration other command = none := by
        unfold registration
        rw [parsed]
        dsimp only
        rw [if_neg same]
      unfold registered
      rw [List.filterMap_append, List.filterMap_cons_none unregistered, List.filterMap_nil,
        List.append_nil]
      unfold StateTree.putJson
      rw [StateTree.getJson_put_ne _ _ fun equal => same (configKey_injective equal)]
      exact tracks.config other
  · intro other
    rw [redeemed_snoc, unredeemed other, Option.toList_none, List.append_nil,
      ← tracks.sequence other]
    unfold sequenceAt StateTree.putJson
    rw [StateTree.getJson?_put_ne _ _ fun equal => seqKey_ne_configKey other chain equal.symm]

omit [Ed25519] in
theorem Tracks.send {chain : ForeignChain} {recipient : String} {tokenId : Hash} {amount : U128}
    (tracks : Tracks commands state)
    (parsed : fromSlice BridgeCommand command.payload = .ok (.send chain recipient tokenId amount))
    (accepted : Accepts (send command chain recipient tokenId amount) state output after) :
    Tracks (commands ++ [command]) after := by
  obtain ⟨_, sequence, rfl⟩ := accepts_send accepted
  apply tracks.congr
  · intro other
    unfold StateTree.putJson
    rw [StateTree.get_put_ne _ _ (outSeqKey_ne_configKey chain other)]
    exact get_configKey_withBalance state other _ _ _
  · intro other
    unfold StateTree.putJson
    rw [StateTree.get_put_ne _ _ (outSeqKey_ne_seqKey chain other)]
    exact get_seqKey_withBalance state other _ _ _
  · intro other
    unfold registration
    rw [parsed]
  · intro other
    unfold redemption
    rw [parsed]

theorem Tracks.redeem {transfer : InboundTransfer} {signatures : List GuardianSignature}
    (tracks : Tracks commands state)
    (parsed : fromSlice BridgeCommand command.payload = .ok (.redeem transfer signatures))
    (accepted : Accepts (redeem command transfer signatures) state output after) :
    Tracks (commands ++ [command]) after := by
  obtain ⟨config, verified, credited, registered, sequence, quorum, added, rfl⟩ :=
    accepts_redeem accepted
  have redeems : ∀ other, redemption other command =
      if transfer.chain = other then some transfer else none := by
    intro other
    unfold redemption
    rw [parsed]
  have unregistered : ∀ other, registration other command = none := by
    intro other
    unfold registration
    rw [parsed]
  constructor
  · intro other
    unfold BridgePrism.registered
    rw [List.filterMap_append, List.filterMap_cons_none (unregistered other), List.filterMap_nil,
      List.append_nil]
    unfold StateTree.putJson
    rw [StateTree.getJson_put_ne _ _ (seqKey_ne_configKey transfer.chain other)]
    have kept := tracks.config other
    unfold StateTree.getJson at kept ⊢
    rw [get_configKey_withBalance]
    exact kept
  · intro other
    rw [redeemed_snoc, redeems other]
    by_cases same : transfer.chain = other
    · subst same
      rw [if_pos rfl, Option.toList_some, List.length_append, List.length_singleton]
      unfold sequenceAt
      rw [StateTree.getJson?_putJson, Option.getD_some, sequence, tracks.sequence]
      rw [UInt64.ofNat_add]
      rfl
    · rw [if_neg same, Option.toList_none, List.append_nil, ← tracks.sequence other]
      unfold sequenceAt StateTree.putJson
      rw [StateTree.getJson?_put_ne _ _ fun equal => same (seqKey_injective equal)]
      unfold StateTree.getJson? StateTree.getJson
      rw [get_seqKey_withBalance]

theorem Tracks.step (tracks : Tracks commands state) (accepted : prism.Accepted state command) :
    Tracks (commands ++ [command]) (prism.step state command) := by
  obtain ⟨output, after, accepted⟩ := accepted
  rw [Prism.step_eq accepted]
  obtain ⟨operation, parsed, executed⟩ := accepts_handle accepted
  cases operation with
  | registerChain chain guardians quorum => exact tracks.registerChain parsed executed
  | send chain recipient tokenId amount => exact tracks.send parsed executed
  | redeem transfer signatures => exact tracks.redeem parsed executed

theorem tracks_run {start : StateTree} (fresh : Fresh start)
    (accepted : Run.Along prism.step prism.Accepted start commands) :
    Tracks commands (Run.run prism.step start commands) := by
  induction commands using List.reverseRecOn with
  | nil => exact fresh.tracks
  | append_singleton front command ih =>
      obtain ⟨before, last⟩ := (Run.along_append prism.step).mp accepted
      rw [Run.run_snoc]
      exact (ih before).step last.1

/-! ### Failures -/

omit [Blake3] [Ed25519] in
theorem loadConfig_clean (chain : ForeignChain) : Clean (loadConfig chain) := by
  unfold loadConfig
  apply Clean.read
  intro state
  split
  · exact clean_throw _
  · exact clean_throw _
  · exact clean_pure _

omit [SerdeJson] [Blake3] [Ed25519] in
theorem addOr_clean (text : String) (left right : U128) :
    Clean (TokenPrism.addOr text left right) := by
  unfold TokenPrism.addOr
  split
  · exact clean_throw _
  · exact clean_pure _

/-- Every check stands before the first write. -/
theorem redeem_clean (transfer : InboundTransfer) (signatures : List GuardianSignature) :
    Clean (redeem command transfer signatures) := by
  unfold redeem
  apply (loadConfig_clean _).bind
  · intro state config middle accepted
    exact (accepts_loadConfig.mp accepted).2.symm
  intro config
  apply Clean.read
  intro state
  apply Clean.unless
  cases verifyQuorum config transfer.digest signatures with
  | error error => exact clean_throw _
  | ok verified =>
      apply Clean.read
      intro state
      apply (addOr_clean _ _ _).then
      intro credited state after
      simp only [TokenPrism.setBalance, rejects_bind, rejects_modify, rejects_pure, and_false,
        exists_false, or_self, not_false_eq_true]

theorem handle_redeem_clean {transfer : InboundTransfer} {signatures : List GuardianSignature}
    (parsed : fromSlice BridgeCommand command.payload = .ok (.redeem transfer signatures)) :
    Clean (handle command) := by
  unfold handle
  rw [parsed]
  exact redeem_clean transfer signatures

/-! ### Sequence numbers -/

theorem redeem_numbered {start : StateTree} {front : List Command} (fresh : Fresh start)
    (accepted : Run.Along prism.step prism.Accepted start (front ++ [command]))
    {transfer : InboundTransfer} {signatures : List GuardianSignature}
    (parsed : fromSlice BridgeCommand command.payload = .ok (.redeem transfer signatures)) :
    transfer.sequence = UInt64.ofNat (redeemed transfer.chain front).length ∧
      ∃ config, registered transfer.chain front = some config ∧
        ∃ verified, verifyQuorum config transfer.digest signatures = .ok verified := by
  obtain ⟨before, ⟨output, after, last⟩, _⟩ := (Run.along_append prism.step).mp accepted
  have tracks := tracks_run fresh before
  obtain ⟨operation, same, executed⟩ := accepts_handle last
  rw [parsed] at same
  cases same
  obtain ⟨config, verified, _, stored, sequence, quorum, _, _⟩ := accepts_redeem executed
  rw [Registered, tracks.config, Except.ok.injEq] at stored
  exact ⟨sequence.trans (tracks.sequence _), config, stored, verified, quorum⟩

theorem redeemed_in_order {start : StateTree} {chain : ForeignChain} (fresh : Fresh start)
    (accepted : Run.Along prism.step prism.Accepted start commands)
    (few : (redeemed chain commands).length < 2 ^ 64) :
    (redeemed chain commands).map (fun transfer => transfer.sequence.toNat) =
      List.range (redeemed chain commands).length := by
  induction commands using List.reverseRecOn with
  | nil => rfl
  | append_singleton front command ih =>
      have before := ((Run.along_append prism.step).mp accepted).1
      rw [redeemed_snoc] at few ⊢
      cases redeems : redemption chain command with
      | none =>
          rw [redeems, Option.toList_none, List.append_nil] at few
          rw [Option.toList_none, List.append_nil]
          exact ih before few
      | some transfer =>
          rw [redeems, Option.toList_some, List.length_append, List.length_singleton] at few
          have numbered : transfer.sequence.toNat = (redeemed chain front).length := by
            unfold redemption at redeems
            split at redeems
            · rename_i other signatures parsed
              split at redeems
              · rename_i same
                cases redeems
                rw [(redeem_numbered fresh accepted parsed).1, same, UInt64.toNat_ofNat']
                exact Nat.mod_eq_of_lt (by omega)
              · cases redeems
            · cases redeems
          rw [Option.toList_some, List.map_append, ih before (by omega), List.map_singleton,
            numbered, List.length_append, List.length_singleton, List.range_succ]

end Runs

/-! ### Exactly once -/

section Main

variable [SerdeJson] [Blake3] [Ed25519]

/-- Redeems of every chain are numbered from zero, met the quorum of the guardians then
registered over a digest that determines the transfer, and leave nothing when refused. -/
theorem redeem_exactly_once (start : StateTree) (commands : List Command) (fresh : Fresh start)
    (accepted : Run.Along prism.step prism.Accepted start commands)
    (few : ∀ chain, (redeemed chain commands).length < 2 ^ 64) :
    (∀ chain, (redeemed chain commands).map (fun transfer => transfer.sequence.toNat) =
      List.range (redeemed chain commands).length) ∧
    (∀ front command back transfer signatures, commands = front ++ command :: back →
      fromSlice BridgeCommand command.payload = .ok (.redeem transfer signatures) →
      ∃ config, registered transfer.chain front = some config ∧
        ∃ signers : List String, signers.Nodup ∧ config.quorum ≤ signers.length ∧
          ∀ guardian ∈ signers,
            SignedFor config.guardians transfer.digest signatures guardian) ∧
    (∀ left right : InboundTransfer, left.Sized → right.Sized →
      CollisionFree {left.digestInput, right.digestInput} →
        left.digest = right.digest → left = right) ∧
    (∀ state command transfer signatures after,
      fromSlice BridgeCommand command.payload = .ok (.redeem transfer signatures) →
        Rejects (handle command) state after → after = state) := by
  refine ⟨?_, ?_, ?_, ?_⟩
  · intro chain
    exact redeemed_in_order fresh accepted (few chain)
  · intro front command back transfer signatures split parsed
    have upTo : Run.Along prism.step prism.Accepted start (front ++ [command]) := by
      rw [split, List.append_cons] at accepted
      exact ((Run.along_append prism.step).mp accepted).1
    obtain ⟨_, config, stored, verified, quorum⟩ := redeem_numbered fresh upTo parsed
    exact ⟨config, stored, verifyQuorum_spec quorum⟩
  · intro left right leftSized rightSized free same
    exact InboundTransfer.digest_injective leftSized rightSized free same
  · intro state command transfer signatures after parsed rejected
    exact handle_redeem_clean parsed state after rejected

end Main

/-! ### Accepted commands -/

section Accepting

variable [SerdeJson] [Blake3] {command : Command} {state : StateTree}

theorem registerChain_accepted {chain : ForeignChain} {guardians : List String} {quorum : Nat}
    (positive : 0 < quorum) (enough : quorum ≤ guardians.length)
    (absent : state.get (BridgeConfig.configKey chain) = none) :
    ∃ output, Accepts (registerChain command chain guardians quorum) state output
      (state.putJson (BridgeConfig.configKey chain)
        ({ chain := chain
           guardians := guardians
           quorum := quorum
           admin := command.submitter } : BridgeConfig)) := by
  have bounds : ¬ (quorum = 0 ∨ guardians.length < quorum) := by omega
  have unread : state.getJson BridgeConfig (BridgeConfig.configKey chain) = .ok none := by
    unfold StateTree.getJson
    rw [absent]
  refine ⟨.single (event command (.chainRegistered chain guardians.length quorum)) 5000, ?_⟩
  unfold registerChain
  rw [accepts_unless]
  refine ⟨bounds, ?_⟩
  rw [accepts_bind]
  refine ⟨state, state, accepts_get.mpr ⟨rfl, rfl⟩, ?_⟩
  rw [unread]
  simp only [accepts_bind, accepts_modify, accepts_pure]
  exact ⟨(), _, rfl, trivial, rfl⟩

variable [Ed25519]

theorem redeem_accepted {transfer : InboundTransfer} {signatures : List GuardianSignature}
    {config : BridgeConfig} {verified : Nat} {credited : U128}
    (registered : Registered state config transfer.chain)
    (sequence : transfer.sequence = sequenceAt state (seqKey transfer.chain))
    (quorum : verifyQuorum config transfer.digest signatures = .ok verified)
    (added : (balance state transfer.tokenId transfer.recipient).checkedAdd transfer.amount =
      some credited) :
    ∃ output, Accepts (redeem command transfer signatures) state output
      ((withBalance state transfer.tokenId transfer.recipient credited).putJson
        (seqKey transfer.chain) (transfer.sequence + 1)) := by
  refine ⟨.single (event command (.inboundRedeemed transfer.chain transfer.sequence
    transfer.recipient transfer.tokenId transfer.amount verified)) 8000, ?_⟩
  unfold redeem
  rw [accepts_bind]
  refine ⟨config, state, accepts_loadConfig.mpr ⟨registered, rfl⟩, ?_⟩
  rw [accepts_bind]
  refine ⟨state, state, accepts_get.mpr ⟨rfl, rfl⟩, ?_⟩
  rw [accepts_unless]
  refine ⟨not_not_intro sequence, ?_⟩
  rw [quorum]
  simp only [TokenPrism.setBalance, accepts_bind, accepts_get, accepts_modify, accepts_pure,
    TokenPrism.accepts_addOr]
  refine ⟨state, state, ⟨rfl, rfl⟩, credited, state, ⟨added, rfl⟩, (), _, rfl, (), _, rfl, trivial, ?_⟩
  rw [← sequence]
  rfl

end Accepting

/-! ### A chain of one guardian -/

section Solo

attribute [local instance] SerdeJson.compact Blake3.polynomial Ed25519.keyed

def bridgeCommand (submitter : String) (nonce : UInt64) (operation : BridgeCommand) : Command :=
  { prism := "bridge"
    submitter := ⟨submitter⟩
    visibility := .pub
    payload := toVec operation
    nonce := nonce }

/-- Alice's key: 32 bytes of `0xaa`. -/
def soloGuardian : PartyIdentity := PartyIdentity.repeated "alice" 0xaa

def soloText : String := Bytes.hexEncode soloGuardian.publicKey

def soloTransfer (tokenId : Hash) : InboundTransfer :=
  { chain := .custom
    sequence := 0
    foreignSender := "0xfeed"
    recipient := ⟨"alice"⟩
    tokenId := tokenId
    amount := 250 }

def soloSignature (tokenId : Hash) : GuardianSignature :=
  { publicKey := soloText
    signature := Bytes.hexEncode (soloGuardian.signBytes (soloTransfer tokenId).digest.asBytes) }

/-- Alice registers her own key as the guardian of a chain and redeems 250 units. -/
def soloRun (tokenId : Hash) : List Command :=
  [bridgeCommand "alice" 0 (.registerChain .custom [soloText] 1),
    bridgeCommand "alice" 1 (.redeem (soloTransfer tokenId) [soloSignature tokenId])]

theorem fresh_empty : Fresh StateTree.empty :=
  fun _ => ⟨StateTree.get_empty _, StateTree.get_empty _⟩

def soloConfig : BridgeConfig :=
  { chain := .custom
    guardians := [soloText]
    quorum := 1
    admin := ⟨"alice"⟩ }

theorem solo_endorses (tokenId : Hash) :
    Endorses [soloText] (soloTransfer tokenId).digest (soloSignature tokenId) where
  listed := List.mem_singleton_self _
  verified := ⟨_, _, hexToBytes_hexEncode _, hexToBytes_hexEncode _,
    verifyBytes_signBytes soloGuardian _⟩

theorem solo_quorum (tokenId : Hash) :
    verifyQuorum soloConfig (soloTransfer tokenId).digest [soloSignature tokenId] = .ok 1 := by
  apply verifyQuorum_endorsed
  · intro entry member
    rw [List.mem_singleton.mp member]
    exact solo_endorses tokenId
  · exact List.nodup_singleton _
  · exact le_rfl

/-- Registration on a state without the chain. -/
theorem soloRegister_accepted {state : StateTree}
    (absent : state.get (BridgeConfig.configKey .custom) = none) :
    ∃ output, Accepts (handle (bridgeCommand "alice" 0 (.registerChain .custom [soloText] 1))) state
      output (state.putJson (BridgeConfig.configKey .custom) soloConfig) := by
  unfold handle bridgeCommand
  rw [fromSlice_toVec]
  change ∃ output, Accepts (registerChain _ .custom [soloText] 1) _ _ _
  exact registerChain_accepted (by decide) (by decide) absent

theorem soloRedeem_accepted (tokenId : Hash) {state : StateTree} {credited : U128}
    (registered : Registered state soloConfig .custom)
    (unused : state.get (seqKey .custom) = none)
    (added : (balance state tokenId ⟨"alice"⟩).checkedAdd 250 = some credited) :
    ∃ output, Accepts (handle (bridgeCommand "alice" 1
        (.redeem (soloTransfer tokenId) [soloSignature tokenId]))) state output
      ((withBalance state tokenId ⟨"alice"⟩ credited).putJson (seqKey .custom) (1 : UInt64)) := by
  have sequence : (soloTransfer tokenId).sequence = sequenceAt state (seqKey .custom) := by
    unfold sequenceAt StateTree.getJson? StateTree.getJson
    rw [unused]
    rfl
  unfold handle bridgeCommand
  rw [fromSlice_toVec]
  exact redeem_accepted registered sequence (solo_quorum tokenId) added

/-- A state in which nothing but a chain is registered. -/
theorem registered_only (config : BridgeConfig) :
    (StateTree.empty.putJson (BridgeConfig.configKey .custom) config).get (seqKey .custom) = none ∧
      ∀ tokenId who, balance
        (StateTree.empty.putJson (BridgeConfig.configKey .custom) config) tokenId who = 0 := by
  unfold StateTree.putJson
  constructor
  · rw [StateTree.get_put_ne _ _ (Ne.symm (seqKey_ne_configKey _ _)), StateTree.get_empty]
  · intro tokenId who
    rw [BridgeConfig.configKey, TokenPrism.balance_put_head _ _ _ (by decide)]
    simp only [balance, TokenPrism.amountAt, StateTree.getJson?, StateTree.getJson,
      StateTree.get_empty, Option.bind_none, Option.getD_none]

theorem soloRun_accepted :
    Run.Along prism.step prism.Accepted StateTree.empty (soloRun Hash.zero) := by
  obtain ⟨output, first⟩ := soloRegister_accepted (StateTree.get_empty _)
  refine ⟨⟨output, _, first⟩, ?_, trivial⟩
  rw [Prism.step_eq first]
  obtain ⟨unused, poor⟩ := registered_only soloConfig
  obtain ⟨output, second⟩ := soloRedeem_accepted Hash.zero (StateTree.getJson_putJson _ _ _) unused
    (by rw [poor]; rfl)
  exact ⟨output, _, second⟩

theorem redeem_exactly_once_solo :
    Fresh StateTree.empty ∧
    Run.Along prism.step prism.Accepted StateTree.empty (soloRun Hash.zero) ∧
    (∀ chain, (redeemed chain (soloRun Hash.zero)).map (fun transfer => transfer.sequence.toNat) =
      List.range (redeemed chain (soloRun Hash.zero)).length) := by
  have few : ∀ chain, (redeemed chain (soloRun Hash.zero)).length < 2 ^ 64 := by
    intro chain
    have bound : (redeemed chain (soloRun Hash.zero)).length ≤ (soloRun Hash.zero).length :=
      List.length_filterMap_le _ _
    exact lt_of_le_of_lt bound (by decide)
  exact ⟨fresh_empty, soloRun_accepted,
    (redeem_exactly_once _ _ fresh_empty soloRun_accepted few).1⟩

end Solo

end BridgePrism

end Veilux
