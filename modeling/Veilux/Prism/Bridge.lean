/-
The bridge prism of `prisms/bridge/src/lib.rs` and `prisms/bridge/src/types.rs`:
registration of a foreign chain with its guardians, outbound transfers, and inbound
transfers that a quorum of guardians has signed.

Balances are those of the token prism: the bridge reads and writes the same keys.
-/

import Veilux.Kernel.Handled
import Veilux.Prism.TokenSupply
import Veilux.Veil.Identity

namespace Veilux

open Bytes (leBytes utf8)

inductive ForeignChain where
  | cosmos
  | solana
  | ethereum
  | custom
  deriving DecidableEq

namespace ForeignChain

def asU16 : ForeignChain → Nat
  | .cosmos => 1
  | .solana => 2
  | .ethereum => 3
  | .custom => 999

theorem asU16_injective : Function.Injective asU16 := by
  intro left right same
  cases left <;> cases right <;> first | rfl | cases same

/-- The variants in lower case. -/
def name : ForeignChain → String
  | .cosmos => "cosmos"
  | .solana => "solana"
  | .ethereum => "ethereum"
  | .custom => "custom"

instance : Serialize ForeignChain where
  toJson chain := .str chain.name
  toJson_injective := by
    intro left right same
    cases left <;> cases right <;> first | rfl | exact absurd (Json.str.inj same) (by decide)

end ForeignChain

structure BridgeConfig where
  chain : ForeignChain
  guardians : List String
  quorum : Nat
  admin : PartyId
  deriving DecidableEq

instance : Serialize BridgeConfig where
  toJson config := .obj
    [("chain", toJson config.chain), ("guardians", toJson config.guardians),
      ("quorum", toJson config.quorum), ("admin", toJson config.admin)]
  toJson_injective := by
    intro left right same
    cases left
    cases right
    simpa using same

def BridgeConfig.configKey (chain : ForeignChain) : String :=
  "bridge/config/" ++ Nat.repr chain.asU16

structure OutboundTransfer where
  sequence : UInt64
  chain : ForeignChain
  sender : PartyId
  recipient : String
  tokenId : Hash
  amount : U128
  deriving DecidableEq

def OutboundTransfer.digest [Blake3] (transfer : OutboundTransfer) : Hash :=
  Hash.commit "bridge/outbound"
    [leBytes 8 transfer.sequence.toNat, leBytes 2 transfer.chain.asU16, transfer.sender.bytes,
      utf8 transfer.recipient, transfer.tokenId.asBytes, leBytes 16 transfer.amount.val]

structure InboundTransfer where
  chain : ForeignChain
  sequence : UInt64
  foreignSender : String
  recipient : PartyId
  tokenId : Hash
  amount : U128
  deriving DecidableEq

instance : Serialize InboundTransfer where
  toJson transfer := .obj
    [("chain", toJson transfer.chain), ("sequence", toJson transfer.sequence),
      ("foreign_sender", toJson transfer.foreignSender),
      ("recipient", toJson transfer.recipient), ("token_id", toJson transfer.tokenId),
      ("amount", toJson transfer.amount)]
  toJson_injective := by
    intro left right same
    cases left
    cases right
    simpa using same

namespace InboundTransfer

def digestParts (transfer : InboundTransfer) : List (List UInt8) :=
  [leBytes 2 transfer.chain.asU16, leBytes 8 transfer.sequence.toNat,
    utf8 transfer.foreignSender, transfer.recipient.bytes, transfer.tokenId.asBytes,
    leBytes 16 transfer.amount.val]

def digest [Blake3] (transfer : InboundTransfer) : Hash :=
  Hash.commit "bridge/inbound" transfer.digestParts

end InboundTransfer

structure GuardianSignature where
  publicKey : String
  signature : String
  deriving DecidableEq

instance : Serialize GuardianSignature where
  toJson entry := .obj
    [("public_key", toJson entry.publicKey), ("signature", toJson entry.signature)]
  toJson_injective := by
    intro left right same
    cases left
    cases right
    simpa using same

inductive BridgeCommand where
  | registerChain (chain : ForeignChain) (guardians : List String) (quorum : Nat)
  | send (chain : ForeignChain) (recipient : String) (tokenId : Hash) (amount : U128)
  | redeem (transfer : InboundTransfer) (signatures : List GuardianSignature)
  deriving DecidableEq

/-- Internally tagged by `op`. -/
instance : Serialize BridgeCommand where
  toJson
    | .registerChain chain guardians quorum => .obj
        [("op", .str "register_chain"), ("chain", toJson chain), ("guardians", toJson guardians),
          ("quorum", toJson quorum)]
    | .send chain recipient tokenId amount => .obj
        [("op", .str "send"), ("chain", toJson chain), ("recipient", toJson recipient),
          ("token_id", toJson tokenId), ("amount", toJson amount)]
    | .redeem transfer signatures => .obj
        [("op", .str "redeem"), ("transfer", toJson transfer), ("signatures", toJson signatures)]
  toJson_injective := by
    intro left right same
    cases left <;> cases right <;> simp_all

inductive BridgeEvent where
  | chainRegistered (chain : ForeignChain) (guardians quorum : Nat)
  | outboundLocked (sequence : UInt64) (chain : ForeignChain) (recipient : String)
      (tokenId : Hash) (amount : U128) (digest : Hash)
  | inboundRedeemed (chain : ForeignChain) (sequence : UInt64) (recipient : PartyId)
      (tokenId : Hash) (amount : U128) (guardiansVerified : Nat)
  deriving DecidableEq

/-- Internally tagged by `kind`. -/
instance : Serialize BridgeEvent where
  toJson
    | .chainRegistered chain guardians quorum => .obj
        [("kind", .str "chain_registered"), ("chain", toJson chain),
          ("guardians", toJson guardians), ("quorum", toJson quorum)]
    | .outboundLocked sequence chain recipient tokenId amount digest => .obj
        [("kind", .str "outbound_locked"), ("sequence", toJson sequence), ("chain", toJson chain),
          ("recipient", toJson recipient), ("token_id", toJson tokenId),
          ("amount", toJson amount), ("digest", toJson digest)]
    | .inboundRedeemed chain sequence recipient tokenId amount guardiansVerified => .obj
        [("kind", .str "inbound_redeemed"), ("chain", toJson chain),
          ("sequence", toJson sequence), ("recipient", toJson recipient),
          ("token_id", toJson tokenId), ("amount", toJson amount),
          ("guardians_verified", toJson guardiansVerified)]
  toJson_injective := by
    intro left right same
    cases left <;> cases right <;> simp_all

namespace BridgePrism

open TokenPrism (balance setBalance addOr)

def seqKey (chain : ForeignChain) : String := "bridge/seq/" ++ Nat.repr chain.asU16

def outSeqKey (chain : ForeignChain) : String := "bridge/outseq/" ++ Nat.repr chain.asU16

/-- `strip_prefix("0x")`, once, and `hex::decode`. -/
def hexToBytes (text : String) : Option (List UInt8) :=
  match text.toList with
  | '0' :: 'x' :: rest => Bytes.hexDecode rest
  | digits => Bytes.hexDecode digits

theorem hexToBytes_hexEncode (bytes : List UInt8) :
    hexToBytes (Bytes.hexEncode bytes) = some bytes := by
  have table : ∀ a : Fin 16, Bytes.hexDigit a.val ≠ 'x' := by
    decide
  have decoded := Bytes.hexDecode_hexChars bytes
  unfold hexToBytes Bytes.hexEncode
  rw [String.toList_ofList]
  split
  · rename_i rest shape
    cases bytes with
    | nil => cases shape
    | cons byte others =>
        have bound := byte.toNat_lt
        have second : Bytes.hexDigit (byte.toNat % 16) = 'x' :=
          (List.cons.inj (List.cons.inj shape).2).1
        exact absurd second (table ⟨byte.toNat % 16, by omega⟩)
  · exact decoded

section Handlers

variable [SerdeJson]

def loadConfig (chain : ForeignChain) : PrismM BridgeConfig := do
  match (← get).getJson BridgeConfig (BridgeConfig.configKey chain) with
  | .error error => throw (.internal error.text)
  | .ok none => throw (.notFound ("bridge for chain " ++ Nat.repr chain.asU16))
  | .ok (some config) => return config

/-- `get_json::<u64>(..).ok().flatten().unwrap_or(0)`. -/
def sequenceAt (state : StateTree) (key : String) : UInt64 := (state.getJson? UInt64 key).getD 0

variable [Blake3]

def event (command : Command) (payload : BridgeEvent) : Event :=
  { sourceCommand := command.id
    prism := "bridge"
    visibility := command.visibility
    payload := toVec payload }

variable [Ed25519]

omit [SerdeJson] [Blake3] in
/-- The loop of `verify_quorum` with the guardian texts seen so far; `valid` is their
number. -/
def countSigned (guardians : List String) (digest : Hash) :
    List GuardianSignature → List String → Except PrismError (List String)
  | [], seen => .ok seen
  | entry :: rest, seen =>
      if ¬ guardians.contains entry.publicKey then countSigned guardians digest rest seen
      else if seen.contains entry.publicKey then countSigned guardians digest rest seen
      else
        match hexToBytes entry.publicKey with
        | none => .error (.invalidPayload "bad guardian pubkey hex")
        | some key =>
            match hexToBytes entry.signature with
            | none => .error (.invalidPayload "bad signature hex")
            | some signature =>
                match verifyBytes key digest.asBytes signature with
                | .ok () => countSigned guardians digest rest (seen ++ [entry.publicKey])
                | .error _ => countSigned guardians digest rest seen

omit [SerdeJson] [Blake3] in
def verifyQuorum (config : BridgeConfig) (digest : Hash) (signatures : List GuardianSignature) :
    Except PrismError Nat :=
  match countSigned config.guardians digest signatures [] with
  | .error error => .error error
  | .ok seen =>
      if seen.length < config.quorum then
        .error (.unauthorized ("guardian quorum not met: " ++ Nat.repr seen.length ++ "/" ++
          Nat.repr config.guardians.length ++ " valid (need " ++ Nat.repr config.quorum ++ ")"))
      else .ok seen.length

/-! ### The three operations -/

omit [Ed25519] in
def registerChain (command : Command) (chain : ForeignChain) (guardians : List String)
    (quorum : Nat) : PrismM PrismOutput := do
  if quorum = 0 ∨ guardians.length < quorum then
    throw (.invalidPayload "quorum must be in 1..=guardians.len()")
  -- An unreadable entry does not protect the chain.
  match (← get).getJson BridgeConfig (BridgeConfig.configKey chain) with
  | .ok (some existing) =>
      if existing.admin ≠ command.submitter then
        throw (.unauthorized "only bridge admin may update")
  | _ => pure ()
  modify fun state => state.putJson (BridgeConfig.configKey chain)
    ({ chain := chain
       guardians := guardians
       quorum := quorum
       admin := command.submitter } : BridgeConfig)
  return .single (event command (.chainRegistered chain guardians.length quorum)) 5000

omit [Ed25519] in
def send (command : Command) (chain : ForeignChain) (recipient : String) (tokenId : Hash)
    (amount : U128) : PrismM PrismOutput := do
  let _ ← loadConfig chain
  let sender := command.submitter
  let bal := balance (← get) tokenId sender
  if bal < amount then
    throw (.limitExceeded "insufficient balance to bridge")
  setBalance tokenId sender (bal - amount)
  let sequence := sequenceAt (← get) (outSeqKey chain)
  modify fun state => state.putJson (outSeqKey chain) (sequence + 1)
  let transfer : OutboundTransfer :=
    { sequence := sequence
      chain := chain
      sender := sender
      recipient := recipient
      tokenId := tokenId
      amount := amount }
  return .single (event command
    (.outboundLocked sequence chain recipient tokenId amount transfer.digest)) 3000

def redeem (command : Command) (transfer : InboundTransfer)
    (signatures : List GuardianSignature) : PrismM PrismOutput := do
  let config ← loadConfig transfer.chain
  let expected := sequenceAt (← get) (seqKey transfer.chain)
  if transfer.sequence ≠ expected then
    throw (.invalidPayload ("bad inbound sequence: got " ++ Nat.repr transfer.sequence.toNat ++
      ", expected " ++ Nat.repr expected.toNat))
  match verifyQuorum config transfer.digest signatures with
  | .error error => throw error
  | .ok verified =>
      let bal := balance (← get) transfer.tokenId transfer.recipient
      let newBal ← addOr "balance overflow" bal transfer.amount
      setBalance transfer.tokenId transfer.recipient newBal
      modify fun state => state.putJson (seqKey transfer.chain) (expected + 1)
      return .single (event command (.inboundRedeemed transfer.chain transfer.sequence
        transfer.recipient transfer.tokenId transfer.amount verified)) 8000

def execute (command : Command) : BridgeCommand → PrismM PrismOutput
  | .registerChain chain guardians quorum => registerChain command chain guardians quorum
  | .send chain recipient tokenId amount => send command chain recipient tokenId amount
  | .redeem transfer signatures => redeem command transfer signatures

def handle (command : Command) : PrismM PrismOutput :=
  match fromSlice BridgeCommand command.payload with
  | .error text => throw (.invalidPayload text)
  | .ok operation => execute command operation

def prism : Prism :=
  { name := "bridge"
    handle := handle }

end Handlers

/-! ### What the quorum counts -/

section Quorum

variable [Ed25519]

/-- The entry names a listed guardian and its signature verifies under that key. -/
structure Endorses (guardians : List String) (digest : Hash) (entry : GuardianSignature) :
    Prop where
  listed : entry.publicKey ∈ guardians
  verified : ∃ key signature, hexToBytes entry.publicKey = some key ∧
    hexToBytes entry.signature = some signature ∧
    verifyBytes key digest.asBytes signature = .ok ()

/-- The guardian text was signed for by one of the entries. -/
def SignedFor (guardians : List String) (digest : Hash) (signatures : List GuardianSignature)
    (guardian : String) : Prop :=
  ∃ entry ∈ signatures, entry.publicKey = guardian ∧ Endorses guardians digest entry

theorem countSigned_spec {guardians : List String} {digest : Hash}
    {signatures : List GuardianSignature} {seen counted : List String} (distinct : seen.Nodup)
    (returned : countSigned guardians digest signatures seen = .ok counted) :
    counted.Nodup ∧ ∀ guardian ∈ counted,
      guardian ∈ seen ∨ SignedFor guardians digest signatures guardian := by
  induction signatures generalizing seen with
  | nil =>
      cases returned
      exact ⟨distinct, fun guardian member => .inl member⟩
  | cons entry rest ih =>
      have later : ∀ {seen}, seen.Nodup →
          countSigned guardians digest rest seen = .ok counted →
          counted.Nodup ∧ ∀ guardian ∈ counted,
            guardian ∈ seen ∨ SignedFor guardians digest (entry :: rest) guardian := by
        intro seen distinct returned
        obtain ⟨nodup, each⟩ := ih distinct returned
        refine ⟨nodup, fun guardian member => (each guardian member).imp_right ?_⟩
        intro signed
        obtain ⟨other, inRest, endorses⟩ := signed
        exact ⟨other, List.mem_cons_of_mem _ inRest, endorses⟩
      unfold countSigned at returned
      split at returned
      · exact later distinct returned
      · rename_i listed
        split at returned
        · exact later distinct returned
        · rename_i fresh
          cases decoded : hexToBytes entry.publicKey with
          | none =>
              rw [decoded] at returned
              cases returned
          | some key =>
              rw [decoded] at returned
              dsimp only at returned
              cases tag : hexToBytes entry.signature with
              | none =>
                  rw [tag] at returned
                  cases returned
              | some signature =>
                  rw [tag] at returned
                  dsimp only at returned
                  cases verified : verifyBytes key digest.asBytes signature with
                  | error error =>
                      rw [verified] at returned
                      exact later distinct returned
                  | ok done =>
                      rw [verified] at returned
                      have unseen : entry.publicKey ∉ seen := by
                        simpa using fresh
                      have extended : (seen ++ [entry.publicKey]).Nodup := by
                        rw [← List.concat_eq_append]
                        exact distinct.concat unseen
                      have endorses : Endorses guardians digest entry :=
                        ⟨by simpa using listed, key, signature, decoded, tag, verified⟩
                      obtain ⟨nodup, each⟩ := later extended returned
                      refine ⟨nodup, fun guardian member => ?_⟩
                      rcases each guardian member with earlier | signed
                      · rcases List.mem_append.mp earlier with before | last
                        · exact .inl before
                        · have same := List.mem_singleton.mp last
                          exact .inr ⟨entry, List.mem_cons_self, same.symm, endorses⟩
                      · exact .inr signed

/-- Entries that all endorse, under different texts, are all counted. -/
theorem countSigned_endorsed {guardians : List String} {digest : Hash}
    {signatures : List GuardianSignature} {seen : List String}
    (endorsed : ∀ entry ∈ signatures, Endorses guardians digest entry)
    (distinct : (seen ++ signatures.map GuardianSignature.publicKey).Nodup) :
    countSigned guardians digest signatures seen =
      .ok (seen ++ signatures.map GuardianSignature.publicKey) := by
  induction signatures generalizing seen with
  | nil =>
      rw [List.map_nil, List.append_nil]
      rfl
  | cons entry rest ih =>
      obtain ⟨listed, key, signature, decoded, tag, verified⟩ := endorsed entry List.mem_cons_self
      rw [List.map_cons, List.append_cons] at distinct ⊢
      have unseen : entry.publicKey ∉ seen := by
        intro member
        have prefixed := (List.nodup_append.mp distinct).1
        exact (List.nodup_append.mp prefixed).2.2 _ member _ (List.mem_singleton_self _) rfl
      unfold countSigned
      rw [if_neg (by simpa using listed), if_neg (by simpa using unseen), decoded]
      dsimp only
      rw [tag]
      dsimp only
      rw [verified]
      exact ih (fun other member => endorsed other (List.mem_cons_of_mem _ member)) distinct

theorem verifyQuorum_endorsed {config : BridgeConfig} {digest : Hash}
    {signatures : List GuardianSignature}
    (endorsed : ∀ entry ∈ signatures, Endorses config.guardians digest entry)
    (distinct : (signatures.map GuardianSignature.publicKey).Nodup)
    (enough : config.quorum ≤ signatures.length) :
    verifyQuorum config digest signatures = .ok signatures.length := by
  have counted : countSigned config.guardians digest signatures [] =
      .ok (signatures.map GuardianSignature.publicKey) :=
    countSigned_endorsed endorsed distinct
  unfold verifyQuorum
  rw [counted]
  dsimp only
  rw [List.length_map, if_neg (not_lt.mpr enough)]

theorem verifyQuorum_spec {config : BridgeConfig} {digest : Hash}
    {signatures : List GuardianSignature} {verified : Nat}
    (returned : verifyQuorum config digest signatures = .ok verified) :
    ∃ signers : List String, signers.Nodup ∧ config.quorum ≤ signers.length ∧
      ∀ guardian ∈ signers, SignedFor config.guardians digest signatures guardian := by
  unfold verifyQuorum at returned
  cases counted : countSigned config.guardians digest signatures [] with
  | error error =>
      rw [counted] at returned
      cases returned
  | ok seen =>
      rw [counted] at returned
      dsimp only at returned
      split at returned
      · cases returned
      · rename_i enough
        obtain ⟨nodup, each⟩ := countSigned_spec List.nodup_nil counted
        refine ⟨seen, nodup, not_lt.mp enough, fun guardian member => ?_⟩
        rcases each guardian member with none | signed
        · cases none
        · exact signed

end Quorum

/-! ### Accepted operations -/

section Accepted

open PrismM
open TokenPrism (withBalance accepts_addOr)

variable [SerdeJson]

def Registered (state : StateTree) (config : BridgeConfig) (chain : ForeignChain) : Prop :=
  state.getJson BridgeConfig (BridgeConfig.configKey chain) = .ok (some config)

theorem accepts_loadConfig {chain : ForeignChain} {config : BridgeConfig}
    {state after : StateTree} :
    Accepts (loadConfig chain) state config after ↔
      Registered state config chain ∧ state = after := by
  unfold loadConfig Registered
  simp only [accepts_bind, accepts_get]
  constructor
  · rintro ⟨_, _, ⟨rfl, rfl⟩, accepted⟩
    cases read : state.getJson BridgeConfig (BridgeConfig.configKey chain) with
    | error error => simp only [read, accepts_throw] at accepted
    | ok found =>
        cases found with
        | none => simp only [read, accepts_throw] at accepted
        | some stored =>
            simp only [read, accepts_pure] at accepted
            rw [accepted.1]
            exact ⟨rfl, accepted.2⟩
  · rintro ⟨read, rfl⟩
    refine ⟨state, state, ⟨rfl, rfl⟩, ?_⟩
    simp only [read, accepts_pure, and_self]

variable [Blake3] {command : Command} {chain : ForeignChain} {state after : StateTree}
  {output : PrismOutput}

theorem accepts_registerChain {guardians : List String} {quorum : Nat}
    (accepted : Accepts (registerChain command chain guardians quorum) state output after) :
    0 < quorum ∧ quorum ≤ guardians.length ∧
      (∀ existing, Registered state existing chain → existing.admin = command.submitter) ∧
      after = state.putJson (BridgeConfig.configKey chain)
        ({ chain := chain
           guardians := guardians
           quorum := quorum
           admin := command.submitter } : BridgeConfig) := by
  unfold registerChain at accepted
  rw [accepts_unless] at accepted
  obtain ⟨bounds, accepted⟩ := accepted
  rw [accepts_bind] at accepted
  obtain ⟨_, _, read, accepted⟩ := accepted
  obtain ⟨rfl, rfl⟩ := accepts_get.mp read
  refine ⟨by omega, by omega, ?_⟩
  cases found : state.getJson BridgeConfig (BridgeConfig.configKey chain) with
  | error error =>
      simp only [found, accepts_bind, accepts_pure, accepts_modify] at accepted
      obtain ⟨_, _, ⟨_, rfl⟩, _, _, rfl, _, rfl⟩ := accepted
      refine ⟨fun existing registered => ?_, rfl⟩
      rw [Registered, found] at registered
      cases registered
  | ok stored =>
      cases stored with
      | none =>
          simp only [found, accepts_bind, accepts_pure, accepts_modify] at accepted
          obtain ⟨_, _, ⟨_, rfl⟩, _, _, rfl, _, rfl⟩ := accepted
          refine ⟨fun existing registered => ?_, rfl⟩
          rw [Registered, found] at registered
          cases registered
      | some existing =>
          by_cases owner : existing.admin = command.submitter
          · simp only [found, owner, ne_eq, not_true_eq_false, if_false, accepts_bind,
              accepts_pure, accepts_modify] at accepted
            obtain ⟨_, _, ⟨_, rfl⟩, _, _, rfl, _, rfl⟩ := accepted
            refine ⟨fun other registered => ?_, rfl⟩
            rw [Registered, found] at registered
            cases registered
            exact owner
          · simp only [found, owner, ne_eq, not_false_eq_true, if_true, accepts_bind,
              accepts_throw, false_and, exists_false] at accepted

theorem accepts_send {recipient : String} {tokenId : Hash} {amount : U128}
    (accepted : Accepts (send command chain recipient tokenId amount) state output after) :
    amount ≤ balance state tokenId command.submitter ∧
      ∃ sequence : UInt64, after = (withBalance state tokenId command.submitter
        (balance state tokenId command.submitter - amount)).putJson (outSeqKey chain)
          (sequence + 1) := by
  simp only [send, setBalance, accepts_bind, accepts_get, accepts_ite, accepts_throw,
    accepts_modify, accepts_pure, accepts_loadConfig] at accepted
  obtain ⟨_, _, ⟨_, rfl⟩, _, _, ⟨rfl, rfl⟩, ⟨_, _, _, impossible, _⟩ |
    ⟨enough, _, _, rfl, _, _, ⟨rfl, rfl⟩, _, _, rfl, _, rfl⟩⟩ := accepted
  · cases impossible
  · exact ⟨not_lt.mp enough, _, rfl⟩

variable [Ed25519] {transfer : InboundTransfer} {signatures : List GuardianSignature}

theorem accepts_redeem (accepted : Accepts (redeem command transfer signatures) state output after) :
    ∃ config verified credited, Registered state config transfer.chain ∧
      transfer.sequence = sequenceAt state (seqKey transfer.chain) ∧
      verifyQuorum config transfer.digest signatures = .ok verified ∧
      (balance state transfer.tokenId transfer.recipient).checkedAdd transfer.amount =
        some credited ∧
      after = (withBalance state transfer.tokenId transfer.recipient credited).putJson
        (seqKey transfer.chain) (transfer.sequence + 1) := by
  unfold redeem at accepted
  rw [accepts_bind] at accepted
  obtain ⟨config, _, loaded, accepted⟩ := accepted
  obtain ⟨registered, rfl⟩ := accepts_loadConfig.mp loaded
  rw [accepts_bind] at accepted
  obtain ⟨_, _, read, accepted⟩ := accepted
  obtain ⟨rfl, rfl⟩ := accepts_get.mp read
  rw [accepts_unless] at accepted
  obtain ⟨expected, accepted⟩ := accepted
  have sequence := not_not.mp expected
  cases quorum : verifyQuorum config transfer.digest signatures with
  | error error =>
      rw [quorum] at accepted
      exact absurd accepted accepts_throw
  | ok verified =>
      rw [quorum] at accepted
      simp only [setBalance, accepts_bind, accepts_get, accepts_modify, accepts_pure,
        accepts_addOr] at accepted
      obtain ⟨_, _, ⟨rfl, rfl⟩, credited, _, ⟨added, rfl⟩, _, _, rfl, _, _, rfl, _, rfl⟩ :=
        accepted
      refine ⟨config, verified, credited, registered, sequence, quorum, added, ?_⟩
      rw [sequence]
      rfl

end Accepted

end BridgePrism

end Veilux
