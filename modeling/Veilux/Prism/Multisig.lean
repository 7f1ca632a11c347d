/-
Shared accounts of `prisms/multisig/src/lib.rs`: an owner proposes a command, and once
enough owners have confirmed it, it is handed to the cascade as it was proposed.
-/

import Veilux.Prism.Oracle

namespace Veilux

open Bytes (utf8)

structure MultisigAccount where
  id : Hash
  owners : List PartyId
  threshold : UInt32
  nonce : UInt64
  deriving DecidableEq

instance : Serialize MultisigAccount where
  toJson account := .obj
    [("id", toJson account.id), ("owners", toJson account.owners),
      ("threshold", toJson account.threshold), ("nonce", toJson account.nonce)]
  toJson_injective := by
    intro left right same
    cases left
    cases right
    simpa using same

/-- A `BTreeSet<String>`. -/
instance : Serialize (Std.ExtTreeSet String) where
  toJson names := .arr (names.toList.map Json.str)
  toJson_injective := by
    intro left right same
    have entries : left.toList = right.toList :=
      List.map_injective_iff.mpr (fun _ _ equal => Json.str.inj equal) (Json.arr.inj same)
    apply Std.ExtTreeSet.ext_mem
    intro name
    rw [← Std.ExtTreeSet.mem_toList, entries, Std.ExtTreeSet.mem_toList]

structure PendingTx where
  account : Hash
  seq : UInt64
  inner : Command
  confirmations : Std.ExtTreeSet String
  executed : Bool

instance : Serialize PendingTx where
  toJson tx := .obj
    [("account", toJson tx.account), ("seq", toJson tx.seq), ("inner", toJson tx.inner),
      ("confirmations", toJson tx.confirmations), ("executed", toJson tx.executed)]
  toJson_injective := by
    intro left right same
    cases left
    cases right
    simpa using same

inductive MultisigCommand where
  | createAccount (owners : List PartyId) (threshold : UInt32)
  | propose (account : Hash) (inner : Command)
  | confirm (account : Hash) (seq : UInt64)
  | revoke (account : Hash) (seq : UInt64)
  deriving DecidableEq

/-- Internally tagged by `op`. -/
instance : Serialize MultisigCommand where
  toJson
    | .createAccount owners threshold => .obj
        [("op", .str "create_account"), ("owners", toJson owners), ("threshold", toJson threshold)]
    | .propose account inner => .obj
        [("op", .str "propose"), ("account", toJson account), ("inner", toJson inner)]
    | .confirm account seq => .obj
        [("op", .str "confirm"), ("account", toJson account), ("seq", toJson seq)]
    | .revoke account seq => .obj
        [("op", .str "revoke"), ("account", toJson account), ("seq", toJson seq)]
  toJson_injective := by
    intro left right same
    cases left <;> cases right <;> simp_all

inductive MultisigEvent where
  | accountCreated (account : Hash) (threshold : UInt32) (owners : Nat)
  | proposed (account : Hash) (seq : UInt64) (proposer : PartyId)
  | confirmed (account : Hash) (seq : UInt64) (signer : PartyId) (confirmations : UInt32)
  | revoked (account : Hash) (seq : UInt64) (signer : PartyId)
  | executed (account : Hash) (seq : UInt64)
  deriving DecidableEq

/-- Internally tagged by `kind`. -/
instance : Serialize MultisigEvent where
  toJson
    | .accountCreated account threshold owners => .obj
        [("kind", .str "account_created"), ("account", toJson account),
          ("threshold", toJson threshold), ("owners", toJson owners)]
    | .proposed account seq proposer => .obj
        [("kind", .str "proposed"), ("account", toJson account), ("seq", toJson seq),
          ("proposer", toJson proposer)]
    | .confirmed account seq signer confirmations => .obj
        [("kind", .str "confirmed"), ("account", toJson account), ("seq", toJson seq),
          ("by", toJson signer), ("confirmations", toJson confirmations)]
    | .revoked account seq signer => .obj
        [("kind", .str "revoked"), ("account", toJson account), ("seq", toJson seq),
          ("by", toJson signer)]
    | .executed account seq => .obj
        [("kind", .str "executed"), ("account", toJson account), ("seq", toJson seq)]
  toJson_injective := by
    intro left right same
    cases left <;> cases right <;> simp_all

namespace MultisigPrism

def accPrefix : String := "multisig/acc/"
def txPrefix : String := "multisig/tx/"
def maxOwners : Nat := 64

def accKey (id : Hash) : String := accPrefix ++ id.toHex

def txKey (account : Hash) (seq : UInt64) : String :=
  txPrefix ++ account.toHex ++ "/" ++ Nat.repr seq.toNat

/-- The loop that keeps the first of equal owners. -/
def distinct : List PartyId → List PartyId → List PartyId
  | [], unique => unique
  | owner :: rest, unique =>
      if unique.contains owner then distinct rest unique else distinct rest (unique ++ [owner])

section Handlers

variable [SerdeJson]

def loadAccount (id : Hash) : PrismM MultisigAccount := do
  match (← get).getJson MultisigAccount (accKey id) with
  | .error error => throw (.internal error.text)
  | .ok none => throw (.notFound ("multisig account " ++ id.toHex))
  | .ok (some account) => return account

def loadTx (account : Hash) (seq : UInt64) : PrismM PendingTx := do
  match (← get).getJson PendingTx (txKey account seq) with
  | .error error => throw (.internal error.text)
  | .ok none => throw (.notFound ("multisig tx " ++ Nat.repr seq.toNat))
  | .ok (some tx) => return tx

/-- The account, when the caller is one of its owners. -/
def loadOwned (caller : PartyId) (id : Hash) : PrismM MultisigAccount := do
  let account ← loadAccount id
  if ¬ account.owners.contains caller then
    throw (.unauthorized "not an account owner")
  return account

variable [Blake3]

def event (command : Command) (payload : MultisigEvent) : Event :=
  { sourceCommand := command.id
    prism := "multisig"
    visibility := command.visibility
    payload := toVec payload }

def createdId (submitter : PartyId) (threshold : UInt32) (owners : List PartyId) : Hash :=
  Hash.commit "multisig/acc-id"
    [submitter.bytes, (Bytes.leBytes 4 threshold.toNat).reverse,
      utf8 (",".intercalate (owners.map PartyId.name))]

/-! ### The four operations -/

def createAccount (command : Command) (owners : List PartyId) (threshold : UInt32) :
    PrismM PrismOutput := do
  let unique := distinct owners []
  if unique.isEmpty ∨ maxOwners < unique.length then
    throw (.invalidPayload "owners must be 1..=64 distinct parties")
  if threshold = 0 ∨ unique.length < threshold.toNat then
    throw (.invalidPayload "threshold must be 1..=owners")
  let id := createdId command.submitter threshold unique
  if (← get).contains (accKey id) then
    throw (.invalidPayload "account already exists")
  modify fun state => state.putJson (accKey id)
    ({ id := id
       owners := unique
       threshold := threshold
       nonce := 0 } : MultisigAccount)
  return .single (event command (.accountCreated id threshold unique.length)) 4000

def propose (command : Command) (account : Hash) (inner : Command) : PrismM PrismOutput := do
  let caller := command.submitter
  let acc ← loadOwned caller account
  let seq := acc.nonce
  let reached := decide (acc.threshold ≤ 1)
  modify fun state => state.putJson (accKey account) { acc with nonce := acc.nonce + 1 }
  modify fun state => state.putJson (txKey account seq)
    ({ account := account
       seq := seq
       inner := inner
       confirmations := (∅ : Std.ExtTreeSet String).insert caller.name
       executed := reached } : PendingTx)
  return {
    events := event command (.proposed account seq caller) ::
      if reached then [event command (.executed account seq)] else []
    derivedCommands := if reached then [inner] else []
    cost := 3000 }

def confirm (command : Command) (account : Hash) (seq : UInt64) : PrismM PrismOutput := do
  let caller := command.submitter
  let acc ← loadOwned caller account
  let tx ← loadTx account seq
  if tx.executed then
    throw (.invalidPayload "tx already executed")
  let confirmations := tx.confirmations.insert caller.name
  -- `confirmations.len() as u32`.
  let count := UInt32.ofNat confirmations.size
  let reached := decide (acc.threshold ≤ count)
  modify fun state => state.putJson (txKey account seq)
    { tx with
      confirmations := confirmations
      executed := reached }
  return {
    events := event command (.confirmed account seq caller count) ::
      if reached then [event command (.executed account seq)] else []
    derivedCommands := if reached then [tx.inner] else []
    cost := 1500 }

def revoke (command : Command) (account : Hash) (seq : UInt64) : PrismM PrismOutput := do
  let caller := command.submitter
  let _ ← loadOwned caller account
  let tx ← loadTx account seq
  if tx.executed then
    throw (.invalidPayload "cannot revoke an executed tx")
  modify fun state => state.putJson (txKey account seq)
    { tx with confirmations := tx.confirmations.erase caller.name }
  return .single (event command (.revoked account seq caller)) 800

def execute (command : Command) : MultisigCommand → PrismM PrismOutput
  | .createAccount owners threshold => createAccount command owners threshold
  | .propose account inner => propose command account inner
  | .confirm account seq => confirm command account seq
  | .revoke account seq => revoke command account seq

def handle (command : Command) : PrismM PrismOutput :=
  match fromSlice MultisigCommand command.payload with
  | .error text => throw (.invalidPayload text)
  | .ok operation => execute command operation

def prism : Prism :=
  { name := "multisig"
    handle := handle }

end Handlers

end MultisigPrism

end Veilux
