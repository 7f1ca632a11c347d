/-
The prism of unique tokens in `prisms/nft/src/lib.rs`: collections that their creators
mint into, and tokens that their owners pass on, lend to a spender and burn.
-/

import Veilux.Prism.Contract

namespace Veilux

open Bytes (utf8)

structure Collection where
  collectionId : Hash
  name : String
  symbol : String
  creator : PartyId
  minted : UInt64
  maxSupply : Option UInt64
  deriving DecidableEq

instance : Serialize Collection where
  toJson coll := .obj
    [("collection_id", toJson coll.collectionId), ("name", toJson coll.name),
      ("symbol", toJson coll.symbol), ("creator", toJson coll.creator),
      ("minted", toJson coll.minted), ("max_supply", toJson coll.maxSupply)]
  toJson_injective := by
    intro left right same
    cases left
    cases right
    simpa using same

structure NftToken where
  collectionId : Hash
  tokenIndex : UInt64
  metadataUri : String
  contentHash : Hash
  deriving DecidableEq

instance : Serialize NftToken where
  toJson token := .obj
    [("collection_id", toJson token.collectionId), ("token_index", toJson token.tokenIndex),
      ("metadata_uri", toJson token.metadataUri), ("content_hash", toJson token.contentHash)]
  toJson_injective := by
    intro left right same
    cases left
    cases right
    simpa using same

inductive NftCommand where
  | createCollection (name symbol : String) (maxSupply : Option UInt64)
  | mint (collectionId : Hash) (target : PartyId) (metadataUri : String) (contentHash : Hash)
  | transfer (collectionId : Hash) (tokenIndex : UInt64) (target : PartyId)
  | approve (collectionId : Hash) (tokenIndex : UInt64) (spender : PartyId)
  | burn (collectionId : Hash) (tokenIndex : UInt64)
  deriving DecidableEq

/-- Internally tagged by `op`. -/
instance : Serialize NftCommand where
  toJson
    | .createCollection name symbol maxSupply => .obj
        [("op", .str "create_collection"), ("name", toJson name), ("symbol", toJson symbol),
          ("max_supply", toJson maxSupply)]
    | .mint collectionId target metadataUri contentHash => .obj
        [("op", .str "mint"), ("collection_id", toJson collectionId), ("to", toJson target),
          ("metadata_uri", toJson metadataUri), ("content_hash", toJson contentHash)]
    | .transfer collectionId tokenIndex target => .obj
        [("op", .str "transfer"), ("collection_id", toJson collectionId),
          ("token_index", toJson tokenIndex), ("to", toJson target)]
    | .approve collectionId tokenIndex spender => .obj
        [("op", .str "approve"), ("collection_id", toJson collectionId),
          ("token_index", toJson tokenIndex), ("spender", toJson spender)]
    | .burn collectionId tokenIndex => .obj
        [("op", .str "burn"), ("collection_id", toJson collectionId),
          ("token_index", toJson tokenIndex)]
  toJson_injective := by
    intro left right same
    cases left <;> cases right <;> simp_all

inductive NftEvent where
  | collectionCreated (collectionId : Hash) (symbol : String)
  | minted (collectionId : Hash) (tokenIndex : UInt64) (target : PartyId)
  | transfer (collectionId : Hash) (tokenIndex : UInt64) (source target : PartyId)
  | approval (collectionId : Hash) (tokenIndex : UInt64) (owner spender : PartyId)
  | burned (collectionId : Hash) (tokenIndex : UInt64)
  deriving DecidableEq

/-- Internally tagged by `kind`. -/
instance : Serialize NftEvent where
  toJson
    | .collectionCreated collectionId symbol => .obj
        [("kind", .str "collection_created"), ("collection_id", toJson collectionId),
          ("symbol", toJson symbol)]
    | .minted collectionId tokenIndex target => .obj
        [("kind", .str "minted"), ("collection_id", toJson collectionId),
          ("token_index", toJson tokenIndex), ("to", toJson target)]
    | .transfer collectionId tokenIndex source target => .obj
        [("kind", .str "transfer"), ("collection_id", toJson collectionId),
          ("token_index", toJson tokenIndex), ("from", toJson source), ("to", toJson target)]
    | .approval collectionId tokenIndex owner spender => .obj
        [("kind", .str "approval"), ("collection_id", toJson collectionId),
          ("token_index", toJson tokenIndex), ("owner", toJson owner), ("spender", toJson spender)]
    | .burned collectionId tokenIndex => .obj
        [("kind", .str "burned"), ("collection_id", toJson collectionId),
          ("token_index", toJson tokenIndex)]
  toJson_injective := by
    intro left right same
    cases left <;> cases right <;> simp_all

namespace NftPrism

def collPrefix : String := "nft/coll/"
def ownerPrefix : String := "nft/owner/"
def metaPrefix : String := "nft/token/"
def approvePrefix : String := "nft/approve/"

/-- `{prefix}{id}/{index}`. -/
def indexKey (front : String) (id : Hash) (index : UInt64) : String :=
  front ++ id.toHex ++ "/" ++ Nat.repr index.toNat

def collKey (id : Hash) : String := collPrefix ++ id.toHex

def ownerKey (id : Hash) (index : UInt64) : String := indexKey ownerPrefix id index

def metaKey (id : Hash) (index : UInt64) : String := indexKey metaPrefix id index

def approveKey (id : Hash) (index : UInt64) : String := indexKey approvePrefix id index

section Handlers

variable [SerdeJson]

def loadCollection (id : Hash) : PrismM Collection := do
  match (← get).getJson Collection (collKey id) with
  | .error error => throw (.internal error.text)
  | .ok none => throw (.notFound ("collection " ++ id.toHex))
  | .ok (some coll) => return coll

def ownerOf (state : StateTree) (id : Hash) (index : UInt64) : Option PartyId :=
  state.getJson? PartyId (ownerKey id index)

/-- `owner_of(..).ok_or_else(|| NotFound("token"))`. -/
def requireOwner (id : Hash) (index : UInt64) : PrismM PartyId := do
  match ownerOf (← get) id index with
  | none => throw (.notFound "token")
  | some owner => return owner

variable [Blake3]

def event (command : Command) (payload : NftEvent) : Event :=
  { sourceCommand := command.id
    prism := "nft"
    visibility := command.visibility
    payload := toVec payload }

def createdId (submitter : PartyId) (symbol name : String) : Hash :=
  Hash.commit "nft/coll-id" [submitter.bytes, utf8 symbol, utf8 name]

/-! ### The five operations -/

def createCollection (command : Command) (name symbol : String) (maxSupply : Option UInt64) :
    PrismM PrismOutput := do
  let collectionId := createdId command.submitter symbol name
  if (← get).contains (collKey collectionId) then
    throw (.invalidPayload "collection exists")
  modify fun state => state.putJson (collKey collectionId)
    ({ collectionId := collectionId
       name := name
       symbol := symbol
       creator := command.submitter
       minted := 0
       maxSupply := maxSupply } : Collection)
  return .single (event command (.collectionCreated collectionId symbol)) 5000

def mint (command : Command) (collectionId : Hash) (target : PartyId) (metadataUri : String)
    (contentHash : Hash) : PrismM PrismOutput := do
  let coll ← loadCollection collectionId
  if coll.creator ≠ command.submitter then
    throw (.unauthorized "only creator can mint")
  if coll.maxSupply.any fun max => max ≤ coll.minted then
    throw (.limitExceeded "max supply reached")
  let tokenIndex := coll.minted
  modify fun state => state.putJson (metaKey collectionId tokenIndex)
    ({ collectionId := collectionId
       tokenIndex := tokenIndex
       metadataUri := metadataUri
       contentHash := contentHash } : NftToken)
  modify fun state => state.putJson (ownerKey collectionId tokenIndex) target
  modify fun state => state.putJson (collKey collectionId) { coll with minted := coll.minted + 1 }
  return .single (event command (.minted collectionId tokenIndex target)) 3000

def transfer (command : Command) (collectionId : Hash) (tokenIndex : UInt64) (target : PartyId) :
    PrismM PrismOutput := do
  let owner ← requireOwner collectionId tokenIndex
  let approved := (← get).getJson? PartyId (approveKey collectionId tokenIndex)
  let caller := command.submitter
  if owner ≠ caller ∧ approved ≠ some caller then
    throw (.unauthorized "not owner or approved")
  modify fun state => state.putJson (ownerKey collectionId tokenIndex) target
  modify fun state => state.remove (approveKey collectionId tokenIndex)
  return .single (event command (.transfer collectionId tokenIndex owner target)) 1200

def approve (command : Command) (collectionId : Hash) (tokenIndex : UInt64) (spender : PartyId) :
    PrismM PrismOutput := do
  let owner ← requireOwner collectionId tokenIndex
  if owner ≠ command.submitter then
    throw (.unauthorized "only owner can approve")
  modify fun state => state.putJson (approveKey collectionId tokenIndex) spender
  return .single (event command (.approval collectionId tokenIndex owner spender)) 800

def burn (command : Command) (collectionId : Hash) (tokenIndex : UInt64) : PrismM PrismOutput := do
  let owner ← requireOwner collectionId tokenIndex
  if owner ≠ command.submitter then
    throw (.unauthorized "only owner can burn")
  modify fun state => state.remove (ownerKey collectionId tokenIndex)
  modify fun state => state.remove (metaKey collectionId tokenIndex)
  modify fun state => state.remove (approveKey collectionId tokenIndex)
  return .single (event command (.burned collectionId tokenIndex)) 1000

def execute (command : Command) : NftCommand → PrismM PrismOutput
  | .createCollection name symbol maxSupply => createCollection command name symbol maxSupply
  | .mint collectionId target metadataUri contentHash =>
      mint command collectionId target metadataUri contentHash
  | .transfer collectionId tokenIndex target => transfer command collectionId tokenIndex target
  | .approve collectionId tokenIndex spender => approve command collectionId tokenIndex spender
  | .burn collectionId tokenIndex => burn command collectionId tokenIndex

def handle (command : Command) : PrismM PrismOutput :=
  match fromSlice NftCommand command.payload with
  | .error text => throw (.invalidPayload text)
  | .ok operation => execute command operation

def prism : Prism :=
  { name := "nft"
    handle := handle }

end Handlers

end NftPrism

end Veilux
