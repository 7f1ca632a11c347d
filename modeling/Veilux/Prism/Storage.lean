/-
The blob store of `prisms/storage/src/lib.rs`: blobs under their hash, kept as long as
somebody pins them.  Only public commands put the bytes into the state.
-/

import Veilux.Kernel.Prism
import Veilux.Prism.Evidence

namespace Veilux

structure PinRecord where
  refcount : UInt64
  size : UInt64
  isPublic : Bool
  owner : Option PartyId
  deriving DecidableEq

namespace PinRecord

def default : PinRecord :=
  { refcount := 0
    size := 0
    isPublic := false
    owner := none }

end PinRecord

/-- `Option<PartyId>`: the party or `null`. -/
instance : Serialize (Option PartyId) where
  toJson
    | none => .null
    | some party => toJson party
  toJson_injective := by
    intro left right same
    cases left with
    | none =>
        cases right with
        | none => rfl
        | some party => cases same
    | some party =>
        cases right with
        | none => cases same
        | some other => exact congrArg some (Serialize.toJson_injective same)

instance : Serialize PinRecord where
  toJson pin := .obj
    [("refcount", toJson pin.refcount), ("size", toJson pin.size), ("public", toJson pin.isPublic),
      ("owner", toJson pin.owner)]
  toJson_injective := by
    intro left right same
    cases left
    cases right
    simpa using same

inductive StorageEvent where
  | stored (cid : Hash) (size : UInt64) (key : String)
  | storedPrivate (cid : Hash) (size : UInt64) (key : String) (data : List UInt8)
  | pinned (cid : Hash) (refcount : UInt64)
  | unpinned (cid : Hash) (refcount : UInt64) (removed : Bool)
  deriving DecidableEq

/-- Internally tagged by `kind`. -/
instance : Serialize StorageEvent where
  toJson
    | .stored cid size key => .obj
        [("kind", .str "stored"), ("cid", toJson cid), ("size", toJson size), ("key", toJson key)]
    | .storedPrivate cid size key data => .obj
        [("kind", .str "stored_private"), ("cid", toJson cid), ("size", toJson size),
          ("key", toJson key), ("data", toJson data)]
    | .pinned cid refcount => .obj
        [("kind", .str "pinned"), ("cid", toJson cid), ("refcount", toJson refcount)]
    | .unpinned cid refcount removed => .obj
        [("kind", .str "unpinned"), ("cid", toJson cid), ("refcount", toJson refcount),
          ("removed", toJson removed)]
  toJson_injective := by
    intro left right same
    cases left <;> cases right <;> simp_all

namespace StoragePrism

def blobPrefix : String := "storage/blob/"
def pinPrefix : String := "storage/pin/"
def maxBlobSize : Nat := 1024 * 1024

def blobKey (cid : Hash) : String := blobPrefix ++ cid.toHex

def pinKey (cid : Hash) : String := pinPrefix ++ cid.toHex

def readBlob (state : StateTree) (cid : Hash) : Option (List UInt8) := state.get (blobKey cid)

section Handlers

variable [SerdeJson]

def loadPin (state : StateTree) (cid : Hash) : PinRecord :=
  (state.getJson? PinRecord (pinKey cid)).getD .default

variable [Blake3]

def event (command : Command) (payload : StorageEvent) : Event :=
  { sourceCommand := command.id
    prism := "storage"
    visibility := command.visibility
    payload := toVec payload }

/-! ### The three operations -/

def put (command : Command) (key : String) (data : List UInt8) : PrismM PrismOutput := do
  if maxBlobSize < data.length then
    throw (.limitExceeded ("blob of " ++ Nat.repr data.length ++ " bytes exceeds max " ++
      Nat.repr maxBlobSize))
  let cid := Hash.digest data
  let size := UInt64.ofNat data.length
  let isPublic := decide (command.visibility = .pub)
  if isPublic ∧ ¬ (← get).contains (blobKey cid) then
    modify fun state => state.put (blobKey cid) data
  let pin := loadPin (← get) cid
  modify fun state => state.putJson (pinKey cid)
    ({ refcount := pin.refcount + 1
       size := size
       isPublic := isPublic
       owner := some command.submitter } : PinRecord)
  let payload :=
    if isPublic then StorageEvent.stored cid size key
    else StorageEvent.storedPrivate cid size key data
  return .single (event command payload) (100 + size * 2)

def pin (command : Command) (cid : Hash) : PrismM PrismOutput := do
  if ¬ (← get).contains (blobKey cid) then
    throw (.notFound ("blob " ++ cid.toHex))
  let pin := loadPin (← get) cid
  let refcount := pin.refcount + 1
  modify fun state => state.putJson (pinKey cid) { pin with refcount := refcount }
  return .single (event command (.pinned cid refcount)) 200

def unpin (command : Command) (cid : Hash) : PrismM PrismOutput := do
  let pin := loadPin (← get) cid
  if pin.refcount = 0 then
    throw (.notFound ("no pin for " ++ cid.toHex))
  let refcount := pin.refcount - 1
  if refcount = 0 then
    modify fun state => state.remove (blobKey cid)
    modify fun state => state.remove (pinKey cid)
  else
    modify fun state => state.putJson (pinKey cid) { pin with refcount := refcount }
  return .single (event command (.unpinned cid refcount (decide (refcount = 0)))) 150

def execute (command : Command) : StorageCommand → PrismM PrismOutput
  | .put key data => put command key data
  | .op (.pin cid) => pin command cid
  | .op (.unpin cid) => unpin command cid

def handle (command : Command) : PrismM PrismOutput :=
  match fromSlice StorageCommand command.payload with
  | .error text => throw (.invalidPayload text)
  | .ok operation => execute command operation

def prism : Prism :=
  { name := "storage"
    handle := handle }

end Handlers

end StoragePrism

end Veilux
