/-
The name service of `prisms/name/src/lib.rs`: names that expire, with an owner, a target,
text records and a reverse entry from the target.
-/

import Veilux.Prism.Storage

namespace Veilux

open Bytes (utf8)

/-- A `BTreeMap<String, String>`. -/
instance : Serialize (Std.ExtTreeMap String String) where
  toJson records := .obj (records.toList.map fun entry => (entry.1, toJson entry.2))
  toJson_injective := by
    intro left right same
    have entries : left.toList = right.toList := by
      refine List.map_injective_iff.mpr ?_ (Json.obj.inj same)
      intro first second equal
      obtain ⟨keys, values⟩ := Prod.mk.inj equal
      exact Prod.ext keys (Serialize.toJson_injective values)
    apply Std.ExtTreeMap.ext_getElem?
    intro key
    apply Option.ext
    intro value
    rw [← Std.ExtTreeMap.mem_toList_iff_getElem?_eq_some, entries,
      Std.ExtTreeMap.mem_toList_iff_getElem?_eq_some]

structure NameRecord where
  name : String
  owner : PartyId
  target : Option PartyId
  registeredAt : UInt64
  expiresAt : UInt64
  records : Std.ExtTreeMap String String

instance : Serialize NameRecord where
  toJson record := .obj
    [("name", toJson record.name), ("owner", toJson record.owner),
      ("target", toJson record.target), ("registered_at", toJson record.registeredAt),
      ("expires_at", toJson record.expiresAt), ("records", toJson record.records)]
  toJson_injective := by
    intro left right same
    cases left
    cases right
    simpa using same

/-- Zero stands for a name that never expires. -/
def NameRecord.isExpired (record : NameRecord) (now : UInt64) : Bool :=
  decide (record.expiresAt ≠ 0) && decide (record.expiresAt ≤ now)

inductive NameCommand where
  | register (name : String) (durationSecs : UInt64) (target : Option PartyId)
  | renew (name : String) (durationSecs : UInt64)
  | transfer (name : String) (target : PartyId)
  | setTarget (name : String) (target : Option PartyId)
  | setRecord (name key value : String)
  | clearRecord (name key : String)
  | release (name : String)
  deriving DecidableEq

/-- Internally tagged by `op`. -/
instance : Serialize NameCommand where
  toJson
    | .register name durationSecs target => .obj
        [("op", .str "register"), ("name", toJson name), ("duration_secs", toJson durationSecs),
          ("target", toJson target)]
    | .renew name durationSecs => .obj
        [("op", .str "renew"), ("name", toJson name), ("duration_secs", toJson durationSecs)]
    | .transfer name target => .obj
        [("op", .str "transfer"), ("name", toJson name), ("to", toJson target)]
    | .setTarget name target => .obj
        [("op", .str "set_target"), ("name", toJson name), ("target", toJson target)]
    | .setRecord name key value => .obj
        [("op", .str "set_record"), ("name", toJson name), ("key", toJson key),
          ("value", toJson value)]
    | .clearRecord name key => .obj
        [("op", .str "clear_record"), ("name", toJson name), ("key", toJson key)]
    | .release name => .obj [("op", .str "release"), ("name", toJson name)]
  toJson_injective := by
    intro left right same
    cases left <;> cases right <;> simp_all

inductive NameEvent where
  | registered (name : String) (owner : PartyId) (expiresAt : UInt64)
  | renewed (name : String) (expiresAt : UInt64)
  | transferred (name : String) (source target : PartyId)
  | targetSet (name : String) (target : Option PartyId)
  | recordSet (name key : String)
  | recordCleared (name key : String)
  | released (name : String)
  deriving DecidableEq

/-- Internally tagged by `kind`. -/
instance : Serialize NameEvent where
  toJson
    | .registered name owner expiresAt => .obj
        [("kind", .str "registered"), ("name", toJson name), ("owner", toJson owner),
          ("expires_at", toJson expiresAt)]
    | .renewed name expiresAt => .obj
        [("kind", .str "renewed"), ("name", toJson name), ("expires_at", toJson expiresAt)]
    | .transferred name source target => .obj
        [("kind", .str "transferred"), ("name", toJson name), ("from", toJson source),
          ("to", toJson target)]
    | .targetSet name target => .obj
        [("kind", .str "target_set"), ("name", toJson name), ("target", toJson target)]
    | .recordSet name key => .obj
        [("kind", .str "record_set"), ("name", toJson name), ("key", toJson key)]
    | .recordCleared name key => .obj
        [("kind", .str "record_cleared"), ("name", toJson name), ("key", toJson key)]
    | .released name => .obj [("kind", .str "released"), ("name", toJson name)]
  toJson_injective := by
    intro left right same
    cases left <;> cases right <;> simp_all

namespace NamePrism

def recPrefix : String := "name/rec/"
def revPrefix : String := "name/rev/"
def rootTld : String := "veil"
def maxLabelLen : Nat := 63
def maxRecords : Nat := 32
def maxValueLen : Nat := 320

def recKey (name : String) : String := recPrefix ++ name

def revKey (target : PartyId) : String := revPrefix ++ target.name

/-! ### Spellings of a name -/

/-- The Unicode property `White_Space`. -/
def isWhiteSpace (char : Char) : Bool :=
  let code := char.toNat
  (9 ≤ code && code ≤ 13) || code = 32 || code = 0x85 || code = 0xa0 || code = 0x1680 ||
    (0x2000 ≤ code && code ≤ 0x200a) || code = 0x2028 || code = 0x2029 || code = 0x202f ||
    code = 0x205f || code = 0x3000

/-- `str::trim`. -/
def trim (text : List Char) : List Char :=
  ((text.dropWhile isWhiteSpace).reverse.dropWhile isWhiteSpace).reverse

/-- `str::to_ascii_lowercase` on one character. -/
def asciiLower (char : Char) : Char :=
  if 'A' ≤ char ∧ char ≤ 'Z' then Char.ofNat (char.toNat + 32) else char

/-- `strip_suffix(..).unwrap_or(..)`. -/
def stripSuffix (text suffix : List Char) : List Char :=
  if suffix <:+ text then text.take (text.length - suffix.length) else text

def labelChar (char : Char) : Bool :=
  ('a' ≤ char && char ≤ 'z') || ('0' ≤ char && char ≤ '9') || char = '-'

/-- The label of a spelling, before it is checked. -/
def label (raw : String) : List Char :=
  stripSuffix ((trim raw.toList).map asciiLower) ('.' :: rootTld.toList)

def normalize (raw : String) : Except PrismError String :=
  let label := label raw
  if label.isEmpty ∨ maxLabelLen < (utf8 (String.ofList label)).length then
    .error (.invalidPayload "name label must be 1..=63 chars")
  else if ¬ label.all labelChar then
    .error (.invalidPayload "name may only contain a-z, 0-9 and '-'")
  else if label.head? = some '-' ∨ label.getLast? = some '-' then
    .error (.invalidPayload "name must not start or end with '-'")
  else .ok (String.ofList label ++ "." ++ rootTld)

example : normalize " ALICE.veil " = .ok "alice.veil" := by decide +kernel

section Handlers

variable [SerdeJson]

/-- `normalize(..)?`. -/
def normalized (raw : String) : PrismM String :=
  match normalize raw with
  | .error error => throw error
  | .ok name => return name

def load (name : String) : PrismM (Option NameRecord) := do
  match (← get).getJson NameRecord (recKey name) with
  | .error error => throw (.internal error.text)
  | .ok record => return record

/-- `load(..)?.ok_or_else(|| NotFound("name not registered"))`. -/
def loadRegistered (name : String) : PrismM NameRecord := do
  match ← load name with
  | none => throw (.notFound "name not registered")
  | some record => return record

omit [SerdeJson] in
def store (record : NameRecord) : PrismM Unit :=
  modify fun state => state.putJson (recKey record.name) record

omit [SerdeJson] in
def setReverse (target : Option PartyId) (name : String) : PrismM Unit :=
  match target with
  | none => pure ()
  | some target => modify fun state => state.putJson (revKey target) name

/-- Only an entry that names this name is removed. -/
def clearReverse (target : Option PartyId) (name : String) : PrismM Unit := do
  match target with
  | none => pure ()
  | some target =>
      if (← get).getJson? String (revKey target) = some name then
        modify fun state => state.remove (revKey target)

def now (state : StateTree) : UInt64 := (state.getJson? UInt64 "chain/now").getD 0

/-! ### Queries -/

def lookup (state : StateTree) (raw : String) : Option NameRecord :=
  match normalize raw with
  | .error _ => none
  | .ok name => state.getJson? NameRecord (recKey name)

def resolve (state : StateTree) (raw : String) : Option PartyId :=
  match lookup state raw with
  | none => none
  | some record =>
      if record.isExpired (now state) then none else record.target.or (some record.owner)

def reverseLookup (state : StateTree) (target : PartyId) : Option String :=
  match state.getJson? String (revKey target) with
  | none => none
  | some name =>
      match lookup state name with
      | none => none
      | some record =>
          if record.isExpired (now state) ∨ record.target ≠ some target then none else some name

/-! ### Checks -/

omit [SerdeJson] in
def requireOwner (record : NameRecord) (caller : PartyId) (now : UInt64) : PrismM Unit := do
  if record.isExpired now then
    throw (.notFound "name has expired")
  if record.owner ≠ caller then
    throw (.unauthorized "not the name owner")

/-- `saturating_add`. -/
def later (start duration : UInt64) : UInt64 :=
  if 2 ^ 64 ≤ start.toNat + duration.toNat then 0xffffffffffffffff else start + duration

variable [Blake3]

def event (command : Command) (payload : NameEvent) : Event :=
  { sourceCommand := command.id
    prism := "name"
    visibility := command.visibility
    payload := toVec payload }

/-! ### The seven operations -/

def register (command : Command) (now : UInt64) (raw : String) (durationSecs : UInt64)
    (target : Option PartyId) : PrismM PrismOutput := do
  let caller := command.submitter
  let name ← normalized raw
  match ← load name with
  | none => pure ()
  | some existing =>
      if ¬ existing.isExpired now then
        throw (.invalidPayload "name already taken")
      clearReverse existing.target name
  let expiresAt := if durationSecs = 0 then 0 else later now durationSecs
  store
    { name := name
      owner := caller
      target := target
      registeredAt := now
      expiresAt := expiresAt
      records := ∅ }
  setReverse target name
  return .single (event command (.registered name caller expiresAt)) 5000

/-- An expired name can be renewed by its owner. -/
def renew (command : Command) (now : UInt64) (raw : String) (durationSecs : UInt64) :
    PrismM PrismOutput := do
  let name ← normalized raw
  let record ← loadRegistered name
  if record.owner ≠ command.submitter then
    throw (.unauthorized "not the name owner")
  let base := if record.isExpired now then now else record.expiresAt
  let expiresAt := if record.expiresAt = 0 then 0 else later base durationSecs
  store { record with expiresAt := expiresAt }
  return .single (event command (.renewed name expiresAt)) 2000

def transfer (command : Command) (now : UInt64) (raw : String) (target : PartyId) :
    PrismM PrismOutput := do
  let name ← normalized raw
  let record ← loadRegistered name
  requireOwner record command.submitter now
  store { record with owner := target }
  return .single (event command (.transferred name record.owner target)) 1500

def setTarget (command : Command) (now : UInt64) (raw : String) (target : Option PartyId) :
    PrismM PrismOutput := do
  let name ← normalized raw
  let record ← loadRegistered name
  requireOwner record command.submitter now
  clearReverse record.target name
  store { record with target := target }
  setReverse target name
  return .single (event command (.targetSet name target)) 1000

def setRecord (command : Command) (now : UInt64) (raw key value : String) :
    PrismM PrismOutput := do
  let name ← normalized raw
  if key.isEmpty ∨ 64 < (utf8 key).length then
    throw (.invalidPayload "record key must be 1..=64 chars")
  if maxValueLen < (utf8 value).length then
    throw (.limitExceeded "record value too long")
  let record ← loadRegistered name
  requireOwner record command.submitter now
  if ¬ record.records.contains key ∧ maxRecords ≤ record.records.size then
    throw (.limitExceeded "too many records")
  store { record with records := record.records.insert key value }
  return .single (event command (.recordSet name key)) 900

def clearRecord (command : Command) (now : UInt64) (raw key : String) : PrismM PrismOutput := do
  let name ← normalized raw
  let record ← loadRegistered name
  requireOwner record command.submitter now
  store { record with records := record.records.erase key }
  return .single (event command (.recordCleared name key)) 700

/-- The expiry is not checked here. -/
def release (command : Command) (raw : String) : PrismM PrismOutput := do
  let name ← normalized raw
  let record ← loadRegistered name
  if record.owner ≠ command.submitter then
    throw (.unauthorized "not the name owner")
  clearReverse record.target name
  modify fun state => state.remove (recKey name)
  return .single (event command (.released name)) 500

def execute (command : Command) (now : UInt64) : NameCommand → PrismM PrismOutput
  | .register name durationSecs target => register command now name durationSecs target
  | .renew name durationSecs => renew command now name durationSecs
  | .transfer name target => transfer command now name target
  | .setTarget name target => setTarget command now name target
  | .setRecord name key value => setRecord command now name key value
  | .clearRecord name key => clearRecord command now name key
  | .release name => release command name

def handle (command : Command) : PrismM PrismOutput :=
  match fromSlice NameCommand command.payload with
  | .error text => throw (.invalidPayload text)
  | .ok operation => do execute command (now (← get)) operation

def prism : Prism :=
  { name := "name"
    handle := handle }

end Handlers

end NamePrism

end Veilux
