/-
The oracle prism of `prisms/oracle/src/lib.rs`: feeds with a list of reporters, and
values that a quorum of the reporters has signed.
-/

import Veilux.Kernel.Handled
import Veilux.Veil.Identity

namespace Veilux

open Bytes (leBytes utf8)

instance : Serialize UInt32 where
  toJson value := .num value.toNat
  toJson_injective := fun _ _ same => UInt32.toNat_inj.mp (Json.num.inj same)

structure Feed where
  feedId : Hash
  name : String
  admin : PartyId
  reporters : List String
  quorum : UInt32
  round : UInt64
  deriving DecidableEq

instance : Serialize Feed where
  toJson feed := .obj
    [("feed_id", toJson feed.feedId), ("name", toJson feed.name), ("admin", toJson feed.admin),
      ("reporters", toJson feed.reporters), ("quorum", toJson feed.quorum),
      ("round", toJson feed.round)]
  toJson_injective := by
    intro left right same
    cases left
    cases right
    simpa using same

structure FeedValue where
  feedId : Hash
  round : UInt64
  value : List UInt8
  reporters : List String
  deriving DecidableEq

instance : Serialize FeedValue where
  toJson reported := .obj
    [("feed_id", toJson reported.feedId), ("round", toJson reported.round),
      ("value", toJson reported.value), ("reporters", toJson reported.reporters)]
  toJson_injective := by
    intro left right same
    cases left
    cases right
    simpa using same

structure ReporterSig where
  publicKey : String
  signature : String
  deriving DecidableEq

instance : Serialize ReporterSig where
  toJson entry := .obj
    [("public_key", toJson entry.publicKey), ("signature", toJson entry.signature)]
  toJson_injective := by
    intro left right same
    cases left
    cases right
    simpa using same

inductive OracleCommand where
  | registerFeed (name : String) (reporters : List String) (quorum : UInt32)
  | report (feedId : Hash) (round : UInt64) (value : List UInt8) (signatures : List ReporterSig)
  deriving DecidableEq

/-- Internally tagged by `op`. -/
instance : Serialize OracleCommand where
  toJson
    | .registerFeed name reporters quorum => .obj
        [("op", .str "register_feed"), ("name", toJson name), ("reporters", toJson reporters),
          ("quorum", toJson quorum)]
    | .report feedId round value signatures => .obj
        [("op", .str "report"), ("feed_id", toJson feedId), ("round", toJson round),
          ("value", toJson value), ("signatures", toJson signatures)]
  toJson_injective := by
    intro left right same
    cases left <;> cases right <;> simp_all

inductive OracleEvent where
  | feedRegistered (feedId : Hash) (name : String) (quorum : UInt32)
  | valueUpdated (feedId : Hash) (round : UInt64) (value : List UInt8) (signers : UInt32)
  deriving DecidableEq

/-- Internally tagged by `kind`. -/
instance : Serialize OracleEvent where
  toJson
    | .feedRegistered feedId name quorum => .obj
        [("kind", .str "feed_registered"), ("feed_id", toJson feedId), ("name", toJson name),
          ("quorum", toJson quorum)]
    | .valueUpdated feedId round value signers => .obj
        [("kind", .str "value_updated"), ("feed_id", toJson feedId), ("round", toJson round),
          ("value", toJson value), ("signers", toJson signers)]
  toJson_injective := by
    intro left right same
    cases left <;> cases right <;> simp_all

def reportDigest (feedId : Hash) (round : UInt64) (value : List UInt8) : List UInt8 :=
  utf8 "veilux/oracle/report/v1" ++ 0xff :: feedId.asBytes ++ leBytes 8 round.toNat ++
    0xff :: value

namespace OraclePrism

def feedPrefix : String := "oracle/feed/"
def valuePrefix : String := "oracle/value/"

def feedKey (id : Hash) : String := feedPrefix ++ id.toHex

def valueKey (id : Hash) : String := valuePrefix ++ id.toHex

/-- `hex::decode` behind `trim_start_matches("0x")`. -/
def decodeHex (text : String) : Option (List UInt8) :=
  Bytes.hexDecode (Bytes.trimHex text.toList)

theorem decodeHex_hexEncode (bytes : List UInt8) :
    decodeHex (Bytes.hexEncode bytes) = some bytes := by
  unfold decodeHex Bytes.hexEncode
  rw [String.toList_ofList, Bytes.trimHex_hexChars]
  exact Bytes.hexDecode_hexChars bytes

section Handlers

variable [SerdeJson]

def loadFeed (id : Hash) : PrismM Feed := do
  match (← get).getJson Feed (feedKey id) with
  | .error error => throw (.internal error.text)
  | .ok none => throw (.notFound ("feed " ++ id.toHex))
  | .ok (some feed) => return feed

variable [Blake3]

def event (command : Command) (payload : OracleEvent) : Event :=
  { sourceCommand := command.id
    prism := "oracle"
    visibility := command.visibility
    payload := toVec payload }

def registeredId (submitter : PartyId) (name : String) : Hash :=
  Hash.commit "oracle/feed" [submitter.bytes, utf8 name]

variable [Ed25519]

omit [SerdeJson] [Blake3] in
/-- The loop over the signatures with the reporters counted so far. -/
def countReporters (reporters : List String) (digest : List UInt8) :
    List ReporterSig → List String → List String
  | [], counted => counted
  | entry :: rest, counted =>
      if ¬ reporters.contains entry.publicKey then countReporters reporters digest rest counted
      else if counted.contains entry.publicKey then countReporters reporters digest rest counted
      else
        match decodeHex entry.publicKey with
        | none => countReporters reporters digest rest counted
        | some key =>
            match decodeHex entry.signature with
            | none => countReporters reporters digest rest counted
            | some signature =>
                match verifyBytes key digest signature with
                | .ok () =>
                    countReporters reporters digest rest (counted ++ [entry.publicKey])
                | .error _ => countReporters reporters digest rest counted

/-! ### The two operations -/

omit [SerdeJson] [Ed25519] in
def registerFeed (command : Command) (name : String) (reporters : List String)
    (quorum : UInt32) : PrismM PrismOutput := do
  if quorum = 0 ∨ reporters.length < quorum.toNat then
    throw (.invalidPayload "quorum must be in 1..=reporters")
  let feedId := registeredId command.submitter name
  if (← get).contains (feedKey feedId) then
    throw (.invalidPayload "feed already exists")
  modify fun state => state.putJson (feedKey feedId)
    ({ feedId := feedId
       name := name
       admin := command.submitter
       reporters := reporters
       quorum := quorum
       round := 0 } : Feed)
  return .single (event command (.feedRegistered feedId name quorum)) 5000

def report (command : Command) (feedId : Hash) (round : UInt64) (value : List UInt8)
    (signatures : List ReporterSig) : PrismM PrismOutput := do
  let feed ← loadFeed feedId
  if round ≤ feed.round then
    throw (.invalidPayload "round must strictly advance")
  let counted := countReporters feed.reporters (reportDigest feedId round value) signatures []
  -- `counted.len() as u32` drops the upper bits.
  if UInt32.ofNat counted.length < feed.quorum then
    throw (.unauthorized ("insufficient reporter quorum: " ++ Nat.repr counted.length ++ "/" ++
      Nat.repr feed.quorum.toNat))
  modify fun state => state.putJson (feedKey feedId) { feed with round := round }
  modify fun state => state.putJson (valueKey feedId)
    ({ feedId := feedId
       round := round
       value := value
       reporters := counted } : FeedValue)
  return .single (event command
    (.valueUpdated feedId round value (UInt32.ofNat counted.length))) 6000

def execute (command : Command) : OracleCommand → PrismM PrismOutput
  | .registerFeed name reporters quorum => registerFeed command name reporters quorum
  | .report feedId round value signatures => report command feedId round value signatures

def handle (command : Command) : PrismM PrismOutput :=
  match fromSlice OracleCommand command.payload with
  | .error text => throw (.invalidPayload text)
  | .ok operation => execute command operation

def prism : Prism :=
  { name := "oracle"
    handle := handle }

def latestValue (state : StateTree) (feedId : Hash) : Option FeedValue :=
  state.getJson? FeedValue (valueKey feedId)

end Handlers

/-! ### What the quorum counts -/

section Quorum

variable [Ed25519] {reporters : List String} {digest : List UInt8}

/-- The entry names a listed reporter and its signature verifies under that key. -/
structure Endorses (reporters : List String) (digest : List UInt8) (entry : ReporterSig) :
    Prop where
  listed : entry.publicKey ∈ reporters
  verified : ∃ key signature, decodeHex entry.publicKey = some key ∧
    decodeHex entry.signature = some signature ∧ verifyBytes key digest signature = .ok ()

theorem countReporters_spec {signatures : List ReporterSig} {counted : List String}
    (distinct : counted.Nodup) :
    (countReporters reporters digest signatures counted).Nodup ∧
      ∀ reporter ∈ countReporters reporters digest signatures counted, reporter ∈ counted ∨
        ∃ entry ∈ signatures, entry.publicKey = reporter ∧ Endorses reporters digest entry := by
  induction signatures generalizing counted with
  | nil => exact ⟨distinct, fun reporter member => .inl member⟩
  | cons entry rest ih =>
      have later : ∀ {counted : List String}, counted.Nodup →
          (countReporters reporters digest rest counted).Nodup ∧
            ∀ reporter ∈ countReporters reporters digest rest counted, reporter ∈ counted ∨
              ∃ other ∈ entry :: rest, other.publicKey = reporter ∧
                Endorses reporters digest other := by
        intro counted distinct
        obtain ⟨nodup, each⟩ := ih distinct
        refine ⟨nodup, fun reporter member => (each reporter member).imp_right ?_⟩
        intro signed
        obtain ⟨other, inRest, endorses⟩ := signed
        exact ⟨other, List.mem_cons_of_mem _ inRest, endorses⟩
      unfold countReporters
      split
      · exact later distinct
      · rename_i listed
        split
        · exact later distinct
        · rename_i fresh
          cases decoded : decodeHex entry.publicKey with
          | none => exact later distinct
          | some key =>
              dsimp only
              cases tag : decodeHex entry.signature with
              | none => exact later distinct
              | some signature =>
                  dsimp only
                  cases verified : verifyBytes key digest signature with
                  | error error => exact later distinct
                  | ok done =>
                      have unseen : entry.publicKey ∉ counted := by
                        simpa using fresh
                      have extended : (counted ++ [entry.publicKey]).Nodup := by
                        rw [← List.concat_eq_append]
                        exact distinct.concat unseen
                      have endorses : Endorses reporters digest entry :=
                        ⟨by simpa using listed, key, signature, decoded, tag, verified⟩
                      obtain ⟨nodup, each⟩ := later extended
                      refine ⟨nodup, fun reporter member => ?_⟩
                      rcases each reporter member with earlier | signed
                      · rcases List.mem_append.mp earlier with before | last
                        · exact .inl before
                        · have same := List.mem_singleton.mp last
                          exact .inr ⟨entry, List.mem_cons_self, same.symm, endorses⟩
                      · exact .inr signed

/-- Entries that all endorse, under different texts, are all counted. -/
theorem countReporters_endorsed {signatures : List ReporterSig} {counted : List String}
    (endorsed : ∀ entry ∈ signatures, Endorses reporters digest entry)
    (distinct : (counted ++ signatures.map ReporterSig.publicKey).Nodup) :
    countReporters reporters digest signatures counted =
      counted ++ signatures.map ReporterSig.publicKey := by
  induction signatures generalizing counted with
  | nil =>
      rw [List.map_nil, List.append_nil]
      rfl
  | cons entry rest ih =>
      obtain ⟨listed, key, signature, decoded, tag, verified⟩ := endorsed entry List.mem_cons_self
      rw [List.map_cons, List.append_cons] at distinct ⊢
      have unseen : entry.publicKey ∉ counted := by
        intro member
        have prefixed := (List.nodup_append.mp distinct).1
        exact (List.nodup_append.mp prefixed).2.2 _ member _ (List.mem_singleton_self _) rfl
      unfold countReporters
      rw [if_neg (by simpa using listed), if_neg (by simpa using unseen), decoded]
      dsimp only
      rw [tag]
      dsimp only
      rw [verified]
      exact ih (fun other member => endorsed other (List.mem_cons_of_mem _ member)) distinct

end Quorum

end OraclePrism

end Veilux
