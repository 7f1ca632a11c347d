/-
The confidential prism of `prisms/confidential/src/lib.rs`: tokens whose notes are kept
as hash commitments, minted by the token's admin and spent by opening them.
-/

import Veilux.Kernel.Handled

namespace Veilux

open Bytes (leBytes utf8)

structure ConfTokenMeta where
  tokenId : Hash
  name : String
  symbol : String
  admin : PartyId
  deriving DecidableEq

instance : Serialize ConfTokenMeta where
  toJson info := .obj
    [("token_id", toJson info.tokenId), ("name", toJson info.name),
      ("symbol", toJson info.symbol), ("admin", toJson info.admin)]
  toJson_injective := by
    intro left right same
    cases left
    cases right
    simpa using same

structure NoteState where
  tokenId : Hash
  spent : Bool
  deriving DecidableEq

instance : Serialize NoteState where
  toJson note := .obj [("token_id", toJson note.tokenId), ("spent", toJson note.spent)]
  toJson_injective := by
    intro left right same
    cases left
    cases right
    simpa using same

structure NoteOpening where
  owner : PartyId
  amount : U128
  blinding : String
  deriving DecidableEq

instance : Serialize NoteOpening where
  toJson opening := .obj
    [("owner", toJson opening.owner), ("amount", toJson opening.amount),
      ("blinding", toJson opening.blinding)]
  toJson_injective := by
    intro left right same
    cases left
    cases right
    simpa using same

def noteParts (tokenId : Hash) (opening : NoteOpening) : List (List UInt8) :=
  [tokenId.asBytes, opening.owner.bytes, leBytes 16 opening.amount.val, utf8 opening.blinding]

def noteCommitment [Blake3] (tokenId : Hash) (opening : NoteOpening) : Hash :=
  Hash.commit "veilux/conf/note" (noteParts tokenId opening)

inductive ConfidentialCommand where
  | createToken (name symbol : String)
  | mint (tokenId : Hash) (opening : NoteOpening)
  | transfer (tokenId : Hash) (input : NoteOpening) (outputs : List NoteOpening)
  deriving DecidableEq

/-- Internally tagged by `op`. -/
instance : Serialize ConfidentialCommand where
  toJson
    | .createToken name symbol => .obj
        [("op", .str "create_token"), ("name", toJson name), ("symbol", toJson symbol)]
    | .mint tokenId opening => .obj
        [("op", .str "mint"), ("token_id", toJson tokenId), ("opening", toJson opening)]
    | .transfer tokenId input outputs => .obj
        [("op", .str "transfer"), ("token_id", toJson tokenId), ("input", toJson input),
          ("outputs", toJson outputs)]
  toJson_injective := by
    intro left right same
    cases left <;> cases right <;> simp_all

inductive ConfidentialEvent where
  | tokenCreated (tokenId : Hash) (symbol : String)
  | noteCreated (tokenId commitment : Hash)
  | noteSpent (tokenId commitment : Hash) (outputs : List Hash)
  deriving DecidableEq

/-- Internally tagged by `kind`. -/
instance : Serialize ConfidentialEvent where
  toJson
    | .tokenCreated tokenId symbol => .obj
        [("kind", .str "token_created"), ("token_id", toJson tokenId), ("symbol", toJson symbol)]
    | .noteCreated tokenId commitment => .obj
        [("kind", .str "note_created"), ("token_id", toJson tokenId),
          ("commitment", toJson commitment)]
    | .noteSpent tokenId commitment outputs => .obj
        [("kind", .str "note_spent"), ("token_id", toJson tokenId),
          ("commitment", toJson commitment), ("outputs", toJson outputs)]
  toJson_injective := by
    intro left right same
    cases left <;> cases right <;> simp_all

namespace ConfidentialPrism

def tokenPrefix : String := "confidential/token/"
def notePrefix : String := "confidential/note/"

def tokenKey (id : Hash) : String := tokenPrefix ++ id.toHex

def noteKey (commitment : Hash) : String := notePrefix ++ commitment.toHex

/-- The `try_fold` over the amounts. -/
def outputSum : List NoteOpening → U128 → Option U128
  | [], sum => some sum
  | output :: rest, sum =>
      match sum.checkedAdd output.amount with
      | none => none
      | some next => outputSum rest next

section Handlers

variable [SerdeJson]

def loadToken (id : Hash) : PrismM ConfTokenMeta := do
  match (← get).getJson ConfTokenMeta (tokenKey id) with
  | .error error => throw (.internal error.text)
  | .ok none => throw (.notFound ("conf token " ++ id.toHex))
  | .ok (some info) => return info

def note (state : StateTree) (commitment : Hash) : Option NoteState :=
  state.getJson? NoteState (noteKey commitment)

omit [SerdeJson] in
def putNote (commitment : Hash) (entry : NoteState) : PrismM Unit :=
  modify fun state => state.putJson (noteKey commitment) entry

omit [SerdeJson] in
/-- The last loop of a transfer. -/
def putNotes (tokenId : Hash) : List Hash → PrismM Unit
  | [] => pure ()
  | commitment :: rest => do
      putNote commitment ⟨tokenId, false⟩
      putNotes tokenId rest

variable [Blake3]

def event (command : Command) (payload : ConfidentialEvent) : Event :=
  { sourceCommand := command.id
    prism := "confidential"
    visibility := command.visibility
    payload := toVec payload }

def createdId (submitter : PartyId) (symbol : String) : Hash :=
  Hash.commit "confidential/token-id" [submitter.bytes, utf8 symbol]

/-- The loop that checks the outputs and collects their commitments. -/
def checkOutputs (state : StateTree) (tokenId : Hash) :
    List NoteOpening → List Hash → Except PrismError (List Hash)
  | [], commits => .ok commits
  | output :: rest, commits =>
      if output.amount = 0 then .error (.invalidPayload "zero-value output")
      else
        let commitment := noteCommitment tokenId output
        if (note state commitment).isSome || commits.contains commitment then
          .error (.invalidPayload "output note collision")
        else checkOutputs state tokenId rest (commits ++ [commitment])

/-! ### The three operations -/

def createToken (command : Command) (name symbol : String) : PrismM PrismOutput := do
  let tokenId := createdId command.submitter symbol
  if (← get).contains (tokenKey tokenId) then
    throw (.invalidPayload "token already exists")
  modify fun state => state.putJson (tokenKey tokenId)
    ({ tokenId := tokenId
       name := name
       symbol := symbol
       admin := command.submitter } : ConfTokenMeta)
  return .single (event command (.tokenCreated tokenId symbol)) 5000

def mint (command : Command) (tokenId : Hash) (opening : NoteOpening) : PrismM PrismOutput := do
  let info ← loadToken tokenId
  if info.admin ≠ command.submitter then
    throw (.unauthorized "only admin can mint")
  if opening.amount = 0 then
    throw (.invalidPayload "amount must be > 0")
  let commitment := noteCommitment tokenId opening
  if (note (← get) commitment).isSome then
    throw (.invalidPayload "note already exists")
  putNote commitment ⟨tokenId, false⟩
  return .single (event command (.noteCreated tokenId commitment)) 4000

def transfer (command : Command) (tokenId : Hash) (input : NoteOpening)
    (outputs : List NoteOpening) : PrismM PrismOutput := do
  let _ ← loadToken tokenId
  if outputs.isEmpty then
    throw (.invalidPayload "at least one output")
  if input.owner ≠ command.submitter then
    throw (.unauthorized "only the note owner can spend it")
  let inCommit := noteCommitment tokenId input
  match note (← get) inCommit with
  | none => throw (.notFound "input note")
  | some entry =>
      if entry.spent then
        throw (.invalidPayload "note already spent")
      match outputSum outputs 0 with
      | none => throw (.internal "output sum overflow")
      | some outSum =>
          if outSum ≠ input.amount then
            throw (.invalidPayload "outputs do not conserve value")
          match checkOutputs (← get) tokenId outputs [] with
          | .error error => throw error
          | .ok outCommits =>
              putNote inCommit ⟨tokenId, true⟩
              putNotes tokenId outCommits
              return .single (event command (.noteSpent tokenId inCommit outCommits)) 8000

def execute (command : Command) : ConfidentialCommand → PrismM PrismOutput
  | .createToken name symbol => createToken command name symbol
  | .mint tokenId opening => mint command tokenId opening
  | .transfer tokenId input outputs => transfer command tokenId input outputs

def handle (command : Command) : PrismM PrismOutput :=
  match fromSlice ConfidentialCommand command.payload with
  | .error text => throw (.invalidPayload text)
  | .ok operation => execute command operation

def prism : Prism :=
  { name := "confidential"
    handle := handle }

def discloseNote (state : StateTree) (tokenId : Hash) (opening : NoteOpening) : Option Bool :=
  (note state (noteCommitment tokenId opening)).map NoteState.spent

end Handlers

end ConfidentialPrism

end Veilux
