/-
The model registry of `prisms/ai/src/lib.rs`.  Inference is a parameter: the handler uses
only the bytes and the cost it returns, and hands long outputs to the blob store.
-/

import Veilux.Prism.Oracle
import Veilux.Prism.Storage

namespace Veilux

open Bytes (utf8)

inductive ModelKind where
  | classification
  | regression
  | embedding
  | text
  deriving DecidableEq

instance : Serialize ModelKind where
  toJson
    | .classification => .str "Classification"
    | .regression => .str "Regression"
    | .embedding => .str "Embedding"
    | .text => .str "Text"
  toJson_injective := by
    intro left right same
    cases left <;> cases right <;> simp_all

structure ModelRecord where
  modelId : Hash
  name : String
  kind : ModelKind
  weightsHash : Hash
  owner : PartyId
  version : String
  dimensions : UInt32
  deriving DecidableEq

instance : Serialize ModelRecord where
  toJson record := .obj
    [("model_id", toJson record.modelId), ("name", toJson record.name),
      ("kind", toJson record.kind), ("weights_hash", toJson record.weightsHash),
      ("owner", toJson record.owner), ("version", toJson record.version),
      ("dimensions", toJson record.dimensions)]
  toJson_injective := by
    intro left right same
    cases left
    cases right
    simpa using same

/-- `run_inference`: the output of a model on an input, and its cost. -/
class Inference where
  run : ModelRecord → List UInt8 → List UInt8 × UInt64

inductive AiCommand where
  | register (name : String) (kind : ModelKind) (weightsHash : Hash) (version : String)
      (dimensions : UInt32)
  | infer (modelId : Hash) (input : List UInt8)
  deriving DecidableEq

/-- Internally tagged by `op`. -/
instance : Serialize AiCommand where
  toJson
    | .register name kind weightsHash version dimensions => .obj
        [("op", .str "register"), ("name", toJson name), ("kind", toJson kind),
          ("weights_hash", toJson weightsHash), ("version", toJson version),
          ("dimensions", toJson dimensions)]
    | .infer modelId input => .obj
        [("op", .str "infer"), ("model_id", toJson modelId), ("input", toJson input)]
  toJson_injective := by
    intro left right same
    cases left <;> cases right <;> simp_all

/-- `Option<Vec<u8>>`: the bytes or `null`. -/
def inlineJson : Option (List UInt8) → Json
  | none => .null
  | some bytes => toJson bytes

theorem inlineJson_injective : Function.Injective inlineJson := by
  intro left right same
  cases left with
  | none =>
      cases right with
      | none => rfl
      | some bytes => cases same
  | some bytes =>
      cases right with
      | none => cases same
      | some other => exact congrArg some (Serialize.toJson_injective same)

inductive AiEvent where
  | modelRegistered (modelId : Hash) (name : String)
  | inferenceCommitted (modelId inputHash outputHash : Hash) (output : Option (List UInt8))
      (cost : UInt64)
  deriving DecidableEq

/-- Internally tagged by `kind`. -/
instance : Serialize AiEvent where
  toJson
    | .modelRegistered modelId name => .obj
        [("kind", .str "model_registered"), ("model_id", toJson modelId), ("name", toJson name)]
    | .inferenceCommitted modelId inputHash outputHash output cost => .obj
        [("kind", .str "inference_committed"), ("model_id", toJson modelId),
          ("input_hash", toJson inputHash), ("output_hash", toJson outputHash),
          ("output", inlineJson output), ("cost", toJson cost)]
  toJson_injective := by
    intro left right same
    cases left <;> cases right <;> simp_all [inlineJson_injective.eq_iff]

namespace AiPrism

def modelPrefix : String := "ai/models/"
def offloadThreshold : Nat := 256

def modelKey (id : Hash) : String := modelPrefix ++ id.toHex

section Handlers

variable [SerdeJson]

def loadModel (id : Hash) : PrismM ModelRecord := do
  match (← get).getJson ModelRecord (modelKey id) with
  | .error error => throw (.internal error.text)
  | .ok none => throw (.notFound ("model " ++ id.toHex))
  | .ok (some record) => return record

variable [Blake3]

def event (command : Command) (payload : AiEvent) : Event :=
  { sourceCommand := command.id
    prism := "ai"
    visibility := command.visibility
    payload := toVec payload }

def modelId (submitter : PartyId) (name : String) (weightsHash : Hash) : Hash :=
  Hash.commit "ai/model-id" [submitter.bytes, utf8 name, weightsHash.asBytes]

/-- A model that is there already is replaced. -/
def register (command : Command) (name : String) (kind : ModelKind) (weightsHash : Hash)
    (version : String) (dimensions : UInt32) : PrismM PrismOutput := do
  let id := modelId command.submitter name weightsHash
  modify fun state => state.putJson (modelKey id)
    ({ modelId := id
       name := name
       kind := kind
       weightsHash := weightsHash
       owner := command.submitter
       version := version
       dimensions := dimensions } : ModelRecord)
  return .single (event command (.modelRegistered id name)) 5000

variable [Inference]

def infer (command : Command) (id : Hash) (input : List UInt8) : PrismM PrismOutput := do
  let model ← loadModel id
  let (output, cost) := Inference.run model input
  let outputHash := Hash.digest output
  let offloaded := decide (offloadThreshold < output.length)
  let derived := putCommand command.submitter command.visibility command.nonce
    ("ai/result/" ++ outputHash.toHex) output
  return {
    events := [event command (.inferenceCommitted id (Hash.digest input) outputHash
      (if offloaded then none else some output) cost)]
    derivedCommands := if offloaded then [derived] else []
    cost := cost }

def execute (command : Command) : AiCommand → PrismM PrismOutput
  | .register name kind weightsHash version dimensions =>
      register command name kind weightsHash version dimensions
  | .infer modelId input => infer command modelId input

def handle (command : Command) : PrismM PrismOutput :=
  match fromSlice AiCommand command.payload with
  | .error text => throw (.invalidPayload text)
  | .ok operation => execute command operation

def prism : Prism :=
  { name := "ai"
    handle := handle }

end Handlers

end AiPrism

end Veilux
