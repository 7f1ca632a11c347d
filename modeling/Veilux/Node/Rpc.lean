/-
The requests of `node/src/rpc_service.rs` and `node/src/eth_rpc.rs` that change a
node: submission with the block it produces at once, confidential envelopes, raw
transactions, and contract verification, which writes its record into the state.
-/

import Veilux.Node.Chain
import Veilux.Node.Private
import Veilux.Prism.Contract

namespace Veilux

namespace Rpc

/-! ### Reading a `serde_json::Value` -/

/-- `Value::get`; among fields of one name the last counts. -/
def field (name : String) : Json → Option Json
  | .obj fields => (fields.reverse.find? fun entry => entry.1 = name).map Prod.snd
  | _ => none

def asArray : Json → Option (List Json)
  | .arr items => some items
  | _ => none

def asU64 : Json → Option Nat
  | .num value => if value < 2 ^ 64 then some value else none
  | _ => none

def asStr : Json → Option String
  | .str text => some text
  | _ => none

/-! ### Verification records -/

structure ContractCode where
  address : String
  found : Bool
  deployer : Option String
  bytecodeHex : String
  codeSize : Nat
  codeHash : String
  verified : Bool
  deriving DecidableEq

structure VerifyRequest where
  address : String
  name : String
  source : String
  bytecodeHex : String
  compiler : String
  abi : String
  deriving DecidableEq

structure VerificationRecord where
  address : String
  name : String
  source : String
  compiler : String
  abi : String
  codeHash : String
  verifiedAtHeight : Nat
  deriving DecidableEq

instance : Serialize VerificationRecord where
  toJson record := .obj
    [("address", toJson record.address), ("name", toJson record.name),
      ("source", toJson record.source), ("compiler", toJson record.compiler),
      ("abi", toJson record.abi), ("code_hash", toJson record.codeHash),
      ("verified_at_height", toJson record.verifiedAtHeight)]
  toJson_injective := by
    intro left right same
    cases left
    cases right
    simpa using same

structure VerifyResult where
  verified : Bool
  message : String
  codeHash : String
  deriving DecidableEq

def verifiedKey (address : String) : String := "contract/verified/" ++ address

/-- `trim_start_matches("0x").to_lowercase()`.  The deployed side is plain ASCII, and
only ASCII letters lower to ASCII hexadecimal digits. -/
def normalized (text : String) : List Char := (Bytes.trimHex text.toList).map Char.toLower

section Reads

variable [SerdeJson] [Blake3]

/-- The bytes of the `code` field; what is not a number is left out. -/
def codeOf (info : Json) : List UInt8 :=
  (((field "code" info).bind asArray).map fun items =>
    items.filterMap fun item => (asU64 item).map UInt8.ofNat).getD []

def readContractCode (state : StateTree) (address : String) : ContractCode :=
  match state.getJson? Json ("contract/code/" ++ address) with
  | none =>
      { address := address
        found := false
        deployer := none
        bytecodeHex := ""
        codeSize := 0
        codeHash := ""
        verified := false }
  | some info =>
      { address := address
        found := true
        deployer := (field "deployer" info).bind asStr
        bytecodeHex := Bytes.hexEncode (codeOf info)
        codeSize := (codeOf info).length
        codeHash := (Hash.digest (codeOf info)).toHex
        verified := state.contains (verifiedKey address) }

end Reads

end Rpc

open Rpc

namespace Node

section Handlers

variable [SerdeJson] [Blake3]

/-- The record a verification request would write, if it is granted. -/
def verification (node : Node) (request : VerifyRequest) : Option VerificationRecord :=
  let code := readContractCode node.state request.address
  if code.found ∧ normalized request.bytecodeHex = normalized code.bytecodeHex then
    some
      { address := request.address
        name := request.name
        source := request.source
        compiler := request.compiler
        abi := request.abi
        codeHash := code.codeHash
        verifiedAtHeight := node.head.height }
  else none

theorem verification_granted {node : Node} {request : VerifyRequest}
    (found : (readContractCode node.state request.address).found = true)
    (same : normalized request.bytecodeHex =
      normalized (readContractCode node.state request.address).bytecodeHex) :
    node.verification request = some
      { address := request.address
        name := request.name
        source := request.source
        compiler := request.compiler
        abi := request.abi
        codeHash := (readContractCode node.state request.address).codeHash
        verifiedAtHeight := node.head.height } :=
  if_pos ⟨found, same⟩

def contractVerify (node : Node) (request : VerifyRequest) : VerifyResult × Node :=
  let code := readContractCode node.state request.address
  if ¬ code.found then (⟨false, "contract not found on chain", ""⟩, node)
  else
    match node.verification request with
    | none =>
        (⟨false, "submitted bytecode does not match deployed bytecode", code.codeHash⟩, node)
    | some record =>
        (⟨true, "contract verified", code.codeHash⟩,
          { node with state := node.state.putJson (verifiedKey request.address) record })

/-- `SUBMIT`: an accepted command is followed by a block, whose failure is ignored. -/
def rpcSubmit [Ed25519] [ChaCha20Poly1305] (env assembling later : Env) (node : Node)
    (signed : SignedCommand) : Except NodeError Unit × Node :=
  match node.submitSigned env signed with
  | (.error error, node) => (.error error, node)
  | (.ok (), node) => (.ok (), (node.produceBlock assembling later).2)

end Handlers

/-- What reaches a node from its own drivers and over its two interfaces. -/
inductive Request where
  | call (call : Call)
  | submit (env assembling later : Env) (signed : SignedCommand)
  | submitPrivate (env : Env) (envelope : PrivateEnvelope)
  | contractVerify (request : VerifyRequest)

def Request.clocks : Request → List UInt64
  | .call (.submit env _) => [env.now]
  | .call (.produce env later) => [env.now, later.now]
  | .call (.commit env _) => [env.now]
  | .call (.accept env _) => [env.now]
  | .call (.ethApply env _) => [env.now]
  | .submit env assembling later _ => [env.now, assembling.now, later.now]
  | .submitPrivate env _ => [env.now]
  | .contractVerify _ => []

section Serving

variable [SerdeJson] [Blake3] [Ed25519] [ChaCha20Poly1305] [X25519]
  [Keccak256] [Secp256k1] [Evm]

def served (node : Node) : Request → Node
  | .call call => called node call
  | .submit env assembling later signed => (node.rpcSubmit env assembling later signed).2
  | .submitPrivate env envelope => (node.applyPrivateEnvelope env envelope).2
  | .contractVerify request => (node.contractVerify request).2

end Serving

end Node

end Veilux
