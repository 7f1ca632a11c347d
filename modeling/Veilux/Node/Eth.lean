/-
Ethereum transactions of `node/src/eth.rs`.  A raw transaction runs on a copy of
the state; when it went through, the copy becomes the state and an anchor block
without commands is sealed over it.
-/

import Veilux.Evm.Host
import Veilux.Node.Blocks

namespace Veilux

open Bytes (hexEncode)
open Evm (Log CallContext ExecOutcome Host)

/-- The `Display` texts. -/
def PrismError.text : PrismError → String
  | .invalidPayload text => "invalid payload: " ++ text
  | .unauthorized text => "unauthorized: " ++ text
  | .limitExceeded text => "resource limit exceeded: " ++ text
  | .notFound text => "not found: " ++ text
  | .internal text => "prism internal error: " ++ text

/-- `serde_json::Value`, with the fields of an object in the order of the text. -/
instance : Serialize Json where
  toJson := id
  toJson_injective := Function.injective_id

namespace Eth

def maxEvmGas : UInt64 := 30000000
def maxCodeSize : Nat := 24576

/-- `format!("0x{}", hex::encode(..))`. -/
def hex0x (bytes : List UInt8) : String := "0x" ++ hexEncode bytes

def ethParty (address : Address) : PartyId := ⟨"eth:" ++ hex0x address.toList⟩

def addrToU256 (address : Address) : U256 :=
  U256.fromBigEndian (List.replicate 12 0 ++ address.toList)

def u256ToAddr (value : U256) : Address := value.toBigEndian.drop 12

def valueU256 (value : U128) : U256 := U256.fromBigEndian (Rlp.beBytes 16 value.val)

def u256LowU128 (value : U256) : U128 :=
  Fin.ofNat (2 ^ 128) (Rlp.ofBeBytes (value.toBigEndian.toList.drop 16))

def nonceKey (address : Address) : String := "eth/nonce/" ++ hex0x address.toList

def codeKey (address : Address) : String := "eth/code/" ++ hex0x address.toList

def storageKey (address : Address) (slot : U256) : String :=
  "eth/store/" ++ hex0x address.toList ++ "/" ++ hex0x slot.toBigEndian.toList

def receiptKey (hash : Vector UInt8 32) : String := "eth/receipt/" ++ hex0x hash.toList

def txmetaKey (hash : Vector UInt8 32) : String := "eth/tx/" ++ hex0x hash.toList

/-- `str::parse::<u64>`. -/
def parseU64 (text : String) : Option UInt64 :=
  (U128.parse text).bind fun value =>
    if value.val < 2 ^ 64 then some (UInt64.ofNat value.val) else none

section Accounts

variable [SerdeJson] [Blake3]

omit [Blake3] in
def ethNonce (state : StateTree) (address : Address) : UInt64 :=
  ((state.getJson? String (nonceKey address)).bind parseU64).getD 0

omit [Blake3] in
/-- `hex::decode` reads plain digits, without a `0x`. -/
def ethCode (state : StateTree) (address : Address) : List UInt8 :=
  ((state.getJson? String (codeKey address)).bind fun text =>
    Bytes.hexDecode text.toList).getD []

def ethBalance (state : StateTree) (address : Address) : U128 :=
  TokenPrism.balance state TokenPrism.nativeTokenId (ethParty address)

def contractAddress [Keccak256] (deployer : Address) (nonce : UInt64) : Address :=
  EthTx.addressOf (Keccak256.digest
    (Rlp.encodeList [Rlp.encodeStr deployer.toList, Rlp.encodeStr (Rlp.trimmed 8 nonce.toNat)]))

/-! ### The host over the chain's state -/

omit [SerdeJson] [Blake3] in
structure StateHost where
  state : StateTree
  chainId : UInt64
  blockNumber : UInt64
  timestamp : UInt64
  snapshots : List StateTree

namespace StateHost

omit [SerdeJson] [Blake3] in
def new (state : StateTree) (chainId blockNumber timestamp : UInt64) : StateHost :=
  { state := state
    chainId := chainId
    blockNumber := blockNumber
    timestamp := timestamp
    snapshots := [] }

omit [Blake3] in
def sload (host : StateHost) (address key : U256) : U256 :=
  (((host.state.getJson? String (storageKey (u256ToAddr address) key)).bind fun text =>
    Bytes.hexDecode text.toList).map U256.fromBigEndian).getD U256.zero

omit [SerdeJson] [Blake3] in
def sstore (host : StateHost) (address key value : U256) : StateHost :=
  { host with
    state := host.state.putJson (storageKey (u256ToAddr address) key)
      (hexEncode value.toBigEndian.toList) }

omit [SerdeJson] [Blake3] in
def setCode (host : StateHost) (address : U256) (code : List UInt8) : StateHost :=
  { host with state := host.state.putJson (codeKey (u256ToAddr address)) (hexEncode code) }

omit [Blake3] in
def bumpNonce (host : StateHost) (address : U256) : StateHost :=
  let next := ethNonce host.state (u256ToAddr address) + 1
  { host with state := host.state.putJson (nonceKey (u256ToAddr address)) (Nat.repr next.toNat) }

/-- A failed move leaves what it has written. -/
def transfer (host : StateHost) (source target value : U256) : Bool × StateHost :=
  if value.isZero then (true, host)
  else
    match (TokenPrism.moveBalance TokenPrism.nativeTokenId (ethParty (u256ToAddr source))
        (ethParty (u256ToAddr target)) (u256LowU128 value)).run.run host.state with
    | (.ok (), state) => (true, { host with state := state })
    | (.error _, state) => (false, { host with state := state })

omit [SerdeJson] [Blake3] in
def snapshot (host : StateHost) : Nat × StateHost :=
  (host.snapshots.length + 1, { host with snapshots := host.snapshots ++ [host.state] })

omit [SerdeJson] [Blake3] in
def revert (host : StateHost) (snapshot : Nat) : StateHost :=
  if 1 ≤ snapshot ∧ snapshot ≤ host.snapshots.length then
    { host with
      state := host.snapshots.getD (snapshot - 1) host.state
      snapshots := host.snapshots.take (snapshot - 1) }
  else host

omit [SerdeJson] [Blake3] in
def commitSnapshot (host : StateHost) (snapshot : Nat) : StateHost :=
  if 1 ≤ snapshot ∧ snapshot ≤ host.snapshots.length then
    { host with snapshots := host.snapshots.take (snapshot - 1) }
  else host

instance : Host StateHost where
  sload := sload
  sstore := sstore
  balance host address := valueU256 (ethBalance host.state (u256ToAddr address))
  blockNumber := blockNumber
  blockTimestamp := timestamp
  chainId := chainId
  code host address := ethCode host.state (u256ToAddr address)
  setCode := setCode
  accountNonce host address := ethNonce host.state (u256ToAddr address)
  bumpNonce := bumpNonce
  transfer := transfer
  snapshot := snapshot
  revert := revert
  commitSnapshot := commitSnapshot

end StateHost

end Accounts

inductive EthError where
  | decode (error : EvmError)
  | wrongChainId (got : Option UInt64) (expected : UInt64)
  | badNonce (got expected : UInt64)
  | vm (text : String)
  | reverted
  | node (text : String)
  deriving DecidableEq

structure EthApplied where
  hash : Vector UInt8 32
  sender : Address
  target : Option Address
  contractAddress : Option Address
  value : U128
  nonce : UInt64
  gasUsed : UInt64
  logs : List Log
  deriving DecidableEq

/-! ### What is recorded of a transaction -/

/-- Fields of the `json!` objects in the order of their names. -/
def logJson (index : Nat) (log : Log) : Json := .obj
  [("address", .str (hex0x (u256ToAddr log.address).toList)),
    ("data", .str (hex0x log.data)),
    ("logIndex", .str ("0x" ++ String.ofList (Nat.toDigits 16 index))),
    ("topics", .arr (log.topics.map fun topic => .str (hex0x topic.toBigEndian.toList)))]

def addressJson : Option Address → Json
  | some address => .str (hex0x address.toList)
  | none => .null

def receiptJson (tx : EthTx) (created : Option Address) (blockNumber gasUsed : UInt64)
    (logs : List Log) : Json := .obj
  [("block_number", toJson blockNumber),
    ("contract_address", addressJson created),
    ("from", .str (hex0x tx.sender.toList)),
    ("gas_used", toJson gasUsed),
    ("logs", .arr (logs.mapIdx logJson)),
    ("nonce", toJson tx.nonce),
    ("status", .num 1),
    ("to", addressJson tx.target),
    ("value", .str tx.value.toText)]

def txMetaJson (tx : EthTx) (blockNumber : UInt64) : Json := .obj
  [("block_number", toJson blockNumber),
    ("from", .str (hex0x tx.sender.toList)),
    ("gas", toJson tx.gasLimit),
    ("gas_price", .str tx.gasPrice.toText),
    ("hash", .str (hex0x tx.hash.toList)),
    ("input", .str (hex0x tx.data)),
    ("nonce", toJson tx.nonce),
    ("to", addressJson tx.target),
    ("value", .str tx.value.toText)]

end Eth

open Eth

/-- State, gas, logs and created address after the body of a transaction. -/
structure EthExecution where
  state : StateTree
  gasUsed : UInt64
  logs : List Log
  created : Option Address

namespace Node

section Apply

variable [SerdeJson] [Blake3] [Keccak256] [Evm]

omit [SerdeJson] [Blake3] [Keccak256] [Evm] in
def ethBlockNumber (node : Node) : UInt64 := UInt64.ofNat (node.head.height + 1)

omit [Keccak256] [Evm] in
/-- The value moves before any code runs. -/
def ethMove (tx : EthTx) (target : Address) (state : StateTree) : Except EthError StateTree :=
  if 0 < tx.value then
    match (TokenPrism.moveBalance TokenPrism.nativeTokenId (ethParty tx.sender)
        (ethParty target) tx.value).run.run state with
    | (.ok (), state) => .ok state
    | (.error error, _) => .error (.node error.text)
  else .ok state

omit [Keccak256] in
/-- The outermost frame at an address: a failed or reverted frame refuses the
transaction. -/
def ethFrame (node : Node) (tx : EthTx) (address : Address) (code : List UInt8)
    (state : StateTree) : Except EthError (ExecOutcome × StateTree) :=
  let context : CallContext :=
    { caller := addrToU256 tx.sender
      address := addrToU256 address
      value := valueU256 tx.value
      calldata := tx.data
      gasLimit := min (max tx.gasLimit 21000) maxEvmGas }
  match Evm.executeFrame code context
      (StateHost.new state node.chainId node.ethBlockNumber node.head.timestamp) 0 false with
  | (.error error, _) => .error (.vm error.text)
  | (.ok out, host) => if out.success then .ok (out, host.state) else .error .reverted

/-- Creation: the frame runs the data as code, and what it returns is the contract. -/
def ethCreate (node : Node) (tx : EthTx) : Except EthError EthExecution :=
  let newAddr := contractAddress tx.sender tx.nonce
  match node.ethFrame tx newAddr tx.data node.state with
  | .error error => .error error
  | .ok (out, state) =>
      if maxCodeSize < out.returnData.length then
        .error (.vm ("contract code size " ++ Nat.repr out.returnData.length ++
          " exceeds limit " ++ Nat.repr maxCodeSize))
      else
        .ok
          { state := state.putJson (codeKey newAddr) (hexEncode out.returnData)
            gasUsed := saturatingAdd64 21000 out.gasUsed
            logs := out.logs
            created := some newAddr }

omit [Keccak256] in
def ethCallTo (node : Node) (tx : EthTx) (target : Address) : Except EthError EthExecution :=
  let code := ethCode node.state target
  if code.isEmpty then
    if ¬ tx.data.isEmpty then .error (.vm "call to account with no code")
    else
      match ethMove tx target node.state with
      | .error error => .error error
      | .ok state =>
          .ok
            { state := state
              gasUsed := 21000
              logs := []
              created := none }
  else
    match ethMove tx target node.state with
    | .error error => .error error
    | .ok state =>
        match node.ethFrame tx target code state with
        | .error error => .error error
        | .ok (out, state) =>
            .ok
              { state := state
                gasUsed := saturatingAdd64 21000 out.gasUsed
                logs := out.logs
                created := none }

def ethExecute (node : Node) (tx : EthTx) : Except EthError EthExecution :=
  match tx.target with
  | none => node.ethCreate tx
  | some target => node.ethCallTo tx target

omit [SerdeJson] [Blake3] [Keccak256] [Evm] in
/-- Nonce, receipt and transaction are written behind the execution. -/
def ethRecorded (node : Node) (tx : EthTx) (expected : UInt64) (run : EthExecution) : StateTree :=
  ((run.state.putJson (nonceKey tx.sender) (Nat.repr (expected + 1).toNat)).putJson
      (receiptKey tx.hash)
      (receiptJson tx run.created node.ethBlockNumber run.gasUsed run.logs)).putJson
    (txmetaKey tx.hash) (txMetaJson tx node.ethBlockNumber)

omit [SerdeJson] [Keccak256] [Evm] in
def anchorBlock (env : Env) (node : Node) (timestamp : UInt64) : Block :=
  { height := node.head.height + 1
    parent := node.head.hash
    eventsRoot := merkleRoot []
    stateRoot := node.state.root
    timestamp := max (max env.now node.head.timestamp) timestamp
    proposer := node.proposer
    events := []
    commands := [] }

omit [SerdeJson] [Blake3] [Keccak256] [Evm] in
/-- The log and the snapshot behind a pushed anchor block. -/
def persistAnchor (env : Env) (node : Node) (block : Block) : Except EthError Unit × Node :=
  match node.store with
  | none => (.ok (), node)
  | some store =>
      match store.appendBlock env block with
      | (.error error, store) =>
          (.error (.node error.text), { node with store := some store })
      | (.ok (), store) =>
          match store.saveState env node.state with
          | (.error error, store) =>
              (.error (.node error.text), { node with store := some store })
          | (.ok (), store) => (.ok (), { node with store := some store })

omit [SerdeJson] [Keccak256] [Evm] in
def sealAnchorBlock (env : Env) (node : Node) (timestamp : UInt64) :
    Except EthError Unit × Node :=
  let block := node.anchorBlock env timestamp
  (node.append block).persistAnchor env block

def ethApplyRaw [Secp256k1] (env : Env) (node : Node) (raw : List UInt8) :
    Except EthError EthApplied × Node :=
  match EthTx.decodeLegacyTx raw with
  | .error error => (.error (.decode error), node)
  | .ok tx =>
      if tx.chainId.isSome ∧ tx.chainId ≠ some node.chainId then
        (.error (.wrongChainId tx.chainId node.chainId), node)
      else
        let expected := ethNonce node.state tx.sender
        if tx.nonce ≠ expected then (.error (.badNonce tx.nonce expected), node)
        else
          match node.ethExecute tx with
          | .error error => (.error error, node)
          | .ok run =>
              let timestamp := node.head.timestamp
              match { node with state := node.ethRecorded tx expected run }.sealAnchorBlock env
                  timestamp with
              | (.error error, node) => (.error error, node)
              | (.ok (), node) =>
                  (.ok
                    { hash := tx.hash
                      sender := tx.sender
                      target := tx.target
                      contractAddress := run.created
                      value := tx.value
                      nonce := tx.nonce
                      gasUsed := run.gasUsed
                      logs := run.logs }, node)

end Apply

end Node

end Veilux
