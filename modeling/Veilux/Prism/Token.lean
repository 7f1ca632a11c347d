/-
The token prism of `prisms/token/src/lib.rs`: creation, transfers, allowances,
minting and burning, and the fee collection that block execution uses.

Amounts are stored as JSON strings of their decimal digits.
-/

import Veilux.Kernel.Prism

namespace Veilux

structure TokenMeta where
  tokenId : Hash
  name : String
  symbol : String
  decimals : UInt8
  totalSupply : U128
  owner : PartyId
  mintable : Bool
  deriving DecidableEq

instance : Serialize TokenMeta where
  toJson info := .obj
    [("token_id", toJson info.tokenId), ("name", toJson info.name),
      ("symbol", toJson info.symbol), ("decimals", toJson info.decimals),
      ("total_supply", toJson info.totalSupply), ("owner", toJson info.owner),
      ("mintable", toJson info.mintable)]
  toJson_injective := by
    intro left right same
    cases left
    cases right
    simpa using same

inductive TokenCommand where
  | create (name symbol : String) (decimals : UInt8) (initialSupply : U128) (mintable : Bool)
  | transfer (tokenId : Hash) (target : PartyId) (amount : U128)
  | approve (tokenId : Hash) (spender : PartyId) (amount : U128)
  | transferFrom (tokenId : Hash) (source target : PartyId) (amount : U128)
  | mint (tokenId : Hash) (target : PartyId) (amount : U128)
  | burn (tokenId : Hash) (amount : U128)
  deriving DecidableEq

/-- Internally tagged by `op`, variants in snake case. -/
instance : Serialize TokenCommand where
  toJson
    | .create name symbol decimals initialSupply mintable => .obj
        [("op", .str "create"), ("name", toJson name), ("symbol", toJson symbol),
          ("decimals", toJson decimals), ("initial_supply", toJson initialSupply),
          ("mintable", toJson mintable)]
    | .transfer tokenId target amount => .obj
        [("op", .str "transfer"), ("token_id", toJson tokenId), ("to", toJson target),
          ("amount", toJson amount)]
    | .approve tokenId spender amount => .obj
        [("op", .str "approve"), ("token_id", toJson tokenId), ("spender", toJson spender),
          ("amount", toJson amount)]
    | .transferFrom tokenId source target amount => .obj
        [("op", .str "transfer_from"), ("token_id", toJson tokenId), ("from", toJson source),
          ("to", toJson target), ("amount", toJson amount)]
    | .mint tokenId target amount => .obj
        [("op", .str "mint"), ("token_id", toJson tokenId), ("to", toJson target),
          ("amount", toJson amount)]
    | .burn tokenId amount => .obj
        [("op", .str "burn"), ("token_id", toJson tokenId), ("amount", toJson amount)]
  toJson_injective := by
    intro left right same
    cases left <;> cases right <;> simp_all

inductive TokenEvent where
  | created (tokenId : Hash) (symbol : String) (totalSupply : U128)
  | transfer (tokenId : Hash) (source target : PartyId) (amount : U128)
  | approval (tokenId : Hash) (owner spender : PartyId) (amount : U128)
  | mint (tokenId : Hash) (target : PartyId) (amount : U128)
  | burn (tokenId : Hash) (source : PartyId) (amount : U128)
  deriving DecidableEq

/-- Internally tagged by `kind`. -/
instance : Serialize TokenEvent where
  toJson
    | .created tokenId symbol totalSupply => .obj
        [("kind", .str "created"), ("token_id", toJson tokenId), ("symbol", toJson symbol),
          ("total_supply", toJson totalSupply)]
    | .transfer tokenId source target amount => .obj
        [("kind", .str "transfer"), ("token_id", toJson tokenId), ("from", toJson source),
          ("to", toJson target), ("amount", toJson amount)]
    | .approval tokenId owner spender amount => .obj
        [("kind", .str "approval"), ("token_id", toJson tokenId), ("owner", toJson owner),
          ("spender", toJson spender), ("amount", toJson amount)]
    | .mint tokenId target amount => .obj
        [("kind", .str "mint"), ("token_id", toJson tokenId), ("to", toJson target),
          ("amount", toJson amount)]
    | .burn tokenId source amount => .obj
        [("kind", .str "burn"), ("token_id", toJson tokenId), ("from", toJson source),
          ("amount", toJson amount)]
  toJson_injective := by
    intro left right same
    cases left <;> cases right <;> simp_all

namespace TokenPrism

/-! ### State layout -/

def metaPrefix : String := "token/meta/"
def balPrefix : String := "token/bal/"
def allowPrefix : String := "token/allow/"

def metaKey (id : Hash) : String := metaPrefix ++ id.toHex

def balKey (id : Hash) (who : PartyId) : String := balPrefix ++ id.toHex ++ "/" ++ who.name

def allowKey (id : Hash) (owner spender : PartyId) : String :=
  allowPrefix ++ id.toHex ++ "/" ++ owner.name ++ "/" ++ spender.name

section Handlers

variable [SerdeJson]

/-- A stored amount; missing and unreadable entries count as zero. -/
def amountAt (state : StateTree) (key : String) : U128 :=
  ((state.getJson? String key).bind U128.parse).getD 0

def balance (state : StateTree) (id : Hash) (who : PartyId) : U128 :=
  amountAt state (balKey id who)

def setBalance (id : Hash) (who : PartyId) (value : U128) : PrismM Unit :=
  modify fun state => state.putJson (balKey id who) value.toText

def allowance (state : StateTree) (id : Hash) (owner spender : PartyId) : U128 :=
  amountAt state (allowKey id owner spender)

def setAllowance (id : Hash) (owner spender : PartyId) (value : U128) : PrismM Unit :=
  modify fun state => state.putJson (allowKey id owner spender) value.toText

def setMeta (id : Hash) (info : TokenMeta) : PrismM Unit :=
  modify fun state => state.putJson (metaKey id) info

def loadMeta (id : Hash) : PrismM TokenMeta := do
  match (← get).getJson TokenMeta (metaKey id) with
  | .error error => throw (.internal error.text)
  | .ok none => throw (.notFound ("token " ++ id.toHex))
  | .ok (some info) => return info

/-- `checked_add(..).ok_or_else(Internal(text))`. -/
def addOr (text : String) (left right : U128) : PrismM U128 :=
  match left.checkedAdd right with
  | none => throw (.internal text)
  | some sum => return sum

variable [Blake3]

def nativeTokenId : Hash := Hash.commit "veilux/native-token" []

def event (command : Command) (payload : TokenEvent) : Event :=
  { sourceCommand := command.id
    prism := "token"
    visibility := command.visibility
    payload := toVec payload }

def createdId (submitter : PartyId) (symbol name : String) : Hash :=
  Hash.commit "token/id" [submitter.bytes, Bytes.utf8 symbol, Bytes.utf8 name]

/-! ### The six operations -/

def create (command : Command) (name symbol : String) (decimals : UInt8) (initialSupply : U128)
    (mintable : Bool) : PrismM PrismOutput := do
  let tokenId := createdId command.submitter symbol name
  if (← get).contains (metaKey tokenId) then
    throw (.invalidPayload "token already exists")
  setMeta tokenId
    { tokenId := tokenId
      name := name
      symbol := symbol
      decimals := decimals
      totalSupply := initialSupply
      owner := command.submitter
      mintable := mintable }
  setBalance tokenId command.submitter initialSupply
  return .single (event command (.created tokenId symbol initialSupply)) 5000

def transfer (command : Command) (tokenId : Hash) (target : PartyId) (amount : U128) :
    PrismM PrismOutput := do
  let _ ← loadMeta tokenId
  let source := command.submitter
  let sourceBal := balance (← get) tokenId source
  if sourceBal < amount then
    throw (.limitExceeded "insufficient balance")
  -- Both balances are read before either is written.
  let targetBal := balance (← get) tokenId target
  setBalance tokenId source (sourceBal - amount)
  setBalance tokenId target (← addOr "balance overflow" targetBal amount)
  return .single (event command (.transfer tokenId source target amount)) 1000

def approve (command : Command) (tokenId : Hash) (spender : PartyId) (amount : U128) :
    PrismM PrismOutput := do
  let _ ← loadMeta tokenId
  let owner := command.submitter
  setAllowance tokenId owner spender amount
  return .single (event command (.approval tokenId owner spender amount)) 800

def transferFrom (command : Command) (tokenId : Hash) (source target : PartyId) (amount : U128) :
    PrismM PrismOutput := do
  let _ ← loadMeta tokenId
  let spender := command.submitter
  let allowed := allowance (← get) tokenId source spender
  if allowed < amount then
    throw (.unauthorized "allowance exceeded")
  let sourceBal := balance (← get) tokenId source
  if sourceBal < amount then
    throw (.limitExceeded "insufficient balance")
  let targetBal := balance (← get) tokenId target
  setBalance tokenId source (sourceBal - amount)
  setBalance tokenId target (← addOr "balance overflow" targetBal amount)
  setAllowance tokenId source spender (allowed - amount)
  return .single (event command (.transfer tokenId source target amount)) 1200

def mint (command : Command) (tokenId : Hash) (target : PartyId) (amount : U128) :
    PrismM PrismOutput := do
  let info ← loadMeta tokenId
  if ¬ info.mintable then
    throw (.unauthorized "token not mintable")
  if info.owner ≠ command.submitter then
    throw (.unauthorized "only owner can mint")
  let targetBal := balance (← get) tokenId target
  setBalance tokenId target (← addOr "balance overflow" targetBal amount)
  let supply ← addOr "supply overflow" info.totalSupply amount
  setMeta tokenId { info with totalSupply := supply }
  return .single (event command (.mint tokenId target amount)) 2000

def burn (command : Command) (tokenId : Hash) (amount : U128) : PrismM PrismOutput := do
  let info ← loadMeta tokenId
  let source := command.submitter
  let bal := balance (← get) tokenId source
  if bal < amount then
    throw (.limitExceeded "insufficient balance to burn")
  setBalance tokenId source (bal - amount)
  setMeta tokenId { info with totalSupply := info.totalSupply.saturatingSub amount }
  return .single (event command (.burn tokenId source amount)) 1500

def execute (command : Command) : TokenCommand → PrismM PrismOutput
  | .create name symbol decimals initialSupply mintable =>
      create command name symbol decimals initialSupply mintable
  | .transfer tokenId target amount => transfer command tokenId target amount
  | .approve tokenId spender amount => approve command tokenId spender amount
  | .transferFrom tokenId source target amount => transferFrom command tokenId source target amount
  | .mint tokenId target amount => mint command tokenId target amount
  | .burn tokenId amount => burn command tokenId amount

def handle (command : Command) : PrismM PrismOutput :=
  match fromSlice TokenCommand command.payload with
  | .error text => throw (.invalidPayload text)
  | .ok operation => execute command operation

def prism : Prism :=
  { name := "token"
    handle := handle }

/-! ### Helpers that other components use -/

def tokenMeta? (state : StateTree) (id : Hash) : Option TokenMeta :=
  state.getJson? TokenMeta (metaKey id)

def debit (tokenId : Hash) (who : PartyId) (amount : U128) : PrismM Unit := do
  let bal := balance (← get) tokenId who
  if bal < amount then
    throw (.limitExceeded "insufficient balance")
  setBalance tokenId who (bal - amount)

def moveBalance (tokenId : Hash) (source target : PartyId) (amount : U128) : PrismM Unit := do
  debit tokenId source amount
  -- Unlike `transfer`, the target is read after the debit.
  let targetBal := balance (← get) tokenId target
  setBalance tokenId target (← addOr "balance overflow" targetBal amount)

/-- The supply falls with the balance when the token has a readable record. -/
def lowerSupply (tokenId : Hash) (amount : U128) : PrismM Unit := do
  match tokenMeta? (← get) tokenId with
  | none => pure ()
  | some info =>
      setMeta tokenId { info with totalSupply := info.totalSupply.saturatingSub amount }

def burnFrom (tokenId : Hash) (who : PartyId) (amount : U128) : PrismM Unit := do
  debit tokenId who amount
  lowerSupply tokenId amount

structure FeeOutcome where
  charged : U128
  burned : U128
  rewarded : U128
  deriving DecidableEq

def collectFee (tokenId : Hash) (payer proposer : PartyId) (fee : U128) (burnBps : UInt16) :
    PrismM FeeOutcome := do
  let bal := balance (← get) tokenId payer
  let charged := min fee bal
  if charged = 0 then
    return ⟨0, 0, 0⟩
  let burned : U128 := charged * Fin.ofNat (2 ^ 128) (min burnBps.toNat 10000) /
    Fin.ofNat (2 ^ 128) 10000
  let rewarded := charged - burned
  setBalance tokenId payer (bal - charged)
  if 0 < rewarded then
    let proposerBal := balance (← get) tokenId proposer
    setBalance tokenId proposer (← addOr "reward overflow" proposerBal rewarded)
  if 0 < burned then
    match tokenMeta? (← get) tokenId with
    | none => pure ()
    | some info =>
        setMeta tokenId { info with totalSupply := info.totalSupply.saturatingSub burned }
  return ⟨charged, burned, rewarded⟩

/-! ### Genesis -/

/-- The loop of `seed_native_token`. -/
def allocate (tokenId : Hash) : List (PartyId × U128) → PrismM Unit
  | [] => pure ()
  | (who, amount) :: rest => do
      let cur := balance (← get) tokenId who
      setBalance tokenId who (← addOr "allocation overflow" cur amount)
      allocate tokenId rest

def seedNativeToken (name symbol : String) (decimals : UInt8) (treasury : PartyId)
    (allocations : List (PartyId × U128)) : PrismM Hash := do
  if (← get).contains (metaKey nativeTokenId) then
    return nativeTokenId
  setMeta nativeTokenId
    { tokenId := nativeTokenId
      name := name
      symbol := symbol
      decimals := decimals
      totalSupply := (allocations.map Prod.snd).sum
      owner := treasury
      mintable := true }
  allocate nativeTokenId allocations
  return nativeTokenId

end Handlers

end TokenPrism

end Veilux
