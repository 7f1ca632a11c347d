/-
The vesting prism of `prisms/vesting/src/lib.rs`: schedules that hold a funder's tokens and
pay them to a beneficiary, linearly after a cliff.
-/

import Veilux.Prism.Dex

namespace Veilux

open PrismM

structure Schedule where
  id : Hash
  tokenId : Hash
  funder : PartyId
  beneficiary : PartyId
  total : U128
  released : U128
  start : UInt64
  cliff : UInt64
  duration : UInt64
  revocable : Bool
  revoked : Bool
  deriving DecidableEq

instance : Serialize Schedule where
  toJson schedule := .obj
    [("id", toJson schedule.id), ("token_id", toJson schedule.tokenId),
      ("funder", toJson schedule.funder), ("beneficiary", toJson schedule.beneficiary),
      ("total", toJson schedule.total), ("released", toJson schedule.released),
      ("start", toJson schedule.start), ("cliff", toJson schedule.cliff),
      ("duration", toJson schedule.duration), ("revocable", toJson schedule.revocable),
      ("revoked", toJson schedule.revoked)]
  toJson_injective := by
    intro left right same
    cases left
    cases right
    simpa using same

namespace Schedule

/-- `start.saturating_add(cliff)`. -/
def cliffEnd (schedule : Schedule) : Nat :=
  min (schedule.start.toNat + schedule.cliff.toNat) (2 ^ 64 - 1)

def vested (schedule : Schedule) (now : UInt64) : U128 :=
  if schedule.duration = 0 then schedule.total
  else if now.toNat < schedule.cliffEnd then 0
  else
    let elapsed := now.toNat - schedule.start.toNat
    if schedule.duration.toNat ≤ elapsed then schedule.total
    else
      schedule.total.saturatingMul (U128.ofNatSaturating elapsed) /
        U128.ofNatSaturating schedule.duration.toNat

def releasable (schedule : Schedule) (now : UInt64) : U128 :=
  (schedule.vested now).saturatingSub schedule.released

end Schedule

inductive VestingCommand where
  | create (tokenId : Hash) (beneficiary : PartyId) (total : U128) (start cliff duration : UInt64)
      (revocable : Bool)
  | release (schedule : Hash)
  | revoke (schedule : Hash)
  deriving DecidableEq

/-- Internally tagged by `op`. -/
instance : Serialize VestingCommand where
  toJson
    | .create tokenId beneficiary total start cliff duration revocable => .obj
        [("op", .str "create"), ("token_id", toJson tokenId), ("beneficiary", toJson beneficiary),
          ("total", toJson total), ("start", toJson start), ("cliff", toJson cliff),
          ("duration", toJson duration), ("revocable", toJson revocable)]
    | .release schedule => .obj [("op", .str "release"), ("schedule", toJson schedule)]
    | .revoke schedule => .obj [("op", .str "revoke"), ("schedule", toJson schedule)]
  toJson_injective := by
    intro left right same
    cases left <;> cases right <;> simp_all

inductive VestingEvent where
  | created (schedule : Hash) (beneficiary : PartyId) (total : U128)
  | released (schedule : Hash) (target : PartyId) (amount : U128)
  | revoked (schedule : Hash) (refunded : U128)
  deriving DecidableEq

/-- Internally tagged by `kind`. -/
instance : Serialize VestingEvent where
  toJson
    | .created schedule beneficiary total => .obj
        [("kind", .str "created"), ("schedule", toJson schedule),
          ("beneficiary", toJson beneficiary), ("total", toJson total)]
    | .released schedule target amount => .obj
        [("kind", .str "released"), ("schedule", toJson schedule), ("to", toJson target),
          ("amount", toJson amount)]
    | .revoked schedule refunded => .obj
        [("kind", .str "revoked"), ("schedule", toJson schedule), ("refunded", toJson refunded)]
  toJson_injective := by
    intro left right same
    cases left <;> cases right <;> simp_all

namespace VestingPrism

open TokenPrism (credit debit)

def schedPrefix : String := "vesting/sched/"

def key (id : Hash) : String := schedPrefix ++ id.toHex

section Handlers

variable [SerdeJson]

def now (state : StateTree) : UInt64 := (state.getJson? UInt64 "chain/now").getD 0

def load (id : Hash) : PrismM Schedule := do
  match (← get).getJson Schedule (key id) with
  | .error error => throw (.internal error.text)
  | .ok none => throw (.notFound ("vesting schedule " ++ id.toHex))
  | .ok (some schedule) => return schedule

variable [Blake3]

def event (command : Command) (payload : VestingEvent) : Event :=
  { sourceCommand := command.id
    prism := "vesting"
    visibility := command.visibility
    payload := toVec payload }

def createdId (caller beneficiary : PartyId) (tokenId : Hash) (start : UInt64) (total : U128) :
    Hash :=
  Hash.commit "vesting/id"
    [caller.bytes, beneficiary.bytes, Bytes.utf8 tokenId.toHex,
      (Bytes.leBytes 8 start.toNat).reverse, (Bytes.leBytes 16 total.val).reverse]

/-! ### The three operations -/

def create (command : Command) (tokenId : Hash) (beneficiary : PartyId) (total : U128)
    (start cliff duration : UInt64) (revocable : Bool) : PrismM PrismOutput := do
  let caller := command.submitter
  if total = 0 then
    throw (.invalidPayload "total must be > 0")
  if duration < cliff then
    throw (.invalidPayload "cliff must not exceed duration")
  let id := createdId caller beneficiary tokenId start total
  if (← get).contains (key id) then
    throw (.invalidPayload "schedule already exists")
  debit tokenId caller total
  modify fun state => state.putJson (key id)
    ({ id := id
       tokenId := tokenId
       funder := caller
       beneficiary := beneficiary
       total := total
       released := 0
       start := start
       cliff := cliff
       duration := duration
       revocable := revocable
       revoked := false } : Schedule)
  return .single (event command (.created id beneficiary total)) 4000

def release (command : Command) (id : Hash) : PrismM PrismOutput := do
  let schedule ← load id
  if schedule.revoked then
    throw (.invalidPayload "schedule revoked")
  let amount := schedule.releasable (now (← get))
  if amount = 0 then
    throw (.limitExceeded "nothing vested yet")
  credit schedule.tokenId schedule.beneficiary amount
  modify fun state => state.putJson (key id)
    { schedule with released := schedule.released.saturatingAdd amount }
  return .single (event command (.released id schedule.beneficiary amount)) 1500

def revoke (command : Command) (id : Hash) : PrismM PrismOutput := do
  let schedule ← load id
  if ¬ schedule.revocable then
    throw (.unauthorized "schedule is not revocable")
  if schedule.funder ≠ command.submitter then
    throw (.unauthorized "only funder can revoke")
  if schedule.revoked then
    throw (.invalidPayload "already revoked")
  let owed := (schedule.vested (now (← get))).saturatingSub schedule.released
  let released := if 0 < owed then schedule.released.saturatingAdd owed else schedule.released
  if 0 < owed then
    credit schedule.tokenId schedule.beneficiary owed
  let refund := schedule.total.saturatingSub released
  if 0 < refund then
    credit schedule.tokenId schedule.funder refund
  modify fun state => state.putJson (key id)
    { schedule with
      released := released
      revoked := true }
  return .single (event command (.revoked id refund)) 1500

def execute (command : Command) : VestingCommand → PrismM PrismOutput
  | .create tokenId beneficiary total start cliff duration revocable =>
      create command tokenId beneficiary total start cliff duration revocable
  | .release schedule => release command schedule
  | .revoke schedule => revoke command schedule

def handle (command : Command) : PrismM PrismOutput :=
  match fromSlice VestingCommand command.payload with
  | .error text => throw (.invalidPayload text)
  | .ok operation => execute command operation

def prism : Prism :=
  { name := "vesting"
    handle := handle }

end Handlers

end VestingPrism

end Veilux
