/-
The ledger types of `kernel/src/types.rs`: parties, visibilities, commands,
events and blocks, with the byte strings that are hashed and signed.

Block heights are natural numbers; a chain reaches the top of `u64` only after
that many committed blocks.
-/

import Veilux.Kernel.Serde

namespace Veilux

open Bytes (leBytes utf8)

structure PartyId where
  name : String
  deriving DecidableEq

namespace PartyId

instance : Ord PartyId := ⟨compareOn PartyId.name⟩

instance : Std.TransOrd PartyId := inferInstanceAs (Std.TransCmp (compareOn PartyId.name))

instance : Std.LawfulEqOrd PartyId where
  eq_of_compare {left right} same := by
    have compared : compare left.name right.name = .eq := same
    have names : left.name = right.name := Std.LawfulEqCmp.eq_of_compare compared
    cases left
    cases right
    exact congrArg PartyId.mk names

instance : Serialize PartyId where
  toJson party := .str party.name
  toJson_injective := by
    intro left right same
    cases left
    cases right
    exact congrArg PartyId.mk (Json.str.inj same)

def bytes (party : PartyId) : List UInt8 := utf8 party.name

theorem bytes_injective {left right : PartyId} (same : left.bytes = right.bytes) :
    left = right := by
  cases left
  cases right
  exact congrArg PartyId.mk (Bytes.utf8_injective same)

def idHash [Blake3] (party : PartyId) : Hash := Hash.commit "party" [party.bytes]

end PartyId

/-! ### Visibility -/

inductive Visibility where
  | pub
  | parties (set : List PartyId)
  deriving DecidableEq

namespace Visibility

def includes : Visibility → PartyId → Bool
  | .pub, _ => true
  | .parties set, party => set.contains party

/-- Externally tagged: the unit variant is its name, the other a one-field object. -/
instance : Serialize Visibility where
  toJson
    | .pub => .str "Public"
    | .parties set => .obj [("Parties", toJson set)]
  toJson_injective := by
    intro left right same
    cases left with
    | pub =>
        cases right with
        | pub => rfl
        | parties set => cases same
    | parties set =>
        cases right with
        | pub => cases same
        | parties other =>
            have fields := Json.obj.inj same
            simp only [List.cons.injEq, Prod.mk.injEq, true_and, and_true] at fields
            exact congrArg Visibility.parties (Serialize.toJson_injective fields)

end Visibility

/-! ### Commands -/

structure Command where
  prism : String
  submitter : PartyId
  visibility : Visibility
  payload : List UInt8
  nonce : UInt64
  deriving DecidableEq

instance : Serialize Command where
  toJson command := .obj
    [("prism", toJson command.prism), ("submitter", toJson command.submitter),
      ("visibility", toJson command.visibility), ("payload", toJson command.payload),
      ("nonce", toJson command.nonce)]
  toJson_injective := by
    intro left right same
    cases left
    cases right
    simpa using same

namespace Command

/-- The parts hashed by `Command::id`; the visibility is not among them. -/
def idParts (command : Command) : List (List UInt8) :=
  [utf8 command.prism, command.submitter.bytes, leBytes 8 command.nonce.toNat, command.payload]

def id [Blake3] (command : Command) : Hash := Hash.commit "command" command.idParts

def signingBytes (command : Command) : List UInt8 :=
  utf8 "veilux/command/v1" ++ 0xff :: utf8 command.prism ++ 0xff :: command.submitter.bytes ++
    0xff :: leBytes 8 command.nonce.toNat ++ toVec command.visibility ++ 0xff :: command.payload

def signingBytesForChain (command : Command) (chainId : UInt64) : List UInt8 :=
  if chainId ≠ 0 then
    command.signingBytes ++ 0xff :: utf8 "chain" ++ leBytes 8 chainId.toNat
  else command.signingBytes

end Command

structure SignedCommand where
  command : Command
  publicKey : List UInt8
  signature : List UInt8
  chainId : UInt64
  deriving DecidableEq

instance : Serialize SignedCommand where
  toJson signed := .obj
    [("command", toJson signed.command), ("public_key", toJson signed.publicKey),
      ("signature", toJson signed.signature), ("chain_id", toJson signed.chainId)]
  toJson_injective := by
    intro left right same
    cases left
    cases right
    simpa using same

/-! ### Events and blocks -/

structure Event where
  sourceCommand : Hash
  prism : String
  visibility : Visibility
  payload : List UInt8
  deriving DecidableEq

instance : Serialize Event where
  toJson event := .obj
    [("source_command", toJson event.sourceCommand), ("prism", toJson event.prism),
      ("visibility", toJson event.visibility), ("payload", toJson event.payload)]
  toJson_injective := by
    intro left right same
    cases left
    cases right
    simpa using same

namespace Event

def id [Blake3] (event : Event) : Hash :=
  Hash.commit "event"
    [event.sourceCommand.asBytes, utf8 event.prism, toVec event.visibility, event.payload]

def commitment [Blake3] (event : Event) : Hash := event.id

end Event

structure Block where
  height : Nat
  parent : Hash
  eventsRoot : Hash
  stateRoot : Hash
  timestamp : UInt64
  proposer : PartyId
  events : List Event
  commands : List Command
  deriving DecidableEq

instance : Serialize Block where
  toJson block := .obj
    [("height", toJson block.height), ("parent", toJson block.parent),
      ("events_root", toJson block.eventsRoot), ("state_root", toJson block.stateRoot),
      ("timestamp", toJson block.timestamp), ("proposer", toJson block.proposer),
      ("events", toJson block.events), ("commands", toJson block.commands)]
  toJson_injective := by
    intro left right same
    cases left
    cases right
    simpa using same

namespace Block

section Digest

variable [Blake3]

def commandsRoot (block : Block) : Hash := merkleRoot (block.commands.map Command.id)

def computeEventsRoot (block : Block) : Hash := merkleRoot (block.events.map Event.commitment)

/-- The events enter only through their stored root. -/
def hash (block : Block) : Hash :=
  Hash.commit "block"
    [leBytes 8 block.height, block.parent.asBytes, block.eventsRoot.asBytes,
      block.stateRoot.asBytes, block.commandsRoot.asBytes, leBytes 8 block.timestamp.toNat,
      block.proposer.bytes]

@[simp] theorem hash_with_events (block : Block) (events : List Event) :
    ({ block with events := events } : Block).hash = block.hash := rfl

end Digest

def deterministicGenesis : Block :=
  { height := 0
    parent := Hash.zero
    eventsRoot := Hash.zero
    stateRoot := Hash.zero
    timestamp := 0
    proposer := ⟨"genesis"⟩
    events := []
    commands := [] }

end Block

end Veilux
