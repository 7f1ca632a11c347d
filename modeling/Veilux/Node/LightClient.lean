/-
The light client (`lightclient/src/lib.rs`) and the chain it follows: its head hangs on the
trusted header by parent hashes, the headers of a node's blocks are such a chain, and the
hash of the head settles the whole history.

A batch that fails in the middle leaves the headers before the failure accepted.
-/

import Veilux.Lib.HashChain
import Veilux.Kernel.StateProof
import Veilux.Node.Chain

namespace Veilux

open Bytes (leBytes)
open HashChain (Chained tip)

structure Header where
  height : Nat
  parent : Hash
  eventsRoot : Hash
  stateRoot : Hash
  commandsRoot : Hash
  timestamp : UInt64
  proposer : PartyId
  deriving DecidableEq

inductive LightError where
  | brokenChain (height : Nat)
  | badHeight (index : Nat)
  | badStateProof
  deriving DecidableEq

structure StateProof where
  key : String
  value : List UInt8
  proof : List MerkleStep
  stateRoot : Hash

structure LightClient where
  trusted : Header
  deriving DecidableEq

section Client

variable [Blake3]

namespace Header

def hashParts (header : Header) : List (List UInt8) :=
  [leBytes 8 header.height, header.parent.asBytes, header.eventsRoot.asBytes,
    header.stateRoot.asBytes, header.commandsRoot.asBytes, leBytes 8 header.timestamp.toNat,
    header.proposer.bytes]

def hash (header : Header) : Hash :=
  Hash.commit "block" header.hashParts

end Header

/-- The header of a block; the root of the commands is computed. -/
def Block.header (block : Block) : Header :=
  { height := block.height
    parent := block.parent
    eventsRoot := block.eventsRoot
    stateRoot := block.stateRoot
    commandsRoot := block.commandsRoot
    timestamp := block.timestamp
    proposer := block.proposer }

namespace LightClient

def new (trustedGenesis : Header) : LightClient := { trusted := trustedGenesis }

/-- The loop of `apply_headers`; headers accepted before a failure stay. -/
def applyFrom : Nat → List Header → LightClient → Except LightError Unit × LightClient
  | _, [], client => (.ok (), client)
  | index, header :: headers, client =>
      if header.height ≠ client.trusted.height + 1 then (.error (.badHeight index), client)
      else if header.parent ≠ client.trusted.hash then
        (.error (.brokenChain header.height), client)
      else applyFrom (index + 1) headers { client with trusted := header }

def applyHeaders (client : LightClient) (headers : List Header) :
    Except LightError Unit × LightClient :=
  applyFrom 0 headers client

def verifyState (client : LightClient) (proof : StateProof) : Except LightError Unit :=
  if proof.stateRoot ≠ client.trusted.stateRoot then .error .badStateProof
  else if verifyMerkleProof (StateTree.leafHash proof.key proof.value) proof.proof
      proof.stateRoot then .ok ()
  else .error .badStateProof

/-- The client after a call, failed or not. -/
def applied (client : LightClient) (headers : List Header) : LightClient :=
  (client.applyHeaders headers).2

end LightClient

/-! ### What a client accepts -/

/-- The next header of a chain. -/
structure Header.Extends (earlier later : Header) : Prop where
  height : later.height = earlier.height + 1
  parent : later.parent = earlier.hash

instance (earlier later : Header) : Decidable (earlier.Extends later) :=
  decidable_of_iff (later.height = earlier.height + 1 ∧ later.parent = earlier.hash)
    ⟨fun both => ⟨both.1, both.2⟩, fun next => ⟨next.height, next.parent⟩⟩

namespace LightClient

/-- The headers of a batch before the first that does not extend the one before it. -/
def accepted : Header → List Header → List Header
  | _, [] => []
  | trusted, header :: headers =>
      if trusted.Extends header then header :: accepted header headers else []

theorem accepted_chained (trusted : Header) (headers : List Header) :
    Chained Header.Extends trusted (accepted trusted headers) := by
  induction headers generalizing trusted with
  | nil => trivial
  | cons header headers ih =>
      unfold accepted
      by_cases next : trusted.Extends header
      · rw [if_pos next]
        exact ⟨next, ih header⟩
      · rw [if_neg next]
        trivial

/-- A batch moves the head behind the headers it accepts. -/
theorem applyFrom_trusted (index : Nat) (client : LightClient) (headers : List Header) :
    (applyFrom index headers client).2.trusted =
      tip client.trusted (accepted client.trusted headers) := by
  induction headers generalizing index client with
  | nil => rfl
  | cons header headers ih =>
      unfold applyFrom accepted
      by_cases counted : header.height = client.trusted.height + 1
      · rw [if_neg (not_not_intro counted)]
        by_cases linked : header.parent = client.trusted.hash
        · rw [if_neg (not_not_intro linked), if_pos ⟨counted, linked⟩, ih]
          rfl
        · have ends : ¬ client.trusted.Extends header := fun next => linked next.parent
          rw [if_pos linked, if_neg ends]
          rfl
      · have ends : ¬ client.trusted.Extends header := fun next => counted next.height
        rw [if_pos counted, if_neg ends]
        rfl

/-- A batch that is a chain from the head is accepted whole. -/
theorem applyFrom_chained (index : Nat) (client : LightClient) {headers : List Header}
    (chained : Chained Header.Extends client.trusted headers) :
    applyFrom index headers client = (.ok (), { trusted := tip client.trusted headers }) := by
  induction headers generalizing index client with
  | nil => rfl
  | cons header headers ih =>
      have next : client.trusted.Extends header := chained.1
      unfold applyFrom
      rw [if_neg (not_not_intro next.height), if_neg (not_not_intro next.parent)]
      exact ih (index + 1) { client with trusted := header } chained.2

/-! ### Any sequence of calls -/

/-- Every header accepted over a sequence of calls, in order. -/
def history : Header → List (List Header) → List Header
  | _, [] => []
  | trusted, headers :: calls =>
      accepted trusted headers ++ history (tip trusted (accepted trusted headers)) calls

/-- The head after any calls, failed ones included. -/
def headAfter (trusted : Header) (calls : List (List Header)) : Header :=
  (Run.run applied (new trusted) calls).trusted

theorem headAfter_eq (trusted : Header) (calls : List (List Header)) :
    headAfter trusted calls = tip trusted (history trusted calls) := by
  unfold headAfter
  have runs : ∀ (client : LightClient), (Run.run applied client calls).trusted =
      tip client.trusted (history client.trusted calls) := by
    induction calls with
    | nil =>
        intro client
        rfl
    | cons headers calls ih =>
        intro client
        have moved : (client.applied headers).trusted =
            tip client.trusted (accepted client.trusted headers) :=
          applyFrom_trusted 0 client headers
        rw [Run.run_cons, ih, moved, history, HashChain.tip_append]
  exact runs (new trusted)

theorem history_chained (trusted : Header) (calls : List (List Header)) :
    Chained Header.Extends trusted (history trusted calls) := by
  induction calls generalizing trusted with
  | nil => trivial
  | cons headers calls ih =>
      rw [history, HashChain.chained_append]
      exact ⟨accepted_chained trusted headers, ih _⟩

end LightClient

/-! ### A node's headers -/

theorem Block.hash_header (block : Block) : block.header.hash = block.hash := rfl

theorem Node.Linked.extends {node : Node} (linked : node.Linked) :
    node.blocks.IsChain fun earlier later => earlier.header.Extends later.header := by
  apply List.isChain_iff_getElem.mpr
  intro index inside
  have first := linked.heights index _ (List.getElem?_eq_getElem (by omega))
  have second := linked.heights (index + 1) _ (List.getElem?_eq_getElem inside)
  exact
    { height := second.trans (congrArg (· + 1) first.symm)
      parent := List.isChain_iff_getElem.mp linked.parents index inside }

/-- From any block of a linked chain on, the headers are a chain. -/
theorem Node.Linked.headers_chained {node : Node} (linked : node.Linked)
    {front back : List Block} {block : Block} (blocks : node.blocks = front ++ block :: back) :
    Chained Header.Extends block.header (back.map Block.header) := by
  have whole := linked.extends
  rw [blocks] at whole
  have behind : (block :: back).IsChain fun earlier later =>
      earlier.header.Extends later.header := (List.isChain_append.mp whole).2.1
  rw [HashChain.chained_iff_isChain, ← List.map_cons]
  exact (List.isChain_map Block.header).mpr behind

/-- The headers behind a block are accepted, up to the head. -/
theorem Node.Linked.headers_accepted {node : Node} (linked : node.Linked)
    {front back : List Block} {block : Block} (blocks : node.blocks = front ++ block :: back) :
    (LightClient.new block.header).applyHeaders (back.map Block.header) =
      (.ok (), LightClient.new node.head.header) := by
  have head : node.head = tip block back := by
    have last : node.blocks.getLast? = some node.head :=
      List.getLast?_eq_some_getLast node.nonempty
    rw [blocks, HashChain.getLast?_tip] at last
    exact (Option.some.inj last).symm
  rw [head, ← HashChain.tip_map Block.header]
  exact LightClient.applyFrom_chained 0 _ (linked.headers_chained blocks)

/-! ### One history for a head -/

namespace Header

structure Fits (header : Header) : Prop where
  height : header.height < 2 ^ 64
  proposer : header.proposer.bytes.length < 2 ^ 64

omit [Blake3] in
theorem hashParts_length {header : Header} (fits : header.Fits) :
    ∀ part ∈ header.hashParts, part.length < 2 ^ 64 := by
  intro part member
  simp only [hashParts, List.mem_cons, List.not_mem_nil, or_false] at member
  rcases member with rfl | rfl | rfl | rfl | rfl | rfl | rfl
  · simp only [Bytes.leBytes_length, Nat.reducePow, Nat.reduceLT]
  · simp only [Hash.asBytes_length, Nat.reducePow, Nat.reduceLT]
  · simp only [Hash.asBytes_length, Nat.reducePow, Nat.reduceLT]
  · simp only [Hash.asBytes_length, Nat.reducePow, Nat.reduceLT]
  · simp only [Hash.asBytes_length, Nat.reducePow, Nat.reduceLT]
  · simp only [Bytes.leBytes_length, Nat.reducePow, Nat.reduceLT]
  · exact fits.proposer

def hashInput (header : Header) : List UInt8 := Hash.commitBytes "block" header.hashParts

omit [Blake3] in
/-- A header's hash input says every field of it. -/
theorem hashInput_injective {left right : Header} (leftFits : left.Fits) (rightFits : right.Fits)
    (same : left.hashInput = right.hashInput) : left = right := by
  have parts := Hash.commitBytes_injective (hashParts_length leftFits)
    (hashParts_length rightFits) same
  simp only [hashParts, List.cons.injEq, and_true] at parts
  obtain ⟨heights, parents, events, states, commands, times, proposers⟩ := parts
  have timestamps : left.timestamp = right.timestamp := UInt64.toNat_inj.mp
    (Bytes.leBytes_injective left.timestamp.toNat_lt right.timestamp.toNat_lt times)
  cases left
  cases right
  rw [Header.mk.injEq]
  exact ⟨Bytes.leBytes_injective leftFits.height rightFits.height heights,
    Hash.asBytes_injective parents, Hash.asBytes_injective events, Hash.asBytes_injective states,
    Hash.asBytes_injective commands, timestamps, PartyId.bytes_injective proposers⟩

end Header

namespace LightClient

/-- All headers that two clients from one header have had as their head. -/
def headers (trusted : Header) (left right : List (List Header)) : List Header :=
  trusted :: (history trusted left ++ history trusted right)

/-- Equal head hashes leave one history, and with it one head. -/
theorem history_eq {trusted : Header} {left right : List (List Header)}
    (fits : ∀ header ∈ headers trusted left right, header.Fits)
    (free : CollisionFree {input | ∃ header ∈ headers trusted left right,
      header.hashInput = input})
    (heads : (headAfter trusted left).hash = (headAfter trusted right).hash) :
    history trusted left = history trusted right := by
  have inLeft : ∀ header ∈ trusted :: history trusted left,
      header ∈ headers trusted left right := by
    intro header member
    unfold headers
    rw [← List.cons_append]
    exact List.mem_append_left _ member
  have inRight : ∀ header ∈ trusted :: history trusted right,
      header ∈ headers trusted left right := by
    intro header member
    rcases List.mem_cons.mp member with rfl | later
    · exact List.mem_cons_self
    · exact List.mem_cons_of_mem _ (List.mem_append_right _ later)
  have apart : ∀ one ∈ trusted :: history trusted left, ∀ other ∈ trusted :: history trusted right,
      one.hash = other.hash → one = other := by
    intro one oneIn other otherIn same
    apply Header.hashInput_injective (fits one (inLeft one oneIn)) (fits other (inRight other otherIn))
    exact free _ ⟨one, inLeft one oneIn, rfl⟩ _ ⟨other, inRight other otherIn, rfl⟩ same
  have leftChained := history_chained trusted left
  have rightChained := history_chained trusted right
  rw [headAfter_eq, headAfter_eq] at heads
  have ends := apart _ (HashChain.tip_mem _ _) _ (HashChain.tip_mem _ _) heads
  have long : (history trusted left).length = (history trusted right).length := by
    have leftHeight := HashChain.height_tip (leftChained.mono fun _ _ next => next.height)
    have rightHeight := HashChain.height_tip (rightChained.mono fun _ _ next => next.height)
    have heights := congrArg Header.height ends
    omega
  exact HashChain.history_unique (leftChained.mono fun _ _ next => next.parent)
    (rightChained.mono fun _ _ next => next.parent) long apart heads

/-- A client's head hangs on the trusted header whatever it is handed; the headers of a
node's chain are accepted from any block on; and the hash of the head settles the history. -/
theorem follows_one_chain [SerdeJson] [Ed25519] [ChaCha20Poly1305] [Keccak256] [Secp256k1] [Evm]
    (trusted : Header) (start : Node) (linked : start.Linked) (steps : List Node.Call) :
    (∀ calls, Chained Header.Extends trusted (history trusted calls) ∧
      tip trusted (history trusted calls) = headAfter trusted calls) ∧
    (∀ front block back, (Run.run Node.called start steps).blocks = front ++ block :: back →
      (new block.header).applyHeaders (back.map Block.header) =
          (.ok (), new (Run.run Node.called start steps).head.header) ∧
        ∀ other ∈ block :: back, other.header.hash = other.hash) ∧
    ∀ left right, (∀ header ∈ headers trusted left right, header.Fits) →
      CollisionFree {input | ∃ header ∈ headers trusted left right, header.hashInput = input} →
      (headAfter trusted left).hash = (headAfter trusted right).hash →
        history trusted left = history trusted right ∧
          ∀ proof, (Run.run applied (new trusted) left).verifyState proof =
            (Run.run applied (new trusted) right).verifyState proof := by
  refine ⟨?_, ?_, ?_⟩
  · intro calls
    exact ⟨history_chained trusted calls, (headAfter_eq trusted calls).symm⟩
  · have kept : (Run.run Node.called start steps).Linked := by
      induction steps using List.reverseRecOn with
      | nil => exact linked
      | append_singleton earlier call ih =>
          rw [Run.run_snoc]
          exact ih.moved (call.moved _)
    intro front block back blocks
    exact ⟨kept.headers_accepted blocks, fun other _ => other.hash_header⟩
  · intro left right fits free heads
    have same := history_eq fits free heads
    have client : Run.run applied (new trusted) left = Run.run applied (new trusted) right := by
      have tips : headAfter trusted left = headAfter trusted right := by
        rw [headAfter_eq, headAfter_eq, same]
      exact congrArg LightClient.mk tips
    refine ⟨same, ?_⟩
    intro proof
    rw [client]

end LightClient

end Client

/-! ### Two clients at genesis -/

section Genesis

attribute [local instance] SerdeJson.compact Blake3.polynomial Ed25519.keyed ChaCha20Poly1305.keyed
  Node.stopping Node.blankKeccak Node.noSignature

namespace LightClient

def genesisHeader : Header := Block.deterministicGenesis.header

def firstHeader : Header :=
  { genesisHeader with
    height := 1
    parent := genesisHeader.hash }

/-- The parent is not the genesis block. -/
def strayHeader : Header :=
  { genesisHeader with
    height := 1 }

/-- The second client is handed a stray header behind the first one, and loses only that. -/
theorem follows_one_chain_stray :
    history genesisHeader [[firstHeader]] = [firstHeader] ∧
      history genesisHeader [[firstHeader]] = history genesisHeader [[firstHeader, strayHeader]] ∧
      (new genesisHeader).applyHeaders [] = (.ok (), new genesisHeader) := by
  have chain := follows_one_chain genesisHeader (Node.new ⟨"v1"⟩ Cascade.empty)
    (Node.Linked.of_genesis rfl) []
  have listed : headers genesisHeader [[firstHeader]] [[firstHeader, strayHeader]] =
      [genesisHeader, firstHeader, firstHeader] := by decide +kernel
  have fits : ∀ header ∈ headers genesisHeader [[firstHeader]] [[firstHeader, strayHeader]],
      header.Fits := by
    intro header member
    rw [listed] at member
    simp only [List.mem_cons, List.not_mem_nil, or_false, or_self] at member
    rcases member with rfl | rfl
    · exact ⟨by decide, by decide⟩
    · exact ⟨by decide, by decide⟩
  have free : CollisionFree {input | ∃ header ∈
      headers genesisHeader [[firstHeader]] [[firstHeader, strayHeader]],
        header.hashInput = input} := by
    rintro _ ⟨left, leftIn, rfl⟩ _ ⟨right, rightIn, rfl⟩ same
    rw [listed] at leftIn rightIn
    simp only [List.mem_cons, List.not_mem_nil, or_false, or_self] at leftIn rightIn
    have apart : genesisHeader.hash ≠ firstHeader.hash := by decide +kernel
    rcases leftIn with rfl | rfl
    · rcases rightIn with rfl | rfl
      · rfl
      · exact absurd same apart
    · rcases rightIn with rfl | rfl
      · exact absurd same.symm apart
      · rfl
  have heads : (headAfter genesisHeader [[firstHeader]]).hash =
      (headAfter genesisHeader [[firstHeader, strayHeader]]).hash := by decide +kernel
  exact ⟨by decide +kernel, (chain.2.2 _ _ fits free heads).1, (chain.2.1 [] _ [] rfl).1⟩

end LightClient

end Genesis

end Veilux
