/-
What the signed and hashed bytes of `kernel/src/types.rs` bind.  Names and JSON texts
are UTF-8, which the separator byte does not occur in, so the fields of a command can be
read off the bytes that are signed; the chain suffix can also be read as the end of a
payload.  A block hash binds its header fields, and of its commands what their ids bind,
up to the padding of the Merkle tree.
-/

import Veilux.Kernel.Merkle
import Veilux.Kernel.Types
import Veilux.Lib.Keys

namespace Veilux

open Bytes (leBytes utf8)

/-! ### The separator -/

theorem ff_notMem_utf8EncodeChar (char : Char) : (0xff : UInt8) ∉ String.utf8EncodeChar char := by
  have small : ∀ value : Nat, value < 0xff → (0xff : UInt8) ≠ UInt8.ofNat value := by
    intro value bound same
    have numbers : 255 = value % 256 := by simpa using congrArg UInt8.toNat same
    omega
  intro member
  unfold String.utf8EncodeChar at member
  dsimp only at member
  split at member
  · have same := List.mem_singleton.mp member
    exact small _ (by omega) same
  · split at member
    · simp only [List.mem_cons, List.not_mem_nil, or_false] at member
      rcases member with same | same <;> exact small _ (by omega) same
    · split at member
      · simp only [List.mem_cons, List.not_mem_nil, or_false] at member
        rcases member with same | same | same <;> exact small _ (by omega) same
      · simp only [List.mem_cons, List.not_mem_nil, or_false] at member
        rcases member with same | same | same | same <;> exact small _ (by omega) same

theorem ff_notMem_utf8 (text : String) : (0xff : UInt8) ∉ utf8 text := by
  unfold utf8
  rw [← String.utf8Encode_toList, List.utf8Encode, List.data_toByteArray]
  intro member
  obtain ⟨char, _, inChar⟩ := List.mem_flatMap.mp member
  exact ff_notMem_utf8EncodeChar char inChar

/-! ### Signing bytes -/

namespace Command

/-- What is signed behind the fields on a numbered chain. -/
def chainSuffix (chainId : UInt64) : List UInt8 := 0xff :: utf8 "chain" ++ leBytes 8 chainId.toNat

theorem signingBytes_injective {left right : Command}
    (same : left.signingBytes = right.signingBytes) : left = right := by
  unfold signingBytes at same
  simp only [List.append_assoc, List.cons_append, List.append_cancel_left_eq, List.cons.injEq,
    true_and] at same
  obtain ⟨prisms, same⟩ := Keys.split_first (ff_notMem_utf8 _) (ff_notMem_utf8 _) same
  obtain ⟨submitters, same⟩ := Keys.split_first (ff_notMem_utf8 _) (ff_notMem_utf8 _) same
  obtain ⟨nonces, same⟩ := List.append_inj same (by simp)
  obtain ⟨visibilities, payloads⟩ := Keys.split_first (ff_notMem_utf8 _) (ff_notMem_utf8 _) same
  have nonceSame : left.nonce = right.nonce := UInt64.toNat_inj.mp
    (Bytes.leBytes_injective left.nonce.toNat_lt right.nonce.toNat_lt nonces)
  cases left
  cases right
  rw [Command.mk.injEq]
  exact ⟨Bytes.utf8_injective prisms, PartyId.bytes_injective submitters,
    toVec_injective visibilities, payloads, nonceSame⟩

/-- A suffix reads as the end of a payload. -/
theorem signingBytes_append (command : Command) (suffix : List UInt8) :
    command.signingBytes ++ suffix =
      { command with payload := command.payload ++ suffix }.signingBytes := by
  unfold signingBytes
  simp only [List.append_assoc, List.cons_append]

theorem signingBytesForChain_zero (command : Command) :
    command.signingBytesForChain 0 = command.signingBytes :=
  if_neg (not_not_intro rfl)

theorem signingBytesForChain_of_ne (command : Command) {chainId : UInt64} (numbered : chainId ≠ 0) :
    command.signingBytesForChain chainId = command.signingBytes ++ chainSuffix chainId := by
  unfold signingBytesForChain
  rw [if_pos numbered]
  simp only [chainSuffix, List.append_assoc, List.cons_append]

theorem chainSuffix_injective {left right : UInt64} (same : chainSuffix left = chainSuffix right) :
    left = right := by
  unfold chainSuffix at same
  have numbers := List.append_cancel_left same
  exact UInt64.toNat_inj.mp (Bytes.leBytes_injective left.toNat_lt right.toNat_lt numbers)

/-- On chain zero, the command whose payload ends with the other's chain suffix. -/
def Extends (command : Command) (chainId : UInt64) (other : Command) (otherChain : UInt64) : Prop :=
  chainId ≠ 0 ∧ otherChain = 0 ∧
    other = { command with payload := command.payload ++ chainSuffix chainId }

instance (command : Command) (chainId : UInt64) (other : Command) (otherChain : UInt64) :
    Decidable (Extends command chainId other otherChain) :=
  inferInstanceAs (Decidable (_ ∧ _ ∧ _))

theorem Extends.same_bytes {command other : Command} {chainId otherChain : UInt64}
    (extended : Extends command chainId other otherChain) :
    command.signingBytesForChain chainId = other.signingBytesForChain otherChain := by
  obtain ⟨numbered, rfl, rfl⟩ := extended
  rw [signingBytesForChain_of_ne _ numbered, signingBytesForChain_zero, signingBytes_append]

/-- The commands and chains with the same signed bytes. -/
theorem signingBytesForChain_cases {left right : Command} {leftChain rightChain : UInt64}
    (same : left.signingBytesForChain leftChain = right.signingBytesForChain rightChain) :
    (left = right ∧ leftChain = rightChain) ∨ Extends left leftChain right rightChain ∨
      Extends right rightChain left leftChain := by
  by_cases leftZero : leftChain = 0
  · by_cases rightZero : rightChain = 0
    · rw [leftZero, rightZero, signingBytesForChain_zero, signingBytesForChain_zero] at same
      exact .inl ⟨signingBytes_injective same, leftZero.trans rightZero.symm⟩
    · rw [leftZero, signingBytesForChain_zero, signingBytesForChain_of_ne _ rightZero,
        signingBytes_append] at same
      exact .inr (.inr ⟨rightZero, leftZero, signingBytes_injective same⟩)
  · by_cases rightZero : rightChain = 0
    · rw [rightZero, signingBytesForChain_zero, signingBytesForChain_of_ne _ leftZero,
        signingBytes_append] at same
      exact .inr (.inl ⟨leftZero, rightZero, (signingBytes_injective same).symm⟩)
    · rw [signingBytesForChain_of_ne _ leftZero, signingBytesForChain_of_ne _ rightZero] at same
      have sizes : (chainSuffix leftChain).length = (chainSuffix rightChain).length := by
        simp only [chainSuffix, List.length_append, List.length_cons, Bytes.leBytes_length]
      obtain ⟨commands, suffixes⟩ := List.append_inj' same sizes
      exact .inl ⟨signingBytes_injective commands, chainSuffix_injective suffixes⟩

/-- One signature stands for one command on one chain, unless the payload of a command
on chain zero ends with the suffix of the other chain. -/
theorem signing_bytes_unambiguous_iff (left right : Command) (leftChain rightChain : UInt64) :
    (left.signingBytesForChain leftChain = right.signingBytesForChain rightChain →
      left = right ∧ leftChain = rightChain) ↔
    ¬ Extends left leftChain right rightChain ∧ ¬ Extends right rightChain left leftChain := by
  constructor
  · intro unambiguous
    constructor
    · intro extended
      obtain ⟨_, chains⟩ := unambiguous extended.same_bytes
      exact extended.1 (chains.trans extended.2.1)
    · intro extended
      obtain ⟨_, chains⟩ := unambiguous extended.same_bytes.symm
      exact extended.1 (chains.symm.trans extended.2.1)
  · intro apart same
    rcases signingBytesForChain_cases same with equal | extended | extended
    · exact equal
    · exact absurd extended apart.1
    · exact absurd extended apart.2

/-- A command that is signed for chain 42, and what the signature says on chain zero. -/
def forChain42 : Command :=
  { prism := "storage"
    submitter := ⟨"alice"⟩
    visibility := .pub
    payload := [1]
    nonce := 0 }

def onChainZero : Command :=
  { forChain42 with payload := [1, 0xff, 0x63, 0x68, 0x61, 0x69, 0x6e, 42, 0, 0, 0, 0, 0, 0, 0] }

theorem signing_bytes_ambiguous :
    forChain42.signingBytesForChain 42 = onChainZero.signingBytesForChain 0 ∧
      forChain42 ≠ onChainZero ∧ (42 : UInt64) ≠ 0 := by
  have extended : Extends forChain42 42 onChainZero 0 := by decide
  exact ⟨extended.same_bytes, by decide, by decide⟩

end Command

/-! ### Block hashes -/

/-- Lists that agree in one respect agree in what that respect decides. -/
theorem map_eq_of_map_eq {A B C : Type} {f : A → B} {g : A → C} {left right : List A}
    (decides : ∀ first ∈ left, ∀ second ∈ right, f first = f second → g first = g second)
    (same : left.map f = right.map f) : left.map g = right.map g := by
  induction left generalizing right with
  | nil =>
      rw [List.map_eq_nil_iff.mp same.symm]
  | cons first rest ih =>
      cases right with
      | nil => cases same
      | cons second others =>
          obtain ⟨heads, tails⟩ := List.cons.inj same
          rw [List.map_cons, List.map_cons,
            decides first List.mem_cons_self second List.mem_cons_self heads,
            ih (fun a inRest b inOthers => decides a (List.mem_cons_of_mem _ inRest) b
              (List.mem_cons_of_mem _ inOthers)) tails]

namespace Block

/-- The fields that a block hash takes as they are. -/
structure SameHeader (left right : Block) : Prop where
  height : left.height = right.height
  parent : left.parent = right.parent
  eventsRoot : left.eventsRoot = right.eventsRoot
  stateRoot : left.stateRoot = right.stateRoot
  timestamp : left.timestamp = right.timestamp
  proposer : left.proposer = right.proposer

/-- The commands of two blocks, without their visibilities, are padded to one list. -/
def AlikeCommands (left right : Block) : Prop :=
  (Merkle.padded left.commands).map Command.idParts =
    (Merkle.padded right.commands).map Command.idParts

/-- Two blocks that differ in their commands only, and only in what ids and padding hide. -/
def Confusable (left right : Block) : Prop :=
  SameHeader left right ∧ AlikeCommands left right ∧ left.commands ≠ right.commands

/-- Lengths and heights fit 64 bits. -/
structure Fits (block : Block) : Prop where
  height : block.height < 2 ^ 64
  proposer : block.proposer.bytes.length < 2 ^ 64
  commands : ∀ command ∈ block.commands, ∀ part ∈ command.idParts, part.length < 2 ^ 64

variable [Blake3]

def hashParts (block : Block) : List (List UInt8) :=
  [leBytes 8 block.height, block.parent.asBytes, block.eventsRoot.asBytes,
    block.stateRoot.asBytes, block.commandsRoot.asBytes, leBytes 8 block.timestamp.toNat,
    block.proposer.bytes]

def idInputs (block : Block) : List (List UInt8) :=
  block.commands.map fun command => Hash.commitBytes "command" command.idParts

/-- The digest is ideal for what these two hashes are computed from. -/
structure HashedIdeally (left right : Block) : Prop where
  blocks : Hash.digest (Hash.commitBytes "block" left.hashParts) =
      Hash.digest (Hash.commitBytes "block" right.hashParts) →
    Hash.commitBytes "block" left.hashParts = Hash.commitBytes "block" right.hashParts
  commands : Ideal {input | input ∈ left.idInputs ++ right.idInputs}
    {pair | pair ∈ merklePairs (left.idInputs.map Hash.digest) ++
      merklePairs (right.idInputs.map Hash.digest)}

variable {left right : Block}

theorem commandsRoot_eq (block : Block) :
    block.commandsRoot = merkleRoot (block.idInputs.map Hash.digest) := by
  unfold commandsRoot idInputs
  rw [List.map_map]
  rfl

theorem hashParts_length {block : Block} (fits : Fits block) :
    ∀ part ∈ block.hashParts, part.length < 2 ^ 64 := by
  intro part member
  simp only [hashParts, List.mem_cons, List.not_mem_nil, or_false] at member
  rcases member with rfl | rfl | rfl | rfl | rfl | rfl | rfl
  · simp only [Bytes.leBytes_length, Nat.reducePow, Nat.reduceLT]
  · simp only [Hash.asBytes_length, Nat.reducePow, Nat.reduceLT]
  · simp only [Hash.asBytes_length, Nat.reducePow, Nat.reduceLT]
  · simp only [Hash.asBytes_length, Nat.reducePow, Nat.reduceLT]
  · simp only [Hash.asBytes_length, Nat.reducePow, Nat.reduceLT]
  · simp only [Bytes.leBytes_length, Nat.reducePow, Nat.reduceLT]
  · exact fits.proposer

/-- The roots of the commands say what their ids say, up to padding. -/
theorem commandsRoot_eq_iff (leftFits : Fits left) (rightFits : Fits right)
    (ideal : HashedIdeally left right) :
    left.commandsRoot = right.commandsRoot ↔ AlikeCommands left right := by
  have roots : merkleRoot (left.idInputs.map Hash.digest) =
      merkleRoot (right.idInputs.map Hash.digest) ↔
      Merkle.padded left.idInputs = Merkle.padded right.idInputs :=
    Ideal.root_eq_iff ideal.commands
      (fun input member => List.mem_append_left _ member)
      (fun input member => List.mem_append_right _ member)
      (fun pair member => List.mem_append_left _ member)
      (fun pair member => List.mem_append_right _ member)
  rw [commandsRoot_eq, commandsRoot_eq, roots]
  unfold idInputs AlikeCommands
  rw [Merkle.padded_map, Merkle.padded_map]
  constructor
  · apply map_eq_of_map_eq
    intro first inLeft second inRight same
    exact Hash.commitBytes_injective
      (leftFits.commands first (Merkle.padded_subset _ inLeft))
      (rightFits.commands second (Merkle.padded_subset _ inRight)) same
  · apply map_eq_of_map_eq
    intro first _ second _ same
    rw [same]

/-- Two hashes meet exactly for one header and alike commands. -/
theorem hash_eq_iff (leftFits : Fits left) (rightFits : Fits right)
    (ideal : HashedIdeally left right) :
    left.hash = right.hash ↔ SameHeader left right ∧ AlikeCommands left right := by
  rw [← commandsRoot_eq_iff leftFits rightFits ideal]
  constructor
  · intro same
    have parts := Hash.commitBytes_injective (hashParts_length leftFits)
      (hashParts_length rightFits) (ideal.blocks same)
    simp only [hashParts, List.cons.injEq, and_true] at parts
    obtain ⟨heights, parents, events, states, commands, times, proposers⟩ := parts
    exact ⟨{
      height := Bytes.leBytes_injective leftFits.height rightFits.height heights
      parent := Hash.asBytes_injective parents
      eventsRoot := Hash.asBytes_injective events
      stateRoot := Hash.asBytes_injective states
      timestamp := UInt64.toNat_inj.mp (Bytes.leBytes_injective left.timestamp.toNat_lt
        right.timestamp.toNat_lt times)
      proposer := PartyId.bytes_injective proposers }, Hash.asBytes_injective commands⟩
  · intro both
    obtain ⟨header, commands⟩ := both
    unfold hash
    rw [header.height, header.parent, header.eventsRoot, header.stateRoot, header.timestamp,
      header.proposer, commands]

/-- A block hash binds the header and the commands, unless the blocks are confusable. -/
theorem block_hash_binding_iff (left right : Block) (leftFits : Fits left) (rightFits : Fits right)
    (ideal : HashedIdeally left right) :
    (left.hash = right.hash → SameHeader left right ∧ left.commands = right.commands) ↔
      ¬ Confusable left right := by
  rw [hash_eq_iff leftFits rightFits ideal]
  constructor
  · intro binding confusable
    obtain ⟨header, alike, different⟩ := confusable
    exact different (binding ⟨header, alike⟩).2
  · intro distinct both
    obtain ⟨header, alike⟩ := both
    by_contra unbound
    exact distinct ⟨header, alike, fun same => unbound ⟨header, same⟩⟩

end Block

/-! ### Two orders, two visibilities, a repeated command -/

section Examples

attribute [local instance] Blake3.polynomial

def stores (visibility : Visibility) (byte : UInt8) : Command :=
  { prism := "storage"
    submitter := ⟨"alice"⟩
    visibility := visibility
    payload := [byte]
    nonce := 0 }

def blockOf (commands : List Command) : Block :=
  { height := 1
    parent := Hash.zero
    eventsRoot := Hash.zero
    stateRoot := Hash.zero
    timestamp := 5
    proposer := ⟨"v"⟩
    events := []
    commands := commands }

theorem blockOf_fits {commands : List Command}
    (sizes : ∀ command ∈ commands, ∀ part ∈ command.idParts, part.length < 2 ^ 64) :
    Block.Fits (blockOf commands) := by
  have low : 1 < 2 ^ 64 := by decide
  have short : (PartyId.mk "v").bytes.length < 2 ^ 64 := by decide
  exact
    { height := low
      proposer := short
      commands := sizes }

theorem block_hash_binding_orders :
    Block.HashedIdeally (blockOf [stores .pub 1, stores .pub 2])
        (blockOf [stores .pub 2, stores .pub 1]) ∧
      (blockOf [stores .pub 1, stores .pub 2]).hash ≠
        (blockOf [stores .pub 2, stores .pub 1]).hash := by
  have ideal : Block.HashedIdeally (blockOf [stores .pub 1, stores .pub 2])
      (blockOf [stores .pub 2, stores .pub 1]) :=
    { blocks := by decide +kernel
      commands := Ideal.of_lists (by decide +kernel) (by decide +kernel) (by decide +kernel)
        (by decide +kernel) }
  have distinct : ¬ Block.Confusable (blockOf [stores .pub 1, stores .pub 2])
      (blockOf [stores .pub 2, stores .pub 1]) := by
    rintro ⟨_, alike, _⟩
    exact absurd alike (by unfold Block.AlikeCommands; decide)
  refine ⟨ideal, ?_⟩
  intro same
  have bound := (Block.block_hash_binding_iff _ _ (blockOf_fits (by decide))
    (blockOf_fits (by decide)) ideal).mpr distinct same
  exact absurd bound.2 (by decide)

/-- A command shown to all and one shown to nobody have one hash, and so have three
commands and four. -/
theorem block_hash_not_binding :
    (Block.HashedIdeally (blockOf [stores .pub 1]) (blockOf [stores (.parties []) 1]) ∧
      (blockOf [stores .pub 1]).hash = (blockOf [stores (.parties []) 1]).hash ∧
      (blockOf [stores .pub 1]).commands ≠ (blockOf [stores (.parties []) 1]).commands) ∧
    (Block.HashedIdeally (blockOf [stores .pub 1, stores .pub 2, stores .pub 3])
        (blockOf [stores .pub 1, stores .pub 2, stores .pub 3, stores .pub 3]) ∧
      (blockOf [stores .pub 1, stores .pub 2, stores .pub 3]).hash =
        (blockOf [stores .pub 1, stores .pub 2, stores .pub 3, stores .pub 3]).hash ∧
      (blockOf [stores .pub 1, stores .pub 2, stores .pub 3]).commands.length ≠
        (blockOf [stores .pub 1, stores .pub 2, stores .pub 3, stores .pub 3]).commands.length) := by
  have shown : Block.HashedIdeally (blockOf [stores .pub 1]) (blockOf [stores (.parties []) 1]) :=
    { blocks := by decide +kernel
      commands := Ideal.of_lists (by decide +kernel) (by decide) (by decide +kernel)
        (by decide) }
  have repeated : Block.HashedIdeally (blockOf [stores .pub 1, stores .pub 2, stores .pub 3])
      (blockOf [stores .pub 1, stores .pub 2, stores .pub 3, stores .pub 3]) :=
    { blocks := by decide +kernel
      commands := Ideal.of_lists (by decide +kernel) (by decide +kernel) (by decide +kernel)
        (by decide +kernel) }
  exact ⟨⟨shown, by decide +kernel, by decide⟩, ⟨repeated, by decide +kernel, by decide⟩⟩

end Examples

end Veilux
