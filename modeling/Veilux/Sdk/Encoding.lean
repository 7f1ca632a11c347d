/-
The encodings of the TypeScript SDK, from `sdk-ts/src/encoding.ts`: the bytes it signs and
hashes for a command.  Strings are sequences of 16-bit code units, and the numbers of a
command are safe integers.
-/

import Veilux.Kernel.Types
import Veilux.Lib.Utf16

namespace Veilux

namespace Sdk

open Bytes (leBytes utf8)
open Utf16 (Units encode ofText stringify)

/-- `Number.MAX_SAFE_INTEGER`. -/
def maxSafeInteger : Nat := 2 ^ 53 - 1

structure SafeInteger where
  value : Int
  safe : value.natAbs ≤ maxSafeInteger
  deriving DecidableEq

inductive Visibility where
  | pub
  | parties (set : List Units)
  deriving DecidableEq

structure Command where
  prism : Units
  submitter : Units
  visibility : Visibility
  payload : List Int
  nonce : SafeInteger
  deriving DecidableEq

/-! ### Byte arrays -/

/-- `Uint8Array.prototype.set`. -/
def setAt (out : List UInt8) (off : Nat) (part : List UInt8) : List UInt8 :=
  out.take off ++ part ++ out.drop (off + part.length)

/-- The parts are written one behind the other into an array of their total length. -/
def concat (parts : List (List UInt8)) : List UInt8 :=
  let len := parts.foldl (fun len part => len + part.length) 0
  (parts.foldl (fun (state : List UInt8 × Nat) part =>
    (setAt state.1 state.2 part, state.2 + part.length)) (List.replicate len 0, 0)).1

/-- `Uint8Array.from`: every number modulo 256. -/
def uint8Array (numbers : List Int) : List UInt8 :=
  numbers.map fun number => UInt8.ofNat (number % 256).toNat

/-- `setBigUint64` takes the number modulo `2 ^ 64`. -/
def u64le (number : Int) : List UInt8 := leBytes 8 (number % 2 ^ 64).toNat

/-! ### Encodings -/

def visibilityJson : Visibility → List UInt8
  | .pub => encode (ofText "\"Public\"")
  | .parties set =>
      let inner := (ofText ",").intercalate (set.map stringify)
      encode (ofText "\x7b\"Parties\":[" ++ inner ++ ofText "]\x7d")

def signingBytes (cmd : Command) : List UInt8 :=
  let sep : List UInt8 := [0xff]
  concat
    [encode (ofText "veilux/command/v1"), sep, encode cmd.prism, sep, encode cmd.submitter, sep,
      u64le cmd.nonce.value, visibilityJson cmd.visibility, sep, uint8Array cmd.payload]

def signingBytesForChain (cmd : Command) (chainId : SafeInteger) : List UInt8 :=
  let base := signingBytes cmd
  if chainId.value = 0 then base
  else concat [base, [0xff], encode (ofText "chain"), u64le chainId.value]

/-- What `hashCommit` hashes. -/
def commitInput (domain : Units) (parts : List (List UInt8)) : List UInt8 :=
  concat ([encode domain, [0xff]] ++ parts.flatMap fun part => [u64le part.length, part])

def hashCommit [Blake3] (domain : Units) (parts : List (List UInt8)) : Vector UInt8 32 :=
  Blake3.digest (commitInput domain parts)

def idParts (cmd : Command) : List (List UInt8) :=
  [encode cmd.prism, encode cmd.submitter, u64le cmd.nonce.value, uint8Array cmd.payload]

def commandId [Blake3] (cmd : Command) : Vector UInt8 32 :=
  hashCommit (ofText "command") (idParts cmd)

/-! ### Byte arrays as lists -/

theorem setAt_next (front part rest : List UInt8) :
    setAt (front ++ rest) front.length part = (front ++ part) ++ rest.drop part.length := by
  simp [setAt]

/-- Behind what is written the parts follow one another. -/
theorem foldl_setAt (parts : List (List UInt8)) (front rest : List UInt8)
    (size : rest.length = parts.flatten.length) :
    (parts.foldl (fun (state : List UInt8 × Nat) part =>
      (setAt state.1 state.2 part, state.2 + part.length)) (front ++ rest, front.length)).1 =
        front ++ parts.flatten := by
  induction parts generalizing front rest with
  | nil =>
      have empty : rest = [] := List.eq_nil_of_length_eq_zero size
      rw [empty]
      rfl
  | cons part parts ih =>
      rw [List.flatten_cons, List.length_append] at size
      rw [List.foldl_cons, setAt_next, ← List.length_append, ih, List.flatten_cons,
        List.append_assoc]
      rw [List.length_drop]
      omega

theorem foldl_length (parts : List (List UInt8)) (start : Nat) :
    parts.foldl (fun len part => len + part.length) start = start + parts.flatten.length := by
  induction parts generalizing start with
  | nil => rfl
  | cons part parts ih =>
      rw [List.foldl_cons, ih, List.flatten_cons, List.length_append]
      omega

theorem concat_eq (parts : List (List UInt8)) : concat parts = parts.flatten := by
  unfold concat
  dsimp only
  rw [foldl_length, Nat.zero_add]
  exact foldl_setAt parts [] _ (by simp)

/-! ### Numbers -/

theorem leBytes_mod (width value : Nat) :
    leBytes width (value % 256 ^ width) = leBytes width value := by
  induction width generalizing value with
  | zero => rfl
  | succ width ih =>
      have low : UInt8.ofNat (value % 256 ^ (width + 1)) = UInt8.ofNat value := by
        apply UInt8.toNat_inj.mp
        rw [UInt8.toNat_ofNat', UInt8.toNat_ofNat']
        exact Nat.mod_mod_of_dvd value (dvd_pow_self 256 (Nat.succ_ne_zero width))
      have high : value % 256 ^ (width + 1) / 256 = value / 256 % 256 ^ width := by
        rw [Nat.pow_succ, Nat.mul_comm]
        exact Nat.mod_mul_right_div_self _ _ _
      unfold leBytes
      rw [low, high, ih]

/-- A count is written by its lowest eight bytes, whatever its size. -/
theorem u64le_natCast (value : Nat) : u64le value = leBytes 8 value := by
  unfold u64le
  rw [← leBytes_mod 8 value]
  congr 1

theorem uint8Array_natCast (bytes : List UInt8) :
    uint8Array (bytes.map fun byte => (byte.toNat : Int)) = bytes := by
  unfold uint8Array
  rw [List.map_map]
  conv => rhs; rw [← List.map_id bytes]
  apply List.map_congr_left
  intro byte _
  have bound := byte.toNat_lt
  have same : ((byte.toNat : Int) % 256).toNat = byte.toNat := by omega
  simp [same]

/-! ### Visibilities -/

theorem intercalate_ofChars (sep : List Char) (texts : List (List Char)) :
    (Utf16.ofChars sep).intercalate (texts.map Utf16.ofChars) =
      Utf16.ofChars (sep.intercalate texts) := by
  induction texts with
  | nil => rfl
  | cons text texts ih =>
      cases texts with
      | nil => rw [List.map_singleton, List.intercalate_singleton, List.intercalate_singleton]
      | cons second rest =>
          rw [List.map_cons, List.map_cons, List.intercalate_cons_cons, ← List.map_cons, ih,
            List.intercalate_cons_cons, Utf16.ofChars_append, Utf16.ofChars_append]

/-- An array is printed as its items, joined by commas, in brackets. -/
theorem print_arr (items : List Json) :
    Json.print (.arr items) = '[' :: [','].intercalate (items.map Json.print) ++ [']'] := by
  have behind (item : Json) (items : List Json) :
      Json.print item ++ Json.printItems items =
        [','].intercalate ((item :: items).map Json.print) ++ [']'] := by
    induction items generalizing item with
    | nil => simp [Json.printItems, List.intercalate_singleton]
    | cons second items ih =>
        rw [List.map_cons, List.map_cons, List.intercalate_cons_cons, ← List.map_cons,
          Json.printItems, ih]
        simp
  cases items with
  | nil => rfl
  | cons item items => rw [Json.print, behind, List.cons_append]

/-- The parties of a list, quoted and joined. -/
theorem visibilityJson_parties (names : List String) :
    visibilityJson (.parties (names.map ofText)) =
      toVec (Veilux.Visibility.parties (names.map PartyId.mk)) := by
  have quoted : (names.map ofText).map stringify =
      (names.map Json.printString).map Utf16.ofChars := by
    simp only [List.map_map]
    exact List.map_congr_left fun name _ => Utf16.stringify_ofText name
  have items : ((names.map PartyId.mk).map toJson).map Json.print =
      names.map Json.printString := by
    simp only [List.map_map]
    exact List.map_congr_left fun name _ => by simp [toJson, Json.print]
  have comma : ofText "," = Utf16.ofChars [','] := rfl
  have front : "\x7b\"Parties\":[".toList =
      Char.ofNat 0x7b :: (Json.printString "Parties" ++ [':', '[']) := by decide
  have back : "]\x7d".toList = [']', Char.ofNat 0x7d] := by decide
  unfold visibilityJson toVec Json.toVec
  dsimp only
  rw [quoted, comma, intercalate_ofChars, ofText, ofText, ← Utf16.ofChars_append,
    ← Utf16.ofChars_append, Utf16.encode_ofChars, front, back]
  have printed : Json.print (toJson (Veilux.Visibility.parties (names.map PartyId.mk))) =
      Char.ofNat 0x7b :: (Json.printString "Parties" ++ [':', '[']) ++
        [','].intercalate (names.map Json.printString) ++ [']', Char.ofNat 0x7d] := by
    change Json.print (.obj [("Parties", .arr ((names.map PartyId.mk).map toJson))]) = _
    rw [Json.print, print_arr, items]
    simp [Json.printFields]
  rw [printed]

/-- The text of the public visibility. -/
theorem visibilityJson_pub : visibilityJson .pub = toVec Veilux.Visibility.pub := by
  unfold visibilityJson toVec Json.toVec
  rw [Utf16.encode_ofText]
  rfl

/-! ### Commands -/

/-- The command of the SDK with the contents of one of the kernel. -/
structure Represents (cmd : Command) (command : Veilux.Command) : Prop where
  prism : cmd.prism = ofText command.prism
  submitter : cmd.submitter = ofText command.submitter.name
  visibility : cmd.visibility =
    match command.visibility with
    | .pub => .pub
    | .parties set => .parties (set.map fun party => ofText party.name)
  payload : cmd.payload = command.payload.map fun byte => (byte.toNat : Int)
  nonce : cmd.nonce.value = command.nonce.toNat

def Visibility.WellFormed : Visibility → Prop
  | .pub => True
  | .parties set => ∀ party ∈ set, Utf16.WellFormed party

/-- Well-formed strings, bytes and a nonce that is not negative. -/
structure Command.WellFormed (cmd : Command) : Prop where
  prism : Utf16.WellFormed cmd.prism
  submitter : Utf16.WellFormed cmd.submitter
  visibility : cmd.visibility.WellFormed
  payload : ∀ number ∈ cmd.payload, 0 ≤ number ∧ number < 256
  nonce : 0 ≤ cmd.nonce.value

theorem text_exists {units : Units} (wellFormed : Utf16.WellFormed units) :
    ∃ text, units = ofText text :=
  ⟨_, (Utf16.ofText_codePoints wellFormed).symm⟩

/-- Every well-formed command of the SDK has a counterpart in the kernel. -/
theorem represents_exists {cmd : Command} (wellFormed : cmd.WellFormed) :
    ∃ command, Represents cmd command := by
  obtain ⟨prism, prismSame⟩ := text_exists wellFormed.prism
  obtain ⟨submitter, submitterSame⟩ := text_exists wellFormed.submitter
  have visibility : ∃ visibility : Veilux.Visibility, cmd.visibility =
      match visibility with
      | .pub => .pub
      | .parties set => .parties (set.map fun party => ofText party.name) := by
    have parties := wellFormed.visibility
    cases found : cmd.visibility with
    | pub => exact ⟨.pub, rfl⟩
    | parties set =>
        rw [found] at parties
        refine ⟨.parties (set.map fun units =>
          ⟨String.ofList ((Utf16.codePoints units).map Utf16.scalar)⟩), ?_⟩
        dsimp only
        rw [List.map_map]
        congr 1
        conv => lhs; rw [← List.map_id set]
        exact List.map_congr_left fun units member =>
          (Utf16.ofText_codePoints (parties units member)).symm
  obtain ⟨visibility, visibilitySame⟩ := visibility
  have nonceBound : cmd.nonce.value.toNat < 2 ^ 64 := by
    have safe := cmd.nonce.safe
    unfold maxSafeInteger at safe
    omega
  refine ⟨{
    prism := prism
    submitter := ⟨submitter⟩
    visibility := visibility
    payload := cmd.payload.map fun number => UInt8.ofNat number.toNat
    nonce := UInt64.ofNat cmd.nonce.value.toNat }, prismSame, submitterSame, visibilitySame, ?_, ?_⟩
  · rw [List.map_map]
    conv => lhs; rw [← List.map_id cmd.payload]
    apply List.map_congr_left
    intro number member
    obtain ⟨low, high⟩ := wellFormed.payload number member
    simp only [id_eq, Function.comp_apply, UInt8.toNat_ofNat']
    omega
  · have positive := wellFormed.nonce
    dsimp only
    rw [UInt64.toNat_ofNat', Nat.mod_eq_of_lt nonceBound]
    omega

theorem Represents.visibilityJson {cmd : Command} {command : Veilux.Command}
    (represents : Represents cmd command) :
    Sdk.visibilityJson cmd.visibility = toVec command.visibility := by
  rw [represents.visibility]
  cases command.visibility with
  | pub => exact visibilityJson_pub
  | parties set =>
      have names : (set.map PartyId.name).map PartyId.mk = set := by
        rw [List.map_map]
        exact List.map_id'' (fun _ => rfl) set
      have texts : (set.map fun party => ofText party.name) =
          (set.map PartyId.name).map ofText := by
        simp
      dsimp only
      rw [texts, visibilityJson_parties, names]

theorem signingBytes_eq {cmd : Command} {command : Veilux.Command}
    (represents : Represents cmd command) : signingBytes cmd = command.signingBytes := by
  unfold signingBytes Veilux.Command.signingBytes
  dsimp only
  rw [concat_eq, represents.visibilityJson, represents.prism, represents.submitter,
    represents.payload, represents.nonce, u64le_natCast, uint8Array_natCast, Utf16.encode_ofText,
    Utf16.encode_ofText, Utf16.encode_ofText]
  simp [PartyId.bytes]

theorem signingBytesForChain_eq {cmd : Command} {command : Veilux.Command}
    (represents : Represents cmd command) {chainId : SafeInteger} {chain : UInt64}
    (same : chainId.value = chain.toNat) :
    signingBytesForChain cmd chainId = command.signingBytesForChain chain := by
  have zero : chainId.value = 0 ↔ chain = 0 := by
    rw [same, ← UInt64.toNat_inj]
    exact Int.natCast_eq_zero
  unfold signingBytesForChain Veilux.Command.signingBytesForChain
  dsimp only
  by_cases legacy : chain = 0
  · rw [if_pos (zero.mpr legacy), if_neg (not_not.mpr legacy), signingBytes_eq represents]
  · rw [if_neg (mt zero.mp legacy), if_pos legacy, concat_eq, signingBytes_eq represents, same,
      u64le_natCast, Utf16.encode_ofText]
    simp

theorem commitInput_eq (domain : String) (parts : List (List UInt8)) :
    commitInput (ofText domain) parts = Hash.commitBytes domain parts := by
  have framed : (parts.flatMap fun part => [u64le part.length, part]).flatten =
      parts.flatMap fun part => leBytes 8 part.length ++ part := by
    induction parts with
    | nil => rfl
    | cons part parts ih =>
        rw [List.flatMap_cons, List.flatten_append, ih, List.flatMap_cons, u64le_natCast]
        simp
  unfold commitInput Hash.commitBytes
  rw [concat_eq, List.flatten_append, framed, Utf16.encode_ofText]
  simp

theorem idParts_eq {cmd : Command} {command : Veilux.Command}
    (represents : Represents cmd command) : idParts cmd = command.idParts := by
  unfold idParts Veilux.Command.idParts
  rw [represents.prism, represents.submitter, represents.payload, represents.nonce,
    u64le_natCast, uint8Array_natCast, Utf16.encode_ofText, Utf16.encode_ofText]
  rfl

/-- The SDK and the kernel sign and hash the same bytes. -/
theorem encodings_agree {cmd : Command} {command : Veilux.Command}
    (represents : Represents cmd command) {chainId : SafeInteger} {chain : UInt64}
    (same : chainId.value = chain.toNat) :
    signingBytes cmd = command.signingBytes ∧
      signingBytesForChain cmd chainId = command.signingBytesForChain chain ∧
      commitInput (ofText "command") (idParts cmd) =
        Hash.commitBytes "command" command.idParts := by
  refine ⟨signingBytes_eq represents, signingBytesForChain_eq represents same, ?_⟩
  rw [idParts_eq represents, commitInput_eq]

def quotedTransfer : Command :=
  { prism := ofText "token"
    submitter := ofText "alice"
    visibility := .parties [ofText "al\"ice", ofText "b\tb"]
    payload := [1, 255]
    nonce := ⟨7, by decide⟩ }

def kernelTransfer : Veilux.Command :=
  { prism := "token"
    submitter := ⟨"alice"⟩
    visibility := .parties [⟨"al\"ice"⟩, ⟨"b\tb"⟩]
    payload := [1, 255]
    nonce := 7 }

theorem encodings_agree_transfer :
    signingBytes quotedTransfer = kernelTransfer.signingBytes ∧
      signingBytesForChain quotedTransfer ⟨42, by decide⟩ =
        kernelTransfer.signingBytesForChain 42 ∧
      commitInput (ofText "command") (idParts quotedTransfer) =
        Hash.commitBytes "command" kernelTransfer.idParts :=
  encodings_agree ⟨rfl, rfl, rfl, rfl, rfl⟩ rfl

end Sdk

end Veilux
