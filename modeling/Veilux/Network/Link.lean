/-
The link between two peers, from `network/src/lib.rs` and `network/src/message.rs`: every
message is a line of JSON, sealed and written in hexadecimal once the peers have a session.
What a reader passes on are the messages written, in their order and from the first on,
whatever is done to the bytes on the way.
-/

import Veilux.Kernel.PrefixScan
import Veilux.Lib.Lines
import Veilux.Network.Message
import Veilux.Network.SessionOrder
import Veilux.Prism.NameSpelling
import Veilux.Prism.Oracle

namespace Veilux

open Bytes (utf8 hexChars hexDecode hexEncode)

/-! ### Texts without control characters -/

def Visible (char : Char) : Prop := 0x20 ≤ char.toNat

/-! ### UTF-8 -/

theorem le_of_mem_utf8EncodeChar {char : Char} (visible : Visible char) {byte : UInt8}
    (member : byte ∈ String.utf8EncodeChar char) : 0x20 ≤ byte.toNat := by
  have large : ∀ value : Nat, 0x20 ≤ value → value < 0x100 → byte = UInt8.ofNat value →
      0x20 ≤ byte.toNat := by
    intro value low high same
    rw [same, UInt8.toNat_ofNat_of_lt' high]
    exact low
  have low : 0x20 ≤ char.val.toNat := visible
  unfold String.utf8EncodeChar at member
  dsimp only at member
  split at member
  · exact large _ low (by omega) (List.mem_singleton.mp member)
  · split at member
    · simp only [List.mem_cons, List.not_mem_nil, or_false] at member
      rcases member with same | same <;> exact large _ (by omega) (by omega) same
    · split at member
      · simp only [List.mem_cons, List.not_mem_nil, or_false] at member
        rcases member with same | same | same <;> exact large _ (by omega) (by omega) same
      · simp only [List.mem_cons, List.not_mem_nil, or_false] at member
        rcases member with same | same | same | same <;> exact large _ (by omega) (by omega) same

/-- A visible text is a clean line. -/
theorem clean_of_visible {text : String} (visible : ∀ char ∈ text.toList, Visible char) :
    Lines.Clean (utf8 text) := by
  have bytes : ∀ byte ∈ utf8 text, 0x20 ≤ byte.toNat := by
    intro byte member
    rw [utf8_eq_flatMap] at member
    obtain ⟨char, inText, inChar⟩ := List.mem_flatMap.mp member
    exact le_of_mem_utf8EncodeChar (visible char inText) inChar
  constructor
  · intro member
    exact absurd (bytes _ member) (by decide)
  · intro last
    exact absurd (bytes _ (List.mem_of_getLast? last)) (by decide)

/-! ### Printed JSON -/

/-- Everything in the text is visible. -/
def AllVisible (text : List Char) : Prop := ∀ char ∈ text, Visible char

theorem allVisible_nil : AllVisible [] := fun _ member => absurd member List.not_mem_nil

theorem allVisible_cons {char : Char} {text : List Char} (first : Visible char)
    (rest : AllVisible text) : AllVisible (char :: text) := by
  intro other member
  rcases List.mem_cons.mp member with same | later
  · rw [same]
    exact first
  · exact rest other later

theorem allVisible_append {left right : List Char} (first : AllVisible left)
    (second : AllVisible right) : AllVisible (left ++ right) := by
  intro char member
  rcases List.mem_append.mp member with inLeft | inRight
  · exact first char inLeft
  · exact second char inRight

instance (char : Char) : Decidable (Visible char) := Nat.decLe _ _

instance (text : List Char) : Decidable (AllVisible text) := List.decidableBAll Visible text

theorem visible_hexDigit {value : Nat} (small : value < 16) : Visible (Bytes.hexDigit value) := by
  have table : ∀ digit : Fin 16, Visible (Bytes.hexDigit digit.val) := by decide
  exact table ⟨value, small⟩

theorem allVisible_escapeChar (char : Char) : AllVisible (Json.escapeChar char) := by
  unfold Json.escapeChar
  split; · decide
  split; · decide
  split; · decide
  split; · decide
  split; · decide
  split; · decide
  split; · decide
  split
  · rename_i control
    refine @allVisible_append [Json.backslash, 'u', '0', '0'] _ (by decide) ?_
    exact allVisible_cons (visible_hexDigit (by omega))
      (allVisible_cons (visible_hexDigit (by omega)) allVisible_nil)
  · rename_i control
    exact allVisible_cons (Nat.not_lt.mp control) allVisible_nil

theorem allVisible_printString (text : String) : AllVisible (Json.printString text) := by
  have escaped : AllVisible (text.toList.flatMap Json.escapeChar) := by
    intro char member
    obtain ⟨source, _, written⟩ := List.mem_flatMap.mp member
    exact allVisible_escapeChar source char written
  exact allVisible_append (allVisible_cons (by decide) escaped) (by decide)

theorem allVisible_toDigits (value : Nat) : AllVisible (Nat.toDigits 10 value) := by
  intro char member
  have digit : char.isDigit = true := Nat.isDigit_of_mem_toDigits (by decide) (by decide) member
  unfold Char.isDigit at digit
  have low : '0'.val ≤ char.val := (of_decide_eq_true (Bool.and_eq_true_iff.mp digit).1)
  exact le_trans (by decide) (UInt32.le_iff_toNat_le.mp low)

mutual

theorem allVisible_print : (value : Json) → AllVisible value.print
  | .null => by decide
  | .bool true => by decide
  | .bool false => by decide
  | .num value => allVisible_toDigits value
  | .str text => allVisible_printString text
  | .arr [] => by decide
  | .arr (item :: items) =>
      allVisible_cons (by decide)
        (allVisible_append (allVisible_print item) (allVisible_printItems items))
  | .obj [] => by decide
  | .obj ((name, value) :: fields) =>
      allVisible_cons (by decide) (allVisible_append (allVisible_printString name)
        (allVisible_cons (by decide)
          (allVisible_append (allVisible_print value) (allVisible_printFields fields))))

theorem allVisible_printItems : (items : List Json) → AllVisible (Json.printItems items)
  | [] => by decide
  | item :: items =>
      allVisible_cons (by decide)
        (allVisible_append (allVisible_print item) (allVisible_printItems items))

theorem allVisible_printFields : (fields : List (String × Json)) →
    AllVisible (Json.printFields fields)
  | [] => by decide
  | (name, value) :: fields =>
      allVisible_cons (by decide) (allVisible_append (allVisible_printString name)
        (allVisible_cons (by decide)
          (allVisible_append (allVisible_print value) (allVisible_printFields fields))))

end

theorem allVisible_hexChars (bytes : List UInt8) : AllVisible (hexChars bytes) := by
  intro char member
  obtain ⟨byte, _, digit⟩ := List.mem_flatMap.mp member
  have low := byte.toNat_lt
  rcases List.mem_cons.mp digit with same | same
  · rw [same]
    exact visible_hexDigit (by omega)
  · rw [List.mem_singleton.mp same]
    exact visible_hexDigit (by omega)

/-! ### Messages as JSON -/

instance : Serialize VoteKind where
  toJson
    | .prevote => .str "Prevote"
    | .precommit => .str "Precommit"
  toJson_injective := by
    intro left right same
    cases left <;> cases right <;> simp_all

instance : Serialize Vote where
  toJson vote := .obj
    [("height", toJson vote.height), ("round", toJson vote.round),
      ("block_hash", toJson vote.blockHash), ("voter", toJson vote.voter),
      ("kind", toJson vote.kind), ("signature", toJson vote.signature)]
  toJson_injective := by
    intro left right same
    cases left
    cases right
    simpa using same

instance : Serialize ViewChange where
  toJson change := .obj
    [("height", toJson change.height), ("view", toJson change.view),
      ("voter", toJson change.voter), ("public_key", toJson change.publicKey),
      ("signature", toJson change.signature)]
  toJson_injective := by
    intro left right same
    cases left
    cases right
    simpa using same

instance : Serialize RootAttestation where
  toJson attestation := .obj
    [("party", toJson attestation.party), ("commitment", toJson attestation.commitment),
      ("private_root", toJson attestation.privateRoot),
      ("public_key", toJson attestation.publicKey), ("signature", toJson attestation.signature)]
  toJson_injective := by
    intro left right same
    cases left
    cases right
    simpa using same

namespace NetMessage

/-- The `t` tag of a variant. -/
def tag : NetMessage → String
  | .hello _ _ => "Hello"
  | .command _ => "Command"
  | .proposal _ _ => "Proposal"
  | .vote _ => "Vote"
  | .block _ => "Block"
  | .requestBlocks _ => "RequestBlocks"
  | .blocks _ => "Blocks"
  | .viewChange _ => "ViewChange"
  | .privateEnvelope _ => "Private"
  | .privateRoot _ => "PrivateRoot"

/-- Its `d` content. -/
def content : NetMessage → Json
  | .hello nodeId height => .obj [("node_id", toJson nodeId), ("height", toJson height)]
  | .command signed => toJson signed
  | .proposal round value => .obj [("round", toJson round), ("block", toJson value)]
  | .vote value => toJson value
  | .block value => toJson value
  | .requestBlocks fromHeight => .obj [("from_height", toJson fromHeight)]
  | .blocks values => .obj [("blocks", toJson values)]
  | .viewChange change => toJson change
  | .privateEnvelope envelope => toJson envelope
  | .privateRoot attestation => toJson attestation

/-- Adjacently tagged. -/
instance : Serialize NetMessage where
  toJson message := .obj [("t", .str message.tag), ("d", message.content)]
  toJson_injective := by
    intro left right same
    simp only [Json.obj.injEq, List.cons.injEq, Prod.mk.injEq, Json.str.injEq, true_and,
      and_true] at same
    obtain ⟨tags, contents⟩ := same
    cases left <;> cases right <;> simp_all [tag, content]

/-- The text is kept as the bytes that `serde_json` writes. -/
def encode (message : NetMessage) : String := String.ofList (toJson message).print

def decode [SerdeJson] (line : String) : Except String NetMessage :=
  fromSlice NetMessage (utf8 line)

theorem utf8_encode (message : NetMessage) : utf8 message.encode = toVec message := rfl

@[simp] theorem decode_written [SerdeJson] (message : NetMessage) :
    decode message.encode = .ok message := by
  unfold decode
  rw [utf8_encode, fromSlice_toVec]

end NetMessage

/-! ### The writer -/

/-- `String::from_utf8`. -/
def fromUtf8 (bytes : List UInt8) : Option String := String.fromUTF8? ⟨bytes.toArray⟩

@[simp] theorem fromUtf8_utf8 (text : String) : fromUtf8 (utf8 text) = some text := by
  unfold fromUtf8 utf8
  rw [Array.toArray_toList]
  exact dif_pos text.isValidUTF8

namespace Link

open Auth (Sender Receiver frameAt openAt)
open NamePrism (trim isWhiteSpace)

section Wire

variable [ChaCha20Poly1305]

/-- What the writer of a peer puts in each line. -/
def payloads : Option Sender → List NetMessage → List (List UInt8)
  | _, [] => []
  | none, message :: messages => utf8 message.encode :: payloads none messages
  | some sender, message :: messages =>
      let (ct, sender) := sender.sealFrame (utf8 message.encode)
      utf8 (hexEncode ct) :: payloads (some sender) messages

def written (sender : Option Sender) (messages : List NetMessage) : List UInt8 :=
  Lines.write (payloads sender messages)

/-- The frames of a sender, one for each message and numbered from its counter on. -/
def frames (sender : Sender) (messages : List NetMessage) : List (List UInt8) :=
  messages.mapIdx fun index message =>
    frameAt sender.key (sender.counter + UInt64.ofNat index) (toVec message)

theorem frames_cons (sender : Sender) (message : NetMessage) (messages : List NetMessage) :
    frames sender (message :: messages) =
      frameAt sender.key sender.counter (toVec message) ::
        frames { sender with counter := sender.counter + 1 } messages := by
  unfold frames
  rw [List.mapIdx_cons]
  simp only [Auth.counter_succ]
  rw [show sender.counter + UInt64.ofNat 0 = sender.counter from UInt64.add_zero _]

theorem payloads_some (sender : Sender) (messages : List NetMessage) :
    payloads (some sender) messages =
      (frames sender messages).map fun frame => utf8 (hexEncode frame) := by
  induction messages generalizing sender with
  | nil => rfl
  | cons message messages ih =>
      rw [frames_cons, List.map_cons]
      exact congrArg _ (ih { sender with counter := sender.counter + 1 })

theorem payloads_none (messages : List NetMessage) :
    payloads none messages = messages.map toVec := by
  induction messages with
  | nil => rfl
  | cons message messages ih =>
      rw [List.map_cons, payloads, ih]
      rfl

/-- No line has a line end in it. -/
theorem clean_payloads {sender : Option Sender} {messages : List NetMessage} {line : List UInt8}
    (member : line ∈ payloads sender messages) : Lines.Clean line := by
  cases sender with
  | none =>
      rw [payloads_none] at member
      obtain ⟨message, _, same⟩ := List.mem_map.mp member
      rw [← same, ← NetMessage.utf8_encode]
      apply clean_of_visible
      unfold NetMessage.encode
      rw [String.toList_ofList]
      exact allVisible_print (toJson message)
  | some sender =>
      rw [payloads_some] at member
      obtain ⟨frame, _, same⟩ := List.mem_map.mp member
      rw [← same]
      apply clean_of_visible
      unfold hexEncode
      rw [String.toList_ofList]
      exact allVisible_hexChars frame

theorem read_written (sender : Option Sender) (messages : List NetMessage) :
    Lines.read (written sender messages) = payloads sender messages :=
  Lines.read_write fun _ member => clean_payloads member

/-! ### The reader -/

variable [SerdeJson]

/-- A text that is no message is dropped. -/
def passOn (plaintext : String) (later : List NetMessage) : List NetMessage :=
  match NetMessage.decode plaintext with
  | .error _ => later
  | .ok msg => msg :: later

/-- The loop of `handle_peer` over the lines of a peer, to the messages it passes on. -/
def receive : Option Receiver → List (List UInt8) → List NetMessage
  | _, [] => []
  | receiver, bytes :: lines =>
      match fromUtf8 bytes with
      -- `next_line` fails on bytes that are no text
      | none => []
      | some line =>
          if trim line.toList = [] then receive receiver lines
          else
            match receiver with
            | none => passOn line (receive none lines)
            | some rx =>
                match hexDecode (trim line.toList) with
                | none => receive (some rx) lines
                | some ct =>
                    match rx.openFrame ct with
                    | (.error _, _) => []
                    | (.ok pt, rx) =>
                        match fromUtf8 pt with
                        | none => []
                        | some plaintext => passOn plaintext (receive (some rx) lines)

omit [ChaCha20Poly1305] in
@[simp] theorem passOn_encode (message : NetMessage) (later : List NetMessage) :
    passOn message.encode later = message :: later := by
  unfold passOn
  rw [NetMessage.decode_written]

/-! ### What is read -/

omit [ChaCha20Poly1305] [SerdeJson] in
theorem trim_hexChars (bytes : List UInt8) : trim (hexChars bytes) = hexChars bytes := by
  have solid : ∀ char ∈ hexChars bytes, isWhiteSpace char = false := by
    have table : ∀ digit : Fin 16, isWhiteSpace (Bytes.hexDigit digit.val) = false := by decide
    intro char member
    obtain ⟨byte, _, digit⟩ := List.mem_flatMap.mp member
    have low := byte.toNat_lt
    rcases List.mem_cons.mp digit with same | same
    · rw [same]
      exact table ⟨byte.toNat / 16, by omega⟩
    · rw [List.mem_singleton.mp same]
      exact table ⟨byte.toNat % 16, by omega⟩
  by_cases empty : hexChars bytes = []
  · rw [empty]
    rfl
  have trimmed := @NamePrism.trim_append [] (hexChars bytes) []
    (fun _ member => absurd member List.not_mem_nil)
    (fun _ member => absurd member List.not_mem_nil) empty
    (fun char found => solid char (List.mem_of_mem_head? found))
    (fun char found => solid char (List.mem_of_getLast? found))
  rwa [List.nil_append, List.append_nil] at trimmed

omit [ChaCha20Poly1305] [SerdeJson] in
theorem trim_print_ne_nil (message : NetMessage) : trim message.encode.toList ≠ [] := by
  intro empty
  obtain ⟨front, back, split, blankFront, blankBack⟩ := NamePrism.trim_split message.encode.toList
  have opening : Char.ofNat 0x7b ∈ front ++ back := by
    rw [empty, List.append_nil] at split
    rw [← split]
    unfold NetMessage.encode
    rw [String.toList_ofList]
    exact List.mem_cons_self
  have blank : isWhiteSpace (Char.ofNat 0x7b) = true := by
    rcases List.mem_append.mp opening with inFront | inBack
    · exact blankFront _ inFront
    · exact blankBack _ inBack
  exact absurd blank (by decide)

/-- An open link passes on what was written. -/
theorem receive_none (messages : List NetMessage) :
    receive none (payloads none messages) = messages := by
  induction messages with
  | nil => rfl
  | cons message messages ih =>
      rw [payloads, receive]
      simp only [fromUtf8_utf8, if_neg (trim_print_ne_nil message), ih, passOn_encode]

/-- A line that is a frame in hexadecimal is opened. -/
theorem receive_frame (rx : Receiver) {frame : List UInt8} (tagged : frame ≠ [])
    (lines : List (List UInt8)) :
    receive (some rx) (utf8 (hexEncode frame) :: lines) =
      match rx.openFrame frame with
      | (.error _, _) => []
      | (.ok pt, rx) =>
          match fromUtf8 pt with
          | none => []
          | some plaintext => passOn plaintext (receive (some rx) lines) := by
  have digits : hexChars frame ≠ [] := by
    intro empty
    have none := congrArg List.length empty
    rw [Bytes.hexChars_length, List.length_nil] at none
    exact tagged (List.length_eq_zero_iff.mp (by omega))
  rw [receive]
  simp only [fromUtf8_utf8, hexEncode, String.toList_ofList, trim_hexChars, if_neg digits,
    Bytes.hexDecode_hexChars]

omit [SerdeJson] in
theorem openFrame_pair (rx : Receiver) (frame : List UInt8) :
    rx.openFrame frame =
      (openAt rx.key rx.counter frame, { rx with counter := rx.counter + 1 }) := by
  unfold Receiver.openFrame openAt
  cases ChaCha20Poly1305.decrypt rx.key (Auth.counterNonce rx.counter) [] frame <;> rfl

/-- A ciphertext carries a tag, so it is never empty. -/
def Tagged : Prop :=
  ∀ key nonce aad message, ChaCha20Poly1305.encrypt key nonce aad message ≠ []

/-- The end of a direction that reads what the other end writes. -/
def reader (sender : Sender) : Receiver :=
  { key := sender.key
    counter := sender.counter }

/-- A session passes on what was written. -/
theorem receive_some (tagged : Tagged) (sender : Sender) (messages : List NetMessage) :
    receive (some (reader sender)) (payloads (some sender) messages) = messages := by
  induction messages generalizing sender with
  | nil => rfl
  | cons message messages ih =>
      have opened := Auth.openAt_frameAt sender.key sender.counter (toVec message)
      have nonempty : frameAt sender.key sender.counter (toVec message) ≠ [] := tagged _ _ _ _
      have later := ih { sender with counter := sender.counter + 1 }
      rw [payloads_some, frames_cons, List.map_cons, receive_frame _ nonempty, openFrame_pair]
      simp only [reader, opened]
      rw [← NetMessage.utf8_encode, fromUtf8_utf8]
      rw [payloads_some] at later
      exact (passOn_encode _ _).trans (congrArg _ later)

/-! ### Whatever is done to the bytes -/

omit [ChaCha20Poly1305] [SerdeJson] in
/-- The frame in a line. -/
def frameOf (line : List UInt8) : Option (List UInt8) :=
  (fromUtf8 line).bind fun text => hexDecode (trim text.toList)

/-- The lines bring no frame that opens under the key of the sender but was not sealed by it. -/
def Unforged (sender : Sender) (messages : List NetMessage) (lines : List (List UInt8)) : Prop :=
  ∀ line ∈ lines, ∀ frame, frameOf line = some frame →
    ∀ counter plaintext, openAt sender.key counter frame = .ok plaintext →
      frame ∈ frames sender messages

omit [SerdeJson] in
/-- Lines that have been sent bring no other frame, in any order and any number. -/
theorem unforged_of_sent {sender : Sender} {messages : List NetMessage}
    {lines : List (List UInt8)} (sent : ∀ line ∈ lines, line ∈ payloads (some sender) messages) :
    Unforged sender messages lines := by
  intro line member frame carried _ _ _
  have written := sent line member
  rw [payloads_some] at written
  obtain ⟨original, inFrames, same⟩ := List.mem_map.mp written
  rw [← same, frameOf, fromUtf8_utf8, Option.bind_some, hexEncode, String.toList_ofList,
    trim_hexChars, Bytes.hexDecode_hexChars] at carried
  rw [← Option.some.inj carried]
  exact inFrames

omit [SerdeJson] in
/-- A sealed frame opens at its own number alone. -/
theorem opens_in_turn (strict : Auth.StrictAead) {sender : Sender} {messages : List NetMessage}
    (short : messages.length < 2 ^ 64) {count : Nat} (within : count ≤ messages.length)
    {frame plaintext : List UInt8} (sent : frame ∈ frames sender messages)
    (opens : openAt sender.key (sender.counter + UInt64.ofNat count) frame = .ok plaintext) :
    ∃ message, messages[count]? = some message ∧ plaintext = toVec message := by
  obtain ⟨index, found⟩ := List.mem_iff_getElem?.mp sent
  unfold frames at found
  rw [List.getElem?_mapIdx] at found
  obtain ⟨message, atIndex, same⟩ := Option.map_eq_some_iff.mp found
  have bound : index < messages.length := (List.getElem?_eq_some_iff.mp atIndex).1
  have small : messages.length < UInt64.size := short
  rw [← same] at opens
  have turn : index = count := by
    by_contra apart
    have numbers : sender.counter + UInt64.ofNat index ≠ sender.counter + UInt64.ofNat count := by
      intro equal
      have words := congrArg UInt64.toNat (add_left_cancel equal)
      rw [UInt64.toNat_ofNat_of_lt' (by omega), UInt64.toNat_ofNat_of_lt' (by omega)] at words
      exact apart words
    rw [Auth.openAt_refused strict (Or.inr numbers)] at opens
    cases opens
  rw [turn, Auth.openAt_frameAt] at opens
  exact ⟨message, turn ▸ atIndex, (Except.ok.inj opens).symm⟩

/-- From any number on, what is passed on are the messages from that number on. -/
theorem receive_prefix (strict : Auth.StrictAead) {sender : Sender} {messages : List NetMessage}
    (short : messages.length < 2 ^ 64) {lines : List (List UInt8)}
    (unforged : Unforged sender messages lines) {count : Nat} (within : count ≤ messages.length) :
    receive (some { key := sender.key, counter := sender.counter + UInt64.ofNat count }) lines <+:
      messages.drop count := by
  induction lines generalizing count with
  | nil => exact List.nil_prefix
  | cons bytes lines ih =>
      have rest : Unforged sender messages lines := fun line member =>
        unforged line (List.mem_cons_of_mem _ member)
      rw [receive]
      split
      · exact List.nil_prefix
      rename_i line text
      split
      · exact ih rest within
      dsimp only
      split
      · exact ih rest within
      rename_i frame decoded
      have carried : frameOf bytes = some frame := by
        unfold frameOf
        rw [text]
        exact decoded
      rw [openFrame_pair]
      dsimp only
      cases opens : openAt sender.key (sender.counter + UInt64.ofNat count) frame with
      | error failure => exact List.nil_prefix
      | ok plaintext =>
          have sent := unforged bytes List.mem_cons_self frame carried _ _ opens
          obtain ⟨message, atCount, same⟩ := opens_in_turn strict short within sent opens
          have bound := (List.getElem?_eq_some_iff.mp atCount).1
          have split : messages.drop count = message :: messages.drop (count + 1) := by
            rw [List.drop_eq_getElem_cons bound, (List.getElem?_eq_some_iff.mp atCount).2]
          have next := ih rest (Nat.succ_le_of_lt bound)
          dsimp only
          rw [same, ← NetMessage.utf8_encode, fromUtf8_utf8, split]
          dsimp only
          rw [passOn_encode, add_assoc, ← UInt64.ofNat_one, ← UInt64.ofNat_add]
          exact (List.prefix_cons_inj _).mpr next

/-! ### Two peers -/

section Peers

open Auth (AuthConfig AuthError AuthMsg Drawn PeerInfo Blake3Xof performHandshake StrictAead)

variable [Ed25519] [X25519] [X25519Public] [Blake3Xof]

omit [ChaCha20Poly1305] [SerdeJson] in
/-- The halves of two sessions that have read each other's ephemeral keys. -/
theorem halves_meet {cfg cfg' : AuthConfig} {drawn drawn' : Drawn}
    {party party' : String} {publicKey publicKey' nonce nonce' : List UInt8}
    {second second' : Except AuthError AuthMsg} {info info' : PeerInfo}
    {session session' : Auth.Session}
    (distinct : drawn.ephemeralPublic ≠ drawn'.ephemeralPublic)
    (done : (performHandshake cfg drawn
      (.ok (.hello party publicKey nonce drawn'.ephemeralPublic)) second).2 =
        .ok (info, session))
    (done' : (performHandshake cfg' drawn'
      (.ok (.hello party' publicKey' nonce' drawn.ephemeralPublic)) second').2 =
        .ok (info', session')) :
    session'.split.2 = reader session.split.1 := by
  rw [Auth.session_eq done, Auth.session_eq done', ← Auth.shared_comm drawn drawn']
  obtain ⟨sending, _⟩ := Auth.buildSession_mirrored (Auth.shared drawn drawn') distinct
  unfold reader Auth.Session.split
  dsimp only
  rw [sending, (Auth.buildSession_fresh _ _ _).1, (Auth.buildSession_fresh _ _ _).2]

/-- What a peer passes on of the bytes another has written is what it wrote, on an open link
and on one with a session.  With a session it is a first part of that whatever has been done to
the bytes, as long as no frame is forged. -/
theorem link_in_order {cfg cfg' : AuthConfig} {drawn drawn' : Drawn}
    {party party' : String} {publicKey publicKey' nonce nonce' : List UInt8}
    {second second' : Except AuthError AuthMsg} {info info' : PeerInfo}
    {session session' : Auth.Session}
    (distinct : drawn.ephemeralPublic ≠ drawn'.ephemeralPublic)
    (done : (performHandshake cfg drawn
      (.ok (.hello party publicKey nonce drawn'.ephemeralPublic)) second).2 =
        .ok (info, session))
    (done' : (performHandshake cfg' drawn'
      (.ok (.hello party' publicKey' nonce' drawn.ephemeralPublic)) second').2 =
        .ok (info', session'))
    (tagged : Tagged) (messages : List NetMessage) :
    receive none (Lines.read (written none messages)) = messages ∧
      receive (some session'.split.2) (Lines.read (written (some session.split.1) messages)) =
        messages ∧
      (StrictAead → messages.length < 2 ^ 64 → ∀ bytes : List UInt8,
        Unforged session.split.1 messages (Lines.read bytes) →
          receive (some session'.split.2) (Lines.read bytes) <+: messages) := by
  rw [halves_meet distinct done done', read_written, read_written]
  refine ⟨receive_none messages, receive_some tagged _ messages, ?_⟩
  intro strict short bytes unforged
  have fromStart := receive_prefix strict short unforged (Nat.zero_le _)
  rwa [List.drop_zero, show session.split.1.counter + UInt64.ofNat 0 = session.split.1.counter
    from UInt64.add_zero _] at fromStart

end Peers

end Wire

section Delivery

attribute [local instance] Ed25519.keyed X25519.masked X25519Public.masked Auth.polynomialXof
  Auth.numbered SerdeJson.compact

theorem tagged_numbered : Tagged := by
  intro key nonce aad message empty
  have count : ((key ++ nonce).toList ++ message).length = 0 := congrArg List.length empty
  rw [List.length_append, Vector.length_toList] at count
  omega

/-- The two lines of the sender arrive the other way round. -/
theorem link_in_order_alice :
    receive none (Lines.read (written none [.requestBlocks 3, .hello "n1" 5])) =
        [.requestBlocks 3, .hello "n1" 5] ∧
      receive (some Auth.bobSession.split.2)
          (Lines.read (written (some Auth.aliceSession.split.1)
            [.requestBlocks 3, .hello "n1" 5])) =
        [.requestBlocks 3, .hello "n1" 5] ∧
      receive (some Auth.bobSession.split.2)
          (Lines.read (Lines.write (payloads (some Auth.aliceSession.split.1)
            [.requestBlocks 3, .hello "n1" 5]).reverse)) <+:
        [.requestBlocks 3, .hello "n1" 5] := by
  have delivered := link_in_order (by decide) Auth.alice_done Auth.bob_done tagged_numbered
    [.requestBlocks 3, .hello "n1" 5]
  refine ⟨delivered.1, delivered.2.1,
    delivered.2.2 Auth.strictAead_numbered (by decide) _ ?_⟩
  rw [Lines.read_write fun line member => clean_payloads (List.mem_reverse.mp member)]
  apply unforged_of_sent
  intro line member
  exact List.mem_reverse.mp member

end Delivery

end Link

end Veilux
