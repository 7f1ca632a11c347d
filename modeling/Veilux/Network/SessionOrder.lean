/-
What the two ends of a session make of each other's frames.  Frames opened in order give
the plaintexts back; a frame opened at any other number of the counter, or by its own
sender, is refused.
-/

import Veilux.Network.Handshake

namespace Veilux

namespace Auth

open Bytes (leBytes utf8)

/-! ### Roles -/

theorem lt_or_gt {left right : List UInt8} (different : left ≠ right) :
    left < right ∧ ¬ right < left ∨ right < left ∧ ¬ left < right := by
  by_cases less : left < right
  · exact .inl ⟨less, List.lt_asymm less⟩
  · have more : right < left := by
      by_contra notMore
      exact different (List.le_antisymm (List.not_lt.mp notMore) (List.not_lt.mp less))
    exact .inr ⟨more, less⟩

section Keys

variable [Blake3Xof]

/-- The halves of the derived bytes tell the inputs and the halves apart. -/
def IdealKdf (inputs : Set (List UInt8)) : Prop :=
  ∀ left ∈ inputs, ∀ right ∈ inputs, ∀ half other,
    keyAt (Blake3Xof.fill left) half = keyAt (Blake3Xof.fill right) other →
      left = right ∧ half = other

/-- One check of the list of all their keys settles it for finitely many inputs. -/
theorem idealKdf_of_nodup {inputs : Set (List UInt8)} {listed : List (List UInt8)}
    (within : ∀ input ∈ inputs, input ∈ listed)
    (distinct : ((listed.product [false, true]).map fun input =>
      keyAt (Blake3Xof.fill input.1) input.2).Nodup) : IdealKdf inputs := by
  intro left leftInside right rightInside half other same
  have either : ∀ half, half ∈ [false, true] := by decide
  have leftListed := List.pair_mem_product.mpr ⟨within left leftInside, either half⟩
  have rightListed := List.pair_mem_product.mpr ⟨within right rightInside, either other⟩
  exact Prod.mk.inj (List.inj_on_of_nodup_map distinct leftListed rightListed same)

/-- The two sessions over one secret have each other's keys. -/
theorem buildSession_mirrored (shared : Vector UInt8 32) {left right : List UInt8}
    (different : left ≠ right) :
    (buildSession shared left right).sendKey = (buildSession shared right left).recvKey ∧
      (buildSession shared left right).recvKey = (buildSession shared right left).sendKey := by
  unfold buildSession
  rcases lt_or_gt different with ⟨less, notMore⟩ | ⟨more, notLess⟩
  · rw [if_pos less, if_neg notMore]
    exact ⟨rfl, rfl⟩
  · rw [if_neg notLess, if_pos more]
    exact ⟨rfl, rfl⟩

theorem buildSession_apart (shared : Vector UInt8 32) {left right : List UInt8}
    (ideal : IdealKdf {kdfInput shared.toList left right, kdfInput shared.toList right left}) :
    (buildSession shared left right).sendKey ≠ (buildSession shared left right).recvKey := by
  unfold buildSession
  intro same
  split at same
  · obtain ⟨_, halves⟩ := ideal _ (Set.mem_insert _ _) _ (Set.mem_insert _ _) _ _ same
    cases halves
  · have inside := Set.mem_insert_of_mem (kdfInput shared.toList left right)
      (Set.mem_singleton (kdfInput shared.toList right left))
    obtain ⟨_, halves⟩ := ideal _ inside _ inside _ _ same
    cases halves

theorem buildSession_fresh (shared : Vector UInt8 32) (left right : List UInt8) :
    (buildSession shared left right).sendCounter = 0 ∧
      (buildSession shared left right).recvCounter = 0 := by
  unfold buildSession
  split <;> exact ⟨rfl, rfl⟩

end Keys

/-! ### Numbers -/

theorem counterNonce_injective {left right : UInt64}
    (same : counterNonce left = counterNonce right) : left = right := by
  have bytes := congrArg Vector.toList same
  simp only [counterNonce, Vector.toList_mk] at bytes
  have digits := List.reverse_injective (List.append_cancel_left bytes)
  exact UInt64.toNat_inj.mp (Bytes.leBytes_injective left.toNat_lt right.toNat_lt digits)

/-! ### Uses of an end -/

section Frames

variable [ChaCha20Poly1305]

/-- Nothing opens under another key or another nonce than it was sealed under. -/
def StrictAead : Prop :=
  ∀ key other nonce different aad message, key ≠ other ∨ nonce ≠ different →
    ChaCha20Poly1305.decrypt other different aad
      (ChaCha20Poly1305.encrypt key nonce aad message) = none

/-- The frame of a plaintext at a number of the counter. -/
def frameAt (key : Vector UInt8 32) (counter : UInt64) (plaintext : List UInt8) : List UInt8 :=
  ChaCha20Poly1305.encrypt key (counterNonce counter) [] plaintext

/-- What a frame opens to at a number of the counter. -/
def openAt (key : Vector UInt8 32) (counter : UInt64) (frame : List UInt8) :
    Except AuthError (List UInt8) :=
  match ChaCha20Poly1305.decrypt key (counterNonce counter) [] frame with
  | none => .error .decryption
  | some plaintext => .ok plaintext

namespace End

theorem sealFrame_eq (side : End) (plaintext : List UInt8) :
    (side.sealFrame plaintext).1 = frameAt side.sendKey side.sendCounter plaintext := by
  cases side <;> rfl

theorem openFrame_eq (side : End) (ciphertext : List UInt8) :
    (side.openFrame ciphertext).1 = openAt side.recvKey side.recvCounter ciphertext := by
  cases side with
  | whole session =>
      simp only [openFrame, Session.openFrame, openAt, recvKey, recvCounter]
      split <;> simp_all
  | halves sender receiver =>
      simp only [openFrame, Receiver.openFrame, openAt, recvKey, recvCounter]
      split <;> simp_all

/-- Sealing a frame moves the sending counter alone. -/
theorem sealFrame_kept (side : End) (plaintext : List UInt8) :
    (side.sealFrame plaintext).2.sendKey = side.sendKey ∧
      (side.sealFrame plaintext).2.recvKey = side.recvKey ∧
      (side.sealFrame plaintext).2.sendCounter = side.sendCounter + 1 ∧
      (side.sealFrame plaintext).2.recvCounter = side.recvCounter := by
  cases side <;> exact ⟨rfl, rfl, rfl, rfl⟩

/-- An attempt to open a frame moves the receiving counter alone, failed or not. -/
theorem openFrame_kept (side : End) (ciphertext : List UInt8) :
    (side.openFrame ciphertext).2.sendKey = side.sendKey ∧
      (side.openFrame ciphertext).2.recvKey = side.recvKey ∧
      (side.openFrame ciphertext).2.sendCounter = side.sendCounter ∧
      (side.openFrame ciphertext).2.recvCounter = side.recvCounter + 1 := by
  cases side with
  | whole session =>
      simp only [openFrame, Session.openFrame]
      split <;> exact ⟨rfl, rfl, rfl, rfl⟩
  | halves sender receiver =>
      simp only [openFrame, Receiver.openFrame]
      split <;> exact ⟨rfl, rfl, rfl, rfl⟩

omit [ChaCha20Poly1305] in
theorem split_kept (side : End) :
    side.split.sendKey = side.sendKey ∧ side.split.recvKey = side.recvKey ∧
      side.split.sendCounter = side.sendCounter ∧
      side.split.recvCounter = side.recvCounter := by
  cases side <;> exact ⟨rfl, rfl, rfl, rfl⟩

end End

omit [ChaCha20Poly1305] in
theorem counter_succ (counter : UInt64) (index : Nat) :
    counter + 1 + UInt64.ofNat index = counter + UInt64.ofNat (index + 1) := by
  rw [UInt64.ofNat_add, add_assoc, add_comm 1]
  rfl

/-- Over any uses the frames are numbered in the order of sending and the attempts in the
order of receiving, wherever the session is split. -/
theorem traffic_eq (side : End) (uses : List Use) :
    traffic side uses =
      ((uses.filterMap Use.plaintext?).mapIdx fun index plaintext =>
          frameAt side.sendKey (side.sendCounter + UInt64.ofNat index) plaintext,
        (uses.filterMap Use.ciphertext?).mapIdx fun index ciphertext =>
          openAt side.recvKey (side.recvCounter + UInt64.ofNat index) ciphertext) := by
  induction uses generalizing side with
  | nil => rfl
  | cons use uses ih =>
      cases use with
      | send plaintext =>
          obtain ⟨sendKey, recvKey, sendCounter, recvCounter⟩ := side.sealFrame_kept plaintext
          simp only [traffic, ih, side.sealFrame_eq, sendKey, recvKey, sendCounter, recvCounter,
            counter_succ]
          simp [List.filterMap_cons, Use.plaintext?, Use.ciphertext?, List.mapIdx_cons]
      | receive ciphertext =>
          obtain ⟨sendKey, recvKey, sendCounter, recvCounter⟩ := side.openFrame_kept ciphertext
          simp only [traffic, ih, side.openFrame_eq, sendKey, recvKey, sendCounter, recvCounter,
            counter_succ]
          simp [List.filterMap_cons, Use.plaintext?, Use.ciphertext?, List.mapIdx_cons]
      | split =>
          obtain ⟨sendKey, recvKey, sendCounter, recvCounter⟩ := side.split_kept
          simp only [traffic, ih, sendKey, recvKey, sendCounter, recvCounter]
          simp [List.filterMap_cons, Use.plaintext?, Use.ciphertext?]

/-! ### What opens -/

theorem openAt_frameAt (key : Vector UInt8 32) (counter : UInt64) (plaintext : List UInt8) :
    openAt key counter (frameAt key counter plaintext) = .ok plaintext := by
  unfold openAt frameAt
  rw [ChaCha20Poly1305.decrypt_encrypt]

theorem openAt_refused (strict : StrictAead) {key other : Vector UInt8 32}
    {counter number : UInt64} (apart : key ≠ other ∨ counter ≠ number)
    (plaintext : List UInt8) :
    openAt other number (frameAt key counter plaintext) = .error .decryption := by
  unfold openAt frameAt
  rw [strict key other _ (counterNonce number) [] plaintext]
  exact apart.imp_right (mt counterNonce_injective)

/-- The frames of one session and what the other makes of them. -/
structure Ordered (sender receiver : Session) : Prop where
  delivered : ∀ sends receives : List Use,
    receives.filterMap Use.ciphertext? = (traffic (.whole sender) sends).1 →
      (traffic (.whole receiver) receives).2 =
        (sends.filterMap Use.plaintext?).map Except.ok
  misplaced : ∀ (sends receives : List Use) (index attempt : Nat) (frame : List UInt8),
    (sends.filterMap Use.plaintext?).length < 2 ^ 64 →
    (traffic (.whole sender) sends).1[index]? = some frame →
    (receives.filterMap Use.ciphertext?)[attempt]? = some frame →
    attempt % 2 ^ 64 ≠ index →
      (traffic (.whole receiver) receives).2[attempt]? = some (Except.error AuthError.decryption)
  reflected : ∀ (sends receives : List Use) (index attempt : Nat) (frame : List UInt8),
    (traffic (.whole sender) sends).1[index]? = some frame →
    (receives.filterMap Use.ciphertext?)[attempt]? = some frame →
      (traffic (.whole sender) receives).2[attempt]? = some (Except.error AuthError.decryption)

theorem traffic_frame {session : Session} {sends : List Use} {index : Nat} {frame : List UInt8}
    (sent : (traffic (.whole session) sends).1[index]? = some frame) :
    ∃ plaintext, (sends.filterMap Use.plaintext?)[index]? = some plaintext ∧
      frame = frameAt session.sendKey (session.sendCounter + UInt64.ofNat index) plaintext := by
  rw [traffic_eq, List.getElem?_mapIdx] at sent
  obtain ⟨plaintext, found, made⟩ := Option.map_eq_some_iff.mp sent
  exact ⟨plaintext, found, made.symm⟩

theorem traffic_result {session : Session} {receives : List Use} {attempt : Nat}
    {frame : List UInt8}
    (read : (receives.filterMap Use.ciphertext?)[attempt]? = some frame) :
    (traffic (.whole session) receives).2[attempt]? =
      some (openAt session.recvKey (session.recvCounter + UInt64.ofNat attempt) frame) := by
  rw [traffic_eq, List.getElem?_mapIdx, read]
  rfl

theorem ordered (strict : StrictAead) {sender receiver : Session}
    (keyed : sender.sendKey = receiver.recvKey) (counted : sender.sendCounter = 0)
    (started : receiver.recvCounter = 0) (apart : sender.sendKey ≠ sender.recvKey) :
    Ordered sender receiver where
  delivered sends receives inOrder := by
    rw [traffic_eq] at inOrder ⊢
    simp only at inOrder ⊢
    rw [inOrder]
    apply List.ext_getElem?
    intro index
    simp only [List.getElem?_mapIdx, List.getElem?_map, Option.map_map]
    congr 1
    funext plaintext
    simp only [Function.comp_apply, End.recvKey, End.sendKey, End.recvCounter, End.sendCounter,
      keyed, counted, started, openAt_frameAt]
  misplaced sends receives index attempt frame few sent read elsewhere := by
    obtain ⟨plaintext, found, rfl⟩ := traffic_frame sent
    have bound : index < 2 ^ 64 := by
      have := (List.getElem?_eq_some_iff.mp found).1
      omega
    rw [traffic_result read, keyed, counted, started]
    have numbers : (0 + UInt64.ofNat index) ≠ 0 + UInt64.ofNat attempt := by
      intro same
      have values := congrArg UInt64.toNat same
      simp only [UInt64.zero_add, UInt64.toNat_ofNat'] at values
      omega
    rw [openAt_refused strict (.inr numbers)]
  reflected sends receives index attempt frame sent read := by
    obtain ⟨plaintext, _, rfl⟩ := traffic_frame sent
    rw [traffic_result read, openAt_refused strict (.inl apart)]

end Frames

/-! ### Completed handshakes -/

section Completed

variable [Ed25519] [X25519] [X25519Public] [Blake3Xof]

omit [Ed25519] [X25519] [X25519Public] [Blake3Xof] in
theorem exactly_eq {size : Nat} {bytes : List UInt8} {found : Vector UInt8 size}
    (sized : exactly size bytes = some found) : bytes = found.toList := by
  unfold exactly at sized
  split at sized
  · cases sized
    simp
  · cases sized

omit [Ed25519] [X25519] [X25519Public] [Blake3Xof] in
theorem greet_ok {cfg : AuthConfig} {msg : AuthMsg} {peer : PeerHello}
    (greeted : greet cfg msg = .ok peer) :
    msg = .hello peer.party peer.publicKey peer.nonce peer.ephemeral ∧
      cfg.expected peer.party = some peer.publicKey := by
  cases msg with
  | proof signature => cases greeted
  | hello party publicKey nonce ephemeral =>
      simp only [greet] at greeted
      split at greeted
      · cases greeted
      · next expected found =>
          split at greeted
          · cases greeted
          · next same =>
              cases greeted
              exact ⟨rfl, found.trans (congrArg some (not_not.mp same))⟩

theorem finish_ok {drawn : Drawn} {peer : PeerHello} {msg : AuthMsg} {info : PeerInfo}
    {session : Session} (done : finish drawn peer msg = .ok (info, session)) :
    ∃ signature, ∃ ephemeral : Vector UInt8 32,
      msg = .proof signature ∧ peer.ephemeral = ephemeral.toList ∧
      verifyBytes peer.publicKey
        (proofMessage drawn.nonce.toList peer.party peer.ephemeral) signature = .ok () ∧
      info = { party := peer.party, publicKey := peer.publicKey } ∧
      session = buildSession (X25519.diffieHellman drawn.ephemeral ephemeral)
        drawn.ephemeralPublic peer.ephemeral := by
  cases msg with
  | hello party publicKey nonce ephemeral => cases done
  | proof signature =>
      simp only [finish] at done
      split at done
      · cases done
      · next verified =>
          split at done
          · cases done
          · next ephemeral sized =>
              cases done
              exact ⟨signature, ephemeral, rfl, exactly_eq sized, verified, rfl, rfl⟩

/-- What a run that completes has read and checked. -/
theorem performHandshake_ok {cfg : AuthConfig} {drawn : Drawn}
    {first second : Except AuthError AuthMsg} {info : PeerInfo} {session : Session}
    (done : (performHandshake cfg drawn first second).2 = .ok (info, session)) :
    ∃ nonce signature, ∃ ephemeral : Vector UInt8 32,
      first = .ok (.hello info.party info.publicKey nonce ephemeral.toList) ∧
      second = .ok (.proof signature) ∧
      cfg.expected info.party = some info.publicKey ∧
      verifyBytes info.publicKey
        (proofMessage drawn.nonce.toList info.party ephemeral.toList) signature = .ok () ∧
      session = buildSession (X25519.diffieHellman drawn.ephemeral ephemeral)
        drawn.ephemeralPublic ephemeral.toList := by
  cases first with
  | error error => cases done
  | ok msg =>
      cases second with
      | error error =>
          simp only [performHandshake] at done
          split at done <;> cases done
      | ok answer =>
          simp only [performHandshake] at done
          split at done
          · cases done
          · next peer greeted =>
              obtain ⟨read, known⟩ := greet_ok greeted
              obtain ⟨signature, ephemeral, answered, sized, verified, rfl, made⟩ :=
                finish_ok done
              rw [sized] at read verified made
              exact ⟨peer.nonce, signature, ephemeral, congrArg Except.ok read,
                congrArg Except.ok answered, known, verified, made⟩

/-- The secret two runs share. -/
def shared (drawn drawn' : Drawn) : Vector UInt8 32 :=
  X25519.diffieHellman drawn.ephemeral (X25519Public.publicKey drawn'.ephemeral)

omit [Ed25519] [Blake3Xof] in
theorem shared_comm (drawn drawn' : Drawn) : shared drawn drawn' = shared drawn' drawn :=
  X25519Public.agree _ _

/-- The session of a run that read the ephemeral key of another. -/
theorem session_eq {cfg : AuthConfig} {drawn drawn' : Drawn} {party : String}
    {publicKey nonce : List UInt8} {second : Except AuthError AuthMsg} {info : PeerInfo}
    {session : Session}
    (done : (performHandshake cfg drawn
      (.ok (.hello party publicKey nonce drawn'.ephemeralPublic)) second).2 =
        .ok (info, session)) :
    session =
      buildSession (shared drawn drawn') drawn.ephemeralPublic drawn'.ephemeralPublic := by
  obtain ⟨_, _, ephemeral, read, _, _, _, rfl⟩ := performHandshake_ok done
  simp only [Except.ok.injEq, AuthMsg.hello.injEq] at read
  obtain ⟨_, _, _, same⟩ := read
  have known : X25519Public.publicKey drawn'.ephemeral = ephemeral := Vector.toList_inj.mp same
  rw [shared, known, Drawn.ephemeralPublic, Drawn.ephemeralPublic, known]

/-- Two completed runs that read each other's ephemeral keys have mirrored sessions, and each
opens the other's frames in order and at no other place. -/
theorem sessions_ordered [ChaCha20Poly1305] {cfg cfg' : AuthConfig} {drawn drawn' : Drawn}
    {party party' : String} {publicKey publicKey' nonce nonce' : List UInt8}
    {second second' : Except AuthError AuthMsg} {info info' : PeerInfo}
    {session session' : Session}
    (distinct : drawn.ephemeralPublic ≠ drawn'.ephemeralPublic)
    (done : (performHandshake cfg drawn
      (.ok (.hello party publicKey nonce drawn'.ephemeralPublic)) second).2 =
        .ok (info, session))
    (done' : (performHandshake cfg' drawn'
      (.ok (.hello party' publicKey' nonce' drawn.ephemeralPublic)) second').2 =
        .ok (info', session'))
    (kdf : IdealKdf
      {kdfInput (shared drawn drawn').toList drawn.ephemeralPublic drawn'.ephemeralPublic,
        kdfInput (shared drawn drawn').toList drawn'.ephemeralPublic drawn.ephemeralPublic})
    (strict : StrictAead) :
    session.sendKey = session'.recvKey ∧ session.recvKey = session'.sendKey ∧
      session.sendKey ≠ session.recvKey ∧ session'.sendKey ≠ session'.recvKey ∧
      Ordered session session' ∧ Ordered session' session := by
  rw [session_eq done, session_eq done', ← shared_comm drawn drawn']
  obtain ⟨sending, receiving⟩ := buildSession_mirrored (shared drawn drawn') distinct
  have apart := buildSession_apart (shared drawn drawn') kdf
  have apart' := apart
  rw [sending, receiving] at apart'
  refine ⟨sending, receiving, apart, apart'.symm, ?_, ?_⟩
  · exact ordered strict sending (buildSession_fresh _ _ _).1 (buildSession_fresh _ _ _).2 apart
  · exact ordered strict receiving.symm (buildSession_fresh _ _ _).1 (buildSession_fresh _ _ _).2
      apart'.symm

/-- A run that reads the messages of an honest run which has read its own hello completes. -/
theorem performHandshake_honest {cfg cfg' : AuthConfig} {drawn drawn' : Drawn} {peer : PeerHello}
    (known : cfg.expected cfg'.party = some cfg'.identity.publicKey)
    (challenged : peer.nonce = drawn.nonce.toList) :
    (performHandshake cfg drawn (.ok (hello cfg' drawn')) (.ok (proof cfg' drawn' peer))).2 =
      .ok ({ party := cfg'.party, publicKey := cfg'.identity.publicKey },
        buildSession (shared drawn drawn') drawn.ephemeralPublic drawn'.ephemeralPublic) := by
  have verified : verifyBytes cfg'.identity.publicKey
      (proofMessage drawn.nonce.toList cfg'.party drawn'.ephemeralPublic)
      (cfg'.identity.signBytes
        (proofMessage peer.nonce cfg'.party drawn'.ephemeralPublic)) = .ok () := by
    rw [challenged]
    exact verifyBytes_signBytes _ _
  simp only [performHandshake, hello, greet, known, ne_eq, not_true_eq_false, if_false, proof,
    finish, verified]
  rw [Drawn.ephemeralPublic, exactly_toList]
  rfl

end Completed

/-! ### A session -/

/-- A cipher that prepends its key and its nonce, to evaluate the model on concrete inputs. -/
@[reducible] def numbered : ChaCha20Poly1305 where
  encrypt key nonce _ message := (key ++ nonce).toList ++ message
  decrypt key nonce _ ciphertext :=
    if ciphertext.take 44 = (key ++ nonce).toList then some (ciphertext.drop 44) else none
  decrypt_encrypt key nonce _ message := by
    have front : ((key ++ nonce).toList ++ message).take 44 = (key ++ nonce).toList :=
      List.take_left' (by simp)
    have back : ((key ++ nonce).toList ++ message).drop 44 = message :=
      List.drop_left' (by simp)
    rw [if_pos front, back]

/-- Two polynomial digests, to evaluate the model on concrete inputs. -/
@[reducible] def polynomialXof : Blake3Xof where
  fill bytes := Blake3.polynomial.digest (0 :: bytes) ++ Blake3.polynomial.digest (1 :: bytes)

theorem strictAead_numbered : @StrictAead numbered := by
  intro key other nonce different _ message apart
  have front : ((key ++ nonce).toList ++ message).take 44 = (key ++ nonce).toList :=
    List.take_left' (by simp)
  apply if_neg
  intro same
  have lists := front.symm.trans same
  rw [Vector.toList_append, Vector.toList_append] at lists
  obtain ⟨keys, nonces⟩ := List.append_inj lists (by simp)
  rcases apart with keyApart | nonceApart
  · exact keyApart (Vector.toList_inj.mp keys)
  · exact nonceApart (Vector.toList_inj.mp nonces)

section Session

attribute [local instance] Ed25519.keyed X25519.masked X25519Public.masked polynomialXof numbered

def aliceKey : PeerKey :=
  { party := "alice"
    publicKey := List.replicate 32 1 }

def bobKey : PeerKey :=
  { party := "bob"
    publicKey := List.replicate 32 2 }

def aliceConfig : AuthConfig :=
  { party := "alice"
    secretSeed := Vector.replicate 32 1
    peers := [aliceKey, bobKey] }

def bobConfig : AuthConfig :=
  { party := "bob"
    secretSeed := Vector.replicate 32 2
    peers := [aliceKey, bobKey] }

def aliceDrawn : Drawn :=
  { nonce := Vector.replicate 32 3
    ephemeral := Vector.replicate 32 5 }

def bobDrawn : Drawn :=
  { nonce := Vector.replicate 32 4
    ephemeral := Vector.replicate 32 6 }

def aliceSession : Session :=
  buildSession (shared aliceDrawn bobDrawn) aliceDrawn.ephemeralPublic bobDrawn.ephemeralPublic

def bobSession : Session :=
  buildSession (shared bobDrawn aliceDrawn) bobDrawn.ephemeralPublic aliceDrawn.ephemeralPublic

/-- The peer's hello as a run reads it. -/
def greeting (cfg : AuthConfig) (drawn : Drawn) : PeerHello :=
  { party := cfg.party
    publicKey := cfg.identity.publicKey
    nonce := drawn.nonce.toList
    ephemeral := drawn.ephemeralPublic }

theorem alice_done :
    (performHandshake aliceConfig aliceDrawn (.ok (hello bobConfig bobDrawn))
      (.ok (proof bobConfig bobDrawn (greeting aliceConfig aliceDrawn)))).2 =
        .ok ({ party := "bob", publicKey := List.replicate 32 2 }, aliceSession) :=
  performHandshake_honest (by decide) rfl

theorem bob_done :
    (performHandshake bobConfig bobDrawn (.ok (hello aliceConfig aliceDrawn))
      (.ok (proof aliceConfig aliceDrawn (greeting bobConfig bobDrawn)))).2 =
        .ok ({ party := "alice", publicKey := List.replicate 32 1 }, bobSession) :=
  performHandshake_honest (by decide) rfl

theorem aliceSession_mirrored :
    aliceSession.sendKey = bobSession.recvKey ∧ aliceSession.recvKey = bobSession.sendKey := by
  unfold aliceSession bobSession
  rw [shared_comm bobDrawn aliceDrawn]
  exact buildSession_mirrored _ (by decide)

theorem session_idealKdf :
    IdealKdf
      {kdfInput (shared aliceDrawn bobDrawn).toList aliceDrawn.ephemeralPublic
        bobDrawn.ephemeralPublic,
      kdfInput (shared aliceDrawn bobDrawn).toList bobDrawn.ephemeralPublic
        aliceDrawn.ephemeralPublic} := by
  refine @idealKdf_of_nodup _ _
    [kdfInput (shared aliceDrawn bobDrawn).toList aliceDrawn.ephemeralPublic
        bobDrawn.ephemeralPublic,
      kdfInput (shared aliceDrawn bobDrawn).toList bobDrawn.ephemeralPublic
        aliceDrawn.ephemeralPublic] ?_ (by decide +kernel)
  rintro input (rfl | rfl)
  · exact List.mem_cons_self
  · exact List.mem_cons_of_mem _ (List.mem_singleton_self _)

theorem sessions_ordered_alice :
    (aliceSession.sendKey = bobSession.recvKey ∧ aliceSession.recvKey = bobSession.sendKey ∧
      aliceSession.sendKey ≠ aliceSession.recvKey ∧ bobSession.sendKey ≠ bobSession.recvKey ∧
      Ordered aliceSession bobSession ∧ Ordered bobSession aliceSession) :=
  sessions_ordered (by decide) alice_done bob_done session_idealKdf strictAead_numbered

/-- After `2 ^ 64` attempts the counter is back at zero, and the first frame opens again. -/
theorem frame_opens_again :
    (performHandshake aliceConfig aliceDrawn (.ok (hello bobConfig bobDrawn))
      (.ok (proof bobConfig bobDrawn (greeting aliceConfig aliceDrawn)))).2 =
        .ok ({ party := "bob", publicKey := List.replicate 32 2 }, aliceSession) ∧
    (performHandshake bobConfig bobDrawn (.ok (hello aliceConfig aliceDrawn))
      (.ok (proof aliceConfig aliceDrawn (greeting bobConfig bobDrawn)))).2 =
        .ok ({ party := "alice", publicKey := List.replicate 32 1 }, bobSession) ∧
    StrictAead ∧
    ¬ ∀ (sends receives : List Use) (index attempt : Nat) (frame : List UInt8),
      (sends.filterMap Use.plaintext?).length < 2 ^ 64 →
      (traffic (.whole aliceSession) sends).1[index]? = some frame →
      (receives.filterMap Use.ciphertext?)[attempt]? = some frame →
      attempt ≠ index →
        (traffic (.whole bobSession) receives).2[attempt]? =
          some (Except.error AuthError.decryption) := by
  refine ⟨alice_done, bob_done, strictAead_numbered, ?_⟩
  intro refused
  obtain ⟨length, isLength⟩ : ∃ length, length = 2 ^ 64 := ⟨_, rfl⟩
  have sent : (traffic (.whole aliceSession) [.send [7]]).1[0]? =
      some (frameAt aliceSession.sendKey 0 [7]) := by
    rw [traffic_eq]
    rfl
  have read : ((List.replicate length (Use.receive []) ++
      [Use.receive (frameAt aliceSession.sendKey 0 [7])]).filterMap Use.ciphertext?)[length]? =
        some (frameAt aliceSession.sendKey 0 [7]) := by
    rw [List.filterMap_append, List.filterMap_replicate]
    simp [Use.ciphertext?]
  have result := refused _ _ 0 length _ (by decide) sent read (by omega)
  have numbers : bobSession.recvCounter + UInt64.ofNat length = 0 := by
    apply UInt64.toNat_inj.mp
    subst isLength
    rfl
  rw [traffic_result read, numbers, aliceSession_mirrored.1, openAt_frameAt] at result
  cases result

end Session

end Auth

end Veilux
