/-
Handshakes that interleave on a network in other hands.  Every message a run reads is
chosen by an attacker, who may hold keys of registered parties; a signature under a key it
does not hold is one that some run has made.
-/

import Veilux.Kernel.Binding
import Veilux.Lib.Run
import Veilux.Network.SessionOrder

namespace Veilux

namespace Auth

open Bytes (utf8)

/-! ### What is signed and derived -/

/-- The signer's name and its ephemeral key can be read off the end of what it signs, whatever
the challenge is. -/
theorem proofMessage_injective {nonce nonce' : List UInt8} {party party' : String}
    {ephemeral ephemeral' : Vector UInt8 32}
    (same : proofMessage nonce party ephemeral.toList =
      proofMessage nonce' party' ephemeral'.toList) :
    party = party' ∧ ephemeral = ephemeral' := by
  unfold proofMessage at same
  obtain ⟨fronts, backs⟩ := List.append_inj' same (by simp)
  obtain ⟨_, ephemerals⟩ := List.cons.inj backs
  simp only [List.append_assoc, List.cons_append, List.append_cancel_left_eq, List.cons.injEq,
    true_and] at fronts
  obtain ⟨_, parties⟩ := Keys.split_last (ff_notMem_utf8 _) (ff_notMem_utf8 _) fronts
  exact ⟨Bytes.utf8_injective parties, Vector.toList_inj.mp ephemerals⟩

/-- What the keys of a run are derived from. -/
def sessionInput (shared : Vector UInt8 32) (myEph peerEph : List UInt8) : List UInt8 :=
  if myEph < peerEph then kdfInput shared.toList myEph peerEph
  else kdfInput shared.toList peerEph myEph

theorem kdfInput_injective {shared shared' initiator initiator' responder responder' :
    Vector UInt8 32}
    (same : kdfInput shared.toList initiator.toList responder.toList =
      kdfInput shared'.toList initiator'.toList responder'.toList) :
    initiator = initiator' ∧ responder = responder' := by
  unfold kdfInput at same
  obtain ⟨fronts, responders⟩ := List.append_inj' same (by simp)
  obtain ⟨_, initiators⟩ := List.append_inj' fronts (by simp)
  exact ⟨Vector.toList_inj.mp initiators, Vector.toList_inj.mp responders⟩

theorem sessionInput_injective {shared shared' mine mine' peer peer' : Vector UInt8 32}
    (same : sessionInput shared mine.toList peer.toList =
      sessionInput shared' mine'.toList peer'.toList) :
    mine = mine' ∧ peer = peer' ∨ mine = peer' ∧ peer = mine' := by
  unfold sessionInput at same
  split at same <;> split at same
  · exact .inl (kdfInput_injective same)
  · exact .inr (kdfInput_injective same)
  · exact .inr (kdfInput_injective same).symm
  · exact .inl (kdfInput_injective same).symm

/-- The two sessions have the same keys, for the same directions or for opposite ones. -/
def SameKeys (session session' : Session) : Prop :=
  session.sendKey = session'.sendKey ∧ session.recvKey = session'.recvKey ∨
    session.sendKey = session'.recvKey ∧ session.recvKey = session'.sendKey

section Derived

variable [Blake3Xof]

theorem IdealKdf.mono {inputs more : Set (List UInt8)} (ideal : IdealKdf more)
    (subset : inputs ⊆ more) : IdealKdf inputs :=
  fun left leftInside right rightInside =>
    ideal left (subset leftInside) right (subset rightInside)

theorem buildSession_keys (shared : Vector UInt8 32) (myEph peerEph : List UInt8) :
    ∃ half,
      (buildSession shared myEph peerEph).sendKey =
        keyAt (Blake3Xof.fill (sessionInput shared myEph peerEph)) half ∧
      (buildSession shared myEph peerEph).recvKey =
        keyAt (Blake3Xof.fill (sessionInput shared myEph peerEph)) (!half) := by
  unfold buildSession sessionInput
  split
  · exact ⟨false, rfl, rfl⟩
  · exact ⟨true, rfl, rfl⟩

/-- Sessions with the same keys have been built from the same two ephemeral keys. -/
theorem sameKeys_ephemerals {shared shared' mine mine' peer peer' : Vector UInt8 32}
    (ideal : IdealKdf {sessionInput shared mine.toList peer.toList,
      sessionInput shared' mine'.toList peer'.toList})
    (same : SameKeys (buildSession shared mine.toList peer.toList)
      (buildSession shared' mine'.toList peer'.toList)) :
    mine = mine' ∧ peer = peer' ∨ mine = peer' ∧ peer = mine' := by
  obtain ⟨half, sendKey, _⟩ := buildSession_keys shared mine.toList peer.toList
  obtain ⟨half', sendKey', recvKey'⟩ := buildSession_keys shared' mine'.toList peer'.toList
  have other := Set.mem_insert_of_mem (sessionInput shared mine.toList peer.toList)
    (Set.mem_singleton (sessionInput shared' mine'.toList peer'.toList))
  apply sessionInput_injective
  rcases same with ⟨sending, _⟩ | ⟨crossing, _⟩
  · rw [sendKey, sendKey'] at sending
    exact (ideal _ (Set.mem_insert _ _) _ other _ _ sending).1
  · rw [sendKey, recvKey'] at crossing
    exact (ideal _ (Set.mem_insert _ _) _ other _ _ crossing).1

end Derived

/-! ### Runs in progress -/

/-- A run of the handshake: what it has read of the peer's hello, and how it ended. -/
structure Exchange where
  cfg : AuthConfig
  drawn : Drawn
  peer : Option PeerHello
  result : Option (Except AuthError (PeerInfo × Session))
  deriving DecidableEq

inductive Event where
  | start (cfg : AuthConfig) (drawn : Drawn)
  | deliver (index : Nat) (input : Except AuthError AuthMsg)
  deriving DecidableEq

section Runs

variable [Ed25519] [X25519] [X25519Public] [Blake3Xof]

def Exchange.start (cfg : AuthConfig) (drawn : Drawn) : Exchange :=
  { cfg := cfg
    drawn := drawn
    peer := none
    result := none }

/-- A run that has ended reads nothing more. -/
def Exchange.read (run : Exchange) (input : Except AuthError AuthMsg) : Exchange :=
  match run.result with
  | some _ => run
  | none =>
      match input with
      | .error error => { run with result := some (.error error) }
      | .ok msg =>
          match run.peer with
          | none =>
              match greet run.cfg msg with
              | .error error => { run with result := some (.error error) }
              | .ok peer => { run with peer := some peer }
          | some peer => { run with result := some (finish run.drawn peer msg) }

/-- The messages a run has written. -/
def Exchange.written (run : Exchange) : List AuthMsg :=
  match run.peer with
  | none => [hello run.cfg run.drawn]
  | some peer => [hello run.cfg run.drawn, proof run.cfg run.drawn peer]

/-- A run that reads two inputs does what the handshake does on them. -/
theorem read_performHandshake (cfg : AuthConfig) (drawn : Drawn)
    (first second : Except AuthError AuthMsg) :
    (((Exchange.start cfg drawn).read first).read second).written =
        (performHandshake cfg drawn first second).1 ∧
      (((Exchange.start cfg drawn).read first).read second).result =
        some (performHandshake cfg drawn first second).2 := by
  cases first with
  | error error => exact ⟨rfl, rfl⟩
  | ok msg =>
      cases greeted : greet cfg msg with
      | error error =>
          simp [Exchange.start, Exchange.read, Exchange.written, performHandshake, greeted]
      | ok peer =>
          cases second <;> simp [Exchange.start, Exchange.read, Exchange.written, performHandshake, greeted]

def step (runs : List Exchange) : Event → List Exchange
  | .start cfg drawn => runs ++ [.start cfg drawn]
  | .deliver index input =>
      match runs[index]? with
      | none => runs
      | some run => runs.set index (run.read input)

/-! ### The network -/

/-- The run has signed the message. -/
def Exchange.Signed (run : Exchange) (publicKey message : List UInt8) : Prop :=
  run.cfg.identity.publicKey = publicKey ∧
    ∃ peer, run.peer = some peer ∧
      message = proofMessage peer.nonce run.cfg.party run.drawn.ephemeralPublic

/-- Ephemeral keys are fresh, and a signature that passes under a key the attacker does not
hold was made by a run. -/
def Permitted (held : List UInt8 → Prop) (runs : List Exchange) : Event → Prop
  | .start _ drawn => ∀ run ∈ runs, run.drawn.ephemeralPublic ≠ drawn.ephemeralPublic
  | .deliver index input =>
      ∀ run peer signature, runs[index]? = some run → run.peer = some peer →
        input = .ok (.proof signature) →
        verifyBytes peer.publicKey
          (proofMessage run.drawn.nonce.toList peer.party peer.ephemeral) signature = .ok () →
        held peer.publicKey ∨
          ∃ signer ∈ runs, signer.Signed peer.publicKey
            (proofMessage run.drawn.nonce.toList peer.party peer.ephemeral)

/-- The input is what the run derives its keys from. -/
def Exchange.Derives (run : Exchange) (input : List UInt8) : Prop :=
  ∃ peer, run.peer = some peer ∧ ∃ ephemeral : Vector UInt8 32,
    peer.ephemeral = ephemeral.toList ∧
    input = sessionInput (X25519.diffieHellman run.drawn.ephemeral ephemeral)
      run.drawn.ephemeralPublic ephemeral.toList

/-! ### What holds on every run of the network -/

/-- A run that has completed has read a registered key; it belongs to the attacker or to a run
that has signed the ephemeral key the session is built from. -/
def Exchange.Authentic (held : List UInt8 → Prop) (runs : List Exchange) (run : Exchange) : Prop :=
  ∀ info session, run.result = some (.ok (info, session)) →
    ∃ peer, ∃ ephemeral : Vector UInt8 32,
      run.peer = some peer ∧ peer.ephemeral = ephemeral.toList ∧
      session = buildSession (X25519.diffieHellman run.drawn.ephemeral ephemeral)
        run.drawn.ephemeralPublic ephemeral.toList ∧
      run.cfg.expected info.party = some info.publicKey ∧
      (held info.publicKey ∨
        ∃ signer ∈ runs, signer.Signed info.publicKey
          (proofMessage run.drawn.nonce.toList info.party ephemeral.toList))

structure Sound (held : List UInt8 → Prop) (runs : List Exchange) : Prop where
  fresh : (runs.map fun run => run.drawn.ephemeralPublic).Nodup
  greeted : ∀ run ∈ runs, ∀ peer, run.peer = some peer →
    run.cfg.expected peer.party = some peer.publicKey
  authentic : ∀ run ∈ runs, run.Authentic held runs

/-- What reading does to a run. -/
theorem read_cases (run : Exchange) (input : Except AuthError AuthMsg) :
    run.read input = run ∨
    (∃ error, run.read input = { run with result := some (.error error) }) ∨
    (∃ msg peer, run.result = none ∧ run.peer = none ∧ greet run.cfg msg = .ok peer ∧
      run.read input = { run with peer := some peer }) ∨
    ∃ msg peer, run.result = none ∧ run.peer = some peer ∧ input = .ok msg ∧
      run.read input = { run with result := some (finish run.drawn peer msg) } := by
  unfold Exchange.read
  cases ended : run.result with
  | some result => exact .inl rfl
  | none =>
      cases input with
      | error error => exact .inr (.inl ⟨error, rfl⟩)
      | ok msg =>
          cases known : run.peer with
          | some peer => exact .inr (.inr (.inr ⟨msg, peer, rfl, rfl, rfl, rfl⟩))
          | none =>
              cases greeted : greet run.cfg msg with
              | error error =>
                  refine .inr (.inl ⟨error, ?_⟩)
                  simp only [greeted]
              | ok peer =>
                  refine .inr (.inr (.inl ⟨msg, peer, rfl, rfl, greeted, ?_⟩))
                  simp only [greeted]

theorem read_kept (run : Exchange) (input : Except AuthError AuthMsg) :
    (run.read input).cfg = run.cfg ∧ (run.read input).drawn = run.drawn ∧
      ∀ peer, run.peer = some peer → (run.read input).peer = some peer := by
  rcases read_cases run input with same | ⟨error, same⟩ | ⟨msg, peer, _, unread, _, same⟩ |
    ⟨msg, peer, _, _, _, same⟩
  · rw [same]
    exact ⟨rfl, rfl, fun _ known => known⟩
  · rw [same]
    exact ⟨rfl, rfl, fun _ known => known⟩
  · rw [same]
    refine ⟨rfl, rfl, fun other known => ?_⟩
    rw [unread] at known
    cases known
  · rw [same]
    exact ⟨rfl, rfl, fun _ known => known⟩

theorem Exchange.Signed.read {run : Exchange} {publicKey message : List UInt8}
    (signed : run.Signed publicKey message) (input : Except AuthError AuthMsg) :
    (run.read input).Signed publicKey message := by
  obtain ⟨cfg, drawn, peers⟩ := read_kept run input
  obtain ⟨keyed, peer, known, rfl⟩ := signed
  refine ⟨?_, peer, peers peer known, ?_⟩
  · rw [cfg]
    exact keyed
  · rw [cfg, drawn]

/-- What a run has signed stays signed. -/
theorem step_signed (runs : List Exchange) (event : Event) {publicKey message : List UInt8}
    (signed : ∃ signer ∈ runs, signer.Signed publicKey message) :
    ∃ signer ∈ step runs event, signer.Signed publicKey message := by
  obtain ⟨signer, member, made⟩ := signed
  cases event with
  | start cfg drawn => exact ⟨signer, List.mem_append_left _ member, made⟩
  | deliver index input =>
      simp only [step]
      split
      · exact ⟨signer, member, made⟩
      · next run found =>
          obtain ⟨position, placed⟩ := List.getElem?_of_mem member
          by_cases same : position = index
          · subst same
            obtain rfl := Option.some.inj (placed.symm.trans found)
            have inside := (List.getElem?_eq_some_iff.mp placed).1
            exact ⟨signer.read input, List.mem_set inside _, made.read input⟩
          · refine ⟨signer, List.mem_of_getElem? (i := position) ?_, made⟩
            rw [List.getElem?_set_ne (Ne.symm same)]
            exact placed

theorem Exchange.Authentic.later {held : List UInt8 → Prop} {runs : List Exchange}
    {run : Exchange} (authentic : run.Authentic held runs) (event : Event) :
    run.Authentic held (step runs event) := by
  intro info session done
  obtain ⟨peer, ephemeral, read, sized, made, known, signed⟩ := authentic info session done
  exact ⟨peer, ephemeral, read, sized, made, known, signed.imp_right (step_signed runs event)⟩

theorem sound_start {held : List UInt8 → Prop} {runs : List Exchange} {cfg : AuthConfig}
    {drawn : Drawn} (sound : Sound held runs) (fresh : Permitted held runs (.start cfg drawn)) :
    Sound held (step runs (.start cfg drawn)) where
  fresh := by
    simp only [step, List.map_append, List.map_cons, List.map_nil]
    rw [List.nodup_append]
    refine ⟨sound.fresh, List.nodup_singleton _, ?_⟩
    intro key inside other last
    obtain ⟨run, member, rfl⟩ := List.mem_map.mp inside
    rw [List.mem_singleton.mp last]
    exact fresh run member
  greeted run member peer known := by
    rcases List.mem_append.mp member with earlier | last
    · exact sound.greeted run earlier peer known
    · rw [List.mem_singleton.mp last] at known
      cases known
  authentic run member := by
    rcases List.mem_append.mp member with earlier | last
    · exact (sound.authentic run earlier).later _
    · intro info session done
      rw [List.mem_singleton.mp last] at done
      cases done

theorem read_authentic {held : List UInt8 → Prop} {runs : List Exchange} {index : Nat}
    {run : Exchange} {input : Except AuthError AuthMsg} (sound : Sound held runs)
    (found : runs[index]? = some run) (permitted : Permitted held runs (.deliver index input)) :
    (run.read input).Authentic held runs := by
  have member := List.mem_of_getElem? found
  rcases read_cases run input with same | ⟨error, same⟩ | ⟨msg, peer, running, _, _, same⟩ |
    ⟨msg, peer, _, known, rfl, same⟩
  · rw [same]
    exact sound.authentic run member
  · intro info session done
    rw [same] at done
    cases done
  · intro info session done
    rw [same] at done
    rw [running] at done
    cases done
  · intro info session done
    rw [same] at done ⊢
    obtain ⟨signature, ephemeral, rfl, sized, verified, rfl, rfl⟩ :=
      finish_ok (Option.some.inj done)
    refine ⟨peer, ephemeral, known, sized, ?_, sound.greeted run member peer known, ?_⟩
    · rw [sized]
    · rw [← sized]
      exact permitted run peer signature found known rfl verified

theorem sound_deliver {held : List UInt8 → Prop} {runs : List Exchange} {index : Nat}
    {input : Except AuthError AuthMsg} (sound : Sound held runs)
    (permitted : Permitted held runs (.deliver index input)) :
    Sound held (step runs (.deliver index input)) := by
  cases found : runs[index]? with
  | none =>
      have unchanged : step runs (.deliver index input) = runs := by
        simp only [step, found]
      rw [unchanged]
      exact sound
  | some run =>
      have written : step runs (.deliver index input) = runs.set index (run.read input) := by
        simp only [step, found]
      obtain ⟨cfg, drawn, peers⟩ := read_kept run input
      have member := List.mem_of_getElem? found
      constructor
      · rw [written, List.map_set, drawn]
        have same : (runs.map fun run => run.drawn.ephemeralPublic)[index]? =
            some run.drawn.ephemeralPublic := by
          rw [List.getElem?_map, found]
          rfl
        obtain ⟨inside, value⟩ := List.getElem?_eq_some_iff.mp same
        rw [← value, List.set_getElem_self]
        exact sound.fresh
      · rw [written]
        intro other inside peer known
        rcases List.mem_or_eq_of_mem_set inside with earlier | rfl
        · exact sound.greeted other earlier peer known
        · rw [cfg]
          rcases read_cases run input with same | ⟨error, same⟩ |
            ⟨msg, read, _, _, greeted, same⟩ | ⟨msg, read, _, _, _, same⟩
          · rw [same] at known
            exact sound.greeted run member peer known
          · rw [same] at known
            exact sound.greeted run member peer known
          · rw [same] at known
            obtain rfl := Option.some.inj known
            exact (greet_ok greeted).2
          · rw [same] at known
            exact sound.greeted run member peer known
      · intro other inside
        rw [written] at inside
        rcases List.mem_or_eq_of_mem_set inside with earlier | rfl
        · exact (sound.authentic other earlier).later _
        · exact (read_authentic sound found permitted).later _

theorem sound_run {held : List UInt8 → Prop} {events : List Event}
    (along : Run.Along step (Permitted held) [] events) :
    Sound held (Run.run step [] events) := by
  refine Run.invariant step ?_ ?_ along
  · intro runs event sound permitted
    cases event with
    | start cfg drawn => exact sound_start sound permitted
    | deliver index input => exact sound_deliver sound permitted
  · constructor
    · exact List.nodup_nil
    · intro run member
      cases member
    · intro run member
      cases member

/-- Two runs with one ephemeral key are the same run. -/
theorem Sound.same_run {held : List UInt8 → Prop} {runs : List Exchange}
    (sound : Sound held runs) {run other : Exchange} (member : run ∈ runs)
    (otherMember : other ∈ runs)
    (same : run.drawn.ephemeralPublic = other.drawn.ephemeralPublic) : run = other :=
  List.inj_on_of_nodup_map sound.fresh member otherMember same

/-- Whatever the order of the events: if a run completes with a peer's name, and a run of that
peer completes with the same keys, then that one names the first, or a registered party whose
key the attacker holds. -/
theorem handshake_agreement {held : List UInt8 → Prop} {events : List Event}
    (along : Run.Along step (Permitted held) [] events) {run run' : Exchange}
    (member : run ∈ Run.run step [] events) (member' : run' ∈ Run.run step [] events)
    {info info' : PeerInfo} {session session' : Session}
    (done : run.result = some (.ok (info, session)))
    (done' : run'.result = some (.ok (info', session')))
    (names : info.party = run'.cfg.party)
    (ideal : IdealKdf {input | ∃ other ∈ Run.run step [] events, other.Derives input})
    (same : SameKeys session session') :
    info'.party = run.cfg.party ∨
      held info'.publicKey ∧ run'.cfg.expected info'.party = some info'.publicKey := by
  have sound := sound_run along
  obtain ⟨peer, read, known, sized, rfl, _, _⟩ := sound.authentic run member info session done
  obtain ⟨peer', read', known', sized', rfl, expected, signed⟩ :=
    sound.authentic run' member' info' session' done'
  have derived : IdealKdf {sessionInput (X25519.diffieHellman run.drawn.ephemeral read)
      run.drawn.ephemeralPublic read.toList,
      sessionInput (X25519.diffieHellman run'.drawn.ephemeral read')
        run'.drawn.ephemeralPublic read'.toList} := by
    apply ideal.mono
    intro input inside
    rcases inside with rfl | rfl
    · exact ⟨run, member, peer, known, read, sized, rfl⟩
    · exact ⟨run', member', peer', known', read', sized', rfl⟩
  rcases sameKeys_ephemerals derived same with ⟨mine, _⟩ | ⟨mine, _⟩
  · obtain rfl := sound.same_run member member' (congrArg Vector.toList mine)
    have results := Option.some.inj (done.symm.trans done')
    simp only [Except.ok.injEq, Prod.mk.injEq] at results
    rw [← results.1]
    exact .inl names
  · rcases signed with isHeld | ⟨signer, inside, _, signed, _, message⟩
    · exact .inr ⟨isHeld, expected⟩
    · left
      obtain ⟨party, ephemeral⟩ := proofMessage_injective message
      have own : run = signer :=
        sound.same_run member inside (congrArg Vector.toList (mine.trans ephemeral))
      rw [own]
      exact party

/-! ### Two worlds -/

omit [Blake3Xof] in
theorem permitted_start {held : List UInt8 → Prop} {runs : List Exchange} {cfg : AuthConfig}
    {drawn : Drawn}
    (fresh : ∀ run ∈ runs, run.drawn.ephemeralPublic ≠ drawn.ephemeralPublic) :
    Permitted held runs (.start cfg drawn) :=
  fresh

omit [Blake3Xof] in
theorem permitted_hello {held : List UInt8 → Prop} {runs : List Exchange} {index : Nat}
    {party : String} {publicKey nonce ephemeral : List UInt8} :
    Permitted held runs (.deliver index (.ok (.hello party publicKey nonce ephemeral))) := by
  intro run peer signature _ _ input
  cases input

omit [Blake3Xof] in
theorem permitted_proof {held : List UInt8 → Prop} {runs : List Exchange} {index : Nat}
    {run : Exchange} {peer : PeerHello} {signature : List UInt8}
    (found : runs[index]? = some run) (known : run.peer = some peer)
    (covered : held peer.publicKey ∨ ∃ signer ∈ runs, signer.Signed peer.publicKey
      (proofMessage run.drawn.nonce.toList peer.party peer.ephemeral)) :
    Permitted held runs (.deliver index (.ok (.proof signature))) := by
  intro other otherPeer _ otherFound otherKnown _ _
  obtain rfl := Option.some.inj (found.symm.trans otherFound)
  obtain rfl := Option.some.inj (known.symm.trans otherKnown)
  exact covered

end Runs

section Worlds

attribute [local instance] Ed25519.keyed X25519.masked X25519Public.masked polynomialXof

/-- A run that has read the peer's hello and ended with a session. -/
def completed (cfg : AuthConfig) (drawn : Drawn) (peer : PeerHello) (session : Session) :
    Exchange :=
  { cfg := cfg
    drawn := drawn
    peer := some peer
    result := some (.ok ({ party := peer.party, publicKey := peer.publicKey }, session)) }

/-- A run that has read the peer's hello and waits for its proof. -/
def waiting (cfg : AuthConfig) (drawn : Drawn) (peer : PeerHello) : Exchange :=
  { cfg := cfg
    drawn := drawn
    peer := some peer
    result := none }

def honestEvents : List Event :=
  [.start aliceConfig aliceDrawn, .start bobConfig bobDrawn,
    .deliver 0 (.ok (hello bobConfig bobDrawn)), .deliver 1 (.ok (hello aliceConfig aliceDrawn)),
    .deliver 0 (.ok (proof bobConfig bobDrawn (greeting aliceConfig aliceDrawn))),
    .deliver 1 (.ok (proof aliceConfig aliceDrawn (greeting bobConfig bobDrawn)))]

theorem read_hello {cfg : AuthConfig} {drawn : Drawn} {peer : PeerHello}
    (known : cfg.expected peer.party = some peer.publicKey) :
    (Exchange.start cfg drawn).read
        (.ok (.hello peer.party peer.publicKey peer.nonce peer.ephemeral)) =
      waiting cfg drawn peer := by
  simp only [Exchange.start, Exchange.read, greet, known, ne_eq, not_true_eq_false, if_false]
  rfl

theorem read_proof {cfg : AuthConfig} {drawn drawn' : Drawn} {peer : PeerHello}
    {signer : PartyIdentity} (signs : peer.publicKey = signer.publicKey)
    (ephemeral : peer.ephemeral = drawn'.ephemeralPublic) :
    (waiting cfg drawn peer).read (.ok (.proof
        (signer.signBytes (proofMessage drawn.nonce.toList peer.party peer.ephemeral)))) =
      completed cfg drawn peer
        (buildSession (shared drawn drawn') drawn.ephemeralPublic drawn'.ephemeralPublic) := by
  have verified := verifyBytes_signBytes signer
    (proofMessage drawn.nonce.toList peer.party peer.ephemeral)
  simp only [waiting, Exchange.read, finish, signs, verified]
  rw [ephemeral, Drawn.ephemeralPublic, exactly_toList, ← Drawn.ephemeralPublic, ← signs]
  rfl

theorem honest_greeted : Run.run step [] (honestEvents.take 4) =
    [waiting aliceConfig aliceDrawn (greeting bobConfig bobDrawn),
      waiting bobConfig bobDrawn (greeting aliceConfig aliceDrawn)] := by
  have alice : aliceConfig.expected (greeting bobConfig bobDrawn).party =
      some (greeting bobConfig bobDrawn).publicKey := by decide
  have bob : bobConfig.expected (greeting aliceConfig aliceDrawn).party =
      some (greeting aliceConfig aliceDrawn).publicKey := by decide
  exact congrArg₂ (fun alice bob => [alice, bob]) (read_hello alice) (read_hello bob)

theorem alice_completes {cfg : AuthConfig} {peer : PeerHello}
    (challenged : peer.nonce = aliceDrawn.nonce.toList) :
    (waiting aliceConfig aliceDrawn (greeting cfg bobDrawn)).read
        (.ok (proof cfg bobDrawn peer)) =
      completed aliceConfig aliceDrawn (greeting cfg bobDrawn) aliceSession := by
  unfold proof
  rw [challenged]
  exact read_proof rfl rfl

theorem bob_completes :
    (waiting bobConfig bobDrawn (greeting aliceConfig aliceDrawn)).read
        (.ok (proof aliceConfig aliceDrawn (greeting bobConfig bobDrawn))) =
      completed bobConfig bobDrawn (greeting aliceConfig aliceDrawn) bobSession :=
  read_proof rfl rfl

theorem honest_world : Run.run step [] honestEvents =
    [completed aliceConfig aliceDrawn (greeting bobConfig bobDrawn) aliceSession,
      completed bobConfig bobDrawn (greeting aliceConfig aliceDrawn) bobSession] := by
  calc Run.run step [] honestEvents
      = Run.run step (Run.run step [] (honestEvents.take 4)) (honestEvents.drop 4) := rfl
    _ = [(waiting aliceConfig aliceDrawn (greeting bobConfig bobDrawn)).read
            (.ok (proof bobConfig bobDrawn (greeting aliceConfig aliceDrawn))),
          (waiting bobConfig bobDrawn (greeting aliceConfig aliceDrawn)).read
            (.ok (proof aliceConfig aliceDrawn (greeting bobConfig bobDrawn)))] := by
      rw [honest_greeted]
      rfl
    _ = _ := by rw [alice_completes rfl, bob_completes]

/-- Both sides of a session between these two draws derive it from one input. -/
theorem idealKdf_pair {cfg cfg' : AuthConfig} {peer peer' : PeerHello}
    {session session' : Session} (read : peer.ephemeral = bobDrawn.ephemeralPublic)
    (read' : peer'.ephemeral = aliceDrawn.ephemeralPublic) :
    IdealKdf {input | ∃ other ∈ [completed cfg aliceDrawn peer session,
      completed cfg' bobDrawn peer' session'], other.Derives input} := by
  have single : ∀ input, (∃ other ∈ [completed cfg aliceDrawn peer session,
      completed cfg' bobDrawn peer' session'], other.Derives input) →
        input = sessionInput (shared aliceDrawn bobDrawn) aliceDrawn.ephemeralPublic
          bobDrawn.ephemeralPublic := by
    rintro input ⟨other, inside, known, found, ephemeral, sized, rfl⟩
    rcases List.mem_cons.mp inside with rfl | inside
    · obtain rfl := Option.some.inj found
      obtain rfl := Vector.toList_inj.mp (sized.symm.trans read)
      rfl
    · obtain rfl := List.mem_singleton.mp inside
      obtain rfl := Option.some.inj found
      obtain rfl := Vector.toList_inj.mp (sized.symm.trans read')
      change sessionInput (shared bobDrawn aliceDrawn) bobDrawn.ephemeralPublic
        aliceDrawn.ephemeralPublic = _
      decide +kernel
  refine @idealKdf_of_nodup _ _ [sessionInput (shared aliceDrawn bobDrawn)
    aliceDrawn.ephemeralPublic bobDrawn.ephemeralPublic] ?_ (by decide +kernel)
  exact fun input inside => List.mem_singleton.mpr (single input inside)

theorem honest_permitted : Run.Along step (Permitted fun _ => False) [] honestEvents := by
  refine ⟨permitted_start (List.forall_mem_nil _),
    permitted_start (List.forall_mem_singleton.mpr (by decide)), permitted_hello,
    permitted_hello, ?_⟩
  change Run.Along step _ (Run.run step [] (honestEvents.take 4)) (honestEvents.drop 4)
  rw [honest_greeted]
  refine ⟨permitted_proof rfl rfl (.inr ?_), permitted_proof rfl rfl (.inr ?_), trivial⟩
  · exact ⟨waiting bobConfig bobDrawn (greeting aliceConfig aliceDrawn),
      List.mem_cons_of_mem _ (List.mem_singleton_self _), rfl,
      greeting aliceConfig aliceDrawn, rfl, rfl⟩
  · refine ⟨completed aliceConfig aliceDrawn (greeting bobConfig bobDrawn) aliceSession, ?_, rfl,
      greeting bobConfig bobDrawn, rfl, rfl⟩
    rw [← @alice_completes bobConfig (greeting aliceConfig aliceDrawn) rfl]
    exact List.mem_cons_self

theorem handshake_agreement_honest :
    (greeting aliceConfig aliceDrawn).party = aliceConfig.party ∨
      False ∧ bobConfig.expected "alice" = some (List.replicate 32 1) := by
  have ideal := @idealKdf_pair aliceConfig bobConfig (greeting bobConfig bobDrawn)
    (greeting aliceConfig aliceDrawn) aliceSession bobSession rfl rfl
  rw [← honest_world] at ideal
  have alice : completed aliceConfig aliceDrawn (greeting bobConfig bobDrawn) aliceSession ∈
      Run.run step [] honestEvents := by
    rw [honest_world]
    exact List.mem_cons_self
  have bob : completed bobConfig bobDrawn (greeting aliceConfig aliceDrawn) bobSession ∈
      Run.run step [] honestEvents := by
    rw [honest_world]
    exact List.mem_cons_of_mem _ (List.mem_singleton_self _)
  exact handshake_agreement honest_permitted alice bob rfl rfl rfl ideal
    (.inr aliceSession_mirrored)

def mallory : PartyIdentity := .repeated "mallory" 9

/-- The attacker's key is the registered one of a third validator. -/
def malloryHeld (publicKey : List UInt8) : Prop := publicKey = mallory.publicKey

def widerBobConfig : AuthConfig :=
  { bobConfig with
    peers := [aliceKey, bobKey, { party := "mallory", publicKey := List.replicate 32 9 }] }

/-- What bob reads: the challenge and the ephemeral key of alice under mallory's name. -/
def relayed : PeerHello :=
  { party := "mallory"
    publicKey := mallory.publicKey
    nonce := aliceDrawn.nonce.toList
    ephemeral := aliceDrawn.ephemeralPublic }

def relayedProof : AuthMsg :=
  .proof (mallory.signBytes
    (proofMessage bobDrawn.nonce.toList "mallory" aliceDrawn.ephemeralPublic))

def relayEvents : List Event :=
  [.start aliceConfig aliceDrawn, .start widerBobConfig bobDrawn,
    .deliver 0 (.ok (hello widerBobConfig bobDrawn)),
    .deliver 1 (.ok (.hello "mallory" mallory.publicKey aliceDrawn.nonce.toList
      aliceDrawn.ephemeralPublic)),
    .deliver 0 (.ok (proof widerBobConfig bobDrawn relayed)), .deliver 1 (.ok relayedProof)]

theorem relay_greeted : Run.run step [] (relayEvents.take 4) =
    [waiting aliceConfig aliceDrawn (greeting widerBobConfig bobDrawn),
      waiting widerBobConfig bobDrawn relayed] := by
  have alice : aliceConfig.expected (greeting widerBobConfig bobDrawn).party =
      some (greeting widerBobConfig bobDrawn).publicKey := by decide
  have bob : widerBobConfig.expected relayed.party = some relayed.publicKey := by decide
  exact congrArg₂ (fun alice bob => [alice, bob]) (read_hello alice) (read_hello bob)

theorem bob_misled : (waiting widerBobConfig bobDrawn relayed).read (.ok relayedProof) =
    completed widerBobConfig bobDrawn relayed bobSession :=
  read_proof rfl rfl

theorem relay_world : Run.run step [] relayEvents =
    [completed aliceConfig aliceDrawn (greeting widerBobConfig bobDrawn) aliceSession,
      completed widerBobConfig bobDrawn relayed bobSession] := by
  calc Run.run step [] relayEvents
      = Run.run step (Run.run step [] (relayEvents.take 4)) (relayEvents.drop 4) := rfl
    _ = [(waiting aliceConfig aliceDrawn (greeting widerBobConfig bobDrawn)).read
            (.ok (proof widerBobConfig bobDrawn relayed)),
          (waiting widerBobConfig bobDrawn relayed).read (.ok relayedProof)] := by
      rw [relay_greeted]
      rfl
    _ = _ := by rw [alice_completes rfl, bob_misled]

theorem relay_permitted : Run.Along step (Permitted malloryHeld) [] relayEvents := by
  refine ⟨permitted_start (List.forall_mem_nil _),
    permitted_start (List.forall_mem_singleton.mpr (by decide)), permitted_hello,
    permitted_hello, ?_⟩
  change Run.Along step _ (Run.run step [] (relayEvents.take 4)) (relayEvents.drop 4)
  rw [relay_greeted]
  refine ⟨permitted_proof rfl rfl (.inr ?_), permitted_proof rfl rfl (.inl rfl), trivial⟩
  exact ⟨waiting widerBobConfig bobDrawn relayed,
    List.mem_cons_of_mem _ (List.mem_singleton_self _), rfl, relayed, rfl, rfl⟩

/-- Alice completes with bob and bob, with the same keys, with mallory: the attacker relays
alice's challenge and ephemeral key under a name whose key it holds. -/
theorem peer_misnamed :
    ¬ ∀ (held : List UInt8 → Prop) (events : List Event),
      Run.Along step (Permitted held) [] events →
      ∀ run ∈ Run.run step [] events, ∀ run' ∈ Run.run step [] events,
      ∀ info info' session session', run.result = some (.ok (info, session)) →
        run'.result = some (.ok (info', session')) →
        ¬ held run.cfg.identity.publicKey → ¬ held run'.cfg.identity.publicKey →
        info.party = run'.cfg.party →
        IdealKdf {input | ∃ other ∈ Run.run step [] events, other.Derives input} →
        SameKeys session session' → info'.party = run.cfg.party := by
  intro agreed
  have ideal := @idealKdf_pair aliceConfig widerBobConfig (greeting widerBobConfig bobDrawn)
    relayed aliceSession bobSession rfl rfl
  rw [← relay_world] at ideal
  have alice : completed aliceConfig aliceDrawn (greeting widerBobConfig bobDrawn)
      aliceSession ∈ Run.run step [] relayEvents := by
    rw [relay_world]
    exact List.mem_cons_self
  have bob : completed widerBobConfig bobDrawn relayed bobSession ∈
      Run.run step [] relayEvents := by
    rw [relay_world]
    exact List.mem_cons_of_mem _ (List.mem_singleton_self _)
  have named := agreed malloryHeld relayEvents relay_permitted _ alice _ bob _ _ _ _ rfl rfl
    (by unfold malloryHeld; decide) (by unfold malloryHeld; decide) rfl ideal
    (.inr aliceSession_mirrored)
  revert named
  decide

end Worlds

end Auth

end Veilux
