/-
View changes.  The coordinator counts a voter once per view, and a view is adopted
behind a quorum of them; whether those voters really asked depends on the key a
view-change message is checked under.
-/

import Veilux.Node.Shape

namespace Veilux

namespace Session

section Evidence

variable [Ed25519]

/-- A voter asked for a view: the engine itself, or by a delivered message whose
signature verifies under the voter's registered key. -/
def ViewEvidence (vset : ValidatorSet) (me : PartyId) (stimuli : List Stimulus)
    (asked : List (Nat × UInt32)) (height : Nat) (view : UInt32) (voter : PartyId) : Prop :=
  (voter = me ∧ (height, view) ∈ asked) ∨
  ∃ change : ViewChange, (∃ stimulus ∈ stimuli, stimulus.input = .net (.viewChange change)) ∧
    change.height = height ∧ change.view = view ∧ change.voter = voter ∧
    ∃ validator, vset.get voter = some validator ∧
      verifyBytes validator.publicKey change.signingBytes change.signature = .ok ()

theorem ViewEvidence.mono {vset : ValidatorSet} {me : PartyId} {stimuli more : List Stimulus}
    {asked further : List (Nat × UInt32)} (within : stimuli ⊆ more) (also : asked ⊆ further)
    {height : Nat} {view : UInt32} {voter : PartyId}
    (evidence : ViewEvidence vset me stimuli asked height view voter) :
    ViewEvidence vset me more further height view voter := by
  rcases evidence with ⟨own, listed⟩ | ⟨change, ⟨stimulus, member, delivered⟩, signed⟩
  · exact .inl ⟨own, also listed⟩
  · exact .inr ⟨change, ⟨stimulus, within member, delivered⟩, signed⟩

/-- A view change in the name of an active validator, signed by the key it carries,
carries the key registered for that validator. -/
def CarriesRegisteredKey (vset : ValidatorSet) (input : Input) : Prop :=
  ∀ change : ViewChange, input = .net (.viewChange change) →
    vset.isValidator change.voter = true →
    verifyBytes change.publicKey change.signingBytes change.signature = .ok () →
    ∃ validator, vset.get change.voter = some validator ∧
      validator.publicKey = change.publicKey

/-- Everybody counted has asked, and every adopted view was asked for by a quorum. -/
structure ViewsCertified (vset : ValidatorSet) (me : PartyId) (stimuli : List Stimulus)
    (session : Session) : Prop where
  counted : session.engine.viewsync.Sound vset
    (ViewEvidence vset me stimuli session.asked session.engine.height)
  adopted : ∀ height view, (height, view) ∈ session.adopted →
    Nonempty (Certificate vset (ViewEvidence vset me stimuli session.asked height view))
  current : session.engine.view ≠ 0 →
    (session.engine.height, session.engine.view) ∈ session.adopted

namespace ViewsCertified

variable {vset : ValidatorSet} {me : PartyId} {stimuli : List Stimulus} {session : Session}

theorem start (identity : PartyIdentity) (vset : ValidatorSet) (node : Node) :
    ViewsCertified vset me [] (Session.start identity vset node) :=
  { counted := ViewCoordinator.sound_new _
    adopted := fun _ _ member => absurd member List.not_mem_nil
    current := fun moved => absurd rfl moved }

theorem mono {more : List Stimulus} (certified : ViewsCertified vset me stimuli session)
    (within : stimuli ⊆ more) : ViewsCertified vset me more session :=
  { counted := certified.counted.mono fun _ _ =>
      ViewEvidence.mono within (List.Subset.refl _)
    adopted := by
      intro height view member
      obtain ⟨certificate⟩ := certified.adopted height view member
      exact ⟨certificate.mono fun _ => ViewEvidence.mono within (List.Subset.refl _)⟩
    current := certified.current }

theorem ask (certified : ViewsCertified vset me stimuli session) (ticks : Nat)
    (asked : List (Nat × UInt32)) :
    ViewsCertified vset me stimuli { session with
      engine := { session.engine with staleTicks := ticks }
      asked := session.asked ++ asked } :=
  { counted := certified.counted.mono fun _ _ =>
      ViewEvidence.mono (List.Subset.refl _) (List.subset_append_left _ _)
    adopted := by
      intro height view member
      obtain ⟨certificate⟩ := certified.adopted height view member
      exact ⟨certificate.mono fun _ =>
        ViewEvidence.mono (List.Subset.refl _) (List.subset_append_left _ _)⟩
    current := certified.current }

theorem tends {after : Session} (certified : ViewsCertified vset me stimuli session)
    (tends : Tends session after) : ViewsCertified vset me stimuli after := by
  obtain ⟨node, watch, _, engine⟩ := tends.engine
  constructor
  · rw [engine, tends.asked]
    exact certified.counted
  · rw [tends.asked, tends.adopted]
    exact certified.adopted
  · rw [engine, tends.adopted]
    exact certified.current

theorem resetHeight (certified : ViewsCertified vset me stimuli session) :
    ViewsCertified vset me stimuli session.resetHeight :=
  { counted := ViewCoordinator.sound_new _
    adopted := certified.adopted
    current := fun moved => absurd rfl moved }

/-- Under the condition on view changes, whoever asks has evidence at the height of
the engine. -/
theorem recordView [Blake3] {identity : PartyIdentity} {stimulus : Stimulus} {height : Nat}
    {view : UInt32} {voter : PartyId}
    (certified : ViewsCertified vset identity.party stimuli session)
    (shaped : Shaped vset identity session) (delivered : stimulus ∈ stimuli)
    (registered : CarriesRegisteredKey vset stimulus.input)
    (asked : Asked stimulus.input session height view voter) :
    ViewsCertified vset identity.party stimuli (session.recordView height view voter) := by
  have validators : session.engine.aurora.validators = vset := shaped.frame.validators
  have evident : height = session.engine.viewsync.height → vset.isValidator voter = true →
      ViewEvidence vset identity.party stimuli session.asked session.engine.height view voter := by
    intro sameHeight isActive
    cases asked with
    | own ticked listed => exact .inl ⟨shaped.me, listed⟩
    | peer change received verified =>
        rw [validators] at verified
        unfold verifyViewChange at verified
        rw [if_pos isActive] at verified
        split at verified
        · rename_i signed
          obtain ⟨validator, found, key⟩ := registered change received isActive signed
          rw [← key] at signed
          rw [shaped.viewsync] at sameHeight
          exact .inr ⟨change, ⟨stimulus, delivered, received⟩, sameHeight, rfl, rfl,
            validator, found, signed⟩
        · cases verified
  have counted : (session.engine.viewsync.record height view voter
      session.engine.aurora.validators).2.Sound vset
        (ViewEvidence vset identity.party stimuli session.asked session.engine.height) := by
    rw [validators]
    exact certified.counted.record evident
  apply recordView_preserves
  · exact { certified with counted := counted }
  · intro chosen reported _
    rw [validators] at reported counted
    obtain ⟨_, certificate⟩ := counted.certificate reported
    rw [validators]
    refine ⟨counted, ?_, ?_⟩
    · intro other otherView member
      rcases List.mem_append.mp member with earlier | last
      · exact certified.adopted other otherView earlier
      · cases List.mem_singleton.mp last
        exact certificate
    · exact fun _ => List.mem_append_right _ (List.mem_singleton_self _)

variable [Blake3] [SerdeJson] [ChaCha20Poly1305] [X25519] {identity : PartyIdentity}

theorem handle (certified : ViewsCertified vset identity.party stimuli session)
    (shaped : Shaped vset identity session) (stimulus : Stimulus)
    (registered : CarriesRegisteredKey vset stimulus.input) :
    ViewsCertified vset identity.party (stimuli ++ [stimulus]) (session.handle stimulus) := by
  have delivered : stimulus ∈ stimuli ++ [stimulus] :=
    List.mem_append_right _ (List.mem_singleton_self stimulus)
  have initially := certified.mono (List.subset_append_left stimuli [stimulus])
  apply handle_rule shaped initially
  · exact fun _ tends held => held.tends tends
  · exact fun _ ticks asked held => held.ask ticks asked
  · exact fun _ _ _ _ here asked held => held.recordView here delivered registered asked
  · exact fun _ _ _ held => held.resetHeight
  · exact fun _ _ _ _ held => { held with }
  · exact fun _ _ held => { held with }
  · exact fun _ _ _ _ _ _ _ held => { held with }
  · exact fun _ _ _ _ _ held => { held with }
  · exact fun _ _ _ _ _ _ _ _ held => { held with }
  · exact fun _ _ _ => { initially with }
  · exact fun _ _ _ _ _ held => { held with }

end ViewsCertified

end Evidence

/-! ### Runs -/

section Runs

variable [Ed25519] [Blake3] [SerdeJson] [ChaCha20Poly1305] [X25519]

theorem run_viewsCertified (identity : PartyIdentity) (vset : ValidatorSet) (node : Node)
    (stimuli : List Stimulus)
    (registered : ∀ stimulus ∈ stimuli, CarriesRegisteredKey vset stimulus.input) :
    Shaped vset identity (Run.run handle (Session.start identity vset node) stimuli) ∧
      ViewsCertified vset identity.party stimuli
        (Run.run handle (Session.start identity vset node) stimuli) := by
  induction stimuli using List.reverseRecOn with
  | nil => exact ⟨Shaped.start identity vset node, ViewsCertified.start identity vset node⟩
  | append_singleton stimuli stimulus ih =>
      have earlier := ih fun other member =>
        registered other (List.mem_append_left _ member)
      rw [Run.run_snoc]
      exact ⟨earlier.1.handle stimulus, earlier.2.handle earlier.1 stimulus
        (registered stimulus (List.mem_append_right _ (List.mem_singleton_self _)))⟩

/-- In every run whose view changes carry registered keys, an engine is at view zero
or at an adopted view, and every adopted view was asked for, at exactly its height,
by active validators with a quorum of the stake. -/
theorem adopted_view_certified (identity : PartyIdentity) (vset : ValidatorSet) (node : Node)
    (stimuli : List Stimulus)
    (registered : ∀ stimulus ∈ stimuli, CarriesRegisteredKey vset stimulus.input) :
    let session := Run.run handle (Session.start identity vset node) stimuli
    (session.engine.view ≠ 0 →
      (session.engine.height, session.engine.view) ∈ session.adopted) ∧
    ∀ height view, (height, view) ∈ session.adopted →
      Nonempty (Certificate vset
        (ViewEvidence vset identity.party stimuli session.asked height view)) := by
  obtain ⟨_, certified⟩ := run_viewsCertified identity vset node stimuli registered
  exact ⟨certified.current, certified.adopted⟩

end Runs

/-! ### Three view changes -/

section Three

attribute [local instance] SerdeJson.compact Blake3.polynomial Ed25519.keyed
  ChaCha20Poly1305.keyed X25519.masked

/-- A request for view 1 of height 1 in a party's name, signed with some seed and
carrying that seed's key. -/
def requestView (name : String) (seed : UInt8) : Stimulus :=
  { envs := fun _ => .healthy 10
    input := .net (.viewChange (makeViewChange (.repeated name seed) 1 1)) }

/-- The first of four equal validators, on an empty chain. -/
def firstOfFour : Session :=
  Session.start (.repeated "v1" 1) Aurora.fourSet (Node.new ⟨"v1"⟩ Cascade.empty)

/-- The other three ask with their own keys. -/
def genuineRequests : List Stimulus :=
  [requestView "v2" 2, requestView "v3" 3, requestView "v4" 4]

/-- Nobody asks; one outsider signs all three requests. -/
def forgedRequests : List Stimulus :=
  [requestView "v2" 9, requestView "v3" 9, requestView "v4" 9]

theorem adopted_view_certified_four :
    (∀ stimulus ∈ genuineRequests, CarriesRegisteredKey Aurora.fourSet stimulus.input) ∧
    (1, 1) ∈ (Run.run handle firstOfFour genuineRequests).adopted ∧
    Nonempty (Certificate Aurora.fourSet (ViewEvidence Aurora.fourSet ⟨"v1"⟩ genuineRequests
      (Run.run handle firstOfFour genuineRequests).asked 1 1)) := by
  have registered : ∀ stimulus ∈ genuineRequests,
      CarriesRegisteredKey Aurora.fourSet stimulus.input := by
    intro stimulus member change delivered _ _
    simp only [genuineRequests, List.mem_cons, List.not_mem_nil, or_false] at member
    rcases member with rfl | rfl | rfl
    · cases delivered
      exact ⟨.new ⟨"v2"⟩ (PartyIdentity.repeated "v2" 2).publicKey 100, by decide +kernel, rfl⟩
    · cases delivered
      exact ⟨.new ⟨"v3"⟩ (PartyIdentity.repeated "v3" 3).publicKey 100, by decide +kernel, rfl⟩
    · cases delivered
      exact ⟨.new ⟨"v4"⟩ (PartyIdentity.repeated "v4" 4).publicKey 100, by decide +kernel, rfl⟩
  have adopted : (1, 1) ∈ (Run.run handle firstOfFour genuineRequests).adopted := by
    decide +kernel
  exact ⟨registered, adopted, (adopted_view_certified (.repeated "v1" 1) Aurora.fourSet
    (Node.new ⟨"v1"⟩ Cascade.empty) genuineRequests registered).2 1 1 adopted⟩

/-- The forged requests move the engine to view 1, and no validator has asked. -/
theorem forged_view_adopted :
    (1, 1) ∈ (Run.run handle firstOfFour forgedRequests).adopted ∧
    ¬ Nonempty (Certificate Aurora.fourSet (ViewEvidence Aurora.fourSet ⟨"v1"⟩ forgedRequests
      (Run.run handle firstOfFour forgedRequests).asked 1 1)) := by
  constructor
  · decide +kernel
  · rintro ⟨certificate⟩
    obtain ⟨voter, _, evidence⟩ := certificate.exists_backed
    rcases evidence with ⟨_, listed⟩ | ⟨change, ⟨stimulus, member, delivered⟩, _, _, same, signed⟩
    · have unasked : (Run.run handle firstOfFour forgedRequests).asked = [] := by
        decide +kernel
      rw [unasked] at listed
      cases listed
    · subst same
      -- None of the three signatures verifies under the key of its supposed voter.
      have forged : ∀ change ∈ [makeViewChange (.repeated "v2" 9) 1 1,
          makeViewChange (.repeated "v3" 9) 1 1, makeViewChange (.repeated "v4" 9) 1 1],
          ((Aurora.fourSet.get change.voter).map fun validator =>
            verifyBytes validator.publicKey change.signingBytes change.signature) ≠
              some (.ok ()) := by
        decide +kernel
      have listed : change ∈ [makeViewChange (.repeated "v2" 9) 1 1,
          makeViewChange (.repeated "v3" 9) 1 1, makeViewChange (.repeated "v4" 9) 1 1] := by
        simp only [forgedRequests, List.mem_cons, List.not_mem_nil, or_false] at member ⊢
        rcases member with rfl | rfl | rfl
        · cases delivered
          exact .inl rfl
        · cases delivered
          exact .inr (.inl rfl)
        · cases delivered
          exact .inr (.inr rfl)
      obtain ⟨validator, found, verified⟩ := signed
      apply forged change listed
      rw [found, Option.map_some, verified]

end Three

end Session

end Veilux
