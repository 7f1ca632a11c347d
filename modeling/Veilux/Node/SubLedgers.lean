/-
Sub-ledgers along runs of commits.  A hosted party's ledger holds only events visible to
it; its exact contents are followed through repetitions in visibility lists and in the
list of keyrings.
-/

import Veilux.Node.Chain
import Veilux.Node.Commands
import Veilux.Veil.Projection

namespace Veilux

namespace Node

/-- A node takes on a party, or is handed a block. -/
inductive LedgerAction where
  | host (keyring : ViewKeyring)
  | commit (env : Env) (block : Block)

section Runs

variable [SerdeJson] [Blake3] [ChaCha20Poly1305]

def act (node : Node) : LedgerAction → Node
  | .host keyring => node.hostParty keyring
  | .commit env block => (node.commitBlock env block).2

/-! ### What a commit delivers -/

/-- A commit refuses the block untouched, fails while delivering, or appends it. -/
inductive Delivered (env : Env) (node : Node) (block : Block) : Node → Prop
  | refused (error : NodeError) (failed : node.verifyBlock env block = .error error) :
      Delivered env node block node
  | undelivered (error : ViewError) (events : List Event) (state : StateTree)
      (ledgers : AList (fun _ : PartyId => SubLedger))
      (verified : node.verifyBlock env block = .ok (events, state))
      (delivery : deliver block.height (projectBlock { block with events := events } node.keyrings)
        node.keyrings 0 node.subLedgers = (.error error, ledgers)) :
      Delivered env node block { node with subLedgers := ledgers }
  | appended (delivered : Nat) (events : List Event) (state : StateTree)
      (ledgers : AList (fun _ : PartyId => SubLedger)) (store : Option Store)
      (verified : node.verifyBlock env block = .ok (events, state))
      (delivery : deliver block.height (projectBlock { block with events := events } node.keyrings)
        node.keyrings 0 node.subLedgers = (.ok delivered, ledgers)) :
      Delivered env node block
        ((({ node with
            subLedgers := ledgers
            state := state
            store := store } : Node).withoutCommands block.commands).append
          { block with events := events })

theorem commitBlock_delivered (env : Env) (node : Node) (block : Block) :
    Delivered env node block (node.commitBlock env block).2 := by
  unfold commitBlock
  cases verified : node.verifyBlock env block with
  | error error => exact .refused error verified
  | ok executed =>
      obtain ⟨events, state⟩ := executed
      dsimp only
      cases delivery : deliver block.height
          (projectBlock { block with events := events } node.keyrings) node.keyrings 0
          node.subLedgers with
      | mk result ledgers =>
          cases result with
          | error error => exact .undelivered error events state ledgers verified delivery
          | ok delivered =>
              dsimp only
              obtain ⟨store, persisted⟩ := persistBlock_eq env
                ((({ node with
                    subLedgers := ledgers
                    state := state } : Node).withoutCommands block.commands).append
                  { block with events := events }) { block with events := events }
              generalize persistBlock env
                ((({ node with
                    subLedgers := ledgers
                    state := state } : Node).withoutCommands block.commands).append
                  { block with events := events }) { block with events := events } = stored
                at persisted
              obtain ⟨result, after⟩ := stored
              cases persisted
              cases result with
              | error error => exact .appended delivered events state ledgers store verified delivery
              | ok done => exact .appended delivered events state ledgers store verified delivery

/-! ### Privacy -/

/-- No ledger holds an event that is not visible to its party. -/
def Discreet (ledgers : AList (fun _ : PartyId => SubLedger)) : Prop :=
  ∀ party ledger, ledgers.lookup party = some ledger → ∀ entry ∈ ledger.entries,
    entry.event.visibility.includes party = true

omit [SerdeJson] [Blake3] [ChaCha20Poly1305] in
theorem Discreet.insert {ledgers : AList (fun _ : PartyId => SubLedger)}
    (discreet : Discreet ledgers) {party : PartyId} {ledger : SubLedger}
    (own : ∀ entry ∈ ledger.entries, entry.event.visibility.includes party = true) :
    Discreet (ledgers.insert party ledger) := by
  intro other found stored
  by_cases same : other = party
  · subst same
    rw [AList.lookup_insert] at stored
    rw [← Option.some.inj stored]
    exact own
  · rw [AList.lookup_insert_ne same] at stored
    exact discreet other found stored

theorem push_visible (ideal : IdealAead) {party : PartyId} (height : Nat) (keyring : ViewKeyring)
    {views : List EncryptedView} (applied : Nat) {ledger : SubLedger}
    (sealed : ∀ view ∈ views, ∃ owner event, Visibility.includes (Event.visibility event) party =
      true ∧ view = ViewKeyring.sealView owner event)
    (own : ∀ entry ∈ ledger.entries, entry.event.visibility.includes party = true) :
    ∀ entry ∈ (SubLedger.push height keyring views applied ledger).2.entries,
      entry.event.visibility.includes party = true := by
  induction views generalizing applied ledger with
  | nil => exact own
  | cons view rest ih =>
      unfold SubLedger.push
      cases opened : keyring.openView view with
      | error error => exact own
      | ok event =>
          apply ih
          · intro other member
            exact sealed other (List.mem_cons_of_mem _ member)
          · intro entry member
            rcases List.mem_append.mp member with earlier | last
            · exact own entry earlier
            · obtain ⟨owner, shown, visible, same⟩ := sealed view List.mem_cons_self
              rw [same] at opened
              rw [List.mem_singleton.mp last, ViewKeyring.opened_eq ideal opened]
              exact visible

theorem applyViews_entries (ledger : SubLedger) (height : Nat) (root : Hash)
    (views : List EncryptedView) (keyring : ViewKeyring) :
    (ledger.applyViews height root views keyring).2.entries =
      (SubLedger.push height keyring views 0 ledger).2.entries := by
  unfold SubLedger.applyViews
  cases SubLedger.push height keyring views 0 ledger with
  | mk result after =>
      cases result with
      | error error => rfl
      | ok applied => rfl

theorem Discreet.deliver (ideal : IdealAead) {block : Block} {hosted : List ViewKeyring}
    (height : Nat) (keyrings : List ViewKeyring) (delivered : Nat)
    {ledgers : AList (fun _ : PartyId => SubLedger)} (discreet : Discreet ledgers) :
    Discreet (deliver height (projectBlock block hosted) keyrings delivered ledgers).2 := by
  induction keyrings generalizing delivered ledgers with
  | nil => exact discreet
  | cons keyring rest ih =>
      unfold Node.deliver
      split
      · rename_i views ledger filed stored
        have own : ∀ entry ∈ (ledger.applyViews height (projectBlock block hosted).eventsRoot views
            keyring).2.entries, entry.event.visibility.includes keyring.party = true := by
          rw [applyViews_entries]
          apply push_visible ideal
          · intro view member
            obtain ⟨owner, event, _, _, visible, same⟩ := filed_visible filed member
            exact ⟨owner, event, visible, same⟩
          · exact discreet keyring.party ledger stored
        cases outcome : ledger.applyViews height (projectBlock block hosted).eventsRoot views
            keyring with
        | mk result after =>
            rw [outcome] at own
            cases result with
            | error error => exact discreet.insert own
            | ok applied => exact ih _ (discreet.insert own)
      · exact ih _ discreet

theorem Discreet.act (ideal : IdealAead) (node : Node) (action : LedgerAction)
    (discreet : Discreet node.subLedgers) : Discreet (node.act action).subLedgers := by
  cases action with
  | host keyring =>
      change Discreet (node.hostParty keyring).subLedgers
      unfold hostParty
      dsimp only
      split
      · exact discreet
      · apply discreet.insert
        intro entry member
        cases member
  | commit env block =>
      change Discreet (node.commitBlock env block).2.subLedgers
      have outcome := commitBlock_delivered env node block
      generalize (node.commitBlock env block).2 = after at outcome
      cases outcome with
      | refused error failed => exact discreet
      | undelivered error events state ledgers verified delivery =>
          have kept : Discreet (Node.deliver block.height
              (projectBlock { block with events := events } node.keyrings) node.keyrings 0
              node.subLedgers).2 := discreet.deliver ideal _ _ _
          rw [delivery] at kept
          exact kept
      | appended delivered events state ledgers store verified delivery =>
          have kept : Discreet (Node.deliver block.height
              (projectBlock { block with events := events } node.keyrings) node.keyrings 0
              node.subLedgers).2 := discreet.deliver ideal _ _ _
          rw [delivery] at kept
          exact kept

/-- Over every run of hosting and commits, sub-ledgers hold only events visible to their
party, and the views a block yields for a party are closed to the keyrings of others. -/
theorem sub_ledgers_private (ideal : IdealAead) (start : Node) (fresh : start.subLedgers = ∅)
    (actions : List LedgerAction) :
    (∀ party ledger, (Run.run act start actions).subLedgers.lookup party = some ledger →
      ∀ entry ∈ ledger.entries, entry.event.visibility.includes party = true) ∧
    (∀ front env block back events state, actions = front ++ .commit env block :: back →
      (Run.run act start front).verifyBlock env block = .ok (events, state) →
      ∀ party filed view, (projectBlock { block with events := events }
          (Run.run act start front).keyrings).viewsByParty.lookup party = some filed →
        view ∈ filed → ∀ other : ViewKeyring, other.party ≠ party →
          other.openView view = .error (.noKey party.name) ∧
            ∃ owner ∈ (Run.run act start front).keyrings, owner.party = party ∧
              (owner.IdealDerivation other → owner.seed ≠ other.seed →
                view.openView (other.keyFor view.commitment) = .error .decryption)) := by
  constructor
  · have initially : Discreet start.subLedgers := by
      intro party ledger stored
      rw [fresh] at stored
      cases stored
    have kept : Discreet (Run.run act start actions).subLedgers := by
      induction actions using List.reverseRecOn with
      | nil => exact initially
      | append_singleton front action ih =>
          rw [Run.run_snoc]
          exact ih.act ideal _ action
    exact kept
  · intro front env block back events state split verified party filed view found member other
      foreign
    exact filed_closed ideal found member foreign

/-! ### Exactness -/

/-- How often an event is meant for a party. -/
def listedTimes (party : PartyId) (event : Event) : Nat :=
  match event.visibility with
  | .pub => 1
  | .parties set => set.count party

def entryAt (height : Nat) (event : Event) : SubLedgerEntry :=
  { height := height
    commitment := event.commitment
    event := event }

/-- The events of a block as they are sealed for a party, repetitions included. -/
def repeated (party : PartyId) (events : List Event) : List Event :=
  events.flatMap fun event => List.replicate (listedTimes party event) event

/-- The entries of the blocks' events visible to a party, each once and in order. -/
def visibleEntries (party : PartyId) (blocks : List Block) : List SubLedgerEntry :=
  blocks.flatMap fun block =>
    (block.events.filter fun event => event.visibility.includes party).map (entryAt block.height)

def repeatedEntries (party : PartyId) (blocks : List Block) : List SubLedgerEntry :=
  blocks.flatMap fun block => (repeated party block.events).map (entryAt block.height)

omit [SerdeJson] [Blake3] [ChaCha20Poly1305] in
theorem listedTimes_pos {party : PartyId} {event : Event} :
    0 < listedTimes party event ↔ event.visibility.includes party = true := by
  unfold listedTimes Visibility.includes
  cases event.visibility with
  | pub => simp
  | parties set => simp [List.count_pos_iff]

omit [SerdeJson] [Blake3] [ChaCha20Poly1305] in
theorem copies_eq {hosted : List ViewKeyring} {party : PartyId}
    (distinct : (hosted.map ViewKeyring.party).Nodup) (member : party ∈ hosted.map ViewKeyring.party)
    (event : Event) : copies hosted party event = listedTimes party event := by
  unfold copies stakeholders listedTimes
  cases event.visibility with
  | pub => exact List.count_eq_one_of_mem distinct member
  | parties set => rfl

omit [SerdeJson] in
theorem sealedFor_eq {hosted : List ViewKeyring} {party : PartyId}
    (distinct : (hosted.map ViewKeyring.party).Nodup) (member : party ∈ hosted.map ViewKeyring.party)
    (keyring : ViewKeyring) (events : List Event) :
    sealedFor hosted party keyring events = (repeated party events).map keyring.sealView := by
  unfold sealedFor repeated
  rw [List.map_flatMap]
  congr 1
  funext event
  rw [copies_eq distinct member, List.map_replicate]

/-- A keyring opens everything it sealed. -/
theorem push_own (height : Nat) (keyring : ViewKeyring) (events : List Event) (applied : Nat)
    (ledger : SubLedger) :
    SubLedger.push height keyring (events.map keyring.sealView) applied ledger =
      (.ok (applied + events.length),
        { ledger with entries := ledger.entries ++ events.map (entryAt height) }) := by
  induction events generalizing applied ledger with
  | nil => simp [SubLedger.push]
  | cons event rest ih =>
      rw [List.map_cons]
      unfold SubLedger.push
      rw [ViewKeyring.openView_sealView]
      dsimp only
      rw [ih]
      simp only [List.length_cons, List.map_cons, List.append_assoc, List.singleton_append]
      congr 2
      omega

/-- The ledger behind a block with these events for its party; without any it is skipped. -/
def received (ledger : SubLedger) (height : Nat) (root : Hash) (events : List Event) : SubLedger :=
  if events = [] then ledger
  else
    { ledger with
      entries := ledger.entries ++ events.map (entryAt height)
      validatedRoot := root
      height := height }

omit [SerdeJson] [Blake3] [ChaCha20Poly1305] in
theorem find_own {hosted : List ViewKeyring} {keyring : ViewKeyring}
    (distinct : (hosted.map ViewKeyring.party).Nodup) (member : keyring ∈ hosted) :
    hosted.find? (fun other => other.party = keyring.party) = some keyring := by
  induction hosted with
  | nil => cases member
  | cons head tail ih =>
      rw [List.map_cons, List.nodup_cons] at distinct
      by_cases same : head.party = keyring.party
      · rw [List.find?_cons_of_pos (by simpa using same)]
        rcases List.mem_cons.mp member with rfl | later
        · rfl
        · exact absurd (same ▸ List.mem_map_of_mem later) distinct.1
      · rw [List.find?_cons_of_neg (by simpa using same)]
        rcases List.mem_cons.mp member with rfl | later
        · exact absurd rfl same
        · exact ih distinct.2 later

omit [SerdeJson] in
/-- Without repeated keyrings a party's views are its events, sealed by its keyring. -/
theorem filed_own {hosted : List ViewKeyring} {keyring : ViewKeyring}
    (distinct : (hosted.map ViewKeyring.party).Nodup) (member : keyring ∈ hosted) (block : Block) :
    (projectBlock block hosted).viewsByParty.lookup keyring.party =
      if repeated keyring.party block.events = [] then none
      else some ((repeated keyring.party block.events).map keyring.sealView) := by
  rw [projectBlock_lookup (find_own distinct member),
    sealedFor_eq distinct (List.mem_map_of_mem member)]
  unfold extend
  simp only [List.map_eq_nil_iff, Option.getD_none, List.nil_append]

theorem applyViews_own (ledger : SubLedger) (height : Nat) (root : Hash) (keyring : ViewKeyring)
    {events : List Event} (some : events ≠ []) :
    ledger.applyViews height root (events.map keyring.sealView) keyring =
      (.ok events.length, received ledger height root events) := by
  unfold SubLedger.applyViews received
  rw [push_own, if_neg some, Nat.zero_add]

/-- Without repeated keyrings a block is delivered to every hosted party exactly once. -/
theorem deliver_exact {hosted : List ViewKeyring}
    (distinct : (hosted.map ViewKeyring.party).Nodup) (block : Block) (height : Nat)
    {keyrings : List ViewKeyring} (inside : ∀ keyring ∈ keyrings, keyring ∈ hosted)
    (once : (keyrings.map ViewKeyring.party).Nodup) (delivered : Nat)
    (ledgers : AList (fun _ : PartyId => SubLedger)) :
    ∃ count after, deliver height (projectBlock block hosted) keyrings delivered ledgers =
        (.ok count, after) ∧
      ∀ party ledger, ledgers.lookup party = some ledger → after.lookup party =
        some (if party ∈ keyrings.map ViewKeyring.party then
          received ledger height (projectBlock block hosted).eventsRoot
            (repeated party block.events) else ledger) := by
  induction keyrings generalizing delivered ledgers with
  | nil => exact ⟨delivered, ledgers, rfl, fun party ledger stored => stored⟩
  | cons keyring rest ih =>
      rw [List.map_cons, List.nodup_cons] at once
      have later : ∀ other ∈ rest, other ∈ hosted := fun other member =>
        inside other (List.mem_cons_of_mem _ member)
      have here : keyring.party ∈ (keyring :: rest).map ViewKeyring.party := List.mem_cons_self
      have filed := filed_own distinct (inside keyring List.mem_cons_self) block
      -- A keyring without views, or without a ledger, is passed over.
      have passed : (repeated keyring.party block.events = [] ∨
          ledgers.lookup keyring.party = none) →
          deliver height (projectBlock block hosted) (keyring :: rest) delivered ledgers =
            deliver height (projectBlock block hosted) rest delivered ledgers := by
        intro either
        rw [Node.deliver, filed]
        rcases either with empty | missing
        · rw [if_pos empty]
        · rw [missing]
          split
          · rename_i impossible
            cases impossible
          · rfl
      by_cases empty : repeated keyring.party block.events = []
      · obtain ⟨count, after, ran, told⟩ := ih later once.2 delivered ledgers
        refine ⟨count, after, (passed (.inl empty)).trans ran, ?_⟩
        intro party ledger stored
        rw [told party ledger stored]
        by_cases own : party = keyring.party
        · subst own
          rw [if_neg once.1, if_pos here, empty]
          rfl
        · simp only [List.map_cons, List.mem_cons, own, false_or]
      · cases present : ledgers.lookup keyring.party with
        | none =>
            obtain ⟨count, after, ran, told⟩ := ih later once.2 delivered ledgers
            refine ⟨count, after, (passed (.inr present)).trans ran, ?_⟩
            intro party ledger stored
            have foreign : party ≠ keyring.party := by
              intro same
              rw [same, present] at stored
              cases stored
            rw [told party ledger stored]
            simp only [List.map_cons, List.mem_cons, foreign, false_or]
        | some held =>
            obtain ⟨count, after, ran, told⟩ := ih later once.2
              (delivered + (repeated keyring.party block.events).length)
              (ledgers.insert keyring.party (received held height
                (projectBlock block hosted).eventsRoot (repeated keyring.party block.events)))
            refine ⟨count, after, ?_, ?_⟩
            · rw [Node.deliver, filed, if_neg empty, present]
              dsimp only
              rw [applyViews_own _ _ _ _ empty]
              exact ran
            · intro party ledger stored
              by_cases own : party = keyring.party
              · subst own
                rw [present] at stored
                cases stored
                rw [told _ _ (AList.lookup_insert _), if_neg once.1, if_pos here]
              · rw [told party ledger (by rw [AList.lookup_insert_ne own]; exact stored)]
                simp only [List.map_cons, List.mem_cons, own, false_or]

/-! ### Runs of a node that hosts every party once -/

/-- The party's ledger mirrors the chain, with repetitions, up to the last block that had an
event for it. -/
structure LedgerFollows (party : PartyId) (node : Node) (ledger : SubLedger) : Prop where
  distinct : (node.keyrings.map ViewKeyring.party).Nodup
  hosted : party ∈ node.keyrings.map ViewKeyring.party
  stored : node.subLedgers.lookup party = some ledger
  entries : ledger.entries = repeatedEntries party node.blocks
  behind : ledger.height ≤ node.head.height
  current : 1 < node.blocks.length → repeated party node.head.events ≠ [] →
    ledger.height = node.head.height ∧ ledger.validatedRoot = node.head.eventsRoot
  stale : 1 < node.blocks.length → repeated party node.head.events = [] →
    ledger.height < node.head.height

/-- Hosting is of a party not yet hosted. -/
def HostsAnew (node : Node) : LedgerAction → Prop
  | .host keyring => keyring.party ∉ node.keyrings.map ViewKeyring.party
  | .commit _ _ => True

omit [SerdeJson] [ChaCha20Poly1305] in
theorem repeatedEntries_append (party : PartyId) (blocks : List Block) (block : Block) :
    repeatedEntries party (blocks ++ [block]) =
      repeatedEntries party blocks ++ (repeated party block.events).map (entryAt block.height) := by
  unfold repeatedEntries
  rw [List.flatMap_append, List.flatMap_singleton]

omit [SerdeJson] [ChaCha20Poly1305] in
theorem LedgerFollows.host {party : PartyId} {node : Node} {ledger : SubLedger}
    (follows : LedgerFollows party node ledger) {keyring : ViewKeyring}
    (anew : keyring.party ∉ node.keyrings.map ViewKeyring.party) :
    LedgerFollows party (node.hostParty keyring) ledger := by
  have other : party ≠ keyring.party := fun same => anew (same ▸ follows.hosted)
  refine ⟨?_, ?_, ?_, follows.entries, follows.behind, follows.current, follows.stale⟩
  · change ((node.keyrings ++ [keyring]).map ViewKeyring.party).Nodup
    rw [List.map_append, List.nodup_append]
    refine ⟨follows.distinct, List.nodup_singleton _, ?_⟩
    intro left inside right single same
    rw [List.map_singleton, List.mem_singleton] at single
    rw [same, single] at inside
    exact anew inside
  · change party ∈ (node.keyrings ++ [keyring]).map ViewKeyring.party
    rw [List.map_append]
    exact List.mem_append_left _ follows.hosted
  · unfold hostParty
    dsimp only
    split
    · exact follows.stored
    · rw [AList.lookup_insert_ne other]
      exact follows.stored

theorem LedgerFollows.commit {party : PartyId} {node : Node} {ledger : SubLedger}
    (follows : LedgerFollows party node ledger) (env : Env) (block : Block) :
    ∃ after, LedgerFollows party (node.commitBlock env block).2 after := by
  have outcome := commitBlock_delivered env node block
  generalize (node.commitBlock env block).2 = later at outcome
  cases outcome with
  | refused error failed => exact ⟨ledger, follows⟩
  | undelivered error events state ledgers verified delivery =>
      obtain ⟨_, _, ran, _⟩ := deliver_exact follows.distinct { block with events := events }
        block.height (fun _ member => member) follows.distinct 0 node.subLedgers
      rw [delivery] at ran
      cases ran
  | appended delivered events state ledgers store verified delivery =>
      obtain ⟨_, after, ran, told⟩ := deliver_exact follows.distinct
        { block with events := events } block.height (fun _ member => member) follows.distinct 0
        node.subLedgers
      rw [delivery] at ran
      cases ran
      obtain ⟨exec, checks, rfl, _⟩ := verifyBlock_verified verified
      have written := told party ledger follows.stored
      rw [if_pos follows.hosted] at written
      have root : (projectBlock { block with events := exec.events } node.keyrings).eventsRoot =
          block.eventsRoot := checks.eventsRoot.symm
      rw [root] at written
      dsimp only at written
      have higher : ledger.height < block.height := by
        rw [checks.height]
        exact Nat.lt_succ_of_le follows.behind
      refine ⟨_, follows.distinct, follows.hosted, written, ?_, ?_, ?_, ?_⟩
      · change _ = repeatedEntries party (node.blocks ++ [{ block with events := exec.events }])
        rw [repeatedEntries_append, ← follows.entries]
        unfold received
        split
        · rename_i empty
          rw [empty, List.map_nil, List.append_nil]
        · rfl
      all_goals rw [head_append]
      · unfold received
        split
        · exact Nat.le_of_lt higher
        · exact Nat.le_refl _
      · intro _ some
        unfold received
        rw [if_neg some]
        exact ⟨rfl, rfl⟩
      · intro _ empty
        unfold received
        rw [if_pos empty]
        exact higher

theorem LedgerFollows.act {party : PartyId} {node : Node} {ledger : SubLedger}
    (follows : LedgerFollows party node ledger) {action : LedgerAction} (anew : HostsAnew node action) :
    ∃ after, LedgerFollows party (node.act action) after := by
  cases action with
  | host keyring => exact ⟨ledger, follows.host anew⟩
  | commit env block => exact follows.commit env block

/-! ### Repetitions -/

omit [SerdeJson] [Blake3] [ChaCha20Poly1305] in
theorem repeated_ne_nil {party : PartyId} {events : List Event} :
    repeated party events ≠ [] ↔ ∃ event ∈ events, event.visibility.includes party = true := by
  constructor
  · intro some
    obtain ⟨event, member⟩ := List.exists_mem_of_ne_nil _ some
    obtain ⟨origin, inside, copy⟩ := List.mem_flatMap.mp member
    obtain ⟨positive, _⟩ := List.mem_replicate.mp copy
    exact ⟨origin, inside, listedTimes_pos.mp (Nat.pos_of_ne_zero positive)⟩
  · intro seen
    obtain ⟨event, inside, visible⟩ := seen
    apply List.ne_nil_of_mem
    apply List.mem_flatMap.mpr
    exact ⟨event, inside, List.mem_replicate.mpr
      ⟨Nat.ne_of_gt (listedTimes_pos.mpr visible), rfl⟩⟩

omit [SerdeJson] [Blake3] [ChaCha20Poly1305] in
/-- An event named once is filed once. -/
theorem repeated_eq_filter {party : PartyId} {events : List Event}
    (once : ∀ event ∈ events, listedTimes party event ≤ 1) :
    repeated party events = events.filter fun event => event.visibility.includes party := by
  induction events with
  | nil => rfl
  | cons event rest ih =>
      have tail := ih fun other member => once other (List.mem_cons_of_mem _ member)
      have head := once event List.mem_cons_self
      change List.replicate (listedTimes party event) event ++ repeated party rest = _
      rw [tail]
      by_cases visible : event.visibility.includes party = true
      · have single : listedTimes party event = 1 := by
          have positive := listedTimes_pos.mpr visible
          omega
        rw [single, List.filter_cons, if_pos visible]
        rfl
      · have none : listedTimes party event = 0 := by
          by_contra other
          exact visible (listedTimes_pos.mp (Nat.pos_of_ne_zero other))
        rw [none, List.filter_cons, if_neg visible]
        rfl

omit [SerdeJson] [Blake3] [ChaCha20Poly1305] in
/-- Filing never loses an event, and files more as soon as one is named twice. -/
theorem length_repeated (party : PartyId) (events : List Event) :
    (events.filter fun event => event.visibility.includes party).length ≤
        (repeated party events).length ∧
      ((events.filter fun event => event.visibility.includes party).length =
          (repeated party events).length →
        ∀ event ∈ events, listedTimes party event ≤ 1) := by
  induction events with
  | nil => exact ⟨Nat.le_refl _, fun _ event member => absurd member List.not_mem_nil⟩
  | cons event rest ih =>
      obtain ⟨bound, tight⟩ := ih
      have longer : (repeated party (event :: rest)).length =
          listedTimes party event + (repeated party rest).length := by
        change (List.replicate (listedTimes party event) event ++ repeated party rest).length = _
        rw [List.length_append, List.length_replicate]
      rw [longer]
      by_cases visible : event.visibility.includes party = true
      · have positive := listedTimes_pos.mpr visible
        rw [List.filter_cons, if_pos visible, List.length_cons]
        refine ⟨by omega, fun same other member => ?_⟩
        rcases List.mem_cons.mp member with rfl | later
        · omega
        · exact tight (by omega) other later
      · have none : listedTimes party event = 0 := by
          by_contra other
          exact visible (listedTimes_pos.mp (Nat.pos_of_ne_zero other))
        rw [List.filter_cons, if_neg visible, none]
        refine ⟨by omega, fun same other member => ?_⟩
        rcases List.mem_cons.mp member with rfl | later
        · omega
        · exact tight (by omega) other later

omit [SerdeJson] [ChaCha20Poly1305] in
/-- A ledger with repetitions is exact just if no event names its party twice. -/
theorem repeatedEntries_exact {party : PartyId} {blocks : List Block} :
    repeatedEntries party blocks = visibleEntries party blocks ↔
      ∀ block ∈ blocks, ∀ event ∈ block.events, listedTimes party event ≤ 1 := by
  constructor
  · intro same
    have lengths := congrArg List.length same
    -- By induction over the chain with the lengths alone.
    have each : ∀ blocks : List Block,
        (visibleEntries party blocks).length ≤ (repeatedEntries party blocks).length ∧
          ((repeatedEntries party blocks).length = (visibleEntries party blocks).length →
            ∀ block ∈ blocks, ∀ event ∈ block.events, listedTimes party event ≤ 1) := by
      intro blocks
      induction blocks with
      | nil => exact ⟨Nat.le_refl _, fun _ block member => absurd member List.not_mem_nil⟩
      | cons block rest ih =>
          obtain ⟨bound, tight⟩ := ih
          obtain ⟨shorter, once⟩ := length_repeated party block.events
          have first : (visibleEntries party (block :: rest)).length =
              (block.events.filter fun event => event.visibility.includes party).length +
                (visibleEntries party rest).length := by
            simp [visibleEntries]
          have second : (repeatedEntries party (block :: rest)).length =
              (repeated party block.events).length + (repeatedEntries party rest).length := by
            simp [repeatedEntries]
          rw [first, second]
          refine ⟨by omega, fun equal other member => ?_⟩
          rcases List.mem_cons.mp member with rfl | later
          · exact once (by omega)
          · exact tight (by omega) other later
    exact (each blocks).2 lengths
  · intro once
    unfold repeatedEntries visibleEntries
    apply List.flatMap_congr
    intro block member
    rw [repeated_eq_filter (once block member)]

/-! ### Parties hosted since genesis -/

structure HostedAtGenesis (party : PartyId) (start : Node) : Prop where
  distinct : (start.keyrings.map ViewKeyring.party).Nodup
  hosted : party ∈ start.keyrings.map ViewKeyring.party
  stored : start.subLedgers.lookup party = some (SubLedger.new party)
  genesis : start.blocks = [Block.deterministicGenesis]

omit [SerdeJson] [ChaCha20Poly1305] in
theorem HostedAtGenesis.follows {party : PartyId} {start : Node}
    (begun : HostedAtGenesis party start) : LedgerFollows party start (SubLedger.new party) := by
  have short : ¬ 1 < start.blocks.length := by
    rw [begun.genesis]
    decide
  refine ⟨begun.distinct, begun.hosted, begun.stored, ?_, Nat.zero_le _, ?_, ?_⟩
  · rw [begun.genesis]
    rfl
  · intro long
    exact absurd long short
  · intro long
    exact absurd long short

theorem follows_run {party : PartyId} {start : Node} {actions : List LedgerAction}
    (begun : HostedAtGenesis party start) (anew : Run.Along act HostsAnew start actions) :
    ∃ ledger, LedgerFollows party (Run.run act start actions) ledger := by
  induction actions using List.reverseRecOn with
  | nil => exact ⟨_, begun.follows⟩
  | append_singleton front action ih =>
      obtain ⟨before, allowed, _⟩ := (Run.along_append act).mp anew
      obtain ⟨ledger, follows⟩ := ih before
      rw [Run.run_snoc]
      exact follows.act allowed

/-- Where every party is hosted once, a sub-ledger is the visible part of the chain up to the
head just if no event names the party twice and the head has an event for it. -/
theorem sub_ledger_exact_iff (party : PartyId) (start : Node) (actions : List LedgerAction)
    (begun : HostedAtGenesis party start) (anew : Run.Along act HostsAnew start actions)
    (grown : 1 < (Run.run act start actions).blocks.length) :
    ∃ ledger, (Run.run act start actions).subLedgers.lookup party = some ledger ∧
      ((ledger.entries = visibleEntries party (Run.run act start actions).blocks ∧
          ledger.height = (Run.run act start actions).head.height ∧
          ledger.validatedRoot = (Run.run act start actions).head.eventsRoot) ↔
        (∀ block ∈ (Run.run act start actions).blocks, ∀ event ∈ block.events,
          listedTimes party event ≤ 1) ∧
        ∃ event ∈ (Run.run act start actions).head.events,
          event.visibility.includes party = true) := by
  obtain ⟨ledger, follows⟩ := follows_run begun anew
  refine ⟨ledger, follows.stored, ?_⟩
  rw [follows.entries, repeatedEntries_exact, ← repeated_ne_nil]
  constructor
  · rintro ⟨once, heights, _⟩
    refine ⟨once, fun empty => ?_⟩
    have late := follows.stale grown empty
    omega
  · rintro ⟨once, some⟩
    exact ⟨once, follows.current grown some⟩

end Runs

/-! ### Alice's ledger -/

section Alice

attribute [local instance] SerdeJson.compact Blake3.polynomial Ed25519.keyed
  ChaCha20Poly1305.keyed X25519.masked

open Session (tokenNode goldBlock goldEvent goldState goldBlock_verified)

def aliceKeyring : ViewKeyring :=
  { party := ⟨"alice"⟩
    seed := Vector.replicate 32 7 }

/-- A fresh node that hosts Alice. -/
noncomputable def aliceNode : Node := tokenNode.hostParty aliceKeyring

/-- A first block without commands. -/
def quietBlock : Block :=
  { height := 1
    parent := Block.deterministicGenesis.hash
    eventsRoot := merkleRoot []
    stateRoot := (StateTree.empty.putJson "chain/now" (10 : UInt64)).root
    timestamp := 10
    proposer := ⟨"v2"⟩
    events := []
    commands := [] }

theorem aliceNode_hosted : HostedAtGenesis ⟨"alice"⟩ aliceNode where
  distinct := List.nodup_singleton _
  hosted := List.mem_singleton_self _
  stored := AList.lookup_insert _
  genesis := rfl

theorem quietBlock_verified :
    aliceNode.verifyBlock (.healthy 10) quietBlock =
      .ok ([], StateTree.empty.putJson "chain/now" (10 : UInt64)) := by
  have unchanged : adjustBasePrice (StateTree.empty.putJson "chain/now" (10 : UInt64))
      aliceNode.feePolicy 0 = StateTree.empty.putJson "chain/now" (10 : UInt64) :=
    if_neg (by decide)
  have verified := @verifyBlock_ok _ _ (.healthy 10) aliceNode quietBlock
    ⟨StateTree.empty.putJson "chain/now" (10 : UInt64), [], 0⟩ rfl rfl (by decide +kernel)
    (by decide +kernel) rfl (by decide +kernel) rfl (by rw [unchanged, quietBlock])
  rw [unchanged] at verified
  exact verified

theorem aliceNode_commits {block : Block} {events : List Event} {state : StateTree}
    (verified : aliceNode.verifyBlock (.healthy 10) block = .ok (events, state)) :
    (∃ summary, (aliceNode.commitBlock (.healthy 10) block).1 = .ok summary) ∧
      (aliceNode.commitBlock (.healthy 10) block).2.blocks =
        [Block.deterministicGenesis, { block with events := events }] ∧
      (aliceNode.commitBlock (.healthy 10) block).2.head = { block with events := events } := by
  obtain ⟨summary, ledgers, store, committed⟩ := commitBlock_ok (fun _ => rfl) verified
    aliceNode_hosted.distinct
  rw [committed]
  exact ⟨⟨summary, rfl⟩, rfl, head_append _ _⟩

/-- The node behind a run of one commit. -/
theorem run_commit (node : Node) (env : Env) (block : Block) :
    Run.run act node [.commit env block] = (node.commitBlock env block).2 := rfl

/-- Behind a block without events for her, Alice's ledger is still at the old height. -/
theorem quiet_head_missed :
    HostedAtGenesis ⟨"alice"⟩ aliceNode ∧
    (∃ summary, (aliceNode.commitBlock (.healthy 10) quietBlock).1 = .ok summary) ∧
    ∃ ledger, (Run.run act aliceNode [.commit (.healthy 10) quietBlock]).subLedgers.lookup
        ⟨"alice"⟩ = some ledger ∧
      ledger.height < (Run.run act aliceNode [.commit (.healthy 10) quietBlock]).head.height := by
  obtain ⟨accepted, blocks, head⟩ := aliceNode_commits quietBlock_verified
  obtain ⟨ledger, follows⟩ := aliceNode_hosted.follows.commit (.healthy 10) quietBlock
  rw [run_commit]
  refine ⟨aliceNode_hosted, accepted, ledger, follows.stored, follows.stale ?_ ?_⟩
  · rw [blocks]
    exact Nat.lt_succ_self 1
  · rw [head]
    rfl

/-- Behind a block with a public event her ledger is exact. -/
theorem sub_ledger_exact_iff_gold :
    HostedAtGenesis ⟨"alice"⟩ aliceNode ∧
    Run.Along act HostsAnew aliceNode [.commit (.healthy 10) goldBlock] ∧
    ∃ ledger, (Run.run act aliceNode [.commit (.healthy 10) goldBlock]).subLedgers.lookup
        ⟨"alice"⟩ = some ledger ∧
      ledger.entries = visibleEntries ⟨"alice"⟩
        (Run.run act aliceNode [.commit (.healthy 10) goldBlock]).blocks ∧
      ledger.height = (Run.run act aliceNode [.commit (.healthy 10) goldBlock]).head.height ∧
      ledger.validatedRoot =
        (Run.run act aliceNode [.commit (.healthy 10) goldBlock]).head.eventsRoot := by
  have anew : Run.Along act HostsAnew aliceNode [.commit (.healthy 10) goldBlock] :=
    ⟨trivial, trivial⟩
  obtain ⟨_, blocks, head⟩ := aliceNode_commits goldBlock_verified
  have grown : 1 < (Run.run act aliceNode [.commit (.healthy 10) goldBlock]).blocks.length := by
    rw [run_commit, blocks]
    exact Nat.lt_succ_self 1
  obtain ⟨ledger, stored, mirrors⟩ := sub_ledger_exact_iff ⟨"alice"⟩ aliceNode
    [.commit (.healthy 10) goldBlock] aliceNode_hosted anew grown
  rw [run_commit] at stored mirrors ⊢
  refine ⟨aliceNode_hosted, anew, ledger, stored, mirrors.mpr ⟨?_, ?_⟩⟩
  · rw [blocks]
    intro block member event inside
    rcases List.mem_cons.mp member with rfl | last
    · cases inside
    · rw [List.mem_singleton.mp last] at inside
      rw [List.mem_singleton.mp inside]
      exact Nat.le_refl _
  · rw [head]
    exact ⟨goldEvent, List.mem_singleton_self _, rfl⟩

/-- The same run, and its ledger holds nothing that is not for Alice. -/
theorem sub_ledgers_private_gold :
    IdealAead ∧
    ∃ ledger, (Run.run act tokenNode [.host aliceKeyring,
        .commit (.healthy 10) goldBlock]).subLedgers.lookup ⟨"alice"⟩ = some ledger ∧
      ∀ entry ∈ ledger.entries, entry.event.visibility.includes ⟨"alice"⟩ = true := by
  obtain ⟨ledger, follows⟩ := aliceNode_hosted.follows.commit (.healthy 10) goldBlock
  have hosted : Run.run act tokenNode [.host aliceKeyring, .commit (.healthy 10) goldBlock] =
      (aliceNode.commitBlock (.healthy 10) goldBlock).2 := rfl
  have discreet := (sub_ledgers_private idealAead_keyed tokenNode rfl
    [.host aliceKeyring, .commit (.healthy 10) goldBlock]).1 ⟨"alice"⟩ ledger
  rw [hosted] at discreet ⊢
  exact ⟨idealAead_keyed, ledger, follows.stored, discreet follows.stored⟩

end Alice

end Node

end Veilux
