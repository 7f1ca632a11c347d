/-
Runs of the prism of unique tokens.  The k-th mint of a collection issues index k, so
an index is issued once; its owner changes by a command of the owner, or of the party
the owner has last approved for it.
-/

import Veilux.Lib.Run
import Veilux.Prism.NftSteps

namespace Veilux

namespace NftPrism

open PrismM

section Runs

variable [SerdeJson] [Blake3] {command : Command} {state after : StateTree}
  {output : PrismOutput} {id : Hash} {index : UInt64}

/-! ### What a run knows of a collection -/

omit [Blake3] in
/-- The mints into a collection. -/
def mints (id : Hash) (commands : List Command) : Nat := commands.countP (mintsInto id)

omit [Blake3] in
theorem mints_snoc (id : Hash) (commands : List Command) (command : Command) :
    mints id (commands ++ [command]) =
      mints id commands + if mintsInto id command = true then 1 else 0 := by
  unfold mints
  rw [List.countP_append, List.countP_singleton]

/-- The collection a command mints into has issued fewer indices than there are. -/
def Roomy (state : StateTree) (command : Command) : Prop :=
  ∀ id coll, mintsInto id command = true → collection state id = some coll →
    coll.minted.toNat + 1 < 2 ^ 64

/-- Accepted without wrapping the number of issued indices. -/
def Counted (state : StateTree) (command : Command) : Prop :=
  prism.Accepted state command ∧ Roomy state command

/-- The owner has approved the spender and holds the index ever since, and nothing else was
done with it. -/
def LentSince (start : StateTree) (id : Hash) (index : UInt64) (owner spender : PartyId)
    (done : List Command) : Prop :=
  ∃ early approval later, done = early ++ approval :: later ∧
    Lends id index spender approval ∧ approval.submitter = owner ∧
    (∀ other ∈ later, ¬ Touches id index other) ∧
    ∀ middle rest, later = middle ++ rest →
      ownerOf (Run.run prism.step start (early ++ approval :: middle)) id index = some owner

/-- What the state has of a collection after a run. -/
structure Tracks (start : StateTree) (id : Hash) (done : List Command) (state : StateTree) :
    Prop where
  counted : ∀ coll, collection state id = some coll → coll.minted.toNat = mints id done
  uncreated : collection state id = none → mints id done = 0
  capped : ∀ coll max, collection state id = some coll → coll.maxSupply = some max →
    coll.minted ≤ max
  below : ∀ index, (ownerOf state id index).isSome → index.toNat < mints id done
  lent : ∀ index spender, approvalOf state id index = some spender →
    ∃ owner, ownerOf state id index = some owner ∧ LentSince start id index owner spender done

theorem LentSince.snoc {start : StateTree} {owner spender : PartyId} {done : List Command}
    (lent : LentSince start id index owner spender done) (aside : ¬ Touches id index command)
    (held : ownerOf (Run.run prism.step start (done ++ [command])) id index = some owner) :
    LentSince start id index owner spender (done ++ [command]) := by
  obtain ⟨early, approval, later, rfl, lends, submitter, others, holds⟩ := lent
  refine ⟨early, approval, later ++ [command], ?_, lends, submitter, ?_, ?_⟩
  · rw [List.append_assoc, List.cons_append]
  · intro other member
    rcases List.mem_append.mp member with inLater | last
    · exact others other inLater
    · rw [List.mem_singleton.mp last]
      exact aside
  · intro middle rest split
    rcases List.eq_nil_or_concat rest with rfl | ⟨front, last, rfl⟩
    · rw [List.append_nil] at split
      rw [← split, ← List.cons_append, ← List.append_assoc]
      exact held
    · rw [List.concat_eq_append, ← List.append_assoc] at split
      exact holds middle front (List.append_inj_left' split rfl)

theorem lentSince_now {start : StateTree} {spender : PartyId} {done : List Command}
    (lends : Lends id index spender command)
    (held : ownerOf (Run.run prism.step start (done ++ [command])) id index =
      some command.submitter) :
    LentSince start id index command.submitter spender (done ++ [command]) := by
  refine ⟨done, command, [], rfl, lends, rfl, nofun, ?_⟩
  intro middle rest split
  obtain ⟨rfl, _⟩ := List.append_eq_nil_iff.mp split.symm
  exact held

section Step

variable {start : StateTree} {done : List Command}

/-- What is known of a collection and its indices after one more command. -/
theorem Tracks.collected (tracks : Tracks start id done state)
    (accepted : Counted state command) :
    (∀ coll, collection (prism.step state command) id = some coll →
      coll.minted.toNat = mints id (done ++ [command])) ∧
    (collection (prism.step state command) id = none → mints id (done ++ [command]) = 0) ∧
    (∀ coll max, collection (prism.step state command) id = some coll →
      coll.maxSupply = some max → coll.minted ≤ max) := by
  have same (spares : mintsInto id command = false)
      (coll : collection (prism.step state command) id = collection state id) :
      (∀ coll, collection (prism.step state command) id = some coll →
        coll.minted.toNat = mints id (done ++ [command])) ∧
      (collection (prism.step state command) id = none → mints id (done ++ [command]) = 0) ∧
      (∀ coll max, collection (prism.step state command) id = some coll →
        coll.maxSupply = some max → coll.minted ≤ max) := by
    rw [coll, mints_snoc, spares]
    exact ⟨tracks.counted, tracks.uncreated, tracks.capped⟩
  rcases moves accepted.1 id 0 with ⟨coll, spares, _, absent, blank, stored, _, _⟩ |
    ⟨coll, target, _, issues, _, found, room, stored, _, _⟩ |
    ⟨_, _, spares, _, _, coll, _, _⟩ | ⟨_, _, spares, _, coll, _, _⟩ |
    ⟨_, spares, _, coll, _, _⟩ | ⟨spares, _, still⟩
  · rw [stored, mints_snoc, spares]
    refine ⟨?_, nofun, ?_⟩
    · intro other equal
      cases equal
      rw [blank]
      exact (tracks.uncreated absent).symm
    · intro other max equal _
      cases equal
      rw [blank, UInt64.le_iff_toNat_le]
      exact Nat.zero_le _
  · have next : (coll.minted + 1).toNat = coll.minted.toNat + 1 := by
      rw [UInt64.toNat_add]
      exact Nat.mod_eq_of_lt (accepted.2 id coll issues found)
    rw [stored, mints_snoc, issues]
    refine ⟨?_, nofun, ?_⟩
    · intro other equal
      cases equal
      rw [next, tracks.counted coll found]
      rfl
    · intro other max equal capped
      cases equal
      have below := room max capped
      rw [UInt64.lt_iff_toNat_lt] at below
      rw [UInt64.le_iff_toNat_le, next]
      exact below
  · exact same spares coll
  · exact same spares coll
  · exact same spares coll
  · exact same spares still.coll

theorem Tracks.owned (tracks : Tracks start id done state)
    (accepted : Counted state command) (index : UInt64)
    (held : (ownerOf (prism.step state command) id index).isSome) :
    index.toNat < mints id (done ++ [command]) := by
  have more : mints id done ≤ mints id (done ++ [command]) := by
    rw [mints_snoc]
    exact Nat.le_add_right _ _
  have earlier (before : (ownerOf state id index).isSome) :
      index.toNat < mints id (done ++ [command]) :=
    lt_of_lt_of_le (tracks.below index before) more
  rcases moves accepted.1 id index with ⟨_, _, _, _, _, _, owner, _⟩ |
    ⟨coll, target, _, issues, _, found, _, _, owner, _⟩ |
    ⟨_, _, _, before, _⟩ | ⟨_, _, _, before, _⟩ | ⟨_, _, before, _⟩ | ⟨_, _, still⟩
  · exact earlier (owner ▸ held)
  · by_cases here : index = coll.minted
    · rw [here, tracks.counted coll found, mints_snoc, issues]
      exact Nat.lt_succ_self _
    · rw [owner, if_neg here] at held
      exact earlier held
  · exact earlier (Option.isSome_of_eq_some before)
  · exact earlier (Option.isSome_of_eq_some before)
  · exact earlier (Option.isSome_of_eq_some before)
  · exact earlier (still.owner ▸ held)

theorem Tracks.approved (tracks : Tracks start id done (Run.run prism.step start done))
    (accepted : Counted (Run.run prism.step start done) command) (index : UInt64)
    (spender : PartyId)
    (found : approvalOf (prism.step (Run.run prism.step start done) command) id index =
      some spender) :
    ∃ owner, ownerOf (prism.step (Run.run prism.step start done) command) id index =
        some owner ∧
      LentSince start id index owner spender (done ++ [command]) := by
  have still (aside : ¬ Touches id index command)
      (owner : ∀ holder, ownerOf (Run.run prism.step start done) id index = some holder →
        ownerOf (prism.step (Run.run prism.step start done) command) id index = some holder)
      (approval : approvalOf (prism.step (Run.run prism.step start done) command) id index =
        approvalOf (Run.run prism.step start done) id index) :
      ∃ owner, ownerOf (prism.step (Run.run prism.step start done) command) id index =
          some owner ∧
        LentSince start id index owner spender (done ++ [command]) := by
    rw [approval] at found
    obtain ⟨holder, held, lent⟩ := tracks.lent index spender found
    refine ⟨holder, owner holder held, lent.snoc aside ?_⟩
    rw [Run.run_snoc]
    exact owner holder held
  rcases moves accepted.1 id index with ⟨_, _, aside, _, _, _, owner, approval⟩ |
    ⟨coll, _, _, _, aside, stored, _, _, owner, approval⟩ |
    ⟨_, _, _, _, _, _, _, cleared⟩ | ⟨other, lends, _, held, _, owner, approval⟩ |
    ⟨_, _, _, _, _, cleared⟩ | ⟨_, aside, kept⟩
  · exact still aside (fun holder held => owner.trans held) approval
  · refine still aside ?_ approval
    intro holder held
    rw [owner, if_neg]
    · exact held
    · intro here
      have below := tracks.below index (Option.isSome_of_eq_some held)
      rw [here, tracks.counted coll stored] at below
      exact Nat.lt_irrefl _ below
  · rw [cleared] at found
    cases found
  · rw [approval] at found
    cases found
    refine ⟨command.submitter, owner.trans held, lentSince_now lends ?_⟩
    rw [Run.run_snoc]
    exact owner.trans held
  · rw [cleared] at found
    cases found
  · exact still aside (fun holder held => kept.owner.trans held) kept.approval

theorem Tracks.step (tracks : Tracks start id done (Run.run prism.step start done))
    (accepted : Counted (Run.run prism.step start done) command) :
    Tracks start id (done ++ [command]) (Run.run prism.step start (done ++ [command])) := by
  rw [Run.run_snoc]
  obtain ⟨counted, uncreated, capped⟩ := tracks.collected accepted
  exact
    { counted := counted
      uncreated := uncreated
      capped := capped
      below := tracks.owned accepted
      lent := tracks.approved accepted }

end Step

omit [Blake3] in
/-- No collection has been created. -/
def Fresh (state : StateTree) : Prop :=
  ∀ id, state.get (collKey id) = none ∧
    ∀ index, state.get (ownerKey id index) = none ∧ state.get (approveKey id index) = none

omit [Blake3] in
theorem getJson?_absent {α : Type} [Serialize α] {key : String} (absent : state.get key = none) :
    state.getJson? α key = none := by
  unfold StateTree.getJson? StateTree.getJson
  rw [absent]

theorem Fresh.tracks (fresh : Fresh state) (id : Hash) : Tracks state id [] state := by
  have uncreated : collection state id = none := getJson?_absent (fresh id).1
  constructor
  · rw [uncreated]
    exact nofun
  · exact fun _ => rfl
  · rw [uncreated]
    exact nofun
  · intro index held
    have unowned : ownerOf state id index = none := getJson?_absent ((fresh id).2 index).1
    rw [unowned] at held
    cases held
  · intro index spender found
    have unlent : approvalOf state id index = none := getJson?_absent ((fresh id).2 index).2
    rw [unlent] at found
    cases found

theorem tracks_run {start : StateTree} {commands : List Command} (fresh : Fresh start)
    (accepted : Run.Along prism.step Counted start commands) (id : Hash) :
    Tracks start id commands (Run.run prism.step start commands) := by
  induction commands using List.reverseRecOn with
  | nil => exact fresh.tracks id
  | append_singleton front command ih =>
      obtain ⟨before, last⟩ := (Run.along_append prism.step).mp accepted
      exact (ih before).step last.1

end Runs

/-! ### Titles -/

section Main

variable [SerdeJson] [Blake3]

/-- Of one collection, after a run: every owned index has been issued and the cap is kept, the
k-th mint issues index k, which had no owner before, and nothing else issues one; an owner
loses an index only by its own command or by the party it has approved since it has the index;
transfers and burns leave no approval. -/
structure Titled (start : StateTree) (commands : List Command) (id : Hash) : Prop where
  below : ∀ index, (ownerOf (Run.run prism.step start commands) id index).isSome →
    ∃ coll, collection (Run.run prism.step start commands) id = some coll ∧ index < coll.minted
  capped : ∀ coll max, collection (Run.run prism.step start commands) id = some coll →
    coll.maxSupply = some max → coll.minted ≤ max
  numbered : ∀ coll, collection (Run.run prism.step start commands) id = some coll →
    coll.minted.toNat = mints id commands
  issued : ∀ front command back target, commands = front ++ command :: back →
    Issues id target command → ∃ index : UInt64, index.toNat = mints id front ∧
      ownerOf (Run.run prism.step start (front ++ [command])) id index = some target ∧
      ∀ early late, front = early ++ late →
        ownerOf (Run.run prism.step start early) id index = none
  onlyIssued : ∀ front command back index, commands = front ++ command :: back →
    ownerOf (Run.run prism.step start front) id index = none →
    (ownerOf (Run.run prism.step start (front ++ [command])) id index).isSome →
      mintsInto id command = true ∧ index.toNat = mints id front
  authorized : ∀ front command back index owner, commands = front ++ command :: back →
    ownerOf (Run.run prism.step start front) id index = some owner →
    ownerOf (Run.run prism.step start (front ++ [command])) id index ≠ some owner →
      command.submitter = owner ∨ LentSince start id index owner command.submitter front
  cleared : ∀ front command back index, commands = front ++ command :: back →
    Passes id index command ∨ Burns id index command →
      approvalOf (Run.run prism.step start (front ++ [command])) id index = none

variable {start : StateTree} {front : List Command} {command : Command} {id : Hash}

/-- One step of a run, with what is known before it. -/
theorem tracks_at {commands back : List Command} (fresh : Fresh start)
    (accepted : Run.Along prism.step Counted start commands)
    (split : commands = front ++ command :: back) (id : Hash) :
    Tracks start id front (Run.run prism.step start front) ∧
      Counted (Run.run prism.step start front) command := by
  rw [split] at accepted
  obtain ⟨before, step, _⟩ := (Run.along_append prism.step).mp accepted
  exact ⟨tracks_run fresh before id, step⟩

/-- What is issued had no owner at any moment before. -/
theorem never_owned (fresh : Fresh start)
    (accepted : Run.Along prism.step Counted start front) {index : UInt64}
    (next : mints id front ≤ index.toNat) {early late : List Command}
    (split : front = early ++ late) :
    ownerOf (Run.run prism.step start early) id index = none := by
  rw [split] at accepted next
  have tracks := tracks_run fresh ((Run.along_append prism.step).mp accepted).1 id
  have fewer : mints id early ≤ mints id (early ++ late) := by
    unfold mints
    rw [List.countP_append]
    exact Nat.le_add_right _ _
  cases owned : ownerOf (Run.run prism.step start early) id index with
  | none => rfl
  | some owner =>
      have below := tracks.below index (Option.isSome_of_eq_some owned)
      omega

theorem mint_issues (fresh : Fresh start) (accepted : Run.Along prism.step Counted start front)
    (counted : Counted (Run.run prism.step start front) command) {target : PartyId}
    (issues : Issues id target command) :
    ∃ index : UInt64, index.toNat = mints id front ∧
      ownerOf (Run.run prism.step start (front ++ [command])) id index = some target ∧
      ∀ early late, front = early ++ late →
        ownerOf (Run.run prism.step start early) id index = none := by
  have tracks := tracks_run fresh accepted id
  obtain ⟨output, after, handled⟩ := counted.1
  obtain ⟨operation, parsed, executed⟩ := accepts_handle handled
  obtain ⟨uri, content, named⟩ := issues
  rw [named] at parsed
  cases parsed
  obtain ⟨coll, token, found, _, _, written⟩ := accepts_mint executed
  have index := tracks.counted coll found
  refine ⟨coll.minted, index, ?_, ?_⟩
  · rw [Run.run_snoc, Prism.step_eq handled, written]
    have reads := minted_reads (Run.run prism.step start front) id id coll.minted coll.minted
      token target { coll with minted := coll.minted + 1 }
    rw [reads.2.1, if_pos ⟨rfl, rfl⟩]
  · intro early late split
    exact never_owned fresh accepted index.ge split

theorem issue_is_mint (tracks : Tracks start id front (Run.run prism.step start front))
    (counted : Counted (Run.run prism.step start front) command) {index : UInt64}
    (unowned : ownerOf (Run.run prism.step start front) id index = none)
    (owned : (ownerOf (Run.run prism.step start (front ++ [command])) id index).isSome) :
    mintsInto id command = true ∧ index.toNat = mints id front := by
  rw [Run.run_snoc] at owned
  rcases moves counted.1 id index with ⟨_, _, _, _, _, _, owner, _⟩ |
    ⟨coll, _, _, issues, _, found, _, _, owner, _⟩ | ⟨_, _, _, held, _⟩ |
    ⟨_, _, _, held, _⟩ | ⟨_, _, held, _⟩ | ⟨_, _, still⟩
  · rw [owner, unowned] at owned
    cases owned
  · by_cases here : index = coll.minted
    · exact ⟨issues, here ▸ tracks.counted coll found⟩
    · rw [owner, if_neg here, unowned] at owned
      cases owned
  · rw [unowned] at held
    cases held
  · rw [unowned] at held
    cases held
  · rw [unowned] at held
    cases held
  · rw [still.owner, unowned] at owned
    cases owned

theorem loss_authorized (tracks : Tracks start id front (Run.run prism.step start front))
    (counted : Counted (Run.run prism.step start front) command) {index : UInt64}
    {owner : PartyId} (held : ownerOf (Run.run prism.step start front) id index = some owner)
    (lost : ownerOf (Run.run prism.step start (front ++ [command])) id index ≠ some owner) :
    command.submitter = owner ∨ LentSince start id index owner command.submitter front := by
  rw [Run.run_snoc] at lost
  rcases moves counted.1 id index with ⟨_, _, _, _, _, _, same, _⟩ |
    ⟨coll, _, _, _, _, found, _, _, same, _⟩ | ⟨holder, _, _, before, allowed, _⟩ |
    ⟨_, _, _, _, _, same, _⟩ | ⟨_, _, before, _⟩ | ⟨_, _, still⟩
  · exact absurd (same.trans held) lost
  · rw [if_neg] at same
    · exact absurd (same.trans held) lost
    · intro here
      have below := tracks.below index (Option.isSome_of_eq_some held)
      rw [here, tracks.counted coll found] at below
      exact Nat.lt_irrefl _ below
  · rw [held] at before
    cases before
    rcases allowed with own | approved
    · exact .inl own.symm
    · obtain ⟨other, found, lent⟩ := tracks.lent index command.submitter approved
      rw [held] at found
      cases found
      exact .inr lent
  · exact absurd (same.trans held) lost
  · rw [held] at before
    cases before
    exact .inl rfl
  · exact absurd (still.owner.trans held) lost

theorem approval_cleared (accepted : prism.Accepted (Run.run prism.step start front) command)
    {index : UInt64} (ends : Passes id index command ∨ Burns id index command) :
    approvalOf (Run.run prism.step start (front ++ [command])) id index = none := by
  rw [Run.run_snoc]
  have touches : Touches id index command := by
    rcases ends with passes | burns
    · exact .inl passes
    · exact .inr (.inr burns)
  rcases moves accepted id index with ⟨_, _, aside, _⟩ | ⟨_, _, _, _, aside, _⟩ |
    ⟨_, _, _, _, _, _, _, cleared⟩ | ⟨spender, lends, _⟩ | ⟨_, _, _, _, _, cleared⟩ |
    ⟨_, aside, _⟩
  · exact absurd touches aside
  · exact absurd touches aside
  · exact cleared
  · unfold Lends at lends
    rcases ends with ⟨target, passes⟩ | burns
    · rw [lends] at passes
      cases passes
    · unfold Burns at burns
      rw [lends] at burns
      cases burns
  · exact cleared
  · exact absurd touches aside

/-- As long as no collection has issued all indices there are, its titles are sound. -/
theorem titles_sound (start : StateTree) (commands : List Command) (fresh : Fresh start)
    (accepted : Run.Along prism.step Counted start commands) (id : Hash) :
    Titled start commands id := by
  have whole := tracks_run fresh accepted id
  constructor
  · intro index owned
    have below := whole.below index owned
    cases found : collection (Run.run prism.step start commands) id with
    | none =>
        rw [whole.uncreated found] at below
        exact absurd below (Nat.not_lt_zero _)
    | some coll =>
        refine ⟨coll, rfl, ?_⟩
        rw [UInt64.lt_iff_toNat_lt, whole.counted coll found]
        exact below
  · exact whole.capped
  · exact whole.counted
  · intro front command back target split issues
    have before : Run.Along prism.step Counted start front := by
      rw [split] at accepted
      exact ((Run.along_append prism.step).mp accepted).1
    exact mint_issues fresh before (tracks_at fresh accepted split id).2 issues
  · intro front command back index split unowned owned
    obtain ⟨tracks, counted⟩ := tracks_at fresh accepted split id
    exact issue_is_mint tracks counted unowned owned
  · intro front command back index owner split held lost
    obtain ⟨tracks, counted⟩ := tracks_at fresh accepted split id
    exact loss_authorized tracks counted held lost
  · intro front command back index split ends
    exact approval_cleared (tracks_at fresh accepted split id).2.1 ends

/-! ### Accepted commands -/

variable {state : StateTree}

/-- An operation that stops nowhere is accepted. -/
theorem execute_accepted {operation : NftCommand}
    (parsed : fromSlice NftCommand command.payload = .ok operation)
    (passes : ∀ after, ¬ Rejects (execute command operation) state after) :
    prism.Accepted state command := by
  cases ran : (execute command operation).run.run state with
  | mk outcome after =>
      cases outcome with
      | ok output =>
          refine ⟨output, after, ?_⟩
          unfold prism handle
          dsimp only
          rw [parsed]
          exact ran
      | error error => exact absurd ⟨error, ran⟩ (passes after)

theorem createCollection_accepted {name symbol : String} {maxSupply : Option UInt64}
    (parsed : fromSlice NftCommand command.payload =
      .ok (.createCollection name symbol maxSupply))
    (absent : state.get (collKey (createdId command.submitter symbol name)) = none) :
    prism.Accepted state command := by
  apply execute_accepted parsed
  intro after rejected
  unfold execute createCollection at rejected
  simp only [rejects_ite, rejects_bind, rejects_get, rejects_modify, rejects_pure, accepts_get,
    StateTree.contains_eq_isSome, exists_false, and_false, or_self, or_false,
    false_or] at rejected
  obtain ⟨_, _, ⟨rfl, rfl⟩, taken, _⟩ := rejected
  rw [absent] at taken
  cases taken

theorem mint_accepted {target : PartyId} {uri : String} {content : Hash} {coll : Collection}
    (parsed : fromSlice NftCommand command.payload = .ok (.mint id target uri content))
    (stored : state.getJson Collection (collKey id) = .ok (some coll))
    (creator : coll.creator = command.submitter) (uncapped : coll.maxSupply = none) :
    prism.Accepted state command := by
  apply execute_accepted parsed
  intro after rejected
  have loaded : (loadCollection id).run.run state = (.ok coll, state) := by
    unfold loadCollection
    rw [run_bind_ok (rfl : (get : PrismM StateTree).run.run state = (.ok state, state)), stored]
    rfl
  obtain ⟨error, ran⟩ := rejected
  change (mint command id target uri content).run.run state = _ at ran
  unfold mint at ran
  rw [run_bind_ok loaded, if_neg (not_not_intro creator), uncapped] at ran
  cases ran

end Main

/-! ### A collection that runs out of indices -/

section Wrapping

attribute [local instance] SerdeJson.compact Blake3.polynomial

def nftCommand (submitter : String) (nonce : UInt64) (operation : NftCommand) : Command :=
  { prism := "nft"
    submitter := ⟨submitter⟩
    visibility := .pub
    payload := toVec operation
    nonce := nonce }

def artId : Hash := createdId ⟨"alice"⟩ "ART" "Art"

def artOpen : Command := nftCommand "alice" 0 (.createCollection "Art" "ART" none)

def artMint (nonce : Nat) : Command :=
  nftCommand "alice" (UInt64.ofNat nonce) (.mint artId ⟨"bob"⟩ "ipfs://art" Hash.zero)

/-- Alice opens a collection without a cap and mints into it for Bob. -/
def artRun (length : Nat) : List Command :=
  artOpen :: (List.range length).map artMint

theorem artRun_succ (length : Nat) : artRun (length + 1) = artRun length ++ [artMint length] := by
  unfold artRun
  rw [List.range_succ, List.map_append, List.map_singleton, List.cons_append]

def artColl (minted : UInt64) : Collection :=
  { opened ⟨"alice"⟩ "Art" "ART" none with minted := minted }

theorem fresh_empty : Fresh StateTree.empty :=
  fun _ => ⟨StateTree.get_empty _, fun _ => ⟨StateTree.get_empty _, StateTree.get_empty _⟩⟩

theorem artOpen_parsed : fromSlice NftCommand artOpen.payload =
    .ok (.createCollection "Art" "ART" none) :=
  fromSlice_toVec _

theorem artMint_parsed (nonce : Nat) : fromSlice NftCommand (artMint nonce).payload =
    .ok (.mint artId ⟨"bob"⟩ "ipfs://art" Hash.zero) := by
  unfold artMint nftCommand
  rw [fromSlice_toVec]

theorem artOpen_accepted : prism.Accepted StateTree.empty artOpen :=
  createCollection_accepted artOpen_parsed (StateTree.get_empty _)

/-- The collection in the state. -/
def Stored (state : StateTree) (minted : UInt64) : Prop :=
  state.getJson Collection (collKey artId) = .ok (some (artColl minted))

theorem artOpen_stored : Stored (prism.step StateTree.empty artOpen) 0 := by
  obtain ⟨output, after, accepted⟩ := artOpen_accepted
  rw [Prism.step_eq accepted]
  obtain ⟨operation, parsed, executed⟩ := accepts_handle accepted
  rw [artOpen_parsed] at parsed
  cases parsed
  rw [(accepts_createCollection executed).2]
  exact StateTree.getJson_putJson _ _ _

theorem artMint_accepted {state : StateTree} {minted : UInt64} (stored : Stored state minted)
    (nonce : Nat) : prism.Accepted state (artMint nonce) :=
  mint_accepted (artMint_parsed nonce) stored rfl rfl

theorem artMint_stored {state : StateTree} {minted : UInt64} (stored : Stored state minted)
    (nonce : Nat) :
    Stored (prism.step state (artMint nonce)) (minted + 1) ∧
      (ownerOf (prism.step state (artMint nonce)) artId minted).isSome := by
  obtain ⟨output, after, accepted⟩ := artMint_accepted stored nonce
  rw [Prism.step_eq accepted]
  obtain ⟨operation, parsed, executed⟩ := accepts_handle accepted
  rw [artMint_parsed] at parsed
  cases parsed
  obtain ⟨coll, token, found, _, _, rfl⟩ := accepts_mint executed
  unfold collection StateTree.getJson? at found
  rw [stored] at found
  cases found
  constructor
  · exact StateTree.getJson_putJson _ _ _
  · have reads := minted_reads state artId artId (artColl minted).minted minted token ⟨"bob"⟩
      { artColl minted with minted := (artColl minted).minted + 1 }
    rw [reads.2.1, if_pos ⟨rfl, rfl⟩]
    rfl

/-- The stored number of indices is the number of mints, modulo the size of its type. -/
theorem artRun_stored (length : Nat) :
    Stored (Run.run prism.step StateTree.empty (artRun length)) (UInt64.ofNat length) ∧
      Run.Along prism.step prism.Accepted StateTree.empty (artRun length) := by
  induction length with
  | zero => exact ⟨artOpen_stored, artOpen_accepted, trivial⟩
  | succ length ih =>
      rw [artRun_succ, Run.run_snoc, Run.along_append, UInt64.ofNat_add]
      exact ⟨(artMint_stored ih.1 length).1, ih.2, artMint_accepted ih.1 length, trivial⟩

theorem artRun_counted (length : Nat) (few : length < 2 ^ 64) :
    Run.Along prism.step Counted StateTree.empty (artRun length) := by
  induction length with
  | zero =>
      refine ⟨⟨artOpen_accepted, ?_⟩, trivial⟩
      intro id coll issues
      unfold mintsInto at issues
      rw [artOpen_parsed] at issues
      cases issues
  | succ length ih =>
      rw [artRun_succ, Run.along_append]
      have stored := (artRun_stored length).1
      refine ⟨ih (by omega), ⟨artMint_accepted stored length, ?_⟩, trivial⟩
      intro id coll issues found
      unfold mintsInto at issues
      rw [artMint_parsed] at issues
      have same : artId = id := of_decide_eq_true issues
      subst same
      unfold collection StateTree.getJson? at found
      rw [stored] at found
      cases found
      change (UInt64.ofNat length).toNat + 1 < 2 ^ 64
      rw [UInt64.toNat_ofNat', Nat.mod_eq_of_lt (by omega)]
      exact few

theorem titles_sound_art : Titled StateTree.empty (artRun 2) artId :=
  titles_sound StateTree.empty (artRun 2) fresh_empty (artRun_counted 2 (by decide)) artId

/-- The index issued when the number wraps is not below it. -/
theorem artRun_untitled {length : Nat} (wraps : (length + 1) % 2 ^ 64 = 0) :
    ¬ Titled StateTree.empty (artRun (length + 1)) artId := by
  intro titled
  have stored := (artRun_stored (length + 1)).1
  have owned := (artMint_stored (artRun_stored length).1 length).2
  rw [← Run.run_snoc prism.step, ← artRun_succ] at owned
  obtain ⟨coll, found, below⟩ := titled.below _ owned
  unfold collection StateTree.getJson? at found
  rw [stored] at found
  cases found
  have zero : (artColl (UInt64.ofNat (length + 1))).minted.toNat = 0 :=
    (UInt64.toNat_ofNat' ..).trans wraps
  rw [UInt64.lt_iff_toNat_lt, zero] at below
  exact Nat.not_lt_zero _ below

/-- After as many mints as there are indices the last token is not below the stored number. -/
theorem art_wrapped :
    ∃ length, length = 2 ^ 64 ∧ Fresh StateTree.empty ∧
      Run.Along prism.step prism.Accepted StateTree.empty (artRun length) ∧
      ¬ Titled StateTree.empty (artRun length) artId := by
  refine ⟨2 ^ 64, rfl, fresh_empty, ?_⟩
  obtain ⟨length, same⟩ : ∃ length, 2 ^ 64 = length + 1 := ⟨2 ^ 64 - 1, rfl⟩
  have wraps : (length + 1) % 2 ^ 64 = 0 := by
    rw [← same]
    exact Nat.mod_self _
  rw [same]
  exact ⟨(artRun_stored (length + 1)).2, artRun_untitled wraps⟩

end Wrapping

end NftPrism

end Veilux
