/-
Runs of the storage prism.  One count is kept for each cid: as long as it does not
wrap it is the puts and pins of the cid less its unpins, and a blob is kept while it
is positive.  The bytes under a cid were put with public visibility since the count
was last zero.
-/

import Veilux.Lib.Run
import Veilux.Kernel.Handled
import Veilux.Kernel.Spares
import Veilux.Lib.Keys
import Veilux.Prism.Storage

namespace Veilux

namespace StoragePrism

open PrismM

/-! ### The keys do not collide -/

theorem blobKey_injective {left right : Hash} (same : blobKey left = blobKey right) :
    left = right :=
  Hash.toHex_injective ((String.append_right_inj _).mp same)

theorem pinKey_injective {left right : Hash} (same : pinKey left = pinKey right) :
    left = right :=
  Hash.toHex_injective ((String.append_right_inj _).mp same)

theorem blobKey_ne_pinKey (left right : Hash) : blobKey left ≠ pinKey right :=
  Keys.Apart.append_ne (by decide) _ _

/-! ### Reading a written state -/

theorem readBlob_put (state : StateTree) (cid other : Hash) (data : List UInt8) :
    readBlob (state.put (blobKey cid) data) other =
      if other = cid then some data else readBlob state other := by
  unfold readBlob
  by_cases same : other = cid
  · rw [if_pos same, same, StateTree.get_put_self]
  · rw [if_neg same, StateTree.get_put_ne _ _ fun equal => same (blobKey_injective equal).symm]

theorem readBlob_putPin (state : StateTree) (cid other : Hash) (record : PinRecord) :
    readBlob (state.putJson (pinKey cid) record) other = readBlob state other :=
  StateTree.get_put_ne _ _ (Ne.symm (blobKey_ne_pinKey other cid))

theorem contains_blobKey (state : StateTree) (cid : Hash) :
    state.contains (blobKey cid) = (readBlob state cid).isSome :=
  StateTree.contains_eq_isSome _ _

section Runs

variable [SerdeJson]

theorem loadPin_putPin (state : StateTree) (cid other : Hash) (record : PinRecord) :
    loadPin (state.putJson (pinKey cid) record) other =
      if other = cid then record else loadPin state other := by
  unfold loadPin
  by_cases same : other = cid
  · rw [if_pos same, same, StateTree.getJson?_putJson, Option.getD_some]
  · rw [if_neg same]
    unfold StateTree.putJson
    rw [StateTree.getJson?_put_ne _ _ fun equal => same (pinKey_injective equal).symm]

theorem loadPin_putBlob (state : StateTree) (cid other : Hash) (data : List UInt8) :
    loadPin (state.put (blobKey cid) data) other = loadPin state other := by
  unfold loadPin
  rw [StateTree.getJson?_put_ne _ _ (blobKey_ne_pinKey cid other)]

/-- The stored count of a cid. -/
def refcount (state : StateTree) (cid : Hash) : UInt64 := (loadPin state cid).refcount

theorem refcount_putPin (state : StateTree) (cid other : Hash) (record : PinRecord) :
    refcount (state.putJson (pinKey cid) record) other =
      if other = cid then record.refcount else refcount state other := by
  unfold refcount
  rw [loadPin_putPin, apply_ite PinRecord.refcount]

theorem refcount_putBlob (state : StateTree) (cid other : Hash) (data : List UInt8) :
    refcount (state.put (blobKey cid) data) other = refcount state other := by
  unfold refcount
  rw [loadPin_putBlob]

/-- A count of zero is stored by removing the record. -/
theorem refcount_removed (state : StateTree) (cid other : Hash) :
    refcount ((state.remove (blobKey cid)).remove (pinKey cid)) other =
      if other = cid then 0 else refcount state other := by
  unfold refcount loadPin StateTree.getJson? StateTree.getJson
  by_cases same : other = cid
  · rw [if_pos same, same, StateTree.get_remove, if_pos rfl]
    rfl
  · rw [if_neg same, StateTree.get_remove, if_neg fun equal => same (pinKey_injective equal).symm,
      StateTree.get_remove, if_neg (blobKey_ne_pinKey cid other)]

omit [SerdeJson] in
theorem readBlob_removed (state : StateTree) (cid other : Hash) :
    readBlob ((state.remove (blobKey cid)).remove (pinKey cid)) other =
      if other = cid then none else readBlob state other := by
  unfold readBlob
  rw [StateTree.get_remove, if_neg (Ne.symm (blobKey_ne_pinKey other cid)), StateTree.get_remove]
  by_cases same : other = cid
  · rw [if_pos (congrArg blobKey same.symm), if_pos same]
  · rw [if_neg fun equal => same (blobKey_injective equal).symm, if_neg same]

/-! ### What a command does to a count -/

variable [Blake3] {command : Command} {state after : StateTree} {output : PrismOutput}
  {cid : Hash}

/-- The cid a command puts or pins. -/
def raised (command : Command) : Option Hash :=
  match fromSlice StorageCommand command.payload with
  | .ok (.put _ data) => some (Hash.digest data)
  | .ok (.op (.pin cid)) => some cid
  | _ => none

/-- The cid a command puts in public, or pins. -/
def secured (command : Command) : Option Hash :=
  match fromSlice StorageCommand command.payload with
  | .ok (.put _ data) => if command.visibility = .pub then some (Hash.digest data) else none
  | .ok (.op (.pin cid)) => some cid
  | _ => none

omit [Blake3] in
/-- The cid a command unpins. -/
def lowered (command : Command) : Option Hash :=
  match fromSlice StorageCommand command.payload with
  | .ok (.op (.unpin cid)) => some cid
  | _ => none

omit [Blake3] in
/-- The bytes a command puts with public visibility. -/
def published (command : Command) : Option (List UInt8) :=
  match fromSlice StorageCommand command.payload with
  | .ok (.put _ data) => if command.visibility = .pub then some data else none
  | _ => none

theorem accepts_handle (accepted : Accepts (handle command) state output after) :
    ∃ operation, fromSlice StorageCommand command.payload = .ok operation ∧
      Accepts (execute command operation) state output after := by
  unfold handle at accepted
  cases parsed : fromSlice StorageCommand command.payload with
  | error text =>
      rw [parsed] at accepted
      exact absurd accepted accepts_throw
  | ok operation =>
      rw [parsed] at accepted
      exact ⟨operation, rfl, accepted⟩

/-- The state with the bytes of a put, if they are to be public. -/
def withBlob (command : Command) (state : StateTree) (data : List UInt8) : StateTree :=
  if command.visibility = .pub ∧ ¬ state.contains (blobKey (Hash.digest data)) then
    state.put (blobKey (Hash.digest data)) data
  else state

theorem refcount_withBlob (data : List UInt8) (other : Hash) :
    refcount (withBlob command state data) other = refcount state other := by
  unfold withBlob
  split
  · exact refcount_putBlob _ _ _ _
  · rfl

omit [SerdeJson] in
theorem readBlob_withBlob (data : List UInt8) (other : Hash) :
    readBlob (withBlob command state data) other =
      if other = Hash.digest data ∧ command.visibility = .pub then
        some ((readBlob state other).getD data)
      else readBlob state other := by
  unfold withBlob
  rw [contains_blobKey]
  by_cases same : other = Hash.digest data
  · subst same
    cases found : readBlob state (Hash.digest data) with
    | none =>
        by_cases isPublic : command.visibility = .pub
        · simp [isPublic, readBlob_put]
        · simp [isPublic, found]
    | some bytes =>
        by_cases isPublic : command.visibility = .pub
        · simp [isPublic, found]
        · simp [isPublic, found]
  · rw [if_neg fun both : other = _ ∧ _ => same both.1]
    split
    · rw [readBlob_put, if_neg same]
    · rfl

theorem accepts_put {key : String} {data : List UInt8}
    (accepted : Accepts (put command key data) state output after) :
    (∀ other, refcount after other =
      if other = Hash.digest data then refcount state other + 1 else refcount state other) ∧
    ∀ other, readBlob after other =
      if other = Hash.digest data ∧ command.visibility = .pub then
        some ((readBlob state other).getD data)
      else readBlob state other := by
  obtain ⟨record, raised, rfl⟩ : ∃ record : PinRecord,
      record.refcount = refcount (withBlob command state data) (Hash.digest data) + 1 ∧
        (withBlob command state data).putJson (pinKey (Hash.digest data)) record = after := by
    unfold put at accepted
    rw [accepts_unless] at accepted
    simp only [accepts_bind, accepts_get, accepts_modify, accepts_pure, accepts_ite,
      decide_eq_true_eq] at accepted
    unfold withBlob
    obtain ⟨_, _, _, ⟨rfl, rfl⟩, ⟨stores, _, _, rfl, _, _, ⟨rfl, rfl⟩, _, _, rfl, _, rfl⟩ |
      ⟨stores, _, _, ⟨rfl, rfl⟩, _, _, rfl, _, rfl⟩⟩ := accepted
    · rw [if_pos stores]
      exact ⟨_, rfl, rfl⟩
    · rw [if_neg stores]
      exact ⟨_, rfl, rfl⟩
  constructor
  · intro other
    rw [refcount_putPin, raised, refcount_withBlob, refcount_withBlob]
    by_cases same : other = Hash.digest data
    · rw [if_pos same, if_pos same, same]
    · rw [if_neg same, if_neg same]
  · intro other
    rw [readBlob_putPin, readBlob_withBlob]

theorem accepts_pin (accepted : Accepts (pin command cid) state output after) :
    (readBlob state cid).isSome ∧
    (∀ other, refcount after other =
      if other = cid then refcount state other + 1 else refcount state other) ∧
    ∀ other, readBlob after other = readBlob state other := by
  unfold pin at accepted
  simp only [accepts_bind, accepts_get, accepts_modify, accepts_pure, accepts_ite, accepts_throw,
    contains_blobKey, false_and, exists_false, and_false, false_or] at accepted
  obtain ⟨_, _, ⟨rfl, rfl⟩, present, _, _, ⟨rfl, rfl⟩, _, _, rfl, _, rfl⟩ := accepted
  refine ⟨of_not_not present, ?_, ?_⟩
  · intro other
    rw [refcount_putPin]
    by_cases same : other = cid
    · rw [if_pos same, if_pos same, same]
      rfl
    · rw [if_neg same, if_neg same]
  · intro other
    rw [readBlob_putPin]

theorem accepts_unpin (accepted : Accepts (unpin command cid) state output after) :
    refcount state cid ≠ 0 ∧
    (∀ other, refcount after other =
      if other = cid then refcount state other - 1 else refcount state other) ∧
    ∀ other, readBlob after other =
      if other = cid ∧ refcount after cid = 0 then none else readBlob state other := by
  unfold unpin at accepted
  simp only [accepts_bind, accepts_get, accepts_modify, accepts_pure, accepts_ite, accepts_throw,
    false_and, exists_false, and_false, false_or] at accepted
  obtain ⟨_, _, ⟨rfl, rfl⟩, positive, ⟨last, _, _, rfl, _, _, rfl, _, rfl⟩ |
    ⟨more, _, _, rfl, _, rfl⟩⟩ := accepted
  · have zero : refcount state cid - 1 = 0 := last
    refine ⟨positive, ?_, ?_⟩
    · intro other
      rw [refcount_removed]
      by_cases same : other = cid
      · rw [if_pos same, if_pos same, same, zero]
      · rw [if_neg same, if_neg same]
    · intro other
      rw [readBlob_removed, refcount_removed, if_pos rfl]
      simp only [and_true]
  · have nonzero : refcount state cid - 1 ≠ 0 := more
    refine ⟨positive, ?_, ?_⟩
    · intro other
      rw [refcount_putPin]
      by_cases same : other = cid
      · rw [if_pos same, if_pos same, same]
        rfl
      · rw [if_neg same, if_neg same]
    · intro other
      rw [readBlob_putPin, refcount_putPin, if_pos rfl]
      exact (if_neg fun both => nonzero both.2).symm

/-- What an accepted command does to one cid. -/
inductive Moves (command : Command) (state after : StateTree) (cid : Hash) : Prop where
  | publishes (data : List UInt8) (digest : Hash.digest data = cid)
      (named : published command = some data) (raises : raised command = some cid)
      (spares : lowered command ≠ some cid) (secures : secured command = some cid)
      (count : refcount after cid = refcount state cid + 1)
      (blob : readBlob after cid = some ((readBlob state cid).getD data))
  | pins (present : (readBlob state cid).isSome) (raises : raised command = some cid)
      (spares : lowered command ≠ some cid) (secures : secured command = some cid)
      (count : refcount after cid = refcount state cid + 1)
      (blob : readBlob after cid = readBlob state cid)
  | hides (raises : raised command = some cid) (spares : lowered command ≠ some cid)
      (secures : secured command ≠ some cid)
      (count : refcount after cid = refcount state cid + 1)
      (blob : readBlob after cid = readBlob state cid)
  | unpins (positive : refcount state cid ≠ 0) (raises : raised command ≠ some cid)
      (lowers : lowered command = some cid) (secures : secured command ≠ some cid)
      (count : refcount after cid = refcount state cid - 1)
      (blob : readBlob after cid = if refcount after cid = 0 then none else readBlob state cid)
  | nothing (raises : raised command ≠ some cid) (spares : lowered command ≠ some cid)
      (secures : secured command ≠ some cid) (count : refcount after cid = refcount state cid)
      (blob : readBlob after cid = readBlob state cid)

theorem moves (accepted : prism.Accepted state command) (cid : Hash) :
    Moves command state (prism.step state command) cid := by
  obtain ⟨output, after, accepted⟩ := accepted
  rw [Prism.step_eq accepted]
  obtain ⟨operation, parsed, executed⟩ := accepts_handle accepted
  match operation with
  | .put key data =>
      obtain ⟨counts, blobs⟩ := accepts_put executed
      have raises : raised command = some (Hash.digest data) := by
        unfold raised
        rw [parsed]
      have spares : lowered command ≠ some cid := by
        unfold lowered
        rw [parsed]
        exact nofun
      have secures : secured command =
          if command.visibility = .pub then some (Hash.digest data) else none := by
        unfold secured
        rw [parsed]
      by_cases same : cid = Hash.digest data
      · subst same
        by_cases isPublic : command.visibility = .pub
        · refine .publishes data rfl ?_ raises spares ?_ ?_ ?_
          · unfold published
            rw [parsed]
            exact if_pos isPublic
          · rw [secures, if_pos isPublic]
          · rw [counts, if_pos rfl]
          · rw [blobs, if_pos ⟨rfl, isPublic⟩]
        · refine .hides raises spares ?_ ?_ ?_
          · rw [secures, if_neg isPublic]
            exact nofun
          · rw [counts, if_pos rfl]
          · rw [blobs, if_neg fun both => isPublic both.2]
      · refine .nothing ?_ spares ?_ ?_ ?_
        · rw [raises]
          exact fun equal => same (Option.some.inj equal).symm
        · rw [secures]
          split
          · exact fun equal => same (Option.some.inj equal).symm
          · exact nofun
        · rw [counts, if_neg same]
        · rw [blobs, if_neg fun both => same both.1]
  | .op (.pin pinned) =>
      obtain ⟨present, counts, blobs⟩ := accepts_pin executed
      have raises : raised command = some pinned := by
        unfold raised
        rw [parsed]
      have spares : lowered command ≠ some cid := by
        unfold lowered
        rw [parsed]
        exact nofun
      have secures : secured command = some pinned := by
        unfold secured
        rw [parsed]
      by_cases same : cid = pinned
      · subst same
        refine .pins present raises spares secures ?_ (blobs _)
        rw [counts, if_pos rfl]
      · have other : some pinned ≠ some cid := fun equal => same (Option.some.inj equal).symm
        refine .nothing (raises ▸ other) spares (secures ▸ other) ?_ (blobs _)
        rw [counts, if_neg same]
  | .op (.unpin unpinned) =>
      obtain ⟨positive, counts, blobs⟩ := accepts_unpin executed
      have raises : raised command ≠ some cid := by
        unfold raised
        rw [parsed]
        exact nofun
      have lowers : lowered command = some unpinned := by
        unfold lowered
        rw [parsed]
      have secures : secured command ≠ some cid := by
        unfold secured
        rw [parsed]
        exact nofun
      by_cases same : cid = unpinned
      · subst same
        refine .unpins positive raises lowers secures ?_ ?_
        · rw [counts, if_pos rfl]
        · rw [blobs]
          simp only [true_and]
      · have other : some unpinned ≠ some cid := fun equal => same (Option.some.inj equal).symm
        refine .nothing raises (lowers ▸ other) secures ?_ ?_
        · rw [counts, if_neg same]
        · rw [blobs, if_neg fun both => same both.1]

/-! ### The count along a run -/

/-- The puts and pins of a cid. -/
def pins (cid : Hash) (commands : List Command) : Nat :=
  commands.countP fun command => raised command = some cid

omit [Blake3] in
def unpins (cid : Hash) (commands : List Command) : Nat :=
  commands.countP fun command => lowered command = some cid

theorem pins_snoc (cid : Hash) (commands : List Command) (command : Command) :
    pins cid (commands ++ [command]) =
      pins cid commands + if raised command = some cid then 1 else 0 := by
  unfold pins
  rw [List.countP_append, List.countP_singleton]
  simp only [decide_eq_true_eq]

omit [Blake3] in
theorem unpins_snoc (cid : Hash) (commands : List Command) (command : Command) :
    unpins cid (commands ++ [command]) =
      unpins cid commands + if lowered command = some cid then 1 else 0 := by
  unfold unpins
  rw [List.countP_append, List.countP_singleton]
  simp only [decide_eq_true_eq]

/-- The count of the cid a command puts or pins is not the largest one. -/
def Roomy (state : StateTree) (command : Command) : Prop :=
  ∀ cid, raised command = some cid → (refcount state cid).toNat + 1 < 2 ^ 64

/-- Accepted without wrapping a count. -/
def Counted (state : StateTree) (command : Command) : Prop :=
  prism.Accepted state command ∧ Roomy state command

/-- What is known of a cid after some commands that began with its count at zero. -/
structure Tracks (cid : Hash) (done : List Command) (state : StateTree) : Prop where
  counted : (refcount state cid).toNat + unpins cid done = pins cid done
  addressed : ∀ data, readBlob state cid = some data → Hash.digest data = cid
  positive : ∀ data, readBlob state cid = some data → refcount state cid ≠ 0
  shown : ∀ data, readBlob state cid = some data →
    ∃ command ∈ done, published command = some data

theorem Tracks.earlier {done : List Command} (tracks : Tracks cid done state)
    (command : Command) {data : List UInt8} (found : readBlob state cid = some data) :
    ∃ other ∈ done ++ [command], published other = some data := by
  obtain ⟨other, inside, named⟩ := tracks.shown data found
  exact ⟨other, List.mem_append_left _ inside, named⟩

/-- A raised count: the bytes under the cid are the old ones or just published. -/
theorem Tracks.raise {done : List Command} (tracks : Tracks cid done state)
    (raises : raised command = some cid) (spares : lowered command ≠ some cid)
    (room : Roomy state command) (count : refcount after cid = refcount state cid + 1)
    (blobs : ∀ data, readBlob after cid = some data → readBlob state cid = some data ∨
      (Hash.digest data = cid ∧ published command = some data)) :
    Tracks cid (done ++ [command]) after := by
  have larger : (refcount after cid).toNat = (refcount state cid).toNat + 1 := by
    rw [count, UInt64.toNat_add]
    exact Nat.mod_eq_of_lt (room cid raises)
  constructor
  · rw [pins_snoc, unpins_snoc, if_pos raises, if_neg spares, larger, ← tracks.counted]
    omega
  · intro data found
    rcases blobs data found with old | ⟨digest, _⟩
    · exact tracks.addressed data old
    · exact digest
  · intro _ _ zero
    rw [zero] at larger
    exact absurd larger (Nat.succ_ne_zero _).symm
  · intro data found
    rcases blobs data found with old | ⟨_, named⟩
    · exact tracks.earlier command old
    · exact ⟨command, List.mem_append_right _ (List.mem_singleton_self _), named⟩

theorem Tracks.lower {done : List Command} (tracks : Tracks cid done state)
    (positive : refcount state cid ≠ 0) (raises : raised command ≠ some cid)
    (lowers : lowered command = some cid) (count : refcount after cid = refcount state cid - 1)
    (blob : readBlob after cid = if refcount after cid = 0 then none else readBlob state cid) :
    Tracks cid (done ++ [command]) after := by
  have nonzero : (refcount state cid).toNat ≠ 0 :=
    fun zero => positive (UInt64.toNat_inj.mp zero)
  have smaller : (refcount after cid).toNat + 1 = (refcount state cid).toNat := by
    rw [count, UInt64.toNat_sub_of_le]
    · exact Nat.sub_add_cancel (Nat.pos_of_ne_zero nonzero)
    · rw [UInt64.le_iff_toNat_le]
      exact Nat.pos_of_ne_zero nonzero
  have kept : ∀ data, readBlob after cid = some data →
      refcount after cid ≠ 0 ∧ readBlob state cid = some data := by
    intro data found
    rw [blob] at found
    split at found
    · cases found
    · rename_i stays
      exact ⟨stays, found⟩
  constructor
  · rw [pins_snoc, unpins_snoc, if_neg raises, if_pos lowers, ← tracks.counted]
    omega
  · exact fun data found => tracks.addressed data (kept data found).2
  · exact fun data found => (kept data found).1
  · exact fun data found => tracks.earlier command (kept data found).2

theorem Tracks.step {done : List Command} (tracks : Tracks cid done state)
    (accepted : Counted state command) :
    Tracks cid (done ++ [command]) (prism.step state command) := by
  rcases moves accepted.1 cid with
    ⟨data, digest, named, raises, spares, _, count, blob⟩ |
    ⟨_, raises, spares, _, count, blob⟩ | ⟨raises, spares, _, count, blob⟩ |
    ⟨positive, raises, lowers, _, count, blob⟩ | ⟨raises, spares, _, count, blob⟩
  · refine tracks.raise raises spares accepted.2 count ?_
    intro bytes found
    rw [blob] at found
    cases before : readBlob state cid with
    | none =>
        rw [before] at found
        cases found
        exact .inr ⟨digest, named⟩
    | some old =>
        rw [before] at found
        exact .inl found
  · exact tracks.raise raises spares accepted.2 count fun bytes found => .inl (blob ▸ found)
  · exact tracks.raise raises spares accepted.2 count fun bytes found => .inl (blob ▸ found)
  · exact tracks.lower positive raises lowers count blob
  · constructor
    · rw [pins_snoc, unpins_snoc, if_neg raises, if_neg spares, count]
      exact tracks.counted
    · rw [blob]
      exact tracks.addressed
    · rw [blob, count]
      exact tracks.positive
    · rw [blob]
      exact fun data found => tracks.earlier command found

/-- Nothing is stored for the cid. -/
def Vacant (state : StateTree) (cid : Hash) : Prop :=
  refcount state cid = 0 ∧ readBlob state cid = none

theorem Vacant.tracks (vacant : Vacant state cid) : Tracks cid [] state := by
  constructor
  · rw [vacant.1]
    rfl
  · rw [vacant.2]
    exact nofun
  · rw [vacant.2]
    exact nofun
  · rw [vacant.2]
    exact nofun

theorem tracks_run {start : StateTree} {commands : List Command} (vacant : Vacant start cid)
    (accepted : Run.Along prism.step Counted start commands) :
    Tracks cid commands (Run.run prism.step start commands) := by
  induction commands using List.reverseRecOn with
  | nil => exact vacant.tracks
  | append_singleton front command ih =>
      obtain ⟨before, last⟩ := (Run.along_append prism.step).mp accepted
      rw [Run.run_snoc]
      exact (ih before).step last.1

/-- A count that reaches zero leaves nothing stored. -/
theorem Tracks.vacant {done : List Command} (tracks : Tracks cid done state)
    (zero : refcount state cid = 0) : Vacant state cid := by
  refine ⟨zero, ?_⟩
  cases found : readBlob state cid with
  | none => rfl
  | some data => exact absurd zero (tracks.positive data found)

/-! ### Blobs along a run -/

omit [SerdeJson] [Blake3] in
/-- The state before any storage command. -/
def Fresh (state : StateTree) : Prop :=
  ∀ cid, state.get (blobKey cid) = none ∧ state.get (pinKey cid) = none

omit [Blake3] in
theorem Fresh.vacant (fresh : Fresh state) (cid : Hash) : Vacant state cid := by
  constructor
  · unfold refcount loadPin StateTree.getJson? StateTree.getJson
    rw [(fresh cid).2]
    rfl
  · exact (fresh cid).1

/-- The count of a cid is its puts and pins less its unpins since it was last zero, its blob
hashes to it and is kept under a positive count only, and the bytes of the blob were put with
public visibility since the count was last zero. -/
structure Intact (start : StateTree) (commands : List Command) (cid : Hash) : Prop where
  addressed : ∀ data, readBlob (Run.run prism.step start commands) cid = some data →
    Hash.digest data = cid
  pinned : (readBlob (Run.run prism.step start commands) cid).isSome →
    0 < (refcount (Run.run prism.step start commands) cid).toNat
  counted : ∀ front back, commands = front ++ back →
    refcount (Run.run prism.step start front) cid = 0 →
      (refcount (Run.run prism.step start commands) cid).toNat + unpins cid back = pins cid back
  shown : ∀ front back, commands = front ++ back →
    refcount (Run.run prism.step start front) cid = 0 →
      ∀ data, readBlob (Run.run prism.step start commands) cid = some data →
        ∃ command ∈ back, published command = some data

/-- As long as no count wraps, every blob is intact. -/
theorem blobs_intact (start : StateTree) (commands : List Command) (fresh : Fresh start)
    (accepted : Run.Along prism.step Counted start commands) (cid : Hash) :
    Intact start commands cid := by
  have whole := tracks_run (fresh.vacant cid) accepted
  have since : ∀ front back, commands = front ++ back →
      refcount (Run.run prism.step start front) cid = 0 →
        Tracks cid back (Run.run prism.step start commands) := by
    intro front back split zero
    rw [split] at accepted
    obtain ⟨before, later⟩ := (Run.along_append prism.step).mp accepted
    rw [split, Run.run_append]
    exact tracks_run ((tracks_run (fresh.vacant cid) before).vacant zero) later
  constructor
  · exact whole.addressed
  · intro present
    obtain ⟨data, found⟩ := Option.isSome_iff_exists.mp present
    apply Nat.pos_of_ne_zero
    intro zero
    exact whole.positive data found (UInt64.toNat_inj.mp zero)
  · exact fun front back split zero => (since front back split zero).counted
  · exact fun front back split zero => (since front back split zero).shown

/-! ### Accepted commands -/

/-- An operation that stops nowhere is accepted. -/
theorem execute_accepted {operation : StorageCommand}
    (parsed : fromSlice StorageCommand command.payload = .ok operation)
    (passes : ∀ after, ¬ Rejects (execute command operation) state after) :
    prism.Accepted state command := by
  cases ran : (execute command operation).run.run state with
  | mk outcome after =>
      cases outcome with
      | ok output =>
          refine ⟨output, after, ?_⟩
          unfold prism handle
          dsimp only
          rw [parsed]
          exact ran
      | error error => exact absurd ⟨error, ran⟩ (passes after)

theorem put_accepted {key : String} {data : List UInt8} (small : data.length ≤ maxBlobSize)
    (parsed : fromSlice StorageCommand command.payload = .ok (.put key data)) :
    prism.Accepted state command := by
  have bound : ¬ maxBlobSize < data.length := Nat.not_lt.mpr small
  apply execute_accepted parsed
  intro after rejected
  unfold execute put at rejected
  simp only [rejects_ite, bound, false_and, not_false_eq_true, rejects_bind, rejects_get,
    rejects_modify, rejects_pure, accepts_get, exists_false, and_false, or_self] at rejected

theorem pin_accepted (parsed : fromSlice StorageCommand command.payload = .ok (.op (.pin cid)))
    (present : (readBlob state cid).isSome) : prism.Accepted state command := by
  apply execute_accepted parsed
  intro after rejected
  unfold execute pin at rejected
  simp only [rejects_ite, rejects_bind, rejects_get, rejects_modify, rejects_pure, accepts_get,
    contains_blobKey, exists_false, and_false, or_self, or_false, false_or] at rejected
  obtain ⟨_, _, ⟨rfl, rfl⟩, absent, _⟩ := rejected
  exact absent present

theorem unpin_accepted
    (parsed : fromSlice StorageCommand command.payload = .ok (.op (.unpin cid)))
    (positive : refcount state cid ≠ 0) : prism.Accepted state command := by
  apply execute_accepted parsed
  intro after rejected
  unfold execute unpin at rejected
  simp only [rejects_ite, rejects_bind, rejects_get, rejects_modify, rejects_pure, accepts_get,
    exists_false, and_false, or_self, or_false, false_or] at rejected
  obtain ⟨_, _, ⟨rfl, rfl⟩, zero, _⟩ := rejected
  exact positive zero

end Runs

/-! ### A count that wraps -/

section Wrapping

attribute [local instance] SerdeJson.compact Blake3.polynomial

def notes : List UInt8 := [1, 2, 3]

/-- Alice puts the same public bytes over and over. -/
def notesPut (nonce : Nat) : Command :=
  putCommand ⟨"alice"⟩ .pub (UInt64.ofNat nonce) "notes.txt" notes

def notesRun (length : Nat) : List Command := (List.range length).map notesPut

theorem notesRun_succ (length : Nat) :
    notesRun (length + 1) = notesRun length ++ [notesPut length] := by
  unfold notesRun
  rw [List.range_succ, List.map_append, List.map_singleton]

theorem fresh_empty : Fresh StateTree.empty :=
  fun _ => ⟨StateTree.get_empty _, StateTree.get_empty _⟩

theorem notesPut_parsed (nonce : Nat) :
    fromSlice StorageCommand (notesPut nonce).payload = .ok (.put "notes.txt" notes) :=
  fromSlice_toVec _

theorem notesPut_accepted (state : StateTree) (nonce : Nat) :
    prism.Accepted state (notesPut nonce) :=
  put_accepted (by decide) (notesPut_parsed nonce)

theorem notesRun_accepted (start : StateTree) (length : Nat) :
    Run.Along prism.step prism.Accepted start (notesRun length) := by
  rw [Run.along_iff_splits]
  intro front command back split
  have inside : command ∈ notesRun length := by
    rw [split]
    exact List.mem_append_right _ List.mem_cons_self
  obtain ⟨nonce, _, rfl⟩ := List.mem_map.mp inside
  exact notesPut_accepted _ nonce

/-- The stored count is the number of puts, modulo the size of its type. -/
theorem notesRun_refcount (length : Nat) :
    refcount (Run.run prism.step StateTree.empty (notesRun length)) (Hash.digest notes) =
      UInt64.ofNat length ∧
    (0 < length → (readBlob (Run.run prism.step StateTree.empty (notesRun length))
      (Hash.digest notes)).isSome) := by
  induction length with
  | zero => exact ⟨(fresh_empty.vacant _).1, fun positive => absurd positive (Nat.lt_irrefl _)⟩
  | succ length ih =>
      rw [notesRun_succ, Run.run_snoc]
      obtain ⟨output, after, accepted⟩ := notesPut_accepted
        (Run.run prism.step StateTree.empty (notesRun length)) length
      rw [Prism.step_eq accepted]
      obtain ⟨operation, parsed, executed⟩ := accepts_handle accepted
      rw [notesPut_parsed] at parsed
      cases parsed
      obtain ⟨counts, blobs⟩ :=
        @accepts_put _ _ (notesPut length) _ _ _ "notes.txt" notes executed
      constructor
      · rw [counts, if_pos rfl, ih.1, UInt64.ofNat_add]
        rfl
      · intro _
        rw [blobs, if_pos ⟨rfl, rfl⟩]
        rfl

theorem notesRun_counted (length : Nat) (few : length < 2 ^ 64) :
    Run.Along prism.step Counted StateTree.empty (notesRun length) := by
  induction length with
  | zero => trivial
  | succ length ih =>
      rw [notesRun_succ, Run.along_append]
      refine ⟨ih (by omega), ⟨notesPut_accepted _ _, ?_⟩, trivial⟩
      intro cid raises
      unfold raised at raises
      rw [notesPut_parsed] at raises
      cases raises
      rw [(notesRun_refcount length).1, UInt64.toNat_ofNat']
      rw [Nat.mod_eq_of_lt (by omega)]
      exact few

theorem blobs_intact_notes : Intact StateTree.empty (notesRun 3) (Hash.digest notes) :=
  blobs_intact StateTree.empty (notesRun 3) fresh_empty (notesRun_counted 3 (by decide)) _

theorem notesRun_hollow {length : Nat} (positive : 0 < length) (wraps : length % 2 ^ 64 = 0) :
    ¬ Intact StateTree.empty (notesRun length) (Hash.digest notes) := by
  intro intact
  have pinned := intact.pinned ((notesRun_refcount length).2 positive)
  rw [(notesRun_refcount length).1, UInt64.toNat_ofNat', wraps] at pinned
  exact Nat.lt_irrefl 0 pinned

/-- After as many puts as the count has values the blob is there under a count of zero. -/
theorem notes_wrapped :
    ∃ length, length = 2 ^ 64 ∧ Fresh StateTree.empty ∧
      Run.Along prism.step prism.Accepted StateTree.empty (notesRun length) ∧
      ¬ Intact StateTree.empty (notesRun length) (Hash.digest notes) := by
  refine ⟨2 ^ 64, rfl, fresh_empty, ?_⟩
  generalize same : 2 ^ 64 = length
  refine ⟨notesRun_accepted _ length, notesRun_hollow ?_ ?_⟩
  · rw [← same]
    exact Nat.two_pow_pos 64
  · rw [same]
    exact Nat.mod_self _

end Wrapping

end StoragePrism

end Veilux
