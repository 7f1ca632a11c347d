/-
One accepted command of the name service: it writes one name, in one of three ways.
-/

import Veilux.Kernel.Handled
import Veilux.Kernel.Spares
import Veilux.Prism.NameSpelling

namespace Veilux

namespace NamePrism

open PrismM

/-! ### The keys do not collide -/

theorem recKey_injective {left right : String} (same : recKey left = recKey right) :
    left = right :=
  (String.append_right_inj _).mp same

theorem revKey_injective {left right : PartyId} (same : revKey left = revKey right) :
    left = right := by
  cases left
  cases right
  exact congrArg PartyId.mk ((String.append_right_inj _).mp same)

theorem revKey_ne_recKey (target : PartyId) (name : String) : revKey target ≠ recKey name :=
  Keys.Apart.append_ne (by decide) _ _

def nowKey : String := "chain/now"

theorem nowKey_ne_recKey (name : String) : nowKey ≠ recKey name :=
  (by decide : Keys.Apart "chain/" recPrefix).append_ne "now" name

theorem nowKey_ne_revKey (target : PartyId) : nowKey ≠ revKey target :=
  (by decide : Keys.Apart "chain/" revPrefix).append_ne "now" target.name

section Reads

variable [SerdeJson] {state : StateTree} {name other : String}

def recordAt (state : StateTree) (name : String) : Option NameRecord :=
  state.getJson? NameRecord (recKey name)

theorem recordAt_store (state : StateTree) (name other : String) (record : NameRecord) :
    recordAt (state.putJson (recKey name) record) other =
      if other = name then some record else recordAt state other := by
  unfold recordAt
  by_cases same : other = name
  · rw [if_pos same, same, StateTree.getJson?_putJson]
  · rw [if_neg same]
    exact StateTree.getJson?_put_ne _ _ fun equal => same (recKey_injective equal).symm

theorem recordAt_remove (state : StateTree) (name other : String) :
    recordAt (state.remove (recKey name)) other =
      if other = name then none else recordAt state other := by
  unfold recordAt
  rw [StateTree.getJson?_remove]
  by_cases same : other = name
  · rw [if_pos same, if_pos (congrArg recKey same.symm)]
  · rw [if_neg same, if_neg fun equal => same (recKey_injective equal).symm]

/-- The state after `clear_reverse`. -/
def cleared (state : StateTree) (target : Option PartyId) (name : String) : StateTree :=
  match target with
  | none => state
  | some target =>
      if state.getJson? String (revKey target) = some name then state.remove (revKey target)
      else state

omit [SerdeJson] in
/-- The state after `set_reverse`. -/
def pointed (state : StateTree) (target : Option PartyId) (name : String) : StateTree :=
  match target with
  | none => state
  | some target => state.putJson (revKey target) name

theorem recordAt_cleared (state : StateTree) (target : Option PartyId) (name other : String) :
    recordAt (cleared state target name) other = recordAt state other := by
  unfold cleared recordAt
  cases target with
  | none => rfl
  | some target =>
      dsimp only
      split
      · rw [StateTree.getJson?_remove, if_neg (revKey_ne_recKey _ _)]
      · rfl

theorem recordAt_pointed (state : StateTree) (target : Option PartyId) (name other : String) :
    recordAt (pointed state target name) other = recordAt state other := by
  unfold pointed recordAt
  cases target with
  | none => rfl
  | some target => exact StateTree.getJson?_put_ne _ _ (revKey_ne_recKey _ _)

/-! ### Accepting runs of the parts -/

variable {after : StateTree} {record : NameRecord} {target : Option PartyId}

omit [SerdeJson] in
theorem accepts_normalized {raw : String} (accepted : Accepts (normalized raw) state name after) :
    normalize raw = .ok name ∧ state = after := by
  unfold normalized at accepted
  cases found : normalize raw with
  | error error =>
      rw [found] at accepted
      exact absurd accepted accepts_throw
  | ok normal =>
      rw [found] at accepted
      obtain ⟨rfl, rfl⟩ := accepts_pure.mp accepted
      exact ⟨rfl, rfl⟩

theorem accepts_load {entry : Option NameRecord} (accepted : Accepts (load name) state entry after) :
    recordAt state name = entry ∧ state = after := by
  unfold load at accepted
  obtain ⟨value, middle, got, rest⟩ := accepts_bind.mp accepted
  obtain ⟨rfl, rfl⟩ := accepts_get.mp got
  unfold recordAt StateTree.getJson?
  cases read : state.getJson NameRecord (recKey name) with
  | error error =>
      rw [read] at rest
      exact absurd rest accepts_throw
  | ok found =>
      rw [read] at rest
      obtain ⟨rfl, rfl⟩ := accepts_pure.mp rest
      exact ⟨rfl, rfl⟩

theorem accepts_loadRegistered (accepted : Accepts (loadRegistered name) state record after) :
    recordAt state name = some record ∧ state = after := by
  unfold loadRegistered at accepted
  obtain ⟨entry, middle, loaded, rest⟩ := accepts_bind.mp accepted
  obtain ⟨found, rfl⟩ := accepts_load loaded
  cases entry with
  | none => exact absurd rest accepts_throw
  | some stored =>
      obtain ⟨rfl, rfl⟩ := accepts_pure.mp rest
      exact ⟨found, rfl⟩

omit [SerdeJson] in
theorem accepts_requireOwner {caller : PartyId} {time : UInt64} {result : Unit}
    (accepted : Accepts (requireOwner record caller time) state result after) :
    record.owner = caller ∧ state = after := by
  unfold requireOwner at accepted
  rw [accepts_unless] at accepted
  simp only [accepts_ite, accepts_throw, accepts_pure, and_false, false_or] at accepted
  obtain ⟨_, owner, _, rfl⟩ := accepted
  exact ⟨of_not_not owner, rfl⟩

theorem accepts_clearReverse {result : Unit}
    (accepted : Accepts (clearReverse target name) state result after) :
    after = cleared state target name := by
  unfold clearReverse at accepted
  unfold cleared
  cases target with
  | none => exact (accepts_pure.mp accepted).2.symm
  | some target =>
      simp only [accepts_bind, accepts_get, accepts_ite, accepts_modify,
        accepts_pure] at accepted ⊢
      obtain ⟨_, _, ⟨rfl, rfl⟩, ⟨points, rfl⟩ | ⟨points, _, rfl⟩⟩ := accepted
      · rw [if_pos points]
      · rw [if_neg points]

omit [SerdeJson] in
theorem accepts_setReverse {result : Unit}
    (accepted : Accepts (setReverse target name) state result after) :
    after = pointed state target name := by
  unfold setReverse at accepted
  unfold pointed
  cases target with
  | none => exact (accepts_pure.mp accepted).2.symm
  | some target => exact (accepts_modify.mp accepted).symm

end Reads

/-! ### What an accepted command writes -/

section Writes

variable [SerdeJson]

/-- The spelling of a name in an operation. -/
def spelling : NameCommand → String
  | .register name _ _ => name
  | .renew name _ => name
  | .transfer name _ => name
  | .setTarget name _ => name
  | .setRecord name _ _ => name
  | .clearRecord name _ => name
  | .release name => name

/-- The command is about the name, in some spelling. -/
def Aims (command : Command) (name : String) : Prop :=
  ∃ operation, fromSlice NameCommand command.payload = .ok operation ∧
    normalize (spelling operation) = .ok name

/-- Records are stored under their names. -/
def Named (state : StateTree) : Prop :=
  ∀ name record, recordAt state name = some record → record.name = name

/-- The three ways of changing a name: a new owner or target takes the reverse entry along, any
other change keeps the target, and a release drops both entries. -/
inductive Writes (submitter : PartyId) (name : String) (state after : StateTree) : Prop where
  | retargets (record : NameRecord) (named : record.name = name)
      (allowed : ∀ old, recordAt state name = some old →
        old.isExpired (now state) = true ∨ old.owner = submitter)
      (written : after = pointed ((cleared state ((recordAt state name).bind NameRecord.target)
        name).putJson (recKey name) record) record.target name)
  | rewrites (old record : NameRecord) (found : recordAt state name = some old)
      (named : record.name = name) (same : record.target = old.target)
      (owner : old.owner = submitter) (written : after = state.putJson (recKey name) record)
  | releases (old : NameRecord) (found : recordAt state name = some old)
      (owner : old.owner = submitter)
      (written : after = (cleared state old.target name).remove (recKey name))

variable [Blake3] {command : Command} {state after : StateTree} {output : PrismOutput}
  {raw : String}

omit [SerdeJson] in
/-- A record stored with its reverse entry. -/
theorem accepts_retarget {record : NameRecord} {target : Option PartyId} {payload : NameEvent}
    {cost : UInt64} {name : String}
    (accepted : Accepts
      (do store record
          setReverse target name
          return PrismOutput.single (event command payload) cost) state output after)
    (named : record.name = name) :
    after = pointed (state.putJson (recKey name) record) target name := by
  unfold store at accepted
  simp only [accepts_bind, accepts_modify, accepts_pure, named] at accepted
  obtain ⟨_, _, rfl, _, _, points, _, rfl⟩ := accepted
  exact accepts_setReverse points

theorem writes_register {duration : UInt64} {target : Option PartyId}
    (accepted : Accepts (register command (now state) raw duration target) state output after) :
    ∃ name, normalize raw = .ok name ∧ Writes command.submitter name state after := by
  unfold register at accepted
  obtain ⟨name, _, normal, rest⟩ := accepts_bind.mp accepted
  obtain ⟨spelled, rfl⟩ := accepts_normalized normal
  obtain ⟨entry, _, loaded, last⟩ := accepts_bind.mp rest
  obtain ⟨found, rfl⟩ := accepts_load loaded
  refine ⟨name, spelled, ?_⟩
  let record : NameRecord :=
    { name := name
      owner := command.submitter
      target := target
      registeredAt := now state
      expiresAt := if duration = 0 then 0 else later (now state) duration
      records := ∅ }
  cases entry with
  | none =>
      have written := accepts_retarget last rfl
      refine .retargets record rfl ?_ (written.trans ?_)
      · rw [found]
        exact nofun
      · rw [found]
        rfl
  | some existing =>
      obtain ⟨expired, stores⟩ := accepts_unless.mp last
      obtain ⟨_, middle, clears, writes⟩ := accepts_bind.mp stores
      have written := accepts_retarget writes rfl
      refine .retargets record rfl ?_ (written.trans ?_)
      · rw [found]
        intro old same
        cases same
        exact .inl (of_not_not expired)
      · rw [found, accepts_clearReverse clears]
        rfl

omit [SerdeJson] in
theorem accepts_rewrite {record : NameRecord} {payload : NameEvent} {cost : UInt64}
    {name : String}
    (accepted : Accepts
      (do store record
          return PrismOutput.single (event command payload) cost) state output after)
    (named : record.name = name) :
    after = state.putJson (recKey name) record := by
  unfold store at accepted
  simp only [accepts_bind, accepts_modify, accepts_pure, named] at accepted
  obtain ⟨_, _, rfl, _, rfl⟩ := accepted
  rfl

theorem writes_renew {duration : UInt64} {time : UInt64} (names : Named state)
    (accepted : Accepts (renew command time raw duration) state output after) :
    ∃ name, normalize raw = .ok name ∧ Writes command.submitter name state after := by
  unfold renew at accepted
  obtain ⟨name, _, normal, rest⟩ := accepts_bind.mp accepted
  obtain ⟨spelled, rfl⟩ := accepts_normalized normal
  obtain ⟨record, _, loaded, last⟩ := accepts_bind.mp rest
  obtain ⟨found, rfl⟩ := accepts_loadRegistered loaded
  obtain ⟨owner, writes⟩ := accepts_unless.mp last
  have named := names name record found
  refine ⟨name, spelled, .rewrites record _ found ?_ ?_ (of_not_not owner)
    (accepts_rewrite writes named)⟩
  · exact named
  · rfl

theorem writes_transfer {heir : PartyId} {time : UInt64} (names : Named state)
    (accepted : Accepts (transfer command time raw heir) state output after) :
    ∃ name, normalize raw = .ok name ∧ Writes command.submitter name state after := by
  unfold transfer at accepted
  obtain ⟨name, _, normal, rest⟩ := accepts_bind.mp accepted
  obtain ⟨spelled, rfl⟩ := accepts_normalized normal
  obtain ⟨record, _, loaded, last⟩ := accepts_bind.mp rest
  obtain ⟨found, rfl⟩ := accepts_loadRegistered loaded
  obtain ⟨_, _, checked, writes⟩ := accepts_bind.mp last
  obtain ⟨owner, rfl⟩ := accepts_requireOwner checked
  have named := names name record found
  refine ⟨name, spelled, .rewrites record _ found ?_ ?_ owner (accepts_rewrite writes named)⟩
  · exact named
  · rfl

theorem writes_setRecord {key value : String} {time : UInt64} (names : Named state)
    (accepted : Accepts (setRecord command time raw key value) state output after) :
    ∃ name, normalize raw = .ok name ∧ Writes command.submitter name state after := by
  unfold setRecord at accepted
  obtain ⟨name, _, normal, rest⟩ := accepts_bind.mp accepted
  obtain ⟨spelled, rfl⟩ := accepts_normalized normal
  obtain ⟨_, rest⟩ := accepts_unless.mp rest
  obtain ⟨_, rest⟩ := accepts_unless.mp rest
  obtain ⟨record, _, loaded, last⟩ := accepts_bind.mp rest
  obtain ⟨found, rfl⟩ := accepts_loadRegistered loaded
  obtain ⟨_, _, checked, limited⟩ := accepts_bind.mp last
  obtain ⟨owner, rfl⟩ := accepts_requireOwner checked
  obtain ⟨_, writes⟩ := accepts_unless.mp limited
  have named := names name record found
  refine ⟨name, spelled, .rewrites record _ found ?_ ?_ owner (accepts_rewrite writes named)⟩
  · exact named
  · rfl

theorem writes_clearRecord {key : String} {time : UInt64} (names : Named state)
    (accepted : Accepts (clearRecord command time raw key) state output after) :
    ∃ name, normalize raw = .ok name ∧ Writes command.submitter name state after := by
  unfold clearRecord at accepted
  obtain ⟨name, _, normal, rest⟩ := accepts_bind.mp accepted
  obtain ⟨spelled, rfl⟩ := accepts_normalized normal
  obtain ⟨record, _, loaded, last⟩ := accepts_bind.mp rest
  obtain ⟨found, rfl⟩ := accepts_loadRegistered loaded
  obtain ⟨_, _, checked, writes⟩ := accepts_bind.mp last
  obtain ⟨owner, rfl⟩ := accepts_requireOwner checked
  have named := names name record found
  refine ⟨name, spelled, .rewrites record _ found ?_ ?_ owner (accepts_rewrite writes named)⟩
  · exact named
  · rfl

theorem writes_setTarget {target : Option PartyId} {time : UInt64} (names : Named state)
    (accepted : Accepts (setTarget command time raw target) state output after) :
    ∃ name, normalize raw = .ok name ∧ Writes command.submitter name state after := by
  unfold setTarget at accepted
  obtain ⟨name, _, normal, rest⟩ := accepts_bind.mp accepted
  obtain ⟨spelled, rfl⟩ := accepts_normalized normal
  obtain ⟨record, _, loaded, last⟩ := accepts_bind.mp rest
  obtain ⟨found, rfl⟩ := accepts_loadRegistered loaded
  obtain ⟨_, _, checked, clears⟩ := accepts_bind.mp last
  obtain ⟨owner, rfl⟩ := accepts_requireOwner checked
  obtain ⟨_, middle, clear, writes⟩ := accepts_bind.mp clears
  have named := names name record found
  have written := accepts_retarget writes named
  refine ⟨name, spelled, .retargets { record with target := target } named ?_
    (written.trans ?_)⟩
  · rw [found]
    intro old same
    cases same
    exact .inr owner
  · rw [found, accepts_clearReverse clear]
    rfl

theorem writes_release (accepted : Accepts (release command raw) state output after) :
    ∃ name, normalize raw = .ok name ∧ Writes command.submitter name state after := by
  unfold release at accepted
  obtain ⟨name, _, normal, rest⟩ := accepts_bind.mp accepted
  obtain ⟨spelled, rfl⟩ := accepts_normalized normal
  obtain ⟨record, _, loaded, last⟩ := accepts_bind.mp rest
  obtain ⟨found, rfl⟩ := accepts_loadRegistered loaded
  obtain ⟨owner, clears⟩ := accepts_unless.mp last
  obtain ⟨_, middle, clear, drops⟩ := accepts_bind.mp clears
  simp only [accepts_bind, accepts_modify, accepts_pure] at drops
  obtain ⟨_, _, rfl, _, rfl⟩ := drops
  refine ⟨name, spelled, .releases record found (of_not_not owner) ?_⟩
  rw [accepts_clearReverse clear]

theorem writes (names : Named state) (accepted : prism.Accepted state command) :
    ∃ name, Aims command name ∧
      Writes command.submitter name state (prism.step state command) := by
  obtain ⟨output, after, accepted⟩ := accepted
  rw [Prism.step_eq accepted]
  change Accepts (handle command) state output after at accepted
  unfold handle at accepted
  cases parsed : fromSlice NameCommand command.payload with
  | error text =>
      rw [parsed] at accepted
      exact absurd accepted accepts_throw
  | ok operation =>
      rw [parsed] at accepted
      obtain ⟨_, _, got, executed⟩ := accepts_bind.mp accepted
      obtain ⟨rfl, rfl⟩ := accepts_get.mp got
      have written : ∃ name, normalize (spelling operation) = .ok name ∧
          Writes command.submitter name state after := by
        cases operation with
        | register name duration target => exact writes_register executed
        | renew name duration => exact writes_renew names executed
        | transfer name heir => exact writes_transfer names executed
        | setTarget name target => exact writes_setTarget names executed
        | setRecord name key value => exact writes_setRecord names executed
        | clearRecord name key => exact writes_clearRecord names executed
        | release name => exact writes_release executed
      obtain ⟨name, spelled, written⟩ := written
      exact ⟨name, ⟨operation, parsed, spelled⟩, written⟩

end Writes

end NamePrism

end Veilux
