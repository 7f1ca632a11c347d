/-
Runs of the name service.  A record that has not expired changes by a command of its
owner only, and every reverse entry names a record with that target, whatever the order
of the commands and the times they meet.
-/

import Veilux.Lib.Run
import Veilux.Prism.NameWrites

namespace Veilux

namespace NamePrism

open PrismM

/-! ### The reverse index -/

section Index

variable [SerdeJson] {state after : StateTree} {submitter : PartyId} {name : String}

/-- Records are stored under their names and reverse entries name records with that target. -/
structure Sound (state : StateTree) : Prop where
  named : Named state
  answered : ∀ target bytes, state.get (revKey target) = some bytes →
    ∃ name record, bytes = toVec name ∧ recordAt state name = some record ∧
      record.target = some target

omit [SerdeJson] in
theorem getRev_store (state : StateTree) (name : String) (record : NameRecord)
    (target : PartyId) :
    (state.putJson (recKey name) record).get (revKey target) = state.get (revKey target) :=
  StateTree.get_put_ne _ _ (Ne.symm (revKey_ne_recKey target name))

omit [SerdeJson] in
theorem getRev_remove (state : StateTree) (name : String) (target : PartyId) :
    (state.remove (recKey name)).get (revKey target) = state.get (revKey target) := by
  rw [StateTree.get_remove, if_neg (Ne.symm (revKey_ne_recKey target name))]

omit [SerdeJson] in
theorem getRev_pointed (state : StateTree) (target : Option PartyId) (name : String)
    (other : PartyId) :
    (pointed state target name).get (revKey other) =
      if target = some other then some (toVec name) else state.get (revKey other) := by
  unfold pointed
  cases target with
  | none => rw [if_neg nofun]
  | some target =>
      by_cases same : target = other
      · subst same
        rw [if_pos rfl]
        exact StateTree.get_put_self _ _ _
      · rw [if_neg fun equal => same (Option.some.inj equal)]
        exact StateTree.get_put_ne _ _ fun equal => same (revKey_injective equal)

theorem getRev_cleared (state : StateTree) (target : Option PartyId) (name : String)
    (other : PartyId) :
    (cleared state target name).get (revKey other) =
      if target = some other ∧ state.getJson? String (revKey other) = some name then none
      else state.get (revKey other) := by
  unfold cleared
  cases target with
  | none => rw [if_neg fun both => nomatch both.1]
  | some target =>
      by_cases same : target = other
      · subst same
        dsimp only
        by_cases points : state.getJson? String (revKey target) = some name
        · rw [if_pos points, if_pos ⟨rfl, points⟩, StateTree.get_remove, if_pos rfl]
        · rw [if_neg points, if_neg fun both => points both.2]
      · rw [if_neg fun both : some target = some other ∧ _ => same (Option.some.inj both.1)]
        dsimp only
        split
        · rw [StateTree.get_remove, if_neg fun equal => same (revKey_injective equal)]
        · rfl

/-- After clearing, no entry is left for the name. -/
theorem Sound.unnamed (sound : Sound state) {target : PartyId} {bytes : List UInt8}
    (found : (cleared state ((recordAt state name).bind NameRecord.target) name).get
      (revKey target) = some bytes) :
    state.get (revKey target) = some bytes ∧ bytes ≠ toVec name := by
  rw [getRev_cleared] at found
  split at found
  · cases found
  · rename_i stays
    refine ⟨found, ?_⟩
    rintro rfl
    obtain ⟨other, record, bytes, stored, points⟩ := sound.answered target _ found
    have same := toVec_injective bytes
    subst same
    apply stays
    constructor
    · rw [stored]
      exact points
    · unfold StateTree.getJson? StateTree.getJson
      rw [found]
      dsimp only
      rw [fromSlice_toVec]

theorem Sound.retargeted (sound : Sound state) {record : NameRecord}
    (named : record.name = name) :
    Sound (pointed ((cleared state ((recordAt state name).bind NameRecord.target)
      name).putJson (recKey name) record) record.target name) := by
  have records : ∀ other, recordAt (pointed ((cleared state ((recordAt state name).bind
      NameRecord.target) name).putJson (recKey name) record) record.target name) other =
        if other = name then some record else recordAt state other := by
    intro other
    rw [recordAt_pointed, recordAt_store, recordAt_cleared]
  constructor
  · intro other entry stored
    rw [records] at stored
    split at stored
    · rename_i same
      cases stored
      exact named.trans same.symm
    · exact sound.named other entry stored
  · intro target bytes found
    rw [getRev_pointed, getRev_store] at found
    split at found
    · rename_i points
      refine ⟨name, record, (Option.some.inj found).symm, ?_, points⟩
      rw [records, if_pos rfl]
    · obtain ⟨before, others⟩ := sound.unnamed found
      obtain ⟨other, entry, rfl, stored, points⟩ := sound.answered target bytes before
      have different : other ≠ name := by
        rintro rfl
        exact others rfl
      refine ⟨other, entry, rfl, ?_, points⟩
      rw [records, if_neg different]
      exact stored

theorem Sound.rewritten (sound : Sound state) {old record : NameRecord}
    (found : recordAt state name = some old) (named : record.name = name)
    (same : record.target = old.target) :
    Sound (state.putJson (recKey name) record) := by
  constructor
  · intro other entry stored
    rw [recordAt_store] at stored
    split at stored
    · rename_i equal
      cases stored
      exact named.trans equal.symm
    · exact sound.named other entry stored
  · intro target bytes entry
    rw [getRev_store] at entry
    obtain ⟨other, stored, rfl, read, points⟩ := sound.answered target bytes entry
    by_cases equal : other = name
    · subst equal
      rw [found] at read
      cases read
      refine ⟨other, record, rfl, ?_, same.trans points⟩
      rw [recordAt_store, if_pos rfl]
    · refine ⟨other, stored, rfl, ?_, points⟩
      rw [recordAt_store, if_neg equal]
      exact read

theorem Sound.released (sound : Sound state) {old : NameRecord}
    (found : recordAt state name = some old) :
    Sound ((cleared state old.target name).remove (recKey name)) := by
  have records : ∀ other, recordAt ((cleared state old.target name).remove (recKey name)) other =
      if other = name then none else recordAt state other := by
    intro other
    rw [recordAt_remove, recordAt_cleared]
  constructor
  · intro other entry stored
    rw [records] at stored
    split at stored
    · cases stored
    · exact sound.named other entry stored
  · intro target bytes entry
    have pointedAt : old.target = (recordAt state name).bind NameRecord.target := by
      rw [found]
      rfl
    rw [getRev_remove, pointedAt] at entry
    obtain ⟨before, others⟩ := sound.unnamed entry
    obtain ⟨other, stored, rfl, read, points⟩ := sound.answered target bytes before
    have different : other ≠ name := by
      rintro rfl
      exact others rfl
    refine ⟨other, stored, rfl, ?_, points⟩
    rw [records, if_neg different]
    exact read

theorem Sound.writes (sound : Sound state) (written : Writes submitter name state after) :
    Sound after := by
  cases written with
  | retargets record named allowed written =>
      rw [written]
      exact sound.retargeted named
  | rewrites old record found named same owner written =>
      rw [written]
      exact sound.rewritten found named same
  | releases old found owner written =>
      rw [written]
      exact sound.released found

/-- Only the name written changes, and only for its owner unless it has expired. -/
theorem Writes.record (written : Writes submitter name state after) {other : String}
    {record : NameRecord} (stored : recordAt state other = some record)
    (changed : recordAt after other ≠ some record) :
    other = name ∧ (record.isExpired (now state) = true ∨ record.owner = submitter) := by
  have here (elsewhere : other ≠ name → recordAt after other = recordAt state other) :
      other = name := by
    by_contra different
    exact changed ((elsewhere different).trans stored)
  cases written with
  | retargets record' named allowed written =>
      have same : other = name := here fun different => by
        rw [written, recordAt_pointed, recordAt_store, recordAt_cleared, if_neg different]
      subst same
      exact ⟨rfl, allowed record stored⟩
  | rewrites old record' found named same owner written =>
      have equal : other = name := here fun different => by
        rw [written, recordAt_store, if_neg different]
      subst equal
      rw [found] at stored
      cases stored
      exact ⟨rfl, .inr owner⟩
  | releases old found owner written =>
      have equal : other = name := here fun different => by
        rw [written, recordAt_remove, recordAt_cleared, if_neg different]
      subst equal
      rw [found] at stored
      cases stored
      exact ⟨rfl, .inr owner⟩

end Index

/-! ### Runs -/

section Runs

variable [SerdeJson] [Blake3]

/-- Blocks set the time, and in between commands are applied. -/
inductive Happening where
  | clock (time : UInt64)
  | command (command : Command)

namespace Happening

def step (state : StateTree) : Happening → StateTree
  | .clock time => state.putJson nowKey time
  | .command order => prism.step state order

def Accepted (state : StateTree) : Happening → Prop
  | .clock _ => True
  | .command order => prism.Accepted state order

end Happening

omit [SerdeJson] [Blake3] in
/-- No name has been registered. -/
def Fresh (state : StateTree) : Prop :=
  (∀ name, state.get (recKey name) = none) ∧ ∀ target, state.get (revKey target) = none

variable {state start : StateTree} {happening : Happening} {happenings : List Happening}

omit [Blake3] in
theorem Fresh.sound (fresh : Fresh state) : Sound state := by
  constructor
  · intro name record stored
    unfold recordAt StateTree.getJson? StateTree.getJson at stored
    rw [fresh.1] at stored
    cases stored
  · intro target bytes entry
    rw [fresh.2] at entry
    cases entry

omit [Blake3] in
theorem recordAt_clock (state : StateTree) (time : UInt64) (name : String) :
    recordAt (state.putJson nowKey time) name = recordAt state name :=
  StateTree.getJson?_put_ne _ _ (nowKey_ne_recKey name)

omit [Blake3] in
theorem Sound.clock (sound : Sound state) (time : UInt64) :
    Sound (state.putJson nowKey time) := by
  constructor
  · intro name record stored
    rw [recordAt_clock] at stored
    exact sound.named name record stored
  · intro target bytes entry
    unfold StateTree.putJson at entry
    rw [StateTree.get_put_ne _ _ (nowKey_ne_revKey target)] at entry
    obtain ⟨name, record, same, stored, points⟩ := sound.answered target bytes entry
    refine ⟨name, record, same, ?_, points⟩
    rw [recordAt_clock]
    exact stored

theorem Sound.step (sound : Sound state) (accepted : happening.Accepted state) :
    Sound (happening.step state) := by
  cases happening with
  | clock time => exact sound.clock time
  | command command =>
      obtain ⟨name, _, written⟩ := NamePrism.writes sound.named accepted
      exact sound.writes written

theorem sound_run (sound : Sound start)
    (accepted : Run.Along Happening.step (fun state happening => happening.Accepted state) start
      happenings) :
    Sound (Run.run Happening.step start happenings) :=
  Run.invariant Happening.step (fun _ _ holds allowed => holds.step allowed) sound accepted

theorem changed_by_owner (sound : Sound state) (accepted : happening.Accepted state)
    {name : String} {record : NameRecord} (stored : recordAt state name = some record)
    (current : record.isExpired (now state) = false)
    (changed : recordAt (happening.step state) name ≠ some record) :
    ∃ command, happening = .command command ∧ command.submitter = record.owner ∧
      Aims command name := by
  cases happening with
  | clock time => exact absurd ((recordAt_clock state time name).trans stored) changed
  | command command =>
      obtain ⟨written, aims, writes⟩ := NamePrism.writes sound.named accepted
      obtain ⟨same, expired | owner⟩ := writes.record stored changed
      · rw [current] at expired
        cases expired
      · exact ⟨command, rfl, owner.symm, same ▸ aims⟩

omit [Blake3] in
theorem resolve_of_reverseLookup {target : PartyId} {name : String}
    (found : reverseLookup state target = some name) : resolve state name = some target := by
  unfold reverseLookup at found
  split at found
  · cases found
  · rename_i entry stored
    split at found
    · cases found
    · rename_i record looked
      split at found
      · cases found
      · rename_i current
        cases found
        rw [not_or, not_not] at current
        unfold resolve
        rw [looked]
        dsimp only
        rw [if_neg current.1, current.2]
        rfl

/-- Accepted texts are the spellings of valid labels and are normalized to the name of the
label, once and for all.  In every run a record that has not expired changes by a command of its
owner about that name only, and reverse entries name records with that target. -/
theorem names_kept (start : StateTree) (happenings : List Happening) (fresh : Fresh start)
    (accepted : Run.Along Happening.step (fun state happening => happening.Accepted state) start
      happenings) :
    (∀ raw name, normalize raw = .ok name ↔
      ∃ text, ValidLabel text ∧ Spells text raw ∧ name = nameOf text) ∧
    (∀ raw name, normalize raw = .ok name → normalize name = .ok name) ∧
    (∀ front happening back name record, happenings = front ++ happening :: back →
      recordAt (Run.run Happening.step start front) name = some record →
      record.isExpired (now (Run.run Happening.step start front)) = false →
      recordAt (Run.run Happening.step start (front ++ [happening])) name ≠ some record →
        ∃ command, happening = .command command ∧ command.submitter = record.owner ∧
          Aims command name) ∧
    (∀ front back target bytes, happenings = front ++ back →
      (Run.run Happening.step start front).get (revKey target) = some bytes →
        ∃ name record, bytes = toVec name ∧
          recordAt (Run.run Happening.step start front) name = some record ∧
          record.target = some target) := by
  refine ⟨normalize_iff, fun raw name => normalize_idempotent, ?_, ?_⟩
  · intro front happening back name record split stored current changed
    rw [split] at accepted
    obtain ⟨before, step, _⟩ := (Run.along_append Happening.step).mp accepted
    rw [Run.run_snoc] at changed
    exact changed_by_owner (sound_run fresh.sound before) step stored current changed
  · intro front back target bytes split entry
    rw [split] at accepted
    have before := ((Run.along_append Happening.step).mp accepted).1
    exact (sound_run fresh.sound before).answered target bytes entry

/-- The first registration of a name with a target. -/
theorem register_accepted {command : Command} {raw name : String} {duration : UInt64}
    {target : PartyId}
    (parsed : fromSlice NameCommand command.payload = .ok (.register raw duration (some target)))
    (spelled : normalize raw = .ok name) (absent : state.get (recKey name) = none) :
    ∃ output, ∃ record : NameRecord, Accepts (prism.handle command) state output
      ((state.putJson (recKey name) record).putJson (revKey target) name) := by
  have normal : (normalized raw).run.run state = (.ok name, state) := by
    unfold normalized
    rw [spelled]
    rfl
  have loaded : (load name).run.run state = (.ok none, state) := by
    unfold load StateTree.getJson
    rw [run_bind_ok (rfl : (get : PrismM StateTree).run.run state = (.ok state, state)), absent]
    rfl
  have ran : ∃ output, ∃ record : NameRecord,
      (register command (now state) raw duration (some target)).run.run state = (.ok output,
        (state.putJson (recKey name) record).putJson (revKey target) name) := by
    unfold register
    rw [run_bind_ok normal, run_bind_ok loaded]
    exact ⟨_, _, rfl⟩
  obtain ⟨output, record, ran⟩ := ran
  refine ⟨output, record, ?_⟩
  unfold prism handle Accepts
  dsimp only
  rw [parsed, run_bind_ok (rfl : (get : PrismM StateTree).run.run state = (.ok state, state))]
  exact ran

end Runs

/-! ### One registered name -/

section Alice

attribute [local instance] SerdeJson.compact Blake3.polynomial

def aliceRegisters : Command :=
  { prism := "name"
    submitter := ⟨"alice"⟩
    visibility := .pub
    payload := toVec (NameCommand.register " Alice.VEIL" 100 (some ⟨"bob"⟩))
    nonce := 0 }

/-- Alice registers a name that points to Bob, and its time passes. -/
def aliceNamed : List Happening := [.clock 10, .command aliceRegisters, .clock 110]

theorem fresh_empty : Fresh StateTree.empty :=
  ⟨fun _ => StateTree.get_empty _, fun _ => StateTree.get_empty _⟩

theorem aliceRegisters_accepted : ∃ output, ∃ record : NameRecord,
    Accepts (prism.handle aliceRegisters) (StateTree.empty.putJson nowKey (10 : UInt64)) output
      (((StateTree.empty.putJson nowKey (10 : UInt64)).putJson (recKey "alice.veil")
        record).putJson (revKey ⟨"bob"⟩) "alice.veil") := by
  have spelled : normalize " Alice.VEIL" = .ok "alice.veil" := by decide +kernel
  apply register_accepted (fromSlice_toVec _) spelled
  unfold StateTree.putJson
  rw [StateTree.get_put_ne _ _ (nowKey_ne_recKey _)]
  exact StateTree.get_empty _

theorem aliceNamed_accepted :
    Run.Along Happening.step (fun state happening => happening.Accepted state) StateTree.empty
      aliceNamed := by
  obtain ⟨output, record, accepted⟩ := aliceRegisters_accepted
  exact ⟨trivial, ⟨output, _, accepted⟩, trivial, trivial⟩

theorem aliceNamed_entry :
    (Run.run Happening.step StateTree.empty aliceNamed).get (revKey ⟨"bob"⟩) =
      some (toVec "alice.veil") := by
  obtain ⟨output, record, accepted⟩ := aliceRegisters_accepted
  change ((prism.step (StateTree.empty.putJson nowKey (10 : UInt64)) aliceRegisters).putJson
    nowKey (110 : UInt64)).get (revKey ⟨"bob"⟩) = _
  rw [Prism.step_eq accepted]
  unfold StateTree.putJson
  rw [StateTree.get_put_ne _ _ (nowKey_ne_revKey _), StateTree.get_put_self]

theorem names_kept_alice : ∃ name record, toVec "alice.veil" = toVec name ∧
    recordAt (Run.run Happening.step StateTree.empty aliceNamed) name = some record ∧
    record.target = some ⟨"bob"⟩ := by
  have kept := names_kept StateTree.empty aliceNamed fresh_empty aliceNamed_accepted
  exact kept.2.2.2 aliceNamed [] ⟨"bob"⟩ _ (List.append_nil _).symm aliceNamed_entry

end Alice

end NamePrism

end Veilux
