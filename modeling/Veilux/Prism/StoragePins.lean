/-
Whom the pins of the storage prism protect.  The count of a cid is shared: anybody may
unpin what anybody pinned, so a blob outlives the pins of one party only while the
others take back no more than their own.
-/

import Veilux.Lib.Tally
import Veilux.Prism.StorageRuns

namespace Veilux

namespace StoragePrism

open PrismM
open Tally (within within_snoc)

section Runs

variable [SerdeJson] [Blake3] {command : Command} {state : StateTree} {cid : Hash}

/-! ### Counts of one party -/

/-- The puts and pins of a cid by a party. -/
def pinsBy (party : PartyId) (cid : Hash) (commands : List Command) : Nat :=
  within Command.submitter (fun command => raised command = some cid) party commands

/-- The public puts and the pins of a cid by a party. -/
def securedBy (party : PartyId) (cid : Hash) (commands : List Command) : Nat :=
  within Command.submitter (fun command => secured command = some cid) party commands

omit [Blake3] in
def unpinsBy (party : PartyId) (cid : Hash) (commands : List Command) : Nat :=
  within Command.submitter (fun command => lowered command = some cid) party commands

theorem raised_of_secured (secures : secured command = some cid) : raised command = some cid := by
  unfold secured at secures
  unfold raised
  split at secures
  · split at secures
    · exact secures
    · cases secures
  · exact secures
  · cases secures

theorem securedBy_le_pinsBy (party : PartyId) (cid : Hash) (commands : List Command) :
    securedBy party cid commands ≤ pinsBy party cid commands := by
  apply List.countP_mono_left
  intro command _ counted
  simp only [decide_eq_true_eq] at counted ⊢
  exact ⟨raised_of_secured counted.1, counted.2⟩

theorem securedBy_snoc (party : PartyId) (commands : List Command)
    (secures : secured command ≠ some cid) :
    securedBy party cid (commands ++ [command]) = securedBy party cid commands := by
  unfold securedBy
  rw [within_snoc, if_neg fun both => secures both.1, Nat.add_zero]

omit [Blake3] in
theorem unpinsBy_le_snoc (party : PartyId) (cid : Hash) (commands : List Command)
    (command : Command) :
    unpinsBy party cid commands ≤ unpinsBy party cid (commands ++ [command]) := by
  unfold unpinsBy
  rw [within_snoc]
  exact Nat.le_add_right _ _

/-- At no moment has a party unpinned the cid more often than it had put or pinned it. -/
def Fair (cid : Hash) (commands : List Command) : Prop :=
  ∀ front back, commands = front ++ back →
    ∀ party, unpinsBy party cid front ≤ pinsBy party cid front

theorem Fair.front {front back : List Command} (fair : Fair cid (front ++ back)) :
    Fair cid front := by
  intro first rest split
  rw [split, List.append_assoc] at fair
  exact fair first (rest ++ back) rfl

/-! ### What keeps a blob -/

/-- A blob goes only with the last count. -/
theorem readBlob_kept (accepted : prism.Accepted state command)
    (present : (readBlob state cid).isSome)
    (positive : refcount (prism.step state command) cid ≠ 0) :
    (readBlob (prism.step state command) cid).isSome := by
  rcases moves accepted cid with ⟨_, _, _, _, _, _, _, blob⟩ | ⟨_, _, _, _, _, blob⟩ |
    ⟨_, _, _, _, blob⟩ | ⟨_, _, _, _, _, blob⟩ | ⟨_, _, _, _, blob⟩
  · rw [blob]
    rfl
  · rw [blob]
    exact present
  · rw [blob]
    exact present
  · rw [blob, if_neg positive]
    exact present
  · rw [blob]
    exact present

theorem readBlob_published (accepted : prism.Accepted state command) {data : List UInt8}
    (named : published command = some data) (digest : Hash.digest data = cid) :
    (readBlob (prism.step state command) cid).isSome := by
  have parsed : ∃ key, fromSlice StorageCommand command.payload = .ok (.put key data) ∧
      command.visibility = .pub := by
    unfold published at named
    split at named
    · rename_i key bytes parsed
      split at named
      · rename_i isPublic
        cases named
        exact ⟨key, parsed, isPublic⟩
      · cases named
    · cases named
  obtain ⟨key, parsed, isPublic⟩ := parsed
  obtain ⟨output, after, accepted⟩ := accepted
  rw [Prism.step_eq accepted]
  obtain ⟨operation, same, executed⟩ := accepts_handle accepted
  rw [parsed] at same
  cases same
  have blobs := (@accepts_put _ _ command _ _ _ key data executed).2
  rw [blobs, if_pos ⟨digest.symm, isPublic⟩]
  rfl

theorem Tracks.nonzero {commands : List Command} (tracks : Tracks cid commands state)
    (more : unpins cid commands < pins cid commands) : refcount state cid ≠ 0 := by
  intro zero
  have counted := tracks.counted
  rw [zero] at counted
  change 0 + unpins cid commands = pins cid commands at counted
  omega

theorem readBlob_outlives {start : StateTree} {front back : List Command}
    (vacant : Vacant start cid)
    (accepted : Run.Along prism.step Counted start (front ++ command :: back))
    {data : List UInt8} (named : published command = some data)
    (digest : Hash.digest data = cid)
    (more : ∀ middle rest, back = middle ++ rest →
      unpins cid (front ++ command :: middle) < pins cid (front ++ command :: middle)) :
    (readBlob (Run.run prism.step start (front ++ command :: back)) cid).isSome := by
  induction back using List.reverseRecOn with
  | nil =>
      obtain ⟨_, last⟩ := (Run.along_append prism.step).mp accepted
      rw [Run.run_snoc]
      exact readBlob_published last.1.1 named digest
  | append_singleton middle later ih =>
      have whole := tracks_run vacant accepted
      have count := more (middle ++ [later]) [] (List.append_nil _).symm
      rw [← List.cons_append, ← List.append_assoc] at accepted count whole ⊢
      obtain ⟨before, last⟩ := (Run.along_append prism.step).mp accepted
      have present := ih before fun first rest split =>
        more first (rest ++ [later]) (by rw [split, List.append_assoc])
      have positive := whole.nonzero count
      rw [Run.run_snoc] at positive ⊢
      exact readBlob_kept last.1.1 present positive

/-- When all counts are taken back, every party has taken back its own. -/
theorem Tracks.even {commands : List Command} (tracks : Tracks cid commands state)
    (fair : Fair cid commands) (zero : refcount state cid = 0) (party : PartyId) :
    pinsBy party cid commands = unpinsBy party cid commands := by
  apply Tally.within_eq
  · exact fun other => fair commands [] (List.append_nil _).symm other
  · have counted := tracks.counted
    rw [zero] at counted
    change 0 + unpins cid commands = pins cid commands at counted
    rw [Nat.zero_add] at counted
    exact counted.symm.le

theorem readBlob_secured {start : StateTree} {commands : List Command}
    (vacant : Vacant start cid) (accepted : Run.Along prism.step Counted start commands)
    (fair : Fair cid commands) {party : PartyId}
    (more : unpinsBy party cid commands < securedBy party cid commands) :
    (readBlob (Run.run prism.step start commands) cid).isSome := by
  induction commands using List.reverseRecOn with
  | nil => exact absurd more (Nat.not_lt_zero _)
  | append_singleton front command ih =>
      have whole := tracks_run vacant accepted
      obtain ⟨before, last⟩ := (Run.along_append prism.step).mp accepted
      have fewer := unpinsBy_le_snoc party cid front command
      have earlier : secured command ≠ some cid →
          (readBlob (Run.run prism.step start front) cid).isSome := by
        intro secures
        rw [securedBy_snoc party front secures] at more
        exact ih before fair.front (lt_of_le_of_lt fewer more)
      rw [Run.run_snoc] at whole ⊢
      rcases moves last.1.1 cid with ⟨_, _, _, _, _, _, _, blob⟩ | ⟨present, _, _, _, _, blob⟩ |
        ⟨_, _, secures, _, blob⟩ | ⟨_, _, _, secures, _, blob⟩ | ⟨_, _, secures, _, blob⟩
      · rw [blob]
        rfl
      · rw [blob]
        exact present
      · rw [blob]
        exact earlier secures
      · rw [blob]
        split
        · rename_i zero
          have even := whole.even fair zero party
          have bound := securedBy_le_pinsBy party cid (front ++ [command])
          omega
        · exact earlier secures
      · rw [blob]
        exact earlier secures

/-- A public blob outlives all pins but the last of them, whoever pinned.  The pins of one
party keep it as long as no party takes back more than it has pinned. -/
theorem pins_protect (start : StateTree) (commands : List Command) (fresh : Fresh start)
    (accepted : Run.Along prism.step Counted start commands) (cid : Hash) :
    (∀ front command back data, commands = front ++ command :: back →
      published command = some data → Hash.digest data = cid →
      (∀ middle rest, back = middle ++ rest →
        unpins cid (front ++ command :: middle) < pins cid (front ++ command :: middle)) →
      (readBlob (Run.run prism.step start commands) cid).isSome) ∧
    (Fair cid commands → ∀ party,
      unpinsBy party cid commands < securedBy party cid commands →
        (readBlob (Run.run prism.step start commands) cid).isSome) := by
  constructor
  · rintro front command back data rfl named digest more
    exact readBlob_outlives (fresh.vacant cid) accepted named digest more
  · intro fair party more
    exact readBlob_secured (fresh.vacant cid) accepted fair more

end Runs

/-! ### Alice's notes and Bob -/

section Sharing

attribute [local instance] SerdeJson.compact Blake3.polynomial

def opCommand (submitter : String) (nonce : UInt64) (operation : StorageOp) : Command :=
  { prism := "storage"
    submitter := ⟨submitter⟩
    visibility := .pub
    payload := toVec (StorageCommand.op operation)
    nonce := nonce }

/-- Bob unpins what Alice has put. -/
def takenRun : List Command :=
  [notesPut 0, opCommand "bob" 0 (.unpin (Hash.digest notes))]

/-- Bob takes back his own pin. -/
def sharedRun : List Command :=
  [notesPut 0, opCommand "bob" 0 (.pin (Hash.digest notes)),
    opCommand "bob" 1 (.unpin (Hash.digest notes))]

theorem opCommand_parsed (submitter : String) (nonce : UInt64) (operation : StorageOp) :
    fromSlice StorageCommand (opCommand submitter nonce operation).payload =
      .ok (.op operation) :=
  fromSlice_toVec _

@[simp] theorem notesPut_submitter (nonce : Nat) : (notesPut nonce).submitter = ⟨"alice"⟩ := rfl

@[simp] theorem opCommand_submitter (submitter : String) (nonce : UInt64)
    (operation : StorageOp) : (opCommand submitter nonce operation).submitter = ⟨submitter⟩ := rfl

theorem notesPut_counts (nonce : Nat) :
    raised (notesPut nonce) = some (Hash.digest notes) ∧
    secured (notesPut nonce) = some (Hash.digest notes) ∧ lowered (notesPut nonce) = none := by
  unfold raised secured lowered
  rw [notesPut_parsed]
  exact ⟨rfl, rfl, rfl⟩

theorem pin_counts (submitter : String) (nonce : UInt64) (cid : Hash) :
    raised (opCommand submitter nonce (.pin cid)) = some cid ∧
    secured (opCommand submitter nonce (.pin cid)) = some cid ∧
    lowered (opCommand submitter nonce (.pin cid)) = none := by
  unfold raised secured lowered
  rw [opCommand_parsed]
  exact ⟨rfl, rfl, rfl⟩

theorem unpin_counts (submitter : String) (nonce : UInt64) (cid : Hash) :
    raised (opCommand submitter nonce (.unpin cid)) = none ∧
    secured (opCommand submitter nonce (.unpin cid)) = none ∧
    lowered (opCommand submitter nonce (.unpin cid)) = some cid := by
  unfold raised secured lowered
  rw [opCommand_parsed]
  exact ⟨rfl, rfl, rfl⟩

/-- Alice's put: a count of one and the bytes. -/
theorem notesPut_stored :
    refcount (prism.step StateTree.empty (notesPut 0)) (Hash.digest notes) = 1 ∧
    (readBlob (prism.step StateTree.empty (notesPut 0)) (Hash.digest notes)).isSome :=
  ⟨(notesRun_refcount 1).1, (notesRun_refcount 1).2 Nat.one_pos⟩

theorem takenRun_accepted : Run.Along prism.step prism.Accepted StateTree.empty takenRun := by
  refine ⟨notesPut_accepted _ _, unpin_accepted (opCommand_parsed _ _ _) ?_, trivial⟩
  rw [notesPut_stored.1]
  decide

theorem takenRun_blob :
    readBlob (Run.run prism.step StateTree.empty takenRun) (Hash.digest notes) = none := by
  have last := takenRun_accepted.2.1
  have lowers := (unpin_counts "bob" 0 (Hash.digest notes)).2.2
  change readBlob (prism.step (prism.step StateTree.empty (notesPut 0))
    (opCommand "bob" 0 (.unpin (Hash.digest notes)))) (Hash.digest notes) = none
  rcases moves last (Hash.digest notes) with ⟨_, _, _, _, spares, _⟩ | ⟨_, _, spares, _⟩ |
    ⟨_, spares, _⟩ | ⟨_, _, _, _, count, blob⟩ | ⟨_, spares, _⟩
  · exact absurd lowers spares
  · exact absurd lowers spares
  · exact absurd lowers spares
  · rw [notesPut_stored.1] at count
    rw [blob, count]
    exact if_pos (by decide)
  · exact absurd lowers spares

/-- Alice has put once and unpinned never, and her notes are gone. -/
theorem notes_taken :
    Fresh StateTree.empty ∧
    Run.Along prism.step prism.Accepted StateTree.empty takenRun ∧
    unpinsBy ⟨"alice"⟩ (Hash.digest notes) takenRun <
      securedBy ⟨"alice"⟩ (Hash.digest notes) takenRun ∧
    readBlob (Run.run prism.step StateTree.empty takenRun) (Hash.digest notes) = none := by
  refine ⟨fresh_empty, takenRun_accepted, ?_, takenRun_blob⟩
  simp [unpinsBy, securedBy, within, takenRun, notesPut_counts, unpin_counts]

theorem sharedPin_stored :
    Counted (prism.step StateTree.empty (notesPut 0))
      (opCommand "bob" 0 (.pin (Hash.digest notes))) ∧
    refcount (prism.step (prism.step StateTree.empty (notesPut 0))
      (opCommand "bob" 0 (.pin (Hash.digest notes)))) (Hash.digest notes) = 2 := by
  have accepted : prism.Accepted (prism.step StateTree.empty (notesPut 0))
      (opCommand "bob" 0 (.pin (Hash.digest notes))) :=
    pin_accepted (opCommand_parsed _ _ _) notesPut_stored.2
  have raises := (pin_counts "bob" 0 (Hash.digest notes)).1
  refine ⟨⟨accepted, ?_⟩, ?_⟩
  · intro cid raised
    rw [raises] at raised
    cases raised
    rw [notesPut_stored.1]
    decide
  · rcases moves accepted (Hash.digest notes) with ⟨_, _, _, _, _, _, count, _⟩ |
      ⟨_, _, _, _, count, _⟩ | ⟨_, _, _, count, _⟩ | ⟨_, spares, _⟩ | ⟨spares, _⟩
    · rw [count, notesPut_stored.1]
      rfl
    · rw [count, notesPut_stored.1]
      rfl
    · rw [count, notesPut_stored.1]
      rfl
    · exact absurd raises spares
    · exact absurd raises spares

theorem sharedRun_counted : Run.Along prism.step Counted StateTree.empty sharedRun := by
  refine ⟨(notesRun_counted 1 (by decide)).1, sharedPin_stored.1,
    ⟨unpin_accepted (opCommand_parsed _ _ _) ?_, ?_⟩, trivial⟩
  · rw [sharedPin_stored.2]
    decide
  · intro cid raises
    rw [(unpin_counts "bob" 1 (Hash.digest notes)).1] at raises
    cases raises

theorem sharedRun_fair : Fair (Hash.digest notes) sharedRun := by
  intro front back split party
  have fronts : front ∈ sharedRun.inits := (List.mem_inits _ _).mpr ⟨back, split.symm⟩
  simp only [sharedRun, List.inits, List.map_cons, List.map_nil, List.mem_cons,
    List.not_mem_nil, or_false] at fronts
  rcases fronts with rfl | rfl | rfl | rfl
  · simp [unpinsBy, pinsBy, within]
  · simp [unpinsBy, pinsBy, within, notesPut_counts]
  · simp [unpinsBy, pinsBy, within, notesPut_counts, pin_counts]
  · simp only [unpinsBy, pinsBy, within, List.countP_cons, List.countP_nil, notesPut_counts,
      pin_counts, unpin_counts, opCommand_submitter, notesPut_submitter]
    simp

theorem pins_protect_notes :
    (readBlob (Run.run prism.step StateTree.empty sharedRun) (Hash.digest notes)).isSome := by
  have protect := pins_protect StateTree.empty sharedRun fresh_empty sharedRun_counted
    (Hash.digest notes)
  apply protect.2 sharedRun_fair ⟨"alice"⟩
  simp [unpinsBy, securedBy, within, sharedRun, notesPut_counts, pin_counts, unpin_counts]

end Sharing

end StoragePrism

end Veilux
