/-
Conservation of confidential notes.  Beside the state runs a ghost record of the notes
that the commands created and spent, with their openings; commitments in the state are
those of created notes, and the amounts of the unspent ones sum to what was minted.
-/

import Veilux.Kernel.Merkle
import Veilux.Lib.Keys
import Veilux.Lib.Run
import Veilux.Prism.Confidential
import Veilux.Prism.TokenSupply

namespace Veilux

open Bytes (leBytes utf8)

/-! ### Notes -/

/-- A note with its opening. -/
structure Note where
  tokenId : Hash
  opening : NoteOpening
  deriving DecidableEq

namespace Note

def input (note : Note) : List UInt8 :=
  Hash.commitBytes "veilux/conf/note" (noteParts note.tokenId note.opening)

def commitment [Blake3] (note : Note) : Hash := noteCommitment note.tokenId note.opening

def amount (note : Note) : Nat := note.opening.amount.val

/-- Texts are shorter than the address space. -/
def Sized (note : Note) : Prop :=
  note.opening.owner.bytes.length < 2 ^ 64 ∧ (utf8 note.opening.blinding).length < 2 ^ 64

theorem Sized.parts {note : Note} (sized : note.Sized) :
    ∀ part ∈ noteParts note.tokenId note.opening, part.length < 2 ^ 64 := by
  intro part member
  simp only [noteParts, List.mem_cons, List.not_mem_nil, or_false] at member
  rcases member with rfl | rfl | rfl | rfl
  · rw [Hash.asBytes_length]
    decide
  · exact sized.1
  · rw [Bytes.leBytes_length]
    decide
  · exact sized.2

theorem input_injective {left right : Note} (leftSized : left.Sized) (rightSized : right.Sized)
    (same : left.input = right.input) : left = right := by
  have parts := Hash.commitBytes_injective leftSized.parts rightSized.parts same
  obtain ⟨leftToken, leftOwner, leftAmount, leftBlinding⟩ := left
  obtain ⟨rightToken, rightOwner, rightAmount, rightBlinding⟩ := right
  simp only [noteParts, List.cons.injEq, and_true] at parts
  obtain ⟨tokens, owners, amounts, blindings⟩ := parts
  have sameAmount : leftAmount = rightAmount :=
    Fin.ext (Bytes.leBytes_injective (Fin.isLt _) (Fin.isLt _) amounts)
  rw [Hash.asBytes_injective tokens, PartyId.bytes_injective owners, sameAmount,
    Bytes.utf8_injective blindings]

end Note

namespace ConfidentialPrism

open PrismM

/-! ### The keys do not collide -/

theorem noteKey_injective {left right : Hash} (same : noteKey left = noteKey right) :
    left = right := by
  have texts := congrArg String.toList same
  simp only [noteKey, String.toList_append, List.append_cancel_left_eq] at texts
  exact Hash.toHex_injective (String.toList_inj.mp texts)

theorem tokenKey_ne_noteKey (id commitment : Hash) : tokenKey id ≠ noteKey commitment :=
  Keys.Apart.append_ne (by decide) _ _

/-! ### Reading notes behind writes -/

section Notes

variable [SerdeJson]

theorem note_putNote (state : StateTree) (commitment other : Hash) (entry : NoteState) :
    note (state.putJson (noteKey commitment) entry) other =
      if commitment = other then some entry else note state other := by
  unfold note
  by_cases same : commitment = other
  · rw [if_pos same, same, StateTree.getJson?_putJson]
  · rw [if_neg same]
    exact StateTree.getJson?_put_ne state _ fun equal => same (noteKey_injective equal)

/-- The state behind the last loop of a transfer. -/
def noted (tokenId : Hash) (state : StateTree) (commits : List Hash) : StateTree :=
  commits.foldl (fun state commitment => state.putJson (noteKey commitment)
    (⟨tokenId, false⟩ : NoteState)) state

theorem note_noted (tokenId : Hash) (state : StateTree) (commits : List Hash) (other : Hash) :
    note (noted tokenId state commits) other =
      if other ∈ commits then some ⟨tokenId, false⟩ else note state other := by
  induction commits generalizing state with
  | nil => rfl
  | cons commitment rest ih =>
      change note (noted tokenId (state.putJson (noteKey commitment) _) rest) other = _
      rw [ih, note_putNote]
      by_cases later : other ∈ rest
      · rw [if_pos later, if_pos (List.mem_cons_of_mem _ later)]
      · by_cases same : commitment = other
        · rw [if_neg later, if_pos same, if_pos (same ▸ List.mem_cons_self)]
        · have outside : other ∉ commitment :: rest := by
            intro member
            rcases List.mem_cons.mp member with first | inRest
            · exact same first.symm
            · exact later inRest
          rw [if_neg later, if_neg same, if_neg outside]

omit [SerdeJson] in
theorem accepts_putNotes {tokenId : Hash} {commits : List Hash} {state after : StateTree}
    {value : Unit} :
    Accepts (putNotes tokenId commits) state value after ↔ noted tokenId state commits = after := by
  induction commits generalizing state with
  | nil =>
      unfold putNotes
      rw [accepts_pure]
      exact ⟨fun same => same.2, fun same => ⟨rfl, same⟩⟩
  | cons commitment rest ih =>
      unfold putNotes putNote
      simp only [accepts_bind, accepts_modify, ih]
      constructor
      · rintro ⟨_, _, rfl, same⟩
        exact same
      · intro same
        exact ⟨(), _, rfl, same⟩

end Notes

theorem outputSum_val {outputs : List NoteOpening} {sum total : U128}
    (summed : outputSum outputs sum = some total) :
    total.val = sum.val + (outputs.map fun output => output.amount.val).sum := by
  induction outputs generalizing sum with
  | nil =>
      cases summed
      rfl
  | cons output rest ih =>
      unfold outputSum at summed
      cases added : sum.checkedAdd output.amount with
      | none =>
          rw [added] at summed
          cases summed
      | some next =>
          rw [added] at summed
          rw [ih summed, TokenPrism.checkedAdd_val added, List.map_cons, List.sum_cons]
          omega

section Accepted

variable [SerdeJson] [Blake3]

theorem checkOutputs_spec {state : StateTree} {tokenId : Hash} {outputs : List NoteOpening}
    {commits collected : List Hash} (distinct : commits.Nodup)
    (checked : checkOutputs state tokenId outputs commits = .ok collected) :
    collected = commits ++ outputs.map (noteCommitment tokenId) ∧ collected.Nodup ∧
      ∀ output ∈ outputs, note state (noteCommitment tokenId output) = none := by
  induction outputs generalizing commits with
  | nil =>
      cases checked
      rw [List.map_nil, List.append_nil]
      exact ⟨rfl, distinct, fun output member => by cases member⟩
  | cons output rest ih =>
      unfold checkOutputs at checked
      split at checked
      · cases checked
      · dsimp only at checked
        split at checked
        · cases checked
        · rename_i fresh
          rw [Bool.or_eq_true, not_or] at fresh
          have unseen : noteCommitment tokenId output ∉ commits := by
            simpa using fresh.2
          have absent : note state (noteCommitment tokenId output) = none := by
            simpa using fresh.1
          have extended : (commits ++ [noteCommitment tokenId output]).Nodup := by
            rw [← List.concat_eq_append]
            exact distinct.concat unseen
          obtain ⟨same, nodup, others⟩ := ih extended checked
          refine ⟨?_, nodup, ?_⟩
          · rw [same, List.map_cons, List.append_assoc, List.singleton_append]
          · intro other member
            rcases List.mem_cons.mp member with first | inRest
            · rw [first]
              exact absent
            · exact others other inRest

variable {command : Command} {state after : StateTree} {output : PrismOutput}

omit [SerdeJson] in
theorem accepts_createToken {name symbol : String}
    (accepted : Accepts (createToken command name symbol) state output after) :
    ∃ id, ∃ info : ConfTokenMeta, after = state.putJson (tokenKey id) info := by
  unfold createToken at accepted
  rw [accepts_bind] at accepted
  obtain ⟨_, _, read, accepted⟩ := accepted
  obtain ⟨rfl, rfl⟩ := accepts_get.mp read
  rw [accepts_unless] at accepted
  simp only [accepts_bind, accepts_modify, accepts_pure] at accepted
  obtain ⟨_, _, _, rfl, _, rfl⟩ := accepted
  exact ⟨_, _, rfl⟩

omit [Blake3] in
theorem loadToken_reads {id : Hash} {info : ConfTokenMeta} {after : StateTree}
    (accepted : Accepts (loadToken id) state info after) : after = state := by
  unfold loadToken at accepted
  rw [accepts_bind] at accepted
  obtain ⟨_, _, read, accepted⟩ := accepted
  obtain ⟨rfl, rfl⟩ := accepts_get.mp read
  split at accepted
  · exact absurd accepted accepts_throw
  · exact absurd accepted accepts_throw
  · exact (accepts_pure.mp accepted).2.symm

theorem accepts_mint {tokenId : Hash} {opening : NoteOpening}
    (accepted : Accepts (mint command tokenId opening) state output after) :
    note state (noteCommitment tokenId opening) = none ∧
      after = state.putJson (noteKey (noteCommitment tokenId opening))
        (⟨tokenId, false⟩ : NoteState) := by
  unfold mint at accepted
  rw [accepts_bind] at accepted
  obtain ⟨info, _, loaded, accepted⟩ := accepted
  rw [loadToken_reads loaded] at accepted
  rw [accepts_unless, accepts_unless] at accepted
  obtain ⟨_, _, accepted⟩ := accepted
  rw [accepts_bind] at accepted
  obtain ⟨_, _, read, accepted⟩ := accepted
  obtain ⟨rfl, rfl⟩ := accepts_get.mp read
  rw [accepts_unless] at accepted
  obtain ⟨absent, accepted⟩ := accepted
  simp only [putNote, accepts_bind, accepts_modify, accepts_pure] at accepted
  obtain ⟨_, _, rfl, _, rfl⟩ := accepted
  refine ⟨?_, rfl⟩
  simpa using absent

theorem accepts_transfer {tokenId : Hash} {input : NoteOpening} {outputs : List NoteOpening}
    (accepted : Accepts (transfer command tokenId input outputs) state output after) :
    input.owner = command.submitter ∧
      (∃ entry, note state (noteCommitment tokenId input) = some entry ∧ entry.spent = false) ∧
      input.amount.val = (outputs.map fun output => output.amount.val).sum ∧
      (outputs.map (noteCommitment tokenId)).Nodup ∧
      (∀ output ∈ outputs, note state (noteCommitment tokenId output) = none) ∧
      after = noted tokenId (state.putJson (noteKey (noteCommitment tokenId input))
        (⟨tokenId, true⟩ : NoteState)) (outputs.map (noteCommitment tokenId)) := by
  unfold transfer at accepted
  rw [accepts_bind] at accepted
  obtain ⟨info, _, loaded, accepted⟩ := accepted
  rw [loadToken_reads loaded] at accepted
  rw [accepts_unless, accepts_unless] at accepted
  obtain ⟨_, owner, accepted⟩ := accepted
  rw [accepts_bind] at accepted
  obtain ⟨_, _, read, accepted⟩ := accepted
  obtain ⟨rfl, rfl⟩ := accepts_get.mp read
  cases found : note state (noteCommitment tokenId input) with
  | none =>
      rw [found] at accepted
      exact absurd accepted accepts_throw
  | some entry =>
      rw [found] at accepted
      dsimp only at accepted
      rw [accepts_unless] at accepted
      obtain ⟨unspent, accepted⟩ := accepted
      cases summed : outputSum outputs 0 with
      | none =>
          rw [summed] at accepted
          exact absurd accepted accepts_throw
      | some outSum =>
          rw [summed] at accepted
          dsimp only at accepted
          rw [accepts_unless] at accepted
          obtain ⟨conserves, accepted⟩ := accepted
          rw [accepts_bind] at accepted
          obtain ⟨_, _, read, accepted⟩ := accepted
          obtain ⟨rfl, rfl⟩ := accepts_get.mp read
          cases checked : checkOutputs state tokenId outputs [] with
          | error error =>
              rw [checked] at accepted
              exact absurd accepted accepts_throw
          | ok commits =>
              rw [checked] at accepted
              simp only [putNote, accepts_bind, accepts_modify, accepts_putNotes, accepts_pure]
                at accepted
              obtain ⟨_, _, rfl, _, _, rfl, _, rfl⟩ := accepted
              obtain ⟨rfl, nodup, absent⟩ := checkOutputs_spec List.nodup_nil checked
              rw [List.nil_append] at nodup ⊢
              have sum := outputSum_val summed
              rw [not_not.mp conserves] at sum
              refine ⟨not_not.mp owner, ⟨entry, rfl, Bool.eq_false_of_not_eq_true unspent⟩, ?_,
                nodup, absent, rfl⟩
              rw [sum]
              exact Nat.zero_add _

end Accepted

/-! ### Amounts and flags of recorded notes -/

/-- The amounts of a token's notes. -/
def amountOf (id : Hash) (notes : List Note) : Nat :=
  ((notes.filter fun note => note.tokenId = id).map Note.amount).sum

theorem amountOf_append (id : Hash) (front back : List Note) :
    amountOf id (front ++ back) = amountOf id front + amountOf id back := by
  unfold amountOf
  rw [List.filter_append, List.map_append, List.sum_append]

theorem amountOf_own (id : Hash) (outputs : List NoteOpening) :
    amountOf id (outputs.map (Note.mk id)) =
      (outputs.map fun output => output.amount.val).sum := by
  unfold amountOf
  rw [List.filter_eq_self.mpr, List.map_map]
  · rfl
  · intro note member
    obtain ⟨output, _, rfl⟩ := List.mem_map.mp member
    exact decide_eq_true rfl

theorem amountOf_other {id tokenId : Hash} (outputs : List NoteOpening)
    (different : tokenId ≠ id) : amountOf id (outputs.map (Note.mk tokenId)) = 0 := by
  unfold amountOf
  rw [List.filter_eq_nil_iff.mpr]
  · rfl
  · intro note member
    obtain ⟨output, _, rfl⟩ := List.mem_map.mp member
    simpa using different

theorem amountOf_perm {id : Hash} {left right : List Note} (same : left.Perm right) :
    amountOf id left = amountOf id right :=
  ((same.filter _).map _).sum_eq

theorem amountOf_partition (id : Hash) (notes : List Note) (chosen : Note → Bool) :
    amountOf id (notes.filter fun note => !chosen note) + amountOf id (notes.filter chosen) =
      amountOf id notes := by
  rw [← amountOf_append]
  exact amountOf_perm (List.perm_append_comm.trans (List.filter_append_perm chosen notes))

/-- The flag that a record of created and spent commitments gives. -/
def flagOf (created spent : List Hash) (commitment : Hash) : Option Bool :=
  if commitment ∈ spent then some true
  else if commitment ∈ created then some false
  else none

theorem flagOf_eq_none {known gone : List Hash} {commitment : Hash}
    (inside : ∀ commitment ∈ gone, commitment ∈ known) :
    flagOf known gone commitment = none ↔ commitment ∉ known := by
  unfold flagOf
  by_cases inKnown : commitment ∈ known
  · simp only [inKnown, if_true, not_true_eq_false, iff_false]
    split <;> exact fun absent => nomatch absent
  · have outside : commitment ∉ gone := fun member => inKnown (inside commitment member)
    simp only [inKnown, outside, if_false, not_false_eq_true]

theorem flagOf_eq_false {known gone : List Hash} {commitment : Hash} :
    flagOf known gone commitment = some false ↔ commitment ∈ known ∧ commitment ∉ gone := by
  unfold flagOf
  by_cases inGone : commitment ∈ gone
  · simp [inGone]
  · by_cases inKnown : commitment ∈ known
    · simp [inGone, inKnown]
    · simp [inGone, inKnown]

/-! ### The ghost record of a run -/

section Record

variable [SerdeJson]

def createdBy (command : Command) : List Note :=
  match fromSlice ConfidentialCommand command.payload with
  | .ok (.mint tokenId opening) => [⟨tokenId, opening⟩]
  | .ok (.transfer tokenId _ outputs) => outputs.map (Note.mk tokenId)
  | _ => []

def spentBy (command : Command) : List Note :=
  match fromSlice ConfidentialCommand command.payload with
  | .ok (.transfer tokenId input _) => [⟨tokenId, input⟩]
  | _ => []

def mintedBy (command : Command) : List Note :=
  match fromSlice ConfidentialCommand command.payload with
  | .ok (.mint tokenId opening) => [⟨tokenId, opening⟩]
  | _ => []

def created (commands : List Command) : List Note := commands.flatMap createdBy

def spent (commands : List Command) : List Note := commands.flatMap spentBy

def minted (commands : List Command) : List Note := commands.flatMap mintedBy

theorem created_snoc (commands : List Command) (command : Command) :
    created (commands ++ [command]) = created commands ++ createdBy command := by
  unfold created
  rw [List.flatMap_append, List.flatMap_singleton]

theorem spent_snoc (commands : List Command) (command : Command) :
    spent (commands ++ [command]) = spent commands ++ spentBy command := by
  unfold spent
  rw [List.flatMap_append, List.flatMap_singleton]

theorem minted_snoc (commands : List Command) (command : Command) :
    minted (commands ++ [command]) = minted commands ++ mintedBy command := by
  unfold minted
  rw [List.flatMap_append, List.flatMap_singleton]

/-- Whether a commitment is in the state, and spent. -/
def spentFlag (state : StateTree) (commitment : Hash) : Option Bool :=
  (note state commitment).map NoteState.spent

/-- No note is known. -/
def Blank (state : StateTree) : Prop := ∀ commitment, state.get (noteKey commitment) = none

end Record

section Runs

variable [Blake3]

def commitments (notes : List Note) : List Hash := notes.map Note.commitment

theorem commitments_append (front back : List Note) :
    commitments (front ++ back) = commitments front ++ commitments back :=
  List.map_append

variable [SerdeJson]

/-- The state knows the created notes and which of them are spent. -/
structure Tracks (commands : List Command) (state : StateTree) : Prop where
  flags : ∀ commitment, spentFlag state commitment =
    flagOf (commitments (created commands)) (commitments (spent commands)) commitment
  distinct : (commitments (created commands)).Nodup
  once : (commitments (spent commands)).Nodup
  inside : ∀ commitment ∈ commitments (spent commands),
    commitment ∈ commitments (created commands)
  sums : ∀ id, amountOf id (created commands) =
    amountOf id (minted commands) + amountOf id (spent commands)

theorem Blank.tracks {state : StateTree} (blank : Blank state) : Tracks [] state := by
  constructor
  · intro commitment
    unfold spentFlag note StateTree.getJson? StateTree.getJson
    rw [blank commitment]
    rfl
  · exact List.nodup_nil
  · exact List.nodup_nil
  · intro commitment member
    cases member
  · intro id
    rfl

/-- What an accepted command does to the notes. -/
structure Spends (command : Command) (state after : StateTree) : Prop where
  fresh : ∀ commitment ∈ commitments (createdBy command), spentFlag state commitment = none
  apart : (commitments (createdBy command)).Nodup
  unspent : ∀ commitment ∈ commitments (spentBy command), spentFlag state commitment = some false
  single : (commitments (spentBy command)).Nodup
  owned : ∀ note ∈ spentBy command, note.opening.owner = command.submitter
  flags : ∀ commitment, spentFlag after commitment =
    if commitment ∈ commitments (spentBy command) then some true
    else if commitment ∈ commitments (createdBy command) then some false
    else spentFlag state commitment
  conserves : ∀ id, amountOf id (createdBy command) =
    amountOf id (mintedBy command) + amountOf id (spentBy command)

variable {command : Command} {commands : List Command} {state after : StateTree}
  {output : PrismOutput}

theorem Tracks.fresh (tracks : Tracks commands state) (spends : Spends command state after) :
    ∀ commitment ∈ commitments (createdBy command),
      commitment ∉ commitments (created commands) := by
  intro commitment member
  have absent := spends.fresh commitment member
  rw [tracks.flags] at absent
  exact (flagOf_eq_none tracks.inside).mp absent

theorem Tracks.unspent (tracks : Tracks commands state) (spends : Spends command state after) :
    ∀ commitment ∈ commitments (spentBy command),
      commitment ∈ commitments (created commands) ∧
        commitment ∉ commitments (spent commands) := by
  intro commitment member
  have unspent := spends.unspent commitment member
  rw [tracks.flags] at unspent
  exact flagOf_eq_false.mp unspent

theorem Tracks.snoc (tracks : Tracks commands state) (spends : Spends command state after) :
    Tracks (commands ++ [command]) after := by
  have fresh := tracks.fresh spends
  have unspent := tracks.unspent spends
  constructor
  · intro commitment
    rw [spends.flags, tracks.flags, created_snoc, spent_snoc, commitments_append,
      commitments_append]
    unfold flagOf
    simp only [List.mem_append]
    by_cases spentNow : commitment ∈ commitments (spentBy command)
    · simp only [spentNow, or_true, if_true]
    · by_cases spentBefore : commitment ∈ commitments (spent commands)
      · have known := tracks.inside commitment spentBefore
        have old : commitment ∉ commitments (createdBy command) :=
          fun member => fresh commitment member known
        simp only [spentNow, spentBefore, old, if_false, true_or, if_true]
      · by_cases createdNow : commitment ∈ commitments (createdBy command)
        · simp only [spentNow, spentBefore, createdNow, or_true, or_false, if_false, if_true]
        · simp only [spentNow, spentBefore, createdNow, or_false, if_false]
  · rw [created_snoc, commitments_append]
    refine List.nodup_append.mpr ⟨tracks.distinct, spends.apart, ?_⟩
    intro first inFront second inBack same
    exact fresh second inBack (same ▸ inFront)
  · rw [spent_snoc, commitments_append]
    refine List.nodup_append.mpr ⟨tracks.once, spends.single, ?_⟩
    intro first inFront second inBack same
    exact (unspent second inBack).2 (same ▸ inFront)
  · intro commitment member
    rw [spent_snoc, commitments_append] at member
    rw [created_snoc, commitments_append]
    apply List.mem_append_left
    rcases List.mem_append.mp member with before | now
    · exact tracks.inside commitment before
    · exact (unspent commitment now).1
  · intro id
    rw [created_snoc, minted_snoc, spent_snoc, amountOf_append, amountOf_append, amountOf_append,
      tracks.sums id, spends.conserves id]
    omega

/-! ### One accepted command -/

theorem accepts_handle (accepted : Accepts (handle command) state output after) :
    ∃ operation, fromSlice ConfidentialCommand command.payload = .ok operation ∧
      Accepts (execute command operation) state output after := by
  unfold handle at accepted
  cases parsed : fromSlice ConfidentialCommand command.payload with
  | error text =>
      rw [parsed] at accepted
      exact absurd accepted accepts_throw
  | ok operation =>
      rw [parsed] at accepted
      exact ⟨operation, rfl, accepted⟩

theorem spends_createToken {name symbol : String}
    (parsed : fromSlice ConfidentialCommand command.payload = .ok (.createToken name symbol))
    (accepted : Accepts (createToken command name symbol) state output after) :
    Spends command state after := by
  obtain ⟨id, info, rfl⟩ := accepts_createToken accepted
  have createdNone : createdBy command = [] := by
    unfold createdBy
    rw [parsed]
  have spentNone : spentBy command = [] := by
    unfold spentBy
    rw [parsed]
  have mintedNone : mintedBy command = [] := by
    unfold mintedBy
    rw [parsed]
  have flags : ∀ commitment, spentFlag (state.putJson (tokenKey id) info) commitment =
      spentFlag state commitment := by
    intro commitment
    unfold spentFlag note StateTree.putJson
    rw [StateTree.getJson?_put_ne _ _ (tokenKey_ne_noteKey id commitment)]
  constructor <;> simp only [createdNone, spentNone, mintedNone, commitments, List.map_nil,
    List.not_mem_nil, false_implies, implies_true, List.nodup_nil, if_false]
  · exact flags
  · intro id
    rfl

theorem spends_mint {tokenId : Hash} {opening : NoteOpening}
    (parsed : fromSlice ConfidentialCommand command.payload = .ok (.mint tokenId opening))
    (accepted : Accepts (mint command tokenId opening) state output after) :
    Spends command state after := by
  obtain ⟨absent, rfl⟩ := accepts_mint accepted
  have createdOne : createdBy command = [⟨tokenId, opening⟩] := by
    unfold createdBy
    rw [parsed]
  have spentNone : spentBy command = [] := by
    unfold spentBy
    rw [parsed]
  have mintedOne : mintedBy command = [⟨tokenId, opening⟩] := by
    unfold mintedBy
    rw [parsed]
  constructor
  · intro commitment member
    rw [createdOne] at member
    rw [List.mem_singleton.mp member]
    unfold spentFlag
    rw [Note.commitment, absent]
    rfl
  · rw [createdOne]
    exact List.nodup_singleton _
  · intro commitment member
    rw [spentNone] at member
    cases member
  · rw [spentNone]
    exact List.nodup_nil
  · intro note member
    rw [spentNone] at member
    cases member
  · intro commitment
    have commits : commitments (createdBy command) = [noteCommitment tokenId opening] := by
      rw [createdOne]
      rfl
    have unspent : commitments (spentBy command) = [] := by
      rw [spentNone]
      rfl
    rw [commits, unspent, if_neg List.not_mem_nil]
    unfold spentFlag
    rw [note_putNote]
    by_cases same : noteCommitment tokenId opening = commitment
    · rw [if_pos same, ← same, if_pos (List.mem_singleton_self _)]
      rfl
    · rw [if_neg same, if_neg fun member => same (List.mem_singleton.mp member).symm]
  · intro id
    rw [createdOne, mintedOne, spentNone]
    rfl

theorem spends_transfer {tokenId : Hash} {input : NoteOpening} {outputs : List NoteOpening}
    (parsed : fromSlice ConfidentialCommand command.payload = .ok (.transfer tokenId input outputs))
    (accepted : Accepts (transfer command tokenId input outputs) state output after) :
    Spends command state after := by
  obtain ⟨owner, ⟨entry, found, unspent⟩, sum, nodup, absent, rfl⟩ := accepts_transfer accepted
  have createdAll : createdBy command = outputs.map (Note.mk tokenId) := by
    unfold createdBy
    rw [parsed]
  have spentOne : spentBy command = [⟨tokenId, input⟩] := by
    unfold spentBy
    rw [parsed]
  have mintedNone : mintedBy command = [] := by
    unfold mintedBy
    rw [parsed]
  have commits : commitments (createdBy command) = outputs.map (noteCommitment tokenId) := by
    rw [createdAll, commitments, List.map_map]
    rfl
  have spends : commitments (spentBy command) = [noteCommitment tokenId input] := by
    rw [spentOne]
    rfl
  have known : noteCommitment tokenId input ∉ outputs.map (noteCommitment tokenId) := by
    intro member
    obtain ⟨opened, inOutputs, same⟩ := List.mem_map.mp member
    have none := absent opened inOutputs
    rw [same, found] at none
    cases none
  constructor
  · intro commitment member
    rw [commits] at member
    obtain ⟨opened, inOutputs, rfl⟩ := List.mem_map.mp member
    unfold spentFlag
    rw [absent opened inOutputs]
    rfl
  · rw [commits]
    exact nodup
  · intro commitment member
    rw [spentOne] at member
    rw [List.mem_singleton.mp member]
    unfold spentFlag
    rw [Note.commitment, found, Option.map_some, unspent]
  · rw [spentOne]
    exact List.nodup_singleton _
  · intro note member
    rw [spentOne] at member
    rw [List.mem_singleton.mp member]
    exact owner
  · intro commitment
    rw [commits, spends]
    unfold spentFlag
    rw [note_noted, note_putNote]
    by_cases same : noteCommitment tokenId input = commitment
    · rw [← same, if_neg known, if_pos rfl, if_pos (List.mem_singleton_self _)]
      rfl
    · have other : commitment ∉ [noteCommitment tokenId input] :=
        fun member => same (List.mem_singleton.mp member).symm
      rw [if_neg same, if_neg other]
      split <;> rfl
  · intro id
    rw [createdAll, mintedNone, spentOne]
    change _ = 0 + amountOf id ([input].map (Note.mk tokenId))
    by_cases same : tokenId = id
    · subst same
      rw [amountOf_own, amountOf_own, ← sum, Nat.zero_add]
      rfl
    · rw [amountOf_other _ same, amountOf_other _ same]

theorem spends_of_accepted (accepted : Accepts (handle command) state output after) :
    Spends command state after := by
  obtain ⟨operation, parsed, executed⟩ := accepts_handle accepted
  cases operation with
  | createToken name symbol => exact spends_createToken parsed executed
  | mint tokenId opening => exact spends_mint parsed executed
  | transfer tokenId input outputs => exact spends_transfer parsed executed

theorem tracks_run {start : StateTree} (blank : Blank start)
    (accepted : Run.Along prism.step prism.Accepted start commands) :
    Tracks commands (Run.run prism.step start commands) := by
  induction commands using List.reverseRecOn with
  | nil => exact blank.tracks
  | append_singleton front command ih =>
      obtain ⟨before, ⟨output, after, last⟩, _⟩ := (Run.along_append prism.step).mp accepted
      rw [Run.run_snoc, Prism.step_eq last]
      exact (ih before).snoc (spends_of_accepted last)

/-! ### Openings -/

omit [SerdeJson] in
/-- The digest separates the notes of the run. -/
theorem commitment_injective {notes : List Note}
    (free : CollisionFree {input | ∃ note ∈ notes, note.input = input})
    (sized : ∀ note ∈ notes, note.Sized) {left right : Note} (inLeft : left ∈ notes)
    (inRight : right ∈ notes) (same : left.commitment = right.commitment) : left = right :=
  Note.input_injective (sized left inLeft) (sized right inRight)
    (free _ ⟨left, inLeft, rfl⟩ _ ⟨right, inRight, rfl⟩ same)

/-- Created notes whose commitment is spent are the spent notes. -/
theorem Tracks.gone (tracks : Tracks commands state)
    (separated : ∀ left ∈ created commands ++ spent commands,
      ∀ right ∈ created commands ++ spent commands,
        left.commitment = right.commitment → left = right) :
    ((created commands).filter fun note =>
      note.commitment ∈ commitments (spent commands)).Perm (spent commands) := by
  apply (List.perm_ext_iff_of_nodup (tracks.distinct.of_map.filter _) tracks.once.of_map).mpr
  intro note
  rw [List.mem_filter, decide_eq_true_iff]
  constructor
  · rintro ⟨known, member⟩
    obtain ⟨other, inSpent, same⟩ := List.mem_map.mp member
    have equal := separated other (List.mem_append_right _ inSpent) note
      (List.mem_append_left _ known) same
    rw [← equal]
    exact inSpent
  · intro inSpent
    have member : note.commitment ∈ commitments (spent commands) := List.mem_map_of_mem inSpent
    obtain ⟨other, known, same⟩ := List.mem_map.mp (tracks.inside _ member)
    have equal := separated other (List.mem_append_left _ known) note
      (List.mem_append_right _ inSpent) same
    rw [← equal]
    exact ⟨known, same ▸ member⟩

/-- A created note is disclosed as unspent when its commitment is not among the spent. -/
theorem Tracks.disclosed (tracks : Tracks commands state) {note : Note}
    (known : note ∈ created commands) :
    discloseNote state note.tokenId note.opening = some false ↔
      note.commitment ∉ commitments (spent commands) := by
  change spentFlag state note.commitment = some false ↔ _
  rw [tracks.flags, flagOf_eq_false]
  exact ⟨fun both => both.2, fun unspent => ⟨List.mem_map_of_mem known, unspent⟩⟩

theorem Tracks.unspent_sum (tracks : Tracks commands state)
    (separated : ∀ left ∈ created commands ++ spent commands,
      ∀ right ∈ created commands ++ spent commands,
        left.commitment = right.commitment → left = right) (id : Hash) :
    amountOf id ((created commands).filter fun note =>
      discloseNote state note.tokenId note.opening = some false) =
        amountOf id (minted commands) := by
  have kept : ((created commands).filter fun note =>
      discloseNote state note.tokenId note.opening = some false) =
      (created commands).filter fun note =>
        !decide (note.commitment ∈ commitments (spent commands)) := by
    apply List.filter_congr
    intro note known
    rw [← decide_not]
    exact decide_eq_decide.mpr (tracks.disclosed known)
  have split := amountOf_partition id (created commands)
    fun note => decide (note.commitment ∈ commitments (spent commands))
  rw [amountOf_perm (tracks.gone separated), tracks.sums id] at split
  rw [kept]
  omega

/-! ### Failures -/

omit [Blake3] in
theorem loadToken_clean (id : Hash) : Clean (loadToken id) := by
  unfold loadToken
  apply Clean.read
  intro state
  split
  · exact clean_throw _
  · exact clean_throw _
  · exact clean_pure _

omit [Blake3] [SerdeJson] in
theorem putNotes_total (tokenId : Hash) (commits : List Hash) {state after : StateTree} :
    ¬ Rejects (putNotes tokenId commits) state after := by
  induction commits generalizing state with
  | nil => exact rejects_pure
  | cons commitment rest ih =>
      unfold putNotes putNote
      simp only [rejects_bind, rejects_modify, ih, and_false, exists_false, or_self,
        not_false_eq_true]

/-- Every check stands before the first write. -/
theorem handle_clean (command : Command) : Clean (handle command) := by
  unfold handle
  split
  · exact clean_throw _
  · rename_i operation parsed
    have loads : ∀ {β : Type} {id : Hash} {next : ConfTokenMeta → PrismM β},
        (∀ info, Clean (next info)) → Clean (loadToken id >>= next) := by
      intro β id next later
      exact (loadToken_clean id).bind (fun _ _ _ accepted => loadToken_reads accepted) later
    cases operation with
    | createToken name symbol =>
        apply Clean.read
        intro state
        apply Clean.unless
        apply (clean_modify _).then
        intro _ state after
        exact rejects_pure
    | mint tokenId opening =>
        apply loads
        intro info
        apply Clean.unless
        apply Clean.unless
        apply Clean.read
        intro state
        apply Clean.unless
        apply (clean_modify _).then
        intro _ state after
        exact rejects_pure
    | transfer tokenId input outputs =>
        apply loads
        intro info
        apply Clean.unless
        apply Clean.unless
        apply Clean.read
        intro state
        split
        · exact clean_throw _
        · apply Clean.unless
          split
          · exact clean_throw _
          · apply Clean.unless
            apply Clean.read
            intro state
            split
            · exact clean_throw _
            · apply (clean_modify _).then
              intro _ state after
              simp only [rejects_bind, putNotes_total, rejects_pure, and_false, exists_false,
                or_self, not_false_eq_true]

/-! ### Conservation -/

theorem notes_conserved (start : StateTree) (commands : List Command) (blank : Blank start)
    (accepted : Run.Along prism.step prism.Accepted start commands)
    (free : CollisionFree
      {input | ∃ note ∈ created commands ++ spent commands, note.input = input})
    (sized : ∀ note ∈ created commands ++ spent commands, note.Sized) :
    (∀ front back, commands = front ++ back →
      (∀ id, amountOf id ((created front).filter fun note =>
          discloseNote (Run.run prism.step start front) note.tokenId note.opening = some false) =
        amountOf id (minted front)) ∧
      (commitments (created front)).Nodup ∧ (spent front).Nodup) ∧
    (∀ front command back, commands = front ++ command :: back →
      (∀ note ∈ spentBy command, note.opening.owner = command.submitter ∧
        note ∈ created front ∧ note ∉ spent front) ∧
      (∀ note ∈ createdBy command, note.commitment ∉ commitments (created front))) ∧
    (∀ state command after, Rejects (handle command) state after → after = state) := by
  have separated : ∀ front back, commands = front ++ back →
      ∀ left ∈ created front ++ spent front, ∀ right ∈ created front ++ spent front,
        left.commitment = right.commitment → left = right := by
    intro front back split left inLeft right inRight same
    have larger : ∀ note ∈ created front ++ spent front,
        note ∈ created commands ++ spent commands := by
      intro note member
      rw [split, created, spent, List.flatMap_append, List.flatMap_append]
      rcases List.mem_append.mp member with inCreated | inSpent
      · exact List.mem_append_left _ (List.mem_append_left _ inCreated)
      · exact List.mem_append_right _ (List.mem_append_left _ inSpent)
    exact commitment_injective free sized (larger left inLeft) (larger right inRight) same
  refine ⟨?_, ?_, ?_⟩
  · intro front back split
    have before : Run.Along prism.step prism.Accepted start front := by
      rw [split] at accepted
      exact ((Run.along_append prism.step).mp accepted).1
    have tracks := tracks_run blank before
    exact ⟨tracks.unspent_sum (separated front back split), tracks.distinct, tracks.once.of_map⟩
  · intro front command back split
    rw [split] at accepted
    obtain ⟨before, ⟨output, after, last⟩, _⟩ := (Run.along_append prism.step).mp accepted
    have tracks := tracks_run blank before
    have spends := spends_of_accepted last
    constructor
    · intro note member
      obtain ⟨known, unspent⟩ := tracks.unspent spends note.commitment (List.mem_map_of_mem member)
      obtain ⟨other, inCreated, same⟩ := List.mem_map.mp known
      have inSpent : note ∈ spent (front ++ [command]) := by
        rw [spent_snoc]
        exact List.mem_append_right _ member
      have inFront : other ∈ created (front ++ [command]) := by
        rw [created_snoc]
        exact List.mem_append_left _ inCreated
      have equal := separated (front ++ [command]) back (by rw [split, List.append_assoc]; rfl)
        other (List.mem_append_left _ inFront) note (List.mem_append_right _ inSpent) same
      refine ⟨spends.owned note member, equal ▸ inCreated, ?_⟩
      intro again
      exact unspent (List.mem_map_of_mem again)
    · intro note member
      exact tracks.fresh spends note.commitment (List.mem_map_of_mem member)
  · intro state command after rejected
    exact handle_clean command state after rejected

/-! ### Accepted commands -/

omit [Blake3] in
theorem loadToken_accepted {id : Hash} {info : ConfTokenMeta}
    (stored : state.getJson ConfTokenMeta (tokenKey id) = .ok (some info)) :
    Accepts (loadToken id) state info state := by
  unfold loadToken
  rw [accepts_bind]
  refine ⟨state, state, accepts_get.mpr ⟨rfl, rfl⟩, ?_⟩
  rw [stored]
  exact accepts_pure.mpr ⟨rfl, rfl⟩

theorem mint_accepted {tokenId : Hash} {opening : NoteOpening} {info : ConfTokenMeta}
    (stored : state.getJson ConfTokenMeta (tokenKey tokenId) = .ok (some info))
    (admin : info.admin = command.submitter) (positive : opening.amount ≠ 0)
    (absent : note state (noteCommitment tokenId opening) = none) :
    ∃ output, Accepts (mint command tokenId opening) state output
      (state.putJson (noteKey (noteCommitment tokenId opening))
        (⟨tokenId, false⟩ : NoteState)) := by
  refine ⟨.single (event command (.noteCreated tokenId (noteCommitment tokenId opening))) 4000, ?_⟩
  unfold mint
  rw [accepts_bind]
  refine ⟨info, state, loadToken_accepted stored, ?_⟩
  rw [accepts_unless, accepts_unless]
  refine ⟨not_not_intro admin, positive, ?_⟩
  rw [accepts_bind]
  refine ⟨state, state, accepts_get.mpr ⟨rfl, rfl⟩, ?_⟩
  rw [accepts_unless, absent]
  refine ⟨Bool.false_ne_true, ?_⟩
  simp only [putNote, accepts_bind, accepts_modify, accepts_pure]
  exact ⟨(), _, rfl, trivial, rfl⟩

omit [SerdeJson] in
theorem createToken_accepted {name symbol : String}
    (absent : state.get (tokenKey (createdId command.submitter symbol)) = none) :
    ∃ output, Accepts (createToken command name symbol) state output
      (state.putJson (tokenKey (createdId command.submitter symbol))
        ({ tokenId := createdId command.submitter symbol
           name := name
           symbol := symbol
           admin := command.submitter } : ConfTokenMeta)) := by
  refine ⟨.single (event command
    (.tokenCreated (createdId command.submitter symbol) symbol)) 5000, ?_⟩
  unfold createToken
  rw [accepts_bind]
  refine ⟨state, state, accepts_get.mpr ⟨rfl, rfl⟩, ?_⟩
  rw [accepts_unless, StateTree.contains_eq_isSome, absent]
  refine ⟨Bool.false_ne_true, ?_⟩
  simp only [accepts_bind, accepts_modify, accepts_pure]
  exact ⟨(), _, rfl, trivial, rfl⟩

theorem checkOutputs_ok {tokenId : Hash} {outputs : List NoteOpening} {commits : List Hash}
    (positive : ∀ output ∈ outputs, output.amount ≠ 0)
    (absent : ∀ output ∈ outputs, note state (noteCommitment tokenId output) = none)
    (distinct : (commits ++ outputs.map (noteCommitment tokenId)).Nodup) :
    checkOutputs state tokenId outputs commits =
      .ok (commits ++ outputs.map (noteCommitment tokenId)) := by
  induction outputs generalizing commits with
  | nil =>
      rw [List.map_nil, List.append_nil]
      rfl
  | cons output rest ih =>
      rw [List.map_cons, List.append_cons] at distinct ⊢
      have unseen : noteCommitment tokenId output ∉ commits := by
        intro member
        have prefixed := (List.nodup_append.mp distinct).1
        exact (List.nodup_append.mp prefixed).2.2 _ member _ (List.mem_singleton_self _) rfl
      have fresh : ¬ ((note state (noteCommitment tokenId output)).isSome ||
          commits.contains (noteCommitment tokenId output)) = true := by
        rw [absent output List.mem_cons_self]
        simpa using unseen
      unfold checkOutputs
      dsimp only
      rw [if_neg (positive output List.mem_cons_self), if_neg fresh]
      exact ih (fun other member => positive other (List.mem_cons_of_mem _ member))
        (fun other member => absent other (List.mem_cons_of_mem _ member)) distinct

theorem transfer_accepted {tokenId : Hash} {input : NoteOpening} {outputs : List NoteOpening}
    {info : ConfTokenMeta} {entry : NoteState} {commits : List Hash}
    (stored : state.getJson ConfTokenMeta (tokenKey tokenId) = .ok (some info))
    (paid : outputs.isEmpty = false) (owner : input.owner = command.submitter)
    (found : note state (noteCommitment tokenId input) = some entry)
    (unspent : entry.spent = false) (summed : outputSum outputs 0 = some input.amount)
    (checked : checkOutputs state tokenId outputs [] = .ok commits) :
    ∃ output after, Accepts (transfer command tokenId input outputs) state output after := by
  refine ⟨.single (event command (.noteSpent tokenId (noteCommitment tokenId input) commits)) 8000,
    noted tokenId (state.putJson (noteKey (noteCommitment tokenId input))
      (⟨tokenId, true⟩ : NoteState)) commits, ?_⟩
  unfold transfer
  rw [accepts_bind]
  refine ⟨info, state, loadToken_accepted stored, ?_⟩
  rw [accepts_unless, accepts_unless]
  refine ⟨by rw [paid]; exact Bool.false_ne_true, not_not_intro owner, ?_⟩
  rw [accepts_bind]
  refine ⟨state, state, accepts_get.mpr ⟨rfl, rfl⟩, ?_⟩
  rw [found]
  dsimp only
  rw [accepts_unless, unspent]
  refine ⟨Bool.false_ne_true, ?_⟩
  rw [summed]
  dsimp only
  rw [accepts_unless]
  refine ⟨not_not_intro rfl, ?_⟩
  rw [accepts_bind]
  refine ⟨state, state, accepts_get.mpr ⟨rfl, rfl⟩, ?_⟩
  rw [checked]
  simp only [putNote, accepts_bind, accepts_modify, accepts_putNotes, accepts_pure]
  exact ⟨(), _, rfl, (), _, rfl, trivial, rfl⟩

end Runs

/-! ### A note split in two -/

section Cash

attribute [local instance] SerdeJson.compact Blake3.polynomial

def confidentialCommand (submitter : String) (nonce : UInt64)
    (operation : ConfidentialCommand) : Command :=
  { prism := "confidential"
    submitter := ⟨submitter⟩
    visibility := .pub
    payload := toVec operation
    nonce := nonce }

def cashId : Hash := createdId ⟨"bank"⟩ "CASH"

def aliceNote : NoteOpening :=
  { owner := ⟨"alice"⟩
    amount := 100
    blinding := "r1" }

/-- Sixty for Bob and forty back to Alice. -/
def splitNotes : List NoteOpening :=
  [{ owner := ⟨"bob"⟩, amount := 60, blinding := "r2" },
    { owner := ⟨"alice"⟩, amount := 40, blinding := "r3" }]

def cashRun : List Command :=
  [confidentialCommand "bank" 0 (.createToken "Cash" "CASH"),
    confidentialCommand "bank" 1 (.mint cashId aliceNote),
    confidentialCommand "alice" 0 (.transfer cashId aliceNote splitNotes)]

def cashMeta : ConfTokenMeta :=
  { tokenId := cashId
    name := "Cash"
    symbol := "CASH"
    admin := ⟨"bank"⟩ }

def cashState : StateTree := StateTree.empty.putJson (tokenKey cashId) cashMeta

def mintedState : StateTree :=
  cashState.putJson (noteKey (noteCommitment cashId aliceNote)) (⟨cashId, false⟩ : NoteState)

theorem blank_empty : Blank StateTree.empty := fun _ => StateTree.get_empty _

theorem note_cashState (commitment : Hash) : note cashState commitment = none := by
  unfold note cashState StateTree.putJson
  rw [StateTree.getJson?_put_ne _ _ (tokenKey_ne_noteKey _ _)]
  unfold StateTree.getJson? StateTree.getJson
  rw [StateTree.get_empty]

theorem splitNotes_checked :
    checkOutputs mintedState cashId splitNotes [] =
      .ok (splitNotes.map (noteCommitment cashId)) := by
  have others : ∀ output ∈ splitNotes,
      noteCommitment cashId aliceNote ≠ noteCommitment cashId output := by
    decide +kernel
  apply checkOutputs_ok
  · decide
  · intro output member
    rw [mintedState, note_putNote, if_neg (others output member), note_cashState]
  · decide +kernel

theorem cashRun_accepted : Run.Along prism.step prism.Accepted StateTree.empty cashRun := by
  obtain ⟨output, first⟩ : ∃ output, Accepts (handle (confidentialCommand "bank" 0
      (.createToken "Cash" "CASH"))) StateTree.empty output cashState := by
    unfold handle confidentialCommand
    rw [fromSlice_toVec]
    exact createToken_accepted (StateTree.get_empty _)
  have stored : cashState.getJson ConfTokenMeta (tokenKey cashId) = .ok (some cashMeta) :=
    StateTree.getJson_putJson _ _ _
  obtain ⟨output, second⟩ : ∃ output, Accepts (handle (confidentialCommand "bank" 1
      (.mint cashId aliceNote))) cashState output mintedState := by
    unfold handle confidentialCommand
    rw [fromSlice_toVec]
    exact mint_accepted stored rfl (by decide) (note_cashState _)
  have kept : mintedState.getJson ConfTokenMeta (tokenKey cashId) = .ok (some cashMeta) := by
    unfold mintedState StateTree.putJson
    rw [StateTree.getJson_put_ne _ _ (Ne.symm (tokenKey_ne_noteKey _ _))]
    exact stored
  have found : note mintedState (noteCommitment cashId aliceNote) = some ⟨cashId, false⟩ := by
    rw [mintedState, note_putNote, if_pos rfl]
  obtain ⟨output, after, third⟩ : ∃ output after, Accepts (handle (confidentialCommand "alice" 0
      (.transfer cashId aliceNote splitNotes))) mintedState output after := by
    unfold handle confidentialCommand
    rw [fromSlice_toVec]
    exact transfer_accepted kept rfl rfl found rfl rfl splitNotes_checked
  refine ⟨⟨_, _, first⟩, ?_⟩
  rw [Prism.step_eq first]
  refine ⟨⟨_, _, second⟩, ?_⟩
  rw [Prism.step_eq second]
  exact ⟨⟨_, _, third⟩, trivial⟩

theorem cashRun_notes : created cashRun ++ spent cashRun =
    (aliceNote :: splitNotes ++ [aliceNote]).map (Note.mk cashId) := by
  simp [cashRun, created, spent, createdBy, spentBy, confidentialCommand, fromSlice_toVec]

theorem notes_conserved_cash :
    Blank StateTree.empty ∧ Run.Along prism.step prism.Accepted StateTree.empty cashRun ∧
    amountOf cashId ((created cashRun).filter fun note =>
        discloseNote (Run.run prism.step StateTree.empty cashRun) note.tokenId note.opening =
          some false) = 100 := by
  have separated : ∀ left ∈ (aliceNote :: splitNotes ++ [aliceNote]).map (Note.mk cashId),
      ∀ right ∈ (aliceNote :: splitNotes ++ [aliceNote]).map (Note.mk cashId),
        Hash.digest left.input = Hash.digest right.input → left.input = right.input := by
    decide +kernel
  have free : CollisionFree
      {input | ∃ note ∈ created cashRun ++ spent cashRun, note.input = input} := by
    rw [cashRun_notes]
    rintro _ ⟨left, inLeft, rfl⟩ _ ⟨right, inRight, rfl⟩ same
    exact separated left inLeft right inRight same
  have sized : ∀ note ∈ created cashRun ++ spent cashRun, note.Sized := by
    rw [cashRun_notes]
    unfold Note.Sized
    decide +kernel
  have sums := ((notes_conserved StateTree.empty cashRun blank_empty cashRun_accepted free
    sized).1 cashRun [] (List.append_nil _).symm).1 cashId
  refine ⟨blank_empty, cashRun_accepted, sums.trans ?_⟩
  simp [cashRun, minted, mintedBy, confidentialCommand, fromSlice_toVec, amountOf, Note.amount,
    aliceNote]

end Cash

end ConfidentialPrism

end Veilux
