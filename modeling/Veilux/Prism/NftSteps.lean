/-
One accepted command of the prism of unique tokens: what it does to a collection, and to
the owner and the approval of an index.
-/

import Veilux.Lib.Keys
import Veilux.Kernel.Handled
import Veilux.Kernel.Spares
import Veilux.Prism.Nft

namespace Veilux

namespace NftPrism

open PrismM

/-! ### The keys do not collide -/

theorem collKey_injective {left right : Hash} (same : collKey left = collKey right) :
    left = right :=
  Hash.toHex_injective ((String.append_right_inj _).mp same)

theorem indexKey_eq_append (front : String) (id : Hash) (index : UInt64) :
    indexKey front id index = front ++ (id.toHex ++ ("/" ++ Nat.repr index.toNat)) := by
  unfold indexKey
  rw [String.append_assoc, String.append_assoc]

theorem indexKey_injective {front : String} {left right : Hash} {index other : UInt64}
    (same : indexKey front left index = indexKey front right other) :
    left = right ∧ index = other := by
  rw [indexKey_eq_append, indexKey_eq_append, String.append_right_inj] at same
  have texts := congrArg String.toList same
  simp only [String.toList_append] at texts
  have lengths : left.toHex.toList.length = right.toHex.toList.length := by
    rw [Hash.toHex_length, Hash.toHex_length]
  obtain ⟨ids, indices⟩ := List.append_inj texts lengths
  constructor
  · exact Hash.toHex_injective (String.toList_inj.mp ids)
  · have digits := String.toList_inj.mp (List.append_cancel_left indices)
    exact UInt64.toNat_inj.mp (Nat.repr_injective digits)

theorem indexKey_ne {front other : String} (apart : Keys.Apart front other) (left right : Hash)
    (index position : UInt64) : indexKey front left index ≠ indexKey other right position := by
  rw [indexKey_eq_append, indexKey_eq_append]
  exact apart.append_ne _ _

theorem indexKey_ne_collKey {front : String} (apart : Keys.Apart front collPrefix)
    (left right : Hash) (index : UInt64) : indexKey front left index ≠ collKey right := by
  rw [indexKey_eq_append]
  exact apart.append_ne _ _

/-! ### Reading a written state -/

section Reads

variable [SerdeJson]

def collection (state : StateTree) (id : Hash) : Option Collection :=
  state.getJson? Collection (collKey id)

def approvalOf (state : StateTree) (id : Hash) (index : UInt64) : Option PartyId :=
  state.getJson? PartyId (approveKey id index)

theorem collection_putColl (state : StateTree) (id other : Hash) (coll : Collection) :
    collection (state.putJson (collKey id) coll) other =
      if other = id then some coll else collection state other := by
  unfold collection
  by_cases same : other = id
  · rw [if_pos same, same, StateTree.getJson?_putJson]
  · rw [if_neg same]
    exact StateTree.getJson?_put_ne _ _ fun equal => same (collKey_injective equal).symm

theorem collection_putIndex {front : String} (apart : Keys.Apart front collPrefix)
    (state : StateTree) (id other : Hash) (index : UInt64) (bytes : List UInt8) :
    collection (state.put (indexKey front id index) bytes) other = collection state other :=
  StateTree.getJson?_put_ne _ _ (indexKey_ne_collKey apart _ _ _)

theorem collection_removeIndex {front : String} (apart : Keys.Apart front collPrefix)
    (state : StateTree) (id other : Hash) (index : UInt64) :
    collection (state.remove (indexKey front id index)) other = collection state other := by
  unfold collection
  rw [StateTree.getJson?_remove, if_neg (indexKey_ne_collKey apart _ _ _)]

/-- The party stored under an index, for owners and for approvals. -/
def partyAt (front : String) (state : StateTree) (id : Hash) (index : UInt64) : Option PartyId :=
  state.getJson? PartyId (indexKey front id index)

theorem partyAt_put {front : String} (state : StateTree) (id other : Hash)
    (index position : UInt64) (party : PartyId) :
    partyAt front (state.putJson (indexKey front id index) party) other position =
      if other = id ∧ position = index then some party else partyAt front state other position := by
  unfold partyAt
  by_cases same : other = id ∧ position = index
  · rw [if_pos same, same.1, same.2, StateTree.getJson?_putJson]
  · rw [if_neg same]
    refine StateTree.getJson?_put_ne _ _ fun equal => same ?_
    exact ⟨(indexKey_injective equal).1.symm, (indexKey_injective equal).2.symm⟩

theorem partyAt_remove {front : String} (state : StateTree) (id other : Hash)
    (index position : UInt64) :
    partyAt front (state.remove (indexKey front id index)) other position =
      if other = id ∧ position = index then none else partyAt front state other position := by
  unfold partyAt
  rw [StateTree.getJson?_remove]
  by_cases same : other = id ∧ position = index
  · rw [if_pos same, same.1, same.2, if_pos rfl]
  · rw [if_neg same, if_neg]
    intro equal
    exact same ⟨(indexKey_injective equal).1.symm, (indexKey_injective equal).2.symm⟩

theorem partyAt_putElse {front written : String} (apart : Keys.Apart written front)
    (state : StateTree) (id other : Hash) (index position : UInt64) (bytes : List UInt8) :
    partyAt front (state.put (indexKey written id index) bytes) other position =
      partyAt front state other position :=
  StateTree.getJson?_put_ne _ _ (indexKey_ne apart _ _ _ _)

theorem partyAt_removeElse {front written : String} (apart : Keys.Apart written front)
    (state : StateTree) (id other : Hash) (index position : UInt64) :
    partyAt front (state.remove (indexKey written id index)) other position =
      partyAt front state other position := by
  unfold partyAt
  rw [StateTree.getJson?_remove, if_neg (indexKey_ne apart _ _ _ _)]

theorem partyAt_putColl {front : String} (apart : Keys.Apart front collPrefix)
    (state : StateTree) (id other : Hash) (index : UInt64) (bytes : List UInt8) :
    partyAt front (state.put (collKey id) bytes) other index = partyAt front state other index :=
  StateTree.getJson?_put_ne _ _ (Ne.symm (indexKey_ne_collKey apart _ _ _))

theorem ownerOf_eq (state : StateTree) (id : Hash) (index : UInt64) :
    ownerOf state id index = partyAt ownerPrefix state id index := rfl

theorem approvalOf_eq (state : StateTree) (id : Hash) (index : UInt64) :
    approvalOf state id index = partyAt approvePrefix state id index := rfl

/-! ### Accepting runs of the operations -/

variable [Blake3] {command : Command} {state after : StateTree} {output : PrismOutput}
  {id : Hash} {index : UInt64}

theorem accepts_handle (accepted : Accepts (handle command) state output after) :
    ∃ operation, fromSlice NftCommand command.payload = .ok operation ∧
      Accepts (execute command operation) state output after := by
  unfold handle at accepted
  cases parsed : fromSlice NftCommand command.payload with
  | error text =>
      rw [parsed] at accepted
      exact absurd accepted accepts_throw
  | ok operation =>
      rw [parsed] at accepted
      exact ⟨operation, rfl, accepted⟩

omit [Blake3] in
theorem accepts_loadCollection {coll : Collection} {middle : StateTree}
    (accepted : Accepts (loadCollection id) state coll middle) :
    collection state id = some coll ∧ middle = state := by
  unfold loadCollection at accepted
  obtain ⟨value, _, got, accepted⟩ := accepts_bind.mp accepted
  obtain ⟨rfl, rfl⟩ := accepts_get.mp got
  unfold collection StateTree.getJson?
  cases read : state.getJson Collection (collKey id) with
  | error error =>
      rw [read] at accepted
      exact absurd accepted accepts_throw
  | ok entry =>
      cases entry with
      | none =>
          rw [read] at accepted
          exact absurd accepted accepts_throw
      | some found =>
          rw [read] at accepted
          obtain ⟨rfl, rfl⟩ := accepts_pure.mp accepted
          exact ⟨rfl, rfl⟩

omit [Blake3] in
theorem accepts_requireOwner {owner : PartyId} {middle : StateTree}
    (accepted : Accepts (requireOwner id index) state owner middle) :
    ownerOf state id index = some owner ∧ middle = state := by
  unfold requireOwner at accepted
  obtain ⟨value, _, got, accepted⟩ := accepts_bind.mp accepted
  obtain ⟨rfl, rfl⟩ := accepts_get.mp got
  cases found : ownerOf state id index with
  | none =>
      rw [found] at accepted
      exact absurd accepted accepts_throw
  | some holder =>
      rw [found] at accepted
      obtain ⟨rfl, rfl⟩ := accepts_pure.mp accepted
      exact ⟨rfl, rfl⟩

/-- The record of a new collection. -/
def opened (creator : PartyId) (name symbol : String) (maxSupply : Option UInt64) : Collection :=
  { collectionId := createdId creator symbol name
    name := name
    symbol := symbol
    creator := creator
    minted := 0
    maxSupply := maxSupply }

theorem accepts_createCollection {name symbol : String} {maxSupply : Option UInt64}
    (accepted : Accepts (createCollection command name symbol maxSupply) state output after) :
    collection state (createdId command.submitter symbol name) = none ∧
      after = state.putJson (collKey (createdId command.submitter symbol name))
        (opened command.submitter name symbol maxSupply) := by
  unfold createCollection at accepted
  simp only [accepts_bind, accepts_get, accepts_modify, accepts_pure, accepts_ite, accepts_throw,
    false_and, exists_false, and_false, false_or] at accepted
  obtain ⟨_, _, ⟨rfl, rfl⟩, unused, _, _, rfl, _, rfl⟩ := accepted
  refine ⟨?_, rfl⟩
  rw [StateTree.contains_eq_isSome] at unused
  have absent := Option.not_isSome_iff_eq_none.mp unused
  unfold collection StateTree.getJson? StateTree.getJson
  rw [absent]

theorem accepts_mint {target : PartyId} {uri : String} {content : Hash}
    (accepted : Accepts (mint command id target uri content) state output after) :
    ∃ coll, ∃ token : NftToken, collection state id = some coll ∧
      coll.creator = command.submitter ∧
      (∀ max, coll.maxSupply = some max → coll.minted < max) ∧
      after = ((state.putJson (metaKey id coll.minted) token).putJson
        (ownerKey id coll.minted) target).putJson (collKey id)
          { coll with minted := coll.minted + 1 } := by
  unfold mint at accepted
  obtain ⟨coll, _, loaded, rest⟩ := accepts_bind.mp accepted
  obtain ⟨found, rfl⟩ := accepts_loadCollection loaded
  rw [accepts_unless, accepts_unless] at rest
  obtain ⟨creator, room, writes⟩ := rest
  simp only [accepts_bind, accepts_modify, accepts_pure] at writes
  obtain ⟨_, _, rfl, _, _, rfl, _, _, rfl, _, rfl⟩ := writes
  refine ⟨coll, _, found, of_not_not creator, ?_, rfl⟩
  intro max capped
  rw [capped] at room
  simpa using room

theorem accepts_transfer {target : PartyId}
    (accepted : Accepts (transfer command id index target) state output after) :
    ∃ owner, ownerOf state id index = some owner ∧
      (owner = command.submitter ∨ approvalOf state id index = some command.submitter) ∧
      after = (state.putJson (ownerKey id index) target).remove (approveKey id index) := by
  unfold transfer at accepted
  obtain ⟨owner, _, held, rest⟩ := accepts_bind.mp accepted
  obtain ⟨found, rfl⟩ := accepts_requireOwner held
  obtain ⟨value, _, got, last⟩ := accepts_bind.mp rest
  obtain ⟨rfl, rfl⟩ := accepts_get.mp got
  rw [accepts_unless] at last
  obtain ⟨allowed, writes⟩ := last
  simp only [accepts_bind, accepts_modify, accepts_pure] at writes
  obtain ⟨_, _, rfl, _, _, rfl, _, rfl⟩ := writes
  refine ⟨owner, found, ?_, rfl⟩
  by_cases own : owner = command.submitter
  · exact .inl own
  · right
    by_contra unapproved
    exact allowed ⟨own, unapproved⟩

theorem accepts_approve {spender : PartyId}
    (accepted : Accepts (approve command id index spender) state output after) :
    ownerOf state id index = some command.submitter ∧
      after = state.putJson (approveKey id index) spender := by
  unfold approve at accepted
  obtain ⟨owner, _, held, rest⟩ := accepts_bind.mp accepted
  obtain ⟨found, rfl⟩ := accepts_requireOwner held
  rw [accepts_unless] at rest
  obtain ⟨own, writes⟩ := rest
  simp only [accepts_bind, accepts_modify, accepts_pure] at writes
  obtain ⟨_, _, rfl, _, rfl⟩ := writes
  rw [found, of_not_not own]
  exact ⟨rfl, rfl⟩

theorem accepts_burn (accepted : Accepts (burn command id index) state output after) :
    ownerOf state id index = some command.submitter ∧
      after = ((state.remove (ownerKey id index)).remove (metaKey id index)).remove
        (approveKey id index) := by
  unfold burn at accepted
  obtain ⟨owner, _, held, rest⟩ := accepts_bind.mp accepted
  obtain ⟨found, rfl⟩ := accepts_requireOwner held
  rw [accepts_unless] at rest
  obtain ⟨own, writes⟩ := rest
  simp only [accepts_bind, accepts_modify, accepts_pure] at writes
  obtain ⟨_, _, rfl, _, _, rfl, _, _, rfl, _, rfl⟩ := writes
  rw [found, of_not_not own]
  exact ⟨rfl, rfl⟩

/-! ### What a command does to one index -/

omit [Blake3] in
/-- The command mints into the collection. -/
def mintsInto (id : Hash) (command : Command) : Bool :=
  match fromSlice NftCommand command.payload with
  | .ok (.mint other _ _ _) => other = id
  | _ => false

omit [Blake3] in
/-- The command mints into the collection, for the target. -/
def Issues (id : Hash) (target : PartyId) (command : Command) : Prop :=
  ∃ uri content, fromSlice NftCommand command.payload = .ok (.mint id target uri content)

omit [Blake3] in
/-- The command hands the index over. -/
def Passes (id : Hash) (index : UInt64) (command : Command) : Prop :=
  ∃ target, fromSlice NftCommand command.payload = .ok (.transfer id index target)

omit [Blake3] in
def Lends (id : Hash) (index : UInt64) (spender : PartyId) (command : Command) : Prop :=
  fromSlice NftCommand command.payload = .ok (.approve id index spender)

omit [Blake3] in
def Burns (id : Hash) (index : UInt64) (command : Command) : Prop :=
  fromSlice NftCommand command.payload = .ok (.burn id index)

omit [Blake3] in
/-- The command is about the index of an existing token. -/
def Touches (id : Hash) (index : UInt64) (command : Command) : Prop :=
  Passes id index command ∨ (∃ spender, Lends id index spender command) ∨ Burns id index command

omit [Blake3] in
/-- The collection, owner and approval of an index read the same. -/
structure Still (state after : StateTree) (id : Hash) (index : UInt64) : Prop where
  coll : collection after id = collection state id
  owner : ownerOf after id index = ownerOf state id index
  approval : approvalOf after id index = approvalOf state id index

/-- What an accepted command does to one index of one collection. -/
inductive Moves (command : Command) (state after : StateTree) (id : Hash) (index : UInt64) :
    Prop where
  | creates (coll : Collection) (spares : mintsInto id command = false)
      (aside : ¬ Touches id index command) (absent : collection state id = none)
      (blank : coll.minted = 0) (stored : collection after id = some coll)
      (owner : ownerOf after id index = ownerOf state id index)
      (approval : approvalOf after id index = approvalOf state id index)
  | mints (coll : Collection) (target : PartyId) (named : Issues id target command)
      (issues : mintsInto id command = true)
      (aside : ¬ Touches id index command) (found : collection state id = some coll)
      (room : ∀ max, coll.maxSupply = some max → coll.minted < max)
      (stored : collection after id = some { coll with minted := coll.minted + 1 })
      (owner : ownerOf after id index =
        if index = coll.minted then some target else ownerOf state id index)
      (approval : approvalOf after id index = approvalOf state id index)
  | passes (owner : PartyId) (passes : Passes id index command)
      (spares : mintsInto id command = false) (held : ownerOf state id index = some owner)
      (allowed : owner = command.submitter ∨
        approvalOf state id index = some command.submitter)
      (coll : collection after id = collection state id)
      (taken : (ownerOf after id index).isSome) (cleared : approvalOf after id index = none)
  | lends (spender : PartyId) (lends : Lends id index spender command)
      (spares : mintsInto id command = false)
      (held : ownerOf state id index = some command.submitter)
      (coll : collection after id = collection state id)
      (owner : ownerOf after id index = ownerOf state id index)
      (approval : approvalOf after id index = some spender)
  | burns (burns : Burns id index command) (spares : mintsInto id command = false)
      (held : ownerOf state id index = some command.submitter)
      (coll : collection after id = collection state id)
      (gone : ownerOf after id index = none) (cleared : approvalOf after id index = none)
  | nothing (spares : mintsInto id command = false) (aside : ¬ Touches id index command)
      (still : Still state after id index)

omit [Blake3] in
/-- Whether a command touches an index or mints is read off its payload. -/
theorem aside_of_parsed {operation : NftCommand}
    (parsed : fromSlice NftCommand command.payload = .ok operation)
    (transfers : ∀ target, operation ≠ .transfer id index target)
    (approves : ∀ spender, operation ≠ .approve id index spender)
    (burns : operation ≠ .burn id index) : ¬ Touches id index command := by
  rintro (⟨target, same⟩ | ⟨spender, same⟩ | same)
  · rw [parsed] at same
    exact transfers target (Except.ok.inj same)
  · unfold Lends at same
    rw [parsed] at same
    exact approves spender (Except.ok.inj same)
  · unfold Burns at same
    rw [parsed] at same
    exact burns (Except.ok.inj same)

theorem moves_create {name symbol : String} {maxSupply : Option UInt64}
    (parsed : fromSlice NftCommand command.payload =
      .ok (.createCollection name symbol maxSupply))
    (accepted : Accepts (createCollection command name symbol maxSupply) state output after)
    (id : Hash) (index : UInt64) : Moves command state after id index := by
  obtain ⟨absent, rfl⟩ := accepts_createCollection accepted
  have spares : mintsInto id command = false := by
    unfold mintsInto
    rw [parsed]
  have aside : ¬ Touches id index command := aside_of_parsed parsed nofun nofun nofun
  have blank : (opened command.submitter name symbol maxSupply).minted = 0 := rfl
  generalize opened command.submitter name symbol maxSupply = coll at blank ⊢
  generalize createdId command.submitter symbol name = created at absent ⊢
  have owner : ownerOf (state.putJson (collKey created) coll) id index = ownerOf state id index :=
    partyAt_putColl (by decide) _ _ _ _ _
  have approval : approvalOf (state.putJson (collKey created) coll) id index =
      approvalOf state id index := partyAt_putColl (by decide) _ _ _ _ _
  by_cases same : id = created
  · subst same
    refine .creates coll spares aside absent blank ?_ owner approval
    rw [collection_putColl, if_pos rfl]
  · refine .nothing spares aside ⟨?_, owner, approval⟩
    rw [collection_putColl, if_neg same]

omit [Blake3] in
/-- The writes of a mint, read back. -/
theorem minted_reads (state : StateTree) (id other : Hash) (index position : UInt64)
    (token : NftToken) (target : PartyId) (coll : Collection) :
    let after := ((state.putJson (metaKey id index) token).putJson (ownerKey id index)
      target).putJson (collKey id) coll
    collection after other = (if other = id then some coll else collection state other) ∧
    ownerOf after other position =
      (if other = id ∧ position = index then some target else ownerOf state other position) ∧
    approvalOf after other position = approvalOf state other position := by
  intro after
  refine ⟨?_, ?_, ?_⟩
  · change collection (StateTree.putJson _ (collKey id) coll) other = _
    rw [collection_putColl]
    unfold StateTree.putJson ownerKey metaKey
    rw [collection_putIndex (by decide), collection_putIndex (by decide)]
  · change partyAt ownerPrefix (StateTree.put _ (collKey id) _) other position = _
    rw [partyAt_putColl (by decide)]
    unfold ownerKey
    rw [partyAt_put]
    unfold StateTree.putJson metaKey
    rw [partyAt_putElse (by decide)]
    rfl
  · change partyAt approvePrefix (StateTree.put _ (collKey id) _) other position = _
    rw [partyAt_putColl (by decide)]
    unfold StateTree.putJson ownerKey metaKey
    rw [partyAt_putElse (by decide), partyAt_putElse (by decide)]
    rfl

theorem moves_mint {minted content : Hash} {target : PartyId} {uri : String}
    (parsed : fromSlice NftCommand command.payload = .ok (.mint minted target uri content))
    (accepted : Accepts (mint command minted target uri content) state output after)
    (id : Hash) (index : UInt64) : Moves command state after id index := by
  obtain ⟨coll, token, found, _, room, rfl⟩ := accepts_mint accepted
  obtain ⟨stored, owner, approval⟩ := minted_reads state minted id coll.minted index token target
    { coll with minted := coll.minted + 1 }
  have issues : mintsInto id command = decide (minted = id) := by
    unfold mintsInto
    rw [parsed]
  have aside : ¬ Touches id index command := aside_of_parsed parsed nofun nofun nofun
  by_cases same : id = minted
  · subst same
    refine .mints coll target ⟨uri, content, parsed⟩ ?_ aside found room ?_ ?_ approval
    · rw [issues]
      exact decide_eq_true rfl
    · rw [stored, if_pos rfl]
    · rw [owner]
      simp only [true_and]
  · refine .nothing ?_ aside ⟨?_, ?_, approval⟩
    · rw [issues]
      exact decide_eq_false fun equal => same equal.symm
    · rw [stored, if_neg same]
    · rw [owner, if_neg fun both => same both.1]

omit [Blake3] in
theorem passed_reads (state : StateTree) (id other : Hash) (index position : UInt64)
    (target : PartyId) :
    let after := (state.putJson (ownerKey id index) target).remove (approveKey id index)
    collection after other = collection state other ∧
    ownerOf after other position =
      (if other = id ∧ position = index then some target else ownerOf state other position) ∧
    approvalOf after other position =
      (if other = id ∧ position = index then none else approvalOf state other position) := by
  intro after
  refine ⟨?_, ?_, ?_⟩
  · change collection (StateTree.remove _ (approveKey id index)) other = _
    unfold approveKey StateTree.putJson ownerKey
    rw [collection_removeIndex (by decide), collection_putIndex (by decide)]
  · change partyAt ownerPrefix (StateTree.remove _ (approveKey id index)) other position = _
    unfold approveKey
    rw [partyAt_removeElse (by decide)]
    exact partyAt_put _ _ _ _ _ _
  · change partyAt approvePrefix (StateTree.remove _ (approveKey id index)) other position = _
    unfold approveKey
    rw [partyAt_remove]
    unfold StateTree.putJson ownerKey
    rw [partyAt_putElse (by decide)]
    rfl

theorem moves_transfer {passed : Hash} {position : UInt64} {target : PartyId}
    (parsed : fromSlice NftCommand command.payload = .ok (.transfer passed position target))
    (accepted : Accepts (transfer command passed position target) state output after)
    (id : Hash) (index : UInt64) : Moves command state after id index := by
  obtain ⟨holder, held, allowed, rfl⟩ := accepts_transfer accepted
  obtain ⟨coll, owner, approval⟩ := passed_reads state passed id position index target
  have spares : mintsInto id command = false := by
    unfold mintsInto
    rw [parsed]
  by_cases same : id = passed ∧ index = position
  · obtain ⟨rfl, rfl⟩ := same
    refine .passes holder ⟨target, parsed⟩ spares held allowed coll ?_ ?_
    · rw [owner, if_pos ⟨rfl, rfl⟩]
      rfl
    · rw [approval, if_pos ⟨rfl, rfl⟩]
  · have aside : ¬ Touches id index command := by
      apply aside_of_parsed parsed _ nofun nofun
      intro other equal
      cases equal
      exact same ⟨rfl, rfl⟩
    refine .nothing spares aside ⟨coll, ?_, ?_⟩
    · rw [owner, if_neg same]
    · rw [approval, if_neg same]

theorem moves_approve {lent : Hash} {position : UInt64} {spender : PartyId}
    (parsed : fromSlice NftCommand command.payload = .ok (.approve lent position spender))
    (accepted : Accepts (approve command lent position spender) state output after)
    (id : Hash) (index : UInt64) : Moves command state after id index := by
  obtain ⟨held, rfl⟩ := accepts_approve accepted
  have spares : mintsInto id command = false := by
    unfold mintsInto
    rw [parsed]
  have coll : collection (state.putJson (approveKey lent position) spender) id =
      collection state id := collection_putIndex (by decide) _ _ _ _ _
  have owner : ownerOf (state.putJson (approveKey lent position) spender) id index =
      ownerOf state id index := partyAt_putElse (by decide) _ _ _ _ _ _
  have approval : approvalOf (state.putJson (approveKey lent position) spender) id index =
      if id = lent ∧ index = position then some spender else approvalOf state id index :=
    partyAt_put _ _ _ _ _ _
  by_cases same : id = lent ∧ index = position
  · obtain ⟨rfl, rfl⟩ := same
    refine .lends spender parsed spares held coll owner ?_
    rw [approval, if_pos ⟨rfl, rfl⟩]
  · have aside : ¬ Touches id index command := by
      apply aside_of_parsed parsed nofun _ nofun
      intro other equal
      cases equal
      exact same ⟨rfl, rfl⟩
    refine .nothing spares aside ⟨coll, owner, ?_⟩
    rw [approval, if_neg same]

omit [Blake3] in
theorem burned_reads (state : StateTree) (id other : Hash) (index position : UInt64) :
    let after := ((state.remove (ownerKey id index)).remove (metaKey id index)).remove
      (approveKey id index)
    collection after other = collection state other ∧
    ownerOf after other position =
      (if other = id ∧ position = index then none else ownerOf state other position) ∧
    approvalOf after other position =
      (if other = id ∧ position = index then none else approvalOf state other position) := by
  intro after
  refine ⟨?_, ?_, ?_⟩
  · change collection (StateTree.remove _ (approveKey id index)) other = _
    unfold approveKey metaKey ownerKey
    rw [collection_removeIndex (by decide), collection_removeIndex (by decide),
      collection_removeIndex (by decide)]
  · change partyAt ownerPrefix (StateTree.remove _ (approveKey id index)) other position = _
    unfold approveKey metaKey
    rw [partyAt_removeElse (by decide), partyAt_removeElse (by decide)]
    exact partyAt_remove _ _ _ _ _
  · change partyAt approvePrefix (StateTree.remove _ (approveKey id index)) other position = _
    unfold approveKey
    rw [partyAt_remove]
    unfold metaKey ownerKey
    rw [partyAt_removeElse (by decide), partyAt_removeElse (by decide)]
    rfl

theorem moves_burn {burned : Hash} {position : UInt64}
    (parsed : fromSlice NftCommand command.payload = .ok (.burn burned position))
    (accepted : Accepts (burn command burned position) state output after)
    (id : Hash) (index : UInt64) : Moves command state after id index := by
  obtain ⟨held, rfl⟩ := accepts_burn accepted
  obtain ⟨coll, owner, approval⟩ := burned_reads state burned id position index
  have spares : mintsInto id command = false := by
    unfold mintsInto
    rw [parsed]
  by_cases same : id = burned ∧ index = position
  · obtain ⟨rfl, rfl⟩ := same
    refine .burns parsed spares held coll ?_ ?_
    · rw [owner, if_pos ⟨rfl, rfl⟩]
    · rw [approval, if_pos ⟨rfl, rfl⟩]
  · have aside : ¬ Touches id index command := by
      apply aside_of_parsed parsed nofun nofun
      intro equal
      cases equal
      exact same ⟨rfl, rfl⟩
    refine .nothing spares aside ⟨coll, ?_, ?_⟩
    · rw [owner, if_neg same]
    · rw [approval, if_neg same]

theorem moves (accepted : prism.Accepted state command) (id : Hash) (index : UInt64) :
    Moves command state (prism.step state command) id index := by
  obtain ⟨output, after, accepted⟩ := accepted
  rw [Prism.step_eq accepted]
  obtain ⟨operation, parsed, executed⟩ := accepts_handle accepted
  cases operation with
  | createCollection name symbol maxSupply => exact moves_create parsed executed id index
  | mint collectionId target uri content => exact moves_mint parsed executed id index
  | transfer collectionId position target => exact moves_transfer parsed executed id index
  | approve collectionId position spender => exact moves_approve parsed executed id index
  | burn collectionId position => exact moves_burn parsed executed id index

end Reads

end NftPrism

end Veilux
