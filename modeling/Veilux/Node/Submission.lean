/-
What `submit_signed` leaves behind when it refuses a command.  The submitter's
key is bound between the signature check and the checks of prism, nonce and room,
and the nonce is consumed before the command reaches the pending log.
-/

import Veilux.Node.Node

namespace Veilux

namespace Node

/-- The registries, the queue and the pending log, compared entry by entry. -/
structure Untouched (node after : Node) : Prop where
  accounts : ∀ party, after.accounts.lookup party = node.accounts.lookup party
  nonces : ∀ party, after.nonces.lookup party = node.nonces.lookup party
  mempool : after.mempool = node.mempool
  pending : after.store.map Store.pending = node.store.map Store.pending

theorem Untouched.refl (node : Node) : Untouched node node :=
  ⟨fun _ => rfl, fun _ => rfl, rfl, rfl⟩

section Submission

variable [Ed25519]

/-- The checks of intake that come before the key is looked at. -/
structure Authenticated (node : Node) (signed : SignedCommand) : Prop where
  payload : signed.command.payload.length ≤ node.limits.maxPayloadBytes
  name : reserved signed.command.submitter = false
  chain : signed.chainId = node.chainId
  signature : verifySigned signed = .ok ()

omit [Ed25519] in
/-- The checks that come after it. -/
structure Acceptable (node : Node) (signed : SignedCommand) : Prop where
  prism : node.cascade.has signed.command.prism = true
  nonce : node.expectedNonce signed.command.submitter ≤ signed.command.nonce
  room : node.mempool.length < node.limits.maxMempool

/-- The append to the pending log goes through, or there is no log. -/
def Logs (env : Env) (node : Node) : Prop :=
  node.store = none ∨ env.io .appendPending = none

/-- A failed append that happens to change nothing: the nonce was the last one
consumed already and the log keeps its lines. -/
def FailsInPlace (env : Env) (node : Node) (signed : SignedCommand) : Prop :=
  node.nonces.lookup signed.command.submitter = some signed.command.nonce ∧
    ∀ store fault, node.store = some store → env.io .appendPending = some fault →
      (fault.left store).pending = store.pending

/-- A first command of a name must be acceptable and be logged; a later one, once
acceptable, must be logged. -/
def Traceless (env : Env) (node : Node) (signed : SignedCommand) : Prop :=
  Authenticated node signed →
    match node.accounts.lookup signed.command.submitter with
    | none => Acceptable node signed ∧ Logs env node
    | some key =>
        key = signed.publicKey → Acceptable node signed →
          Logs env node ∨ FailsInPlace env node signed

/-- The accounts once the key of an authenticated command was accepted. -/
def boundAccounts (node : Node) (signed : SignedCommand) :
    AList (fun _ : PartyId => List UInt8) :=
  match node.accounts.lookup signed.command.submitter with
  | some _ => node.accounts
  | none => node.accounts.insert signed.command.submitter signed.publicKey

def consumedNonces (node : Node) (signed : SignedCommand) : AList (fun _ : PartyId => UInt64) :=
  node.nonces.insert signed.command.submitter signed.command.nonce

/-- The key is the bound one, or the name is still free. -/
def Owns (node : Node) (signed : SignedCommand) : Prop :=
  ∀ key, node.accounts.lookup signed.command.submitter = some key → key = signed.publicKey

/-- All the checks of intake. -/
structure Accepted (node : Node) (signed : SignedCommand) : Prop where
  authenticated : Authenticated node signed
  owns : Owns node signed
  acceptable : Acceptable node signed

/-- Registries and queue after a command was taken in. -/
def queued (node : Node) (signed : SignedCommand) : Node :=
  { node with
    accounts := node.boundAccounts signed
    nonces := node.consumedNonces signed
    mempool := node.mempool ++ [signed.command] }

/-- The end of intake: the nonce is consumed, the log written, the command queued. -/
def logged (env : Env) (node : Node) (signed : SignedCommand) (durable : Bool) :
    Except NodeError Unit × Node :=
  match ({ node with
      accounts := node.boundAccounts signed
      nonces := node.consumedNonces signed } : Node).logPending env signed durable with
  | (.error error, node) => (.error error, node)
  | (.ok (), node) => (.ok (), { node with mempool := node.mempool ++ [signed.command] })

/-- The ways intake can end, each with the checks that lead there. -/
inductive Taken (env : Env) (node : Node) (signed : SignedCommand) (durable : Bool) :
    Except NodeError Unit × Node → Prop
  | unauthenticated (error : NodeError) (failed : ¬ Authenticated node signed) :
      Taken env node signed durable (.error error, node)
  | foreign (error : NodeError) (failed : ¬ Owns node signed) :
      Taken env node signed durable (.error error, node)
  | unacceptable (error : NodeError) (authenticated : Authenticated node signed)
      (owns : Owns node signed) (failed : ¬ Acceptable node signed) :
      Taken env node signed durable
        (.error error, { node with accounts := node.boundAccounts signed })
  | accepted (accepted : Accepted node signed) :
      Taken env node signed durable (node.logged env signed durable)

omit [Ed25519] in
theorem bindAccount_none {node : Node} {signed : SignedCommand}
    (refused : node.bindAccount signed.command.submitter signed.publicKey = none) :
    ¬ Owns node signed := by
  unfold bindAccount at refused
  split at refused
  · rename_i existing known
    split at refused
    · cases refused
    · rename_i different
      intro owns
      exact different (owns existing known)
  · cases refused

omit [Ed25519] in
theorem bindAccount_some {node bound : Node} {signed : SignedCommand}
    (accepted : node.bindAccount signed.command.submitter signed.publicKey = some bound) :
    Owns node signed ∧ bound = { node with accounts := node.boundAccounts signed } := by
  unfold bindAccount at accepted
  unfold Owns boundAccounts
  cases known : node.accounts.lookup signed.command.submitter with
  | some existing =>
      rw [known] at accepted
      dsimp only at accepted
      split at accepted
      · rename_i same
        cases accepted
        constructor
        · intro key found
          cases found
          exact same
        · rfl
      · cases accepted
  | none =>
      rw [known] at accepted
      cases accepted
      constructor
      · intro key found
        cases found
      · rfl

theorem ingestSigned_taken (env : Env) (node : Node) (signed : SignedCommand) (durable : Bool) :
    Taken env node signed durable (node.ingestSigned env signed durable) := by
  unfold ingestSigned
  dsimp only
  split
  · rename_i large
    exact .unauthenticated _ fun authenticated => absurd authenticated.payload (by omega)
  · rename_i payload
    split
    · rename_i name
      exact .unauthenticated _ fun authenticated => by
        rw [authenticated.name] at name
        cases name
    · rename_i name
      split
      · rename_i chain
        exact .unauthenticated _ fun authenticated => chain authenticated.chain
      · rename_i chain
        split
        · rename_i error unverified
          exact .unauthenticated _ fun authenticated => by
            rw [authenticated.signature] at unverified
            cases unverified
        · rename_i verified
          have authenticated : Authenticated node signed :=
            { payload := by omega
              name := Bool.eq_false_of_not_eq_true name
              chain := Decidable.not_not.mp chain
              signature := verified }
          split
          · rename_i refused
            exact .foreign _ (bindAccount_none refused)
          · rename_i bound accepted
            obtain ⟨owns, rfl⟩ := bindAccount_some accepted
            dsimp only
            split
            · rename_i missing
              exact .unacceptable _ authenticated owns fun acceptable =>
                missing acceptable.prism
            · rename_i installed
              split
              · rename_i stale
                exact .unacceptable _ authenticated owns fun acceptable =>
                  UInt64.not_lt.mpr acceptable.nonce stale
              · rename_i fresh
                split
                · rename_i full
                  exact .unacceptable _ authenticated owns fun acceptable =>
                    absurd acceptable.room (by omega)
                · rename_i room
                  exact .accepted
                    { authenticated := authenticated
                      owns := owns
                      acceptable :=
                        { prism := Decidable.not_not.mp installed
                          nonce := UInt64.not_lt.mp fresh
                          room := by omega } }

/-- An accepted command reaches the log. -/
theorem ingestSigned_accepted {env : Env} {node : Node} {signed : SignedCommand}
    (accepted : Accepted node signed) (durable : Bool) :
    node.ingestSigned env signed durable = node.logged env signed durable := by
  have taken := ingestSigned_taken env node signed durable
  generalize node.ingestSigned env signed durable = result at taken
  cases taken with
  | unauthenticated error failed => exact absurd accepted.authenticated failed
  | foreign error failed => exact absurd accepted.owns failed
  | unacceptable error _ _ failed => exact absurd accepted.acceptable failed
  | accepted _ => rfl

/-- A command that fails a check leaves at most the binding of its key. -/
theorem ingestSigned_refused {env : Env} {node : Node} {signed : SignedCommand}
    (refused : ¬ Accepted node signed) (durable : Bool) :
    ∃ error accounts, node.ingestSigned env signed durable =
      (.error error, { node with accounts := accounts }) := by
  have taken := ingestSigned_taken env node signed durable
  generalize node.ingestSigned env signed durable = result at taken
  cases taken with
  | unauthenticated error failed => exact ⟨error, node.accounts, rfl⟩
  | foreign error failed => exact ⟨error, node.accounts, rfl⟩
  | unacceptable error _ _ failed => exact ⟨error, _, rfl⟩
  | accepted accepted => exact absurd accepted refused

omit [Ed25519] in
theorem logged_ok {env : Env} {node : Node} (logs : Logs env node) (signed : SignedCommand) :
    (node.logged env signed true).1 = .ok () := by
  unfold logged logPending persist Store.appendPending Store.write
  dsimp only
  rw [if_pos rfl]
  rcases logs with detached | works
  · rw [detached]
  · rw [works]
    cases node.store with
    | none => rfl
    | some store => rfl

omit [Ed25519] in
theorem logged_error {env : Env} {node : Node} {store : Store} {fault : IoFault}
    (attached : node.store = some store) (failed : env.io .appendPending = some fault)
    (signed : SignedCommand) :
    node.logged env signed true = (.error (.store (StoreError.io fault.text).text), { node with
      accounts := node.boundAccounts signed
      nonces := node.consumedNonces signed
      store := some (fault.left store) }) := by
  unfold logged logPending persist Store.appendPending Store.write
  dsimp only
  rw [if_pos rfl, attached, failed]

/-! ### When nothing is left -/

omit [Ed25519] in
theorem boundAccounts_of_known {node : Node} {signed : SignedCommand} {key : List UInt8}
    (known : node.accounts.lookup signed.command.submitter = some key) :
    node.boundAccounts signed = node.accounts := by
  unfold boundAccounts
  rw [known]

omit [Ed25519] in
theorem boundAccounts_of_free {node : Node} {signed : SignedCommand}
    (free : node.accounts.lookup signed.command.submitter = none) :
    (node.boundAccounts signed).lookup signed.command.submitter = some signed.publicKey := by
  unfold boundAccounts
  rw [free]
  exact AList.lookup_insert _

omit [Ed25519] in
theorem consumedNonces_lookup (node : Node) (signed : SignedCommand) :
    (node.consumedNonces signed).lookup signed.command.submitter = some signed.command.nonce :=
  AList.lookup_insert _

omit [Ed25519] in
/-- Consuming the nonce consumed last changes no entry. -/
theorem consumedNonces_of_last {node : Node} {signed : SignedCommand}
    (last : node.nonces.lookup signed.command.submitter = some signed.command.nonce)
    (party : PartyId) :
    (node.consumedNonces signed).lookup party = node.nonces.lookup party := by
  by_cases same : party = signed.command.submitter
  · rw [same, consumedNonces_lookup, last]
  · exact AList.lookup_insert_ne same

omit [Ed25519] in
/-- What a failed append leaves, when it is nothing. -/
theorem Untouched.of_failed_append {node : Node} {signed : SignedCommand} {store : Store}
    {fault : IoFault} {key : List UInt8}
    (known : node.accounts.lookup signed.command.submitter = some key)
    (last : node.nonces.lookup signed.command.submitter = some signed.command.nonce)
    (attached : node.store = some store) (kept : (fault.left store).pending = store.pending) :
    Untouched node { node with
      accounts := node.boundAccounts signed
      nonces := node.consumedNonces signed
      store := some (fault.left store) } where
  accounts := by
    intro party
    rw [boundAccounts_of_known known]
  nonces := consumedNonces_of_last last
  mempool := rfl
  pending := by
    rw [attached]
    exact congrArg some kept

/-- Every ending of a traceless submission that is an error leaves nothing. -/
theorem Traceless.untouched {env : Env} {node : Node} {signed : SignedCommand}
    (traceless : Traceless env node signed) {result : Except NodeError Unit × Node}
    (taken : Taken env node signed true result) {error : NodeError}
    (failed : result.1 = .error error) : Untouched node result.2 := by
  cases taken with
  | unauthenticated fault refused => exact Untouched.refl node
  | foreign fault refused => exact Untouched.refl node
  | unacceptable fault authenticated owns refused =>
      have settled := traceless authenticated
      cases known : node.accounts.lookup signed.command.submitter with
      | none =>
          rw [known] at settled
          exact absurd settled.1 refused
      | some key =>
          rw [boundAccounts_of_known known]
          exact Untouched.refl node
  | accepted accepted =>
      have broken : ¬ Logs env node := by
        intro logs
        rw [logged_ok logs] at failed
        cases failed
      cases attached : node.store with
      | none => exact absurd (Or.inl attached) broken
      | some store =>
          cases disk : env.io .appendPending with
          | none => exact absurd (Or.inr disk) broken
          | some fault =>
              have settled := traceless accepted.authenticated
              rw [logged_error attached disk]
              cases known : node.accounts.lookup signed.command.submitter with
              | none =>
                  rw [known] at settled
                  exact absurd settled.2 broken
              | some key =>
                  rw [known] at settled
                  have inPlace :=
                    (settled (accepted.owns key known) accepted.acceptable).resolve_left broken
                  exact Untouched.of_failed_append known inPlace.1 attached
                    (inPlace.2 store fault attached disk)

omit [Ed25519] in
/-- A new binding is a trace. -/
theorem not_untouched_of_free {node after : Node} {signed : SignedCommand}
    (free : node.accounts.lookup signed.command.submitter = none)
    (bound : after.accounts = node.boundAccounts signed) : ¬ Untouched node after := by
  intro untouched
  have same := untouched.accounts signed.command.submitter
  rw [bound, boundAccounts_of_free free, free] at same
  cases same

/-- A submission whose errors leave nothing is traceless. -/
theorem Taken.traceless {env : Env} {node : Node} {signed : SignedCommand}
    {result : Except NodeError Unit × Node} (taken : Taken env node signed true result)
    (clean : ∀ error, result.1 = .error error → Untouched node result.2) :
    Traceless env node signed := by
  intro authenticated
  cases known : node.accounts.lookup signed.command.submitter with
  | none =>
      -- A first command binds its key unless a check before that fails.
      cases taken with
      | unauthenticated error failed => exact absurd authenticated failed
      | foreign error failed =>
          refine absurd ?_ failed
          intro key found
          rw [known] at found
          cases found
      | unacceptable error _ owns failed =>
          exact absurd (clean error rfl) (not_untouched_of_free known rfl)
      | accepted accepted =>
          refine ⟨accepted.acceptable, ?_⟩
          by_contra broken
          cases attached : node.store with
          | none => exact broken (Or.inl attached)
          | some store =>
              cases disk : env.io .appendPending with
              | none => exact broken (Or.inr disk)
              | some fault =>
                  rw [logged_error attached disk] at clean
                  exact not_untouched_of_free known rfl (clean _ rfl)
  | some key =>
      intro same acceptable
      cases taken with
      | unauthenticated error failed => exact absurd authenticated failed
      | foreign error failed =>
          refine absurd ?_ failed
          intro other found
          rw [known] at found
          cases found
          exact same
      | unacceptable error _ owns failed => exact absurd acceptable failed
      | accepted accepted =>
          by_cases logs : Logs env node
          · exact Or.inl logs
          · right
            cases attached : node.store with
            | none => exact absurd (Or.inl attached) logs
            | some store =>
                cases disk : env.io .appendPending with
                | none => exact absurd (Or.inr disk) logs
                | some fault =>
                    rw [logged_error attached disk] at clean
                    have untouched := clean _ rfl
                    constructor
                    · exact (untouched.nonces signed.command.submitter).symm.trans
                        (consumedNonces_lookup node signed)
                    · intro other cause isStore isFault
                      rw [attached] at isStore
                      rw [disk] at isFault
                      cases isStore
                      cases isFault
                      have kept := untouched.pending
                      rw [attached] at kept
                      exact Option.some.inj kept

theorem rejected_submission_untouched_iff (env : Env) (node : Node) (signed : SignedCommand) :
    (∀ error after, node.submitSigned env signed = (.error error, after) →
        Untouched node after) ↔
      Traceless env node signed := by
  have taken : Taken env node signed true (node.submitSigned env signed) :=
    ingestSigned_taken env node signed true
  constructor
  · intro clean
    refine taken.traceless ?_
    intro error failed
    exact clean error _ (Prod.ext failed rfl)
  · intro traceless error after failed
    rw [failed] at taken
    exact traceless.untouched taken rfl

end Submission

/-! ### A name taken by a refused command -/

section Takeover

attribute [local instance] Ed25519.keyed

/-- Signed by a stranger in the name of alice, for a prism no node has. -/
def grab : SignedCommand :=
  (PartyIdentity.repeated "mallory" 9).signForChain
    { prism := "nosuch"
      submitter := ⟨"alice"⟩
      visibility := .pub
      payload := []
      nonce := 0 } 0

noncomputable def freshNode : Node := Node.new ⟨"v1"⟩ Cascade.empty

theorem rejected_grab_binds :
    freshNode.submitSigned (.healthy 10) grab =
        (.error (.unknownPrism "nosuch"), { freshNode with
          accounts := AList.insert ⟨"alice"⟩ grab.publicKey ∅ }) ∧
      ¬ ∀ (env : Env) (node : Node) (signed : SignedCommand) (error : NodeError) (after : Node),
        node.submitSigned env signed = (.error error, after) → Untouched node after := by
  have refused : freshNode.submitSigned (.healthy 10) grab =
      (.error (.unknownPrism "nosuch"), { freshNode with
        accounts := AList.insert ⟨"alice"⟩ grab.publicKey ∅ }) := by
    have verified : verifySigned grab = .ok () := verifySigned_signForChain _ _ _
    unfold submitSigned ingestSigned
    rw [verified]
    rfl
  refine ⟨refused, fun clean => ?_⟩
  have untouched := (clean _ _ _ _ _ refused).accounts ⟨"alice"⟩
  rw [AList.lookup_insert] at untouched
  cases untouched

end Takeover

end Node

end Veilux
