/-
Slashing evidence in front of the staking prism: evidence whose checks hold is
punished for an offence that is new, whatever the command and the state.
-/

import Veilux.Prism.QuorumFraud

namespace Veilux

namespace StakingPrism

/-! ### Checks that hold -/

section Checks

theorem decodeHex_eq {text error : String} {bytes : List UInt8} (read : hexOf text = some bytes) :
    decodeHex text error = pure bytes := by
  unfold hexOf at read
  unfold decodeHex
  rw [read]

variable [Ed25519]

theorem requireSignature_eq {publicKey message signature : List UInt8} {error : String}
    (verified : verifies publicKey message signature = true) :
    requireSignature publicKey message signature error = pure () := by
  unfold verifies at verified
  unfold requireSignature
  cases checked : verifyBytes publicKey message signature with
  | ok done => rfl
  | error failed =>
      rw [checked] at verified
      cases verified

theorem verifyStmt_eq {envelope : PrivateEnvelope} {statement : AttestationStatement} {root : Hash}
    (known : attested envelope statement = some root) :
    verifyStmt envelope statement = pure () := by
  obtain ⟨member, ⟨bytes, decoded, sized⟩, publicKey, signature, keyRead, signatureRead, verified⟩ :=
    attested_eq_some.mp known
  have inside : ¬ ¬ envelope.stakeholders.contains statement.party = true :=
    not_not_intro (List.contains_iff_mem.mpr member)
  unfold verifyStmt
  rw [if_neg inside, decodeHex_eq decoded, pure_bind]
  simp only [sized]
  rw [decodeHex_eq keyRead, pure_bind, decodeHex_eq signatureRead, pure_bind,
    requireSignature_eq verified]

theorem verifyStmt_outsider {envelope : PrivateEnvelope} {statement : AttestationStatement}
    (outside : statement.party ∉ envelope.stakeholders) (state : StateTree) :
    (verifyStmt envelope statement).run.run state =
      (.error (.unauthorized "attester is not a stakeholder of this confidential tx"), state) := by
  have missing : ¬ envelope.stakeholders.contains statement.party = true :=
    fun inside => outside (List.contains_iff_mem.mp inside)
  unfold verifyStmt
  rw [if_pos missing]
  rfl

theorem checkMajority_eq {envelope : PrivateEnvelope} {offender : PartyId}
    {statements : List AttestationStatement} {seen : List PartyId}
    {canonical result : Option String}
    (found : majorityRoot envelope offender statements seen canonical = some result) :
    checkMajority envelope offender statements seen canonical = pure result := by
  induction statements generalizing seen canonical with
  | nil =>
      rw [majorityRoot] at found
      rw [checkMajority, Option.some.inj found]
  | cons statement rest ih =>
      rw [majorityRoot] at found
      split at found
      · rename_i passed
        obtain ⟨known, fresh, other, agrees⟩ := passed
        obtain ⟨root, signed⟩ := Option.isSome_iff_exists.mp known
        have unseen : ¬ seen.contains statement.party = true :=
          fun inside => fresh (List.contains_iff_mem.mp inside)
        unfold checkMajority
        rw [verifyStmt_eq signed, pure_bind, if_neg unseen, if_neg other]
        cases canonical with
        | none => exact ih found
        | some text =>
            obtain rfl := agrees text rfl
            dsimp only
            rw [if_neg (not_not_intro rfl)]
            exact ih found
      · cases found

/-- A statement for the root that the parties so far agree on, if there are any. -/
theorem majorityRoot_agreed {envelope : PrivateEnvelope} {offender : PartyId} {text : String}
    {statements : List AttestationStatement} {seen : List PartyId} {canonical : Option String}
    (each : ∀ statement ∈ statements, (attested envelope statement).isSome = true ∧
      statement.party ≠ offender ∧ statement.root = text ∧ statement.party ∉ seen)
    (distinct : (statements.map AttestationStatement.party).Nodup)
    (agrees : ∀ root ∈ canonical, root = text)
    (given : canonical = some text ∨ statements ≠ []) :
    majorityRoot envelope offender statements seen canonical = some (some text) := by
  induction statements generalizing seen canonical with
  | nil =>
      rw [majorityRoot]
      rcases given with same | nonempty
      · rw [same]
      · exact absurd rfl nonempty
  | cons statement rest ih =>
      obtain ⟨known, other, spelled, fresh⟩ := each statement List.mem_cons_self
      rw [List.map_cons, List.nodup_cons] at distinct
      obtain ⟨apart, restDistinct⟩ := distinct
      have matching : ∀ root ∈ canonical, root = statement.root := by
        intro root held
        rw [agrees root held, spelled]
      rw [majorityRoot, if_pos ⟨known, fresh, other, matching⟩, spelled]
      refine ih ?_ restDistinct (fun root same => (Option.some.inj same).symm) (.inl rfl)
      intro later member
      obtain ⟨laterKnown, laterOther, laterSpelled, laterFresh⟩ :=
        each later (List.mem_cons_of_mem _ member)
      refine ⟨laterKnown, laterOther, laterSpelled, ?_⟩
      intro inside
      rcases List.mem_append.mp inside with earlier | last
      · exact laterFresh earlier
      · apply apart
        rw [← List.mem_singleton.mp last]
        exact List.mem_map_of_mem member

end Checks

/-! ### The punishment of a new offence -/

section Verdicts

variable [SerdeJson] [Blake3]

/-- What `punish` does behind its check that the offence is new. -/
def levy (command : Command) (offence : Hash) (offender : PartyId) : PrismM PrismOutput := do
  let record := stakeOf (← get) offender
  let burned := record.selfBonded * Fin.ofNat (2 ^ 128) defaultSlashBps.toNat /
    Fin.ofNat (2 ^ 128) 10000
  let remaining := record.selfBonded - burned
  if 0 < burned then
    tryCatch (TokenPrism.burnFrom TokenPrism.nativeTokenId escrowAccount burned)
      fun _ => throw (.internal "slash burn failed")
    saveStake { record with selfBonded := remaining }
    updateLock offender (I128.wrap (-I128.ofU128 burned))
  modify fun state => state.putJson (slashKey offence) true
  return .single (event command (.slashed offender burned remaining)) 7000

theorem punish_new {command : Command} {offence : Hash} {offender : PartyId} {state : StateTree}
    (unpunished : state.contains (slashKey offence) = false) :
    (punish command offence offender).run.run state =
      (levy command offence offender).run.run state := by
  have pass : ¬ state.contains (slashKey offence) = true := by
    rw [unpunished]
    exact Bool.false_ne_true
  have reduced : (punish command offence offender).run.run state =
      (if state.contains (slashKey offence) = true then do
        throw (.invalidPayload "offence already slashed")
        levy command offence offender
      else levy command offence offender : PrismM PrismOutput).run.run state := rfl
  rw [reduced, if_neg pass]

variable [Ed25519]

/-- The operation passes every check of the handler, wherever the offence is not yet
slashed: the command is answered with the punishment. -/
def Passes (operation : StakingCommand) (offence : Hash) (offender : PartyId) : Prop :=
  ∀ (command : Command) (state : StateTree), Asks command operation →
    state.contains (slashKey offence) = false →
    (handle command).run.run state = (levy command offence offender).run.run state

/-- The handler answers the operation with an error, in every state. -/
def Rejects (operation : StakingCommand) (error : PrismError) : Prop :=
  ∀ (command : Command) (state : StateTree), Asks command operation →
    (handle command).run.run state = (.error error, state)

omit [Blake3] [Ed25519] in
theorem exists_asks (operation : StakingCommand) : ∃ command, Asks command operation :=
  ⟨_, (Order.read ⟨⟨"anyone"⟩, 0, operation⟩).2⟩

theorem handle_asks {command : Command} {operation : StakingCommand}
    (asked : Asks command operation) :
    handle command = execute command (splitHeight command.payload).2 operation := by
  unfold Asks at asked
  unfold handle
  simp only [asked]

theorem slash_passes {proof : EquivocationProof}
    {publicKey messageA messageB signatureA signatureB : List UInt8}
    (keyRead : hexOf proof.publicKey = some publicKey)
    (firstRead : hexOf proof.messageA = some messageA)
    (secondRead : hexOf proof.messageB = some messageB)
    (firstTag : hexOf proof.signatureA = some signatureA)
    (secondTag : hexOf proof.signatureB = some signatureB) (different : messageA ≠ messageB)
    (firstSigned : verifies publicKey messageA signatureA = true)
    (secondSigned : verifies publicKey messageB signatureB = true) :
    Passes (.slash proof) (equivocationOffence proof.offender messageA messageB)
      proof.offender := by
  intro command state asked unpunished
  have checked : slash command proof =
      punish command (equivocationOffence proof.offender messageA messageB) proof.offender := by
    unfold slash
    rw [decodeHex_eq keyRead, pure_bind, decodeHex_eq firstRead, pure_bind,
      decodeHex_eq secondRead, pure_bind, decodeHex_eq firstTag, pure_bind,
      decodeHex_eq secondTag, pure_bind, if_neg different, requireSignature_eq firstSigned,
      pure_bind, requireSignature_eq secondSigned, pure_bind]
  rw [handle_asks asked]
  change (slash command proof).run.run state = _
  rw [checked, punish_new unpunished]

theorem slashQuorum_passes {proof : QuorumFraudProof} {text : String}
    (bound : proof.envelope.verifyCommitment = true)
    (named : proof.offenderStmt.party = proof.offender)
    (stated : (attested proof.envelope proof.offenderStmt).isSome = true)
    (agreed : majorityRoot proof.envelope proof.offender proof.majority [] none = some (some text))
    (different : proof.offenderStmt.root ≠ text)
    (enough : proof.envelope.stakeholders.length / 2 + 1 ≤ proof.majority.length) :
    Passes (.slashQuorum proof) (quorumOffence proof) proof.offender := by
  intro command state asked unpunished
  obtain ⟨root, signed⟩ := Option.isSome_iff_exists.mp stated
  have checked : slashQuorum command proof = punish command (quorumOffence proof) proof.offender := by
    unfold slashQuorum
    rw [if_neg (not_not_intro bound)]
    dsimp only
    rw [if_neg (not_not_intro named), verifyStmt_eq signed, pure_bind, checkMajority_eq agreed,
      pure_bind]
    dsimp only
    rw [if_neg different, if_neg (Nat.not_lt.mpr enough)]
  rw [handle_asks asked]
  change (slashQuorum command proof).run.run state = _
  rw [checked, punish_new unpunished]

/-- A second signature that the key refuses. -/
theorem slash_rejects {proof : EquivocationProof}
    {publicKey messageA messageB signatureA signatureB : List UInt8}
    (keyRead : hexOf proof.publicKey = some publicKey)
    (firstRead : hexOf proof.messageA = some messageA)
    (secondRead : hexOf proof.messageB = some messageB)
    (firstTag : hexOf proof.signatureA = some signatureA)
    (secondTag : hexOf proof.signatureB = some signatureB) (different : messageA ≠ messageB)
    (firstSigned : verifies publicKey messageA signatureA = true)
    (forged : verifies publicKey messageB signatureB = false) :
    Rejects (.slash proof) (.unauthorized "signature_b invalid") := by
  intro command state asked
  have refused : requireSignature publicKey messageB signatureB "signature_b invalid" =
      throw (.unauthorized "signature_b invalid") := by
    unfold verifies at forged
    unfold requireSignature
    cases checked : verifyBytes publicKey messageB signatureB with
    | error failed => rfl
    | ok done =>
        rw [checked] at forged
        cases forged
  have checked : slash command proof = throw (.unauthorized "signature_b invalid") := by
    unfold slash
    rw [decodeHex_eq keyRead, pure_bind, decodeHex_eq firstRead, pure_bind,
      decodeHex_eq secondRead, pure_bind, decodeHex_eq firstTag, pure_bind,
      decodeHex_eq secondTag, pure_bind, if_neg different, requireSignature_eq firstSigned,
      pure_bind, refused]
    rfl
  rw [handle_asks asked]
  change (slash command proof).run.run state = _
  rw [checked]
  rfl

/-- A majority that begins with somebody who has no stake in the envelope. -/
theorem slashQuorum_rejects {proof : QuorumFraudProof} {statement : AttestationStatement}
    {rest : List AttestationStatement} (bound : proof.envelope.verifyCommitment = true)
    (named : proof.offenderStmt.party = proof.offender)
    (stated : (attested proof.envelope proof.offenderStmt).isSome = true)
    (listed : proof.majority = statement :: rest)
    (outside : statement.party ∉ proof.envelope.stakeholders) :
    Rejects (.slashQuorum proof)
      (.unauthorized "attester is not a stakeholder of this confidential tx") := by
  intro command state asked
  obtain ⟨root, signed⟩ := Option.isSome_iff_exists.mp stated
  have refused : verifyStmt proof.envelope statement =
      throw (.unauthorized "attester is not a stakeholder of this confidential tx") :=
    funext (verifyStmt_outsider outside)
  have checked : slashQuorum command proof =
      throw (.unauthorized "attester is not a stakeholder of this confidential tx") := by
    unfold slashQuorum
    rw [if_neg (not_not_intro bound)]
    dsimp only
    rw [if_neg (not_not_intro named), verifyStmt_eq signed, pure_bind, listed]
    unfold checkMajority
    rw [refused]
    rfl
  rw [handle_asks asked]
  change (slashQuorum command proof).run.run state = _
  rw [checked]
  rfl

end Verdicts

end StakingPrism

end Veilux
