/-
Confidential envelopes on a node, from `node/src/node.rs`: sealed commands are
executed on the private state by the parties hosted here, and the roots signed
by other stakeholders are compared.  None of it touches the chain.
-/

import Veilux.Node.Node
import Veilux.Prism.Evidence

namespace Veilux

namespace Node

structure PrivateOutcome where
  commitment : Hash
  executed : Bool
  privateRoot : Hash
  attestation : Option RootAttestation

section Private

variable [Blake3] [Ed25519] [SerdeJson] [ChaCha20Poly1305] [X25519]

/-- The identity a hosted party attests with has the keyring's seed. -/
def hostedIdentity (keyring : ViewKeyring) : PartyIdentity :=
  { party := keyring.party
    signingKey := keyring.seed }

/-- The part of `apply_private_envelope` behind the bookkeeping: the first hosted
stakeholder opens and executes the command. -/
def executePrivate (env : Env) (node : Node) (envelope : PrivateEnvelope)
    (keyring : ViewKeyring) : Except NodeError PrivateOutcome × Node :=
  match openPrivate envelope keyring with
  | .error error => (.error (.view error), node)
  | .ok inner =>
      if ¬ node.cascade.has inner.prism then (.error (.unknownPrism inner.prism), node)
      else
        match node.cascade.apply inner node.privateState with
        | (.error error, state) => (.error (.cascade error), { node with privateState := state })
        | (.ok _, state) =>
            let attestation :=
              RootAttestation.create (hostedIdentity keyring) envelope.commitment state.root
            let node := { node with
              privateState := state
              attestations := (node.attestations.record attestation).2 }
            match node.persist (Store.savePrivateState env node.privateState) with
            | (.error error, node) => (.error error, node)
            | (.ok (), node) =>
                (.ok
                  { commitment := envelope.commitment
                    executed := true
                    privateRoot := node.privateState.root
                    attestation := some attestation }, node)

def applyPrivateEnvelope (env : Env) (node : Node) (envelope : PrivateEnvelope) :
    Except NodeError PrivateOutcome × Node :=
  if ¬ envelope.verifyCommitment then (.error .badPrivateCommitment, node)
  else if node.privateCommitments.contains envelope.commitment then
    (.error .duplicatePrivateCommitment, node)
  else
    let node := { node with
      privateCommitments := node.privateCommitments ++ [envelope.commitment]
      privateEnvelopes := node.privateEnvelopes.insert envelope.commitment envelope }
    match node.persist (Store.savePrivateCommitments env node.privateCommitments) with
    | (.error error, node) => (.error error, node)
    | (.ok (), node) =>
        match node.keyrings.find? (fun keyring => envelope.isStakeholder keyring.party) with
        | some keyring => node.executePrivate env envelope keyring
        | none =>
            (.ok
              { commitment := envelope.commitment
                executed := false
                privateRoot := node.privateState.root
                attestation := none }, node)

def recordAttestation (node : Node) (attestation : RootAttestation) :
    AttestationOutcome × Node :=
  let recorded := node.attestations.record attestation
  (recorded.1, { node with attestations := recorded.2 })

end Private

/-! ### Evidence -/

def privateDivergenceProof (node : Node) (attestation : RootAttestation) :
    Option EquivocationProof :=
  (node.attestations.selfEquivocation attestation).map fun pair =>
    { offender := pair.party
      publicKey := Bytes.hexEncode pair.publicKey
      messageA := Bytes.hexEncode pair.a.signedMessage
      signatureA := Bytes.hexEncode pair.a.signature
      messageB := Bytes.hexEncode pair.b.signedMessage
      signatureB := Bytes.hexEncode pair.b.signature }

def attestationStatement (entry : RootAttestation) : AttestationStatement :=
  { party := entry.party
    publicKey := Bytes.hexEncode entry.publicKey
    signature := Bytes.hexEncode entry.signature
    root := entry.privateRoot.toHex }

def privateQuorumFraudProofs (node : Node) (commitment : Hash) : List QuorumFraudProof :=
  match node.privateEnvelopes.lookup commitment with
  | none => []
  | some envelope =>
      let count := envelope.stakeholders.length
      match node.attestations.canonicalRoot commitment count with
      | none => []
      | some canonical =>
          let majority := ((node.attestations.agreement commitment).filter
            fun entry => entry.privateRoot = canonical).map attestationStatement
          (node.attestations.minorityOffenders commitment count).map fun offender =>
            { offender := offender.party
              envelope := envelope
              offenderStmt := attestationStatement offender
              majority := majority }

end Node

end Veilux
