import Commonwake.Federation

/-!
# The calls of a node

Each call of `service.rs` checks its object, reads the database, and then
runs one transaction.  The check and the transaction take the database lock
separately and read the clock separately, so every call is written in two
halves, `check...` and the database operation, and has two clock readings.
-/

namespace Commonwake

open Outcome Table

section

variable (P : Primitives)

/-! ## Authority -/

def checkRegisterLineage (registration : LineageRegistration) (checkedAt : ℤ) :
    Result String := do
  requireProtocol registration.protocol
  validateDisplayName registration.displayName
  requireNonce registration.nonce
  validateAuthoredTimeAt registration.createdAt checkedAt
  let key ← P.verifyingKeyFromB64 registration.publicKey
  P.verifyObject key lineageDomain (registration.toJson P) registration.signature
  pure (P.lineageId key)

def registerLineage (identity : NodeIdentity P) (registration : LineageRegistration)
    (checkedAt appendedAt : ℤ) (db : Db) : Result (AcceptedObject × Db) := do
  let lineageId ← checkRegisterLineage P registration checkedAt
  db.registerLineage P identity lineageId registration appendedAt

def checkRegisterDelegation (delegation : SessionDelegation) (checkedAt : ℤ)
    (db : Db) : Result String := do
  requireProtocol delegation.protocol
  validateDelegationAt P delegation checkedAt
  let lineage ← db.lineage P delegation.lineageId
  let key ← P.verifyingKeyFromB64 lineage.publicKey
  P.verifyObject key delegationDomain (delegation.toJson P) delegation.signature
  pure (delegationId P delegation)

def registerDelegation (identity : NodeIdentity P) (delegation : SessionDelegation)
    (checkedAt appendedAt : ℤ) (db : Db) : Result (AcceptedObject × Db) := do
  let id ← checkRegisterDelegation P delegation checkedAt db
  db.registerDelegation P identity id delegation appendedAt

def checkRevokeDelegation (revocation : DelegationRevocation) (checkedAt : ℤ)
    (db : Db) : Result Unit := do
  requireProtocol revocation.protocol
  validateAuthorityChangeAt revocation.nonce revocation.reason revocation.createdAt
    checkedAt
  let lineage ← db.lineage P revocation.lineageId
  let key ← P.verifyingKeyFromB64 lineage.publicKey
  P.verifyObject key revocationDomain (revocation.toJson P) revocation.signature

def revokeDelegation (identity : NodeIdentity P) (revocation : DelegationRevocation)
    (checkedAt appendedAt : ℤ) (db : Db) : Result (AcceptedObject × Db) := do
  checkRevokeDelegation P revocation checkedAt db
  db.revokeDelegation P identity revocation appendedAt

def checkRotateLineageKey (rotation : SignedKeyRotation) (checkedAt : ℤ) (db : Db) :
    Result Unit := do
  let statement := rotation.statement
  requireProtocol statement.protocol
  validateAuthorityChangeAt statement.nonce statement.reason statement.createdAt
    checkedAt
  rejectIf (statement.previousPublicKey = statement.newPublicKey)
    (.validation "rotation must change the public key")
  let lineage ← db.lineage P statement.lineageId
  rejectIf (lineage.publicKey ≠ statement.previousPublicKey)
    (.conflict "rotation does not begin at the lineage's current key")
  let previousKey ← P.verifyingKeyFromB64 statement.previousPublicKey
  let newKey ← P.verifyingKeyFromB64 statement.newPublicKey
  P.verifyObject previousKey keyRotationDomain (statement.toJson P)
    rotation.previousSignature
  P.verifyObject newKey keyRotationDomain (statement.toJson P) rotation.newSignature

def rotateLineageKey (identity : NodeIdentity P) (rotation : SignedKeyRotation)
    (checkedAt appendedAt : ℤ) (db : Db) : Result (AcceptedObject × Db) := do
  checkRotateLineageKey P rotation checkedAt db
  db.rotateLineageKey P identity rotation appendedAt

/-! ## Contributions and acknowledgements -/

def authorizeDelegation (id : String) (requiredScope : Scope)
    (createdAt acceptedAt : ℤ) (db : Db) : Result DelegationView := do
  let delegation ← db.delegation P id
  rejectIf (delegation.revoked = true) (.unauthorized "delegation has been revoked")
  rejectIf (createdAt < delegation.notBefore ∨ createdAt > delegation.expiresAt)
    (.unauthorized "signed object falls outside the delegation validity window")
  rejectIf (acceptedAt > delegation.expiresAt + clockSkew)
    (.unauthorized "delegation has expired")
  validateAuthoredTimeAt createdAt acceptedAt
  rejectIf (requiredScope ∉ delegation.scopes)
    (.unauthorized s!"delegation does not grant {requiredScope.asStr}")
  pure delegation

/-- What the node finds on its disk: which artifacts are present, and the
repository, artifact and purpose of the receipts for a digest. -/
structure ArtifactStore where
  hasForgeArtifact : ForgeArtifactRef → Result Bool
  artifactReceipts : String →
    Result (List (String × ForgeArtifactRef × ForgeArtifactPurpose))

def requireLocalForgeArtifact (store : ArtifactStore) (repositoryId : String)
    (artifact : ForgeArtifactRef) (purpose : ForgeArtifactPurpose) : Result Unit := do
  rejectIf ((← store.hasForgeArtifact artifact) = false)
    (.notFound s!"forge artifact {artifact.sha256}; upload and receive a node receipt before publishing this contribution")
  rejectIf ((repositoryId, artifact, purpose) ∉ (← store.artifactReceipts artifact.sha256))
    (.validation "artifact is present but has no matching repository-and-purpose receipt")

def requireLocalForgeArtifacts (store : ArtifactStore)
    (contribution : SignedContribution) : Result Unit :=
  match contribution.kind with
  | .repositoryPatch => do
      let patch ← decodePayload RepositoryPatchPayload.ofJson contribution.payload
      requireLocalForgeArtifact store patch.repositoryId patch.artifact .patch
  | .releaseProposal => do
      let release ← decodePayload ReleaseProposalPayload.ofJson contribution.payload
      requireLocalForgeArtifact store release.repositoryId release.sourceArtifact
        .sourceCandidate
  | _ => pure ()

/-- The first half of `accept_contribution`; its result is the lineage for
which the contribution is recorded. -/
def checkContribution (store : ArtifactStore) (contribution : SignedContribution)
    (checkedAt : ℤ) (db : Db) : Result String := do
  requireProtocol contribution.protocol
  requireNonce contribution.nonce
  validateLists contribution.targets contribution.supersedes
  let delegation ← authorizeDelegation P contribution.delegationId
    contribution.kind.requiredScope contribution.createdAt checkedAt db
  let key ← P.verifyingKeyFromB64 delegation.sessionPublicKey
  P.verifyObject key contributionDomain (contribution.toJson P) contribution.signature
  requireLocalForgeArtifacts store contribution
  pure delegation.lineageId

def acceptContribution (identity : NodeIdentity P) (store : ArtifactStore)
    (contribution : SignedContribution) (checkedAt appendedAt : ℤ) (db : Db) :
    Result (AcceptedObject × Db) := do
  let lineageId ← checkContribution P store contribution checkedAt db
  db.appendContribution P identity lineageId contribution appendedAt

def checkAcknowledgement (acknowledgement : SignedAcknowledgement) (checkedAt : ℤ)
    (db : Db) : Result String := do
  requireProtocol acknowledgement.protocol
  requireNonce acknowledgement.nonce
  rejectIf (acknowledgement.cursor < 0)
    (.validation "acknowledgement cursor cannot be negative")
  validateMemoryProvenance acknowledgement.memoryProvenance.statement
  let delegation ← authorizeDelegation P acknowledgement.delegationId .ack
    acknowledgement.createdAt checkedAt db
  let key ← P.verifyingKeyFromB64 delegation.sessionPublicKey
  P.verifyObject key ackDomain (acknowledgement.toJson P) acknowledgement.signature
  pure delegation.lineageId

def acknowledge (identity : NodeIdentity P) (acknowledgement : SignedAcknowledgement)
    (checkedAt appendedAt : ℤ) (db : Db) : Result (AcceptedObject × Db) := do
  let lineageId ← checkAcknowledgement P acknowledgement checkedAt db
  db.appendAcknowledgement P identity lineageId acknowledgement appendedAt

end

end Commonwake
