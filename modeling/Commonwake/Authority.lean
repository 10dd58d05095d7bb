import Commonwake.EventLog

/-!
# Lineages, delegations and acknowledgements

The authority operations of the database: each one checks its tables,
appends its event and updates the tables, in one transaction.  A transaction
which fails leaves no trace, so it is a function into `Result Db`.
-/

namespace Commonwake

open Outcome Table

section

variable (P : Primitives)

/-- The largest stored key version of a lineage. -/
def maxKeyVersion (keys : List LineageKeyRow) (lineageId : String) : Option ℤ :=
  ((keys.filter fun row => row.lineageId == lineageId).map (·.keyVersion)).max?

/-- The constraints of `lineage_keys`. -/
def LineageKeyRow.clashes (row stored : LineageKeyRow) : Bool :=
  (stored.lineageId == row.lineageId && stored.keyVersion == row.keyVersion) ||
    stored.publicKey == row.publicKey

/-! ## Registering a lineage -/

def registrationInput (lineageId : String) (registration : LineageRegistration) :
    EventInput where
  kind := "lineage_registered"
  lineageId := none
  delegationId := none
  createdAt := registration.createdAt
  authorNonce := some registration.nonce
  targets := [lineageId]
  supersedes := []
  payload := registration.toJson P
  canonicalJson := P.jcs (registration.toJson P)
  authorSignature := some registration.signature

def Db.registerLineage (identity : NodeIdentity P) (lineageId : String)
    (registration : LineageRegistration) (now : ℤ) (db : Db) :
    Result (AcceptedObject × Db) := do
  rejectIf ((db.authority.lineages.any fun row => row.lineageId == lineageId ||
        row.publicKey == registration.publicKey) = true ∨
      (db.authority.lineageKeys.any fun row =>
        row.publicKey == registration.publicKey) = true)
    (.conflict "lineage or public key is already registered")
  let (accepted, db) ← appendEvent P identity (registrationInput P lineageId registration)
    now db
  let keyRow : LineageKeyRow :=
    ⟨lineageId, 0, registration.publicKey, accepted.sequence, none⟩
  let keys ← insertNew keyRow.clashes .database keyRow db.authority.lineageKeys
  let lineageRow : LineageRow := {
    lineageId := lineageId
    displayName := registration.displayName
    publicKey := registration.publicKey
    createdAt := P.timestamp registration.createdAt
    registeredSequence := accepted.sequence }
  pure (accepted, { db with authority := { db.authority with
    lineages := db.authority.lineages ++ [lineageRow]
    lineageKeys := keys } })

structure LineageView where
  lineageId : String
  displayName : String
  publicKey : String
  createdAt : ℤ
  registeredSequence : ℤ
  keyVersion : ℤ

def Db.lineage (db : Db) (lineageId : String) : Result LineageView := do
  let row ← okOr (db.lineage? lineageId) (.notFound s!"lineage {lineageId}")
  pure {
    lineageId := row.lineageId
    displayName := row.displayName
    publicKey := row.publicKey
    createdAt := ← P.parseTimestamp row.createdAt
    registeredSequence := row.registeredSequence
    keyVersion := (maxKeyVersion db.authority.lineageKeys row.lineageId).getD 0 }

/-! ## Registering and revoking a delegation -/

def delegationInput (id : String) (delegation : SessionDelegation) : EventInput where
  kind := "delegation_registered"
  lineageId := some delegation.lineageId
  delegationId := none
  createdAt := delegation.notBefore
  authorNonce := some delegation.nonce
  targets := [id]
  supersedes := []
  payload := delegation.toJson P
  canonicalJson := P.jcs (delegation.toJson P)
  authorSignature := some delegation.signature

/-- The stored row of a delegation. -/
def delegationRow (id : String) (delegation : SessionDelegation) (sequence : ℤ) :
    DelegationRow where
  delegationId := id
  lineageId := delegation.lineageId
  sessionPublicKey := delegation.sessionPublicKey
  scopesJson := P.toText (.array (delegation.scopes.map Scope.toJson))
  notBefore := P.timestamp delegation.notBefore
  expiresAt := P.timestamp delegation.expiresAt
  revokedSequence := none
  registeredSequence := sequence

def Db.registerDelegation (identity : NodeIdentity P) (id : String)
    (delegation : SessionDelegation) (now : ℤ) (db : Db) :
    Result (AcceptedObject × Db) := do
  rejectIf (db.delegation? id ≠ none) (.conflict "delegation is already registered")
  rejectIf (db.lineage? delegation.lineageId = none)
    (.notFound "lineage is not registered")
  let (accepted, db) ← appendEvent P identity (delegationInput P id delegation) now db
  let row : LocalDelegationRow :=
    { delegationRow P id delegation accepted.sequence with nonce := delegation.nonce }
  let delegations ← insertNew
    (fun stored : LocalDelegationRow => stored.delegationId == row.delegationId ||
      (stored.lineageId == row.lineageId && stored.nonce == row.nonce))
    .database row db.authority.delegations
  pure (accepted, { db with authority := { db.authority with
    delegations := delegations } })

structure DelegationView where
  delegationId : String
  lineageId : String
  sessionPublicKey : String
  scopes : List Scope
  notBefore : ℤ
  expiresAt : ℤ
  revoked : Bool

/-- The scopes stored with a delegation. -/
def storedScopes (text : String) : Result (List Scope) := do
  let value ← okOr (P.parse text) .json
  okOr (Serde.list Scope.ofJson value) .json

def Db.delegation (db : Db) (id : String) : Result DelegationView := do
  let row ← okOr (db.delegation? id) (.notFound "delegation is not registered")
  pure {
    delegationId := row.delegationId
    lineageId := row.lineageId
    sessionPublicKey := row.sessionPublicKey
    scopes := ← storedScopes P row.scopesJson
    notBefore := ← P.parseTimestamp row.notBefore
    expiresAt := ← P.parseTimestamp row.expiresAt
    revoked := row.revokedSequence.isSome }

def revocationInput (revocation : DelegationRevocation) : EventInput where
  kind := "delegation_revoked"
  lineageId := some revocation.lineageId
  delegationId := none
  createdAt := revocation.createdAt
  authorNonce := some revocation.nonce
  targets := [revocation.delegationId]
  supersedes := []
  payload := revocation.toJson P
  canonicalJson := P.jcs (revocation.toJson P)
  authorSignature := some revocation.signature

def Db.revokeDelegation (identity : NodeIdentity P)
    (revocation : DelegationRevocation) (now : ℤ) (db : Db) :
    Result (AcceptedObject × Db) := do
  let owner ← okOr (db.delegation? revocation.delegationId)
    (.notFound "delegation is not registered")
  rejectIf (owner.lineageId ≠ revocation.lineageId)
    (.unauthorized "delegation does not belong to the signing lineage")
  rejectIf (owner.revokedSequence ≠ none) (.conflict "delegation is already revoked")
  let (accepted, db) ← appendEvent P identity (revocationInput P revocation) now db
  pure (accepted, { db with authority := { db.authority with
    delegations := updateWhere
      (fun row => row.delegationId == revocation.delegationId &&
        row.revokedSequence.isNone)
      (fun row => { row with revokedSequence := some accepted.sequence })
      db.authority.delegations } })

/-! ## Rotating a lineage key -/

def rotationInput (rotation : SignedKeyRotation) : EventInput where
  kind := "lineage_key_rotated"
  lineageId := some rotation.statement.lineageId
  delegationId := none
  createdAt := rotation.statement.createdAt
  authorNonce := some rotation.statement.nonce
  targets := [rotation.statement.lineageId]
  supersedes := []
  payload := rotation.toJson P
  canonicalJson := P.jcs (rotation.toJson P)
  authorSignature := some rotation.previousSignature

/-- Close the open key of a lineage. -/
def closeKeys (lineageId : String) (sequence : ℤ) :
    List LineageKeyRow → List LineageKeyRow :=
  updateWhere (fun row => row.lineageId == lineageId && row.validToSequence.isNone)
    fun row => { row with validToSequence := some sequence }

def Db.rotateLineageKey (identity : NodeIdentity P) (rotation : SignedKeyRotation)
    (now : ℤ) (db : Db) : Result (AcceptedObject × Db) := do
  let statement := rotation.statement
  let lineage ← okOr (db.lineage? statement.lineageId)
    (.notFound "lineage is not registered")
  rejectIf (lineage.publicKey ≠ statement.previousPublicKey)
    (.conflict "rotation does not begin at the lineage's current key")
  rejectIf ((db.authority.lineageKeys.any fun row =>
      row.publicKey == statement.newPublicKey) = true)
    (.conflict "new public key has already been used by a lineage")
  let nextVersion :=
    (maxKeyVersion db.authority.lineageKeys statement.lineageId).getD (-1) + 1
  let (accepted, db) ← appendEvent P identity (rotationInput P rotation) now db
  rejectIf ((db.authority.lineages.any fun row =>
      row.publicKey == statement.newPublicKey &&
        row.lineageId != statement.lineageId) = true) .database
  let keyRow : LineageKeyRow :=
    ⟨statement.lineageId, nextVersion, statement.newPublicKey, accepted.sequence, none⟩
  let keys ← insertNew keyRow.clashes .database keyRow
    (closeKeys statement.lineageId accepted.sequence db.authority.lineageKeys)
  pure (accepted, { db with authority := { db.authority with
    lineages := updateWhere (fun row => row.lineageId == statement.lineageId)
      (fun row => { row with publicKey := statement.newPublicKey })
      db.authority.lineages
    lineageKeys := keys
    delegations :=
      if statement.revokeExistingDelegations then
        updateWhere
          (fun row => row.lineageId == statement.lineageId &&
            row.revokedSequence.isNone)
          (fun row => { row with revokedSequence := some accepted.sequence })
          db.authority.delegations
      else db.authority.delegations } })

/-! ## Acknowledging -/

def acknowledgementInput (lineageId : String)
    (acknowledgement : SignedAcknowledgement) : EventInput where
  kind := "acknowledgement"
  lineageId := some lineageId
  delegationId := some acknowledgement.delegationId
  createdAt := acknowledgement.createdAt
  authorNonce := some acknowledgement.nonce
  targets := [lineageId]
  supersedes := []
  payload := acknowledgement.toJson P
  canonicalJson := P.jcs (acknowledgement.toJson P)
  authorSignature := some acknowledgement.signature

def Db.lastAcknowledgedCursor (db : Db) (lineageId : String) : ℤ :=
  match db.authority.acknowledgements.find? fun row => row.lineageId == lineageId with
  | some row => row.cursor
  | none => 0

def Db.appendAcknowledgement (identity : NodeIdentity P) (lineageId : String)
    (acknowledgement : SignedAcknowledgement) (now : ℤ) (db : Db) :
    Result (AcceptedObject × Db) := do
  let currentHead := db.head
  rejectIf (acknowledgement.cursor > currentHead)
    (.validation s!"cursor {acknowledgement.cursor} is beyond current head {currentHead}")
  let previousCursor := db.lastAcknowledgedCursor lineageId
  rejectIf (acknowledgement.cursor < previousCursor)
    (.conflict s!"acknowledgement cursor cannot move backward from {previousCursor}")
  let (accepted, db) ← appendEvent P identity
    (acknowledgementInput P lineageId acknowledgement) now db
  -- An acknowledgement of the head also consumes its own event.
  let effectiveCursor :=
    if acknowledgement.cursor = currentHead then accepted.sequence
    else acknowledgement.cursor
  let row : AcknowledgementRow := ⟨lineageId, effectiveCursor, accepted.id⟩
  pure (accepted, { db with authority := { db.authority with
    acknowledgements := upsert (fun stored => stored.lineageId == lineageId)
      (fun _ => row) row db.authority.acknowledgements } })

end

end Commonwake
