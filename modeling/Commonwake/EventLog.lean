import Commonwake.Database
import Commonwake.ModelRoundTrip

/-!
# The signed event log

`append_event` commits an object to the log: the row keeps the object's
canonical text, the columns derived from it, and a hash which chains the row
to its predecessor and is signed by the node.  `verify_log` walks the log and
derives everything again from the canonical text.
-/

namespace Commonwake

open Outcome

/-- The key of a node.  The public parts are determined by the secret, as
`CommonwakeNode::open` checks. -/
structure NodeIdentity (P : Primitives) where
  secret : Bytes
  publicKey : String
  nodeId : String
  publicKey_eq : publicKey = P.encodeBase64 (P.publicKey secret)
  nodeId_eq : nodeId = P.prefixedId "cwnode_" (P.publicKey secret)

/-- The identity of the holder of a secret. -/
def NodeIdentity.ofSecret (P : Primitives) (secret : Bytes) : NodeIdentity P :=
  ⟨secret, _, _, rfl, rfl⟩

def NodeIdentity.signHash {P : Primitives} (identity : NodeIdentity P)
    (hash : Bytes) : String :=
  P.encodeBase64 (P.sign identity.secret hash)

/-- What an operation passes to `append_event`. -/
structure EventInput where
  kind : String
  lineageId : Option String
  delegationId : Option String
  createdAt : ℤ
  authorNonce : Option String
  targets : List String
  supersedes : List String
  payload : Json
  canonicalJson : String
  authorSignature : Option String

def maxCanonicalObjectBytes : ℕ := 64 * 1024

section

variable (P : Primitives)

/-- The bytes which are hashed for an event. -/
def logRecord (kind : String) (lineageId delegationId : Option String)
    (createdAt receivedAt : String) (canonical : Json) : Bytes :=
  utf8 (P.jcs (.object [
    ("canonical", canonical),
    ("created_at", .string createdAt),
    ("delegation_id", Serde.nullOr .string delegationId),
    ("kind", .string kind),
    ("lineage_id", Serde.nullOr .string lineageId),
    ("received_at", .string receivedAt)]))

def canonicalLogInput (input : EventInput) (receivedAt : ℤ) : Result Bytes := do
  let canonical ← okOr (P.parse input.canonicalJson) .json
  pure (logRecord P input.kind input.lineageId input.delegationId
    (P.timestamp input.createdAt) (P.timestamp receivedAt) canonical)

def canonicalLogRecord (row : EventRow) : Result Bytes := do
  let canonical ← okOr (P.parse row.canonicalJson) .json
  pure (logRecord P row.kind row.lineageId row.delegationId row.createdAt
    row.receivedAt canonical)

def canonicalOriginRecord (event : OriginEvent) : Bytes :=
  logRecord P event.kind event.lineageId event.delegationId event.createdAt
    event.receivedAt event.canonical

/-! ## Appending -/

/-- Does a stored row forbid the new one?  Event ids, event hashes, and
nonces under one delegation are unique. -/
def EventRow.clashes (row stored : EventRow) : Bool :=
  stored.eventId == row.eventId || stored.eventHash == row.eventHash ||
    (row.delegationId.isSome && row.authorNonce.isSome &&
      stored.delegationId == row.delegationId && stored.authorNonce == row.authorNonce)

/-- The lineage and the delegation of an event must be registered. -/
def Db.knowsAuthor (db : Db) (row : EventRow) : Bool :=
  (match row.lineageId with
    | some lineageId => (db.lineage? lineageId).isSome
    | none => true) &&
  (match row.delegationId with
    | some delegationId => (db.delegation? delegationId).isSome
    | none => true)

/-- The row which an input becomes when it is appended to the database at
the given instant. -/
def Db.newRow (db : Db) (identity : NodeIdentity P) (input : EventInput)
    (receivedAt : ℤ) (hash : Bytes) : EventRow where
  sequence := db.head + 1
  eventId := P.prefixedId "cwevt_" (utf8 input.canonicalJson)
  kind := input.kind
  lineageId := input.lineageId
  delegationId := input.delegationId
  createdAt := P.timestamp input.createdAt
  receivedAt := P.timestamp receivedAt
  authorNonce := input.authorNonce
  targetsJson := P.toText (Serde.strings input.targets)
  supersedesJson := P.toText (Serde.strings input.supersedes)
  payloadJson := P.toText input.payload
  canonicalJson := input.canonicalJson
  authorSignature := input.authorSignature
  previousHash := db.headHash
  eventHash := HexText.encode hash
  nodeSignature := identity.signHash hash

def appendEvent (identity : NodeIdentity P) (input : EventInput)
    (receivedAt : ℤ) (db : Db) : Result (AcceptedObject × Db) := do
  rejectIf (byteLen input.canonicalJson > maxCanonicalObjectBytes)
    (.validation s!"canonical protocol object exceeds {maxCanonicalObjectBytes} bytes")
  let previous ← okOr (HexText.decode db.headHash)
    (.internal "stored previous hash is malformed")
  rejectIf (previous.length ≠ 32)
    (.internal "stored previous hash is not 32 bytes")
  let canonicalEvent ← canonicalLogInput P input receivedAt
  let row := db.newRow P identity input receivedAt (P.eventHash previous canonicalEvent)
  rejectIf (db.events.any row.clashes = true ∨ db.knowsAuthor row = false) .database
  pure (⟨row.eventId, row.sequence, row.eventHash⟩,
    { db with events := db.events ++ [row] })

/-! ## Verifying -/

/-- The columns of a row which are derived from its canonical text. -/
structure AuthenticatedProjection where
  targets : List String
  supersedes : List String
  payload : Json
  authorSignature : Option String
  authorNonce : Option String
  deriving DecidableEq

def delegationId (delegation : SessionDelegation) : String :=
  P.prefixedId "cwdel_" (utf8 (P.canonicalWithoutSignature (delegation.toJson P)))

def expectedProjection (row : EventRow) (canonical : Json) :
    Result AuthenticatedProjection :=
  match row.kind with
  | "lineage_registered" => do
      let object ← okOr (LineageRegistration.ofJson P canonical) .json
      let key ← P.verifyingKeyFromB64 object.publicKey
      pure ⟨[P.lineageId key], [], canonical, some object.signature, some object.nonce⟩
  | "delegation_registered" => do
      let object ← okOr (SessionDelegation.ofJson P canonical) .json
      pure ⟨[delegationId P object], [], canonical, some object.signature,
        some object.nonce⟩
  | "delegation_revoked" => do
      let object ← okOr (DelegationRevocation.ofJson P canonical) .json
      pure ⟨[object.delegationId], [], canonical, some object.signature,
        some object.nonce⟩
  | "lineage_key_rotated" => do
      let object ← okOr (SignedKeyRotation.ofJson P canonical) .json
      pure ⟨[object.statement.lineageId], [], canonical,
        some object.previousSignature, some object.statement.nonce⟩
  | "acknowledgement" => do
      let object ← okOr (SignedAcknowledgement.ofJson P canonical) .json
      let lineageId ← okOr row.lineageId
        (.unauthorized "acknowledgement has no lineage metadata")
      pure ⟨[lineageId], [], canonical, some object.signature, some object.nonce⟩
  | "observation" => do
      let payload ← okOr (canonical.get? "payload")
        (.unauthorized "observation payload is missing")
      let object ← okOr (FederatedObservationEnvelope.ofJson P canonical) .json
      pure ⟨[object.payload.storyId, object.payload.sourceId], [], payload, none, none⟩
  | "checkpoint_witnessed" => do
      let object ← okOr (CheckpointWitness.ofJson P canonical) .json
      pure ⟨[object.originNodeId], [], canonical, some object.signature, none⟩
  | kind => do
      let object ← okOr (SignedContribution.ofJson P canonical) .json
      rejectIf (object.kind.asStr ≠ kind)
        (.unauthorized s!"event {row.sequence} kind differs from its signed contribution")
      pure ⟨object.targets, object.supersedes, object.payload, some object.signature,
        some object.nonce⟩

/-- The kinds of contributions have a branch of their own in the verifier. -/
theorem expectedProjection_contribution {row : EventRow} {contribution : SignedContribution}
    {value : Json} (hkind : row.kind = contribution.kind.asStr)
    (hvalue : SignedContribution.ofJson P value = some contribution) :
    expectedProjection P row value = .ok ⟨contribution.targets, contribution.supersedes,
      contribution.payload, some contribution.signature, some contribution.nonce⟩ := by
  obtain ⟨protocol, id, kind, createdAt, nonce, targets, supersedes, reporting, payload,
    signature⟩ := contribution
  cases kind <;>
    simp_all [expectedProjection, ContributionKind.asStr, rejectIf]

/-- A stored list of texts. -/
def storedStrings (text : String) : Result (List String) := do
  let value ← okOr (P.parse text) .json
  okOr (Serde.list Serde.string value) .json

def validateRawEventProjection (row : EventRow) : Result Unit := do
  let canonical ← okOr (P.parse row.canonicalJson) .json
  rejectIf (P.jcs canonical ≠ row.canonicalJson)
    (.unauthorized s!"event {row.sequence} canonical JSON is not in canonical form")
  rejectIf (P.prefixedId "cwevt_" (utf8 (P.jcs canonical)) ≠ row.eventId)
    (.unauthorized s!"event {row.sequence} has an invalid content id")
  let expected ← expectedProjection P row canonical
  let targets ← storedStrings P row.targetsJson
  let supersedes ← storedStrings P row.supersedesJson
  let payload ← okOr (P.parse row.payloadJson) .json
  rejectIf (targets ≠ expected.targets ∨ supersedes ≠ expected.supersedes ∨
      payload ≠ expected.payload ∨ row.authorSignature ≠ expected.authorSignature ∨
      row.authorNonce ≠ expected.authorNonce)
    (.unauthorized s!"event {row.sequence} mutable projection differs from its authenticated canonical object")

/-- What `verify_log` carries from row to row. -/
structure LogCursor where
  previous : Bytes
  cursor : ℤ
  head : String

def LogCursor.start : LogCursor := ⟨zeroBytes, 0, zeroHash⟩

/-- One iteration of `verify_log`. -/
def verifyRow (key : Bytes) (state : LogCursor) (row : EventRow) :
    Result LogCursor := do
  rejectIf (row.sequence ≠ state.cursor + 1)
    (.unauthorized s!"event sequence {row.sequence} is not the expected contiguous sequence {state.cursor + 1}")
  rejectIf (row.previousHash ≠ HexText.encode state.previous)
    (.unauthorized s!"event {row.sequence} has a broken previous hash")
  let canonicalEvent ← canonicalLogRecord P row
  let expected := P.eventHash state.previous canonicalEvent
  rejectIf (row.eventHash ≠ HexText.encode expected)
    (.unauthorized s!"event {row.sequence} has an invalid event hash")
  let signature ← P.signatureFromB64 row.nodeSignature
  rejectIf (P.verify key expected signature = false)
    (.unauthorized s!"event {row.sequence} has an invalid node signature")
  validateRawEventProjection P row
  pure ⟨expected, row.sequence, row.eventHash⟩

def verifyLog (identity : NodeIdentity P) (db : Db) : Result (ℤ × String) := do
  let key ← P.verifyingKeyFromB64 identity.publicKey
  let final ← foldState (verifyRow P key) LogCursor.start db.events
  pure (final.cursor, final.head)

/-- The event of a row, as a bundle carries it. -/
def originEvent (row : EventRow) : Result OriginEvent := do
  let canonical ← okOr (P.parse row.canonicalJson) .json
  pure {
    sequence := row.sequence
    eventId := row.eventId
    kind := row.kind
    lineageId := row.lineageId
    delegationId := row.delegationId
    createdAt := row.createdAt
    receivedAt := row.receivedAt
    canonical := canonical
    previousHash := row.previousHash
    eventHash := row.eventHash
    nodeSignature := row.nodeSignature }

end

end Commonwake
