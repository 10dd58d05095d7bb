import Commonwake.RemoteProjection

/-!
# Bundles and their import

`verify_bundle` checks a page of a remote log on its own.
`import_federation_bundle` joins it to what is stored about the origin.  It is
one transaction with two ways to fail, since an equivocation is recorded by
committing the transaction and then returning an error.
-/

namespace Commonwake

open Outcome Table

def maxFederationEvents : ℕ := 500

section

variable (P : Primitives)

/-! ## Verifying a bundle -/

def decodeHash (value label : String) : Result Bytes := do
  let bytes ← okOr (HexText.decode value) (.validation s!"{label} is not hexadecimal")
  rejectIf (bytes.length ≠ 32) (.validation s!"{label} must contain 32 bytes")
  pure bytes

/-- The link of an event to the one before it in the bundle.  The first event
of a bundle is checked only when it is the first of the log. -/
def verifyLink (fromCursor : ℤ) (previousHash : Option String)
    (event : OriginEvent) : Result Unit :=
  match previousHash with
  | some previous =>
      rejectIf (event.previousHash ≠ previous)
        (.unauthorized s!"origin event {event.sequence} does not extend the preceding event")
  | none =>
      rejectIf (fromCursor = 0 ∧ event.previousHash ≠ zeroHash)
        (.unauthorized "origin genesis event does not begin at the zero hash")

/-- One iteration of the loop of `verify_bundle`. -/
def verifyBundleEvent (key : Bytes) (fromCursor expectedSequence : ℤ)
    (previousHash : Option String) (event : OriginEvent) : Result Unit := do
  rejectIf (byteLen (P.toText event.canonical) > maxCanonicalObjectBytes)
    (.validation s!"origin event {event.sequence} canonical object exceeds {maxCanonicalObjectBytes} bytes")
  rejectIf (event.sequence ≠ expectedSequence)
    (.validation s!"bundle event sequence {event.sequence} is not the expected {expectedSequence}")
  verifyLink fromCursor previousHash event
  let previous ← decodeHash event.previousHash "previous_hash"
  let expectedHash := P.eventHash previous (canonicalOriginRecord P event)
  rejectIf (event.eventHash ≠ HexText.encode expectedHash)
    (.unauthorized s!"origin event {event.sequence} has an invalid event hash")
  rejectIf (event.eventId ≠ P.prefixedId "cwevt_" (utf8 (P.jcs event.canonical)))
    (.unauthorized s!"origin event {event.sequence} has an invalid content id")
  let signature ← P.signatureFromB64 event.nodeSignature
  rejectIf (P.verify key expectedHash signature = false)
    (.unauthorized s!"origin event {event.sequence} has an invalid node signature")

def verifyBundleEvents (key : Bytes) (fromCursor : ℤ) :
    ℤ → Option String → List OriginEvent → Result Unit
  | _, _, [] => pure ()
  | expectedSequence, previousHash, event :: rest => do
      verifyBundleEvent P key fromCursor expectedSequence previousHash event
      verifyBundleEvents key fromCursor (expectedSequence + 1) (some event.eventHash) rest

def verifyBundle (bundle : FederationBundle) : Result Unit := do
  rejectIf (bundle.protocol ≠ protocolVersion)
    (.validation s!"unsupported federation protocol {bundle.protocol}")
  rejectIf (bundle.fromCursor < 0 ∨ bundle.throughCursor < bundle.fromCursor)
    (.validation "federation cursor range is invalid")
  rejectIf (bundle.events.length > maxFederationEvents)
    (.validation s!"federation bundle exceeds the {maxFederationEvents}-event protocol limit")
  let key ← P.verifyingKeyFromB64 bundle.originNodePublicKey
  rejectIf (P.prefixedId "cwnode_" key ≠ bundle.originNodeId)
    (.unauthorized "origin node id does not match its public key")
  verifyCheckpoint P bundle.checkpoint
  rejectIf (bundle.checkpoint.nodeId ≠ bundle.originNodeId ∨
      bundle.checkpoint.nodePublicKey ≠ bundle.originNodePublicKey ∨
      bundle.checkpoint.cursor ≠ bundle.throughCursor)
    (.unauthorized "bundle checkpoint does not describe the bundle origin and range")
  rejectIf ((bundle.events.length : ℤ) ≠ bundle.throughCursor - bundle.fromCursor)
    (.validation "bundle must contain every event in its declared cursor range")
  verifyBundleEvents P key bundle.fromCursor (bundle.fromCursor + 1) none bundle.events
  match bundle.events.getLast? with
  | some event =>
      rejectIf (bundle.checkpoint.eventHash ≠ event.eventHash)
        (.unauthorized "bundle checkpoint does not commit to its final event")
  | none => pure ()
  rejectIf (bundle.throughCursor = 0 ∧ bundle.checkpoint.eventHash ≠ zeroHash)
    (.unauthorized "genesis checkpoint does not use the zero hash")

/-! ## Producing a bundle -/

def Db.eventHashAt (db : Db) (cursor : ℤ) : Result String := do
  rejectIf (cursor < 0) (.validation "checkpoint cursor cannot be negative")
  if cursor = 0 then pure zeroHash
  else do
    let row ← okOr (db.events.find? fun row => row.sequence == cursor)
      (.notFound s!"event cursor {cursor}")
    pure row.eventHash

/-- The checkpoint without its signature. -/
def unsignedCheckpoint (identity : NodeIdentity P) (cursor : ℤ) (eventHash : String)
    (now : ℤ) : Checkpoint :=
  ⟨identity.nodeId, identity.publicKey, cursor, eventHash, now, ""⟩

def checkpointAt (identity : NodeIdentity P) (cursor now : ℤ) (db : Db) :
    Result Checkpoint := do
  let eventHash ← db.eventHashAt cursor
  let checkpoint := unsignedCheckpoint P identity cursor eventHash now
  pure { checkpoint with
    signature := P.signObject identity.secret checkpointDomain (checkpoint.toJson P) }

def Db.originEventsAfter (db : Db) (after : ℤ) (limit : ℕ) :
    Result (List OriginEvent) :=
  Outcome.traverse (originEvent P)
    ((db.events.filter fun row => decide (after < row.sequence)).take limit)

def federationBundle (identity : NodeIdentity P) (after : ℤ) (limit : ℕ) (now : ℤ)
    (db : Db) : Result FederationBundle := do
  rejectIf (after < 0) (.validation "federation cursor cannot be negative")
  rejectIf (after > db.head)
    (.validation s!"federation cursor {after} is beyond current head {db.head}")
  let events ← db.originEventsAfter P after (max 1 (min limit maxFederationEvents))
  let throughCursor := match events.getLast? with
    | some event => event.sequence
    | none => after
  let checkpoint ← checkpointAt P identity throughCursor now db
  pure ⟨protocolVersion, identity.nodeId, identity.publicKey, after, throughCursor,
    events, checkpoint⟩

/-- The witness without its signature. -/
def unsignedWitness (identity : NodeIdentity P) (bundle : FederationBundle)
    (now : ℤ) : CheckpointWitness where
  protocol := protocolVersion
  witnessNodeId := identity.nodeId
  witnessNodePublicKey := identity.publicKey
  originNodeId := bundle.originNodeId
  originNodePublicKey := bundle.originNodePublicKey
  cursor := bundle.checkpoint.cursor
  eventHash := bundle.checkpoint.eventHash
  originCheckpoint := bundle.checkpoint
  observedAt := now
  signature := ""

def makeCheckpointWitness (identity : NodeIdentity P) (bundle : FederationBundle)
    (now : ℤ) : CheckpointWitness :=
  let witness := unsignedWitness P identity bundle now
  { witness with
    signature := P.signObject identity.secret witnessDomain (witness.toJson P) }

/-! ## Equivocation evidence -/

def OriginEvent.toJson (x : OriginEvent) : Json :=
  .object [
    ("canonical", x.canonical),
    ("created_at", .string x.createdAt),
    ("delegation_id", Serde.nullOr .string x.delegationId),
    ("event_hash", .string x.eventHash),
    ("event_id", .string x.eventId),
    ("kind", .string x.kind),
    ("lineage_id", Serde.nullOr .string x.lineageId),
    ("node_signature", .string x.nodeSignature),
    ("previous_hash", .string x.previousHash),
    ("received_at", .string x.receivedAt),
    ("sequence", Serde.int x.sequence)]

/-- The two sides of a conflict. -/
structure EquivocationInput where
  originNodeId : String
  conflictKind : String
  cursor : ℤ
  existingHash : String
  incomingHash : String
  existingJson : String
  incomingJson : String

def recordEquivocation (input : EquivocationInput) (db : Db) : Db :=
  let row : EquivocationRow := {
    evidenceId := P.prefixedId "cweq_"
      (utf8 input.originNodeId ++ 0 :: (utf8 input.conflictKind ++
        0 :: (utf8 (toString input.cursor) ++ 0 :: (utf8 input.existingHash ++
          0 :: utf8 input.incomingHash))))
    originNodeId := input.originNodeId
    conflictKind := input.conflictKind
    cursor := input.cursor
    existingHash := input.existingHash
    incomingHash := input.incomingHash
    existingJson := input.existingJson
    incomingJson := input.incomingJson }
  let evidence := insertOrIgnore
    (fun stored => stored.evidenceId == row.evidenceId ||
      (stored.originNodeId == row.originNodeId &&
        stored.conflictKind == row.conflictKind && stored.cursor == row.cursor &&
        stored.existingHash == row.existingHash &&
        stored.incomingHash == row.incomingHash)) row db.equivocationEvidence
  { db with equivocationEvidence := evidence }

/-! ## Importing a bundle -/

/-- How an import fails: the transaction is rolled back, or it is committed
as it stands before the error is returned. -/
inductive ImportFailure where
  | rolledBack (error : CommonwakeError)
  | committed (error : CommonwakeError) (db : Db)

abbrev ImportStep (α : Type) := Except ImportFailure α

/-- A step which fails by rolling back. -/
def orRollBack {α : Type} (result : Result α) : ImportStep α :=
  match result with
  | .ok a => .ok a
  | .error e => .error (.rolledBack e)

@[simp] theorem orRollBack_eq_ok {α : Type} {result : Result α} {a : α} :
    orRollBack result = .ok a ↔ result = .ok a := by
  cases result <;> simp [orRollBack]

structure FederationImportReport where
  originNodeId : String
  previouslyKnownCursor : ℤ
  importedEvents : ℕ
  currentCursor : ℤ
  currentEventHash : String
  witnessEventId : Option String
  deriving DecidableEq

/-- What the loop over the events of a bundle carries. -/
structure ImportLoop where
  db : Db
  cursor : ℤ
  hash : String
  importedEvents : ℕ

/-- The stored form of an event. -/
def remoteRow (event : OriginEvent) (authorNonce : Option String) :
    RemoteEventRow where
  originSequence := event.sequence
  eventId := event.eventId
  kind := event.kind
  lineageId := event.lineageId
  delegationId := event.delegationId
  createdAt := event.createdAt
  receivedAt := event.receivedAt
  authorNonce := authorNonce
  canonicalJson := P.toText event.canonical
  previousHash := event.previousHash
  eventHash := event.eventHash
  nodeSignature := event.nodeSignature

/-- The constraints of `remote_events`. -/
def RemoteEventRow.clashes (row stored : RemoteEventRow) : Bool :=
  stored.originSequence == row.originSequence || stored.eventId == row.eventId ||
    stored.eventHash == row.eventHash ||
    (row.delegationId.isSome && row.authorNonce.isSome &&
      stored.delegationId == row.delegationId && stored.authorNonce == row.authorNonce)

/-- Check and record one event, and store it. -/
def projectAndStore (origin : String) (event : OriginEvent) (state : ImportState) :
    Result ImportState := do
  let (nonce, state) ← validateAndProjectRemoteEvent P origin event state
  let row := remoteRow P event nonce
  let remoteEvents ← insertNew row.clashes .database row state.tables.remoteEvents
  pure { state with tables := { state.tables with remoteEvents := remoteEvents } }

/-- The part of a database which an event of an origin may change. -/
def Db.importState (db : Db) (origin : String) : ImportState :=
  ⟨db.origins origin, db.commons⟩

def Db.withImportState (db : Db) (origin : String) (state : ImportState) : Db :=
  { db.setOrigin origin state.tables with commons := state.commons }

/-- An event at or below the stored cursor must be the stored one. -/
def checkOverlap (origin : String) (event : OriginEvent) (db : Db) :
    ImportStep Unit := do
  let existing ← orRollBack (okOr ((db.origins origin).remoteEvents.find? fun row =>
    row.originSequence == event.sequence) CommonwakeError.database)
  if existing.eventHash = event.eventHash then pure ()
  else do
    let canonical ← orRollBack (okOr (P.parse existing.canonicalJson)
      CommonwakeError.json)
    throw (.committed
      (.conflict s!"origin {origin} equivocated at event sequence {event.sequence}")
      (recordEquivocation P {
        originNodeId := origin
        conflictKind := "event_sequence"
        cursor := event.sequence
        existingHash := existing.eventHash
        incomingHash := event.eventHash
        existingJson := P.toText (.object [
          ("canonical", canonical),
          ("event_hash", .string existing.eventHash),
          ("sequence", Serde.int event.sequence)])
        incomingJson := P.toText event.toJson } db))

/-- A new event must extend the stored head. -/
def checkExtension (origin : String) (event : OriginEvent) (loop : ImportLoop) :
    ImportStep Unit := do
  orRollBack (rejectIf (event.sequence ≠ loop.cursor + 1)
    (.validation s!"origin delta has a gap before sequence {event.sequence}"))
  if event.previousHash = loop.hash then pure ()
  else
    throw (.committed
      (.conflict s!"origin {origin} presented a fork after cursor {loop.cursor}")
      (recordEquivocation P {
        originNodeId := origin
        conflictKind := "chain_fork"
        cursor := event.sequence
        existingHash := loop.hash
        incomingHash := event.previousHash
        existingJson := P.toText (.object [
          ("cursor", Serde.int loop.cursor),
          ("event_hash", .string loop.hash)])
        incomingJson := P.toText event.toJson } loop.db))

/-- One iteration of the loop over the events. -/
def importEvent (origin : String) (knownCursor : ℤ) (loop : ImportLoop)
    (event : OriginEvent) : ImportStep ImportLoop :=
  if event.sequence ≤ knownCursor then do
    checkOverlap P origin event loop.db
    pure loop
  else do
    checkExtension P origin event loop
    let state ← orRollBack (projectAndStore P origin event (loop.db.importState origin))
    pure {
      db := loop.db.withImportState origin state
      cursor := event.sequence
      hash := event.eventHash
      importedEvents := loop.importedEvents + 1 }

/-- Find the peer of a bundle, or create it on first contact. -/
def openPeer (bundle : FederationBundle) (now : String) (db : Db) :
    Result (ℤ × ImportLoop) :=
  match db.peer? bundle.originNodeId with
  | some peer => do
      rejectIf (peer.nodePublicKey ≠ bundle.originNodePublicKey)
        (.unauthorized "known origin node presented a different public key")
      pure (peer.cursor, ⟨db, peer.cursor, peer.eventHash, 0⟩)
  | none => do
      rejectIf (bundle.fromCursor ≠ 0)
        (.validation "first contact with an origin must begin at cursor zero")
      let peer : PeerRow := ⟨bundle.originNodeId, bundle.originNodePublicKey, now, now,
        0, zeroHash, "null"⟩
      pure (0, ⟨{ db with peers := db.peers ++ [peer] }, 0, zeroHash, 0⟩)

/-- The stored hash at the cursor of the checkpoint must be the signed one. -/
def checkCheckpoint (bundle : FederationBundle) (db : Db) : ImportStep Unit := do
  let origin := bundle.originNodeId
  let checkpoint := bundle.checkpoint
  let stored ←
    if checkpoint.cursor = 0 then pure zeroHash
    else orRollBack ((okOr ((db.origins origin).remoteEvents.find? fun row =>
        row.originSequence == checkpoint.cursor)
      (CommonwakeError.validation "bundle checkpoint is beyond the contiguously stored origin log")).map
        (·.eventHash))
  if stored = checkpoint.eventHash then pure ()
  else
    throw (.committed
      (.conflict s!"origin {origin} signed incompatible checkpoint {checkpoint.cursor}")
      (recordEquivocation P {
        originNodeId := origin
        conflictKind := "checkpoint"
        cursor := checkpoint.cursor
        existingHash := stored
        incomingHash := checkpoint.eventHash
        existingJson := P.toText (.object [
          ("cursor", Serde.int checkpoint.cursor),
          ("event_hash", .string stored)])
        incomingJson := P.toText (checkpoint.toJson P) } db))

/-- Store the checkpoint and move the peer to the new head. -/
def advancePeer (bundle : FederationBundle) (now : String) (loop : ImportLoop) : Db :=
  let db := loop.db
  let origin := bundle.originNodeId
  let checkpointJson := P.toText (bundle.checkpoint.toJson P)
  let row : RemoteCheckpointRow := {
    cursor := bundle.checkpoint.cursor
    eventHash := bundle.checkpoint.eventHash
    createdAt := P.timestamp bundle.checkpoint.createdAt
    signature := bundle.checkpoint.signature
    checkpointJson := checkpointJson }
  let checkpoints := insertOrIgnore
    (fun stored => stored.cursor == row.cursor && stored.eventHash == row.eventHash) row
    (db.origins origin).remoteCheckpoints
  let peers := updateWhere (fun peer => peer.nodeId == origin)
    (fun peer => { peer with
      lastSeenAt := now
      cursor := loop.cursor
      eventHash := loop.hash
      checkpointJson :=
        if peer.cursor ≤ bundle.checkpoint.cursor then checkpointJson
        else peer.checkpointJson }) db.peers
  { db.setOrigin origin { db.origins origin with remoteCheckpoints := checkpoints } with
    peers := peers }

/-- Does the bundle bring an event which is not itself a witness? -/
def shouldWitness (bundle : FederationBundle) (knownCursor : ℤ) : Bool :=
  bundle.events.any fun event =>
    decide (knownCursor < event.sequence) && event.kind != "checkpoint_witnessed"

/-- The witness event of a checkpoint which was witnessed before. -/
def Db.alreadyWitnessed (db : Db) (bundle : FederationBundle) :
    Option (String × ℤ) := do
  let witness ← db.checkpointWitnesses.find? fun row =>
    row.originNodeId == bundle.originNodeId &&
      row.cursor == bundle.checkpoint.cursor &&
      row.eventHash == bundle.checkpoint.eventHash
  let event ← db.eventById? witness.witnessEventId
  pure (witness.witnessEventId, event.sequence)

def witnessInput (bundle : FederationBundle) (witness : CheckpointWitness) :
    EventInput where
  kind := "checkpoint_witnessed"
  lineageId := none
  delegationId := none
  createdAt := witness.observedAt
  authorNonce := none
  targets := [bundle.originNodeId]
  supersedes := []
  payload := witness.toJson P
  canonicalJson := P.jcs (witness.toJson P)
  authorSignature := some witness.signature

/-- Log a witness of the checkpoint. -/
def appendWitness (identity : NodeIdentity P) (bundle : FederationBundle)
    (witness : CheckpointWitness) (appendedAt : ℤ) (db : Db) :
    Result ((String × ℤ) × Db) := do
  let (accepted, db) ← appendEvent P identity (witnessInput P bundle witness)
    appendedAt db
  let row : CheckpointWitnessRow := ⟨bundle.originNodeId, bundle.checkpoint.cursor,
    bundle.checkpoint.eventHash, accepted.id⟩
  let witnesses ← insertNew
    (fun stored : CheckpointWitnessRow => stored.witnessEventId == accepted.id ||
      (stored.originNodeId == row.originNodeId && stored.cursor == row.cursor &&
        stored.eventHash == row.eventHash)) .database row db.checkpointWitnesses
  pure ((accepted.id, accepted.sequence), { db with checkpointWitnesses := witnesses })

/-- Remember which part of the remote log an import brought. -/
def recordImport (bundle : FederationBundle) (fromCursor throughCursor : ℤ)
    (witnessed : String × ℤ) (db : Db) : Db :=
  let row : FederationImportRow := {
    importId := P.prefixedId "cwimport_"
      (utf8 bundle.originNodeId ++ 0 :: (utf8 (toString fromCursor) ++
        0 :: (utf8 (toString throughCursor) ++ 0 :: utf8 bundle.checkpoint.eventHash)))
    originNodeId := bundle.originNodeId
    remoteFromCursor := fromCursor
    remoteThroughCursor := throughCursor
    localWitnessEventId := witnessed.1
    localWitnessSequence := witnessed.2 }
  let imports := insertOrIgnore
    (fun stored => stored.importId == row.importId ||
      stored.localWitnessEventId == row.localWitnessEventId ||
      stored.localWitnessSequence == row.localWitnessSequence) row db.federationImports
  { db with federationImports := imports }

/-- Witness the checkpoint when the bundle brought something new. -/
def witnessImport (identity : NodeIdentity P) (bundle : FederationBundle)
    (witness : CheckpointWitness) (appendedAt knownCursor currentCursor : ℤ) (db : Db) :
    Result (Option String × Db) :=
  if shouldWitness bundle knownCursor = false then pure (none, db)
  else
    match db.alreadyWitnessed bundle with
    | some witnessed =>
        pure (some witnessed.1, recordImport P bundle knownCursor currentCursor witnessed db)
    | none => do
        let (witnessed, db) ← appendWitness P identity bundle witness appendedAt db
        pure (some witnessed.1, recordImport P bundle knownCursor currentCursor witnessed db)

/-- The transaction of an import. -/
def importTransaction (identity : NodeIdentity P) (bundle : FederationBundle)
    (witness : CheckpointWitness) (now appendedAt : ℤ) (db : Db) :
    ImportStep (FederationImportReport × Db) := do
  orRollBack (verifyBundle P bundle)
  orRollBack (rejectIf (bundle.originNodeId = identity.nodeId)
    (.validation "a node cannot import its own event log as a remote origin"))
  let (knownCursor, loop) ← orRollBack (openPeer bundle (P.timestamp now) db)
  orRollBack (rejectIf (bundle.fromCursor > knownCursor)
    (.validation s!"bundle begins at {bundle.fromCursor} but the stored origin head is {knownCursor}; request a contiguous delta"))
  let loop ← foldState (importEvent P bundle.originNodeId knownCursor) loop bundle.events
  checkCheckpoint P bundle loop.db
  let (witnessEventId, db) ← orRollBack (witnessImport P identity bundle witness appendedAt
    knownCursor loop.cursor (advancePeer P bundle (P.timestamp now) loop))
  pure ({
    originNodeId := bundle.originNodeId
    previouslyKnownCursor := knownCursor
    importedEvents := loop.importedEvents
    currentCursor := loop.cursor
    currentEventHash := loop.hash
    witnessEventId := witnessEventId }, db)

/-- The result of an import and the database after it. -/
def Db.importFederationBundle (identity : NodeIdentity P) (bundle : FederationBundle)
    (witness : CheckpointWitness) (now appendedAt : ℤ) (db : Db) :
    Result FederationImportReport × Db :=
  match importTransaction P identity bundle witness now appendedAt db with
  | .ok (report, next) => (.ok report, next)
  | .error (.rolledBack error) => (.error error, db)
  | .error (.committed error next) => (.error error, next)

/-- The import of a node: it verifies the bundle, signs a witness, and runs
the transaction. -/
def importFederationBundle (identity : NodeIdentity P) (bundle : FederationBundle)
    (observedAt now appendedAt : ℤ) (db : Db) :
    Result FederationImportReport × Db :=
  match verifyBundle P bundle with
  | .error error => (.error error, db)
  | .ok () => db.importFederationBundle P identity bundle
      (makeCheckpointWitness P identity bundle observedAt) now appendedAt

end

end Commonwake
