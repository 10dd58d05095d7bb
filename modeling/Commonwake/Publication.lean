import Commonwake.System

/-!
# Publishing the log to relays

A node sends the pages of its log to the relays which it has configured.  A
relay answers with a receipt for the checkpoint of the page, and the receipt
is stored with the endpoint.  `publish_origin` is a sequence of critical
sections with a request to the relay in every round, so that other runs, the
calls of the node and new targets come in between.
-/

namespace Commonwake

open Outcome Table Serde

def replicationReceiptDomain := "commonwake.replication-receipt.v1"

/-! ## Receipts -/

structure ReplicationReceipt where
  protocol : String
  relayNodeId : String
  relayNodePublicKey : String
  originCheckpoint : Checkpoint
  retainedAt : ℤ
  signature : String
  deriving DecidableEq

structure FederationPublishReport where
  report : FederationImportReport
  receipt : ReplicationReceipt

/-- The members of a structure whose unknown fields are ignored. -/
def openFields (declared : List String) : Json → Option (List (String × Json))
  | .object members => some members
  | .array items =>
      if items.length ≤ declared.length then some (declared.zip items) else none
  | _ => none

section

variable (P : Primitives)

def ReplicationReceipt.toJson (x : ReplicationReceipt) : Json :=
  .object [
    ("origin_checkpoint", x.originCheckpoint.toJson P),
    ("protocol", .string x.protocol),
    ("relay_node_id", .string x.relayNodeId),
    ("relay_node_public_key", .string x.relayNodePublicKey),
    ("retained_at", dateTime P x.retainedAt),
    ("signature", .string x.signature)]

def ReplicationReceipt.ofJson (value : Json) : Option ReplicationReceipt := do
  let m ← fields ["protocol", "relay_node_id", "relay_node_public_key",
    "origin_checkpoint", "retained_at", "signature"] value
  pure {
    protocol := ← required string m "protocol"
    relayNodeId := ← required string m "relay_node_id"
    relayNodePublicKey := ← required string m "relay_node_public_key"
    originCheckpoint := ← required (Checkpoint.ofJson P) m "origin_checkpoint"
    retainedAt := ← required (dateTimeOfJson P) m "retained_at"
    signature := ← required string m "signature" }

def FederationImportReport.ofJson (value : Json) : Option FederationImportReport := do
  let m ← openFields ["origin_node_id", "previously_known_cursor", "imported_events",
    "current_cursor", "current_event_hash", "witness_event_id"] value
  pure {
    originNodeId := ← required string m "origin_node_id"
    previouslyKnownCursor := ← required i64 m "previously_known_cursor"
    importedEvents := (← required u64 m "imported_events").toNat
    currentCursor := ← required i64 m "current_cursor"
    currentEventHash := ← required string m "current_event_hash"
    witnessEventId := ← Serde.optional string m "witness_event_id" }

def FederationPublishReport.ofJson (value : Json) : Option FederationPublishReport := do
  let m ← openFields ["import", "receipt"] value
  pure {
    report := ← required FederationImportReport.ofJson m "import"
    receipt := ← required (ReplicationReceipt.ofJson P) m "receipt" }

def verifyReplicationReceipt (receipt : ReplicationReceipt) : Result Unit := do
  rejectIf (receipt.protocol ≠ protocolVersion)
    (.validation s!"unsupported replication receipt protocol {receipt.protocol}")
  verifyCheckpoint P receipt.originCheckpoint
  rejectIf (receipt.originCheckpoint.cursor < 0)
    (.validation "replication receipt cursor cannot be negative")
  let _ ← decodeHash receipt.originCheckpoint.eventHash "receipt event_hash"
  rejectIf (receipt.originCheckpoint.cursor = 0 ∧
      receipt.originCheckpoint.eventHash ≠ zeroHash)
    (.unauthorized "genesis replication receipt does not use the zero hash")
  let relayKey ← P.verifyingKeyFromB64 receipt.relayNodePublicKey
  rejectIf (P.prefixedId "cwnode_" relayKey ≠ receipt.relayNodeId)
    (.unauthorized "replication receipt relay id does not match its public key")
  rejectIf (receipt.relayNodeId = receipt.originCheckpoint.nodeId)
    (.validation "an origin cannot serve as its own replication relay")
  P.verifyObject relayKey replicationReceiptDomain (receipt.toJson P) receipt.signature

/-- The receipt without its signature. -/
def unsignedReceipt (identity : NodeIdentity P) (checkpoint : Checkpoint) (now : ℤ) :
    ReplicationReceipt :=
  ⟨protocolVersion, identity.nodeId, identity.publicKey, checkpoint, now, ""⟩

def makeReplicationReceipt (identity : NodeIdentity P) (checkpoint : Checkpoint) (now : ℤ) :
    Result ReplicationReceipt := do
  verifyCheckpoint P checkpoint
  rejectIf (checkpoint.nodeId = identity.nodeId)
    (.validation "an origin cannot issue a replication receipt to itself")
  let receipt := unsignedReceipt P identity checkpoint now
  pure { receipt with
    signature := P.signObject identity.secret replicationReceiptDomain (receipt.toJson P) }

end

/-! ## Targets -/

/-- A row of `publication_targets`. -/
structure PublicationTarget where
  endpoint : String
  relayNodeId : Option String
  relayNodePublicKey : Option String
  acknowledgedCursor : ℤ
  acknowledgedEventHash : String
  receiptJson : Option String
  createdAt : String
  updatedAt : String
  lastAttemptAt : Option String
  lastSuccessAt : Option String
  consecutiveFailures : ℤ
  nextAttemptAt : Option String
  lastError : Option String
  deriving DecidableEq

structure PublicationTables where
  targets : List PublicationTarget
  desiredReplicas : ℕ
  deriving DecidableEq

def PublicationTables.init : PublicationTables := ⟨[], 2⟩

structure PublicationTargetView where
  endpoint : String
  relayNodeId : Option String
  relayNodePublicKey : Option String
  acknowledgedCursor : ℤ
  acknowledgedEventHash : String
  atCurrentHead : Bool
  recentlyReconfirmed : Bool
  lastAttemptAt : Option ℤ
  lastSuccessAt : Option ℤ
  consecutiveFailures : ℤ
  nextAttemptAt : Option ℤ
  lastError : Option String
  receipt : Option ReplicationReceipt

structure ReplicationHealth where
  generatedAt : ℤ
  originNodeId : String
  currentCursor : ℤ
  currentEventHash : String
  desiredReplicas : ℕ
  confirmedCurrentReplicas : ℕ
  recentlyReconfirmedCurrentReplicas : ℕ
  status : String
  targets : List PublicationTargetView

def recentConfirmationHours : ℤ := 24

section

variable (P : Primitives)

/-- The relays with a receipt for the head which was confirmed since the given time. -/
def recentRelays (recentAfter : String) (tables : PublicationTables) (db : Db) :
    List String :=
  ((tables.targets.filter fun row => row.receiptJson.isSome &&
    row.acknowledgedCursor == db.head && row.acknowledgedEventHash == db.headHash &&
    row.lastSuccessAt.any fun confirmedAt => decide (recentAfter ≤ confirmedAt)).filterMap
      (·.relayNodeId)).dedup

/-- The work item which asks for relays follows the state of the targets. -/
def refreshReplicationWork (now : ℤ) (tables : PublicationTables) (db : Db) : Db :=
  match db.nodeId with
  | none => db
  | some nodeId =>
      let recentAfter := P.timestamp (now - recentConfirmationHours * minutes 60)
      let work := insertWorkItem P "replicate_origin" "origin_node" nodeId 0 db.head db.work
      let isItem := fun row : WorkItemRow =>
        row.workId == workIdOf P "replicate_origin" nodeId
      let items :=
        if tables.desiredReplicas ≤ (recentRelays recentAfter tables db).length then
          updateWhere isItem (fun row => { row with
            status := .complete, completedSequence := some db.head }) work.items
        else
          updateWhere isItem (fun row => { row with
            status := .isOpen, createdSequence := db.head, completedSequence := none })
            work.items
      { db with work := { work with items := items } }

def PublicationTarget.new (endpoint : String) (now : ℤ) : PublicationTarget where
  endpoint := endpoint
  relayNodeId := none
  relayNodePublicKey := none
  acknowledgedCursor := 0
  acknowledgedEventHash := zeroHash
  receiptJson := none
  createdAt := P.timestamp now
  updatedAt := P.timestamp now
  lastAttemptAt := none
  lastSuccessAt := none
  consecutiveFailures := 0
  nextAttemptAt := none
  lastError := none

def configurePublicationTarget (endpoint : String) (now : ℤ) (tables : PublicationTables)
    (db : Db) : Result (PublicationTables × Db) := do
  rejectIf (byteLen endpoint = 0 ∨ byteLen endpoint > 2048)
    (.validation "publication endpoint must contain 1 to 2048 characters")
  let next := { tables with
    targets := insertOrIgnore (fun stored => stored.endpoint == endpoint)
      (PublicationTarget.new P endpoint now) tables.targets }
  pure (next, refreshReplicationWork P now next db)

def setDesiredReplicas (desiredReplicas : ℕ) (now : ℤ) (tables : PublicationTables)
    (db : Db) : Result (PublicationTables × Db) := do
  rejectIf (desiredReplicas < 1 ∨ 16 < desiredReplicas)
    (.validation "desired replicas must be between 1 and 16")
  let next := { tables with desiredReplicas := desiredReplicas }
  pure (next, refreshReplicationWork P now next db)

/-- The hash which the log has at a cursor. -/
def Db.localEventHash? (db : Db) (cursor : ℤ) : Option String :=
  if cursor = 0 then some zeroHash
  else (db.events.find? fun row => row.sequence == cursor).map (·.eventHash)

def PublicationTables.target? (tables : PublicationTables) (endpoint : String) :
    Option PublicationTarget :=
  tables.targets.find? fun row => row.endpoint == endpoint

/-- The row after a success. -/
def PublicationTarget.confirm (receipt : ReplicationReceipt) (now : ℤ)
    (row : PublicationTarget) : PublicationTarget :=
  { row with
    relayNodeId := some receipt.relayNodeId
    relayNodePublicKey := some receipt.relayNodePublicKey
    acknowledgedCursor := receipt.originCheckpoint.cursor
    acknowledgedEventHash := receipt.originCheckpoint.eventHash
    receiptJson := some (P.toText (receipt.toJson P))
    updatedAt := P.timestamp now
    lastAttemptAt := some (P.timestamp now)
    lastSuccessAt := some (P.timestamp now)
    consecutiveFailures := 0
    nextAttemptAt := none
    lastError := none }

def recordPublicationSuccess (identity : NodeIdentity P) (endpoint : String)
    (receipt : ReplicationReceipt) (now : ℤ) (tables : PublicationTables) (db : Db) :
    Result (PublicationTables × Db) := do
  verifyReplicationReceipt P receipt
  let checkpoint := receipt.originCheckpoint
  rejectIf (checkpoint.nodeId ≠ identity.nodeId ∨
      checkpoint.nodePublicKey ≠ identity.publicKey)
    (.unauthorized "replication receipt describes a different origin")
  rejectIf (db.localEventHash? checkpoint.cursor ≠ some checkpoint.eventHash)
    (.unauthorized "replication receipt checkpoint is not on the local origin hash chain")
  let stored ← okOr (tables.target? endpoint) (.notFound s!"publication target {endpoint}")
  rejectIf (presentAnd (fun known => known != receipt.relayNodeId) stored.relayNodeId ∨
      presentAnd (fun known => known != receipt.relayNodePublicKey) stored.relayNodePublicKey)
    (.conflict s!"publication target {endpoint} changed relay identity")
  rejectIf (checkpoint.cursor < stored.acknowledgedCursor ∨
      (checkpoint.cursor = stored.acknowledgedCursor ∧
        checkpoint.eventHash ≠ stored.acknowledgedEventHash))
    (.conflict "replication receipt regresses or conflicts with the acknowledged origin head")
  let next := { tables with
    targets := updateWhere (fun row => row.endpoint == endpoint)
      (PublicationTarget.confirm P receipt now) tables.targets }
  pure (next, refreshReplicationWork P now next db)

/-- The row after a failure. -/
def PublicationTarget.fail (error : String) (nextAttemptAt now : ℤ)
    (row : PublicationTarget) : PublicationTarget :=
  { row with
    updatedAt := P.timestamp now
    lastAttemptAt := some (P.timestamp now)
    consecutiveFailures := row.consecutiveFailures + 1
    nextAttemptAt := some (P.timestamp nextAttemptAt)
    lastError := some error }

def recordPublicationFailure (endpoint error : String) (nextAttemptAt now : ℤ)
    (tables : PublicationTables) (db : Db) : Result (PublicationTables × Db) := do
  let boundedError := String.ofList ((chars error).take 1024)
  let next := { tables with
    targets := updateWhere (fun row => row.endpoint == endpoint)
      (PublicationTarget.fail P boundedError nextAttemptAt now) tables.targets }
  rejectIf ((tables.targets.any fun row => row.endpoint == endpoint) = false)
    (.notFound s!"publication target {endpoint}")
  pure (next, refreshReplicationWork P now next db)

/-! ## Health -/

def storedReceipt (row : PublicationTarget) : Result (Option ReplicationReceipt) :=
  match row.receiptJson with
  | some text => do
      let receipt ← okOr ((P.parse text).bind (ReplicationReceipt.ofJson P)) .json
      pure (some receipt)
  | none => pure none

def receiptMismatch (endpoint : String) : CommonwakeError :=
  .internal s!"stored replication receipt for {endpoint} does not match its publication state"

/-- The receipt must be the one which the row names. -/
def checkStoredReceipt (identity : NodeIdentity P) (row : PublicationTarget)
    (receipt : ReplicationReceipt) : Result Unit := do
  verifyReplicationReceipt P receipt
  rejectIf (receipt.originCheckpoint.nodeId ≠ identity.nodeId ∨
      receipt.originCheckpoint.nodePublicKey ≠ identity.publicKey ∨
      row.relayNodeId ≠ some receipt.relayNodeId ∨
      row.relayNodePublicKey ≠ some receipt.relayNodePublicKey ∨
      row.acknowledgedCursor ≠ receipt.originCheckpoint.cursor ∨
      row.acknowledgedEventHash ≠ receipt.originCheckpoint.eventHash)
    (receiptMismatch row.endpoint)

def optionalTimestamp (value : Option String) : Result (Option ℤ) :=
  match value with
  | some text => do
      let instant ← P.parseTimestamp text
      pure (some instant)
  | none => pure none

/-- What is shown of a row, after its receipt has been checked. -/
def storedTargetView (recentAfter : ℤ) (db : Db) (row : PublicationTarget)
    (receipt : Option ReplicationReceipt) : Result PublicationTargetView := do
  let lastAttemptAt ← optionalTimestamp P row.lastAttemptAt
  let lastSuccessAt ← optionalTimestamp P row.lastSuccessAt
  let nextAttemptAt ← optionalTimestamp P row.nextAttemptAt
  let atCurrentHead := receipt.isSome && row.acknowledgedCursor == db.head &&
    row.acknowledgedEventHash == db.headHash
  rejectIf (row.consecutiveFailures < 0 ∨ 2 ^ 32 ≤ row.consecutiveFailures)
    (.internal "stored publication failure count is invalid")
  pure {
    endpoint := row.endpoint
    relayNodeId := row.relayNodeId
    relayNodePublicKey := row.relayNodePublicKey
    acknowledgedCursor := row.acknowledgedCursor
    acknowledgedEventHash := row.acknowledgedEventHash
    atCurrentHead := atCurrentHead
    recentlyReconfirmed := atCurrentHead &&
      lastSuccessAt.any fun confirmedAt => decide (recentAfter ≤ confirmedAt)
    lastAttemptAt := lastAttemptAt
    lastSuccessAt := lastSuccessAt
    consecutiveFailures := row.consecutiveFailures
    nextAttemptAt := nextAttemptAt
    lastError := row.lastError
    receipt := receipt }

def publicationTargetView (identity : NodeIdentity P) (recentAfter : ℤ) (db : Db)
    (row : PublicationTarget) : Result PublicationTargetView := do
  let receipt ← storedReceipt P row
  match receipt with
  | some receipt => checkStoredReceipt P identity row receipt
  | none => pure ()
  storedTargetView P recentAfter db row receipt

/-- The distinct relays of the targets which pass the test. -/
def distinctRelays (test : PublicationTargetView → Bool)
    (targets : List PublicationTargetView) : List String :=
  ((targets.filter test).filterMap (·.relayNodeId)).dedup

def replicationHealth (identity : NodeIdentity P) (now : ℤ) (tables : PublicationTables)
    (db : Db) : Result ReplicationHealth := do
  let recentAfter := now - recentConfirmationHours * minutes 60
  let rows := tables.targets.mergeSort fun a b =>
    decide (a.createdAt < b.createdAt ∨ (a.createdAt = b.createdAt ∧ a.endpoint ≤ b.endpoint))
  let targets ← Outcome.traverse (publicationTargetView P identity recentAfter db) rows
  let confirmed := distinctRelays (·.atCurrentHead) targets
  let recent := distinctRelays (·.recentlyReconfirmed) targets
  pure {
    generatedAt := now
    originNodeId := identity.nodeId
    currentCursor := db.head
    currentEventHash := db.headHash
    desiredReplicas := tables.desiredReplicas
    confirmedCurrentReplicas := confirmed.length
    recentlyReconfirmedCurrentReplicas := recent.length
    status :=
      if targets.isEmpty then "unconfigured"
      else if tables.desiredReplicas ≤ recent.length then "replicated"
      else if recent.isEmpty then "unreplicated"
      else "degraded"
    targets := targets }

end

/-! ## Runs -/

structure PublicationRunReport where
  caughtUp : Bool
  endpoint : String
  relayNodeId : String
  snapshotCursor : ℤ
  acknowledgedCursor : ℤ
  publishedEvents : ℕ
  pages : ℕ
  reconfirmedUnchangedHead : Bool

/-- The variables of the loop of `publish_origin_inner`. -/
structure PublishProgress where
  snapshotCursor : ℤ
  initialCursor : ℤ
  cursor : ℤ
  relayNodeId : String
  publishedEvents : ℕ
  pages : ℕ

/-- What a run is about to do. -/
inductive PublishPhase where
  /-- Read its target. -/
  | opening
  /-- Read the head. -/
  | measuring (target : PublicationTargetView)
  /-- Compare the target with the log. -/
  | comparing (target : PublicationTargetView) (snapshotCursor : ℤ)
  /-- Make the next page. -/
  | bundling (progress : PublishProgress)
  /-- Read the answer of the relay. -/
  | sending (progress : PublishProgress) (bundle : FederationBundle)
  /-- Record the receipt. -/
  | recording (progress : PublishProgress) (bundle : FederationBundle)
      (receipt : ReplicationReceipt)
  /-- Read the number of failures. -/
  | failing (error : CommonwakeError)
  /-- Record the failure. -/
  | backingOff (error : CommonwakeError) (failures : ℤ)
  | done (result : Result PublicationRunReport)

structure PublishRun where
  endpoint : String
  batchSize : ℕ
  maxPages : Option ℕ
  phase : PublishPhase

def PublishPhase.ofResult : Result PublishPhase → PublishPhase
  | .ok phase => phase
  | .error error => .failing error

/-- The loop after a recorded page. -/
def PublishProgress.advance (progress : PublishProgress) (bundle : FederationBundle)
    (receipt : ReplicationReceipt) : PublishProgress :=
  { progress with
    relayNodeId := receipt.relayNodeId
    cursor := bundle.throughCursor
    publishedEvents := progress.publishedEvents + bundle.events.length
    pages := progress.pages + 1 }

def PublishProgress.report (progress : PublishProgress) (endpoint : String) :
    PublicationRunReport where
  caughtUp := decide (progress.snapshotCursor ≤ progress.cursor)
  endpoint := endpoint
  relayNodeId := progress.relayNodeId
  snapshotCursor := progress.snapshotCursor
  acknowledgedCursor := progress.cursor
  publishedEvents := progress.publishedEvents
  pages := progress.pages
  reconfirmedUnchangedHead :=
    progress.initialCursor == progress.snapshotCursor && progress.publishedEvents == 0

/-- The wait after a number of failures, in nanoseconds. -/
def publicationDelay (failures : ℤ) : ℤ :=
  min (30 * 2 ^ (min failures.toNat 7)) 3600 * 1000000000

section

variable (P : Primitives)

/-- The answer of the relay, when there is one and it can be read. -/
def readAnswer (answer : Option String) : Result FederationPublishReport :=
  okOr (do
    let text ← answer
    let value ← P.parse text
    FederationPublishReport.ofJson P value) .json

/-- The checks of an answer. -/
def checkAnswer (identity : NodeIdentity P) (bundle : FederationBundle)
    (answer : FederationPublishReport) : Result Unit := do
  rejectIf (answer.report.originNodeId ≠ identity.nodeId ∨
      answer.report.currentCursor < bundle.throughCursor)
    (.unauthorized "relay import report does not acknowledge the published origin range")
  verifyReplicationReceipt P answer.receipt
  rejectIf (answer.receipt.originCheckpoint ≠ bundle.checkpoint)
    (.unauthorized "relay receipt does not commit to the published checkpoint")

/-- One critical section of a run, or its reading of an answer. -/
def PublishRun.proceed (identity : NodeIdentity P) (run : PublishRun) (now : ℤ)
    (answer : Option String) (errorText : String) (tables : PublicationTables) (db : Db) :
    PublishPhase × PublicationTables × Db :=
  match run.phase with
  | .opening =>
      (.ofResult (do
        let health ← replicationHealth P identity now tables db
        let target ← okOr (health.targets.find? fun target => target.endpoint == run.endpoint)
          (.notFound s!"publication target {run.endpoint}")
        pure (.measuring target)), tables, db)
  | .measuring target =>
      (.ofResult (do
        rejectIf (target.acknowledgedCursor > db.head)
          (.conflict "publication state is ahead of the local origin log")
        pure (.comparing target db.head)), tables, db)
  | .comparing target snapshotCursor =>
      (.ofResult (do
        let hash ← db.eventHashAt target.acknowledgedCursor
        rejectIf (hash ≠ target.acknowledgedEventHash)
          (.conflict "publication state does not match the local origin hash chain")
        pure (.bundling {
          snapshotCursor := snapshotCursor
          initialCursor := target.acknowledgedCursor
          cursor := target.acknowledgedCursor
          relayNodeId := target.relayNodeId.getD ""
          publishedEvents := 0
          pages := 0 })), tables, db)
  | .bundling progress =>
      (.ofResult (do
        let bundle ← federationBundle P identity progress.cursor
          (max 1 (min run.batchSize maxFederationEvents)) now db
        pure (.sending progress bundle)), tables, db)
  | .sending progress bundle =>
      (.ofResult (do
        let answer ← readAnswer P answer
        checkAnswer P identity bundle answer
        pure (.recording progress bundle answer.receipt)), tables, db)
  | .recording progress bundle receipt =>
      match recordPublicationSuccess P identity run.endpoint receipt now tables db with
      | .error error => (.failing error, tables, db)
      | .ok (next, nextDb) =>
          let progress := progress.advance bundle receipt
          if progress.snapshotCursor ≤ progress.cursor ∨ bundle.events.length = 0 ∨
              run.maxPages.any fun maximum => decide (max 1 maximum ≤ progress.pages) then
            (.done (.ok (progress.report run.endpoint)), next, nextDb)
          else (.bundling progress, next, nextDb)
  | .failing error =>
      match replicationHealth P identity now tables db with
      | .error failure => (.done (.error failure), tables, db)
      | .ok health =>
          let failures := ((health.targets.find? fun target =>
            target.endpoint == run.endpoint).map (·.consecutiveFailures)).getD 0
          (.backingOff error failures, tables, db)
  | .backingOff error failures =>
      match recordPublicationFailure P run.endpoint errorText
          (now + publicationDelay failures) now tables db with
      | .error failure => (.done (.error failure), tables, db)
      | .ok (next, nextDb) => (.done (.error error), next, nextDb)
  | .done result => (.done result, tables, db)

end

/-! ## The node which publishes -/

/-- One critical section of a node which publishes. -/
inductive PublicationAction where
  /-- A critical section of the calls, the collector and the imports. -/
  | node (action : Action)
  | configure (endpoint : String) (now : ℤ)
  | setDesiredReplicas (desiredReplicas : ℕ) (now : ℤ)
  /-- `publish_origin`, up to the first lock of its inner part. -/
  | publish (endpoint : String) (batchSize : ℕ) (maxPages : Option ℕ) (now : ℤ)
  /-- The next critical section of a run.  The answer is what the relay sends back,
  if anything, and the text is the one of the error. -/
  | proceed (index : ℕ) (now : ℤ) (answer : Option String) (errorText : String)

structure Publisher where
  node : NodeState
  tables : PublicationTables
  runs : List PublishRun

section

variable (P : Primitives)

namespace Publisher

def init (identity : NodeIdentity P) : Publisher :=
  ⟨NodeState.init P identity, .init, []⟩

/-- The state after a statement which changes the targets: a failed one changes nothing. -/
def settle (publisher : Publisher) (result : Result (PublicationTables × Db)) : Publisher :=
  match result with
  | .ok (tables, db) =>
      { publisher with tables := tables, node := { publisher.node with db := db } }
  | .error _ => publisher

def step (identity : NodeIdentity P) (publisher : Publisher) : PublicationAction → Publisher
  | .node action => { publisher with node := publisher.node.step P identity action }
  | .configure endpoint now =>
      publisher.settle
        (configurePublicationTarget P endpoint now publisher.tables publisher.node.db)
  | .setDesiredReplicas desiredReplicas now =>
      publisher.settle
        (Commonwake.setDesiredReplicas P desiredReplicas now publisher.tables
          publisher.node.db)
  | .publish endpoint batchSize maxPages now =>
      let result := configurePublicationTarget P endpoint now publisher.tables
        publisher.node.db
      if result.isOk then
        { publisher.settle result with
          runs := publisher.runs ++ [⟨endpoint, batchSize, maxPages, .opening⟩] }
      else publisher
  | .proceed index now answer errorText =>
      match publisher.runs[index]? with
      | some run =>
          let (phase, tables, db) := run.proceed P identity now answer errorText
            publisher.tables publisher.node.db
          { node := { publisher.node with db := db }
            tables := tables
            runs := publisher.runs.set index { run with phase := phase } }
      | none => publisher

/-- The state after a list of actions. -/
def run (identity : NodeIdentity P) (actions : List PublicationAction) : Publisher :=
  actions.foldl (step P identity) (init P identity)

end Publisher

end

end Commonwake
