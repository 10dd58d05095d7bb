import Commonwake.Ingest

/-!
# Orientation

What a returning participant reads: a page of events, the commitments of the
lineage which are still open, and a view of every story, local or remote,
which changed inside the window of the page.
-/

namespace Commonwake

open Outcome

structure EventView where
  sequence : ℤ
  eventId : String
  kind : String
  lineageId : Option String
  delegationId : Option String
  createdAt : ℤ
  receivedAt : ℤ
  targets : List String
  supersedes : List String
  payload : Json
  canonical : Json
  authorSignature : Option String
  previousHash : String
  eventHash : String
  nodeSignature : String

structure ObservationView where
  observationId : String
  sourceId : String
  sourceName : String
  canonicalUrl : String
  title : String
  summary : String
  publishedAt : Option ℤ
  retrievedAt : ℤ
  language : Option String
  documentHash : String
  corroboratedCount : ℕ
  disputedCount : ℕ
  untracedCorroboratedCount : ℕ
  untracedDisputedCount : ℕ

structure AssessmentView where
  assessorLineageId : String
  assessorDisplayName : String
  eventId : String
  summary : String
  significance : String
  confidence : String
  perspective : String
  claims : List Claim
  evidence : List EvidenceRef
  reporting : ReportingDeclaration
  createdAt : ℤ

/-- The part of a story view which local and federated stories share. -/
structure StoryViewBody where
  storyId : String
  title : String
  firstSeenAt : ℤ
  stage : String
  observations : List ObservationView
  assessments : List AssessmentView

structure StoryView extends StoryViewBody where
  relatedEvents : List EventView

structure FederatedStoryView extends StoryViewBody where
  originNodeId : String
  relatedEvents : List OriginEvent

structure OrientationBundle where
  lineage : LineageView
  checkpoint : Checkpoint
  fromCursor : ℤ
  lastAcknowledgedCursor : ℤ
  selfHistory : List EventView
  mentions : List EventView
  openCommitments : List EventView
  corrections : List EventView
  worldChanges : List StoryView
  federatedWorldChanges : List FederatedStoryView
  nextCursor : ℤ
  hasMore : Bool

section

variable (P : Primitives)

/-! ## Events -/

def eventView (row : EventRow) : Result EventView := do
  let canonical ← okOr (P.parse row.canonicalJson) .json
  let projection ← expectedProjection P row canonical
  pure {
    sequence := row.sequence
    eventId := row.eventId
    kind := row.kind
    lineageId := row.lineageId
    delegationId := row.delegationId
    createdAt := ← P.parseTimestamp row.createdAt
    receivedAt := ← P.parseTimestamp row.receivedAt
    targets := projection.targets
    supersedes := projection.supersedes
    payload := projection.payload
    canonical := canonical
    authorSignature := projection.authorSignature
    previousHash := row.previousHash
    eventHash := row.eventHash
    nodeSignature := row.nodeSignature }

def Db.eventsAfter (db : Db) (after : ℤ) (limit : ℕ) : Result (List EventView) :=
  Outcome.traverse (eventView P)
    ((db.events.filter fun row => decide (after < row.sequence)).take limit)

/-- The texts of a stored list, as `json_each` lists them. -/
def jsonEachText (text : String) : Result (List String) := do
  let value ← okOr (P.parse text) .database
  match value with
  | .array items => pure (items.filterMap Serde.string)
  | .object members => pure (members.filterMap fun member => Serde.string member.2)
  | value => pure (Serde.string value).toList

/-- Does the list stored in a column of the row hold the text? -/
def columnHolds (column : EventRow → String) (text : String) (row : EventRow) :
    Result Bool := do
  pure ((← jsonEachText P (column row)).contains text)

/-- Is there an event which supersedes the given one? -/
def Db.isSuperseded (db : Db) (eventId : String) : Result Bool := do
  let later ← filterOk (columnHolds P EventRow.supersedesJson eventId) db.events
  pure (!later.isEmpty)

def Db.openCommitments (db : Db) (lineageId : String) : Result (List EventView) := do
  let commitments ← filterOk
    (fun row => do pure (!(← db.isSuperseded P row.eventId)))
    (db.events.filter fun row =>
      row.lineageId == some lineageId && row.kind == "commitment")
  Outcome.traverse (eventView P) (commitments.take 100)

/-! ## Stories -/

def relatesToStories (kind : String) : Bool :=
  kind == "story_link" || kind == "correction" || kind == "perspective_gap" ||
    kind == "translation"

def storyStage (distinctSources assessmentCount verificationCount : ℕ) : String :=
  if 2 ≤ distinctSources ∧ 2 ≤ assessmentCount ∧ 2 ≤ verificationCount then "brief"
  else if assessmentCount = 0 ∧ verificationCount = 0 then "raw"
  else "developing"

/-- What the two story views read besides the content tables: the canonical
text of an event, the name of a source, and the name of a lineage. -/
structure StoryContext where
  canonicalText? : String → Option String
  sourceName? : String → Option String
  displayName? : String → Option String

/-- The verifications of an observation, each with the answer whether it is
traceable. -/
def verificationsOf (context : StoryContext) (content : ContentTables)
    (observationId : String) : Result (List (VerificationOutcome × Bool)) :=
  Outcome.traverse (fun row : VerificationRow => do
      pure (row.outcome, ← joinsTraceable P context.canonicalText? row.eventId))
    (content.verifications.filter fun row => row.observationId == observationId)

def observationView (context : StoryContext) (content : ContentTables)
    (row : ObservationRow) (sourceName : String) : Result ObservationView := do
  let verifications ← verificationsOf P context content row.observationId
  let publishedAt ← match row.publishedAt with
    | some text => do pure (some (← P.parseTimestamp text))
    | none => pure none
  pure {
    observationId := row.observationId
    sourceId := row.sourceId
    sourceName := sourceName
    canonicalUrl := row.canonicalUrl
    title := row.title
    summary := row.summary
    publishedAt := publishedAt
    retrievedAt := ← P.parseTimestamp row.retrievedAt
    language := row.language
    documentHash := row.documentHash
    corroboratedCount := verifications.count (.corroborated, true)
    disputedCount := verifications.count (.disputed, true)
    untracedCorroboratedCount := verifications.count (.corroborated, false)
    untracedDisputedCount := verifications.count (.disputed, false) }

/-- The observations of a story which join a source, in the order of their
retrieval. -/
def observationsOf (context : StoryContext) (content : ContentTables)
    (storyId : String) : List (ObservationRow × String) :=
  let rows := (content.storyObservations.filter fun link => link.storyId == storyId).filterMap
    fun link => content.observations.find? fun row =>
      row.observationId == link.observationId
  let joined := rows.filterMap fun row =>
    (context.sourceName? row.sourceId).map fun name => (row, name)
  joined.mergeSort fun a b => decide (a.1.retrievedAt ≤ b.1.retrievedAt)

def storedList {α : Type} (decode : Json → Option α) (text : String) :
    Result (List α) := do
  let value ← okOr (P.parse text) .json
  okOr (Serde.list decode value) .json

def assessmentView (row : AssessmentRow) (displayName canonicalJson : String) :
    Result AssessmentView := do
  pure {
    assessorLineageId := row.assessorLineageId
    assessorDisplayName := displayName
    eventId := row.eventId
    summary := row.summary
    significance := row.significance
    confidence := row.confidence
    perspective := row.perspective
    claims := ← storedList P (Claim.ofJson P) row.claimsJson
    evidence := ← storedList P (EvidenceRef.ofJson P) row.evidenceJson
    reporting := (← storedContribution P canonicalJson).reporting
    createdAt := ← P.parseTimestamp row.createdAt }

/-- The assessments of a story which join a lineage and an event. -/
def assessmentsOf (context : StoryContext) (content : ContentTables)
    (storyId : String) : List (AssessmentRow × String × String) :=
  let joined := (content.assessments.filter fun row => row.storyId == storyId).filterMap
    fun row => do
      let name ← context.displayName? row.assessorLineageId
      let text ← context.canonicalText? row.eventId
      pure (row, name, text)
  joined.mergeSort fun a b => decide (a.1.createdAt ≤ b.1.createdAt)

/-- The number of sources of a story, over the observations which were not
linked or whose link is traceable. -/
def distinctSources (context : StoryContext) (content : ContentTables)
    (storyId : String) : Result ℕ := do
  let links ← filterOk
    (fun link : StoryObservationRow => match link.linkedEventId with
      | some eventId => joinsTraceable P context.canonicalText? eventId
      | none => pure true)
    (content.storyObservations.filter fun link => link.storyId == storyId)
  let rows := links.filterMap fun link => content.observations.find? fun row =>
    row.observationId == link.observationId
  pure (rows.map (·.sourceId)).dedup.length

/-- Everything of a story view except the related events. -/
def storyViewBody (context : StoryContext) (content : ContentTables)
    (storyId : String) (missing : CommonwakeError) : Result StoryViewBody := do
  let header ← okOr (content.stories.find? fun row =>
    row.storyId == storyId && row.mergedInto.isNone) missing
  let observations ← Outcome.traverse
    (fun joined => observationView P context content joined.1 joined.2)
    (observationsOf context content storyId)
  let assessments ← Outcome.traverse
    (fun joined => assessmentView P joined.1 joined.2.1 joined.2.2)
    (assessmentsOf context content storyId)
  let sources ← distinctSources P context content storyId
  let verificationCount :=
    (observations.map fun view => view.corroboratedCount + view.disputedCount).sum
  pure {
    storyId := storyId
    title := header.title
    firstSeenAt := ← P.parseTimestamp header.firstSeenAt
    stage := storyStage sources
      (assessments.countP fun view => view.reporting.isTraceable) verificationCount
    observations := observations
    assessments := assessments }

/-! ## Local stories -/

def Db.storyContext (db : Db) : StoryContext where
  canonicalText? := db.canonicalText?
  sourceName? sourceId :=
    (db.sources.find? fun row => row.sourceId == sourceId).map (·.name)
  displayName? lineageId := (db.lineage? lineageId).map (·.displayName)

def Db.relatedStoryEvents (db : Db) (storyId : String) : Result (List EventView) := do
  let rows ← filterOk (columnHolds P EventRow.targetsJson storyId)
    (db.events.filter fun row => relatesToStories row.kind)
  Outcome.traverse (eventView P) rows

def Db.storyView (db : Db) (storyId : String) : Result StoryView := do
  let body ← storyViewBody P db.storyContext db.content storyId
    (.notFound s!"story {storyId}")
  pure { body with relatedEvents := ← db.relatedStoryEvents P storyId }

def inWindow (after through sequence : ℤ) : Bool :=
  decide (after < sequence ∧ sequence ≤ through)

/-- The sequence of the event with the given id. -/
def Db.sequenceOf? (db : Db) (eventId : String) : Option ℤ :=
  (db.eventById? eventId).map (·.sequence)

/-- The stories which the targets of an event name. -/
def Db.targetedStories (db : Db) (row : EventRow) : Result (List String) := do
  let targets ← jsonEachText P row.targetsJson
  pure (targets.filter db.content.hasStory)

/-- The ids of the changed stories with the sequences of the changes: the
union of the five queries. -/
def Db.storyChanges (db : Db) : Result (List (String × ℤ)) := do
  let content := db.content
  let created := (content.stories.filter fun row => row.mergedInto.isNone).map
    fun row => (row.storyId, row.createdSequence)
  let observed := content.observations.filterMap fun row =>
    (content.storyOf? row.observationId).map fun storyId =>
      (storyId, row.createdSequence)
  let assessed := content.assessments.filterMap fun row =>
    (db.sequenceOf? row.eventId).map fun sequence => (row.storyId, sequence)
  let verified := content.verifications.filterMap fun row => do
    let sequence ← db.sequenceOf? row.eventId
    let storyId ← content.storyOf? row.observationId
    pure (storyId, sequence)
  let targeted ← Outcome.traverse (fun row : EventRow => do
      pure ((← db.targetedStories P row).map fun storyId => (storyId, row.sequence)))
    (db.events.filter fun row => relatesToStories row.kind)
  pure (created ++ observed ++ assessed ++ verified ++ targeted.flatten)

def Db.changedStoryIds (db : Db) (after through : ℤ) : Result (List String) := do
  let changes ← db.storyChanges P
  pure ((((changes.filter fun change => inWindow after through change.2).map
    Prod.fst).dedup).mergeSort fun a b => decide (a ≤ b))

def Db.storiesChangedBetween (db : Db) (after through : ℤ) :
    Result (List StoryView) := do
  Outcome.traverse (db.storyView P) (← db.changedStoryIds P after through)

/-! ## Federated stories -/

def OriginTables.storyContext (tables : OriginTables) : StoryContext where
  canonicalText? := tables.canonicalText?
  sourceName? sourceId :=
    (tables.sources.find? fun row => row.sourceId == sourceId).map (·.name)
  displayName? lineageId := (tables.lineage? lineageId).map (·.displayName)

/-- The event of a row which an import stored. -/
def remoteOriginEventFromRow (row : RemoteEventRow) : Result OriginEvent := do
  let canonical ← okOr (P.parse row.canonicalJson) .database
  pure {
    sequence := row.originSequence
    eventId := row.eventId
    kind := row.kind
    lineageId := row.lineageId
    delegationId := row.delegationId
    createdAt := row.createdAt
    receivedAt := row.receivedAt
    canonical := canonical
    previousHash := row.previousHash
    eventHash := row.eventHash
    nodeSignature := row.nodeSignature }

def Db.federatedStoryView (db : Db) (origin storyId : String) :
    Result FederatedStoryView := do
  let tables := db.origins origin
  let body ← storyViewBody P tables.storyContext tables.content storyId
    (.notFound s!"federated story {origin}/{storyId}")
  let related := tables.remoteEvents.filter fun row =>
    tables.storyEvents.contains ⟨storyId, row.originSequence⟩
  pure { body with
    originNodeId := origin
    relatedEvents := ← Outcome.traverse (remoteOriginEventFromRow P) related }

def Db.federatedChangedStoryIds (db : Db) (after through : ℤ) :
    List (String × String) :=
  let windows := db.federationImports.filter fun row =>
    inWindow after through row.localWitnessSequence
  let changed := windows.flatMap fun row =>
    let tables := db.origins row.originNodeId
    (tables.storyEvents.filter fun event =>
        inWindow row.remoteFromCursor row.remoteThroughCursor event.originSequence &&
          tables.content.hasUnmergedStory event.storyId).map
      fun event => (row.originNodeId, event.storyId)
  changed.dedup.mergeSort fun a b =>
    decide (a.1 < b.1 ∨ (a.1 = b.1 ∧ a.2 ≤ b.2))

def Db.federatedStoriesChangedBetween (db : Db) (after through : ℤ) :
    Result (List FederatedStoryView) :=
  Outcome.traverse (fun id => db.federatedStoryView P id.1 id.2)
    (db.federatedChangedStoryIds after through)

/-! ## The orientation bundle -/

def maxOrientationPage : ℕ := 100

/-- The cursor after a page of events. -/
def pageEnd (fromCursor : ℤ) (events : List EventView) : ℤ :=
  match events.getLast? with
  | some event => event.sequence
  | none => fromCursor

def orient (identity : NodeIdentity P) (lineageId : String) (since : Option ℤ)
    (now : ℤ) (db : Db) : Result OrientationBundle := do
  let lineage ← db.lineage P lineageId
  let acknowledged := db.lastAcknowledgedCursor lineageId
  let fromCursor := since.getD acknowledged
  rejectIf (fromCursor < 0) (.validation "orientation cursor cannot be negative")
  let page ← db.eventsAfter P fromCursor (maxOrientationPage + 1)
  let hasMore := decide (maxOrientationPage < page.length)
  let events := page.take maxOrientationPage
  let nextCursor := pageEnd fromCursor events
  let isOwn := fun event : EventView => event.lineageId == some lineageId
  let isMention := fun event : EventView => event.targets.contains lineageId
  let worldChanges ← db.storiesChangedBetween P fromCursor nextCursor
  let federatedWorldChanges ← db.federatedStoriesChangedBetween P fromCursor nextCursor
  let checkpoint ← checkpointAt P identity db.head now db
  pure {
    lineage := lineage
    checkpoint := checkpoint
    fromCursor := fromCursor
    lastAcknowledgedCursor := acknowledged
    selfHistory := events.filter fun event =>
      event.kind != "acknowledgement" && isOwn event
    mentions := events.filter fun event =>
      event.kind != "acknowledgement" && isMention event
    openCommitments := ← db.openCommitments P lineageId
    corrections := events.filter fun event =>
      event.kind == "correction" && (isOwn event || isMention event)
    worldChanges := worldChanges
    federatedWorldChanges := federatedWorldChanges
    nextCursor := nextCursor
    hasMore := hasMore }

end

end Commonwake
