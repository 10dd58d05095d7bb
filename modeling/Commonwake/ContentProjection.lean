import Commonwake.Commons

/-!
# Stories, observations and reports

The statements by which an accepted event changes the content tables.  The
node runs them on its own tables and an importer runs the same statements on
the tables of an origin; the two sides differ in the checks around them,
which are in `LocalProjection` and `RemoteProjection`.
-/

namespace Commonwake

open Outcome Table

/-- The entry with the least key, and the first one of several. -/
def earliest {β : Type} : List (ℤ × β) → Option (ℤ × β)
  | [] => none
  | entry :: rest =>
      match earliest rest with
      | some best => if best.1 < entry.1 then some best else some entry
      | none => some entry

namespace ContentTables

/-- The story which holds an observation. -/
def storyOf? (tables : ContentTables) (observationId : String) : Option String :=
  (tables.storyObservations.find? fun row =>
    row.observationId == observationId).map (·.storyId)

def story? (tables : ContentTables) (storyId : String) : Option StoryRow :=
  tables.stories.find? fun row => row.storyId == storyId

def hasStory (tables : ContentTables) (storyId : String) : Bool :=
  tables.stories.any fun row => row.storyId == storyId

/-- Is there a story with this id which was not merged into another? -/
def hasUnmergedStory (tables : ContentTables) (storyId : String) : Bool :=
  tables.stories.any fun row => row.storyId == storyId && row.mergedInto.isNone

def hasObservation (tables : ContentTables) (observationId : String) : Bool :=
  tables.observations.any fun row => row.observationId == observationId

/-- The story of the earliest observation of an address at a source. -/
def existingStory (tables : ContentTables) (sourceId canonicalUrl : String) :
    Option String :=
  let joined := tables.observations.filterMap fun row =>
    if row.sourceId = sourceId ∧ row.canonicalUrl = canonicalUrl then
      (tables.storyOf? row.observationId).map fun storyId =>
        (row.createdSequence, storyId)
    else none
  (earliest joined).map Prod.snd

/-- Insert an observation, its link to a story, and the story itself when it
is new. -/
def addObservation (clash : ObservationRow → Bool) (story : StoryRow)
    (observation : ObservationRow) (tables : ContentTables) :
    Result ContentTables := do
  let observations ← insertNew clash .database observation tables.observations
  let storyObservations ← insertNew
    (fun stored => stored.observationId == observation.observationId) .database
    ⟨story.storyId, observation.observationId, none⟩ tables.storyObservations
  pure { tables with
    stories := insertOrIgnore (fun stored => stored.storyId == story.storyId)
      story tables.stories
    observations := observations
    storyObservations := storyObservations }

/-- Move an observation from one story to another; a story which loses its
last observation is merged into the new one. -/
def moveObservation (storyId eventId oldStory observationId : String)
    (tables : ContentTables) : ContentTables :=
  let storyObservations := updateWhere
    (fun row => row.observationId == observationId)
    (fun row => { row with storyId := storyId, linkedEventId := some eventId })
    tables.storyObservations
  let remaining := storyObservations.countP fun row => row.storyId == oldStory
  { tables with
    storyObservations := storyObservations
    stories :=
      if remaining = 0 then
        updateWhere (fun row => row.storyId == oldStory)
          (fun row => { row with mergedInto := some storyId }) tables.stories
      else tables.stories }

def putReview (row : SourceReviewRow) (tables : ContentTables) : ContentTables :=
  let reviews := upsert
    (fun stored => stored.sourceId == row.sourceId &&
      stored.reviewerLineageId == row.reviewerLineageId)
    (fun _ => row) row tables.reviews
  { tables with reviews := reviews }

def putVerification (row : VerificationRow) (tables : ContentTables) :
    ContentTables :=
  let verifications := upsert
    (fun stored => stored.observationId == row.observationId &&
      stored.verifierLineageId == row.verifierLineageId)
    (fun _ => row) row tables.verifications
  { tables with verifications := verifications }

def putAssessment (row : AssessmentRow) (tables : ContentTables) : ContentTables :=
  let assessments := upsert
    (fun stored => stored.storyId == row.storyId &&
      stored.assessorLineageId == row.assessorLineageId)
    (fun _ => row) row tables.assessments
  { tables with assessments := assessments }

end ContentTables

section

variable (P : Primitives)

/-! ## Observations -/

/-- What the collector builds from one entry of a feed. -/
structure IngestedObservation where
  sourceId : String
  canonicalUrl : String
  title : String
  summary : String
  publishedAt : Option ℤ
  retrievedAt : ℤ
  language : Option String
  documentHash : String
  rawMetadata : Json

/-- The digest of the metadata of a document. -/
def documentHashOf (canonicalUrl title summary : String) (publishedAt : Option ℤ)
    (rawMetadata : Json) : String :=
  P.sha256Hex (utf8 (P.jcs (.object [
    ("canonical_url", .string canonicalUrl),
    ("published_at", Serde.nullOr (dateTime P) publishedAt),
    ("raw_metadata", rawMetadata),
    ("summary", .string summary),
    ("title", .string title)])))

def observationIdOf (sourceId canonicalUrl documentHash : String) : String :=
  P.prefixedId "cwobs_"
    (utf8 sourceId ++ 0 :: (utf8 canonicalUrl ++ 0 :: utf8 documentHash))

def storyIdOf (observationId : String) : String :=
  P.prefixedId "cwstory_" (utf8 observationId)

/-- The story row which an observation opens. -/
def observedStory (observation : FederatedObservationPayload) (sequence : ℤ) :
    StoryRow :=
  ⟨observation.storyId, observation.title, P.timestamp observation.retrievedAt,
    sequence, none⟩

/-- The stored row of an observation. -/
def observedRow (observation : FederatedObservationPayload) (sequence : ℤ) :
    ObservationRow where
  observationId := observation.observationId
  sourceId := observation.sourceId
  canonicalUrl := observation.canonicalUrl
  title := observation.title
  summary := observation.summary
  publishedAt := observation.publishedAt.map P.timestamp
  retrievedAt := P.timestamp observation.retrievedAt
  language := observation.language
  documentHash := observation.documentHash
  createdSequence := sequence

/-! ## Reports -/

/-- `json_extract(text, '$.reporting.mode') = 'traceable'`. -/
def reportingIsTraceable (canonicalJson : String) : Result Bool := do
  let value ← okOr (P.parse canonicalJson) .database
  pure (decide (((value.get? "reporting").bind fun reporting =>
    reporting.get? "mode") = some (.string "traceable")))

/-- Is the report traceable whose event has the given id?  An id without an
event does not join. -/
def joinsTraceable (text? : String → Option String) (eventId : String) :
    Result Bool :=
  match text? eventId with
  | some text => reportingIsTraceable P text
  | none => pure false

def EvidenceRef.toJson (x : EvidenceRef) : Json :=
  .object (
    Serde.skipNone "digest" .string x.digest ++
    Serde.skipNone "observed_at" (dateTime P) x.observedAt ++
    Serde.skipNone "title" .string x.title ++
    [("url", .string x.url)])

def Claim.toJson (x : Claim) : Json :=
  .object [
    ("evidence", .array (x.evidence.map (EvidenceRef.toJson P))),
    ("status", .string x.status.asStr),
    ("text", .string x.text)]

def evidenceText (evidence : List EvidenceRef) : String :=
  P.toText (.array (evidence.map (EvidenceRef.toJson P)))

def claimsText (claims : List Claim) : String :=
  P.toText (.array (claims.map (Claim.toJson P)))

def reviewRow (lineageId eventId : String) (contribution : SignedContribution)
    (payload : SourceReviewPayload) : SourceReviewRow where
  sourceId := payload.sourceId
  reviewerLineageId := lineageId
  eventId := eventId
  recommendation := payload.recommendation
  evidenceJson := evidenceText P payload.evidence
  notes := payload.notes
  createdAt := P.timestamp contribution.createdAt

def verificationRow (lineageId eventId : String) (contribution : SignedContribution)
    (payload : ObservationVerificationPayload) : VerificationRow where
  observationId := payload.observationId
  verifierLineageId := lineageId
  eventId := eventId
  outcome := payload.outcome
  notes := payload.notes
  evidenceJson := evidenceText P payload.evidence
  createdAt := P.timestamp contribution.createdAt

def assessmentRow (lineageId eventId : String) (contribution : SignedContribution)
    (payload : AssessmentPayload) : AssessmentRow where
  storyId := payload.storyId
  assessorLineageId := lineageId
  eventId := eventId
  summary := payload.summary
  significance := payload.significance
  confidence := payload.confidence
  perspective := payload.perspective
  claimsJson := claimsText P payload.claims
  evidenceJson := evidenceText P payload.evidence
  createdAt := P.timestamp contribution.createdAt

/-! ## References to earlier events -/

/-- A stored contribution. -/
def storedContribution (canonicalJson : String) : Result SignedContribution := do
  let value ← okOr (P.parse canonicalJson) .json
  okOr (SignedContribution.ofJson P value) .json

def traceSubjectFromCanonical (canonicalJson : String) : Result String := do
  let contribution ← storedContribution P canonicalJson
  rejectIf (contribution.kind ≠ .verificationTrace)
    (.unauthorized "referenced event is not a verification trace")
  let trace ← decodePayload (VerificationTracePayload.ofJson P) contribution.payload
  pure trace.subjectId

/-- The subject of a trace which may be missing. -/
def traceSubject (canonicalJson : Option String) : Result (Option String) :=
  match canonicalJson with
  | some text => do pure (some (← traceSubjectFromCanonical P text))
  | none => pure none

def validateCodeReviewSubject (payload : CodeReviewPayload) (canonicalJson : String) :
    Result Unit := do
  let contribution ← storedContribution P canonicalJson
  let patch ← decodePayload RepositoryPatchPayload.ofJson contribution.payload
  rejectIf (patch.repositoryId ≠ payload.repositoryId ∨
      patch.proposedRevision ≠ payload.reviewedRevision ∨
      patch.artifact.sha256 ≠ payload.artifactSha256)
    (.validation "code review repository, revision, or artifact does not match its patch proposal")

def validateBuildAttestationSubject (payload : BuildAttestationPayload)
    (canonicalJson : String) : Result Unit := do
  let contribution ← storedContribution P canonicalJson
  let patch ← decodePayload RepositoryPatchPayload.ofJson contribution.payload
  rejectIf (patch.repositoryId ≠ payload.repositoryId ∨
      patch.proposedRevision ≠ payload.sourceRevision ∨
      patch.artifact.sha256 ≠ payload.artifactSha256)
    (.validation "build attestation repository, revision, or artifact does not match its patch proposal")

def validateReleaseReviewSubject (payload : ReleaseReviewPayload)
    (canonicalJson : String) : Result Unit := do
  let contribution ← storedContribution P canonicalJson
  let release ← decodePayload ReleaseProposalPayload.ofJson contribution.payload
  rejectIf (release.repositoryId ≠ payload.repositoryId ∨
      release.candidateRevision ≠ payload.reviewedRevision ∨
      release.sourceArtifact.sha256 ≠ payload.artifactSha256)
    (.validation "release review repository, revision, or artifact does not match its release proposal")

/-- A patch of a release must be for the repository of the release. -/
def validateIncludedPatch (error : CommonwakeError) (repositoryId canonicalJson : String) :
    Result Unit := do
  let proposal ← storedContribution P canonicalJson
  let patch ← decodePayload RepositoryPatchPayload.ofJson proposal.payload
  rejectIf (patch.repositoryId ≠ repositoryId) error

end

end Commonwake
