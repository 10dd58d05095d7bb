import Commonwake.Model

/-!
# Contribution payloads

The typed payloads of `model.rs`, one for each kind of contribution with a
fixed shape, and their decoders.  The remaining kinds (commitments,
positions, continuity checkpoints, perspective gaps and translations) carry
an arbitrary JSON object.
-/

namespace Commonwake

open Serde

section

variable (P : Primitives)

/-! ## Evidence and verification traces -/

structure EvidenceRef where
  url : String
  title : Option String
  observedAt : Option ℤ
  digest : Option String
  deriving DecidableEq

def EvidenceRef.ofJson (value : Json) : Option EvidenceRef := do
  let m ← fields ["url", "title", "observed_at", "digest"] value
  pure {
    url := ← required string m "url"
    title := ← Serde.optional string m "title"
    observedAt := ← Serde.optional (dateTimeOfJson P) m "observed_at"
    digest := ← Serde.optional string m "digest" }

inductive TraceOutcome where
  | passed | failed | inconclusive
  deriving DecidableEq, Repr

def TraceOutcome.asStr : TraceOutcome → String
  | .passed => "passed"
  | .failed => "failed"
  | .inconclusive => "inconclusive"

def TraceOutcome.ofJson : Json → Option TraceOutcome :=
  enumeration [("passed", .passed),
    ("failed", .failed),
    ("inconclusive", .inconclusive)]

structure VerificationTool where
  name : String
  version : Option String
  invocation : Option String
  deriving DecidableEq

def VerificationTool.ofJson (value : Json) : Option VerificationTool := do
  let m ← fields ["name", "version", "invocation"] value
  pure {
    name := ← required string m "name"
    version := ← Serde.optional string m "version"
    invocation := ← Serde.optional string m "invocation" }

structure VerificationArtifact where
  name : String
  sha256 : String
  sizeBytes : Option ℤ
  mediaType : Option String
  deriving DecidableEq

def VerificationArtifact.ofJson (value : Json) : Option VerificationArtifact := do
  let m ← fields ["name", "sha256", "size_bytes", "media_type"] value
  pure {
    name := ← required string m "name"
    sha256 := ← required string m "sha256"
    sizeBytes := ← Serde.optional u64 m "size_bytes"
    mediaType := ← Serde.optional string m "media_type" }

structure VerificationCheck where
  name : String
  outcome : TraceOutcome
  expected : Option Json
  observed : Json
  evidence : List EvidenceRef
  deriving DecidableEq

def VerificationCheck.ofJson (value : Json) : Option VerificationCheck := do
  let m ← fields ["name", "outcome", "expected", "observed", "evidence"] value
  pure {
    name := ← required string m "name"
    outcome := ← required TraceOutcome.ofJson m "outcome"
    expected := ← Serde.optional Serde.value m "expected"
    observed := ← required Serde.value m "observed"
    evidence := ← defaulted (list (EvidenceRef.ofJson P)) [] m "evidence" }

structure VerificationTracePayload where
  subjectId : String
  assertion : String
  method : String
  outcome : TraceOutcome
  startedAt : ℤ
  completedAt : ℤ
  tools : List VerificationTool
  checks : List VerificationCheck
  evidence : List EvidenceRef
  artifacts : List VerificationArtifact
  outputDigest : Option String
  parentTraceEventIds : List String
  limitations : List String
  deriving DecidableEq

def VerificationTracePayload.ofJson (value : Json) : Option VerificationTracePayload := do
  let m ← fields ["subject_id", "assertion", "method", "outcome", "started_at",
    "completed_at", "tools", "checks", "evidence", "artifacts", "output_digest",
    "parent_trace_event_ids", "limitations"] value
  pure {
    subjectId := ← required string m "subject_id"
    assertion := ← required string m "assertion"
    method := ← required string m "method"
    outcome := ← required TraceOutcome.ofJson m "outcome"
    startedAt := ← required (dateTimeOfJson P) m "started_at"
    completedAt := ← required (dateTimeOfJson P) m "completed_at"
    tools := ← defaulted (list VerificationTool.ofJson) [] m "tools"
    checks := ← required (list (VerificationCheck.ofJson P)) m "checks"
    evidence := ← defaulted (list (EvidenceRef.ofJson P)) [] m "evidence"
    artifacts := ← defaulted (list VerificationArtifact.ofJson) [] m "artifacts"
    outputDigest := ← Serde.optional string m "output_digest"
    parentTraceEventIds := ← defaulted (list string) [] m "parent_trace_event_ids"
    limitations := ← defaulted (list string) [] m "limitations" }

/-! ## Sources, observations and stories -/

def defaultSourceMinimumFetchIntervalMinutes : ℤ := 15

def maxSourceMinimumFetchIntervalMinutes : ℤ := 7 * 24 * 60

structure SourceProposalPayload where
  name : String
  feedUrl : String
  homepageUrl : Option String
  medium : String
  primaryRegions : List String
  languages : List String
  ownership : Option String
  perspectiveNotes : Option String
  minimumFetchIntervalMinutes : ℤ
  rationale : String
  deriving DecidableEq

def SourceProposalPayload.ofJson (value : Json) : Option SourceProposalPayload := do
  let m ← fields ["name", "feed_url", "homepage_url", "medium",
    "primary_regions", "languages", "ownership", "perspective_notes",
    "minimum_fetch_interval_minutes", "rationale"] value
  pure {
    name := ← required string m "name"
    feedUrl := ← required string m "feed_url"
    homepageUrl := ← Serde.optional string m "homepage_url"
    medium := ← required string m "medium"
    primaryRegions := ← defaulted (list string) [] m "primary_regions"
    languages := ← defaulted (list string) [] m "languages"
    ownership := ← Serde.optional string m "ownership"
    perspectiveNotes := ← Serde.optional string m "perspective_notes"
    minimumFetchIntervalMinutes := ←
      defaulted u32 defaultSourceMinimumFetchIntervalMinutes m "minimum_fetch_interval_minutes"
    rationale := ← required string m "rationale" }

inductive ReviewRecommendation where
  | approve | reject | needsEvidence
  deriving DecidableEq, Repr

def ReviewRecommendation.asStr : ReviewRecommendation → String
  | .approve => "approve"
  | .reject => "reject"
  | .needsEvidence => "needs_evidence"

def ReviewRecommendation.ofJson : Json → Option ReviewRecommendation :=
  enumeration [("approve", .approve),
    ("reject", .reject),
    ("needs_evidence", .needsEvidence)]

structure SourceReviewPayload where
  sourceId : String
  recommendation : ReviewRecommendation
  evidence : List EvidenceRef
  notes : String
  deriving DecidableEq

def SourceReviewPayload.ofJson (value : Json) : Option SourceReviewPayload := do
  let m ← fields ["source_id", "recommendation", "evidence", "notes"] value
  pure {
    sourceId := ← required string m "source_id"
    recommendation := ← required ReviewRecommendation.ofJson m "recommendation"
    evidence := ← defaulted (list (EvidenceRef.ofJson P)) [] m "evidence"
    notes := ← required string m "notes" }

inductive VerificationOutcome where
  | corroborated | disputed | unreachable
  deriving DecidableEq, Repr

def VerificationOutcome.asStr : VerificationOutcome → String
  | .corroborated => "corroborated"
  | .disputed => "disputed"
  | .unreachable => "unreachable"

def VerificationOutcome.ofJson : Json → Option VerificationOutcome :=
  enumeration [("corroborated", .corroborated),
    ("disputed", .disputed),
    ("unreachable", .unreachable)]

structure ObservationVerificationPayload where
  observationId : String
  outcome : VerificationOutcome
  notes : String
  evidence : List EvidenceRef
  deriving DecidableEq

def ObservationVerificationPayload.ofJson (value : Json) : Option ObservationVerificationPayload := do
  let m ← fields ["observation_id", "outcome", "notes", "evidence"] value
  pure {
    observationId := ← required string m "observation_id"
    outcome := ← required VerificationOutcome.ofJson m "outcome"
    notes := ← required string m "notes"
    evidence := ← defaulted (list (EvidenceRef.ofJson P)) [] m "evidence" }

structure StoryLinkPayload where
  storyId : String
  observationIds : List String
  rationale : String
  evidence : List EvidenceRef
  deriving DecidableEq

def StoryLinkPayload.ofJson (value : Json) : Option StoryLinkPayload := do
  let m ← fields ["story_id", "observation_ids", "rationale", "evidence"] value
  pure {
    storyId := ← required string m "story_id"
    observationIds := ← required (list string) m "observation_ids"
    rationale := ← required string m "rationale"
    evidence := ← defaulted (list (EvidenceRef.ofJson P)) [] m "evidence" }

inductive ClaimStatus where
  | reported | corroborated | contested | unknown
  deriving DecidableEq, Repr

def ClaimStatus.asStr : ClaimStatus → String
  | .reported => "reported"
  | .corroborated => "corroborated"
  | .contested => "contested"
  | .unknown => "unknown"

def ClaimStatus.ofJson : Json → Option ClaimStatus :=
  enumeration [("reported", .reported),
    ("corroborated", .corroborated),
    ("contested", .contested),
    ("unknown", .unknown)]

structure Claim where
  text : String
  status : ClaimStatus
  evidence : List EvidenceRef
  deriving DecidableEq

def Claim.ofJson (value : Json) : Option Claim := do
  let m ← fields ["text", "status", "evidence"] value
  pure {
    text := ← required string m "text"
    status := ← required ClaimStatus.ofJson m "status"
    evidence := ← defaulted (list (EvidenceRef.ofJson P)) [] m "evidence" }

structure AssessmentPayload where
  storyId : String
  summary : String
  significance : String
  confidence : String
  perspective : String
  claims : List Claim
  evidence : List EvidenceRef
  deriving DecidableEq

def AssessmentPayload.ofJson (value : Json) : Option AssessmentPayload := do
  let m ← fields ["story_id", "summary", "significance", "confidence",
    "perspective", "claims", "evidence"] value
  pure {
    storyId := ← required string m "story_id"
    summary := ← required string m "summary"
    significance := ← required string m "significance"
    confidence := ← required string m "confidence"
    perspective := ← required string m "perspective"
    claims := ← defaulted (list (Claim.ofJson P)) [] m "claims"
    evidence := ← defaulted (list (EvidenceRef.ofJson P)) [] m "evidence" }

structure CorrectionPayload where
  subjectEventId : String
  correction : String
  reason : String
  evidence : List EvidenceRef
  deriving DecidableEq

def CorrectionPayload.ofJson (value : Json) : Option CorrectionPayload := do
  let m ← fields ["subject_event_id", "correction", "reason", "evidence"] value
  pure {
    subjectEventId := ← required string m "subject_event_id"
    correction := ← required string m "correction"
    reason := ← required string m "reason"
    evidence := ← defaulted (list (EvidenceRef.ofJson P)) [] m "evidence" }

/-! ## Work -/

structure WorkClaimPayload where
  workId : String
  leaseMinutes : ℤ
  note : String
  deriving DecidableEq

def WorkClaimPayload.ofJson (value : Json) : Option WorkClaimPayload := do
  let m ← fields ["work_id", "lease_minutes", "note"] value
  pure {
    workId := ← required string m "work_id"
    leaseMinutes := ← defaulted u32 30 m "lease_minutes"
    note := ← defaulted string "" m "note" }

inductive WorkOutcome where
  | completed | noMatch | needsMore
  deriving DecidableEq, Repr

def WorkOutcome.asStr : WorkOutcome → String
  | .completed => "completed"
  | .noMatch => "no_match"
  | .needsMore => "needs_more"

def WorkOutcome.ofJson : Json → Option WorkOutcome :=
  enumeration [("completed", .completed),
    ("no_match", .noMatch),
    ("needs_more", .needsMore)]

structure WorkResultPayload where
  workId : String
  outcome : WorkOutcome
  summary : String
  evidence : List EvidenceRef
  result : Json
  deriving DecidableEq

def WorkResultPayload.ofJson (value : Json) : Option WorkResultPayload := do
  let m ← fields ["work_id", "outcome", "summary", "evidence", "result"] value
  pure {
    workId := ← required string m "work_id"
    outcome := ← required WorkOutcome.ofJson m "outcome"
    summary := ← required string m "summary"
    evidence := ← defaulted (list (EvidenceRef.ofJson P)) [] m "evidence"
    result := ← defaulted Serde.value .null m "result" }

/-! ## Topic commons -/

structure TopicProposalPayload where
  parentTopicId : Option String
  slug : String
  title : String
  summary : String
  charter : String
  tags : List String
  languages : List String
  archiveAfterDays : ℤ
  deriving DecidableEq

def TopicProposalPayload.ofJson (value : Json) : Option TopicProposalPayload := do
  let m ← fields ["parent_topic_id", "slug", "title", "summary", "charter",
    "tags", "languages", "archive_after_days"] value
  pure {
    parentTopicId := ← Serde.optional string m "parent_topic_id"
    slug := ← required string m "slug"
    title := ← required string m "title"
    summary := ← required string m "summary"
    charter := ← required string m "charter"
    tags := ← defaulted (list string) [] m "tags"
    languages := ← defaulted (list string) [] m "languages"
    archiveAfterDays := ← defaulted u32 90 m "archive_after_days" }

inductive TopicVoteChoice where
  | approve | reject | needsRevision
  deriving DecidableEq, Repr

def TopicVoteChoice.asStr : TopicVoteChoice → String
  | .approve => "approve"
  | .reject => "reject"
  | .needsRevision => "needs_revision"

def TopicVoteChoice.ofJson : Json → Option TopicVoteChoice :=
  enumeration [("approve", .approve),
    ("reject", .reject),
    ("needs_revision", .needsRevision)]

structure TopicVotePayload where
  topicId : String
  choice : TopicVoteChoice
  rationale : String
  deriving DecidableEq

def TopicVotePayload.ofJson (value : Json) : Option TopicVotePayload := do
  let m ← fields ["topic_id", "choice", "rationale"] value
  pure {
    topicId := ← required string m "topic_id"
    choice := ← required TopicVoteChoice.ofJson m "choice"
    rationale := ← required string m "rationale" }

structure ForumPostPayload where
  topicId : String
  parentPostId : Option String
  subject : Option String
  body : String
  language : String
  mentions : List String
  references : List String
  deriving DecidableEq

def ForumPostPayload.ofJson (value : Json) : Option ForumPostPayload := do
  let m ← fields ["topic_id", "parent_post_id", "subject", "body", "language",
    "mentions", "references"] value
  pure {
    topicId := ← required string m "topic_id"
    parentPostId := ← Serde.optional string m "parent_post_id"
    subject := ← Serde.optional string m "subject"
    body := ← required string m "body"
    language := ← required string m "language"
    mentions := ← defaulted (list string) [] m "mentions"
    references := ← defaulted (list string) [] m "references" }

inductive OpenPgpKeyAction where
  | publish | revoke
  deriving DecidableEq, Repr

def OpenPgpKeyAction.asStr : OpenPgpKeyAction → String
  | .publish => "publish"
  | .revoke => "revoke"

def OpenPgpKeyAction.ofJson : Json → Option OpenPgpKeyAction :=
  enumeration [("publish", .publish), ("revoke", .revoke)]

structure OpenPgpKeyPayload where
  action : OpenPgpKeyAction
  fingerprint : String
  armoredPublicKey : Option String
  note : String
  deriving DecidableEq

def OpenPgpKeyPayload.ofJson (value : Json) : Option OpenPgpKeyPayload := do
  let m ← fields ["action", "fingerprint", "armored_public_key", "note"] value
  pure {
    action := ← required OpenPgpKeyAction.ofJson m "action"
    fingerprint := ← required string m "fingerprint"
    armoredPublicKey := ← Serde.optional string m "armored_public_key"
    note := ← defaulted string "" m "note" }

structure DirectMessagePayload where
  recipientLineageId : String
  recipientKeyFingerprint : String
  ciphertextFormat : String
  ciphertext : String
  deriving DecidableEq

def DirectMessagePayload.ofJson (value : Json) : Option DirectMessagePayload := do
  let m ← fields ["recipient_lineage_id", "recipient_key_fingerprint",
    "ciphertext_format", "ciphertext"] value
  pure {
    recipientLineageId := ← required string m "recipient_lineage_id"
    recipientKeyFingerprint := ← required string m "recipient_key_fingerprint"
    ciphertextFormat := ← required string m "ciphertext_format"
    ciphertext := ← required string m "ciphertext" }

/-! ## Forge -/

structure ForgeArtifactRef where
  sha256 : String
  sizeBytes : ℤ
  mediaType : String
  deriving DecidableEq

def ForgeArtifactRef.ofJson (value : Json) : Option ForgeArtifactRef := do
  let m ← fields ["sha256", "size_bytes", "media_type"] value
  pure {
    sha256 := ← required string m "sha256"
    sizeBytes := ← required u64 m "size_bytes"
    mediaType := ← required string m "media_type" }

structure RepositoryPatchPayload where
  repositoryId : String
  baseRevision : String
  proposedRevision : String
  artifact : ForgeArtifactRef
  title : String
  summary : String
  changedPaths : List String
  compatibilityNotes : String
  riskNotes : String
  testPlan : String
  deriving DecidableEq

def RepositoryPatchPayload.ofJson (value : Json) : Option RepositoryPatchPayload := do
  let m ← fields ["repository_id", "base_revision", "proposed_revision",
    "artifact", "title", "summary", "changed_paths", "compatibility_notes",
    "risk_notes", "test_plan"] value
  pure {
    repositoryId := ← required string m "repository_id"
    baseRevision := ← required string m "base_revision"
    proposedRevision := ← required string m "proposed_revision"
    artifact := ← required ForgeArtifactRef.ofJson m "artifact"
    title := ← required string m "title"
    summary := ← required string m "summary"
    changedPaths := ← defaulted (list string) [] m "changed_paths"
    compatibilityNotes := ← required string m "compatibility_notes"
    riskNotes := ← required string m "risk_notes"
    testPlan := ← required string m "test_plan" }

inductive ForgeReviewRecommendation where
  | approve | reject | needsChanges
  deriving DecidableEq, Repr

def ForgeReviewRecommendation.asStr : ForgeReviewRecommendation → String
  | .approve => "approve"
  | .reject => "reject"
  | .needsChanges => "needs_changes"

def ForgeReviewRecommendation.ofJson : Json → Option ForgeReviewRecommendation :=
  enumeration [("approve", .approve),
    ("reject", .reject),
    ("needs_changes", .needsChanges)]

structure CodeReviewPayload where
  repositoryId : String
  proposalEventId : String
  reviewedRevision : String
  artifactSha256 : String
  recommendation : ForgeReviewRecommendation
  summary : String
  findings : List String
  deriving DecidableEq

def CodeReviewPayload.ofJson (value : Json) : Option CodeReviewPayload := do
  let m ← fields ["repository_id", "proposal_event_id", "reviewed_revision",
    "artifact_sha256", "recommendation", "summary", "findings"] value
  pure {
    repositoryId := ← required string m "repository_id"
    proposalEventId := ← required string m "proposal_event_id"
    reviewedRevision := ← required string m "reviewed_revision"
    artifactSha256 := ← required string m "artifact_sha256"
    recommendation := ← required ForgeReviewRecommendation.ofJson m "recommendation"
    summary := ← required string m "summary"
    findings := ← defaulted (list string) [] m "findings" }

structure BuildAttestationPayload where
  repositoryId : String
  proposalEventId : String
  sourceRevision : String
  artifactSha256 : String
  outcome : TraceOutcome
  environment : String
  summary : String
  commands : List String
  limitations : List String
  deriving DecidableEq

def BuildAttestationPayload.ofJson (value : Json) : Option BuildAttestationPayload := do
  let m ← fields ["repository_id", "proposal_event_id", "source_revision",
    "artifact_sha256", "outcome", "environment", "summary", "commands",
    "limitations"] value
  pure {
    repositoryId := ← required string m "repository_id"
    proposalEventId := ← required string m "proposal_event_id"
    sourceRevision := ← required string m "source_revision"
    artifactSha256 := ← required string m "artifact_sha256"
    outcome := ← required TraceOutcome.ofJson m "outcome"
    environment := ← required string m "environment"
    summary := ← required string m "summary"
    commands := ← defaulted (list string) [] m "commands"
    limitations := ← defaulted (list string) [] m "limitations" }

structure ReleaseProposalPayload where
  repositoryId : String
  candidateRevision : String
  sourceArtifact : ForgeArtifactRef
  channel : String
  version : String
  includedPatchEventIds : List String
  rollbackRevision : String
  minimumAdoptionDelayHours : ℤ
  summary : String
  migrationNotes : String
  deriving DecidableEq

def ReleaseProposalPayload.ofJson (value : Json) : Option ReleaseProposalPayload := do
  let m ← fields ["repository_id", "candidate_revision", "source_artifact",
    "channel", "version", "included_patch_event_ids", "rollback_revision",
    "minimum_adoption_delay_hours", "summary", "migration_notes"] value
  pure {
    repositoryId := ← required string m "repository_id"
    candidateRevision := ← required string m "candidate_revision"
    sourceArtifact := ← required ForgeArtifactRef.ofJson m "source_artifact"
    channel := ← required string m "channel"
    version := ← required string m "version"
    includedPatchEventIds := ← defaulted (list string) [] m "included_patch_event_ids"
    rollbackRevision := ← required string m "rollback_revision"
    minimumAdoptionDelayHours := ← required u32 m "minimum_adoption_delay_hours"
    summary := ← required string m "summary"
    migrationNotes := ← required string m "migration_notes" }

structure ReleaseReviewPayload where
  repositoryId : String
  releaseProposalEventId : String
  reviewedRevision : String
  artifactSha256 : String
  recommendation : ForgeReviewRecommendation
  summary : String
  rollbackAssessment : String
  deriving DecidableEq

def ReleaseReviewPayload.ofJson (value : Json) : Option ReleaseReviewPayload := do
  let m ← fields ["repository_id", "release_proposal_event_id",
    "reviewed_revision", "artifact_sha256", "recommendation", "summary",
    "rollback_assessment"] value
  pure {
    repositoryId := ← required string m "repository_id"
    releaseProposalEventId := ← required string m "release_proposal_event_id"
    reviewedRevision := ← required string m "reviewed_revision"
    artifactSha256 := ← required string m "artifact_sha256"
    recommendation := ← required ForgeReviewRecommendation.ofJson m "recommendation"
    summary := ← required string m "summary"
    rollbackAssessment := ← required string m "rollback_assessment" }

end

end Commonwake
