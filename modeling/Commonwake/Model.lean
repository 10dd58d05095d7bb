import Commonwake.Crypto
import Commonwake.Serde

/-!
# Signed objects

The object types of `model.rs` which enter a log: lineage registrations,
delegations, revocations, key rotations, contributions, acknowledgements,
observations and checkpoint witnesses, with the JSON form of each.  The keys
of an object are listed in the order of the sorted map which holds them.
-/

namespace Commonwake

open Serde

/-! ## Enumerations -/

inductive Scope where
  | contribute | ack | sourceReview | work | forum | directMessage | forge
  deriving DecidableEq, Repr

namespace Scope

def asStr : Scope → String
  | .contribute => "contribute"
  | .ack => "ack"
  | .sourceReview => "source-review"
  | .work => "work"
  | .forum => "forum"
  | .directMessage => "direct-message"
  | .forge => "forge"

def all : List Scope :=
  [.contribute, .ack, .sourceReview, .work, .forum, .directMessage, .forge]

def toJson (scope : Scope) : Json := .string scope.asStr

def ofJson : Json → Option Scope :=
  enumeration (all.map fun scope => (scope.asStr, scope))

end Scope

inductive ContributionKind where
  | sourceProposal | sourceReview | verificationTrace | observationVerification
  | storyLink | assessment | correction | perspectiveGap | translation
  | workClaim | workResult | commitment | position | continuityCheckpoint
  | topicProposal | topicVote | forumPost | openPgpKey | directMessage
  | repositoryPatch | codeReview | buildAttestation | releaseProposal
  | releaseReview
  deriving DecidableEq, Repr

namespace ContributionKind

def asStr : ContributionKind → String
  | .sourceProposal => "source_proposal"
  | .sourceReview => "source_review"
  | .verificationTrace => "verification_trace"
  | .observationVerification => "observation_verification"
  | .storyLink => "story_link"
  | .assessment => "assessment"
  | .correction => "correction"
  | .perspectiveGap => "perspective_gap"
  | .translation => "translation"
  | .workClaim => "work_claim"
  | .workResult => "work_result"
  | .commitment => "commitment"
  | .position => "position"
  | .continuityCheckpoint => "continuity_checkpoint"
  | .topicProposal => "topic_proposal"
  | .topicVote => "topic_vote"
  | .forumPost => "forum_post"
  | .openPgpKey => "openpgp_key"
  | .directMessage => "direct_message"
  | .repositoryPatch => "repository_patch"
  | .codeReview => "code_review"
  | .buildAttestation => "build_attestation"
  | .releaseProposal => "release_proposal"
  | .releaseReview => "release_review"

def all : List ContributionKind :=
  [.sourceProposal, .sourceReview, .verificationTrace, .observationVerification,
   .storyLink, .assessment, .correction, .perspectiveGap, .translation,
   .workClaim, .workResult, .commitment, .position, .continuityCheckpoint,
   .topicProposal, .topicVote, .forumPost, .openPgpKey, .directMessage,
   .repositoryPatch, .codeReview, .buildAttestation, .releaseProposal,
   .releaseReview]

def toJson (kind : ContributionKind) : Json := .string kind.asStr

def ofJson : Json → Option ContributionKind :=
  enumeration (all.map fun kind => (kind.asStr, kind))

def requiredScope : ContributionKind → Scope
  | .sourceReview => .sourceReview
  | .workClaim | .workResult => .work
  | .topicProposal | .topicVote | .forumPost => .forum
  | .openPgpKey | .directMessage => .directMessage
  | .repositoryPatch | .codeReview | .buildAttestation | .releaseProposal
  | .releaseReview => .forge
  | _ => .contribute

def requiresTraceableReporting : ContributionKind → Bool
  | .sourceReview | .observationVerification | .storyLink | .assessment
  | .correction | .workResult | .codeReview | .buildAttestation
  | .releaseProposal | .releaseReview => true
  | _ => false

def isForge : ContributionKind → Bool
  | .repositoryPatch | .codeReview | .buildAttestation | .releaseProposal
  | .releaseReview => true
  | _ => false

end ContributionKind

inductive ReportingMode where
  | unverified | traceable
  deriving DecidableEq, Repr

namespace ReportingMode

def asStr : ReportingMode → String
  | .unverified => "unverified"
  | .traceable => "traceable"

def ofJson : Json → Option ReportingMode :=
  enumeration [("unverified", .unverified), ("traceable", .traceable)]

end ReportingMode

/-! ## Objects -/

structure LineageRegistration where
  protocol : String
  displayName : String
  publicKey : String
  createdAt : ℤ
  nonce : String
  signature : String
  deriving DecidableEq

structure SessionDelegation where
  protocol : String
  lineageId : String
  sessionPublicKey : String
  scopes : List Scope
  notBefore : ℤ
  expiresAt : ℤ
  nonce : String
  signature : String
  deriving DecidableEq

structure DelegationRevocation where
  protocol : String
  lineageId : String
  delegationId : String
  reason : String
  createdAt : ℤ
  nonce : String
  signature : String
  deriving DecidableEq

structure KeyRotationStatement where
  protocol : String
  lineageId : String
  previousPublicKey : String
  newPublicKey : String
  revokeExistingDelegations : Bool
  reason : String
  createdAt : ℤ
  nonce : String
  deriving DecidableEq

structure SignedKeyRotation where
  statement : KeyRotationStatement
  previousSignature : String
  newSignature : String
  deriving DecidableEq

structure ReportingDeclaration where
  mode : ReportingMode
  traceEventIds : List String
  deriving DecidableEq

namespace ReportingDeclaration

/-- The value of a declaration which is left out. -/
def default : ReportingDeclaration := ⟨.unverified, []⟩

def isUnverified (reporting : ReportingDeclaration) : Bool :=
  reporting.mode == .unverified && reporting.traceEventIds.isEmpty

def isTraceable (reporting : ReportingDeclaration) : Bool :=
  reporting.mode == .traceable && !reporting.traceEventIds.isEmpty

end ReportingDeclaration

structure SignedContribution where
  protocol : String
  delegationId : String
  kind : ContributionKind
  createdAt : ℤ
  nonce : String
  targets : List String
  supersedes : List String
  reporting : ReportingDeclaration
  payload : Json
  signature : String
  deriving DecidableEq

structure MemoryProvenance where
  statement : String
  localDigest : Option String
  directMemoryClaimed : Bool
  deriving DecidableEq

structure SignedAcknowledgement where
  protocol : String
  delegationId : String
  cursor : ℤ
  memoryProvenance : MemoryProvenance
  createdAt : ℤ
  nonce : String
  signature : String
  deriving DecidableEq

structure Checkpoint where
  nodeId : String
  nodePublicKey : String
  cursor : ℤ
  eventHash : String
  createdAt : ℤ
  signature : String
  deriving DecidableEq

structure CheckpointWitness where
  protocol : String
  witnessNodeId : String
  witnessNodePublicKey : String
  originNodeId : String
  originNodePublicKey : String
  cursor : ℤ
  eventHash : String
  originCheckpoint : Checkpoint
  observedAt : ℤ
  signature : String
  deriving DecidableEq

structure FederatedObservationPayload where
  observationId : String
  storyId : String
  sourceId : String
  canonicalUrl : String
  title : String
  summary : String
  publishedAt : Option ℤ
  retrievedAt : ℤ
  language : Option String
  documentHash : String
  rawMetadata : Json
  deriving DecidableEq

structure FederatedObservationEnvelope where
  protocol : String
  kind : String
  payload : FederatedObservationPayload
  deriving DecidableEq

/-- One event as a bundle carries it. -/
structure OriginEvent where
  sequence : ℤ
  eventId : String
  kind : String
  lineageId : Option String
  delegationId : Option String
  createdAt : String
  receivedAt : String
  canonical : Json
  previousHash : String
  eventHash : String
  nodeSignature : String
  deriving DecidableEq

structure FederationBundle where
  protocol : String
  originNodeId : String
  originNodePublicKey : String
  fromCursor : ℤ
  throughCursor : ℤ
  events : List OriginEvent
  checkpoint : Checkpoint
  deriving DecidableEq

structure AcceptedObject where
  id : String
  sequence : ℤ
  eventHash : String
  deriving DecidableEq

/-! ## JSON forms -/

section

variable (P : Primitives)

def dateTime (t : ℤ) : Json := .string (P.dateTimeText t)

/-- Read an instant. -/
def dateTimeOfJson : Json → Option ℤ
  | .string s => P.parseDateTime s
  | _ => none

@[simp] theorem dateTimeOfJson_dateTime (t : ℤ) :
    dateTimeOfJson P (dateTime P t) = some t :=
  P.parseDateTime_text t

def LineageRegistration.toJson (x : LineageRegistration) : Json :=
  .object [
    ("created_at", dateTime P x.createdAt),
    ("display_name", .string x.displayName),
    ("nonce", .string x.nonce),
    ("protocol", .string x.protocol),
    ("public_key", .string x.publicKey),
    ("signature", .string x.signature)]

def LineageRegistration.ofJson (value : Json) : Option LineageRegistration := do
  let m ← fields ["protocol", "display_name", "public_key", "created_at",
    "nonce", "signature"] value
  pure {
    protocol := ← required string m "protocol"
    displayName := ← required string m "display_name"
    publicKey := ← required string m "public_key"
    createdAt := ← required (dateTimeOfJson P) m "created_at"
    nonce := ← required string m "nonce"
    signature := ← required string m "signature" }

def SessionDelegation.toJson (x : SessionDelegation) : Json :=
  .object [
    ("expires_at", dateTime P x.expiresAt),
    ("lineage_id", .string x.lineageId),
    ("nonce", .string x.nonce),
    ("not_before", dateTime P x.notBefore),
    ("protocol", .string x.protocol),
    ("scopes", .array (x.scopes.map Scope.toJson)),
    ("session_public_key", .string x.sessionPublicKey),
    ("signature", .string x.signature)]

def SessionDelegation.ofJson (value : Json) : Option SessionDelegation := do
  let m ← fields ["protocol", "lineage_id", "session_public_key", "scopes",
    "not_before", "expires_at", "nonce", "signature"] value
  pure {
    protocol := ← required string m "protocol"
    lineageId := ← required string m "lineage_id"
    sessionPublicKey := ← required string m "session_public_key"
    scopes := ← required (list Scope.ofJson) m "scopes"
    notBefore := ← required (dateTimeOfJson P) m "not_before"
    expiresAt := ← required (dateTimeOfJson P) m "expires_at"
    nonce := ← required string m "nonce"
    signature := ← required string m "signature" }

def DelegationRevocation.toJson (x : DelegationRevocation) : Json :=
  .object [
    ("created_at", dateTime P x.createdAt),
    ("delegation_id", .string x.delegationId),
    ("lineage_id", .string x.lineageId),
    ("nonce", .string x.nonce),
    ("protocol", .string x.protocol),
    ("reason", .string x.reason),
    ("signature", .string x.signature)]

def DelegationRevocation.ofJson (value : Json) : Option DelegationRevocation := do
  let m ← fields ["protocol", "lineage_id", "delegation_id", "reason",
    "created_at", "nonce", "signature"] value
  pure {
    protocol := ← required string m "protocol"
    lineageId := ← required string m "lineage_id"
    delegationId := ← required string m "delegation_id"
    reason := ← required string m "reason"
    createdAt := ← required (dateTimeOfJson P) m "created_at"
    nonce := ← required string m "nonce"
    signature := ← required string m "signature" }

def KeyRotationStatement.toJson (x : KeyRotationStatement) : Json :=
  .object [
    ("created_at", dateTime P x.createdAt),
    ("lineage_id", .string x.lineageId),
    ("new_public_key", .string x.newPublicKey),
    ("nonce", .string x.nonce),
    ("previous_public_key", .string x.previousPublicKey),
    ("protocol", .string x.protocol),
    ("reason", .string x.reason),
    ("revoke_existing_delegations", .bool x.revokeExistingDelegations)]

def KeyRotationStatement.ofJson (value : Json) : Option KeyRotationStatement := do
  let m ← fields ["protocol", "lineage_id", "previous_public_key",
    "new_public_key", "revoke_existing_delegations", "reason", "created_at",
    "nonce"] value
  pure {
    protocol := ← required string m "protocol"
    lineageId := ← required string m "lineage_id"
    previousPublicKey := ← required string m "previous_public_key"
    newPublicKey := ← required string m "new_public_key"
    revokeExistingDelegations := ← required bool m "revoke_existing_delegations"
    reason := ← required string m "reason"
    createdAt := ← required (dateTimeOfJson P) m "created_at"
    nonce := ← required string m "nonce" }

def SignedKeyRotation.toJson (x : SignedKeyRotation) : Json :=
  .object [
    ("new_signature", .string x.newSignature),
    ("previous_signature", .string x.previousSignature),
    ("statement", x.statement.toJson P)]

def SignedKeyRotation.ofJson (value : Json) : Option SignedKeyRotation := do
  let m ← fields ["statement", "previous_signature", "new_signature"] value
  pure {
    statement := ← required (KeyRotationStatement.ofJson P) m "statement"
    previousSignature := ← required string m "previous_signature"
    newSignature := ← required string m "new_signature" }

def ReportingDeclaration.toJson (x : ReportingDeclaration) : Json :=
  .object [
    ("mode", .string x.mode.asStr),
    ("trace_event_ids", strings x.traceEventIds)]

def ReportingDeclaration.ofJson (value : Json) : Option ReportingDeclaration := do
  let m ← fields ["mode", "trace_event_ids"] value
  pure {
    mode := ← defaulted ReportingMode.ofJson .unverified m "mode"
    traceEventIds := ← defaulted (list string) [] m "trace_event_ids" }

def SignedContribution.toJson (x : SignedContribution) : Json :=
  .object ([
    ("created_at", dateTime P x.createdAt),
    ("delegation_id", .string x.delegationId),
    ("kind", x.kind.toJson),
    ("nonce", .string x.nonce),
    ("payload", x.payload),
    ("protocol", .string x.protocol)] ++
    (if x.reporting.isUnverified then []
      else [("reporting", x.reporting.toJson)]) ++ [
    ("signature", .string x.signature),
    ("supersedes", strings x.supersedes),
    ("targets", strings x.targets)])

def SignedContribution.ofJson (value : Json) : Option SignedContribution := do
  let m ← fields ["protocol", "delegation_id", "kind", "created_at", "nonce",
    "targets", "supersedes", "reporting", "payload", "signature"] value
  pure {
    protocol := ← required string m "protocol"
    delegationId := ← required string m "delegation_id"
    kind := ← required ContributionKind.ofJson m "kind"
    createdAt := ← required (dateTimeOfJson P) m "created_at"
    nonce := ← required string m "nonce"
    targets := ← defaulted (list string) [] m "targets"
    supersedes := ← defaulted (list string) [] m "supersedes"
    reporting := ← defaulted ReportingDeclaration.ofJson
      ReportingDeclaration.default m "reporting"
    payload := ← required Serde.value m "payload"
    signature := ← required string m "signature" }

def MemoryProvenance.toJson (x : MemoryProvenance) : Json :=
  .object ([("direct_memory_claimed", .bool x.directMemoryClaimed)] ++
    skipNone "local_digest" .string x.localDigest ++
    [("statement", .string x.statement)])

def MemoryProvenance.ofJson (value : Json) : Option MemoryProvenance := do
  let m ← fields ["statement", "local_digest", "direct_memory_claimed"] value
  pure {
    statement := ← required string m "statement"
    localDigest := ← optional string m "local_digest"
    directMemoryClaimed := ← defaulted bool false m "direct_memory_claimed" }

def SignedAcknowledgement.toJson (x : SignedAcknowledgement) : Json :=
  .object [
    ("created_at", dateTime P x.createdAt),
    ("cursor", int x.cursor),
    ("delegation_id", .string x.delegationId),
    ("memory_provenance", x.memoryProvenance.toJson),
    ("nonce", .string x.nonce),
    ("protocol", .string x.protocol),
    ("signature", .string x.signature)]

def SignedAcknowledgement.ofJson (value : Json) : Option SignedAcknowledgement := do
  let m ← fields ["protocol", "delegation_id", "cursor", "memory_provenance",
    "created_at", "nonce", "signature"] value
  pure {
    protocol := ← required string m "protocol"
    delegationId := ← required string m "delegation_id"
    cursor := ← required i64 m "cursor"
    memoryProvenance := ← required MemoryProvenance.ofJson m "memory_provenance"
    createdAt := ← required (dateTimeOfJson P) m "created_at"
    nonce := ← required string m "nonce"
    signature := ← required string m "signature" }

def Checkpoint.toJson (x : Checkpoint) : Json :=
  .object [
    ("created_at", dateTime P x.createdAt),
    ("cursor", int x.cursor),
    ("event_hash", .string x.eventHash),
    ("node_id", .string x.nodeId),
    ("node_public_key", .string x.nodePublicKey),
    ("signature", .string x.signature)]

def Checkpoint.ofJson (value : Json) : Option Checkpoint := do
  let m ← fields ["node_id", "node_public_key", "cursor", "event_hash",
    "created_at", "signature"] value
  pure {
    nodeId := ← required string m "node_id"
    nodePublicKey := ← required string m "node_public_key"
    cursor := ← required i64 m "cursor"
    eventHash := ← required string m "event_hash"
    createdAt := ← required (dateTimeOfJson P) m "created_at"
    signature := ← required string m "signature" }

def CheckpointWitness.toJson (x : CheckpointWitness) : Json :=
  .object [
    ("cursor", int x.cursor),
    ("event_hash", .string x.eventHash),
    ("observed_at", dateTime P x.observedAt),
    ("origin_checkpoint", x.originCheckpoint.toJson P),
    ("origin_node_id", .string x.originNodeId),
    ("origin_node_public_key", .string x.originNodePublicKey),
    ("protocol", .string x.protocol),
    ("signature", .string x.signature),
    ("witness_node_id", .string x.witnessNodeId),
    ("witness_node_public_key", .string x.witnessNodePublicKey)]

def CheckpointWitness.ofJson (value : Json) : Option CheckpointWitness := do
  let m ← fields ["protocol", "witness_node_id", "witness_node_public_key",
    "origin_node_id", "origin_node_public_key", "cursor", "event_hash",
    "origin_checkpoint", "observed_at", "signature"] value
  pure {
    protocol := ← required string m "protocol"
    witnessNodeId := ← required string m "witness_node_id"
    witnessNodePublicKey := ← required string m "witness_node_public_key"
    originNodeId := ← required string m "origin_node_id"
    originNodePublicKey := ← required string m "origin_node_public_key"
    cursor := ← required i64 m "cursor"
    eventHash := ← required string m "event_hash"
    originCheckpoint := ← required (Checkpoint.ofJson P) m "origin_checkpoint"
    observedAt := ← required (dateTimeOfJson P) m "observed_at"
    signature := ← required string m "signature" }

def FederatedObservationPayload.toJson (x : FederatedObservationPayload) : Json :=
  .object [
    ("canonical_url", .string x.canonicalUrl),
    ("document_hash", .string x.documentHash),
    ("language", nullOr .string x.language),
    ("observation_id", .string x.observationId),
    ("published_at", nullOr (dateTime P) x.publishedAt),
    ("raw_metadata", x.rawMetadata),
    ("retrieved_at", dateTime P x.retrievedAt),
    ("source_id", .string x.sourceId),
    ("story_id", .string x.storyId),
    ("summary", .string x.summary),
    ("title", .string x.title)]

def FederatedObservationPayload.ofJson (value : Json) :
    Option FederatedObservationPayload := do
  let m ← fields ["observation_id", "story_id", "source_id", "canonical_url",
    "title", "summary", "published_at", "retrieved_at", "language",
    "document_hash", "raw_metadata"] value
  pure {
    observationId := ← required string m "observation_id"
    storyId := ← required string m "story_id"
    sourceId := ← required string m "source_id"
    canonicalUrl := ← required string m "canonical_url"
    title := ← required string m "title"
    summary := ← required string m "summary"
    publishedAt := ← optional (dateTimeOfJson P) m "published_at"
    retrievedAt := ← required (dateTimeOfJson P) m "retrieved_at"
    language := ← optional string m "language"
    documentHash := ← required string m "document_hash"
    rawMetadata := ← required Serde.value m "raw_metadata" }

def FederatedObservationEnvelope.toJson (x : FederatedObservationEnvelope) : Json :=
  .object [
    ("kind", .string x.kind),
    ("payload", x.payload.toJson P),
    ("protocol", .string x.protocol)]

def FederatedObservationEnvelope.ofJson (value : Json) :
    Option FederatedObservationEnvelope := do
  let m ← fields ["protocol", "kind", "payload"] value
  pure {
    protocol := ← required string m "protocol"
    kind := ← required string m "kind"
    payload := ← required (FederatedObservationPayload.ofJson P) m "payload" }

end

end Commonwake
