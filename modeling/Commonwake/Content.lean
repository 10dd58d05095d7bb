import Commonwake.CursorText
import Commonwake.Payloads

/-!
# Checks on the content of an object

The validators which look at an object alone: those of `service.rs` and
`forge.rs`, and `validate_contribution_content` of `db.rs` with everything it
calls.  A node and an importer run the same checks on the same object; the
two sides differ only in the instant against which they compare times.
-/

namespace Commonwake

open Outcome

/-! ## Texts -/

/-- `str::strip_prefix`. -/
def stripTag (tag text : String) : Option String :=
  if (chars tag).isPrefixOf (chars text)
  then some (String.ofList ((chars text).drop (chars tag).length)) else none

theorem stripTag_append (tag rest : String) : stripTag tag (tag ++ rest) = some rest := by
  have hchars : chars (tag ++ rest) = chars tag ++ chars rest := by simp
  unfold stripTag
  rw [hchars, if_pos (List.isPrefixOf_iff_prefix.mpr (List.prefix_append _ _)),
    List.drop_left, chars_eq, String.ofList_toList]

def startsWith (text start : String) : Bool :=
  (chars start).isPrefixOf (chars text)

def endsWith (text ending : String) : Bool :=
  (chars ending).isSuffixOf (chars text)

/-- `str::contains` for a text. -/
def containsText (text part : String) : Bool :=
  (chars text).tails.any fun rest => (chars part).isPrefixOf rest

/-- Is the count in the closed range? -/
def inRange (low high count : ℕ) : Bool := decide (low ≤ count ∧ count ≤ high)

/-- A text which is present must satisfy the test. -/
def presentAnd (test : String → Bool) (value : Option String) : Bool :=
  match value with
  | some text => test text
  | none => false

def isSha256Hex (value : String) : Bool :=
  byteLen value == 64 && (chars value).all isLowerHex

theorem byteLen_sha256Hex (P : Primitives) (bytes : Bytes) :
    byteLen (P.sha256Hex bytes) = 64 := by
  rw [byteLen, Primitives.sha256Hex, CursorText.length_utf8_encode, P.sha256_length]

theorem isSha256Hex_sha256Hex (P : Primitives) (bytes : Bytes) :
    isSha256Hex (P.sha256Hex bytes) = true := by
  unfold isSha256Hex
  rw [byteLen_sha256Hex, Bool.and_eq_true, List.all_eq_true]
  refine ⟨rfl, ?_⟩
  intro c hc
  obtain ⟨value, hvalue, rfl⟩ := CursorText.mem_chars_encode hc
  have hlower : ∀ value < 16, isLowerHex (HexText.digit value) = true := by decide
  exact hlower value hvalue

/-! ## Envelopes -/

section

variable (P : Primitives)

def maxClockSkewMinutes : ℤ := 5

def maxDelegationDays : ℤ := 30

/-- The tolerated difference between two clocks. -/
def clockSkew : ℤ := minutes maxClockSkewMinutes

def requireProtocol (protocol : String) : Result Unit :=
  rejectIf (protocol ≠ protocolVersion)
    (.validation s!"unsupported protocol {protocol}; expected {protocolVersion}")

def validateDisplayName (displayName : String) : Result Unit :=
  rejectIf (byteLen (trim displayName) < 2 ∨ byteLen (trim displayName) > 80)
    (.validation "display_name must contain 2 to 80 characters")

def requireNonce (nonce : String) : Result Unit := do
  rejectIf (byteLen nonce < 16 ∨ byteLen nonce > 128)
    (.validation "nonce must contain 16 to 128 base64url characters")
  rejectIf (((chars nonce).all fun c =>
      isAsciiAlphanumeric c || c == '-' || c == '_') = false)
    (.validation "nonce must use unpadded base64url characters")

def requireControlReason (reason : String) : Result Unit :=
  rejectIf (trim reason = "" ∨ byteLen (trim reason) > 1000)
    (.validation "authority change reason must contain 1 to 1000 characters")

def validateAuthoredTimeAt (createdAt acceptedAt : ℤ) : Result Unit :=
  rejectIf (createdAt > acceptedAt + clockSkew)
    (.validation "signed object is too far in the future")

def validateAuthorityChangeAt (nonce reason : String) (createdAt acceptedAt : ℤ) :
    Result Unit := do
  requireNonce nonce
  requireControlReason reason
  validateAuthoredTimeAt createdAt acceptedAt

def validateDelegationAt (delegation : SessionDelegation) (acceptedAt : ℤ) :
    Result Unit := do
  requireNonce delegation.nonce
  rejectIf (delegation.scopes = [])
    (.validation "delegation must grant at least one scope")
  rejectIf (allDistinct delegation.scopes = false)
    (.validation "delegation scopes must be unique")
  rejectIf (delegation.expiresAt ≤ delegation.notBefore)
    (.validation "delegation expiry must be after its start")
  rejectIf (delegation.expiresAt - delegation.notBefore > days maxDelegationDays)
    (.validation s!"delegation lifetime cannot exceed {maxDelegationDays} days")
  rejectIf (delegation.notBefore > acceptedAt + clockSkew)
    (.validation "delegation starts too far in the future")
  let _ ← P.verifyingKeyFromB64 delegation.sessionPublicKey
  pure ()

def validateMemoryProvenance (statement : String) : Result Unit :=
  rejectIf (trim statement = "")
    (.validation "memory provenance statement is required")

def validateLists (targets supersedes : List String) : Result Unit := do
  rejectIf (targets.length > 32 ∨ supersedes.length > 32)
    (.validation "targets and supersedes are limited to 32 entries each")
  rejectIf ((targets.any fun value => byteLen value > 160) ∨
      (supersedes.any fun value => byteLen value > 160))
    (.validation "target and supersession identifiers are limited to 160 characters")

/-! ## Routing -/

def requireExactTargets (actual expected : List String) (label : String) :
    Result Unit :=
  rejectIf (allDistinct actual = false ∨ allDistinct expected = false ∨
      (actual.all expected.contains && expected.all actual.contains) = false)
    (.validation s!"{label} targets must exactly match its routed protocol identifiers")

def requireNoSupersessions (contribution : SignedContribution) (label : String) :
    Result Unit :=
  rejectIf (contribution.supersedes ≠ [])
    (.validation s!"{label} is immutable and cannot supersede another event")

def requirePreviousSuperseded (contribution : SignedContribution)
    (previousEventId : Option String) (label : String) : Result Unit :=
  match previousEventId with
  | some previous =>
      rejectIf (contribution.supersedes ≠ [previous])
        (.validation s!"an updated {label} must supersede exactly its previous same-origin event")
  | none =>
      rejectIf (contribution.supersedes ≠ [])
        (.validation s!"a first {label} cannot supersede an unknown event")

/-! ## Identifiers, lists and evidence -/

def validatePrefixedIdentifier (value tag label : String) : Result Unit := do
  let digest ← okOr (stripTag tag value)
    (.validation s!"{label} identifier must begin with {tag}")
  rejectIf (isSha256Hex digest = false)
    (.validation s!"{label} identifier must contain a 64-character lowercase hexadecimal digest")

def validateForumReference (value : String) : Result Unit := do
  let tag ← okOr
    (["cwevt_", "cwsrc_", "cwobs_", "cwstory_", "cwwork_", "cwtopic_", "cwpost_"].find?
      (startsWith value))
    (.validation "forum references must name an event, source, observation, story, work item, topic, or post")
  validatePrefixedIdentifier value tag "forum reference"

def coverageKey (value : String) : String := P.toLowercase (trim value)

def validateUniqueLabels (values : List String) (maximumCount maximumLength : ℕ)
    (required : Bool) (label : String) : Result Unit := do
  rejectIf ((required = true ∧ values = []) ∨ values.length > maximumCount)
    (.validation s!"{label} must contain {required.toNat} to {maximumCount} values")
  rejectIf (values.any fun value => trim value = "" || charCount value > maximumLength)
    (.validation s!"{label} values must contain 1 to {maximumLength} characters")
  rejectIf (allDistinct (values.map (coverageKey P)) = false)
    (.validation s!"{label} values must be unique")

def validateOpenPgpFingerprint (fingerprint : String) : Result Unit :=
  rejectIf (¬ (byteLen fingerprint = 40 ∨ byteLen fingerprint = 64) ∨
      (chars fingerprint).all isUpperHex = false)
    (.validation "OpenPGP fingerprint must be an uppercase 40- or 64-character hexadecimal value")

def validateAsciiArmor (value start ending : String) (maximumBytes : ℕ)
    (label : String) : Result Unit := do
  let trimmed := trim value
  rejectIf (byteLen trimmed > maximumBytes ∨ startsWith trimmed start = false ∨
      endsWith trimmed ending = false)
    (.validation s!"{label} must be a complete ASCII-armored block of at most {maximumBytes} bytes")
  rejectIf (((chars trimmed).all fun c => c.toNat < 128) = false)
    (.validation s!"{label} must contain ASCII armor only")

/-- A public address without credentials, in normal form and without its
fragment. -/
def normalizeHttpUrl (value : String) : Result String := do
  let url ← okOr (P.parseUrl value) (.validation s!"invalid URL: {value}")
  rejectIf (¬ (url.scheme = "http" ∨ url.scheme = "https"))
    (.validation "source URLs must use HTTP or HTTPS")
  rejectIf (url.host = none) (.validation "source URL must have a host")
  rejectIf (url.username ≠ "" ∨ url.password ≠ none)
    (.validation "public source URLs cannot contain credentials")
  pure url.withoutFragment

def validateEvidenceRefs (evidence : List EvidenceRef) (required : Bool) :
    Result Unit := do
  rejectIf (required = true ∧ evidence = [])
    (.validation "this contribution requires public evidence")
  rejectIf (evidence.length > 64)
    (.validation "evidence lists are limited to 64 references")
  forEach (fun reference : EvidenceRef => do
    rejectIf (byteLen reference.url > 2048)
      (.validation "evidence URLs are limited to 2048 characters")
    let _ ← normalizeHttpUrl P reference.url
    rejectIf (presentAnd (fun title => byteLen title > 500) reference.title ∨
        presentAnd (fun digest => byteLen digest > 256) reference.digest)
      (.validation "evidence title or digest exceeds its protocol bound")) evidence

def validateBoundedText (value : String) (minimumChars maximumChars : ℕ)
    (label : String) : Result Unit :=
  rejectIf (inRange minimumChars maximumChars (charCount (trim value)) = false)
    (.validation s!"{label} must contain {minimumChars} to {maximumChars} characters")

def validateBoundedList (values : List String) (maximumCount maximumChars : ℕ)
    (label : String) : Result Unit :=
  rejectIf (values.length > maximumCount ∨
      (values.any fun value => trim value = "" || charCount value > maximumChars))
    (.validation s!"{label} must contain at most {maximumCount} non-empty values of at most {maximumChars} characters")

/-- Lower-case letters, digits and single hyphens inside. -/
def isSlug (minimum maximum : ℕ) (value : String) : Bool :=
  inRange minimum maximum (byteLen value) &&
    (chars value).head? != some '-' && (chars value).getLast? != some '-' &&
    !containsText value "--" &&
    (chars value).all fun c => ('a' ≤ c && c ≤ 'z') || isDigit c || c == '-'

def validateSlug (value : String) (minimum maximum : ℕ) (label : String) :
    Result Unit :=
  rejectIf (isSlug minimum maximum value = false)
    (.validation s!"{label} must be a bounded lowercase slug")

def validateSha256Value (value label : String) : Result Unit :=
  rejectIf (isSha256Hex value = false)
    (.validation s!"{label} must be a 64-character lowercase hexadecimal digest")

/-! ## Sources and verification traces -/

def validateCoverageValues (label : String) (values : List String) :
    Result Unit := do
  rejectIf (values.any fun value => trim value = "" || byteLen value > 80)
    (.validation s!"source {label} values must contain 1 to 80 characters")
  rejectIf (allDistinct (values.map (coverageKey P)) = false)
    (.validation s!"source {label} values must be unique")

def validateSourceProposal (payload : SourceProposalPayload) : Result Unit := do
  rejectIf (byteLen (trim payload.name) < 2 ∨ byteLen payload.name > 160)
    (.validation "source name must contain 2 to 160 characters")
  let _ ← normalizeHttpUrl P payload.feedUrl
  match payload.homepageUrl with
  | some homepage => let _ ← normalizeHttpUrl P homepage
  | none => pure ()
  rejectIf (byteLen (trim payload.medium) < 2 ∨ byteLen payload.medium > 160)
    (.validation "source medium must contain 2 to 160 characters")
  rejectIf (payload.minimumFetchIntervalMinutes <
        defaultSourceMinimumFetchIntervalMinutes ∨
      maxSourceMinimumFetchIntervalMinutes < payload.minimumFetchIntervalMinutes)
    (.validation s!"source minimum_fetch_interval_minutes must be between {defaultSourceMinimumFetchIntervalMinutes} and {maxSourceMinimumFetchIntervalMinutes}")
  rejectIf (payload.primaryRegions = [] ∨ payload.primaryRegions.length > 32)
    (.validation "source proposal must declare 1 to 32 regions or coverage tags")
  rejectIf (payload.languages = [] ∨ payload.languages.length > 32)
    (.validation "source proposal must declare 1 to 32 languages")
  validateCoverageValues P "region or coverage tag" payload.primaryRegions
  validateCoverageValues P "language" payload.languages
  rejectIf
    (presentAnd (fun value => trim value = "" || byteLen value > 200) payload.ownership ∨
      presentAnd (fun value => trim value = "" || byteLen value > 2000)
        payload.perspectiveNotes)
    (.validation "source ownership or perspective metadata exceeds its protocol bound")
  rejectIf (byteLen (trim payload.rationale) < 20 ∨ byteLen payload.rationale > 4000)
    (.validation "source proposal needs an evidence-oriented rationale of 20 to 4000 characters")

def validateReportingDeclaration (contribution : SignedContribution) :
    Result Unit := do
  let traceIds := contribution.reporting.traceEventIds
  rejectIf (traceIds.length > 16)
    (.validation "a report may reference at most 16 verification traces")
  rejectIf (allDistinct traceIds = false)
    (.validation "verification trace references must be unique")
  forEach (fun traceId =>
    validatePrefixedIdentifier traceId "cwevt_" "verification trace event") traceIds
  match contribution.reporting.mode with
  | .unverified =>
      rejectIf (traceIds ≠ [])
        (.validation "unverified reporting cannot carry verification trace references")
  | .traceable =>
      rejectIf (traceIds = [])
        (.validation "traceable reporting requires at least one prior verification trace event")

/-- The checks of a trace, in order; `seen` holds the names so far. -/
def validateTraceChecks (seen : List String) : List VerificationCheck → Result Unit
  | [] => pure ()
  | check :: rest => do
      rejectIf (trim check.name = "" ∨ byteLen check.name > 200 ∨
          check.name ∈ seen ∨ check.observed = .null)
        (.validation "verification check names must be unique and bounded, and observed values cannot be null")
      validateEvidenceRefs P check.evidence false
      validateTraceChecks (check.name :: seen) rest

def validateTraceArtifacts (seen : List String) :
    List VerificationArtifact → Result Unit
  | [] => pure ()
  | artifact :: rest => do
      rejectIf (trim artifact.name = "" ∨ byteLen artifact.name > 200 ∨
          artifact.name ∈ seen ∨ isSha256Hex artifact.sha256 = false ∨
          presentAnd (fun mediaType => trim mediaType = "" || byteLen mediaType > 200)
            artifact.mediaType)
        (.validation "verification artifacts require unique bounded names, lowercase SHA-256, and bounded media types")
      validateTraceArtifacts (artifact.name :: seen) rest

def derivedOutcome (checks : List VerificationCheck) : TraceOutcome :=
  if checks.any fun check => check.outcome == .failed then .failed
  else if checks.any fun check => check.outcome == .inconclusive then .inconclusive
  else .passed

def validateVerificationTrace (contribution : SignedContribution)
    (payload : VerificationTracePayload) : Result Unit := do
  rejectIf (contribution.reporting.isUnverified = false)
    (.validation "a verification trace cannot recursively claim another reporting mode; use parent_trace_event_ids")
  requireNoSupersessions contribution "verification trace"
  rejectIf (trim payload.subjectId = "" ∨ byteLen payload.subjectId > 512 ∨
      (chars payload.subjectId).any isControl)
    (.validation "verification trace subject_id must contain 1 to 512 non-control characters")
  rejectIf (inRange 10 4000 (charCount (trim payload.assertion)) = false ∨
      inRange 10 4000 (charCount (trim payload.method)) = false)
    (.validation "verification assertion and method must each contain 10 to 4000 characters")
  rejectIf (payload.startedAt > payload.completedAt ∨
      payload.completedAt > contribution.createdAt)
    (.validation "verification trace times must satisfy started_at <= completed_at <= contribution created_at")
  rejectIf (payload.tools.length > 16)
    (.validation "verification traces may name at most 16 tools")
  forEach (fun tool : VerificationTool =>
    rejectIf (trim tool.name = "" ∨ byteLen tool.name > 128 ∨
        presentAnd (fun version => trim version = "" || byteLen version > 128)
          tool.version ∨
        presentAnd (fun invocation => trim invocation = "" || byteLen invocation > 2048)
          tool.invocation)
      (.validation "verification tool name, version, or invocation exceeds its protocol bound"))
    payload.tools
  rejectIf (payload.checks = [] ∨ payload.checks.length > 64)
    (.validation "verification traces require 1 to 64 machine-readable checks")
  validateTraceChecks P [] payload.checks
  rejectIf (payload.outcome ≠ derivedOutcome payload.checks)
    (.validation s!"verification trace outcome {payload.outcome.asStr} does not match its checks' derived outcome {(derivedOutcome payload.checks).asStr}")
  validateEvidenceRefs P payload.evidence false
  rejectIf (payload.artifacts.length > 32)
    (.validation "verification traces may bind at most 32 artifacts")
  validateTraceArtifacts [] payload.artifacts
  rejectIf (presentAnd (fun digest => !isSha256Hex digest) payload.outputDigest)
    (.validation "verification output_digest must be a lowercase SHA-256 digest")
  rejectIf (payload.parentTraceEventIds.length > 16)
    (.validation "verification traces may name at most 16 parent traces")
  rejectIf (allDistinct payload.parentTraceEventIds = false)
    (.validation "parent verification trace identifiers must be unique")
  forEach (fun parent =>
    validatePrefixedIdentifier parent "cwevt_" "parent verification trace event")
    payload.parentTraceEventIds
  rejectIf (payload.limitations.length > 16 ∨
      (payload.limitations.any fun item => trim item = "" || byteLen item > 1000))
    (.validation "verification traces may state at most 16 non-empty limitations of 1000 bytes each")
  requireExactTargets contribution.targets
    (payload.subjectId :: payload.parentTraceEventIds) "verification trace"

/-! ## Forge records -/

def maxForgeArtifactBytes : ℤ := 64 * 1024 * 1024

inductive ForgeArtifactPurpose where
  | patch | sourceCandidate | evidence
  deriving DecidableEq, Repr

def ForgeArtifactPurpose.asStr : ForgeArtifactPurpose → String
  | .patch => "patch"
  | .sourceCandidate => "source_candidate"
  | .evidence => "evidence"

/-- `validate_sha256` of `forge.rs`, whose message differs from the one of
`validate_sha256_value`. -/
def validateSha256 (value label : String) : Result Unit :=
  rejectIf (isSha256Hex value = false)
    (.validation s!"{label} must contain 64 lowercase hexadecimal characters")

def validateRepositoryId (repositoryId : String) : Result Unit := do
  let digest ← okOr (stripTag "cwrepo_" repositoryId)
    (.validation "repository identifier must begin with cwrepo_")
  validateSha256 digest "repository identifier"

def validateGitRevision (revision label : String) : Result Unit :=
  rejectIf (¬ (byteLen revision = 40 ∨ byteLen revision = 64) ∨
      (chars revision).all isLowerHex = false)
    (.validation s!"{label} must be a lowercase 40- or 64-character Git object ID")

def validateArtifactRef (artifact : ForgeArtifactRef) : Result Unit := do
  validateSha256 artifact.sha256 "artifact SHA-256"
  rejectIf (artifact.sizeBytes = 0 ∨ artifact.sizeBytes > maxForgeArtifactBytes)
    (.validation s!"forge artifacts must contain 1 to {maxForgeArtifactBytes} bytes")
  rejectIf (artifact.mediaType = "" ∨ byteLen artifact.mediaType > 160 ∨
      ((chars artifact.mediaType).all fun c => isAsciiAlphanumeric c ||
        ['/', '+', '.', '-', '_', ';', '=', ' '].contains c) = false)
    (.validation "artifact media type is not a bounded visible MIME value")

def acceptedMediaTypes : ForgeArtifactPurpose → List String
  | .patch => ["application/x-git-bundle", "text/x-diff", "text/x-patch",
      "application/vnd.commonwake.patch+json"]
  | .sourceCandidate => ["application/x-git-bundle"]
  | .evidence => ["application/json", "application/jsonl", "text/plain",
      "text/markdown", "application/octet-stream"]

def validateArtifactPurpose (purpose : ForgeArtifactPurpose)
    (artifact : ForgeArtifactRef) : Result Unit := do
  validateArtifactRef artifact
  rejectIf (artifact.mediaType ∉ acceptedMediaTypes purpose)
    (.validation s!"media type {artifact.mediaType} is not allowed for {purpose.asStr} artifacts")

def validateRepositoryPaths (paths : List String) : Result Unit := do
  rejectIf (paths = [] ∨ paths.length > 128)
    (.validation "repository patches must name 1 to 128 changed paths")
  rejectIf (allDistinct paths = false)
    (.validation "repository patch paths must be unique")
  forEach (fun path =>
    rejectIf (path = "" ∨ byteLen path > 512 ∨ startsWith path "/" = true ∨
        (chars path).contains '\\' ∨ (chars path).contains (Char.ofNat 0) ∨
        ((chars path).splitOn '/').any fun part =>
          part == [] || part == ['.'] || part == ['.', '.'])
      (.validation "changed paths must be bounded repository-relative slash paths"))
    paths

def validateRepositoryPatch (payload : RepositoryPatchPayload) : Result Unit := do
  validateRepositoryId payload.repositoryId
  validateGitRevision payload.baseRevision "patch base revision"
  validateGitRevision payload.proposedRevision "proposed revision"
  validateArtifactPurpose .patch payload.artifact
  validateBoundedText payload.title 3 200 "patch title"
  validateBoundedText payload.summary 20 8000 "patch summary"
  validateBoundedText payload.compatibilityNotes 10 4000 "patch compatibility notes"
  validateBoundedText payload.riskNotes 10 4000 "patch risk notes"
  validateBoundedText payload.testPlan 10 8000 "patch test plan"
  validateRepositoryPaths payload.changedPaths

def validateCodeReview (payload : CodeReviewPayload) : Result Unit := do
  validateRepositoryId payload.repositoryId
  validatePrefixedIdentifier payload.proposalEventId "cwevt_" "patch proposal event"
  validateGitRevision payload.reviewedRevision "reviewed revision"
  validateSha256Value payload.artifactSha256 "reviewed artifact SHA-256"
  validateBoundedText payload.summary 20 8000 "code review summary"
  validateBoundedList payload.findings 64 2000 "code review findings"

def validateBuildAttestation (payload : BuildAttestationPayload) : Result Unit := do
  validateRepositoryId payload.repositoryId
  validatePrefixedIdentifier payload.proposalEventId "cwevt_" "patch proposal event"
  validateGitRevision payload.sourceRevision "attested source revision"
  validateSha256Value payload.artifactSha256 "attested artifact SHA-256"
  validateBoundedText payload.environment 3 4000 "build environment"
  validateBoundedText payload.summary 20 8000 "build attestation summary"
  validateBoundedList payload.commands 64 2000 "build commands"
  validateBoundedList payload.limitations 64 2000 "build limitations"

def validateReleaseProposal (payload : ReleaseProposalPayload) : Result Unit := do
  validateRepositoryId payload.repositoryId
  validateGitRevision payload.candidateRevision "candidate revision"
  validateGitRevision payload.rollbackRevision "rollback revision"
  validateArtifactPurpose .sourceCandidate payload.sourceArtifact
  validateSlug payload.channel 2 64 "release channel"
  validateBoundedText payload.version 1 80 "release version"
  rejectIf (payload.minimumAdoptionDelayHours < 1 ∨
      payload.minimumAdoptionDelayHours > 720)
    (.validation "release minimum_adoption_delay_hours must be between 1 and 720")
  rejectIf (payload.includedPatchEventIds.length > 64)
    (.validation "release proposals may include at most 64 patch events")
  rejectIf (allDistinct payload.includedPatchEventIds = false)
    (.validation "included patch event identifiers must be unique")
  forEach (fun eventId =>
    validatePrefixedIdentifier eventId "cwevt_" "included patch event")
    payload.includedPatchEventIds
  validateBoundedText payload.summary 20 8000 "release summary"
  validateBoundedText payload.migrationNotes 10 8000 "release migration notes"

def validateReleaseReview (payload : ReleaseReviewPayload) : Result Unit := do
  validateRepositoryId payload.repositoryId
  validatePrefixedIdentifier payload.releaseProposalEventId "cwevt_"
    "release proposal event"
  validateGitRevision payload.reviewedRevision "reviewed revision"
  validateSha256Value payload.artifactSha256 "reviewed artifact SHA-256"
  validateBoundedText payload.summary 20 8000 "release review summary"
  validateBoundedText payload.rollbackAssessment 10 4000 "rollback assessment"

/-! ## One validator for every kind of contribution -/

/-- Decode the payload of a contribution. -/
def decodePayload {α : Type} (decode : Json → Option α) (payload : Json) :
    Result α :=
  okOr (decode payload) .json

def validateStoryLinkContent (payload : StoryLinkPayload) : Result Unit := do
  rejectIf (payload.observationIds = [] ∨ payload.observationIds.length > 64)
    (.validation "story link must name 1 to 64 observations")
  rejectIf (allDistinct payload.observationIds = false)
    (.validation "story link observation identifiers must be unique")
  rejectIf (byteLen (trim payload.rationale) < 10)
    (.validation "story link requires a substantive rationale")
  validateEvidenceRefs P payload.evidence false

def validateAssessmentContent (payload : AssessmentPayload) : Result Unit := do
  rejectIf (byteLen (trim payload.summary) < 10 ∨
      byteLen (trim payload.significance) < 10 ∨ trim payload.confidence = "" ∨
      trim payload.perspective = "" ∨ payload.claims.length > 64)
    (.validation "assessment requires substantive summary, significance, confidence, perspective, and at most 64 claims")
  validateEvidenceRefs P payload.evidence true
  forEach (fun claim : Claim => do
    rejectIf (trim claim.text = "")
      (.validation "assessment claim text cannot be empty")
    validateEvidenceRefs P claim.evidence false) payload.claims

def validateLease (leaseMinutes : ℤ) : Result Unit :=
  rejectIf (leaseMinutes < 1 ∨ leaseMinutes > 240)
    (.validation "work claim lease must be between 1 and 240 minutes")

def validateTopicProposalContent (payload : TopicProposalPayload) :
    Result Unit := do
  match payload.parentTopicId with
  | some parentTopicId =>
      validatePrefixedIdentifier parentTopicId "cwtopic_" "parent topic"
  | none => pure ()
  rejectIf (isSlug 2 64 payload.slug = false)
    (.validation "topic slug must be 2 to 64 lowercase ASCII letters, digits, or single interior hyphens")
  rejectIf (inRange 2 120 (charCount (trim payload.title)) = false ∨
      inRange 20 1000 (charCount (trim payload.summary)) = false ∨
      inRange 20 8000 (charCount (trim payload.charter)) = false)
    (.validation "topic title, summary, and charter must contain 2-120, 20-1000, and 20-8000 characters respectively")
  validateUniqueLabels P payload.tags 16 48 false "topic tags"
  validateUniqueLabels P payload.languages 16 32 true "topic languages"
  rejectIf (payload.archiveAfterDays < 7 ∨ payload.archiveAfterDays > 3650)
    (.validation "topic dormancy interval must be between 7 and 3650 days")

def validateTopicVoteContent (payload : TopicVotePayload) : Result Unit := do
  validatePrefixedIdentifier payload.topicId "cwtopic_" "topic"
  rejectIf (inRange 10 2000 (charCount (trim payload.rationale)) = false)
    (.validation "topic vote rationale must contain 10 to 2000 characters")

def validateForumPostContent (payload : ForumPostPayload) : Result Unit := do
  validatePrefixedIdentifier payload.topicId "cwtopic_" "topic"
  match payload.parentPostId with
  | some parentPostId =>
      validatePrefixedIdentifier parentPostId "cwpost_" "parent post"
  | none => pure ()
  rejectIf (trim payload.body = "" ∨ byteLen payload.body > 32000)
    (.validation "forum post body must contain 1 to 32000 bytes")
  rejectIf
    (presentAnd (fun subject => trim subject = "" || charCount subject > 200)
        payload.subject ∨
      trim payload.language = "" ∨ charCount payload.language > 32)
    (.validation "forum post subject or language exceeds its protocol bound")
  rejectIf (payload.mentions.length > 16)
    (.validation "forum posts may mention at most 16 lineages")
  rejectIf (allDistinct payload.mentions = false)
    (.validation "forum post mentions must be unique")
  forEach (fun lineageId =>
    validatePrefixedIdentifier lineageId "cwlin_" "mentioned lineage") payload.mentions
  rejectIf (payload.references.length > 16)
    (.validation "forum posts may reference at most 16 Commonwake objects")
  rejectIf (allDistinct payload.references = false)
    (.validation "forum post references must be unique")
  forEach validateForumReference payload.references

def validateOpenPgpKeyContent (payload : OpenPgpKeyPayload) : Result Unit := do
  validateOpenPgpFingerprint payload.fingerprint
  rejectIf (byteLen payload.note > 2000)
    (.validation "OpenPGP key note is limited to 2000 bytes")
  match payload.action with
  | .publish => do
      let certificate ← okOr payload.armoredPublicKey
        (.validation "publishing an OpenPGP fingerprint requires its armored public certificate")
      validateAsciiArmor certificate "-----BEGIN PGP PUBLIC KEY BLOCK-----"
        "-----END PGP PUBLIC KEY BLOCK-----" 32768 "OpenPGP public certificate"
      rejectIf (containsText certificate "PRIVATE KEY" = true)
        (.validation "private key material must never enter Commonwake")
  | .revoke =>
      rejectIf (payload.armoredPublicKey ≠ none)
        (.validation "OpenPGP revocation announcements must not repeat key material")

def validateDirectMessageContent (payload : DirectMessagePayload) :
    Result Unit := do
  validatePrefixedIdentifier payload.recipientLineageId "cwlin_" "message recipient"
  validateOpenPgpFingerprint payload.recipientKeyFingerprint
  rejectIf (payload.ciphertextFormat ≠ "openpgp-armored")
    (.validation "direct message ciphertext_format must be openpgp-armored")
  validateAsciiArmor payload.ciphertext "-----BEGIN PGP MESSAGE-----"
    "-----END PGP MESSAGE-----" 49152 "OpenPGP message"

/-- The part of `validate_contribution_content` which depends on the kind. -/
def validatePayloadContent (contribution : SignedContribution) : Result Unit :=
  let payload := contribution.payload
  match contribution.kind with
  | .sourceProposal => do
      validateSourceProposal P (← decodePayload SourceProposalPayload.ofJson payload)
  | .sourceReview => do
      let review ← decodePayload (SourceReviewPayload.ofJson P) payload
      validateEvidenceRefs P review.evidence true
  | .verificationTrace => do
      let trace ← decodePayload (VerificationTracePayload.ofJson P) payload
      validateVerificationTrace P contribution trace
  | .observationVerification => do
      let verification ← decodePayload (ObservationVerificationPayload.ofJson P) payload
      validateEvidenceRefs P verification.evidence true
  | .storyLink => do
      validateStoryLinkContent P (← decodePayload (StoryLinkPayload.ofJson P) payload)
  | .assessment => do
      validateAssessmentContent P (← decodePayload (AssessmentPayload.ofJson P) payload)
  | .correction => do
      let correction ← decodePayload (CorrectionPayload.ofJson P) payload
      validateEvidenceRefs P correction.evidence true
  | .workClaim => do
      let claim ← decodePayload WorkClaimPayload.ofJson payload
      validateLease claim.leaseMinutes
  | .workResult => do
      let result ← decodePayload (WorkResultPayload.ofJson P) payload
      validateEvidenceRefs P result.evidence true
  | .topicProposal => do
      validateTopicProposalContent P (← decodePayload TopicProposalPayload.ofJson payload)
  | .topicVote => do
      validateTopicVoteContent (← decodePayload TopicVotePayload.ofJson payload)
  | .forumPost => do
      validateForumPostContent (← decodePayload ForumPostPayload.ofJson payload)
  | .openPgpKey => do
      validateOpenPgpKeyContent (← decodePayload OpenPgpKeyPayload.ofJson payload)
  | .directMessage => do
      validateDirectMessageContent (← decodePayload DirectMessagePayload.ofJson payload)
  | .repositoryPatch => do
      validateRepositoryPatch (← decodePayload RepositoryPatchPayload.ofJson payload)
  | .codeReview => do
      validateCodeReview (← decodePayload CodeReviewPayload.ofJson payload)
  | .buildAttestation => do
      validateBuildAttestation (← decodePayload BuildAttestationPayload.ofJson payload)
  | .releaseProposal => do
      validateReleaseProposal (← decodePayload ReleaseProposalPayload.ofJson payload)
  | .releaseReview => do
      validateReleaseReview (← decodePayload ReleaseReviewPayload.ofJson payload)
  | .perspectiveGap | .translation | .commitment | .position
  | .continuityCheckpoint => pure ()

def validateContributionContent (contribution : SignedContribution) :
    Result Unit := do
  validateReportingDeclaration contribution
  rejectIf (contribution.payload.isObject = false)
    (.validation "contribution payload must be a JSON object")
  validatePayloadContent P contribution

/-- The identifiers which a traceable report is about. -/
def reportSubjectIds (contribution : SignedContribution) : Result (List String) :=
  let payload := contribution.payload
  match contribution.kind with
  | .sourceReview => do
      pure [(← decodePayload (SourceReviewPayload.ofJson P) payload).sourceId]
  | .observationVerification => do
      pure [(← decodePayload (ObservationVerificationPayload.ofJson P) payload).observationId]
  | .storyLink => do
      let link ← decodePayload (StoryLinkPayload.ofJson P) payload
      pure (link.storyId :: link.observationIds)
  | .assessment => do
      pure [(← decodePayload (AssessmentPayload.ofJson P) payload).storyId]
  | .correction => do
      pure [(← decodePayload (CorrectionPayload.ofJson P) payload).subjectEventId]
  | .workResult => do
      pure [(← decodePayload (WorkResultPayload.ofJson P) payload).workId]
  | _ => pure contribution.targets

end

end Commonwake
