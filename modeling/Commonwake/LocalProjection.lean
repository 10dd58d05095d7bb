import Commonwake.ContentProjection

/-!
# Accepting contributions and observations

`validate_projection` checks a contribution against the node's own tables,
`apply_projection` records it there, and `append_contribution` and
`append_observation` join the two with the log in one transaction.
-/

namespace Commonwake

open Outcome Table

section

variable (P : Primitives)

/-! ## Work items -/

def completeWork (kind subjectId : String) (sequence : ℤ) (work : WorkTables) :
    WorkTables :=
  let items := updateWhere
    (fun row => row.kind == kind && row.subjectId == subjectId &&
      row.status == .isOpen)
    (fun row => { row with
      status := .complete, completedSequence := some sequence }) work.items
  { work with items := items }

def ensureOpenWork (work : WorkTables) (workId : String) : Result Unit :=
  match (work.items.find? fun row => row.workId == workId).map WorkItemRow.status with
  | some .isOpen => pure ()
  | some _ => throw (.conflict "work item is no longer open")
  | none => throw (.notFound s!"work item {workId}")

/-- Stories with similar titles are proposed for linking. -/
def storyPairId (first second : String) : String :=
  if first ≤ second then first ++ "~" ++ second else second ++ "~" ++ first

def titleStopWords : List String :=
  ["about", "after", "from", "into", "that", "their", "the", "this", "with"]

def asciiLower (c : Char) : Char :=
  if 'A' ≤ c ∧ c ≤ 'Z' then Char.ofNat (c.toNat + 32) else c

def titleTerms (title : String) : List String :=
  ((((chars title).splitOnP fun c => !P.isAlphanumeric c).map fun part =>
    String.ofList (part.map asciiLower)).filter fun term =>
      3 ≤ byteLen term && !titleStopWords.contains term).dedup

/-- Is the share of common terms at least 0.15?  The source divides in
binary64; for counts below 2^40 the comparison is exact. -/
def titlesAreSimilar (first second : String) : Bool :=
  let first := titleTerms P first
  let second := titleTerms P second
  let common := (first.filter second.contains).length
  let all := (first ++ second).dedup.length
  !first.isEmpty && !second.isEmpty && 3 * all ≤ 20 * common

def insertClusterCandidates (storyId title : String) (sequence : ℤ)
    (stories : List StoryRow) (work : WorkTables) : WorkTables :=
  let candidates := ((stories.filter fun row => row.storyId != storyId &&
    row.mergedInto.isNone).mergeSort fun a b =>
      decide (b.createdSequence ≤ a.createdSequence)).take 50
  (candidates.filter fun row => titlesAreSimilar P title row.title).foldl
    (fun work row => insertWorkItem P "cluster_stories" "story_pair"
      (storyPairId storyId row.storyId) 1 sequence work) work

/-! ## Observations -/

def Db.observationPayload (db : Db) (observation : IngestedObservation) :
    FederatedObservationPayload :=
  let observationId := observationIdOf P observation.sourceId
    observation.canonicalUrl observation.documentHash
  { observationId := observationId
    storyId := (db.content.existingStory observation.sourceId
      observation.canonicalUrl).getD (storyIdOf P observationId)
    sourceId := observation.sourceId
    canonicalUrl := observation.canonicalUrl
    title := observation.title
    summary := observation.summary
    publishedAt := observation.publishedAt
    retrievedAt := observation.retrievedAt
    language := observation.language
    documentHash := observation.documentHash
    rawMetadata := observation.rawMetadata }

def observationEnvelope (payload : FederatedObservationPayload) :
    FederatedObservationEnvelope :=
  ⟨protocolVersion, "observation", payload⟩

def observationInput (payload : FederatedObservationPayload) : EventInput where
  kind := "observation"
  lineageId := none
  delegationId := none
  createdAt := payload.retrievedAt
  authorNonce := none
  targets := [payload.storyId, payload.sourceId]
  supersedes := []
  payload := payload.toJson P
  canonicalJson := P.jcs ((observationEnvelope payload).toJson P)
  authorSignature := none

/-- The event of an observation which is already stored. -/
def Db.storedObservation (db : Db) (observationId : String) :
    Option AcceptedObject := do
  let observation ← db.content.observations.find? fun row =>
    row.observationId == observationId
  let event ← db.events.find? fun row => row.sequence == observation.createdSequence
  pure ⟨event.eventId, event.sequence, event.eventHash⟩

def SourceRow.collects (row : SourceRow) : Bool :=
  row.status == .probation || row.status == .active || row.status == .degraded

def observationWork (isNewStory : Bool) (payload : FederatedObservationPayload)
    (sequence : ℤ) (stories : List StoryRow) (work : WorkTables) : WorkTables :=
  let work := insertWorkItem P "verify_observation" "observation"
    payload.observationId 2 sequence work
  let work := insertWorkItem P "assess_story" "story" payload.storyId 2 sequence work
  if isNewStory then
    insertClusterCandidates P payload.storyId payload.title sequence stories work
  else work

def Db.appendObservation (identity : NodeIdentity P)
    (observation : IngestedObservation) (now : ℤ) (db : Db) :
    Result (AcceptedObject × Db) := do
  let payload := db.observationPayload P observation
  match db.storedObservation payload.observationId with
  | some accepted => pure (accepted, db)
  | none => do
      rejectIf ((db.sources.any fun row => row.sourceId == observation.sourceId &&
          row.collects) = false)
        (.validation "observations require a probation, active, or retryable degraded source")
      let isNewStory := (db.content.existingStory observation.sourceId
        observation.canonicalUrl).isNone
      let (accepted, db) ← appendEvent P identity (observationInput P payload) now db
      let content ← db.content.addObservation
        (fun stored => stored.observationId == payload.observationId ||
          (stored.sourceId == payload.sourceId &&
            stored.canonicalUrl == payload.canonicalUrl &&
            stored.documentHash == payload.documentHash))
        (observedStory P payload accepted.sequence)
        (observedRow P payload accepted.sequence)
      pure (accepted, { db with
        content := content
        work := observationWork P isNewStory payload accepted.sequence
          content.stories db.work })

/-- The new status of a source after a fetch. -/
def SourceRow.fetched (success : Bool) (row : SourceRow) : SourceRow :=
  if success then
    { row with
      successfulFetches := row.successfulFetches + 1
      consecutiveFailures := 0
      status :=
        if row.status = .degraded then .active
        else if row.status = .probation ∧ 9 ≤ row.successfulFetches then .active
        else row.status }
  else
    { row with
      consecutiveFailures := row.consecutiveFailures + 1
      status :=
        if 2 ≤ row.consecutiveFailures ∧ row.status = .active then .degraded
        else row.status }

def Db.markSourceFetch (sourceId : String) (success : Bool) (db : Db) : Db :=
  let sources := updateWhere (fun row => row.sourceId == sourceId)
    (SourceRow.fetched success) db.sources
  { db with sources := sources }

/-! ## Checks against the node's tables -/

/-- The canonical text of an event of the given kind. -/
def Db.canonicalOfKind (db : Db) (eventId kind : String) : Option String :=
  (db.events.find? fun row => row.eventId == eventId && row.kind == kind).map
    (·.canonicalJson)

def Db.localTraceSubject (db : Db) (traceEventId : String) :
    Result (Option String) :=
  traceSubject P (db.canonicalOfKind traceEventId "verification_trace")

def Db.validateLocalReporting (db : Db) (contribution : SignedContribution) :
    Result Unit := do
  if contribution.kind = .verificationTrace then
    let payload ← decodePayload (VerificationTracePayload.ofJson P) contribution.payload
    forEach (fun parent => do
      rejectIf ((← db.localTraceSubject P parent) = none)
        (.notFound s!"parent verification trace {parent}")) payload.parentTraceEventIds
  else
    rejectIf (contribution.kind.requiresTraceableReporting = true ∧
        contribution.reporting.isTraceable = false)
      (.validation s!"{contribution.kind.asStr} is an evidentiary report and requires --trace-event references to prior signed verification traces")
    if contribution.reporting.isTraceable = false then pure ()
    else
      let subjects ← reportSubjectIds P contribution
      rejectIf (subjects = [])
        (.validation "traceable reporting requires at least one routed subject identifier")
      forEach (fun traceId => do
        let subject ← okOr (← db.localTraceSubject P traceId)
          (.notFound s!"verification trace {traceId}")
        rejectIf (subject ∉ subjects)
          (.validation s!"verification trace {traceId} concerns {subject}, not this report's subjects"))
        contribution.reporting.traceEventIds

def Db.localForgeCanonical (db : Db) (eventId kind label : String) :
    Result String :=
  okOr (db.canonicalOfKind eventId kind) (.notFound s!"{label} {eventId}")

/-- The author and the canonical text of an event of the given kind. -/
def Db.localForgeSubject (db : Db) (eventId kind label : String) :
    Result (String × String) := do
  let row ← okOr (db.events.find? fun row => row.eventId == eventId && row.kind == kind)
    (.notFound s!"{label} {eventId}")
  let lineageId ← okOr row.lineageId .database
  pure (lineageId, row.canonicalJson)

def Db.projectionNodeId (db : Db) : Result String :=
  okOr db.nodeId (.internal "database is not bound to a node identity")

def ensureExists (found : Bool) (label id : String) : Result Unit :=
  rejectIf (found = false) (.notFound s!"{label} {id}")

def Db.validateSourceReview (db : Db) (lineageId : String)
    (payload : SourceReviewPayload) : Result Unit := do
  let source ← okOr (db.sources.find? fun row => row.sourceId == payload.sourceId)
    (.notFound "reviewed source does not exist")
  rejectIf (source.proposerLineageId = lineageId)
    (.validation "a source proposer cannot supply an independent review")
  rejectIf (payload.evidence = [])
    (.validation "source reviews require at least one evidence reference")

def Db.validateStoryLink (db : Db) (payload : StoryLinkPayload) : Result Unit := do
  ensureExists (db.content.hasStory payload.storyId) "story" payload.storyId
  rejectIf (payload.observationIds = [])
    (.validation "story link must name at least one observation")
  forEach (fun observationId => ensureExists (db.content.hasObservation observationId)
    "observation" observationId) payload.observationIds

def Db.validateAssessment (db : Db) (payload : AssessmentPayload) : Result Unit := do
  ensureExists (db.content.hasStory payload.storyId) "story" payload.storyId
  rejectIf (payload.evidence = [])
    (.validation "assessments require at least one evidence reference")

def Db.validateCorrection (db : Db) (contribution : SignedContribution)
    (payload : CorrectionPayload) : Result Unit := do
  rejectIf (db.eventById? payload.subjectEventId = none)
    (.notFound s!"corrected event {payload.subjectEventId}")
  rejectIf (byteLen (trim payload.correction) < 10 ∨ byteLen (trim payload.reason) < 10)
    (.validation "correction and reason must each be substantive")
  rejectIf (payload.evidence = [])
    (.validation "correction requires at least one evidence reference")
  rejectIf (payload.subjectEventId ∉ contribution.supersedes)
    (.validation "correction must name subject_event_id in supersedes")

def Db.validateTopicVote (db : Db) (lineageId : String)
    (contribution : SignedContribution) (payload : TopicVotePayload) :
    Result Unit := do
  let topic ← okOr (db.commons.topic? payload.topicId)
    (.notFound s!"forum topic {payload.topicId}")
  rejectIf (topic.proposerLineageId = lineageId)
    (.validation "a topic proposer cannot supply an independent topic vote")
  requireExactTargets contribution.targets [payload.topicId] "topic vote"
  let origin ← db.projectionNodeId
  requirePreviousSuperseded contribution
    ((db.commons.previousVote payload.topicId lineageId origin).map (·.eventId))
    "topic vote"

def Db.validateForumPost (db : Db) (contribution : SignedContribution)
    (payload : ForumPostPayload) : Result Unit := do
  rejectIf ((← db.commons.topicIsApproved payload.topicId) = false)
    (.validation "forum posts require a currently approved topic")
  match payload.parentPostId with
  | some parentPostId => do
      let parent ← okOr (db.commons.posts.find? fun row => row.postId == parentPostId)
        (.notFound s!"parent forum post {parentPostId}")
      rejectIf (parent.topicId ≠ payload.topicId)
        (.validation "forum post parent must belong to the same topic")
  | none => pure ()
  requireImmutableRouting contribution
    (payload.topicId :: (payload.mentions ++ payload.references)) "forum post"

def Db.validateOpenPgpKey (db : Db) (lineageId : String)
    (contribution : SignedContribution) (payload : OpenPgpKeyPayload) :
    Result Unit := do
  requireExactTargets contribution.targets [lineageId] "OpenPGP key"
  let origin ← db.projectionNodeId
  rejectIf (presentAnd (fun eventId => !contribution.supersedes.contains eventId)
      ((db.commons.previousKey lineageId origin payload.fingerprint).map (·.eventId)))
    (.validation "an OpenPGP key update must supersede its previous same-origin announcement")
  let known := fun action => db.commons.openPgpKeys.any fun row =>
    row.lineageId == lineageId && row.fingerprint == payload.fingerprint &&
      row.action == action
  match payload.action with
  | .publish =>
      rejectIf (known .revoke = true)
        (.validation "a revoked OpenPGP fingerprint cannot be republished")
  | .revoke =>
      rejectIf (known .publish = false)
        (.validation "OpenPGP revocation requires a known published fingerprint")

def Db.validateDirectMessage (db : Db) (contribution : SignedContribution)
    (payload : DirectMessagePayload) : Result Unit := do
  requireImmutableRouting contribution [payload.recipientLineageId] "direct message"
  rejectIf (db.commons.openPgpKeyIsActive payload.recipientLineageId
      payload.recipientKeyFingerprint = false)
    (.validation "direct message recipient fingerprint is unknown or revoked")

def Db.validateCodeReviewTarget (db : Db) (lineageId : String)
    (contribution : SignedContribution) (payload : CodeReviewPayload) :
    Result Unit := do
  requireImmutableRouting contribution [payload.proposalEventId] "code review"
  let (proposer, proposal) ← db.localForgeSubject payload.proposalEventId
    "repository_patch" "repository patch"
  rejectIf (proposer = lineageId)
    (.validation "a patch proposer cannot supply an independent code review")
  validateCodeReviewSubject P payload proposal

def Db.validateReleaseProposalTargets (db : Db) (contribution : SignedContribution)
    (payload : ReleaseProposalPayload) : Result Unit := do
  requireImmutableRouting contribution
    (payload.repositoryId :: payload.includedPatchEventIds) "release proposal"
  forEach (fun eventId => do
    let proposal ← db.localForgeCanonical eventId "repository_patch"
      "included repository patch"
    validateIncludedPatch P
      (.validation "release proposal includes a patch for a different repository")
      payload.repositoryId proposal) payload.includedPatchEventIds

def Db.validateReleaseReviewTarget (db : Db) (lineageId : String)
    (contribution : SignedContribution) (payload : ReleaseReviewPayload) :
    Result Unit := do
  requireImmutableRouting contribution [payload.releaseProposalEventId] "release review"
  let (proposer, proposal) ← db.localForgeSubject payload.releaseProposalEventId
    "release_proposal" "release proposal"
  rejectIf (proposer = lineageId)
    (.validation "a release proposer cannot supply an independent release review")
  validateReleaseReviewSubject P payload proposal

/-- The part of `validate_projection` which depends on the kind. -/
def Db.validateKind (db : Db) (lineageId : String) (contribution : SignedContribution)
    (now : ℤ) : Result Unit :=
  let payload := contribution.payload
  match contribution.kind with
  | .sourceProposal => do
      validateSourceProposal P (← decodePayload SourceProposalPayload.ofJson payload)
  | .sourceReview => do
      db.validateSourceReview lineageId
        (← decodePayload (SourceReviewPayload.ofJson P) payload)
  | .observationVerification => do
      let verification ← decodePayload (ObservationVerificationPayload.ofJson P) payload
      ensureExists (db.content.hasObservation verification.observationId) "observation"
        verification.observationId
  | .storyLink => do
      db.validateStoryLink (← decodePayload (StoryLinkPayload.ofJson P) payload)
  | .assessment => do
      db.validateAssessment (← decodePayload (AssessmentPayload.ofJson P) payload)
  | .correction => do
      db.validateCorrection contribution
        (← decodePayload (CorrectionPayload.ofJson P) payload)
  | .workClaim => do
      let claim ← decodePayload WorkClaimPayload.ofJson payload
      ensureOpenWork db.work claim.workId
      validateLease claim.leaseMinutes
  | .workResult => do
      let result ← decodePayload (WorkResultPayload.ofJson P) payload
      ensureOpenWork db.work result.workId
      rejectIf (byteLen (trim result.summary) < 10)
        (.validation "work result requires a substantive summary")
      rejectIf (result.evidence = [])
        (.validation "work result requires at least one evidence reference")
  | .topicProposal => do
      let proposal ← decodePayload TopicProposalPayload.ofJson payload
      requireImmutableRouting contribution proposal.parentTopicId.toList "topic proposal"
      match proposal.parentTopicId with
      | some parentTopicId => let _ ← db.commons.topicView P parentTopicId now
      | none => pure ()
  | .topicVote => do
      db.validateTopicVote lineageId contribution
        (← decodePayload TopicVotePayload.ofJson payload)
  | .forumPost => do
      db.validateForumPost contribution (← decodePayload ForumPostPayload.ofJson payload)
  | .openPgpKey => do
      db.validateOpenPgpKey lineageId contribution
        (← decodePayload OpenPgpKeyPayload.ofJson payload)
  | .directMessage => do
      db.validateDirectMessage contribution
        (← decodePayload DirectMessagePayload.ofJson payload)
  | .repositoryPatch => do
      let patch ← decodePayload RepositoryPatchPayload.ofJson payload
      requireImmutableRouting contribution [patch.repositoryId] "repository patch"
  | .codeReview => do
      db.validateCodeReviewTarget P lineageId contribution
        (← decodePayload CodeReviewPayload.ofJson payload)
  | .buildAttestation => do
      let attestation ← decodePayload BuildAttestationPayload.ofJson payload
      requireImmutableRouting contribution [attestation.proposalEventId]
        "build attestation"
      let proposal ← db.localForgeCanonical attestation.proposalEventId
        "repository_patch" "repository patch"
      validateBuildAttestationSubject P attestation proposal
  | .releaseProposal => do
      db.validateReleaseProposalTargets P contribution
        (← decodePayload ReleaseProposalPayload.ofJson payload)
  | .releaseReview => do
      db.validateReleaseReviewTarget P lineageId contribution
        (← decodePayload ReleaseReviewPayload.ofJson payload)
  | .verificationTrace | .perspectiveGap | .translation | .commitment | .position
  | .continuityCheckpoint => pure ()

def Db.validateProjection (db : Db) (lineageId : String)
    (contribution : SignedContribution) (now : ℤ) : Result Unit := do
  validateContributionContent P contribution
  db.validateLocalReporting P contribution
  db.validateKind P lineageId contribution now

/-! ## Recording a contribution -/

/-- The canonical text of a logged event. -/
def Db.canonicalText? (db : Db) (eventId : String) : Option String :=
  (db.eventById? eventId).map (·.canonicalJson)

/-- The address of a proposed source, normalised. -/
def normalizedHomepage (payload : SourceProposalPayload) : Result (Option String) :=
  match payload.homepageUrl with
  | some url => do pure (some (← normalizeHttpUrl P url))
  | none => pure none

def Db.applySourceProposal (db : Db) (lineageId : String) (accepted : AcceptedObject)
    (payload : SourceProposalPayload) : Result Db := do
  let feedUrl ← normalizeHttpUrl P payload.feedUrl
  let homepageUrl ← normalizedHomepage P payload
  let row : SourceRow := {
    sourceId := P.prefixedId "cwsrc_" (utf8 feedUrl)
    name := payload.name
    feedUrl := feedUrl
    homepageUrl := homepageUrl
    medium := payload.medium
    primaryRegionsJson := P.toText (Serde.strings payload.primaryRegions)
    languagesJson := P.toText (Serde.strings payload.languages)
    ownership := payload.ownership
    perspectiveNotes := payload.perspectiveNotes
    minimumFetchIntervalMinutes := payload.minimumFetchIntervalMinutes
    status := .proposed
    proposerLineageId := lineageId
    proposalEventId := accepted.id
    successfulFetches := 0
    consecutiveFailures := 0 }
  let sources ← insertNew
    (fun stored : SourceRow => stored.sourceId == row.sourceId ||
      stored.feedUrl == row.feedUrl) .database row db.sources
  pure { db with
    sources := sources
    work := insertWorkItem P "review_source" "source" row.sourceId 2 accepted.sequence
      db.work }

/-- A source with two approvals leaves the state `proposed`. -/
def admitSource (sourceId : String) : List SourceRow → List SourceRow :=
  updateWhere (fun row => row.sourceId == sourceId && row.status == .proposed)
    fun row => { row with status := .probation }

def Db.applySourceReview (db : Db) (lineageId : String)
    (contribution : SignedContribution) (accepted : AcceptedObject)
    (payload : SourceReviewPayload) : Result Db := do
  let content := db.content.putReview
    (reviewRow P lineageId accepted.id contribution payload)
  let traceable ← filterOk (fun row => joinsTraceable P db.canonicalText? row.eventId)
    (content.reviews.filter fun row => row.sourceId == payload.sourceId)
  let approvals := traceable.countP fun row => row.recommendation == .approve
  let rejections := traceable.countP fun row => row.recommendation == .reject
  pure { db with
    content := content
    sources :=
      if 2 ≤ approvals then admitSource payload.sourceId db.sources else db.sources
    work :=
      if 2 ≤ approvals ∨ 2 ≤ rejections then
        completeWork "review_source" payload.sourceId accepted.sequence db.work
      else db.work }

def Db.applyVerification (db : Db) (lineageId : String)
    (contribution : SignedContribution) (accepted : AcceptedObject)
    (payload : ObservationVerificationPayload) : Result Db := do
  let content := db.content.putVerification
    (verificationRow P lineageId accepted.id contribution payload)
  let traceable ← filterOk (fun row => joinsTraceable P db.canonicalText? row.eventId)
    (content.verifications.filter fun row => row.observationId == payload.observationId)
  pure { db with
    content := content
    work :=
      if 2 ≤ traceable.length then
        completeWork "verify_observation" payload.observationId accepted.sequence db.work
      else db.work }

/-- One iteration of the loop over the observations of a story link. -/
def Db.linkObservation (storyId : String) (accepted : AcceptedObject) (db : Db)
    (observationId : String) : Result Db := do
  let oldStory ← okOr (db.content.storyOf? observationId) .database
  if oldStory = storyId then pure db
  else pure { db with
    content := db.content.moveObservation storyId accepted.id oldStory observationId
    work := completeWork "cluster_stories" (storyPairId storyId oldStory)
      accepted.sequence db.work }

def Db.applyStoryLink (db : Db) (accepted : AcceptedObject)
    (payload : StoryLinkPayload) : Result Db :=
  foldState (Db.linkObservation payload.storyId accepted) db payload.observationIds

def Db.applyAssessment (db : Db) (lineageId : String)
    (contribution : SignedContribution) (accepted : AcceptedObject)
    (payload : AssessmentPayload) : Result Db := do
  let content := db.content.putAssessment
    (assessmentRow P lineageId accepted.id contribution payload)
  let traceable ← filterOk (fun row => joinsTraceable P db.canonicalText? row.eventId)
    (content.assessments.filter fun row => row.storyId == payload.storyId)
  pure { db with
    content := content
    work :=
      if 2 ≤ traceable.length then
        completeWork "assess_story" payload.storyId accepted.sequence db.work
      else db.work }

def Db.applyWorkClaim (db : Db) (lineageId : String)
    (contribution : SignedContribution) (accepted : AcceptedObject)
    (payload : WorkClaimPayload) : Db :=
  let row : WorkClaimRow := {
    workId := payload.workId
    lineageId := lineageId
    eventId := accepted.id
    claimedAt := P.timestamp contribution.createdAt
    expiresAt := P.timestamp (contribution.createdAt + minutes payload.leaseMinutes)
    note := payload.note }
  let claims := upsert
    (fun stored => stored.workId == row.workId && stored.lineageId == row.lineageId)
    (fun _ => row) row db.work.claims
  { db with work := { db.work with claims := claims } }

def Db.applyWorkResult (db : Db) (lineageId : String)
    (contribution : SignedContribution) (accepted : AcceptedObject)
    (payload : WorkResultPayload) : Result Db := do
  let row : WorkResultRow := {
    workId := payload.workId
    lineageId := lineageId
    eventId := accepted.id
    outcome := payload.outcome
    summary := payload.summary
    evidenceJson := evidenceText P payload.evidence
    resultJson := P.toText payload.result
    createdAt := P.timestamp contribution.createdAt }
  let results := upsert
    (fun stored => stored.workId == row.workId && stored.lineageId == row.lineageId)
    (fun _ => row) row db.work.results
  let item ← okOr (db.work.items.find? fun item => item.workId == payload.workId)
    .database
  let received ← filterOk (fun row => joinsTraceable P db.canonicalText? row.eventId)
    (results.filter fun row => row.workId == payload.workId &&
      (row.outcome == .completed || row.outcome == .noMatch))
  let items :=
    if 0 < item.requiredResults ∧ item.requiredResults ≤ received.length then
      updateWhere (fun row => row.workId == payload.workId && row.status == .isOpen)
        (fun row => { row with
          status := .complete, completedSequence := some accepted.sequence })
        db.work.items
    else db.work.items
  pure { db with work := { db.work with items := items, results := results } }

def Db.applyCommons (db : Db) (lineageId : String) (contribution : SignedContribution)
    (accepted : AcceptedObject) : Result Db := do
  let origin ← db.projectionNodeId
  let commons ← projectCommonsContribution P origin accepted.sequence lineageId
    accepted.id contribution db.commons
  pure { db with commons := commons }

def Db.applyProjection (db : Db) (lineageId : String)
    (contribution : SignedContribution) (accepted : AcceptedObject) : Result Db :=
  let payload := contribution.payload
  match contribution.kind with
  | .sourceProposal => do
      db.applySourceProposal P lineageId accepted
        (← decodePayload SourceProposalPayload.ofJson payload)
  | .sourceReview => do
      db.applySourceReview P lineageId contribution accepted
        (← decodePayload (SourceReviewPayload.ofJson P) payload)
  | .observationVerification => do
      db.applyVerification P lineageId contribution accepted
        (← decodePayload (ObservationVerificationPayload.ofJson P) payload)
  | .storyLink => do
      db.applyStoryLink accepted (← decodePayload (StoryLinkPayload.ofJson P) payload)
  | .assessment => do
      db.applyAssessment P lineageId contribution accepted
        (← decodePayload (AssessmentPayload.ofJson P) payload)
  | .workClaim => do
      pure (db.applyWorkClaim P lineageId contribution accepted
        (← decodePayload WorkClaimPayload.ofJson payload))
  | .workResult => do
      db.applyWorkResult P lineageId contribution accepted
        (← decodePayload (WorkResultPayload.ofJson P) payload)
  | .topicProposal | .topicVote | .forumPost | .openPgpKey | .directMessage =>
      db.applyCommons P lineageId contribution accepted
  | .verificationTrace | .correction | .perspectiveGap | .translation | .commitment
  | .position | .continuityCheckpoint | .repositoryPatch | .codeReview
  | .buildAttestation | .releaseProposal | .releaseReview => pure db

def contributionInput (lineageId : String) (contribution : SignedContribution) :
    EventInput where
  kind := contribution.kind.asStr
  lineageId := some lineageId
  delegationId := some contribution.delegationId
  createdAt := contribution.createdAt
  authorNonce := some contribution.nonce
  targets := contribution.targets
  supersedes := contribution.supersedes
  payload := contribution.payload
  canonicalJson := P.jcs (contribution.toJson P)
  authorSignature := some contribution.signature

def Db.appendContribution (identity : NodeIdentity P) (lineageId : String)
    (contribution : SignedContribution) (now : ℤ) (db : Db) :
    Result (AcceptedObject × Db) := do
  db.validateProjection P lineageId contribution now
  let (accepted, db) ← appendEvent P identity (contributionInput P lineageId contribution)
    now db
  let db ← db.applyProjection P lineageId contribution accepted
  pure (accepted, db)

end

end Commonwake
