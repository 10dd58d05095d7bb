import Commonwake.LocalProjection

/-!
# Projecting the event of an origin

`validate_and_project_remote_event` is what an importer does with one event
of a remote log: it decodes the object again, checks its envelope, its time,
its author and its signature against the tables of that origin, and records
it there.
-/

namespace Commonwake

open Outcome Table

/-- What an event of an origin may change: the tables of the origin, and the
tables of the topic commons. -/
structure ImportState where
  tables : OriginTables
  commons : CommonsTables
  deriving DecidableEq

section

variable (P : Primitives)

/-! ## Envelopes -/

def verifyCheckpoint (checkpoint : Checkpoint) : Result Unit := do
  let key ← P.verifyingKeyFromB64 checkpoint.nodePublicKey
  rejectIf (P.prefixedId "cwnode_" key ≠ checkpoint.nodeId)
    (.unauthorized "checkpoint node id does not match its public key")
  P.verifyObject key checkpointDomain (checkpoint.toJson P) checkpoint.signature

def requireRemoteProtocol (protocol : String) : Result Unit :=
  rejectIf (protocol ≠ protocolVersion)
    (.validation s!"remote object uses unsupported protocol {protocol}")

def requireRemoteEventMetadata (event : OriginEvent)
    (lineageId delegationId : Option String) (createdAt : ℤ) : Result Unit := do
  rejectIf (event.lineageId ≠ lineageId ∨ event.delegationId ≠ delegationId ∨
      event.createdAt ≠ P.timestamp createdAt)
    (.unauthorized s!"remote event {event.sequence} metadata differs from its canonical signed object")
  let _ ← P.parseTimestamp event.receivedAt
  pure ()

def remoteReceivedAt (event : OriginEvent) : Result ℤ :=
  P.parseTimestamp event.receivedAt

namespace OriginTables

def lineage? (tables : OriginTables) (lineageId : String) :
    Option FederatedLineageRow :=
  tables.lineages.find? fun row => row.lineageId == lineageId

def delegation? (tables : OriginTables) (delegationId : String) :
    Option DelegationRow :=
  tables.delegations.find? fun row => row.delegationId == delegationId

def event? (tables : OriginTables) (eventId : String) : Option RemoteEventRow :=
  tables.remoteEvents.find? fun row => row.eventId == eventId

def knowsKey (tables : OriginTables) (publicKey : String) : Bool :=
  tables.lineageKeys.any fun row => row.publicKey == publicKey

end OriginTables

/-! ## Authority events -/

/-- The key of a lineage, for a check which an unknown lineage fails. -/
def OriginTables.currentKey (tables : OriginTables) (lineageId unknown : String) :
    Result Bytes := do
  let lineage ← okOr (tables.lineage? lineageId) (.unauthorized unknown)
  P.verifyingKeyFromB64 lineage.publicKey

def projectRegistration (event : OriginEvent) (tables : OriginTables) :
    Result (Option String × OriginTables) := do
  let registration ← okOr (LineageRegistration.ofJson P event.canonical) .json
  requireRemoteProtocol registration.protocol
  requireRemoteEventMetadata P event none none registration.createdAt
  validateDisplayName registration.displayName
  requireNonce registration.nonce
  validateAuthoredTimeAt registration.createdAt (← remoteReceivedAt P event)
  let key ← P.verifyingKeyFromB64 registration.publicKey
  P.verifyObject key lineageDomain (registration.toJson P) registration.signature
  let lineageId := P.lineageId key
  rejectIf (tables.knowsKey registration.publicKey = true)
    (.conflict "remote lineage public key is reused")
  let lineageRow : FederatedLineageRow := {
    lineageId := lineageId
    displayName := registration.displayName
    publicKey := registration.publicKey
    createdAt := P.timestamp registration.createdAt
    registeredSequence := event.sequence
    keyVersion := 0 }
  let lineages ← insertNew
    (fun stored : FederatedLineageRow => stored.lineageId == lineageId ||
      stored.publicKey == registration.publicKey) .database lineageRow tables.lineages
  let keyRow : LineageKeyRow :=
    ⟨lineageId, 0, registration.publicKey, event.sequence, none⟩
  let keys ← insertNew keyRow.clashes .database keyRow tables.lineageKeys
  pure (some registration.nonce,
    { tables with lineages := lineages, lineageKeys := keys })

def projectDelegation (event : OriginEvent) (tables : OriginTables) :
    Result (Option String × OriginTables) := do
  let delegation ← okOr (SessionDelegation.ofJson P event.canonical) .json
  requireRemoteProtocol delegation.protocol
  requireRemoteEventMetadata P event (some delegation.lineageId) none
    delegation.notBefore
  validateDelegationAt P delegation (← remoteReceivedAt P event)
  let key ← tables.currentKey P delegation.lineageId
    "remote delegation refers to an unknown lineage"
  P.verifyObject key delegationDomain (delegation.toJson P) delegation.signature
  let id := delegationId P delegation
  let delegations ← insertNew
    (fun stored : DelegationRow => stored.delegationId == id) .database
    (delegationRow P id delegation event.sequence) tables.delegations
  pure (some delegation.nonce, { tables with delegations := delegations })

def projectRevocation (event : OriginEvent) (tables : OriginTables) :
    Result (Option String × OriginTables) := do
  let revocation ← okOr (DelegationRevocation.ofJson P event.canonical) .json
  requireRemoteProtocol revocation.protocol
  requireRemoteEventMetadata P event (some revocation.lineageId) none
    revocation.createdAt
  validateAuthorityChangeAt revocation.nonce revocation.reason revocation.createdAt
    (← remoteReceivedAt P event)
  let key ← tables.currentKey P revocation.lineageId
    "remote revocation refers to an unknown lineage"
  P.verifyObject key revocationDomain (revocation.toJson P) revocation.signature
  let active := fun row : DelegationRow =>
    row.delegationId == revocation.delegationId &&
      row.lineageId == revocation.lineageId && row.revokedSequence.isNone
  rejectIf (tables.delegations.countP active ≠ 1)
    (.unauthorized "remote revocation does not name one active delegation owned by its lineage")
  let delegations := updateWhere active
    (fun row => { row with revokedSequence := some event.sequence }) tables.delegations
  pure (some revocation.nonce, { tables with delegations := delegations })

def projectRotation (event : OriginEvent) (tables : OriginTables) :
    Result (Option String × OriginTables) := do
  let rotation ← okOr (SignedKeyRotation.ofJson P event.canonical) .json
  let statement := rotation.statement
  requireRemoteProtocol statement.protocol
  requireRemoteEventMetadata P event (some statement.lineageId) none statement.createdAt
  validateAuthorityChangeAt statement.nonce statement.reason statement.createdAt
    (← remoteReceivedAt P event)
  let lineage ← okOr (tables.lineage? statement.lineageId)
    (.unauthorized "remote rotation refers to an unknown lineage")
  rejectIf (lineage.publicKey ≠ statement.previousPublicKey ∨
      statement.previousPublicKey = statement.newPublicKey)
    (.unauthorized "remote rotation does not advance the current lineage key")
  let previousKey ← P.verifyingKeyFromB64 statement.previousPublicKey
  let newKey ← P.verifyingKeyFromB64 statement.newPublicKey
  P.verifyObject previousKey keyRotationDomain (statement.toJson P)
    rotation.previousSignature
  P.verifyObject newKey keyRotationDomain (statement.toJson P) rotation.newSignature
  rejectIf (tables.knowsKey statement.newPublicKey = true)
    (.conflict "remote rotation reuses a historical lineage key")
  rejectIf ((tables.lineages.any fun row =>
      row.publicKey == statement.newPublicKey &&
        row.lineageId != statement.lineageId) = true) .database
  let lineages := updateWhere (fun row => row.lineageId == statement.lineageId)
    (fun row => { row with
      publicKey := statement.newPublicKey, keyVersion := lineage.keyVersion + 1 })
    tables.lineages
  let keyRow : LineageKeyRow := ⟨statement.lineageId, lineage.keyVersion + 1,
    statement.newPublicKey, event.sequence, none⟩
  let keys ← insertNew keyRow.clashes .database keyRow
    (closeKeys statement.lineageId event.sequence tables.lineageKeys)
  let delegations :=
    if statement.revokeExistingDelegations then
      updateWhere
        (fun row => row.lineageId == statement.lineageId && row.revokedSequence.isNone)
        (fun row => { row with revokedSequence := some event.sequence })
        tables.delegations
    else tables.delegations
  pure (some statement.nonce, { tables with
    lineages := lineages, lineageKeys := keys, delegations := delegations })

/-! ## The authority of a contribution or an acknowledgement -/

def authorizeRemoteDelegation (tables : OriginTables) (id : String)
    (requiredScope : Scope) (createdAt receivedAt : ℤ) :
    Result (String × String) := do
  let row ← okOr (tables.delegation? id)
    (.unauthorized "remote contribution refers to an unknown delegation")
  let scopes ← storedScopes P row.scopesJson
  let notBefore ← P.parseTimestamp row.notBefore
  let expiresAt ← P.parseTimestamp row.expiresAt
  rejectIf (row.revokedSequence ≠ none ∨ createdAt < notBefore ∨
      createdAt > expiresAt ∨ receivedAt > expiresAt + clockSkew ∨
      requiredScope ∉ scopes)
    (.unauthorized "remote contribution is outside its delegation authority")
  pure (row.lineageId, row.sessionPublicKey)

/-- The last acknowledgement of a lineage in a remote log. -/
def OriginTables.lastAcknowledgement (tables : OriginTables) (lineageId : String) :
    Option RemoteEventRow :=
  (tables.remoteEvents.filter fun row => row.lineageId == some lineageId &&
    row.kind == "acknowledgement").getLast?

def validateRemoteAckCursor (tables : OriginTables) (lineageId : String)
    (eventSequence cursor : ℤ) : Result Unit := do
  let currentHead := eventSequence - 1
  rejectIf (cursor < 0 ∨ cursor > currentHead)
    (.validation s!"remote acknowledgement cursor {cursor} is beyond its origin head {currentHead}")
  match tables.lastAcknowledgement lineageId with
  | some row => do
      let value ← okOr (P.parse row.canonicalJson) .json
      let previous ← okOr (SignedAcknowledgement.ofJson P value) .json
      let effective :=
        if previous.cursor = row.originSequence - 1 then row.originSequence
        else previous.cursor
      rejectIf (cursor < effective)
        (.conflict s!"remote acknowledgement cursor cannot move backward from {effective}")
  | none => pure ()

def projectAcknowledgement (event : OriginEvent) (tables : OriginTables) :
    Result (Option String) := do
  let acknowledgement ← okOr (SignedAcknowledgement.ofJson P event.canonical) .json
  requireRemoteProtocol acknowledgement.protocol
  requireNonce acknowledgement.nonce
  validateMemoryProvenance acknowledgement.memoryProvenance.statement
  let receivedAt ← remoteReceivedAt P event
  validateAuthoredTimeAt acknowledgement.createdAt receivedAt
  let (lineageId, sessionKey) ← authorizeRemoteDelegation P tables
    acknowledgement.delegationId .ack acknowledgement.createdAt receivedAt
  requireRemoteEventMetadata P event (some lineageId)
    (some acknowledgement.delegationId) acknowledgement.createdAt
  validateRemoteAckCursor P tables lineageId event.sequence acknowledgement.cursor
  let key ← P.verifyingKeyFromB64 sessionKey
  P.verifyObject key ackDomain (acknowledgement.toJson P) acknowledgement.signature
  pure (some acknowledgement.nonce)

/-! ## Observations and witnesses -/

def linkFederatedStoryEvent (storyId : String) (sequence : ℤ)
    (tables : OriginTables) : OriginTables :=
  if tables.content.hasUnmergedStory storyId then
    { tables with
      storyEvents := insertOrIgnore (fun stored => stored == ⟨storyId, sequence⟩)
        ⟨storyId, sequence⟩ tables.storyEvents }
  else tables

def maxTitleChars : ℕ := 500

def maxSummaryChars : ℕ := 2000

def projectFederatedObservation (sequence : ℤ)
    (observation : FederatedObservationPayload) (tables : OriginTables) :
    Result OriginTables := do
  rejectIf ((tables.sources.any fun row => row.sourceId == observation.sourceId &&
      (row.status == .probation || row.status == .active)) = false)
    (.unauthorized "remote observation does not follow an independently reviewed source")
  rejectIf (charCount observation.title > maxTitleChars ∨
      charCount observation.summary > maxSummaryChars)
    (.validation "remote observation exceeds collector text limits")
  rejectIf (observation.documentHash ≠ documentHashOf P observation.canonicalUrl
      observation.title observation.summary observation.publishedAt
      observation.rawMetadata)
    (.unauthorized "remote observation document hash does not match its canonical metadata")
  rejectIf (observation.observationId ≠ observationIdOf P observation.sourceId
      observation.canonicalUrl observation.documentHash)
    (.unauthorized "remote observation id does not match its source, URL, and document hash")
  let expectedStory := (tables.content.existingStory observation.sourceId
    observation.canonicalUrl).getD (storyIdOf P observation.observationId)
  rejectIf (observation.storyId ≠ expectedStory)
    (.unauthorized "remote observation story id does not follow the origin clustering rule")
  let content ← tables.content.addObservation
    (fun stored => stored.observationId == observation.observationId)
    (observedStory P observation sequence) (observedRow P observation sequence)
  pure (linkFederatedStoryEvent observation.storyId sequence
    { tables with content := content })

def projectObservation (event : OriginEvent) (tables : OriginTables) :
    Result OriginTables := do
  let observation ← okOr (FederatedObservationEnvelope.ofJson P event.canonical) .json
  requireRemoteProtocol observation.protocol
  rejectIf (observation.kind ≠ "observation")
    (.validation "remote observation envelope has the wrong kind")
  requireRemoteEventMetadata P event none none observation.payload.retrievedAt
  validateAuthoredTimeAt observation.payload.retrievedAt (← remoteReceivedAt P event)
  projectFederatedObservation P event.sequence observation.payload tables

def validateWitness (origin : String) (event : OriginEvent) : Result Unit := do
  let witness ← okOr (CheckpointWitness.ofJson P event.canonical) .json
  requireRemoteProtocol witness.protocol
  requireRemoteEventMetadata P event none none witness.observedAt
  verifyCheckpoint P witness.originCheckpoint
  rejectIf (witness.originCheckpoint.nodeId ≠ witness.originNodeId ∨
      witness.originCheckpoint.nodePublicKey ≠ witness.originNodePublicKey ∨
      witness.originCheckpoint.cursor ≠ witness.cursor ∨
      witness.originCheckpoint.eventHash ≠ witness.eventHash)
    (.unauthorized "remote checkpoint witness summary differs from its signed origin checkpoint")
  let key ← P.verifyingKeyFromB64 witness.witnessNodePublicKey
  rejectIf (P.prefixedId "cwnode_" key ≠ witness.witnessNodeId ∨
      witness.witnessNodeId ≠ origin)
    (.unauthorized "remote checkpoint witness misstates its witnessing node")
  P.verifyObject key witnessDomain (witness.toJson P) witness.signature

/-! ## Reports and forge records -/

/-- The canonical text of a stored trace before the given event. -/
def OriginTables.traceText? (tables : OriginTables) (beforeSequence : ℤ)
    (traceEventId : String) : Option String :=
  (tables.remoteEvents.find? fun row => row.eventId == traceEventId &&
    row.kind == "verification_trace" &&
    decide (row.originSequence < beforeSequence)).map (·.canonicalJson)

def remoteTraceSubject (tables : OriginTables) (beforeSequence : ℤ)
    (traceEventId : String) : Result (Option String) :=
  traceSubject P (tables.traceText? beforeSequence traceEventId)

def validateRemoteReporting (tables : OriginTables) (sequence : ℤ)
    (contribution : SignedContribution) : Result Unit := do
  if contribution.kind = .verificationTrace then
    let payload ← decodePayload (VerificationTracePayload.ofJson P) contribution.payload
    forEach (fun parent => do
      rejectIf ((← remoteTraceSubject P tables sequence parent) = none)
        (.unauthorized s!"remote verification trace names missing or later parent {parent}"))
      payload.parentTraceEventIds
  else if contribution.reporting.isTraceable = false then
    -- Reports of origins without traces stay importable and unverified.
    rejectIf (contribution.kind.isForge = true ∧
        contribution.kind.requiresTraceableReporting = true)
      (.unauthorized "remote evidentiary forge record is missing its required verification trace")
  else
    let subjects ← reportSubjectIds P contribution
    rejectIf (subjects = [])
      (.unauthorized "remote traceable report has no routed subject identifier")
    forEach (fun traceId => do
      let subject ← okOr (← remoteTraceSubject P tables sequence traceId)
        (.unauthorized s!"remote report names missing or later verification trace {traceId}")
      rejectIf (subject ∉ subjects)
        (.unauthorized s!"remote verification trace {traceId} concerns {subject}, not the report's subjects"))
      contribution.reporting.traceEventIds

/-- The author and the text of a stored event of the given kind. -/
def OriginTables.forgeSubject (tables : OriginTables) (eventId kind : String)
    (error : CommonwakeError) : Result (String × String) := do
  let row ← okOr (tables.remoteEvents.find? fun row =>
    row.eventId == eventId && row.kind == kind) error
  let lineageId ← okOr row.lineageId .database
  pure (lineageId, row.canonicalJson)

def remoteForgeCanonical (tables : OriginTables) (eventId kind : String) :
    Result String := do
  let row ← okOr (tables.remoteEvents.find? fun row =>
      row.eventId == eventId && row.kind == kind)
    (.unauthorized s!"remote forge event {eventId} is unknown, later, or the wrong kind")
  pure row.canonicalJson

def validateRemoteForgeState (tables : OriginTables) (lineageId : String)
    (contribution : SignedContribution) : Result Unit :=
  let payload := contribution.payload
  match contribution.kind with
  | .codeReview => do
      let review ← decodePayload CodeReviewPayload.ofJson payload
      let (proposer, canonicalJson) ← tables.forgeSubject review.proposalEventId
        "repository_patch"
        (.unauthorized "remote code review refers to an unknown or later patch")
      rejectIf (proposer = lineageId)
        (.unauthorized "remote patch proposer attempted to review its own patch")
      validateCodeReviewSubject P review canonicalJson
  | .buildAttestation => do
      let attestation ← decodePayload BuildAttestationPayload.ofJson payload
      let canonicalJson ← remoteForgeCanonical tables attestation.proposalEventId
        "repository_patch"
      validateBuildAttestationSubject P attestation canonicalJson
  | .releaseProposal => do
      let release ← decodePayload ReleaseProposalPayload.ofJson payload
      forEach (fun eventId => do
        let canonicalJson ← remoteForgeCanonical tables eventId "repository_patch"
        validateIncludedPatch P
          (.unauthorized "remote release includes a patch for a different repository")
          release.repositoryId canonicalJson) release.includedPatchEventIds
  | .releaseReview => do
      let review ← decodePayload ReleaseReviewPayload.ofJson payload
      let (proposer, canonicalJson) ← tables.forgeSubject review.releaseProposalEventId
        "release_proposal"
        (.unauthorized "remote release review refers to an unknown or later proposal")
      rejectIf (proposer = lineageId)
        (.unauthorized "remote release proposer attempted to review its own release")
      validateReleaseReviewSubject P review canonicalJson
  | .repositoryPatch => pure ()
  | _ => throw (.internal "non-forge contribution entered forge validation")

/-! ## Contributions -/

def federateSourceProposal (lineageId : String) (event : OriginEvent)
    (payload : SourceProposalPayload) (tables : OriginTables) :
    Result OriginTables := do
  validateSourceProposal P payload
  let feedUrl ← normalizeHttpUrl P payload.feedUrl
  let homepageUrl ← normalizedHomepage P payload
  let row : FederatedSourceRow := {
    sourceId := P.prefixedId "cwsrc_" (utf8 feedUrl)
    name := payload.name
    feedUrl := feedUrl
    homepageUrl := homepageUrl
    medium := payload.medium
    primaryRegionsJson := P.toText (Serde.strings payload.primaryRegions)
    languagesJson := P.toText (Serde.strings payload.languages)
    ownership := payload.ownership
    perspectiveNotes := payload.perspectiveNotes
    minimumFetchIntervalMinutes := payload.minimumFetchIntervalMinutes
    status := .proposed
    proposerLineageId := lineageId
    proposalEventId := event.eventId
    createdSequence := event.sequence }
  let sources ← insertNew
    (fun stored : FederatedSourceRow => stored.sourceId == row.sourceId) .database row
    tables.sources
  pure { tables with sources := sources }

/-- The canonical text of a stored event. -/
def OriginTables.canonicalText? (tables : OriginTables) (eventId : String) :
    Option String :=
  (tables.event? eventId).map (·.canonicalJson)

def admitFederatedSource (sourceId : String) :
    List FederatedSourceRow → List FederatedSourceRow :=
  updateWhere (fun row => row.sourceId == sourceId && row.status == .proposed)
    fun row => { row with status := .probation }

def federateSourceReview (lineageId : String) (event : OriginEvent)
    (contribution : SignedContribution) (payload : SourceReviewPayload)
    (tables : OriginTables) : Result OriginTables := do
  let source ← okOr (tables.sources.find? fun row => row.sourceId == payload.sourceId)
    (.unauthorized "remote review refers to an unknown source")
  rejectIf (source.proposerLineageId = lineageId ∨ payload.evidence = [])
    (.unauthorized "remote source review is not independent and evidence-bearing")
  let content := tables.content.putReview
    (reviewRow P lineageId event.eventId contribution payload)
  let stored ← filterOk
    (fun row => joinsTraceable P tables.canonicalText? row.eventId)
    (content.reviews.filter fun row => row.sourceId == payload.sourceId &&
      row.recommendation == .approve)
  -- The event of this review is stored only after its projection.
  let approvals := stored.length +
    (if contribution.reporting.isTraceable && payload.recommendation == .approve
      then 1 else 0)
  pure { tables with
    content := content
    sources :=
      if 2 ≤ approvals then admitFederatedSource payload.sourceId tables.sources
      else tables.sources }

def federateVerification (lineageId : String) (event : OriginEvent)
    (contribution : SignedContribution) (payload : ObservationVerificationPayload)
    (tables : OriginTables) : Result OriginTables := do
  rejectIf (tables.content.hasObservation payload.observationId = false)
    (.unauthorized "remote verification refers to an unknown observation")
  let content := tables.content.putVerification
    (verificationRow P lineageId event.eventId contribution payload)
  let storyId ← okOr (content.storyOf? payload.observationId) .database
  pure (linkFederatedStoryEvent storyId event.sequence
    { tables with content := content })

/-- One iteration of the loop over the observations of a story link. -/
def federateLink (storyId eventId : String) (content : ContentTables)
    (observationId : String) : Result ContentTables := do
  let oldStory ← okOr (content.storyOf? observationId)
    (.unauthorized "remote story link refers to an unknown observation")
  if oldStory = storyId then pure content
  else pure (content.moveObservation storyId eventId oldStory observationId)

def federateStoryLink (event : OriginEvent) (payload : StoryLinkPayload)
    (tables : OriginTables) : Result OriginTables := do
  rejectIf (payload.observationIds = [])
    (.validation "remote story link must name at least one observation")
  rejectIf (tables.content.hasUnmergedStory payload.storyId = false)
    (.unauthorized "remote story link refers to an unknown story")
  let content ← foldState (federateLink payload.storyId event.eventId) tables.content
    payload.observationIds
  pure (linkFederatedStoryEvent payload.storyId event.sequence
    { tables with content := content })

def federateAssessment (lineageId : String) (event : OriginEvent)
    (contribution : SignedContribution) (payload : AssessmentPayload)
    (tables : OriginTables) : Result OriginTables := do
  rejectIf (payload.evidence = [])
    (.unauthorized "remote assessment has no evidence")
  rejectIf (tables.content.hasUnmergedStory payload.storyId = false)
    (.unauthorized "remote assessment refers to an unknown story")
  let content := tables.content.putAssessment
    (assessmentRow P lineageId event.eventId contribution payload)
  pure (linkFederatedStoryEvent payload.storyId event.sequence
    { tables with content := content })

/-- Link an event to every story among its targets. -/
def linkTargets (event : OriginEvent) (targets : List String)
    (tables : OriginTables) : OriginTables :=
  targets.foldl (fun tables storyId =>
    linkFederatedStoryEvent storyId event.sequence tables) tables

def federateCorrection (event : OriginEvent) (contribution : SignedContribution)
    (payload : CorrectionPayload) (tables : OriginTables) : Result OriginTables := do
  rejectIf (byteLen (trim payload.correction) < 10 ∨ byteLen (trim payload.reason) < 10)
    (.validation "remote correction and reason must each be substantive")
  rejectIf (payload.evidence = [] ∨ payload.subjectEventId ∉ contribution.supersedes)
    (.validation "remote correction must carry evidence and supersede its subject event")
  rejectIf (tables.event? payload.subjectEventId = none)
    (.unauthorized "remote correction refers to an unknown origin event")
  pure (linkTargets event contribution.targets tables)

/-- The part of `apply_federated_contribution` which depends on the kind. -/
def federateKind (origin lineageId : String) (event : OriginEvent)
    (contribution : SignedContribution) (state : ImportState) :
    Result ImportState :=
  let payload := contribution.payload
  let tables := state.tables
  match contribution.kind with
  | .sourceProposal => do
      let proposal ← decodePayload SourceProposalPayload.ofJson payload
      pure { state with tables := ← federateSourceProposal P lineageId event proposal tables }
  | .sourceReview => do
      let review ← decodePayload (SourceReviewPayload.ofJson P) payload
      pure { state with
        tables := ← federateSourceReview P lineageId event contribution review tables }
  | .observationVerification => do
      let verification ← decodePayload (ObservationVerificationPayload.ofJson P) payload
      pure { state with
        tables := ← federateVerification P lineageId event contribution verification tables }
  | .storyLink => do
      let link ← decodePayload (StoryLinkPayload.ofJson P) payload
      pure { state with tables := ← federateStoryLink event link tables }
  | .assessment => do
      let assessment ← decodePayload (AssessmentPayload.ofJson P) payload
      pure { state with
        tables := ← federateAssessment P lineageId event contribution assessment tables }
  | .correction => do
      let correction ← decodePayload (CorrectionPayload.ofJson P) payload
      pure { state with
        tables := ← federateCorrection event contribution correction tables }
  | .perspectiveGap | .translation =>
      pure { state with tables := linkTargets event contribution.targets tables }
  | .workClaim => do
      let claim ← decodePayload WorkClaimPayload.ofJson payload
      rejectIf (claim.leaseMinutes < 1 ∨ claim.leaseMinutes > 240)
        (.validation "remote work claim lease must be between 1 and 240 minutes")
      pure state
  | .workResult => do
      let result ← decodePayload (WorkResultPayload.ofJson P) payload
      rejectIf (byteLen (trim result.summary) < 10 ∨ result.evidence = [])
        (.validation "remote work result requires a substantive summary and evidence")
      pure state
  | .topicProposal | .topicVote | .forumPost | .openPgpKey | .directMessage => do
      validateCommonsRouting lineageId contribution
      validateFederatedCommonsState origin lineageId contribution state.commons
      pure { state with
        commons := ← projectCommonsContribution P origin event.sequence lineageId
          event.eventId contribution state.commons }
  | .repositoryPatch | .codeReview | .buildAttestation | .releaseProposal
  | .releaseReview => do
      validateCommonsRouting lineageId contribution
      validateRemoteForgeState P tables lineageId contribution
      pure state
  | .verificationTrace | .commitment | .position | .continuityCheckpoint => pure state

def applyFederatedContribution (origin lineageId : String) (event : OriginEvent)
    (contribution : SignedContribution) (state : ImportState) :
    Result ImportState := do
  validateContributionContent P contribution
  validateRemoteReporting P state.tables event.sequence contribution
  federateKind P origin lineageId event contribution state

def projectContribution (origin : String) (event : OriginEvent)
    (state : ImportState) : Result (Option String × ImportState) := do
  let contribution ← okOr (SignedContribution.ofJson P event.canonical) .json
  requireRemoteProtocol contribution.protocol
  requireNonce contribution.nonce
  validateLists contribution.targets contribution.supersedes
  rejectIf (event.kind ≠ contribution.kind.asStr)
    (.unauthorized "remote contribution kind differs from its canonical signed object")
  let receivedAt ← remoteReceivedAt P event
  validateAuthoredTimeAt contribution.createdAt receivedAt
  let (lineageId, sessionKey) ← authorizeRemoteDelegation P state.tables
    contribution.delegationId contribution.kind.requiredScope contribution.createdAt
    receivedAt
  requireRemoteEventMetadata P event (some lineageId) (some contribution.delegationId)
    contribution.createdAt
  let key ← P.verifyingKeyFromB64 sessionKey
  P.verifyObject key contributionDomain (contribution.toJson P) contribution.signature
  let state ← applyFederatedContribution P origin lineageId event contribution state
  pure (some contribution.nonce, state)

/-- Check an event of an origin against what is stored about that origin and
record it.  The result holds the nonce of the author. -/
def validateAndProjectRemoteEvent (origin : String) (event : OriginEvent)
    (state : ImportState) : Result (Option String × ImportState) :=
  match event.kind with
  | "lineage_registered" => do
      let (nonce, tables) ← projectRegistration P event state.tables
      pure (nonce, { state with tables := tables })
  | "delegation_registered" => do
      let (nonce, tables) ← projectDelegation P event state.tables
      pure (nonce, { state with tables := tables })
  | "delegation_revoked" => do
      let (nonce, tables) ← projectRevocation P event state.tables
      pure (nonce, { state with tables := tables })
  | "lineage_key_rotated" => do
      let (nonce, tables) ← projectRotation P event state.tables
      pure (nonce, { state with tables := tables })
  | "acknowledgement" => do
      let nonce ← projectAcknowledgement P event state.tables
      pure (nonce, state)
  | "observation" => do
      let tables ← projectObservation P event state.tables
      pure (none, { state with tables := tables })
  | "checkpoint_witnessed" => do
      validateWitness P origin event
      pure (none, state)
  | _ => projectContribution P origin event state

end

end Commonwake
