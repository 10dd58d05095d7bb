import Commonwake.Content
import Commonwake.Table

/-!
# The database

One row type for each table which a modelled function reads.  The tables of
a node about its own log and the tables it keeps about a remote origin have
the same rows for reviews, stories, observations, links, verifications and
assessments, so these are grouped in one structure, `ContentTables`, which
occurs once for the node and once for every origin.

Stored instants and stored JSON values are texts, as in the schema.
-/

namespace Commonwake

/-! ## The event log -/

/-- A row of `events`. -/
structure EventRow where
  sequence : ℤ
  eventId : String
  kind : String
  lineageId : Option String
  delegationId : Option String
  createdAt : String
  receivedAt : String
  authorNonce : Option String
  targetsJson : String
  supersedesJson : String
  payloadJson : String
  canonicalJson : String
  authorSignature : Option String
  previousHash : String
  eventHash : String
  nodeSignature : String
  deriving DecidableEq

/-- A row of `remote_events`. -/
structure RemoteEventRow where
  originSequence : ℤ
  eventId : String
  kind : String
  lineageId : Option String
  delegationId : Option String
  createdAt : String
  receivedAt : String
  authorNonce : Option String
  canonicalJson : String
  previousHash : String
  eventHash : String
  nodeSignature : String
  deriving DecidableEq

/-! ## Authority -/

/-- A row of `lineages`. -/
structure LineageRow where
  lineageId : String
  displayName : String
  publicKey : String
  createdAt : String
  registeredSequence : ℤ
  deriving DecidableEq

/-- A row of `federated_lineages`, which also holds the key version. -/
structure FederatedLineageRow extends LineageRow where
  keyVersion : ℤ
  deriving DecidableEq

/-- A row of `lineage_keys` or `federated_lineage_keys`. -/
structure LineageKeyRow where
  lineageId : String
  keyVersion : ℤ
  publicKey : String
  validFromSequence : ℤ
  validToSequence : Option ℤ
  deriving DecidableEq

/-- A row of `federated_delegations`. -/
structure DelegationRow where
  delegationId : String
  lineageId : String
  sessionPublicKey : String
  scopesJson : String
  notBefore : String
  expiresAt : String
  revokedSequence : Option ℤ
  registeredSequence : ℤ
  deriving DecidableEq

/-- A row of `delegations`, which also holds the nonce. -/
structure LocalDelegationRow extends DelegationRow where
  nonce : String
  deriving DecidableEq

/-- A row of `acknowledgements`. -/
structure AcknowledgementRow where
  lineageId : String
  cursor : ℤ
  eventId : String
  deriving DecidableEq

structure AuthorityTables where
  lineages : List LineageRow
  lineageKeys : List LineageKeyRow
  delegations : List LocalDelegationRow
  acknowledgements : List AcknowledgementRow

/-! ## Sources and stories -/

inductive SourceStatus where
  | proposed | probation | active | degraded | retired
  deriving DecidableEq, Repr

/-- A row of `sources`. -/
structure SourceRow where
  sourceId : String
  name : String
  feedUrl : String
  homepageUrl : Option String
  medium : String
  primaryRegionsJson : String
  languagesJson : String
  ownership : Option String
  perspectiveNotes : Option String
  minimumFetchIntervalMinutes : ℤ
  status : SourceStatus
  proposerLineageId : String
  proposalEventId : String
  successfulFetches : ℤ
  consecutiveFailures : ℤ
  deriving DecidableEq

/-- A row of `federated_sources`. -/
structure FederatedSourceRow where
  sourceId : String
  name : String
  feedUrl : String
  homepageUrl : Option String
  medium : String
  primaryRegionsJson : String
  languagesJson : String
  ownership : Option String
  perspectiveNotes : Option String
  minimumFetchIntervalMinutes : ℤ
  status : SourceStatus
  proposerLineageId : String
  proposalEventId : String
  createdSequence : ℤ
  deriving DecidableEq

structure SourceReviewRow where
  sourceId : String
  reviewerLineageId : String
  eventId : String
  recommendation : ReviewRecommendation
  evidenceJson : String
  notes : String
  createdAt : String
  deriving DecidableEq

structure StoryRow where
  storyId : String
  title : String
  firstSeenAt : String
  createdSequence : ℤ
  mergedInto : Option String
  deriving DecidableEq

structure ObservationRow where
  observationId : String
  sourceId : String
  canonicalUrl : String
  title : String
  summary : String
  publishedAt : Option String
  retrievedAt : String
  language : Option String
  documentHash : String
  createdSequence : ℤ
  deriving DecidableEq

structure StoryObservationRow where
  storyId : String
  observationId : String
  linkedEventId : Option String
  deriving DecidableEq

structure VerificationRow where
  observationId : String
  verifierLineageId : String
  eventId : String
  outcome : VerificationOutcome
  notes : String
  evidenceJson : String
  createdAt : String
  deriving DecidableEq

structure AssessmentRow where
  storyId : String
  assessorLineageId : String
  eventId : String
  summary : String
  significance : String
  confidence : String
  perspective : String
  claimsJson : String
  evidenceJson : String
  createdAt : String
  deriving DecidableEq

/-- The tables which a node keeps about its own log, and in the same form
about the log of every origin. -/
structure ContentTables where
  reviews : List SourceReviewRow
  stories : List StoryRow
  observations : List ObservationRow
  storyObservations : List StoryObservationRow
  verifications : List VerificationRow
  assessments : List AssessmentRow
  deriving DecidableEq

def ContentTables.empty : ContentTables := ⟨[], [], [], [], [], []⟩

/-! ## Work -/

inductive WorkStatus where
  | isOpen | complete | withdrawn
  deriving DecidableEq, Repr

/-- A row of `work_items`. -/
structure WorkItemRow where
  workId : String
  kind : String
  subjectType : String
  subjectId : String
  requiredResults : ℤ
  status : WorkStatus
  createdSequence : ℤ
  completedSequence : Option ℤ
  deriving DecidableEq

structure WorkClaimRow where
  workId : String
  lineageId : String
  eventId : String
  claimedAt : String
  expiresAt : String
  note : String
  deriving DecidableEq

structure WorkResultRow where
  workId : String
  lineageId : String
  eventId : String
  outcome : WorkOutcome
  summary : String
  evidenceJson : String
  resultJson : String
  createdAt : String
  deriving DecidableEq

structure WorkTables where
  items : List WorkItemRow
  claims : List WorkClaimRow
  results : List WorkResultRow
  deriving DecidableEq

/-! ## Topic commons -/

structure ForumTopicRow where
  topicId : String
  originNodeId : String
  originSequence : ℤ
  proposalEventId : String
  proposerLineageId : String
  parentTopicId : Option String
  slug : String
  title : String
  summary : String
  charter : String
  tagsJson : String
  languagesJson : String
  archiveAfterDays : ℤ
  createdAt : String
  deriving DecidableEq

structure TopicVoteRow where
  topicId : String
  voterLineageId : String
  originNodeId : String
  originSequence : ℤ
  eventId : String
  choice : TopicVoteChoice
  rationale : String
  createdAt : String
  deriving DecidableEq

structure ForumPostRow where
  postId : String
  originNodeId : String
  originSequence : ℤ
  eventId : String
  topicId : String
  parentPostId : Option String
  authorLineageId : String
  subject : Option String
  body : String
  language : String
  mentionsJson : String
  referencesJson : String
  createdAt : String
  deriving DecidableEq

structure OpenPgpKeyRow where
  lineageId : String
  originNodeId : String
  fingerprint : String
  originSequence : ℤ
  eventId : String
  action : OpenPgpKeyAction
  armoredPublicKey : Option String
  note : String
  createdAt : String
  deriving DecidableEq

structure DirectMessageRow where
  messageId : String
  originNodeId : String
  originSequence : ℤ
  eventId : String
  senderLineageId : String
  recipientLineageId : String
  recipientKeyFingerprint : String
  ciphertextFormat : String
  ciphertext : String
  createdAt : String
  deriving DecidableEq

/-- The tables of the topic commons, which hold the records of the node and
of every origin together. -/
structure CommonsTables where
  topics : List ForumTopicRow
  votes : List TopicVoteRow
  posts : List ForumPostRow
  openPgpKeys : List OpenPgpKeyRow
  directMessages : List DirectMessageRow
  deriving DecidableEq

def CommonsTables.empty : CommonsTables := ⟨[], [], [], [], []⟩

/-! ## Federation -/

/-- A row of `federation_peers`. -/
structure PeerRow where
  nodeId : String
  nodePublicKey : String
  firstSeenAt : String
  lastSeenAt : String
  cursor : ℤ
  eventHash : String
  checkpointJson : String
  deriving DecidableEq

/-- A row of `remote_checkpoints`. -/
structure RemoteCheckpointRow where
  cursor : ℤ
  eventHash : String
  createdAt : String
  signature : String
  checkpointJson : String
  deriving DecidableEq

/-- A row of `federated_story_events`. -/
structure StoryEventRow where
  storyId : String
  originSequence : ℤ
  deriving DecidableEq

/-- Everything which is stored about one origin. -/
structure OriginTables where
  remoteEvents : List RemoteEventRow
  remoteCheckpoints : List RemoteCheckpointRow
  lineages : List FederatedLineageRow
  lineageKeys : List LineageKeyRow
  delegations : List DelegationRow
  sources : List FederatedSourceRow
  content : ContentTables
  storyEvents : List StoryEventRow
  deriving DecidableEq

def OriginTables.empty : OriginTables :=
  ⟨[], [], [], [], [], [], .empty, []⟩

/-- A row of `equivocation_evidence`. -/
structure EquivocationRow where
  evidenceId : String
  originNodeId : String
  conflictKind : String
  cursor : ℤ
  existingHash : String
  incomingHash : String
  existingJson : String
  incomingJson : String
  deriving DecidableEq

/-- A row of `checkpoint_witnesses`. -/
structure CheckpointWitnessRow where
  originNodeId : String
  cursor : ℤ
  eventHash : String
  witnessEventId : String
  deriving DecidableEq

/-- A row of `federation_imports`. -/
structure FederationImportRow where
  importId : String
  originNodeId : String
  remoteFromCursor : ℤ
  remoteThroughCursor : ℤ
  localWitnessEventId : String
  localWitnessSequence : ℤ
  deriving DecidableEq

/-! ## The whole database -/

/-- The tables of a node.  Those which are keyed by an origin are a function
of the origin's node id. -/
structure Db where
  nodeId : Option String
  events : List EventRow
  authority : AuthorityTables
  sources : List SourceRow
  content : ContentTables
  work : WorkTables
  commons : CommonsTables
  peers : List PeerRow
  origins : String → OriginTables
  equivocationEvidence : List EquivocationRow
  checkpointWitnesses : List CheckpointWitnessRow
  federationImports : List FederationImportRow

namespace Db

/-- Replace what is stored about one origin. -/
def setOrigin (db : Db) (origin : String) (tables : OriginTables) : Db :=
  { db with origins := Function.update db.origins origin tables }

@[simp] theorem setOrigin_self (db : Db) (origin : String) (tables : OriginTables) :
    (db.setOrigin origin tables).origins origin = tables := by
  simp [setOrigin]

theorem setOrigin_of_ne (db : Db) {origin other : String} (tables : OriginTables)
    (h : other ≠ origin) :
    (db.setOrigin origin tables).origins other = db.origins other := by
  simp [setOrigin, h]

def peer? (db : Db) (nodeId : String) : Option PeerRow :=
  db.peers.find? fun row => row.nodeId == nodeId

def eventById? (db : Db) (eventId : String) : Option EventRow :=
  db.events.find? fun row => row.eventId == eventId

def lineage? (db : Db) (lineageId : String) : Option LineageRow :=
  db.authority.lineages.find? fun row => row.lineageId == lineageId

def delegation? (db : Db) (delegationId : String) : Option LocalDelegationRow :=
  db.authority.delegations.find? fun row => row.delegationId == delegationId

/-- `MAX(sequence)`, or zero for the empty log. -/
def head (db : Db) : ℤ :=
  match db.events.getLast? with
  | some row => row.sequence
  | none => 0

/-- The hash of the last event, or the zero hash. -/
def headHash (db : Db) : String :=
  match db.events.getLast? with
  | some row => row.eventHash
  | none => zeroHash

end Db

/-- The coverage areas for which `Database::open` seeds work. -/
def bootstrapSourceCoverage : List String :=
  ["global_multilateral", "east_southeast_asia", "south_central_asia",
   "middle_east_north_africa", "sub_saharan_africa", "europe",
   "latin_america_caribbean", "north_america", "oceania_pacific",
   "ai_research_systems", "ai_policy_society", "compute_energy_environment",
   "china_official_institutional", "china_scholarly_technical",
   "china_independent_civil_society", "china_diasporic_chinese_language",
   "china_regional_neighbors"]

def workIdOf (P : Primitives) (kind subjectId : String) : String :=
  P.prefixedId "cwwork_" (utf8 kind ++ 0 :: utf8 subjectId)

def insertWorkItem (P : Primitives) (kind subjectType subjectId : String)
    (requiredResults : ℤ) (sequence : ℤ) (work : WorkTables) : WorkTables :=
  let row : WorkItemRow := {
    workId := workIdOf P kind subjectId
    kind := kind
    subjectType := subjectType
    subjectId := subjectId
    requiredResults := requiredResults
    status := .isOpen
    createdSequence := sequence
    completedSequence := none }
  let items := Table.insertOrIgnore
    (fun stored => stored.workId == row.workId ||
      (stored.kind == kind && stored.subjectType == subjectType &&
        stored.subjectId == subjectId)) row work.items
  { work with items := items }

def seedBootstrapWork (P : Primitives) (work : WorkTables) : WorkTables :=
  bootstrapSourceCoverage.foldl
    (fun work subjectId =>
      insertWorkItem P "discover_sources" "coverage_area" subjectId 0 0 work) work

/-- The database of a new node: empty, except for the seeded work, and bound
to the node's identity. -/
def Db.init (P : Primitives) (nodeId : String) : Db where
  nodeId := some nodeId
  events := []
  authority := ⟨[], [], [], []⟩
  sources := []
  content := .empty
  work := seedBootstrapWork P ⟨[], [], []⟩
  commons := .empty
  peers := []
  origins := fun _ => .empty
  equivocationEvidence := []
  checkpointWitnesses := []
  federationImports := []

end Commonwake
