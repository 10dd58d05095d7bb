import Commonwake.Sample
import Commonwake.System

/-!
# Signed objects of a small node

The objects from which the concrete runs of this development are built, all
signed with the keys of the sample library.
-/

namespace Commonwake

namespace Sample

/-- The node whose log is run and imported. -/
def origin : NodeIdentity library := .ofSecret library [1]

/-- The node which imports. -/
def importer : NodeIdentity library := .ofSecret library [9]

/-- A registration, signed with its key. -/
def registration (secret : Bytes) (displayName nonce : String) (createdAt : ℤ) :
    LineageRegistration :=
  let draft : LineageRegistration := ⟨protocolVersion, displayName,
    library.encodeBase64 (library.publicKey secret), createdAt, nonce, ""⟩
  { draft with
    signature := library.signObject secret lineageDomain (draft.toJson library) }

def lineageOf (secret : Bytes) : String := library.lineageId (library.publicKey secret)

/-- A delegation from a lineage to a session, signed with the lineage key. -/
def delegation (secret session : Bytes) (scopes : List Scope) (notBefore expiresAt : ℤ)
    (nonce : String) : SessionDelegation :=
  let draft : SessionDelegation := ⟨protocolVersion, lineageOf secret,
    library.encodeBase64 (library.publicKey session), scopes, notBefore, expiresAt, nonce, ""⟩
  { draft with
    signature := library.signObject secret delegationDomain (draft.toJson library) }

/-- A contribution under a delegation, signed with the session key. -/
def contribution (session : Bytes) (delegation : SessionDelegation)
    (kind : ContributionKind) (nonce : String) (targets : List String)
    (reporting : ReportingDeclaration) (createdAt : ℤ) (payload : Json) :
    SignedContribution :=
  let draft : SignedContribution := ⟨protocolVersion, delegationId library delegation, kind,
    createdAt, nonce, targets, [], reporting, payload, ""⟩
  { draft with
    signature := library.signObject session contributionDomain (draft.toJson library) }

/-- A revocation of a delegation, signed with the lineage key. -/
def revocation (secret : Bytes) (delegation : SessionDelegation) (reason : String)
    (createdAt : ℤ) (nonce : String) : DelegationRevocation :=
  let draft : DelegationRevocation := ⟨protocolVersion, lineageOf secret,
    delegationId library delegation, reason, createdAt, nonce, ""⟩
  { draft with
    signature := library.signObject secret revocationDomain (draft.toJson library) }

/-- A node without artifacts. -/
def noArtifacts : ArtifactStore where
  hasForgeArtifact := fun _ => .ok false
  artifactReceipts := fun _ => .ok []

/-- A call which commits right after its checks. -/
def atOnce (call : Call) (now : ℤ) : List Action := [.check call now, .commit 0 now]

/-- The first lineage of the sample runs, and its session. -/
def firstRegistration : LineageRegistration :=
  registration [2] "First" "0123456789abcdef" 0

def firstDelegation : SessionDelegation :=
  delegation [2] [12] [.contribute, .ack] 0 (minutes 60) "0123456789abcdef"

def commitment (payload : Json) : SignedContribution :=
  contribution [12] firstDelegation .commitment "0123456789abcdef" [] .default 0 payload

/-- A lineage registers, delegates, and makes a commitment. -/
def commitmentRun (payload : Json) : List Action :=
  atOnce (.registerLineage firstRegistration) 0 ++
    atOnce (.registerDelegation firstDelegation) 0 ++
    atOnce (.acceptContribution noArtifacts (commitment payload)) 0

def oneHour : Json := .object [("hours", Serde.int 1)]

/-- An acknowledgement of the first session. -/
def acknowledgement (cursor : ℤ) (nonce : String) : SignedAcknowledgement :=
  let draft : SignedAcknowledgement := ⟨protocolVersion, delegationId library firstDelegation,
    cursor, ⟨"I read the log.", none, false⟩, 0, nonce, ""⟩
  { draft with
    signature := library.signObject [12] ackDomain (draft.toJson library) }

/-- The lineage acknowledges its commitment. -/
def acknowledgedRun : List Action :=
  commitmentRun oneHour ++ atOnce (.acknowledge (acknowledgement 3 "fedcba9876543210")) 0

/-! ## A newsroom -/

/-- The id which the node gives to the event of a contribution. -/
def eventIdOf (contribution : SignedContribution) : String :=
  library.prefixedId "cwevt_" (utf8 (library.jcs (contribution.toJson library)))

def accept (contribution : SignedContribution) : List Action :=
  atOnce (.acceptContribution noArtifacts contribution) 0

/-- The delegations of the two reviewers. -/
def secondDelegation : SessionDelegation :=
  delegation [3] [13] [.contribute, .sourceReview] 0 (minutes 60) "0123456789abcdef"

def thirdDelegation : SessionDelegation :=
  delegation [4] [14] [.contribute, .sourceReview] 0 (minutes 60) "0123456789abcdef"

def feedUrl : String := "https://a"

def sourceId : String := library.prefixedId "cwsrc_" (utf8 feedUrl)

def proposal : SignedContribution :=
  contribution [12] firstDelegation .sourceProposal "fedcba9876543210" [] .default 0
    (.object [("name", .string "Feed"), ("feed_url", .string feedUrl),
      ("medium", .string "text"), ("primary_regions", Serde.strings ["world"]),
      ("languages", Serde.strings ["en"]),
      ("rationale", .string "It reports what it sees.")])

/-- A trace with one check, about the given subject. -/
def trace (session : Bytes) (delegation : SessionDelegation) (nonce subject : String) :
    SignedContribution :=
  contribution session delegation .verificationTrace nonce [subject] .default 0
    (.object [("subject_id", .string subject), ("assertion", .string "It was read."),
      ("method", .string "Reading it."), ("outcome", .string "passed"),
      ("started_at", .string (library.dateTimeText 0)),
      ("completed_at", .string (library.dateTimeText 0)),
      ("checks", .array [.object [("name", .string "read"),
        ("outcome", .string "passed"), ("observed", .bool true)]])])

/-- A report which rests on a trace. -/
def report (session : Bytes) (delegation : SessionDelegation) (kind : ContributionKind)
    (nonce : String) (trace : SignedContribution) (payload : Json) : SignedContribution :=
  contribution session delegation kind nonce [] ⟨.traceable, [eventIdOf trace]⟩ 0 payload

def evidence : Json := .array [.object [("url", .string "https://b")]]

def approval : Json :=
  .object [("source_id", .string sourceId), ("recommendation", .string "approve"),
    ("evidence", evidence), ("notes", .string "")]

def sourceTrace : SignedContribution :=
  trace [13] secondDelegation "0123456789abcdef" sourceId

def lastReview : SignedContribution :=
  report [14] thirdDelegation .sourceReview "fedcba9876543210" sourceTrace approval

/-- Three lineages, a proposed source with one approval, and a second approval
which has passed its checks. -/
def reviewedRun : List Action :=
  atOnce (.registerLineage firstRegistration) 0 ++
    atOnce (.registerDelegation firstDelegation) 0 ++
    atOnce (.registerLineage (registration [3] "Second" "0123456789abcdef" 0)) 0 ++
    atOnce (.registerDelegation secondDelegation) 0 ++
    atOnce (.registerLineage (registration [4] "Third" "0123456789abcdef" 0)) 0 ++
    atOnce (.registerDelegation thirdDelegation) 0 ++
    accept proposal ++ accept sourceTrace ++
    accept (report [13] secondDelegation .sourceReview "fedcba9876543210" sourceTrace
      approval) ++
    [.check (.acceptContribution noArtifacts lastReview) 0]

/-- The source is admitted. -/
def openRun : List Action := reviewedRun ++ [.commit 0 0]

def feed : Feed := ⟨"feed", some "en", []⟩

def feedEntry (url title : String) : FeedEntry :=
  ⟨url, some title, none, none, none, [], [], []⟩

/-- The collector sees an entry of the source. -/
def observe (entry : FeedEntry) : Action := .observe sourceId ["en"] feed 0 entry 0

/-- The id of the observation of an entry. -/
def observationId (url title : String) : String :=
  observationIdOf library sourceId url
    (entryObservation library sourceId ["en"] feed 0 (feedEntry url title) url).documentHash

def firstObservation : String := observationId "https://1" "one"

def secondObservation : String := observationId "https://2" "two"

def observationTrace : SignedContribution :=
  trace [12] firstDelegation "0123456789abcdee" firstObservation

/-- The first observation is linked to the story of the given observation. -/
def linkTo (nonce observationId : String) : List Action :=
  accept (report [12] firstDelegation .storyLink nonce observationTrace
    (.object [("story_id", .string (storyIdOf library observationId)),
      ("observation_ids", Serde.strings [firstObservation]),
      ("rationale", .string "They tell the same story."), ("evidence", evidence)]))

/-- Two observations are linked, which merges the story of the first one. -/
def mergedRun : List Action :=
  openRun ++ [observe (feedEntry "https://1" "one"), observe (feedEntry "https://2" "two")] ++
    accept observationTrace ++ linkTo "0123456789abcded" secondObservation

/-- The first observation goes back to its story, which is still merged. -/
def relinkedRun : List Action := mergedRun ++ linkTo "0123456789abcdec" firstObservation

/-- The import of the whole log of a run, in one page. -/
def importLog (actions : List Action) : List Action :=
  match federationBundle library origin 0 maxFederationEvents 0
    (NodeState.run library origin actions).db with
  | .ok bundle => [.importBundle bundle 0 0 0]
  | .error _ => []

end Sample

end Commonwake
