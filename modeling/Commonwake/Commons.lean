import Commonwake.Authority

/-!
# The topic commons

Topics, votes, posts, OpenPGP keys and direct messages.  The node's own
records and the records of every origin share these tables, and the same
projection writes both.
-/

namespace Commonwake

open Outcome Table

/-- A text column compared as SQLite compares texts. -/
def maxText (texts : List String) : Option String :=
  texts.foldl (fun best text => match best with
    | some found => if found < text then some text else best
    | none => some text) none

structure TopicVoteTally where
  approvals : ℕ
  rejections : ℕ
  needsRevision : ℕ
  conflictedLineages : List String
  deriving DecidableEq

structure TopicVoteView where
  voterLineageId : String
  originNodeId : String
  originSequence : ℤ
  eventId : String
  choice : TopicVoteChoice
  rationale : String
  createdAt : ℤ

structure TopicView where
  topicId : String
  originNodeId : String
  proposalEventId : String
  proposerLineageId : String
  parentTopicId : Option String
  slug : String
  title : String
  summary : String
  charter : String
  tags : List String
  languages : List String
  archiveAfterDays : ℤ
  createdAt : ℤ
  lastActivityAt : ℤ
  status : String
  tally : TopicVoteTally
  votes : List TopicVoteView
  postCount : ℕ

section

variable (P : Primitives)

namespace CommonsTables

def topic? (tables : CommonsTables) (topicId : String) : Option ForumTopicRow :=
  tables.topics.find? fun row => row.topicId == topicId

/-- The choices of one voter on a topic, one for every origin which recorded
a vote of theirs. -/
def choicesOf (tables : CommonsTables) (topicId voter : String) :
    List TopicVoteChoice :=
  ((tables.votes.filter fun row =>
    row.topicId == topicId && row.voterLineageId == voter).map (·.choice)).dedup

/-- The voters on a topic without its proposer, in the order of their ids. -/
def votersOf (tables : CommonsTables) (topicId proposer : String) : List String :=
  (((tables.votes.filter fun row => row.topicId == topicId &&
    row.voterLineageId != proposer).map (·.voterLineageId)).dedup).mergeSort
      fun a b => decide (a ≤ b)

def topicVoteTally (tables : CommonsTables) (topicId proposer : String) :
    TopicVoteTally :=
  let voters := tables.votersOf topicId proposer
  let unanimous := fun choice => voters.filter fun voter =>
    tables.choicesOf topicId voter == [choice]
  { approvals := (unanimous .approve).length
    rejections := (unanimous .reject).length
    needsRevision := (unanimous .needsRevision).length
    conflictedLineages := voters.filter fun voter =>
      (tables.choicesOf topicId voter).length != 1 }

def TopicVoteTally.approved (tally : TopicVoteTally) : Bool :=
  2 ≤ tally.approvals && tally.rejections < tally.approvals

def topicIsApproved (tables : CommonsTables) (topicId : String) : Result Bool := do
  let topic ← okOr (tables.topic? topicId) (.notFound s!"forum topic {topicId}")
  pure (TopicVoteTally.approved (tables.topicVoteTally topicId topic.proposerLineageId))

def topicStatus (approved : Bool) (lastActivityAt archiveAfterDays now : ℤ) : String :=
  if approved = false then "proposed"
  else if now - lastActivityAt > days archiveAfterDays then "dormant"
  else "active"

def topicVoteViews (tables : CommonsTables) (topicId : String) :
    Result (List TopicVoteView) :=
  Outcome.traverse (fun row : TopicVoteRow => do
      pure {
        voterLineageId := row.voterLineageId
        originNodeId := row.originNodeId
        originSequence := row.originSequence
        eventId := row.eventId
        choice := row.choice
        rationale := row.rationale
        createdAt := ← P.parseTimestamp row.createdAt })
    ((tables.votes.filter fun row => row.topicId == topicId).mergeSort fun a b =>
      decide (a.voterLineageId < b.voterLineageId ∨
        (a.voterLineageId = b.voterLineageId ∧ a.originNodeId ≤ b.originNodeId)))

def topicView (tables : CommonsTables) (topicId : String) (now : ℤ) :
    Result TopicView := do
  let row ← okOr (tables.topic? topicId) (.notFound s!"forum topic {topicId}")
  let tally := tables.topicVoteTally topicId row.proposerLineageId
  let posts := tables.posts.filter fun post => post.topicId == topicId
  let createdAt ← P.parseTimestamp row.createdAt
  let lastActivityAt ← match maxText (posts.map (·.createdAt)) with
    | some text => P.parseTimestamp text
    | none => pure createdAt
  rejectIf (row.archiveAfterDays < 0 ∨ 2 ^ 32 ≤ row.archiveAfterDays)
    (.internal "stored topic dormancy interval is malformed")
  let votes ← tables.topicVoteViews P topicId
  pure {
    topicId := row.topicId
    originNodeId := row.originNodeId
    proposalEventId := row.proposalEventId
    proposerLineageId := row.proposerLineageId
    parentTopicId := row.parentTopicId
    slug := row.slug
    title := row.title
    summary := row.summary
    charter := row.charter
    tags := ← storedStrings P row.tagsJson
    languages := ← storedStrings P row.languagesJson
    archiveAfterDays := row.archiveAfterDays
    createdAt := createdAt
    lastActivityAt := lastActivityAt
    status := topicStatus (TopicVoteTally.approved tally) lastActivityAt
      row.archiveAfterDays now
    tally := tally
    votes := votes
    postCount := posts.length }

def openPgpKeyIsActive (tables : CommonsTables) (lineageId fingerprint : String) :
    Bool :=
  let rows := tables.openPgpKeys.filter fun row =>
    row.lineageId == lineageId && row.fingerprint == fingerprint
  (rows.any fun row => row.action == .publish) &&
    !(rows.any fun row => row.action == .revoke)

/-- The vote of a lineage on a topic which the given origin recorded. -/
def previousVote (tables : CommonsTables) (topicId voter origin : String) :
    Option TopicVoteRow :=
  tables.votes.find? fun row => row.topicId == topicId &&
    row.voterLineageId == voter && row.originNodeId == origin

/-- The announcement of a fingerprint which the given origin recorded. -/
def previousKey (tables : CommonsTables) (lineageId origin fingerprint : String) :
    Option OpenPgpKeyRow :=
  tables.openPgpKeys.find? fun row => row.lineageId == lineageId &&
    row.originNodeId == origin && row.fingerprint == fingerprint

end CommonsTables

/-! ## Routing -/

/-- The targets of a contribution must be its routed identifiers, and it
must supersede nothing. -/
def requireImmutableRouting (contribution : SignedContribution)
    (expected : List String) (label : String) : Result Unit := do
  requireExactTargets contribution.targets expected label
  requireNoSupersessions contribution label

def validateCommonsRouting (lineageId : String) (contribution : SignedContribution) :
    Result Unit :=
  let payload := contribution.payload
  match contribution.kind with
  | .topicProposal => do
      let proposal ← decodePayload TopicProposalPayload.ofJson payload
      requireImmutableRouting contribution proposal.parentTopicId.toList "topic proposal"
  | .topicVote => do
      let vote ← decodePayload TopicVotePayload.ofJson payload
      requireExactTargets contribution.targets [vote.topicId] "topic vote"
  | .forumPost => do
      let post ← decodePayload ForumPostPayload.ofJson payload
      requireImmutableRouting contribution
        (post.topicId :: (post.mentions ++ post.references)) "forum post"
  | .openPgpKey =>
      requireExactTargets contribution.targets [lineageId] "OpenPGP key"
  | .directMessage => do
      let message ← decodePayload DirectMessagePayload.ofJson payload
      requireImmutableRouting contribution [message.recipientLineageId] "direct message"
  | .repositoryPatch => do
      let patch ← decodePayload RepositoryPatchPayload.ofJson payload
      requireImmutableRouting contribution [patch.repositoryId] "repository patch"
  | .codeReview => do
      let review ← decodePayload CodeReviewPayload.ofJson payload
      requireImmutableRouting contribution [review.proposalEventId] "code review"
  | .buildAttestation => do
      let attestation ← decodePayload BuildAttestationPayload.ofJson payload
      requireImmutableRouting contribution [attestation.proposalEventId]
        "build attestation"
  | .releaseProposal => do
      let release ← decodePayload ReleaseProposalPayload.ofJson payload
      requireImmutableRouting contribution
        (release.repositoryId :: release.includedPatchEventIds) "release proposal"
  | .releaseReview => do
      let review ← decodePayload ReleaseReviewPayload.ofJson payload
      requireImmutableRouting contribution [review.releaseProposalEventId]
        "release review"
  | _ => pure ()

/-! ## Projection -/

def validateFederatedCommonsState (origin lineageId : String)
    (contribution : SignedContribution) (tables : CommonsTables) : Result Unit :=
  match contribution.kind with
  | .topicVote => do
      let vote ← decodePayload TopicVotePayload.ofJson contribution.payload
      rejectIf ((tables.topic? vote.topicId).map (·.proposerLineageId) = some lineageId)
        (.unauthorized "remote topic proposer attempted to supply an independent vote")
      requirePreviousSuperseded contribution
        ((tables.previousVote vote.topicId lineageId origin).map (·.eventId))
        "remote topic vote"
  | .openPgpKey => do
      let key ← decodePayload OpenPgpKeyPayload.ofJson contribution.payload
      rejectIf (presentAnd (fun eventId => !contribution.supersedes.contains eventId)
          ((tables.previousKey lineageId origin key.fingerprint).map (·.eventId)))
        (.unauthorized "remote OpenPGP key update does not supersede its previous same-origin announcement")
  | _ => pure ()

def projectCommonsContribution (origin : String) (sequence : ℤ)
    (lineageId eventId : String) (contribution : SignedContribution)
    (tables : CommonsTables) : Result CommonsTables :=
  let createdAt := P.timestamp contribution.createdAt
  match contribution.kind with
  | .topicProposal => do
      let payload ← decodePayload TopicProposalPayload.ofJson contribution.payload
      let row : ForumTopicRow := {
        topicId := P.prefixedId "cwtopic_" (utf8 eventId)
        originNodeId := origin
        originSequence := sequence
        proposalEventId := eventId
        proposerLineageId := lineageId
        parentTopicId := payload.parentTopicId
        slug := payload.slug
        title := payload.title
        summary := payload.summary
        charter := payload.charter
        tagsJson := P.toText (Serde.strings payload.tags)
        languagesJson := P.toText (Serde.strings payload.languages)
        archiveAfterDays := payload.archiveAfterDays
        createdAt := createdAt }
      let topics := insertOrIgnore
        (fun stored => stored.topicId == row.topicId ||
          (stored.originNodeId == origin && stored.proposalEventId == eventId))
        row tables.topics
      pure { tables with topics := topics }
  | .topicVote => do
      let payload ← decodePayload TopicVotePayload.ofJson contribution.payload
      let row : TopicVoteRow := {
        topicId := payload.topicId
        voterLineageId := lineageId
        originNodeId := origin
        originSequence := sequence
        eventId := eventId
        choice := payload.choice
        rationale := payload.rationale
        createdAt := createdAt }
      let same := fun stored : TopicVoteRow => stored.topicId == row.topicId &&
        stored.voterLineageId == lineageId && stored.originNodeId == origin
      rejectIf ((tables.votes.any fun stored => !same stored &&
        stored.originNodeId == origin && stored.eventId == eventId) = true) .database
      let votes := upsert same
        (fun stored => if stored.originSequence < sequence then row else stored)
        row tables.votes
      pure { tables with votes := votes }
  | .forumPost => do
      let payload ← decodePayload ForumPostPayload.ofJson contribution.payload
      let row : ForumPostRow := {
        postId := P.prefixedId "cwpost_" (utf8 eventId)
        originNodeId := origin
        originSequence := sequence
        eventId := eventId
        topicId := payload.topicId
        parentPostId := payload.parentPostId
        authorLineageId := lineageId
        subject := payload.subject
        body := payload.body
        language := payload.language
        mentionsJson := P.toText (Serde.strings payload.mentions)
        referencesJson := P.toText (Serde.strings payload.references)
        createdAt := createdAt }
      let posts := insertOrIgnore
        (fun stored => stored.postId == row.postId ||
          (stored.originNodeId == origin && stored.eventId == eventId))
        row tables.posts
      pure { tables with posts := posts }
  | .openPgpKey => do
      let payload ← decodePayload OpenPgpKeyPayload.ofJson contribution.payload
      rejectIf ((tables.previousKey lineageId origin payload.fingerprint).map
            (·.action) = some .revoke ∧ payload.action = .publish)
        (.validation "a revoked OpenPGP fingerprint cannot be republished")
      let row : OpenPgpKeyRow := {
        lineageId := lineageId
        originNodeId := origin
        fingerprint := payload.fingerprint
        originSequence := sequence
        eventId := eventId
        action := payload.action
        armoredPublicKey := payload.armoredPublicKey
        note := payload.note
        createdAt := createdAt }
      let same := fun stored : OpenPgpKeyRow => stored.lineageId == lineageId &&
        stored.originNodeId == origin && stored.fingerprint == payload.fingerprint
      rejectIf ((tables.openPgpKeys.any fun stored => !same stored &&
        stored.originNodeId == origin && stored.eventId == eventId) = true) .database
      let openPgpKeys := upsert same
        (fun stored => if stored.originSequence < sequence then row else stored)
        row tables.openPgpKeys
      pure { tables with openPgpKeys := openPgpKeys }
  | .directMessage => do
      let payload ← decodePayload DirectMessagePayload.ofJson contribution.payload
      let row : DirectMessageRow := {
        messageId := P.prefixedId "cwdm_" (utf8 eventId)
        originNodeId := origin
        originSequence := sequence
        eventId := eventId
        senderLineageId := lineageId
        recipientLineageId := payload.recipientLineageId
        recipientKeyFingerprint := payload.recipientKeyFingerprint
        ciphertextFormat := payload.ciphertextFormat
        ciphertext := payload.ciphertext
        createdAt := createdAt }
      let directMessages := insertOrIgnore
        (fun stored => stored.messageId == row.messageId ||
          (stored.originNodeId == origin && stored.eventId == eventId))
        row tables.directMessages
      pure { tables with directMessages := directMessages }
  | _ => pure tables

end

end Commonwake
