import Commonwake.TopicTally

/-!
# The commons converge

Two nodes which know the same contributions to the commons agree about them, in
whatever order, in whatever pages and through whatever calls these came.  A
contribution which several origins have logged is recorded once, and only the
origin which is named for it depends on the order.
-/

namespace Commonwake

open Outcome Table HashChain LastWriter

/-! ## What is compared -/

/-- The topic without the record of where it came from. -/
def ForumTopicRow.content (row : ForumTopicRow) : ForumTopicRow :=
  { row with originNodeId := "", originSequence := 0 }

def ForumPostRow.content (row : ForumPostRow) : ForumPostRow :=
  { row with originNodeId := "", originSequence := 0 }

def DirectMessageRow.content (row : DirectMessageRow) : DirectMessageRow :=
  { row with originNodeId := "", originSequence := 0 }

def TopicView.content (view : TopicView) : TopicView :=
  { view with originNodeId := "" }

/-- The two commons agree. -/
structure CommonsTables.Converged (P : Primitives) (first second : CommonsTables) : Prop where
  topics : (first.topics.map ForumTopicRow.content).Perm
    (second.topics.map ForumTopicRow.content)
  posts : (first.posts.map ForumPostRow.content).Perm (second.posts.map ForumPostRow.content)
  messages : (first.directMessages.map DirectMessageRow.content).Perm
    (second.directMessages.map DirectMessageRow.content)
  tally : ∀ topicId proposer,
    first.topicVoteTally topicId proposer = second.topicVoteTally topicId proposer
  approved : ∀ topicId, first.topicIsApproved topicId = second.topicIsApproved topicId
  view : ∀ topicId now, (first.topicView P topicId now).map TopicView.content =
    (second.topicView P topicId now).map TopicView.content
  keys : ∀ lineageId fingerprint,
    first.openPgpKeyIsActive lineageId fingerprint =
      second.openPgpKeyIsActive lineageId fingerprint

section

variable (P : Primitives)

/-- The record with its contribution in canonical form. -/
def CommonsRecord.canonical (record : CommonsRecord) : CommonsRecord :=
  { record with contribution := record.contribution.canonical P }

def Db.canonicalLog (db : Db) (own origin : String) : List CommonsRecord :=
  (db.commonsLog P own origin).map (CommonsRecord.canonical P)

/-- The canonical form of a record which was read from a log. -/
def CommonsRecord.FromLog (inputs : Set Bytes) (record : CommonsRecord) : Prop :=
  ∃ source : CommonsRecord, source.Known P inputs ∧ source.canonical P = record

end

section

variable {P : Primitives} {records others : List CommonsRecord}
  {tables next first second : CommonsTables} {inputs : Set Bytes}

/-! ## Records in canonical form -/

theorem foldState_canonical (h : foldState (CommonsTables.record P) tables records = .ok next) :
    foldState (CommonsTables.record P) tables (records.map (CommonsRecord.canonical P)) =
      .ok next := by
  induction records generalizing tables with
  | nil => exact h
  | cons record rest ih =>
      obtain ⟨middle, hrecord, hrest⟩ := bind_eq_ok.mp h
      exact bind_eq_ok.mpr ⟨middle, projectCommonsContribution_canonical hrecord, ih hrest⟩

theorem filter_canonical (origin : String) (records : List CommonsRecord) :
    ((records.map (CommonsRecord.canonical P)).filter fun record => record.origin == origin) =
      (records.filter fun record => record.origin == origin).map
        (CommonsRecord.canonical P) := by
  rw [List.filter_map]
  rfl

theorem Ordered.canonical (h : Ordered records) :
    Ordered (records.map (CommonsRecord.canonical P)) := by
  intro origin
  rw [filter_canonical, List.pairwise_map]
  exact h origin

/-- The commons of a node hold what the canonical records of the known logs have
written. -/
theorem run_canonicalReplayOf (identity : NodeIdentity P) (actions : List Action) :
    ∃ records, (NodeState.run P identity actions).db.commons.ReplayOf P records ∧
      Ordered records ∧
      (∀ origin, (NodeState.run P identity actions).db.canonicalLog P identity.nodeId origin =
        records.filter fun record => record.origin == origin) ∧
      ∀ record ∈ records, record.FromLog P
        ((NodeState.run P identity actions).db.idInputs P identity.nodeId) := by
  obtain ⟨records, -, hreplay, hordered, hlogs⟩ := run_replayOf (P := P) identity actions
  refine ⟨records.map (CommonsRecord.canonical P),
    CommonsTables.replayOf hordered.canonical (foldState_canonical hreplay),
    hordered.canonical, ?_, ?_⟩
  · intro origin
    unfold Db.canonicalLog
    rw [hlogs, filter_canonical]
  · intro record hrecord
    obtain ⟨source, hsource, rfl⟩ := List.mem_map.mp hrecord
    refine ⟨source, run_recordsKnown identity actions source.origin source ?_, rfl⟩
    rw [hlogs, List.mem_filter, beq_self_eq_true]
    exact ⟨hsource, rfl⟩

theorem CommonsRecord.FromLog.mono {larger : Set Bytes} {record : CommonsRecord}
    (h : record.FromLog P inputs) (hsub : inputs ⊆ larger) : record.FromLog P larger := by
  obtain ⟨source, hsource, hrecord⟩ := h
  exact ⟨source, hsource.mono hsub, hrecord⟩

theorem CommonsRecord.FromLog.same {record other : CommonsRecord}
    (h : record.FromLog P inputs) (hother : other.FromLog P inputs)
    (hcollision : Set.InjOn P.sha256 inputs) (hid : record.eventId = other.eventId) :
    record.contribution = other.contribution ∧ record.lineageId = other.lineageId := by
  obtain ⟨source, hsource, rfl⟩ := h
  obtain ⟨origin, horigin, rfl⟩ := hother
  exact hsource.same horigin hcollision hid

theorem CommonsRecord.FromLog.eventId {record : CommonsRecord} (h : record.FromLog P inputs) :
    utf8 record.eventId ∈ inputs := by
  obtain ⟨source, hsource, rfl⟩ := h
  exact hsource.eventId

/-! ## The same logs -/

/-- Logs in the order of their numbers which hold the same records are equal. -/
theorem log_eq_of_mem_iff {log known : List CommonsRecord}
    (hlog : log.Pairwise fun first second => first.sequence < second.sequence)
    (hknown : known.Pairwise fun first second => first.sequence < second.sequence)
    (h : ∀ record, record ∈ log ↔ record ∈ known) : log = known := by
  have hnodup : ∀ {records : List CommonsRecord},
      records.Pairwise (fun first second => first.sequence < second.sequence) →
        records.Nodup := by
    intro records hpairwise
    refine hpairwise.imp ?_
    rintro record other hless rfl
    exact lt_irrefl _ hless
  refine List.Perm.eq_of_pairwise ?_ hlog hknown
    ((List.perm_ext_iff_of_nodup (hnodup hlog) (hnodup hknown)).mpr h)
  intro record other _ _ hless hmore
  exact absurd hless (lt_asymm hmore)

/-- The records of two nodes which know the same logs. -/
structure SameRecords (P : Primitives) (inputs : Set Bytes)
    (records others : List CommonsRecord) : Prop where
  logs : ∀ origin, (records.filter fun record => record.origin == origin) =
    others.filter fun record => record.origin == origin
  known : ∀ record ∈ records, record.FromLog P inputs

theorem SameRecords.mem (h : SameRecords P inputs records others) (record : CommonsRecord) :
    record ∈ records ↔ record ∈ others := by
  have hfilter : ∀ {list : List CommonsRecord},
      record ∈ list ↔ record ∈ list.filter fun other => other.origin == record.origin := by
    intro list
    rw [List.mem_filter, beq_self_eq_true]
    exact (and_iff_left rfl).symm
  rw [hfilter, h.logs, ← hfilter]

theorem SameRecords.mem_written {α : Type} {row? : CommonsRecord → Option α}
    (h : SameRecords P inputs records others) (row : α) :
    row ∈ records.filterMap row? ↔ row ∈ others.filterMap row? := by
  rw [List.mem_filterMap, List.mem_filterMap]
  exact exists_congr fun record => and_congr_left fun _ => h.mem record

/-- The id of a row which a record writes is the digest of the id of its event,
and what it says is what the event says. -/
theorem SameRecords.content_iff {α β γ : Type} {kind : ContributionKind}
    {decode : Json → Option α} {row : CommonsRecord → α → β} {key : β → String}
    {content : β → γ} (marker : String) (h : SameRecords P inputs records others)
    (hcollision : Set.InjOn P.sha256 inputs)
    (hkey : ∀ record payload,
      key (row record payload) = P.prefixedId marker (utf8 record.eventId))
    (hsame : ∀ record other payload, record.eventId = other.eventId →
      record.contribution = other.contribution → record.lineageId = other.lineageId →
      content (row record payload) = content (row other payload))
    (hkeyed : ∀ first second, content first = content second → key first = key second) :
    ∀ first ∈ records.filterMap (fun record => record.writes kind decode (row record)),
      ∀ second ∈ records.filterMap (fun record => record.writes kind decode (row record)),
        content first = content second ↔ key first = key second := by
  intro first hfirst second hsecond
  refine ⟨hkeyed first second, ?_⟩
  intro hequal
  obtain ⟨record, hrecord, hrow⟩ := List.mem_filterMap.mp hfirst
  obtain ⟨other, hother, hotherRow⟩ := List.mem_filterMap.mp hsecond
  obtain ⟨-, payload, hpayload, rfl⟩ := CommonsRecord.writes_eq_some.mp hrow
  obtain ⟨-, message, hmessage, rfl⟩ := CommonsRecord.writes_eq_some.mp hotherRow
  rw [hkey, hkey] at hequal
  have hid : record.eventId = other.eventId :=
    utf8_injective (hcollision (h.known record hrecord).eventId
      (h.known other hother).eventId (P.sha256_eq_of_prefixedId_eq hequal))
  obtain ⟨hcontribution, hlineage⟩ :=
    (h.known record hrecord).same (h.known other hother) hcollision hid
  have hpayloads : payload = message := by
    rw [hcontribution, hmessage] at hpayload
    exact (Option.some.inj hpayload).symm
  rw [hpayloads]
  exact hsame record other message hid hcontribution hlineage

/-! ## Rows -/

section

variable (h : first.ReplayOf P records) (hsecond : second.ReplayOf P others)
  (hsame : SameRecords P inputs records others) (hcollision : Set.InjOn P.sha256 inputs)

include h hsecond hsame

theorem votes_perm : first.votes.Perm second.votes := by
  refine h.votes.perm hsecond.votes ?_
  rintro ⟨topicId, voter, origin⟩
  rw [lastOf_vote records, lastOf_vote others, hsame.logs]

theorem keys_perm : first.openPgpKeys.Perm second.openPgpKeys := by
  refine h.keys.perm hsecond.keys ?_
  rintro ⟨lineageId, origin, fingerprint⟩
  rw [lastOf_key records, lastOf_key others, hsame.logs]

include hcollision

theorem topics_perm : (first.topics.map ForumTopicRow.content).Perm
    (second.topics.map ForumTopicRow.content) := by
  refine h.topics.map_perm hsecond.topics hsame.mem_written ?_
  refine hsame.content_iff "cwtopic_" hcollision ?_ ?_ ?_
  · intro record payload
    rfl
  · intro record other payload hid hcontribution hlineage
    simp only [ForumTopicRow.content, CommonsRecord.topicRow, hid, hcontribution, hlineage]
  · intro row other hcontent
    have hid := congrArg ForumTopicRow.topicId hcontent
    exact hid

theorem posts_perm : (first.posts.map ForumPostRow.content).Perm
    (second.posts.map ForumPostRow.content) := by
  refine h.posts.map_perm hsecond.posts hsame.mem_written ?_
  refine hsame.content_iff "cwpost_" hcollision ?_ ?_ ?_
  · intro record payload
    rfl
  · intro record other payload hid hcontribution hlineage
    simp only [ForumPostRow.content, CommonsRecord.postRow, hid, hcontribution, hlineage]
  · intro row other hcontent
    have hid := congrArg ForumPostRow.postId hcontent
    exact hid

theorem messages_perm : (first.directMessages.map DirectMessageRow.content).Perm
    (second.directMessages.map DirectMessageRow.content) := by
  refine h.messages.map_perm hsecond.messages hsame.mem_written ?_
  refine hsame.content_iff "cwdm_" hcollision ?_ ?_ ?_
  · intro record payload
    rfl
  · intro record other payload hid hcontribution hlineage
    simp only [DirectMessageRow.content, CommonsRecord.messageRow, hid, hcontribution, hlineage]
  · intro row other hcontent
    have hid := congrArg DirectMessageRow.messageId hcontent
    exact hid

end

/-! ## What the rows say -/

theorem find?_eq_of_perm {α : Type} {key : α → String} {rows other : List α}
    (h : rows.Perm other) (hnodup : (rows.map key).Nodup) (k : String) :
    rows.find? (fun row => key row == k) = other.find? fun row => key row == k := by
  have hotherNodup : (other.map key).Nodup := (h.map key).nodup_iff.mp hnodup
  cases hfind : other.find? fun row => key row == k with
  | none =>
      rw [List.find?_eq_none] at hfind ⊢
      intro row hrow
      exact hfind row (h.mem_iff.mp hrow)
  | some found =>
      have hkey := List.find?_some hfind
      rw [beq_iff_eq] at hkey
      rw [← hkey]
      exact find?_eq_some_of_nodup hnodup (h.mem_iff.mpr (List.mem_of_find?_eq_some hfind))

theorem maxText_step (found text : String) :
    (if found < text then some text else some found) = some (max found text) := by
  rw [max_def_lt]
  split <;> rfl

theorem maxText_eq (texts : List String) :
    maxText texts = texts.foldl
      (fun best text => some (best.elim text fun found => max found text)) none := by
  unfold maxText
  congr 1
  funext best text
  cases best with
  | none => rfl
  | some found => exact maxText_step found text

/-- The latest text does not depend on the order. -/
theorem maxText_perm {texts others : List String} (h : texts.Perm others) :
    maxText texts = maxText others := by
  have hcommutes : RightCommutative fun (best : Option String) text =>
      some (best.elim text fun found => max found text) := by
    constructor
    intro best x y
    cases best with
    | none => simp only [Option.elim, max_comm]
    | some found => simp only [Option.elim, max_right_comm]
  rw [maxText_eq, maxText_eq]
  exact h.foldl_eq none

theorem openPgpKeyIsActive_perm (h : first.openPgpKeys.Perm second.openPgpKeys)
    (lineageId fingerprint : String) :
    first.openPgpKeyIsActive lineageId fingerprint =
      second.openPgpKeyIsActive lineageId fingerprint := by
  unfold CommonsTables.openPgpKeyIsActive
  simp only
  rw [(h.filter _).any_eq, (h.filter _).any_eq]

/-- The rows of a topic are listed in the order of their keys. -/
theorem topicVoteViews_perm (h : first.votes.Perm second.votes)
    (hnodup : (first.votes.map TopicVoteRow.key).Nodup) (topicId : String) :
    first.topicVoteViews P topicId = second.topicVoteViews P topicId := by
  unfold CommonsTables.topicVoteViews
  congr 1
  have htrans : ∀ a b c : TopicVoteRow,
      decide (a.voterLineageId < b.voterLineageId ∨
        (a.voterLineageId = b.voterLineageId ∧ a.originNodeId ≤ b.originNodeId)) = true →
      decide (b.voterLineageId < c.voterLineageId ∨
        (b.voterLineageId = c.voterLineageId ∧ b.originNodeId ≤ c.originNodeId)) = true →
      decide (a.voterLineageId < c.voterLineageId ∨
        (a.voterLineageId = c.voterLineageId ∧ a.originNodeId ≤ c.originNodeId)) = true := by
    intro a b c hab hbc
    rw [decide_eq_true_eq] at hab hbc ⊢
    rcases hab with hab | ⟨hab, haborigin⟩
    · rcases hbc with hbc | ⟨hbc, -⟩
      · exact .inl (hab.trans hbc)
      · exact .inl (hbc ▸ hab)
    · rcases hbc with hbc | ⟨hbc, hbcorigin⟩
      · exact .inl (hab ▸ hbc)
      · exact .inr ⟨hab.trans hbc, haborigin.trans hbcorigin⟩
  have htotal : ∀ a b : TopicVoteRow,
      (decide (a.voterLineageId < b.voterLineageId ∨
        (a.voterLineageId = b.voterLineageId ∧ a.originNodeId ≤ b.originNodeId)) ||
      decide (b.voterLineageId < a.voterLineageId ∨
        (b.voterLineageId = a.voterLineageId ∧ b.originNodeId ≤ a.originNodeId))) = true := by
    intro a b
    rw [Bool.or_eq_true, decide_eq_true_eq, decide_eq_true_eq]
    rcases lt_trichotomy a.voterLineageId b.voterLineageId with hless | hequal | hless
    · exact .inl (.inl hless)
    · exact (le_total a.originNodeId b.originNodeId).imp (fun h => .inr ⟨hequal, h⟩)
        fun h => .inr ⟨hequal.symm, h⟩
    · exact .inr (.inl hless)
  refine List.Perm.eq_of_pairwise ?_ (List.pairwise_mergeSort htrans htotal _)
    (List.pairwise_mergeSort htrans htotal _)
    ((List.mergeSort_perm _ _).trans ((h.filter _).trans (List.mergeSort_perm _ _).symm))
  intro row other hrow hother hle hge
  rw [List.mem_mergeSort, List.mem_filter, beq_iff_eq] at hrow hother
  rw [decide_eq_true_eq] at hle hge
  refine List.inj_on_of_nodup_map hnodup hrow.1 (h.mem_iff.mpr hother.1) ?_
  simp only [TopicVoteRow.key, Prod.mk.injEq]
  refine ⟨hrow.2.trans hother.2.symm, ?_⟩
  rcases hle with hless | ⟨hequal, horigin⟩
  · rcases hge with hmore | ⟨hequal, -⟩
    · exact absurd hless (lt_asymm hmore)
    · exact absurd hequal (ne_of_gt hless)
  · rcases hge with hmore | ⟨-, hge⟩
    · exact absurd hequal (ne_of_gt hmore)
    · exact ⟨hequal, le_antisymm horigin hge⟩

theorem topic?_content (h : (first.topics.map ForumTopicRow.content).Perm
      (second.topics.map ForumTopicRow.content))
    (hnodup : (first.topics.map ForumTopicRow.topicId).Nodup) (topicId : String) :
    (first.topic? topicId).map ForumTopicRow.content =
      (second.topic? topicId).map ForumTopicRow.content := by
  have hkeys : ((first.topics.map ForumTopicRow.content).map ForumTopicRow.topicId).Nodup := by
    rw [List.map_map]
    exact hnodup
  have hfind := find?_eq_of_perm h hkeys topicId
  rw [List.find?_map, List.find?_map] at hfind
  exact hfind

theorem topicIsApproved_content
    (htopics : ∀ topicId, (first.topic? topicId).map ForumTopicRow.content =
      (second.topic? topicId).map ForumTopicRow.content)
    (htally : ∀ topicId proposer,
      first.topicVoteTally topicId proposer = second.topicVoteTally topicId proposer)
    (topicId : String) : first.topicIsApproved topicId = second.topicIsApproved topicId := by
  have htopic := htopics topicId
  unfold CommonsTables.topicIsApproved
  cases hfirst : first.topic? topicId with
  | none =>
      rw [hfirst, Option.map_none, eq_comm, Option.map_eq_none_iff] at htopic
      rw [htopic]
      rfl
  | some row =>
      rw [hfirst, Option.map_some, eq_comm, Option.map_eq_some_iff] at htopic
      obtain ⟨other, hsecond, hcontent⟩ := htopic
      have hproposer := congrArg ForumTopicRow.proposerLineageId hcontent
      change other.proposerLineageId = row.proposerLineageId at hproposer
      rw [hsecond, okOr_some, okOr_some, ok_bind, ok_bind, htally, hproposer]

theorem map_bind_congr {α β γ : Type} {f : β → γ} {x : Result α} {g g' : α → Result β}
    (h : ∀ a, (g a).map f = (g' a).map f) : (x >>= g).map f = (x >>= g').map f := by
  cases x with
  | error e => rfl
  | ok a => exact h a

/-- The rows of the posts on a topic. -/
theorem posts_on_perm (h : (first.posts.map ForumPostRow.content).Perm
      (second.posts.map ForumPostRow.content)) (topicId : String) :
    ((first.posts.filter fun post => post.topicId == topicId).map ForumPostRow.content).Perm
      ((second.posts.filter fun post => post.topicId == topicId).map ForumPostRow.content) := by
  have hfilter := h.filter fun post => post.topicId == topicId
  rw [List.filter_map, List.filter_map] at hfilter
  exact hfilter

theorem topicView_content
    (htopics : ∀ topicId, (first.topic? topicId).map ForumTopicRow.content =
      (second.topic? topicId).map ForumTopicRow.content)
    (hposts : (first.posts.map ForumPostRow.content).Perm
      (second.posts.map ForumPostRow.content))
    (htally : ∀ topicId proposer,
      first.topicVoteTally topicId proposer = second.topicVoteTally topicId proposer)
    (hvotes : ∀ topicId, first.topicVoteViews P topicId = second.topicVoteViews P topicId)
    (topicId : String) (now : ℤ) :
    (first.topicView P topicId now).map TopicView.content =
      (second.topicView P topicId now).map TopicView.content := by
  have htopic := htopics topicId
  have hpostsOn := posts_on_perm hposts topicId
  have hlatest : maxText ((first.posts.filter fun post => post.topicId == topicId).map
        (·.createdAt)) =
      maxText ((second.posts.filter fun post => post.topicId == topicId).map
        (·.createdAt)) := by
    have hcreated := hpostsOn.map ForumPostRow.createdAt
    rw [List.map_map, List.map_map] at hcreated
    exact maxText_perm hcreated
  have hcount : (first.posts.filter fun post => post.topicId == topicId).length =
      (second.posts.filter fun post => post.topicId == topicId).length := by
    have hlength := hpostsOn.length_eq
    rw [List.length_map, List.length_map] at hlength
    exact hlength
  unfold CommonsTables.topicView
  cases hfirst : first.topic? topicId with
  | none =>
      rw [hfirst, Option.map_none, eq_comm, Option.map_eq_none_iff] at htopic
      rw [htopic]
      rfl
  | some row =>
      rw [hfirst, Option.map_some, eq_comm, Option.map_eq_some_iff] at htopic
      obtain ⟨other, hsecond, hcontent⟩ := htopic
      rw [hsecond, okOr_some, okOr_some, ok_bind, ok_bind]
      cases row
      cases other
      simp only [ForumTopicRow.content, ForumTopicRow.mk.injEq, true_and] at hcontent
      obtain ⟨rfl, rfl, rfl, rfl, rfl, rfl, rfl, rfl, rfl, rfl, rfl, rfl⟩ := hcontent
      simp only [htally, hvotes, hlatest, hcount]
      -- Only the origin of the topic is left to differ.
      refine map_bind_congr fun createdAt => ?_
      cases maxText ((second.posts.filter fun post => post.topicId == topicId).map
          (·.createdAt)) with
      | none | some _ =>
          refine map_bind_congr fun lastActivityAt => map_bind_congr fun _ =>
            map_bind_congr fun votes => map_bind_congr fun tags =>
              map_bind_congr fun languages => ?_
          rfl

/-- The tables of the same records agree. -/
theorem CommonsTables.ReplayOf.converged (h : first.ReplayOf P records)
    (hsecond : second.ReplayOf P others) (hsame : SameRecords P inputs records others)
    (hcollision : Set.InjOn P.sha256 inputs) :
    CommonsTables.Converged P first second := by
  have htopics := topics_perm h hsecond hsame hcollision
  have hposts := posts_perm h hsecond hsame hcollision
  have hvotes := votes_perm h hsecond hsame
  have htopic := topic?_content htopics h.topics.nodup
  have htally : ∀ topicId proposer,
      first.topicVoteTally topicId proposer = second.topicVoteTally topicId proposer := by
    intro topicId proposer
    exact (h.referenceTally (fun _ => rfl) topicId proposer).unique
      (hsecond.referenceTally hsame.logs topicId proposer)
  exact ⟨htopics, hposts, messages_perm h hsecond hsame hcollision, htally,
    topicIsApproved_content htopic htally,
    topicView_content htopic hposts htally (topicVoteViews_perm hvotes h.votes.nodup),
    openPgpKeyIsActive_perm (keys_perm h hsecond hsame)⟩

/-! ## Every run -/

/-- The tally of every topic is the one of the known logs. -/
theorem run_referenceTally (identity : NodeIdentity P) (actions : List Action)
    (topicId proposer : String) :
    ReferenceTally ((NodeState.run P identity actions).db.canonicalLog P identity.nodeId)
      topicId proposer
      ((NodeState.run P identity actions).db.commons.topicVoteTally topicId proposer) := by
  obtain ⟨records, hreplay, -, hlogs, -⟩ := run_canonicalReplayOf (P := P) identity actions
  exact hreplay.referenceTally hlogs topicId proposer

end

/-- Two nodes which know the same contributions to the commons agree about the
commons, whatever they have done and whatever they have imported in whatever order,
and their tallies are those of the logs. -/
theorem run_commons_converge (P : Primitives) (identity importer : NodeIdentity P)
    (actions imports : List Action)
    (hevents : ∀ origin record,
      record ∈ (NodeState.run P identity actions).db.canonicalLog P identity.nodeId origin ↔
        record ∈ (NodeState.run P importer imports).db.canonicalLog P importer.nodeId origin)
    (hcollision : Set.InjOn P.sha256
      ((NodeState.run P identity actions).db.idInputs P identity.nodeId ∪
        (NodeState.run P importer imports).db.idInputs P importer.nodeId)) :
    CommonsTables.Converged P (NodeState.run P identity actions).db.commons
      (NodeState.run P importer imports).db.commons ∧
    ∀ topicId proposer,
      ReferenceTally ((NodeState.run P identity actions).db.canonicalLog P identity.nodeId)
        topicId proposer
        ((NodeState.run P identity actions).db.commons.topicVoteTally topicId proposer) := by
  refine ⟨?_, run_referenceTally identity actions⟩
  obtain ⟨records, hreplay, hordered, hlogs, hknown⟩ :=
    run_canonicalReplayOf (P := P) identity actions
  obtain ⟨others, hother, hotherOrdered, hotherLogs, -⟩ :=
    run_canonicalReplayOf (P := P) importer imports
  refine hreplay.converged hother ⟨?_, ?_⟩ hcollision
  · intro origin
    refine log_eq_of_mem_iff (hordered origin) (hotherOrdered origin) ?_
    intro record
    rw [← hlogs, ← hotherLogs]
    exact hevents origin record
  · intro record hrecord
    exact (hknown record hrecord).mono Set.subset_union_left

section

variable {P : Primitives}

theorem Db.knownEvents_of_holds {db known : Db} {own origin : String} (hne : origin ≠ own)
    (h : db.Holds P origin known.events) :
    db.knownEvents P own origin = known.knownEvents P origin origin := by
  have hevents := congrArg (List.filterMap Except.toOption) h
  rw [List.filterMap_map, List.filterMap_map] at hevents
  unfold Db.knownEvents
  rw [if_neg hne, if_pos rfl]
  exact hevents

theorem run_canonicalLog_unknown {identity : NodeIdentity P} {actions : List Action}
    {origin : String} (hne : origin ≠ identity.nodeId)
    (h : origin ∉ (NodeState.run P identity actions).db.peers.map PeerRow.nodeId) :
    (NodeState.run P identity actions).db.canonicalLog P identity.nodeId origin = [] := by
  have hpeer : (NodeState.run P identity actions).db.peer? origin = none := by
    unfold Db.peer?
    rw [List.find?_eq_none]
    intro peer hpeer hnode
    rw [beq_iff_eq] at hnode
    exact h (List.mem_map.mpr ⟨peer, hpeer, hnode⟩)
  have hnothing := ((run_storedChains P identity actions).unknown origin hpeer).1
  unfold Db.canonicalLog Db.commonsLog Db.knownEvents
  rw [if_neg hne, hnothing]
  rfl

end

namespace Sample

/-- The topic, and a vote on it. -/
def votedRun : List Action := topicRun ++ accept topicVote

instance votedRun_imported : Fact (
    (NodeState.run library importer (importLog votedRun)).db.Holds library origin.nodeId
      (NodeState.run library origin votedRun).db.events ∧
    (NodeState.run library origin votedRun).db.peers = [] ∧
    (NodeState.run library importer (importLog votedRun)).db.peers.map PeerRow.nodeId =
      [origin.nodeId] ∧
    (NodeState.run library importer (importLog votedRun)).db.canonicalLog library
      importer.nodeId importer.nodeId = [] ∧
    (NodeState.run library importer (importLog votedRun)).db.commons.votes ≠ []) :=
  ⟨by decide +kernel⟩

instance votedRun_distinct : Fact (((runInputs library origin votedRun ++
    runInputs library importer (importLog votedRun)).dedup.map library.sha256).Nodup) :=
  ⟨by decide +kernel⟩

/-- The importer, which has the topic and the vote from their origin, agrees with it. -/
theorem run_commons_converge_votedRun :
    (NodeState.run library importer (importLog votedRun)).db.commons.votes ≠ [] ∧
    CommonsTables.Converged library (NodeState.run library origin votedRun).db.commons
      (NodeState.run library importer (importLog votedRun)).db.commons ∧
    ∀ topicId proposer,
      ReferenceTally ((NodeState.run library origin votedRun).db.canonicalLog library
        origin.nodeId) topicId proposer
        ((NodeState.run library origin votedRun).db.commons.topicVoteTally topicId
          proposer) := by
  obtain ⟨hholds, hpeers, hpeer, hown, hvotes⟩ := votedRun_imported.out
  have hother : importer.nodeId ≠ origin.nodeId := topicRun_accepts.out.2.2.2
  refine ⟨hvotes, run_commons_converge library origin importer votedRun (importLog votedRun)
    ?_ (injOn_of_runInputs votedRun_distinct.out)⟩
  have hlogs : ∀ name,
      (NodeState.run library origin votedRun).db.canonicalLog library origin.nodeId name =
        (NodeState.run library importer (importLog votedRun)).db.canonicalLog library
          importer.nodeId name := by
    intro name
    by_cases horigin : name = origin.nodeId
    · unfold Db.canonicalLog Db.commonsLog
      rw [horigin, Db.knownEvents_of_holds hother.symm hholds]
    · have hunknown : name ∉ (NodeState.run library origin votedRun).db.peers.map
          PeerRow.nodeId := by
        rw [hpeers]
        exact List.not_mem_nil
      rw [run_canonicalLog_unknown horigin hunknown]
      by_cases hself : name = importer.nodeId
      · rw [hself, hown]
      · have hstranger : name ∉ (NodeState.run library importer
            (importLog votedRun)).db.peers.map PeerRow.nodeId := by
          rw [hpeer, List.mem_singleton]
          exact horigin
        rw [run_canonicalLog_unknown hself hstranger]
  intro name record
  rw [hlogs]

end Sample

end Commonwake
