import Commonwake.CommonsAuthors
import Commonwake.LastWriter

/-!
# The commons as a function of the logs

Votes and keys are replaced by the next record of their origin, topics, posts
and messages are kept as they came first.  The tables therefore hold the last
and the first rows which the records of the known logs write, and an origin
decides about its own next record on rows which every importer of its log has
as well.
-/

namespace Commonwake

open Outcome Table HashChain LastWriter

section

variable (P : Primitives)

/-! ## The rows which a record writes -/

namespace CommonsRecord

variable (record : CommonsRecord)

/-- The row of a record of the given kind. -/
def writes {α β : Type} (kind : ContributionKind) (decode : Json → Option α) (row : α → β) :
    Option β :=
  if record.contribution.kind = kind then (decode record.contribution.payload).map row
  else none

def topic? : Option ForumTopicRow :=
  record.writes .topicProposal TopicProposalPayload.ofJson (record.topicRow P)

def vote? : Option TopicVoteRow :=
  record.writes .topicVote TopicVotePayload.ofJson (record.voteRow P)

def post? : Option ForumPostRow :=
  record.writes .forumPost ForumPostPayload.ofJson (record.postRow P)

def key? : Option OpenPgpKeyRow :=
  record.writes .openPgpKey OpenPgpKeyPayload.ofJson (record.keyRow P)

def message? : Option DirectMessageRow :=
  record.writes .directMessage DirectMessagePayload.ofJson (record.messageRow P)

end CommonsRecord

/-- The records of every origin are in the order of its log. -/
def Ordered (records : List CommonsRecord) : Prop :=
  ∀ origin, (records.filter fun record => record.origin == origin).Pairwise
    fun first second => first.sequence < second.sequence

/-- The tables hold what the records have written. -/
structure CommonsTables.ReplayOf (records : List CommonsRecord) (tables : CommonsTables) :
    Prop where
  topics : HoldsFirst ForumTopicRow.topicId (records.filterMap (CommonsRecord.topic? P))
    tables.topics
  votes : HoldsLast TopicVoteRow.key (records.filterMap (CommonsRecord.vote? P)) tables.votes
  posts : HoldsFirst ForumPostRow.postId (records.filterMap (CommonsRecord.post? P))
    tables.posts
  keys : HoldsLast OpenPgpKeyRow.key (records.filterMap (CommonsRecord.key? P))
    tables.openPgpKeys
  messages : HoldsFirst DirectMessageRow.messageId
    (records.filterMap (CommonsRecord.message? P)) tables.directMessages

end

section

variable {P : Primitives} {record : CommonsRecord} {records : List CommonsRecord}
  {tables next : CommonsTables}

theorem CommonsRecord.writes_eq_some {α β : Type} {kind : ContributionKind}
    {decode : Json → Option α} {row : α → β} {r : β} :
    record.writes kind decode row = some r ↔ record.contribution.kind = kind ∧
      ∃ payload, decode record.contribution.payload = some payload ∧ row payload = r := by
  unfold CommonsRecord.writes
  rw [Option.ite_none_right_eq_some, Option.map_eq_some_iff]

theorem CommonsRecord.writes_eq_none {α β : Type} {kind : ContributionKind}
    {decode : Json → Option α} {row : α → β} (h : record.contribution.kind ≠ kind) :
    record.writes kind decode row = none :=
  if_neg h

/-- The stored row of a record of the same origin is older. -/
theorem Ordered.older (h : Ordered (records ++ [record])) {old : CommonsRecord}
    (hold : old ∈ records) (horigin : old.origin = record.origin) :
    old.sequence < record.sequence := by
  have hpairwise := h record.origin
  rw [List.filter_append, List.filter_cons_of_pos (by simp), List.filter_nil,
    List.pairwise_append] at hpairwise
  refine hpairwise.2.2 old ?_ record List.mem_cons_self
  rw [List.mem_filter, beq_iff_eq]
  exact ⟨hold, horigin⟩

theorem Ordered.init (h : Ordered (records ++ [record])) : Ordered records := by
  intro origin
  have hpairwise := h origin
  rw [List.filter_append, List.pairwise_append] at hpairwise
  exact hpairwise.1

theorem CommonsTables.ReplayOf.empty : CommonsTables.ReplayOf P [] .empty :=
  ⟨.nil, .nil, .nil, .nil, .nil⟩

theorem filterMap_append_none {α : Type} {row? : CommonsRecord → Option α}
    (h : row? record = none) :
    (records ++ [record]).filterMap row? = records.filterMap row? := by
  rw [List.filterMap_append, List.filterMap_cons, h, List.filterMap_nil, List.append_nil]

theorem filterMap_append_some {α : Type} {row? : CommonsRecord → Option α} {row : α}
    (h : row? record = some row) :
    (records ++ [record]).filterMap row? = records.filterMap row? ++ [row] := by
  rw [List.filterMap_append, List.filterMap_cons, h, List.filterMap_nil]

/-- What a record of another kind leaves alone. -/
structure CommonsRecord.Leaves (P : Primitives) (record : CommonsRecord)
    (kind : ContributionKind) : Prop where
  topic : kind ≠ .topicProposal → record.topic? P = none
  vote : kind ≠ .topicVote → record.vote? P = none
  post : kind ≠ .forumPost → record.post? P = none
  key : kind ≠ .openPgpKey → record.key? P = none
  message : kind ≠ .directMessage → record.message? P = none

theorem CommonsRecord.leaves (record : CommonsRecord) :
    record.Leaves P record.contribution.kind :=
  ⟨CommonsRecord.writes_eq_none, CommonsRecord.writes_eq_none, CommonsRecord.writes_eq_none,
    CommonsRecord.writes_eq_none, CommonsRecord.writes_eq_none⟩

/-- The id of a stored topic is the digest of its event. -/
theorem CommonsTables.ReplayOf.topicId (h : tables.ReplayOf P records) {row : ForumTopicRow}
    (hrow : row ∈ tables.topics) :
    row.topicId = P.prefixedId "cwtopic_" (utf8 row.proposalEventId) := by
  obtain ⟨hwritten, -⟩ := mem_of_firstOf ((h.topics.mem row).mp hrow)
  obtain ⟨record, -, hrecord⟩ := List.mem_filterMap.mp hwritten
  obtain ⟨-, payload, -, rfl⟩ := CommonsRecord.writes_eq_some.mp hrecord
  rfl

theorem CommonsTables.ReplayOf.postId (h : tables.ReplayOf P records) {row : ForumPostRow}
    (hrow : row ∈ tables.posts) : row.postId = P.prefixedId "cwpost_" (utf8 row.eventId) := by
  obtain ⟨hwritten, -⟩ := mem_of_firstOf ((h.posts.mem row).mp hrow)
  obtain ⟨record, -, hrecord⟩ := List.mem_filterMap.mp hwritten
  obtain ⟨-, payload, -, rfl⟩ := CommonsRecord.writes_eq_some.mp hrecord
  rfl

theorem CommonsTables.ReplayOf.messageId (h : tables.ReplayOf P records)
    {row : DirectMessageRow} (hrow : row ∈ tables.directMessages) :
    row.messageId = P.prefixedId "cwdm_" (utf8 row.eventId) := by
  obtain ⟨hwritten, -⟩ := mem_of_firstOf ((h.messages.mem row).mp hrow)
  obtain ⟨record, -, hrecord⟩ := List.mem_filterMap.mp hwritten
  obtain ⟨-, payload, -, rfl⟩ := CommonsRecord.writes_eq_some.mp hrecord
  rfl

/-- A stored row of the same origin is older than the next record. -/
theorem CommonsTables.ReplayOf.older_vote (h : tables.ReplayOf P records)
    (hordered : Ordered (records ++ [record])) {row : TopicVoteRow} (hrow : row ∈ tables.votes)
    (horigin : row.originNodeId = record.origin) : row.originSequence < record.sequence := by
  obtain ⟨hwritten, -⟩ := mem_of_lastOf ((h.votes.mem row).mp hrow)
  obtain ⟨old, hold, hrecord⟩ := List.mem_filterMap.mp hwritten
  obtain ⟨-, payload, -, rfl⟩ := CommonsRecord.writes_eq_some.mp hrecord
  exact hordered.older hold horigin

theorem CommonsTables.ReplayOf.older_key (h : tables.ReplayOf P records)
    (hordered : Ordered (records ++ [record])) {row : OpenPgpKeyRow}
    (hrow : row ∈ tables.openPgpKeys) (horigin : row.originNodeId = record.origin) :
    row.originSequence < record.sequence := by
  obtain ⟨hwritten, -⟩ := mem_of_lastOf ((h.keys.mem row).mp hrow)
  obtain ⟨old, hold, hrecord⟩ := List.mem_filterMap.mp hwritten
  obtain ⟨-, payload, -, rfl⟩ := CommonsRecord.writes_eq_some.mp hrecord
  exact hordered.older hold horigin

/-- One more record. -/
theorem CommonsTables.ReplayOf.recorded (h : tables.ReplayOf P records)
    (hordered : Ordered (records ++ [record])) (hrecorded : Recorded P record tables next) :
    next.ReplayOf P (records ++ [record]) := by
  have hleaves := record.leaves (P := P)
  cases hrecorded with
  | topic payload row hkind hpayload hrow =>
      rw [hkind] at hleaves
      have htopic : record.topic? P = some row :=
        CommonsRecord.writes_eq_some.mpr ⟨hkind, payload, hpayload, hrow.symm⟩
      constructor
      · rw [filterMap_append_some htopic]
        refine h.topics.insertOrIgnore ?_
        intro old hold
        rw [Bool.or_eq_true, Bool.and_eq_true, beq_iff_eq, beq_iff_eq, beq_iff_eq]
        -- The constraint on the event is one on the id.
        constructor
        · rintro (hid | ⟨-, hevent⟩)
          · exact hid
          · rw [h.topicId hold, hevent, hrow]
            rfl
        · exact .inl
      · rw [filterMap_append_none (hleaves.vote (by decide))]
        exact h.votes
      · rw [filterMap_append_none (hleaves.post (by decide))]
        exact h.posts
      · rw [filterMap_append_none (hleaves.key (by decide))]
        exact h.keys
      · rw [filterMap_append_none (hleaves.message (by decide))]
        exact h.messages
  | vote payload row same hkind hpayload hrow hsame hfresh =>
      rw [hkind] at hleaves
      have hvote : record.vote? P = some row :=
        CommonsRecord.writes_eq_some.mpr ⟨hkind, payload, hpayload, hrow.symm⟩
      constructor
      · rw [filterMap_append_none (hleaves.topic (by decide))]
        exact h.topics
      · rw [filterMap_append_some hvote]
        simp only
        rw [upsert_congr]
        · exact h.votes.upsert hsame
        · intro old hold hmatch
          have hkey := (hsame old).mp hmatch
          have horigin : old.originNodeId = record.origin := by
            rw [hrow] at hkey
            exact congrArg (fun key => key.2.2) hkey
          exact if_pos (h.older_vote hordered hold horigin)
      · rw [filterMap_append_none (hleaves.post (by decide))]
        exact h.posts
      · rw [filterMap_append_none (hleaves.key (by decide))]
        exact h.keys
      · rw [filterMap_append_none (hleaves.message (by decide))]
        exact h.messages
  | post payload row hkind hpayload hrow =>
      rw [hkind] at hleaves
      have hpost : record.post? P = some row :=
        CommonsRecord.writes_eq_some.mpr ⟨hkind, payload, hpayload, hrow.symm⟩
      constructor
      · rw [filterMap_append_none (hleaves.topic (by decide))]
        exact h.topics
      · rw [filterMap_append_none (hleaves.vote (by decide))]
        exact h.votes
      · rw [filterMap_append_some hpost]
        refine h.posts.insertOrIgnore ?_
        intro old hold
        rw [Bool.or_eq_true, Bool.and_eq_true, beq_iff_eq, beq_iff_eq, beq_iff_eq]
        constructor
        · rintro (hid | ⟨-, hevent⟩)
          · exact hid
          · rw [h.postId hold, hevent, hrow]
            rfl
        · exact .inl
      · rw [filterMap_append_none (hleaves.key (by decide))]
        exact h.keys
      · rw [filterMap_append_none (hleaves.message (by decide))]
        exact h.messages
  | key payload row same hkind hpayload hrow hsame hkept hfresh =>
      rw [hkind] at hleaves
      have hkey : record.key? P = some row :=
        CommonsRecord.writes_eq_some.mpr ⟨hkind, payload, hpayload, hrow.symm⟩
      constructor
      · rw [filterMap_append_none (hleaves.topic (by decide))]
        exact h.topics
      · rw [filterMap_append_none (hleaves.vote (by decide))]
        exact h.votes
      · rw [filterMap_append_none (hleaves.post (by decide))]
        exact h.posts
      · rw [filterMap_append_some hkey]
        simp only
        rw [upsert_congr]
        · exact h.keys.upsert hsame
        · intro old hold hmatch
          have holdKey := (hsame old).mp hmatch
          have horigin : old.originNodeId = record.origin := by
            rw [hrow] at holdKey
            exact congrArg (fun key => key.2.1) holdKey
          exact if_pos (h.older_key hordered hold horigin)
      · rw [filterMap_append_none (hleaves.message (by decide))]
        exact h.messages
  | message payload row hkind hpayload hrow =>
      rw [hkind] at hleaves
      have hmessage : record.message? P = some row :=
        CommonsRecord.writes_eq_some.mpr ⟨hkind, payload, hpayload, hrow.symm⟩
      constructor
      · rw [filterMap_append_none (hleaves.topic (by decide))]
        exact h.topics
      · rw [filterMap_append_none (hleaves.vote (by decide))]
        exact h.votes
      · rw [filterMap_append_none (hleaves.post (by decide))]
        exact h.posts
      · rw [filterMap_append_none (hleaves.key (by decide))]
        exact h.keys
      · rw [filterMap_append_some hmessage]
        refine h.messages.insertOrIgnore ?_
        intro old hold
        rw [Bool.or_eq_true, Bool.and_eq_true, beq_iff_eq, beq_iff_eq, beq_iff_eq]
        constructor
        · rintro (hid | ⟨-, hevent⟩)
          · exact hid
          · rw [h.messageId hold, hevent, hrow]
            rfl
        · exact .inl
  | other hkind =>
      have hne : ∀ kind : ContributionKind, kind.isCommons = true →
          record.contribution.kind ≠ kind := by
        intro kind hcommons hsame
        rw [hsame, hcommons] at hkind
        cases hkind
      constructor
      · rw [filterMap_append_none (hleaves.topic (hne _ rfl))]
        exact h.topics
      · rw [filterMap_append_none (hleaves.vote (hne _ rfl))]
        exact h.votes
      · rw [filterMap_append_none (hleaves.post (hne _ rfl))]
        exact h.posts
      · rw [filterMap_append_none (hleaves.key (hne _ rfl))]
        exact h.keys
      · rw [filterMap_append_none (hleaves.message (hne _ rfl))]
        exact h.messages

/-- The tables after the records hold what these have written. -/
theorem CommonsTables.replayOf (hordered : Ordered records)
    (h : foldState (CommonsTables.record P) .empty records = .ok tables) :
    tables.ReplayOf P records := by
  induction records using List.reverseRecOn generalizing tables with
  | nil =>
      simp only [foldState, Except.ok.injEq] at h
      rw [← h]
      exact .empty
  | append_singleton records record ih =>
      rw [foldState_append] at h
      obtain ⟨before, hbefore, hlast⟩ := bind_eq_ok.mp h
      simp only [foldState, bind_eq_ok, Except.ok.injEq, exists_eq_right] at hlast
      exact (ih hordered.init hbefore).recorded hordered
        (CommonsTables.record_recorded hlast)

/-! ## The order of the logs -/

theorem pairwise_of_numbered {α : Type} {number : α → ℤ} {start : ℤ} {entries : List α}
    (h : Numbered number start entries) :
    entries.Pairwise fun first second => number first < number second := by
  induction entries generalizing start with
  | nil => exact .nil
  | cons first rest ih =>
      obtain ⟨hfirst, hrest⟩ := h
      refine List.pairwise_cons.mpr ⟨?_, ih hrest⟩
      intro second hsecond
      have hbounds := hrest.mem_bounds hsecond
      omega

/-- The known log of an origin is in the order of its numbers. -/
theorem run_knownEvents_pairwise (identity : NodeIdentity P) (actions : List Action)
    (origin : String) :
    ((NodeState.run P identity actions).db.knownEvents P identity.nodeId origin).Pairwise
      fun first second => first.sequence < second.sequence := by
  unfold Db.knownEvents
  by_cases hown : origin = identity.nodeId
  · rw [if_pos hown]
    refine (pairwise_of_numbered
      (run_history_any P identity actions).logSound.numbered).filterMap _ ?_
    intro first second hless event hevent other hother
    have hsequence : ∀ {row : EventRow} {event : OriginEvent},
        (originEvent P row).toOption = some event → event.sequence = row.sequence := by
      intro row event hevent
      unfold originEvent at hevent
      cases hparse : P.parse row.canonicalJson with
      | none =>
          rw [hparse] at hevent
          cases hevent
      | some canonical =>
          rw [hparse] at hevent
          rw [← Option.some.inj hevent]
    rw [hsequence hevent, hsequence hother]
    exact hless
  · rw [if_neg hown]
    have hchains := run_storedChains P identity actions
    cases hpeer : (NodeState.run P identity actions).db.peer? origin with
    | none =>
        rw [(hchains.unknown origin hpeer).1]
        exact .nil
    | some peer =>
        have hnode : peer.nodeId = origin := by
          simpa using List.find?_some hpeer
        obtain ⟨key, -, -, hlog⟩ := (hchains.chain peer (List.mem_of_find?_eq_some hpeer)).log
        rw [hnode] at hlog
        refine (pairwise_of_numbered hlog.numbered).filterMap _ ?_
        intro first second hless event hevent other hother
        have hsequence : ∀ {row : RemoteEventRow} {event : OriginEvent},
            (remoteOriginEventFromRow P row).toOption = some event →
              event.sequence = row.originSequence := by
          intro row event hevent
          unfold remoteOriginEventFromRow at hevent
          cases hparse : P.parse row.canonicalJson with
          | none =>
              rw [hparse] at hevent
              cases hevent
          | some canonical =>
              rw [hparse] at hevent
              rw [← Option.some.inj hevent]
        rw [hsequence hevent, hsequence hother]
        exact hless

theorem commonsRecord_sequence {origin : String} {event : OriginEvent}
    (h : event.commonsRecord P origin = some record) : record.sequence = event.sequence := by
  simp only [OriginEvent.commonsRecord, Option.bind_eq_bind, Option.bind_eq_some_iff,
    Option.ite_none_right_eq_some, Option.some.injEq] at h
  obtain ⟨contribution, -, lineageId, -, -, rfl⟩ := h
  rfl

theorem pairwise_commonsRecords {origin : String} {events : List OriginEvent}
    (h : events.Pairwise fun first second => first.sequence < second.sequence) :
    (events.filterMap (OriginEvent.commonsRecord P origin)).Pairwise
      fun first second => first.sequence < second.sequence := by
  refine h.filterMap _ ?_
  intro first second hless record hrecord other hother
  rw [commonsRecord_sequence hrecord, commonsRecord_sequence hother]
  exact hless

/-- The commons of a node hold what the records of the known logs have written. -/
theorem run_replayOf (identity : NodeIdentity P) (actions : List Action) :
    ∃ records, (NodeState.run P identity actions).db.commons.ReplayOf P records ∧
      foldState (CommonsTables.record P) .empty records =
        .ok (NodeState.run P identity actions).db.commons ∧
      Ordered records ∧
      ∀ origin, (NodeState.run P identity actions).db.commonsLog P identity.nodeId origin =
        records.filter fun record => record.origin == origin := by
  obtain ⟨records, hreplay, hlogs⟩ := run_commons (P := P) identity actions
  have hordered : Ordered records := by
    intro origin
    rw [← hlogs origin]
    exact pairwise_commonsRecords (run_knownEvents_pairwise identity actions origin)
  exact ⟨records, CommonsTables.replayOf hordered hreplay, hreplay, hordered, hlogs⟩

end

end Commonwake
