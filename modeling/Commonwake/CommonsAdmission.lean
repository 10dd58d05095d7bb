import Commonwake.CommonsReplay
import Commonwake.SampleNode

/-!
# The commons stay importable

A node checks a contribution to the commons against all that it knows, from
whatever origins.  An importer checks it again, with other knowledge.  The
checks of the importer look only at the rows of the origin of the contribution
and at who proposed a topic, and on these the two cannot disagree.
-/

namespace Commonwake

open Outcome Table HashChain LastWriter

/-- The two commons have the same votes and keys of the origin. -/
structure CommonsTables.SameRows (origin : String) (first second : CommonsTables) : Prop where
  votes : ∀ row : TopicVoteRow, row.originNodeId = origin →
    (row ∈ first.votes ↔ row ∈ second.votes)
  keys : ∀ row : OpenPgpKeyRow, row.originNodeId = origin →
    (row ∈ first.openPgpKeys ↔ row ∈ second.openPgpKeys)
  previousVote : ∀ topicId voter,
    first.previousVote topicId voter origin = second.previousVote topicId voter origin
  previousKey : ∀ lineageId fingerprint,
    first.previousKey lineageId origin fingerprint =
      second.previousKey lineageId origin fingerprint

section

variable {P : Primitives} {records others : List CommonsRecord}
  {tables first second : CommonsTables} {origin : String}

/-! ## The rows of one origin -/

theorem filter_written {α : Type} {row? : CommonsRecord → Option α} {originOf : α → String}
    (h : ∀ record row, row? record = some row → originOf row = record.origin)
    (records : List CommonsRecord) :
    (records.filterMap row?).filter (fun row => originOf row == origin) =
      (records.filter fun record => record.origin == origin).filterMap row? := by
  induction records with
  | nil => rfl
  | cons record rest ih =>
      cases hrow : row? record with
      | none =>
          rw [List.filterMap_cons, hrow, ih, List.filter_cons]
          split
          · rw [List.filterMap_cons, hrow]
          · rfl
      | some row =>
          have horigin := h record row hrow
          rw [List.filterMap_cons, hrow, List.filter_cons, List.filter_cons, horigin, ih]
          split
          · rw [List.filterMap_cons, hrow]
          · rfl

theorem vote?_origin {record : CommonsRecord} {row : TopicVoteRow}
    (h : record.vote? P = some row) : row.originNodeId = record.origin := by
  obtain ⟨-, payload, -, rfl⟩ := CommonsRecord.writes_eq_some.mp h
  rfl

theorem key?_origin {record : CommonsRecord} {row : OpenPgpKeyRow}
    (h : record.key? P = some row) : row.originNodeId = record.origin := by
  obtain ⟨-, payload, -, rfl⟩ := CommonsRecord.writes_eq_some.mp h
  rfl

/-- The last vote with a key is found in the log of its origin. -/
theorem lastOf_vote (records : List CommonsRecord) (topicId voter origin : String) :
    lastOf TopicVoteRow.key (topicId, voter, origin)
        (records.filterMap (CommonsRecord.vote? P)) =
      lastOf TopicVoteRow.key (topicId, voter, origin)
        ((records.filter fun record => record.origin == origin).filterMap
          (CommonsRecord.vote? P)) := by
  rw [← filter_written (fun _ _ hrow => vote?_origin hrow), lastOf_filter]
  intro row hkey
  rw [beq_iff_eq]
  exact congrArg (fun key => key.2.2) hkey

theorem lastOf_key (records : List CommonsRecord) (lineageId origin fingerprint : String) :
    lastOf OpenPgpKeyRow.key (lineageId, origin, fingerprint)
        (records.filterMap (CommonsRecord.key? P)) =
      lastOf OpenPgpKeyRow.key (lineageId, origin, fingerprint)
        ((records.filter fun record => record.origin == origin).filterMap
          (CommonsRecord.key? P)) := by
  rw [← filter_written (fun _ _ hrow => key?_origin hrow), lastOf_filter]
  intro row hkey
  rw [beq_iff_eq]
  exact congrArg (fun key => key.2.1) hkey

theorem CommonsTables.ReplayOf.previousVote (h : tables.ReplayOf P records)
    (topicId voter origin : String) :
    tables.previousVote topicId voter origin =
      lastOf TopicVoteRow.key (topicId, voter, origin)
        (records.filterMap (CommonsRecord.vote? P)) := by
  refine h.votes.find? ?_
  intro old
  simp only [Bool.and_eq_true, beq_iff_eq, TopicVoteRow.key, Prod.mk.injEq, and_assoc]

theorem CommonsTables.ReplayOf.previousKey (h : tables.ReplayOf P records)
    (lineageId origin fingerprint : String) :
    tables.previousKey lineageId origin fingerprint =
      lastOf OpenPgpKeyRow.key (lineageId, origin, fingerprint)
        (records.filterMap (CommonsRecord.key? P)) := by
  refine h.keys.find? ?_
  intro old
  simp only [Bool.and_eq_true, beq_iff_eq, OpenPgpKeyRow.key, Prod.mk.injEq, and_assoc]

/-- The same log of the origin gives the same rows of the origin. -/
theorem CommonsTables.ReplayOf.sameRows (h : first.ReplayOf P records)
    (hsecond : second.ReplayOf P others)
    (hlog : (records.filter fun record => record.origin == origin) =
      others.filter fun record => record.origin == origin) :
    CommonsTables.SameRows origin first second := by
  have hvote : ∀ topicId voter,
      lastOf TopicVoteRow.key (topicId, voter, origin)
          (records.filterMap (CommonsRecord.vote? P)) =
        lastOf TopicVoteRow.key (topicId, voter, origin)
          (others.filterMap (CommonsRecord.vote? P)) := by
    intro topicId voter
    rw [lastOf_vote records, lastOf_vote others, hlog]
  have hkey : ∀ lineageId fingerprint,
      lastOf OpenPgpKeyRow.key (lineageId, origin, fingerprint)
          (records.filterMap (CommonsRecord.key? P)) =
        lastOf OpenPgpKeyRow.key (lineageId, origin, fingerprint)
          (others.filterMap (CommonsRecord.key? P)) := by
    intro lineageId fingerprint
    rw [lastOf_key records, lastOf_key others, hlog]
  constructor
  · intro row horigin
    rw [h.votes.mem row, hsecond.votes.mem row]
    unfold TopicVoteRow.key
    rw [horigin]
    exact iff_of_eq (congrArg (· = some row) (hvote _ _))
  · intro row horigin
    rw [h.keys.mem row, hsecond.keys.mem row]
    unfold OpenPgpKeyRow.key
    rw [horigin]
    exact iff_of_eq (congrArg (· = some row) (hkey _ _))
  · intro topicId voter
    rw [h.previousVote, hsecond.previousVote]
    exact hvote topicId voter
  · intro lineageId fingerprint
    rw [h.previousKey, hsecond.previousKey]
    exact hkey lineageId fingerprint

/-- A record which one commons takes, the other takes as well. -/
theorem CommonsTables.SameRows.isOk_record {record : CommonsRecord} {next : CommonsTables}
    (h : CommonsTables.SameRows record.origin first second)
    (hrecord : first.record P record = .ok next) : isOk (second.record P record) := by
  unfold CommonsTables.record projectCommonsContribution at hrecord ⊢
  cases hkind : record.contribution.kind with
  | topicProposal | forumPost | directMessage =>
      simp only [hkind, bind_eq_ok, pure_eq_ok] at hrecord ⊢
      obtain ⟨payload, hpayload, -⟩ := hrecord
      simp only [hpayload, ok_bind]
      exact isOk_ok _
  | topicVote =>
      simp only [hkind, bind_eq_ok, rejectIf_eq_ok] at hrecord ⊢
      obtain ⟨payload, hpayload, ⟨⟩, hfresh, -⟩ := hrecord
      simp only [hpayload, ok_bind, isOk_bind, rejectIf_eq_ok]
      refine ⟨(), ?_, isOk_ok _⟩
      intro hclash
      obtain ⟨stored, hstored, htest⟩ := List.any_eq_true.mp hclash
      have horigin : stored.originNodeId = record.origin := by
        simp only [Bool.and_eq_true, beq_iff_eq] at htest
        exact htest.1.2
      exact hfresh (List.any_eq_true.mpr ⟨stored, (h.votes stored horigin).mpr hstored, htest⟩)
  | openPgpKey =>
      simp only [hkind, bind_eq_ok, rejectIf_eq_ok] at hrecord ⊢
      obtain ⟨payload, hpayload, ⟨⟩, hkept, ⟨⟩, hfresh, -⟩ := hrecord
      rw [h.previousKey] at hkept
      simp only [hpayload, ok_bind, isOk_bind, rejectIf_eq_ok]
      refine ⟨(), hkept, (), ?_, isOk_ok _⟩
      intro hclash
      obtain ⟨stored, hstored, htest⟩ := List.any_eq_true.mp hclash
      have horigin : stored.originNodeId = record.origin := by
        simp only [Bool.and_eq_true, beq_iff_eq] at htest
        exact htest.1.2
      exact hfresh (List.any_eq_true.mpr ⟨stored, (h.keys stored horigin).mpr hstored, htest⟩)
  | _ => exact isOk_ok _

/-! ## Who proposed a topic -/

/-- Two nodes which know a topic know it from the same proposal. -/
theorem CommonsTables.ReplayOf.proposer_eq {inputs : Set Bytes} (h : first.ReplayOf P records)
    (hsecond : second.ReplayOf P others) (hknown : ∀ record ∈ records, record.Known P inputs)
    (hothers : ∀ record ∈ others, record.Known P inputs)
    (hcollision : Set.InjOn P.sha256 inputs) {topic other : ForumTopicRow}
    (htopic : topic ∈ first.topics) (hother : other ∈ second.topics)
    (hid : topic.topicId = other.topicId) :
    topic.proposerLineageId = other.proposerLineageId := by
  obtain ⟨hwritten, -⟩ := mem_of_firstOf ((h.topics.mem topic).mp htopic)
  obtain ⟨hotherWritten, -⟩ := mem_of_firstOf ((hsecond.topics.mem other).mp hother)
  obtain ⟨record, hrecord, hrow⟩ := List.mem_filterMap.mp hwritten
  obtain ⟨proposal, hproposal, hproposalRow⟩ := List.mem_filterMap.mp hotherWritten
  obtain ⟨-, payload, -, rfl⟩ := CommonsRecord.writes_eq_some.mp hrow
  obtain ⟨-, _, -, rfl⟩ := CommonsRecord.writes_eq_some.mp hproposalRow
  have hbytes := hcollision (hknown record hrecord).eventId (hothers proposal hproposal).eventId
    (P.sha256_eq_of_prefixedId_eq hid)
  exact ((hknown record hrecord).same (hothers proposal hproposal) hcollision
    (utf8_injective hbytes)).2

/-! ## The checks of an importer -/

section

variable {identity : NodeIdentity P} {db : Db} {lineageId : String}
  {contribution : SignedContribution} {appendedAt : ℤ} {result : AcceptedObject × Db}

/-- The label of the check is a matter of its message only. -/
theorem requirePreviousSuperseded_relabel {previous : Option String} {label other : String}
    (h : requirePreviousSuperseded contribution previous label = .ok ()) :
    requirePreviousSuperseded contribution previous other = .ok () := by
  unfold requirePreviousSuperseded at h ⊢
  cases previous with
  | none => exact rejectIf_eq_ok.mpr (rejectIf_eq_ok.mp h)
  | some eventId => exact rejectIf_eq_ok.mpr (rejectIf_eq_ok.mp h)

/-- The routing which the node has checked. -/
theorem validateCommonsRouting_of_accepted (hkind : contribution.kind.isCommons = true)
    (h : db.appendContribution P identity lineageId contribution appendedAt = .ok result) :
    validateCommonsRouting lineageId (contribution.canonical P) = .ok () := by
  obtain ⟨-, -, hvalid⟩ := Db.appendContribution_valid h
  unfold validateCommonsRouting
  simp only [SignedContribution.canonical]
  cases hcase : contribution.kind with
  | topicProposal =>
      simp only [Db.validateKind, hcase, bind_eq_ok] at hvalid ⊢
      obtain ⟨payload, hpayload, ⟨⟩, hrouting, -⟩ := hvalid
      exact ⟨payload, decodePayload_canon (TopicProposalPayload.stable P) hpayload, hrouting⟩
  | topicVote =>
      simp only [Db.validateKind, Db.validateTopicVote, hcase, bind_eq_ok] at hvalid ⊢
      obtain ⟨payload, hpayload, topic, -, ⟨⟩, -, ⟨⟩, hrouting, -⟩ := hvalid
      exact ⟨payload, decodePayload_canon (TopicVotePayload.stable P) hpayload, hrouting⟩
  | forumPost =>
      simp only [Db.validateKind, Db.validateForumPost, hcase, bind_eq_ok] at hvalid ⊢
      obtain ⟨payload, hpayload, approved, -, ⟨⟩, -, hrest⟩ := hvalid
      refine ⟨payload, decodePayload_canon (ForumPostPayload.stable P) hpayload, ?_⟩
      cases hparent : payload.parentPostId with
      | none =>
          simp only [hparent] at hrest
          exact hrest
      | some parent =>
          simp only [hparent, bind_eq_ok] at hrest
          obtain ⟨_, -, ⟨⟩, -, hrouting⟩ := hrest
          exact hrouting
  | openPgpKey =>
      simp only [Db.validateKind, Db.validateOpenPgpKey, hcase, bind_eq_ok] at hvalid ⊢
      obtain ⟨payload, -, ⟨⟩, hrouting, -⟩ := hvalid
      exact hrouting
  | directMessage =>
      simp only [Db.validateKind, Db.validateDirectMessage, hcase, bind_eq_ok] at hvalid ⊢
      obtain ⟨payload, hpayload, ⟨⟩, hrouting, -⟩ := hvalid
      exact ⟨payload, decodePayload_canon (DirectMessagePayload.stable P) hpayload, hrouting⟩
  | _ =>
      rw [hcase] at hkind
      cases hkind

/-- The state which the importer compares a contribution with is the one which
the node has compared it with. -/
theorem validateFederatedCommonsState_of_accepted (hnode : db.nodeId = some identity.nodeId)
    (hsame : CommonsTables.SameRows identity.nodeId db.commons tables)
    (hproposer : ∀ topic ∈ db.commons.topics, ∀ other ∈ tables.topics,
      topic.topicId = other.topicId → topic.proposerLineageId = other.proposerLineageId)
    (h : db.appendContribution P identity lineageId contribution appendedAt = .ok result) :
    validateFederatedCommonsState identity.nodeId lineageId (contribution.canonical P) tables =
      .ok () := by
  obtain ⟨-, -, hvalid⟩ := Db.appendContribution_valid h
  unfold validateFederatedCommonsState
  simp only [SignedContribution.canonical]
  cases hcase : contribution.kind with
  | topicVote =>
      simp only [Db.validateKind, Db.validateTopicVote, Db.projectionNodeId, hnode, hcase,
        okOr_some, ok_bind, bind_eq_ok, okOr_eq_ok, rejectIf_eq_ok] at hvalid ⊢
      obtain ⟨vote, hvote, topic, htopic, ⟨⟩, hother, ⟨⟩, -, hprevious⟩ := hvalid
      refine ⟨vote, decodePayload_canon (TopicVotePayload.stable P) hvote, (), ?_, ?_⟩
      · intro hproposed
        obtain ⟨known, hknown, hlineage⟩ := Option.map_eq_some_iff.mp hproposed
        have hid : topic.topicId = known.topicId := by
          have htopicId : topic.topicId = vote.topicId := by
            simpa using List.find?_some htopic
          have hknownId : known.topicId = vote.topicId := by
            simpa using List.find?_some hknown
          rw [htopicId, hknownId]
        refine hother ?_
        rw [← hlineage]
        exact hproposer topic (List.mem_of_find?_eq_some htopic) known
          (List.mem_of_find?_eq_some hknown) hid
      · rw [← hsame.previousVote]
        exact requirePreviousSuperseded_relabel hprevious
  | openPgpKey =>
      simp only [Db.validateKind, Db.validateOpenPgpKey, Db.projectionNodeId, hnode, hcase,
        okOr_some, ok_bind, bind_eq_ok, rejectIf_eq_ok] at hvalid ⊢
      obtain ⟨key, hkey, ⟨⟩, -, ⟨⟩, hsupersedes, -⟩ := hvalid
      refine ⟨key, decodePayload_canon (OpenPgpKeyPayload.stable P) hkey, ?_⟩
      rw [← hsame.previousKey]
      exact rejectIf_eq_ok.mpr hsupersedes
  | _ => rfl

end

theorem Db.importState_commons (db : Db) (origin : String) :
    (db.importState origin).commons = db.commons := rfl

/-- Every contribution to the commons which a node accepts stays importable: an
importer which has recorded the log before it, in whatever pages and among
whatever other logs, accepts it. -/
theorem run_commons_importable (P : Primitives) (identity importer : NodeIdentity P)
    (actions imports : List Action) (fresh : List OriginEvent) (state : ImportState)
    (lineageId : String) (contribution : SignedContribution) (appendedAt : ℤ)
    (accepted : AcceptedObject) (next : Db) (hother : importer.nodeId ≠ identity.nodeId)
    (hleading : ((NodeState.run P importer imports).db.origins
          identity.nodeId).remoteEvents.map (remoteOriginEventFromRow P) ++ fresh.map .ok =
      (NodeState.run P identity actions).db.events.map (originEvent P))
    (hproject : projectEvents P identity.nodeId
      ((NodeState.run P importer imports).db.importState identity.nodeId) fresh = .ok state)
    (hcollision : Set.InjOn P.sha256
      ((NodeState.run P identity actions).db.idInputs P identity.nodeId ∪
        (NodeState.run P importer imports).db.idInputs P importer.nodeId))
    (hkind : contribution.kind.isCommons = true)
    (haccepted : (NodeState.run P identity actions).db.appendContribution P identity lineageId
      contribution appendedAt = .ok (accepted, next)) :
    validateCommonsRouting lineageId (contribution.canonical P) = .ok () ∧
    validateFederatedCommonsState identity.nodeId lineageId (contribution.canonical P)
      state.commons = .ok () ∧
    isOk (projectCommonsContribution P identity.nodeId accepted.sequence lineageId accepted.id
      (contribution.canonical P) state.commons) := by
  obtain ⟨records, hreplay, -, -, hlogs⟩ := run_replayOf (P := P) identity actions
  obtain ⟨others, -, himported, hordered, hotherLogs⟩ := run_replayOf (P := P) importer imports
  have hnode := run_nodeId (P := P) identity actions
  -- What the importer knows of the log is the log.
  have hknown : (NodeState.run P importer imports).db.knownEvents P importer.nodeId
        identity.nodeId ++ fresh =
      (NodeState.run P identity actions).db.knownEvents P identity.nodeId identity.nodeId := by
    have hevents := congrArg (List.filterMap Except.toOption) hleading
    rw [List.filterMap_append, List.filterMap_map, List.filterMap_map, List.filterMap_map]
      at hevents
    have hfresh : fresh.filterMap (Except.toOption ∘ (.ok : OriginEvent → Result OriginEvent)) =
        fresh := List.filterMap_some
    rw [hfresh] at hevents
    unfold Db.knownEvents
    rw [if_neg hother.symm, if_pos rfl]
    exact hevents
  have hlog : ((others ++ fresh.filterMap
        (OriginEvent.commonsRecord P identity.nodeId)).filter fun record =>
          record.origin == identity.nodeId) =
      records.filter fun record => record.origin == identity.nodeId := by
    rw [List.filter_append, filter_commonsRecords, ← hotherLogs, ← hlogs]
    unfold Db.commonsLog
    rw [← List.filterMap_append, hknown]
  have hnewOrdered : Ordered (others ++ fresh.filterMap
      (OriginEvent.commonsRecord P identity.nodeId)) := by
    intro origin
    by_cases horigin : origin = identity.nodeId
    · rw [horigin, hlog, ← hlogs]
      exact pairwise_commonsRecords (run_knownEvents_pairwise identity actions _)
    · rw [List.filter_append, filter_commonsRecords_of_ne horigin, List.append_nil]
      exact hordered origin
  have hfinal : foldState (CommonsTables.record P) .empty (others ++ fresh.filterMap
      (OriginEvent.commonsRecord P identity.nodeId)) = .ok state.commons := by
    rw [foldState_append, himported]
    exact projectEvents_commons hproject
  have hstate := CommonsTables.replayOf hnewOrdered hfinal
  have hsame : CommonsTables.SameRows identity.nodeId
      (NodeState.run P identity actions).db.commons state.commons :=
    hreplay.sameRows hstate hlog.symm
  -- Both nodes have read their records from logs.
  have hrecords : ∀ record ∈ records, record.Known P
      ((NodeState.run P identity actions).db.idInputs P identity.nodeId ∪
        (NodeState.run P importer imports).db.idInputs P importer.nodeId) := by
    intro record hrecord
    refine (run_recordsKnown identity actions record.origin record ?_).mono
      Set.subset_union_left
    rw [hlogs, List.mem_filter, beq_self_eq_true]
    exact ⟨hrecord, rfl⟩
  have hothers : ∀ record ∈ others ++ fresh.filterMap
      (OriginEvent.commonsRecord P identity.nodeId), record.Known P
      ((NodeState.run P identity actions).db.idInputs P identity.nodeId ∪
        (NodeState.run P importer imports).db.idInputs P importer.nodeId) := by
    intro record hrecord
    by_cases horigin : record.origin = identity.nodeId
    · refine hrecords record ?_
      have hmem : record ∈ records.filter fun record => record.origin == identity.nodeId := by
        rw [← hlog, List.mem_filter, beq_iff_eq]
        exact ⟨hrecord, horigin⟩
      exact (List.mem_filter.mp hmem).1
    · have hold : record ∈ others := by
        rcases List.mem_append.mp hrecord with hold | hnew
        · exact hold
        · obtain ⟨event, -, hevent⟩ := List.mem_filterMap.mp hnew
          exact absurd (commonsRecord_origin hevent) horigin
      refine (run_recordsKnown importer imports record.origin record ?_).mono
        Set.subset_union_right
      rw [hotherLogs, List.mem_filter, beq_self_eq_true]
      exact ⟨hold, rfl⟩
  refine ⟨validateCommonsRouting_of_accepted hkind haccepted,
    validateFederatedCommonsState_of_accepted hnode hsame ?_ haccepted, ?_⟩
  · intro topic htopic other hotherTopic hid
    exact hreplay.proposer_eq hstate hrecords hothers hcollision htopic hotherTopic hid
  · obtain ⟨-, logged, happend, happly⟩ := Db.appendContribution_eq_ok haccepted
    obtain ⟨row, hrow⟩ := appendEvent_eq_ok happend
    have hlogged : logged.nodeId = (NodeState.run P identity actions).db.nodeId ∧
        logged.commons = (NodeState.run P identity actions).db.commons := by
      rw [hrow.next_eq]
      exact ⟨rfl, rfl⟩
    have hrecord := Db.applyProjection_commons happly (hlogged.1.trans hnode)
    rw [hlogged.2, hkind, if_pos rfl] at hrecord
    simp only [foldState, bind_eq_ok, Except.ok.injEq, exists_eq_right] at hrecord
    exact hsame.isOk_record hrecord

/-! ## The hashed bytes of a run -/

/-- The bytes which are hashed for the ids of the events. -/
def idInputsOf (P : Primitives) (events : List OriginEvent) : List Bytes :=
  events.flatMap fun event => [utf8 (P.jcs event.canonical), utf8 event.eventId] ++
    (SessionDelegation.ofJson P event.canonical).toList.map fun delegation =>
      utf8 (P.canonicalWithoutSignature (delegation.toJson P))

theorem mem_idInputsOf {events : List OriginEvent} {event : OriginEvent}
    (hevent : event ∈ events) {bytes : Bytes} (h : bytes ∈ event.idInputs P) :
    bytes ∈ idInputsOf P events := by
  refine List.mem_flatMap.mpr ⟨event, hevent, ?_⟩
  rcases h with rfl | rfl | ⟨delegation, hdelegation, rfl⟩
  · exact List.mem_cons_self
  · exact List.mem_cons_of_mem _ List.mem_cons_self
  · rw [hdelegation]
    exact List.mem_append_right _ List.mem_cons_self

/-- The bytes which are hashed for the ids in the logs which a node knows, its own
log and the logs of its peers. -/
def runInputs (P : Primitives) (identity : NodeIdentity P) (actions : List Action) :
    List Bytes :=
  idInputsOf P ((identity.nodeId ::
    (NodeState.run P identity actions).db.peers.map PeerRow.nodeId).flatMap
      ((NodeState.run P identity actions).db.knownEvents P identity.nodeId))

theorem mem_runInputs {identity : NodeIdentity P} {actions : List Action} {bytes : Bytes}
    (h : bytes ∈ (NodeState.run P identity actions).db.idInputs P identity.nodeId) :
    bytes ∈ runInputs P identity actions := by
  obtain ⟨origin, event, hevent, hbytes⟩ := h
  refine mem_idInputsOf (List.mem_flatMap.mpr ⟨origin, ?_, hevent⟩) hbytes
  by_cases hown : origin = identity.nodeId
  · rw [hown]
    exact List.mem_cons_self
  · refine List.mem_cons_of_mem _ (List.mem_map.mpr ?_)
    cases hpeer : (NodeState.run P identity actions).db.peer? origin with
    | none =>
        have hnothing := ((run_storedChains P identity actions).unknown origin hpeer).1
        unfold Db.knownEvents at hevent
        rw [if_neg hown, hnothing] at hevent
        cases hevent
    | some peer =>
        have hnode : peer.nodeId = origin := by
          simpa using List.find?_some hpeer
        exact ⟨peer, List.mem_of_find?_eq_some hpeer, hnode⟩

/-- Two runs in which no two of the hashed texts have one digest. -/
theorem injOn_of_runInputs {identity importer : NodeIdentity P} {actions imports : List Action}
    (h : ((runInputs P identity actions ++ runInputs P importer imports).dedup.map
      P.sha256).Nodup) :
    Set.InjOn P.sha256 ((NodeState.run P identity actions).db.idInputs P identity.nodeId ∪
      (NodeState.run P importer imports).db.idInputs P importer.nodeId) := by
  have hmem : ∀ bytes ∈ (NodeState.run P identity actions).db.idInputs P identity.nodeId ∪
      (NodeState.run P importer imports).db.idInputs P importer.nodeId,
      bytes ∈ (runInputs P identity actions ++ runInputs P importer imports).dedup := by
    rintro bytes (hbytes | hbytes)
    · exact List.mem_dedup.mpr (List.mem_append_left _ (mem_runInputs hbytes))
    · exact List.mem_dedup.mpr (List.mem_append_right _ (mem_runInputs hbytes))
  intro first hfirst second hsecond hsame
  exact List.inj_on_of_nodup_map h (hmem first hfirst) (hmem second hsecond) hsame

end

namespace Sample

/-! ## A topic and a vote -/

def forumDelegation (secret session : Bytes) : SessionDelegation :=
  delegation secret session [.forum] 0 (minutes 60) "0123456789abcdef"

def topicProposal : SignedContribution :=
  contribution [12] (forumDelegation [2] [12]) .topicProposal "0123456789abcdef" [] .default 0
    (.object [("slug", .string "tides"), ("title", .string "Tides"),
      ("summary", .string "What the tides do to us."),
      ("charter", .string "Everything about the tides."), ("tags", Serde.strings ["sea"]),
      ("languages", Serde.strings ["en"])])

def topicId : String := library.prefixedId "cwtopic_" (utf8 (eventIdOf topicProposal))

def topicVote : SignedContribution :=
  contribution [13] (forumDelegation [3] [13]) .topicVote "0123456789abcdef" [topicId] .default
    0 (.object [("topic_id", .string topicId), ("choice", .string "approve"),
      ("rationale", .string "It is worth a topic.")])

/-- Two lineages, one of which proposes a topic. -/
def topicRun : List Action :=
  atOnce (.registerLineage firstRegistration) 0 ++
    atOnce (.registerDelegation (forumDelegation [2] [12])) 0 ++
    atOnce (.registerLineage (registration [3] "Second" "0123456789abcdef" 0)) 0 ++
    atOnce (.registerDelegation (forumDelegation [3] [13])) 0 ++ accept topicProposal

instance topicRun_accepts : Fact (
    isOk ((NodeState.run library origin topicRun).db.appendContribution library origin
      (lineageOf [3]) topicVote 0) ∧
    (NodeState.run library importer (importLog topicRun)).db.Holds library origin.nodeId
      (NodeState.run library origin topicRun).db.events ∧
    (NodeState.run library importer (importLog topicRun)).db.commons.topics ≠ [] ∧
    importer.nodeId ≠ origin.nodeId) :=
  ⟨by decide +kernel⟩

instance topicRun_distinct : Fact (((runInputs library origin topicRun ++
    runInputs library importer (importLog topicRun)).dedup.map library.sha256).Nodup) :=
  ⟨by decide +kernel⟩

/-- The importer, which knows the topic, accepts the vote on it. -/
theorem run_commons_importable_topicRun : ∃ accepted next,
    (NodeState.run library origin topicRun).db.appendContribution library origin
      (lineageOf [3]) topicVote 0 = .ok (accepted, next) ∧
    validateCommonsRouting (lineageOf [3]) (topicVote.canonical library) = .ok () ∧
    validateFederatedCommonsState origin.nodeId (lineageOf [3]) (topicVote.canonical library)
      (NodeState.run library importer (importLog topicRun)).db.commons = .ok () ∧
    isOk (projectCommonsContribution library origin.nodeId accepted.sequence (lineageOf [3])
      accepted.id (topicVote.canonical library)
      (NodeState.run library importer (importLog topicRun)).db.commons) := by
  obtain ⟨⟨⟨accepted, next⟩, haccepted⟩, hholds, -, hother⟩ := topicRun_accepts.out
  have hleading : ((NodeState.run library importer (importLog topicRun)).db.origins
        origin.nodeId).remoteEvents.map (remoteOriginEventFromRow library) ++
      ([] : List OriginEvent).map .ok =
      (NodeState.run library origin topicRun).db.events.map (originEvent library) := by
    rw [List.map_nil, List.append_nil]
    exact hholds
  have hkind : topicVote.kind.isCommons = true := rfl
  have himportable := run_commons_importable library origin importer topicRun
    (importLog topicRun) [] ((NodeState.run library importer
      (importLog topicRun)).db.importState origin.nodeId) (lineageOf [3]) topicVote 0 accepted
    next hother hleading (projectEvents_nil _) (injOn_of_runInputs topicRun_distinct.out)
    hkind haccepted
  rw [Db.importState_commons] at himportable
  exact ⟨accepted, next, haccepted, himportable⟩

end Sample

end Commonwake
