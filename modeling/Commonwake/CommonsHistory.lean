import Commonwake.Lifetime
import Commonwake.PayloadRoundTrip
import Commonwake.AuthorityReplay
import Commonwake.ContentMirror

/-!
# How the topic commons came about

The tables of the topic commons have two writers, the calls of the node and
the import of every origin.  Both run the same projection on a contribution of
a log.  The commons are therefore the result of one list of records, and what
this list holds about an origin is what the node knows of its log.
-/

namespace Commonwake

open Outcome Table HashChain

/-- A contribution to the topic commons, as the log of an origin has it. -/
structure CommonsRecord where
  origin : String
  sequence : ℤ
  lineageId : String
  eventId : String
  contribution : SignedContribution

def ContributionKind.isCommons : ContributionKind → Bool
  | .topicProposal | .topicVote | .forumPost | .openPgpKey | .directMessage => true
  | _ => false

section

variable (P : Primitives)

def CommonsTables.record (tables : CommonsTables) (record : CommonsRecord) :
    Result CommonsTables :=
  projectCommonsContribution P record.origin record.sequence record.lineageId
    record.eventId record.contribution tables

/-- The record of an event, when it is a contribution to the commons. -/
def OriginEvent.commonsRecord (origin : String) (event : OriginEvent) :
    Option CommonsRecord := do
  let contribution ← SignedContribution.ofJson P event.canonical
  let lineageId ← event.lineageId
  if event.kind = contribution.kind.asStr ∧ contribution.kind.isCommons then
    some ⟨origin, event.sequence, lineageId, event.eventId, contribution⟩
  else none

/-- What a node knows of the log of an origin: its own log, or the events which
it has imported. -/
def Db.knownEvents (db : Db) (own origin : String) : List OriginEvent :=
  if origin = own then db.events.filterMap fun row => (originEvent P row).toOption
  else (db.origins origin).remoteEvents.filterMap fun row =>
    (remoteOriginEventFromRow P row).toOption

/-- The contributions to the commons in the known log of an origin. -/
def Db.commonsLog (db : Db) (own origin : String) : List CommonsRecord :=
  (db.knownEvents P own origin).filterMap (OriginEvent.commonsRecord P origin)

/-- Between the two databases the records were added to the commons, each from
the log of its origin. -/
structure Db.CommonsExtends (own : String) (first second : Db)
    (records : List CommonsRecord) : Prop where
  replay : foldState (CommonsTables.record P) first.commons records = .ok second.commons
  logs : ∀ origin, second.commonsLog P own origin = first.commonsLog P own origin ++
    records.filter fun record => record.origin == origin

end

section

variable {P : Primitives} {own : String}

theorem Db.CommonsExtends.refl (db : Db) : db.CommonsExtends P own db [] :=
  ⟨rfl, fun _ => by rw [List.filter_nil, List.append_nil]⟩

theorem Db.CommonsExtends.trans {first second third : Db}
    {records added : List CommonsRecord} (h : first.CommonsExtends P own second records)
    (h' : second.CommonsExtends P own third added) :
    first.CommonsExtends P own third (records ++ added) := by
  refine ⟨?_, ?_⟩
  · rw [foldState_append, h.replay]
    exact h'.replay
  · intro origin
    rw [h'.logs, h.logs, List.filter_append, List.append_assoc]

/-! ## Contributions in canonical form -/

theorem decodePayload_eq_ok {α : Type} {decode : Json → Option α} {payload : Json} {x : α} :
    decodePayload decode payload = .ok x ↔ decode payload = some x :=
  okOr_eq_ok

/-- The commons do not depend on how a payload is written. -/
theorem projectCommonsContribution_canonical {origin : String} {sequence : ℤ}
    {lineageId eventId : String} {contribution : SignedContribution}
    {tables next : CommonsTables}
    (h : projectCommonsContribution P origin sequence lineageId eventId contribution tables =
      .ok next) :
    projectCommonsContribution P origin sequence lineageId eventId
      (contribution.canonical P) tables = .ok next := by
  have hdecode : ∀ {α : Type} {decode : Json → Option α} {rest : α → Result CommonsTables},
      Serde.Stable P.canonNumber decode →
      decodePayload decode contribution.payload >>= rest = .ok next →
      decodePayload decode (P.canon contribution.payload) >>= rest = .ok next := by
    intro α decode rest hstable hbind
    obtain ⟨payload, hpayload, hrest⟩ := bind_eq_ok.mp hbind
    exact bind_eq_ok.mpr ⟨payload, decodePayload_canon hstable hpayload, hrest⟩
  unfold projectCommonsContribution at h ⊢
  simp only [SignedContribution.canonical]
  cases hkind : contribution.kind with
  | topicProposal =>
      simp only [hkind] at h ⊢
      exact hdecode (TopicProposalPayload.stable P) h
  | topicVote =>
      simp only [hkind] at h ⊢
      exact hdecode (TopicVotePayload.stable P) h
  | forumPost =>
      simp only [hkind] at h ⊢
      exact hdecode (ForumPostPayload.stable P) h
  | openPgpKey =>
      simp only [hkind] at h ⊢
      exact hdecode (OpenPgpKeyPayload.stable P) h
  | directMessage =>
      simp only [hkind] at h ⊢
      exact hdecode (DirectMessagePayload.stable P) h
  | _ =>
      simp only [hkind] at h ⊢
      exact h

/-! ## Known events -/

theorem toOption_of_ok {α : Type} {result : Result α} {a : α} (h : result = .ok a) :
    result.toOption = some a := by
  rw [h]
  rfl

theorem Db.knownEvents_own {db next : Db} {row : EventRow}
    (hevents : next.events = db.events ++ [row]) :
    next.knownEvents P own own =
      db.knownEvents P own own ++ (originEvent P row).toOption.toList := by
  unfold Db.knownEvents
  rw [if_pos rfl, if_pos rfl, hevents, List.filterMap_append, List.filterMap_cons,
    List.filterMap_nil]
  cases (originEvent P row).toOption <;> rfl

theorem Db.knownEvents_of_same {db next : Db} (hevents : next.events = db.events)
    {origin : String} (horigin : next.origins origin = db.origins origin) :
    next.knownEvents P own origin = db.knownEvents P own origin := by
  unfold Db.knownEvents
  rw [hevents, horigin]

theorem filterMap_rows {events : List OriginEvent} {rows : List RemoteEventRow}
    (h : List.Forall₂ (fun event row => ∃ nonce, row = remoteRow P event nonce) events rows) :
    (rows.filterMap fun row => (remoteOriginEventFromRow P row).toOption) = events := by
  induction h with
  | nil => rfl
  | @cons event row events rows hrow _ ih =>
      obtain ⟨nonce, rfl⟩ := hrow
      rw [List.filterMap_cons, toOption_of_ok (remoteOriginEventFromRow_remoteRow event nonce),
        ih]

theorem ImportResult.knownEvents {identity : NodeIdentity P} {bundle : FederationBundle}
    {witness : CheckpointWitness} {now appendedAt : ℤ} {db next opened : Db}
    {report : FederationImportReport} {key : Bytes} {head : String} {loop : ImportLoop}
    {fresh : List OriginEvent} {state : ImportState}
    (h : ImportResult P identity bundle witness now appendedAt db report next key head
      opened loop fresh state) :
    next.knownEvents P identity.nodeId bundle.originNodeId =
      db.knownEvents P identity.nodeId bundle.originNodeId ++ fresh := by
  obtain ⟨rows, hrows, hstored⟩ := h.remoteEvents
  unfold Db.knownEvents
  rw [if_neg h.notOwn, if_neg h.notOwn, hstored, List.filterMap_append, filterMap_rows hrows]

/-! ## One event -/

section

variable {origin : String} {event : OriginEvent}

/-- Only the kinds of the commons have a record. -/
theorem commonsRecord_eq_none
    (h : ∀ kind : ContributionKind, kind.isCommons = true → event.kind ≠ kind.asStr) :
    event.commonsRecord P origin = none := by
  unfold OriginEvent.commonsRecord
  cases SignedContribution.ofJson P event.canonical with
  | none => rfl
  | some contribution =>
      cases event.lineageId with
      | none => rfl
      | some lineageId =>
          simp only [Option.bind_eq_bind, Option.bind_some, ite_eq_right_iff, reduceCtorEq,
            imp_false, not_and]
          exact fun hkind hcommons => h contribution.kind hcommons hkind

theorem commonsRecord_eq {contribution : SignedContribution} {lineageId : String}
    (hcontribution : SignedContribution.ofJson P event.canonical = some contribution)
    (hlineage : event.lineageId = some lineageId)
    (hkind : event.kind = contribution.kind.asStr) :
    event.commonsRecord P origin =
      if contribution.kind.isCommons then
        some ⟨origin, event.sequence, lineageId, event.eventId, contribution⟩
      else none := by
  unfold OriginEvent.commonsRecord
  rw [hcontribution, hlineage]
  simp only [Option.bind_eq_bind, Option.bind_some, hkind, true_and]

/-- What a contribution does to the commons at an importer. -/
theorem federateKind_commons {lineageId : String} {contribution : SignedContribution}
    {state next : ImportState}
    (h : federateKind P origin lineageId event contribution state = .ok next) :
    foldState (CommonsTables.record P) state.commons
      (if contribution.kind.isCommons then
        [⟨origin, event.sequence, lineageId, event.eventId, contribution⟩] else []) =
      .ok next.commons := by
  unfold federateKind at h
  cases hkind : contribution.kind with
  | topicProposal | topicVote | forumPost | openPgpKey | directMessage =>
      simp only [hkind, bind_eq_ok, pure_eq_ok, Except.ok.injEq] at h
      obtain ⟨⟨⟩, -, ⟨⟩, -, commons, hcommons, rfl⟩ := h
      simp only [ContributionKind.isCommons, if_true, foldState, CommonsTables.record,
        hcommons, ok_bind]
  | sourceProposal | sourceReview | observationVerification | storyLink | assessment
  | correction =>
      simp only [hkind, bind_eq_ok, pure_eq_ok, Except.ok.injEq] at h
      obtain ⟨_, -, _, -, rfl⟩ := h
      rfl
  | workClaim | workResult =>
      simp only [hkind, bind_eq_ok, pure_eq_ok, Except.ok.injEq] at h
      obtain ⟨_, -, _, -, rfl⟩ := h
      rfl
  | repositoryPatch | codeReview | buildAttestation | releaseProposal | releaseReview =>
      simp only [hkind, bind_eq_ok, pure_eq_ok, Except.ok.injEq] at h
      obtain ⟨_, -, _, -, rfl⟩ := h
      rfl
  | perspectiveGap | translation =>
      simp only [hkind, pure_eq_ok, Except.ok.injEq] at h
      rw [← h]
      rfl
  | verificationTrace | commitment | position | continuityCheckpoint =>
      simp only [hkind, pure_eq_ok, Except.ok.injEq] at h
      rw [← h]
      rfl

theorem projectContribution_commons {state next : ImportState} {nonce : Option String}
    (h : projectContribution P origin event state = .ok (nonce, next)) :
    foldState (CommonsTables.record P) state.commons
      (event.commonsRecord P origin).toList = .ok next.commons := by
  rw [projectContribution_eq] at h
  simp only [bind_eq_ok, pure_eq_ok, Except.ok.injEq, Prod.mk.injEq, Prod.exists] at h
  obtain ⟨lineageId, contribution, hauthorize, applied, happly, -, rfl⟩ := h
  simp only [authorizeContribution, bind_eq_ok, okOr_eq_ok, rejectIf_eq_ok, not_not,
    pure_eq_ok, Except.ok.injEq, Prod.mk.injEq, Prod.exists] at hauthorize
  obtain ⟨contribution, hcontribution, -, -, -, -, -, -, -, hkind, receivedAt, -, -, -, lineage,
    sessionKey, -, ⟨⟩, hmetadata, key, -, ⟨⟩, -, rfl, rfl⟩ := hauthorize
  have hlineage := requireRemoteEventMetadata_lineage hmetadata
  simp only [applyFederatedContribution, bind_eq_ok] at happly
  obtain ⟨⟨⟩, -, ⟨⟩, -, hfederate⟩ := happly
  rw [commonsRecord_eq hcontribution hlineage hkind, ← federateKind_commons hfederate]
  cases contribution.kind.isCommons <;> rfl

theorem projectAndStore_commons {state next : ImportState}
    (h : projectAndStore P origin event state = .ok next) :
    foldState (CommonsTables.record P) state.commons
      (event.commonsRecord P origin).toList = .ok next.commons := by
  obtain ⟨nonce, projected, hproject, rfl⟩ := projectAndStore_eq_ok h
  have hother : ∀ kind, event.kind = kind →
      (∀ other : ContributionKind, kind ≠ other.asStr) →
      projected.commons = state.commons →
      foldState (CommonsTables.record P) state.commons
        (event.commonsRecord P origin).toList = .ok projected.commons := by
    intro kind hkind hnot hsame
    rw [commonsRecord_eq_none, hsame]
    · rfl
    · intro other _
      rw [hkind]
      exact hnot other
  change foldState (CommonsTables.record P) state.commons
    (event.commonsRecord P origin).toList = .ok projected.commons
  unfold validateAndProjectRemoteEvent at hproject
  split at hproject
  case h_8 => exact projectContribution_commons hproject
  -- The other kinds of events do not touch the commons.
  all_goals
    rename_i hkind
    obtain ⟨_, -, hnext⟩ := bind_eq_ok.mp hproject
    obtain ⟨-, rfl⟩ := Prod.mk.inj (Except.ok.inj hnext)
    refine hother _ hkind ?_ rfl
    intro other
    cases other <;> decide

/-- The events which an import recorded. -/
theorem projectEvents_commons {events : List OriginEvent} {state next : ImportState}
    (h : projectEvents P origin state events = .ok next) :
    foldState (CommonsTables.record P) state.commons
      (events.filterMap (OriginEvent.commonsRecord P origin)) = .ok next.commons := by
  unfold projectEvents at h
  induction events generalizing state with
  | nil =>
      simp only [foldState, Except.ok.injEq] at h
      rw [h]
      rfl
  | cons event rest ih =>
      simp only [foldState, bind_eq_ok] at h
      obtain ⟨middle, hstore, hrest⟩ := h
      have hfirst := projectAndStore_commons hstore
      have hlast := ih hrest
      rw [List.filterMap_cons]
      cases hrecord : event.commonsRecord P origin with
      | none =>
          rw [hrecord] at hfirst
          simp only [Option.toList_none, foldState, Except.ok.injEq] at hfirst
          rw [hfirst]
          exact hlast
      | some record =>
          rw [hrecord] at hfirst
          simp only [Option.toList_some, foldState, bind_eq_ok, Except.ok.injEq,
            exists_eq_right] at hfirst
          simp only [foldState, bind_eq_ok]
          exact ⟨middle.commons, hfirst, hlast⟩

end

section

variable {identity : NodeIdentity P} {db next : Db} {appendedAt : ℤ} {row : EventRow}
  {accepted : AcceptedObject}

theorem Db.linkObservation_commons {storyId observationId : String} :
    Ensures (Db.linkObservation storyId accepted db observationId)
      fun after => after.commons = db.commons := by
  unfold Db.linkObservation
  refine Ensures.bind fun oldStory => ?_
  split
  · exact .pure rfl
  · exact .pure rfl

/-- What a contribution does to the commons of the node. -/
theorem Db.applyProjection_commons {lineageId : String} {contribution : SignedContribution}
    (h : db.applyProjection P lineageId contribution accepted = .ok next)
    (hnode : db.nodeId = some own) :
    foldState (CommonsTables.record P) db.commons
      (if contribution.kind.isCommons then
        [⟨own, accepted.sequence, lineageId, accepted.id, contribution.canonical P⟩] else []) =
      .ok next.commons := by
  unfold Db.applyProjection at h
  cases hkind : contribution.kind with
  | topicProposal | topicVote | forumPost | openPgpKey | directMessage =>
      simp only [hkind, Db.applyCommons, Db.projectionNodeId, hnode, okOr_some, ok_bind,
        bind_eq_ok, pure_eq_ok, Except.ok.injEq] at h
      obtain ⟨commons, hcommons, rfl⟩ := h
      simp only [ContributionKind.isCommons, if_true, foldState, CommonsTables.record,
        projectCommonsContribution_canonical hcommons, ok_bind]
  | sourceProposal =>
      simp only [hkind, Db.applySourceProposal, bind_eq_ok, pure_eq_ok, Except.ok.injEq] at h
      obtain ⟨_, -, _, -, _, -, _, -, rfl⟩ := h
      rfl
  | sourceReview =>
      simp only [hkind, Db.applySourceReview, bind_eq_ok, pure_eq_ok, Except.ok.injEq] at h
      obtain ⟨_, -, _, -, rfl⟩ := h
      rfl
  | observationVerification =>
      simp only [hkind, Db.applyVerification, bind_eq_ok, pure_eq_ok, Except.ok.injEq] at h
      obtain ⟨_, -, _, -, rfl⟩ := h
      rfl
  | assessment =>
      simp only [hkind, Db.applyAssessment, bind_eq_ok, pure_eq_ok, Except.ok.injEq] at h
      obtain ⟨_, -, _, -, rfl⟩ := h
      rfl
  | storyLink =>
      simp only [hkind, Db.applyStoryLink, bind_eq_ok] at h
      obtain ⟨link, -, hfold⟩ := h
      have hkeeps : ∀ middle observationId after, Db.commons middle = db.commons →
          Db.linkObservation link.storyId accepted middle observationId = .ok after →
          after.commons = db.commons := by
        intro middle observationId after hmiddle hafter
        exact (Db.linkObservation_commons after hafter).trans hmiddle
      have hsame : next.commons = db.commons := foldState_invariant hkeeps rfl hfold
      rw [hsame]
      rfl
  | workClaim =>
      simp only [hkind, bind_eq_ok, pure_eq_ok, Except.ok.injEq] at h
      obtain ⟨_, -, rfl⟩ := h
      rfl
  | workResult =>
      simp only [hkind, Db.applyWorkResult, bind_eq_ok, pure_eq_ok, Except.ok.injEq] at h
      obtain ⟨_, -, _, -, _, -, rfl⟩ := h
      rfl
  | verificationTrace | correction | perspectiveGap | translation | commitment | position
  | continuityCheckpoint | repositoryPatch | codeReview | buildAttestation | releaseProposal
  | releaseReview =>
      simp only [hkind, pure_eq_ok, Except.ok.injEq] at h
      rw [h]
      rfl

/-! ## One step -/

theorem commonsRecord_origin {origin : String} {event : OriginEvent} {record : CommonsRecord}
    (h : event.commonsRecord P origin = some record) : record.origin = origin := by
  simp only [OriginEvent.commonsRecord, Option.bind_eq_bind, Option.bind_eq_some_iff,
    Option.ite_none_right_eq_some, Option.some.injEq] at h
  obtain ⟨contribution, -, lineageId, -, -, rfl⟩ := h
  rfl

theorem filter_commonsRecords (origin : String) (events : List OriginEvent) :
    (events.filterMap (OriginEvent.commonsRecord P origin)).filter
      (fun record => record.origin == origin) =
      events.filterMap (OriginEvent.commonsRecord P origin) := by
  rw [List.filter_eq_self]
  intro record hrecord
  obtain ⟨event, -, hevent⟩ := List.mem_filterMap.mp hrecord
  rw [commonsRecord_origin hevent, beq_self_eq_true]

theorem filter_commonsRecords_of_ne {origin other : String} (h : other ≠ origin)
    (events : List OriginEvent) :
    (events.filterMap (OriginEvent.commonsRecord P origin)).filter
      (fun record => record.origin == other) = [] := by
  rw [List.filter_eq_nil_iff]
  intro record hrecord
  obtain ⟨event, -, hevent⟩ := List.mem_filterMap.mp hrecord
  rw [commonsRecord_origin hevent]
  simpa using h.symm

theorem Db.commonsLog_append (hevents : next.events = db.events ++ [row])
    (horigins : next.origins = db.origins) (origin : String) :
    next.commonsLog P own origin = db.commonsLog P own origin ++
      if origin = own then
        (originEvent P row).toOption.toList.filterMap (OriginEvent.commonsRecord P own)
      else [] := by
  unfold Db.commonsLog
  by_cases hown : origin = own
  · subst hown
    rw [if_pos rfl, Db.knownEvents_own hevents, List.filterMap_append]
  · rw [if_neg hown, List.append_nil]
    unfold Db.knownEvents
    rw [if_neg hown, if_neg hown, horigins]

/-- A row of another kind has no record. -/
theorem commonsRecords_of_kind
    (hkind : ∀ kind : ContributionKind, kind.isCommons = true → row.kind ≠ kind.asStr) :
    (originEvent P row).toOption.toList.filterMap (OriginEvent.commonsRecord P own) = [] := by
  cases hevent : originEvent P row with
  | error e => rfl
  | ok event =>
      have hsame : event.kind = row.kind := by
        simp only [originEvent, bind_eq_ok, okOr_eq_ok, pure_eq_ok, Except.ok.injEq] at hevent
        obtain ⟨canonical, -, rfl⟩ := hevent
        rfl
      have hrecord : event.commonsRecord P own = none := by
        refine commonsRecord_eq_none ?_
        rw [hsame]
        exact hkind
      change [event].filterMap (OriginEvent.commonsRecord P own) = []
      rw [List.filterMap_cons, hrecord, List.filterMap_nil]

theorem Db.CommonsExtends.of_kind (hevents : next.events = db.events ++ [row])
    (horigins : next.origins = db.origins) (hcommons : next.commons = db.commons)
    (hkind : ∀ kind : ContributionKind, kind.isCommons = true → row.kind ≠ kind.asStr) :
    db.CommonsExtends P own next [] := by
  refine ⟨by rw [hcommons]; rfl, ?_⟩
  intro origin
  rw [Db.commonsLog_append hevents horigins, commonsRecords_of_kind hkind, List.filter_nil,
    ite_self]

theorem isAdministrative_ne {kind : String} (h : isAdministrative kind = true)
    (other : ContributionKind) : kind ≠ other.asStr := by
  simp only [isAdministrative, Bool.or_eq_true, beq_iff_eq] at h
  rcases h with ((((rfl | rfl) | rfl) | rfl) | rfl) | rfl <;> cases other <;> decide

/-- A contribution which the node has accepted. -/
theorem Db.CommonsExtends.contribution {lineageId : String}
    {contribution : SignedContribution} (hnode : db.nodeId = some identity.nodeId)
    (hcommit : db.appendContribution P identity lineageId contribution appendedAt =
      .ok (accepted, next)) (hrow : next.events = db.events ++ [row]) :
    db.CommonsExtends P identity.nodeId next
      (if contribution.kind.isCommons then
        [⟨identity.nodeId, accepted.sequence, lineageId, accepted.id,
          contribution.canonical P⟩] else []) := by
  obtain ⟨-, logged, happended, happly⟩ := Db.appendContribution_row hcommit hrow
  obtain ⟨event, hevent, henvelope⟩ := happended.envelope (contribution.toJson P) rfl
  obtain ⟨-, hid⟩ := Db.appendContribution_envelope hcommit hrow hevent
  have hlogged : logged.nodeId = db.nodeId ∧ logged.commons = db.commons ∧
      logged.origins = db.origins := by
    rw [happended.next_eq]
    exact ⟨rfl, rfl, rfl⟩
  have hsame := logged.applyProjection_onlyProjected lineageId contribution accepted _ happly
  have hreplay := Db.applyProjection_commons happly (hlogged.1.trans hnode)
  rw [hlogged.2.1] at hreplay
  refine ⟨hreplay, ?_⟩
  intro origin
  have hrecord : event.commonsRecord P identity.nodeId =
      if contribution.kind.isCommons then
        some ⟨identity.nodeId, accepted.sequence, lineageId, accepted.id,
          contribution.canonical P⟩
      else none := by
    have hdecode : SignedContribution.ofJson P event.canonical =
        some (contribution.canonical P) := by
      rw [henvelope.canonical]
      exact SignedContribution.ofJson_canon P contribution
    rw [commonsRecord_eq hdecode henvelope.lineage henvelope.kind, henvelope.sequence, hid]
    rfl
  rw [Db.commonsLog_append hrow (hsame.origins.trans hlogged.2.2), toOption_of_ok hevent]
  by_cases hown : origin = identity.nodeId
  · rw [if_pos hown, Option.toList_some, List.filterMap_cons, hrecord]
    cases contribution.kind.isCommons <;> simp [hown]
  · rw [if_neg hown]
    have hother : (identity.nodeId == origin) = false := by
      rw [beq_eq_false_iff_ne]
      exact fun hsame => hown hsame.symm
    cases contribution.kind.isCommons <;> simp [hother]

/-- What an import has recorded. -/
theorem ImportResult.commonsExtends {bundle : FederationBundle}
    {witness : CheckpointWitness} {now : ℤ} {opened : Db} {report : FederationImportReport}
    {key : Bytes} {head : String} {loop : ImportLoop} {fresh : List OriginEvent}
    {state : ImportState}
    (h : ImportResult P identity bundle witness now appendedAt db report next key head
      opened loop fresh state) :
    db.CommonsExtends P identity.nodeId next
      (fresh.filterMap (OriginEvent.commonsRecord P bundle.originNodeId)) := by
  have hproject := projectEvents_commons h.looped.projected
  rw [h.opens.importState] at hproject
  refine ⟨by rw [h.commons]; exact hproject, ?_⟩
  intro origin
  by_cases hbundle : origin = bundle.originNodeId
  · rw [hbundle, filter_commonsRecords]
    unfold Db.commonsLog
    rw [h.knownEvents, List.filterMap_append]
  · rw [filter_commonsRecords_of_ne hbundle, List.append_nil]
    have horigin := h.other_origins hbundle
    rcases h.events with hkept | ⟨base, row, accepted, logged, hbase, happended, hevents⟩
    · unfold Db.commonsLog
      rw [Db.knownEvents_of_same hkept horigin]
    · by_cases hown : origin = identity.nodeId
      · -- A witness is no contribution.
        have hkind : isAdministrative row.kind = true := by
          rw [happended.columns.2.1]
          rfl
        rw [hown]
        unfold Db.commonsLog
        rw [Db.knownEvents_own hevents, List.filterMap_append,
          commonsRecords_of_kind fun kind _ => isAdministrative_ne hkind kind,
          List.append_nil]
      · unfold Db.commonsLog Db.knownEvents
        rw [if_neg hown, if_neg hown, horigin]

theorem Db.appendObservation_commons {observation : IngestedObservation}
    (h : Observed P identity observation appendedAt db row accepted next) :
    next.commons = db.commons := by
  have happend := h.append
  unfold Db.appendObservation at happend
  simp only [h.new, bind_eq_ok, pure_eq_ok, Except.ok.injEq, Prod.mk.injEq, Prod.exists]
    at happend
  obtain ⟨-, -, _, logged, hlogged, content, -, -, rfl⟩ := happend
  obtain ⟨row, hrow⟩ := appendEvent_eq_ok hlogged
  simp only [hrow.next_eq]

/-- Every step extends the commons by records of the logs. -/
theorem Advance.commonsExtends (h : Advance P identity db next)
    (hnode : db.nodeId = some identity.nodeId) :
    ∃ records, db.CommonsExtends P identity.nodeId next records := by
  cases h with
  | quiet hquiet =>
      refine ⟨[], by rw [hquiet.commons]; rfl, ?_⟩
      intro origin
      unfold Db.commonsLog
      rw [Db.knownEvents_of_same hquiet.events (congrFun hquiet.origins origin),
        List.filter_nil, List.append_nil]
  | commit call appendedAt row accepted _ hcommit hcommitted =>
      rcases Admitted.commit_frame hcommit with ⟨lineageId, contribution, hadmitted⟩ |
        ⟨hkind, hnext⟩
      · rw [hadmitted] at hcommit
        exact ⟨_, .contribution hnode hcommit hcommitted.events⟩
      · refine ⟨[], .of_kind hcommitted.events ?_ ?_ ?_⟩
        · rw [hnext]
        · rw [hnext]
        · obtain ⟨logged, happended, -⟩ := hcommitted.appended
          rw [happended.columns.2.1]
          exact fun kind _ => isAdministrative_ne hkind kind
  | observe observation appendedAt row accepted hobserved =>
      obtain ⟨logged, happended, hsame⟩ := hobserved.appended
      refine ⟨[], .of_kind hobserved.events ?_ (Db.appendObservation_commons hobserved) ?_⟩
      · rw [hsame.origins, happended.next_eq]
      · rw [happended.columns.2.1]
        intro kind _
        change "observation" ≠ kind.asStr
        cases kind <;> decide
  | imported bundle observedAt now appendedAt report key head opened loop fresh state
      hresult =>
      exact ⟨_, hresult.commonsExtends⟩

end

/-! ## Every run -/

theorem run_nodeId (identity : NodeIdentity P) (actions : List Action) :
    (NodeState.run P identity actions).db.nodeId = some identity.nodeId := by
  refine run_advance_induction (fun db => db.nodeId = some identity.nodeId) rfl ?_ actions
  intro db next hnode hadvance
  exact hadvance.nodeId.trans hnode

/-- What happened to the commons between two moments of a run. -/
theorem run_commonsExtends (identity : NodeIdentity P) (actions rest : List Action) :
    ∃ records, (NodeState.run P identity actions).db.CommonsExtends P identity.nodeId
      (NodeState.run P identity (actions ++ rest)).db records := by
  induction rest using List.reverseRecOn with
  | nil =>
      rw [List.append_nil]
      exact ⟨[], .refl _⟩
  | append_singleton rest action ih =>
      obtain ⟨records, hrecords⟩ := ih
      rw [← List.append_assoc, NodeState.run_append_singleton]
      obtain ⟨added, hadded⟩ := (NodeState.step_advance _ action
        (run_pendingSound P identity (actions ++ rest))).commonsExtends
          (run_nodeId identity (actions ++ rest))
      exact ⟨records ++ added, hrecords.trans hadded⟩

/-- The commons are the result of the contributions in all known logs, in some
order which keeps the order of every log. -/
theorem run_commons (identity : NodeIdentity P) (actions : List Action) :
    ∃ records,
      foldState (CommonsTables.record P) .empty records =
        .ok (NodeState.run P identity actions).db.commons ∧
      ∀ origin, (NodeState.run P identity actions).db.commonsLog P identity.nodeId origin =
        records.filter fun record => record.origin == origin := by
  obtain ⟨records, hreplay, hlogs⟩ := run_commonsExtends identity [] actions
  refine ⟨records, hreplay, ?_⟩
  intro origin
  have hempty : (NodeState.run P identity []).db.commonsLog P identity.nodeId origin = [] := by
    unfold Db.commonsLog Db.knownEvents
    split <;> rfl
  have hlog := hlogs origin
  rw [hempty, List.nil_append] at hlog
  exact hlog

end

end Commonwake
