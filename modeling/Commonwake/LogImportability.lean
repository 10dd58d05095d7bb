import Commonwake.CommonsAdmission
import Commonwake.ForgeRecords
import Commonwake.OwnPages
import Commonwake.ReplaySafety

/-!
# Following a log

An importer decides about each event of a log with the events before it and
with nothing else.  A node decides with tables which it has written for itself.
When both decisions agree for every event, every node can follow the log to
its end, in whatever pages it is served.
-/

namespace Commonwake

open Outcome Table Serde HashChain

section

variable {P : Primitives}

/-! ## The remaining payloads -/

theorem CorrectionPayload.stable : Stable P.canonNumber (CorrectionPayload.ofJson P) := by
  intro value x h
  simp only [CorrectionPayload.ofJson, Option.bind_eq_bind, Option.bind_eq_some_iff,
    Option.pure_def, Option.some.injEq] at h ⊢
  obtain ⟨m, hm, subject, hsubject, correction, hcorrection, reason, hreason, evidence,
    hevidence, rfl⟩ := h
  exact ⟨_, fields_mapNumbers hm, subject, stable_string.required hsubject, correction,
    stable_string.required hcorrection, reason, stable_string.required hreason, evidence,
    (EvidenceRef.stable P).list.defaulted hevidence, rfl⟩

theorem WorkClaimPayload.stable : Stable P.canonNumber WorkClaimPayload.ofJson := by
  intro value x h
  simp only [WorkClaimPayload.ofJson, Option.bind_eq_bind, Option.bind_eq_some_iff,
    Option.pure_def, Option.some.injEq] at h ⊢
  obtain ⟨m, hm, workId, hworkId, minutes, hminutes, note, hnote, rfl⟩ := h
  exact ⟨_, fields_mapNumbers hm, workId, stable_string.required hworkId, minutes,
    (stable_u32 P).defaulted hminutes, note, stable_string.defaulted hnote, rfl⟩

/-- The result itself is free JSON, whose numbers the log rewrites. -/
theorem WorkResultPayload.ofJson_canon {value : Json} {x : WorkResultPayload}
    (h : WorkResultPayload.ofJson P value = some x) :
    ∃ result, WorkResultPayload.ofJson P (P.canon value) = some { x with result := result } := by
  simp only [WorkResultPayload.ofJson, Option.bind_eq_bind, Option.bind_eq_some_iff,
    Option.pure_def, Option.some.injEq] at h
  obtain ⟨m, hm, workId, hworkId, outcome, houtcome, summary, hsummary, evidence, hevidence,
    result, -, rfl⟩ := h
  obtain ⟨read, hread⟩ : ∃ read,
      defaulted Serde.value .null (mapMembers P.canonNumber m) "result" = some read := by
    unfold Serde.defaulted
    cases (mapMembers P.canonNumber m).lookup "result" with
    | none => exact ⟨_, rfl⟩
    | some stored => exact ⟨stored, rfl⟩
  refine ⟨read, ?_⟩
  simp only [WorkResultPayload.ofJson, Option.bind_eq_bind, Option.bind_eq_some_iff,
    Option.pure_def, Option.some.injEq]
  exact ⟨_, fields_mapNumbers hm, workId, stable_string.required hworkId, outcome,
    (stable_enumeration _).required houtcome, summary, stable_string.required hsummary,
    evidence, (EvidenceRef.stable P).list.defaulted hevidence, read, hread, rfl⟩

theorem decodeWorkResult_canon {payload : Json} {x : WorkResultPayload}
    (h : decodePayload (WorkResultPayload.ofJson P) payload = .ok x) :
    ∃ result, decodePayload (WorkResultPayload.ofJson P) (P.canon payload) =
      .ok { x with result := result } := by
  rw [decodePayload_eq_ok] at h
  obtain ⟨result, hresult⟩ := WorkResultPayload.ofJson_canon h
  exact ⟨result, decodePayload_eq_ok.mpr hresult⟩

/-! ## The checks of one contribution -/

variable {contribution : SignedContribution} {db : Db}

/-- A contribution which the node finds valid is valid for an importer, which
reads it with the numbers of the log. -/
theorem validateContributionContent_canon (himportable : contribution.IsImportable P db)
    (h : validateContributionContent P contribution = .ok ()) :
    validateContributionContent P (contribution.canonical P) = .ok () := by
  by_cases hkind : contribution.kind.isContent = true
  · exact validateContributionContent_canonical hkind himportable h
  have hvalid := h
  unfold validateContributionContent at h ⊢
  obtain ⟨⟨⟩, hreporting, h⟩ := bind_eq_ok.mp h
  obtain ⟨⟨⟩, hobject, h⟩ := bind_eq_ok.mp h
  refine bind_eq_ok.mpr ⟨(), hreporting, bind_eq_ok.mpr ⟨(), ?_, ?_⟩⟩
  · rw [rejectIf_eq_ok] at hobject ⊢
    change ¬ (P.canon contribution.payload).isObject = false
    rw [isObject_canon]
    exact hobject
  · unfold validatePayloadContent at h ⊢
    simp only [SignedContribution.canonical] at h ⊢
    cases hcase : contribution.kind with
    | sourceProposal | sourceReview | verificationTrace | observationVerification | storyLink
    | assessment =>
        rw [hcase] at hkind
        exact absurd rfl hkind
    | perspectiveGap | translation | commitment | position | continuityCheckpoint => rfl
    | correction =>
        simp only [hcase, bind_eq_ok] at h ⊢
        obtain ⟨payload, hpayload, hrest⟩ := h
        exact ⟨payload, decodePayload_canon CorrectionPayload.stable hpayload, hrest⟩
    | workClaim =>
        simp only [hcase, bind_eq_ok] at h ⊢
        obtain ⟨payload, hpayload, hrest⟩ := h
        exact ⟨payload, decodePayload_canon WorkClaimPayload.stable hpayload, hrest⟩
    | workResult =>
        simp only [hcase, bind_eq_ok] at h ⊢
        obtain ⟨payload, hpayload, hrest⟩ := h
        obtain ⟨result, hresult⟩ := decodeWorkResult_canon hpayload
        exact ⟨_, hresult, hrest⟩
    | topicProposal =>
        simp only [hcase, bind_eq_ok] at h ⊢
        obtain ⟨payload, hpayload, hrest⟩ := h
        exact ⟨payload, decodePayload_canon (TopicProposalPayload.stable P) hpayload, hrest⟩
    | topicVote =>
        simp only [hcase, bind_eq_ok] at h ⊢
        obtain ⟨payload, hpayload, hrest⟩ := h
        exact ⟨payload, decodePayload_canon (TopicVotePayload.stable P) hpayload, hrest⟩
    | forumPost =>
        simp only [hcase, bind_eq_ok] at h ⊢
        obtain ⟨payload, hpayload, hrest⟩ := h
        exact ⟨payload, decodePayload_canon (ForumPostPayload.stable P) hpayload, hrest⟩
    | openPgpKey =>
        simp only [hcase, bind_eq_ok] at h ⊢
        obtain ⟨payload, hpayload, hrest⟩ := h
        exact ⟨payload, decodePayload_canon (OpenPgpKeyPayload.stable P) hpayload, hrest⟩
    | directMessage =>
        simp only [hcase, bind_eq_ok] at h ⊢
        obtain ⟨payload, hpayload, hrest⟩ := h
        exact ⟨payload, decodePayload_canon (DirectMessagePayload.stable P) hpayload, hrest⟩
    | repositoryPatch =>
        simp only [hcase, bind_eq_ok] at h ⊢
        obtain ⟨payload, hpayload, hrest⟩ := h
        exact ⟨payload, decode_repositoryPatch_canon hcase hvalid hpayload, hrest⟩
    | codeReview =>
        simp only [hcase, bind_eq_ok] at h ⊢
        obtain ⟨payload, hpayload, hrest⟩ := h
        exact ⟨payload, decodePayload_canon (CodeReviewPayload.stable P) hpayload, hrest⟩
    | buildAttestation =>
        simp only [hcase, bind_eq_ok] at h ⊢
        obtain ⟨payload, hpayload, hrest⟩ := h
        exact ⟨payload, decodePayload_canon (BuildAttestationPayload.stable P) hpayload, hrest⟩
    | releaseProposal =>
        simp only [hcase, bind_eq_ok] at h ⊢
        obtain ⟨payload, hpayload, hrest⟩ := h
        exact ⟨payload, decode_releaseProposal_canon hcase hvalid hpayload, hrest⟩
    | releaseReview =>
        simp only [hcase, bind_eq_ok] at h ⊢
        obtain ⟨payload, hpayload, hrest⟩ := h
        exact ⟨payload, decodePayload_canon (ReleaseReviewPayload.stable P) hpayload, hrest⟩

/-- What a report is about does not depend on its numbers. -/
theorem reportSubjectIds_canon {subjects : List String}
    (h : reportSubjectIds P contribution = .ok subjects) :
    reportSubjectIds P (contribution.canonical P) = .ok subjects := by
  by_cases hkind : contribution.kind.isContent = true
  · exact reportSubjectIds_canonical hkind h
  unfold reportSubjectIds at h ⊢
  simp only [SignedContribution.canonical] at h ⊢
  cases hcase : contribution.kind with
  | sourceProposal | sourceReview | verificationTrace | observationVerification | storyLink
  | assessment =>
      rw [hcase] at hkind
      exact absurd rfl hkind
  | correction =>
      simp only [hcase, bind_eq_ok] at h ⊢
      obtain ⟨payload, hpayload, hrest⟩ := h
      exact ⟨payload, decodePayload_canon CorrectionPayload.stable hpayload, hrest⟩
  | workResult =>
      simp only [hcase, bind_eq_ok] at h ⊢
      obtain ⟨payload, hpayload, hrest⟩ := h
      obtain ⟨result, hresult⟩ := decodeWorkResult_canon hpayload
      exact ⟨_, hresult, hrest⟩
  | _ =>
      simp only [hcase] at h ⊢
      exact h

/-- The importer finds the traces of every report. -/
theorem validateRemoteReporting_canon {tables : OriginTables} {sequence : ℤ}
    (himportable : contribution.IsImportable P db)
    (hentries : tables.remoteEvents.map (RemoteEventRow.entry P) =
      db.events.map (EventRow.entry P))
    (hbefore : ∀ row ∈ db.events, row.sequence < sequence)
    (h : db.validateLocalReporting P contribution = .ok ()) :
    validateRemoteReporting P tables sequence (contribution.canonical P) = .ok () := by
  by_cases htrace : contribution.kind = .verificationTrace
  · refine validateRemoteReporting_of_local ?_ himportable hentries hbefore h
    rw [htrace]
    rfl
  · exact validateRemoteReporting_of_report htrace (fun _ => reportSubjectIds_canon) hentries
      hbefore h

end

section

variable {P : Primitives} {origin lineageId : String} {contribution : SignedContribution}
  {event : OriginEvent} {accepted : AcceptedObject} {now : ℤ} {db next logged : Db}
  {state : ImportState}

theorem isOk_federateCorrection {correction : CorrectionPayload}
    (hentries : state.tables.remoteEvents.map (RemoteEventRow.entry P) =
      db.events.map (EventRow.entry P))
    (hvalid : db.validateCorrection contribution correction = .ok ()) :
    isOk (federateCorrection event (contribution.canonical P) correction state.tables) := by
  unfold Db.validateCorrection at hvalid
  simp only [bind_eq_ok, rejectIf_eq_ok] at hvalid
  obtain ⟨⟨⟩, hsubject, ⟨⟩, hsubstantive, ⟨⟩, hevidence, hsupersedes⟩ := hvalid
  have hknown : state.tables.event? correction.subjectEventId ≠ none := by
    intro hnone
    have hlocal := canonicalText?_entry (P := P) db correction.subjectEventId
    have hremote := state.tables.canonicalText?_entry (P := P) correction.subjectEventId
    unfold OriginTables.canonicalText? at hremote
    rw [hnone, hentries, ← hlocal] at hremote
    unfold Db.canonicalText? at hremote
    cases hfound : db.eventById? correction.subjectEventId with
    | none => exact hsubject hfound
    | some row =>
        rw [hfound] at hremote
        cases hremote
  unfold federateCorrection
  simp only [isOk_bind, rejectIf_eq_ok]
  refine ⟨(), hsubstantive, (), ?_, (), hknown, isOk_ok _⟩
  rintro (hempty | hmissing)
  · exact hevidence hempty
  · exact hsupersedes hmissing

/-- What the topic commons of an importer must accept. -/
structure AcceptsCommons (P : Primitives) (origin lineageId : String) (sequence : ℤ)
    (eventId : String) (contribution : SignedContribution) (commons : CommonsTables) :
    Prop where
  routing : validateCommonsRouting lineageId contribution = .ok ()
  consistent : validateFederatedCommonsState origin lineageId contribution commons = .ok ()
  recorded : isOk (projectCommonsContribution P origin sequence lineageId eventId contribution
    commons)

/-- The importer records every kind of contribution which the node records. -/
theorem isOk_federateKind_of_valid (h : MirrorsContent state.tables db)
    (hsound : ContentSound db) (hlog : LogSound P db.events)
    (hentries : state.tables.remoteEvents.map (RemoteEventRow.entry P) =
      db.events.map (EventRow.entry P))
    (himportable : contribution.IsImportable P db) (hid : event.eventId = accepted.id)
    (hbase : logged.content = db.content ∧ logged.sources = db.sources)
    (hcontent : validateContributionContent P contribution = .ok ())
    (hvalid : db.validateKind P lineageId contribution now = .ok ())
    (happly : logged.applyProjection P lineageId contribution accepted = .ok next)
    (hcommons : contribution.kind.isCommons = true → AcceptsCommons P origin lineageId
      event.sequence event.eventId (contribution.canonical P) state.commons) :
    isOk (federateKind P origin lineageId event (contribution.canonical P) state) := by
  by_cases hkind : contribution.kind.isContent = true
  · refine isOk_federateKind hkind h hsound ?_ himportable hid hbase hvalid happly
    rw [hentries]
    exact EventRow.entry_canonical_ne_none hlog
  by_cases hforge : contribution.kind.isForge = true
  · have hrouting := validateCommonsRouting_of_valid hforge hcontent hvalid
    have hstate := validateRemoteForgeState_of_valid hentries hforge hcontent hvalid
    unfold federateKind
    simp only [SignedContribution.canonical] at hrouting hstate ⊢
    cases hcase : contribution.kind with
    | repositoryPatch | codeReview | buildAttestation | releaseProposal | releaseReview =>
        simp only [hcase] at hrouting hstate
        simp only [isOk_bind]
        exact ⟨(), hrouting, (), hstate, isOk_ok _⟩
    | _ =>
        rw [hcase] at hforge
        cases hforge
  by_cases htopics : contribution.kind.isCommons = true
  · obtain ⟨hrouting, hconsistent, commons, hrecorded⟩ := hcommons htopics
    unfold federateKind
    simp only [SignedContribution.canonical] at hrouting hconsistent hrecorded ⊢
    cases hcase : contribution.kind with
    | topicProposal | topicVote | forumPost | openPgpKey | directMessage =>
        simp only [hcase] at hrouting hconsistent hrecorded
        simp only [isOk_bind]
        exact ⟨(), hrouting, (), hconsistent, commons, hrecorded, isOk_ok _⟩
    | _ =>
        rw [hcase] at htopics
        cases htopics
  unfold Db.validateKind at hvalid
  unfold federateKind
  simp only [SignedContribution.canonical]
  cases hcase : contribution.kind with
  | correction =>
      simp only [hcase, bind_eq_ok] at hvalid
      obtain ⟨correction, hcorrection, hvalid⟩ := hvalid
      obtain ⟨tables, htables⟩ : isOk (federateCorrection event (contribution.canonical P)
        correction state.tables) := isOk_federateCorrection hentries hvalid
      simp only [SignedContribution.canonical] at htables
      simp only [isOk_bind]
      exact ⟨correction, decodePayload_canon CorrectionPayload.stable hcorrection, tables,
        htables, isOk_ok _⟩
  | workClaim =>
      simp only [hcase, bind_eq_ok] at hvalid
      obtain ⟨claim, hclaim, ⟨⟩, -, hlease⟩ := hvalid
      simp only [isOk_bind]
      exact ⟨claim, decodePayload_canon WorkClaimPayload.stable hclaim, (),
        rejectIf_eq_ok.mpr (rejectIf_eq_ok.mp hlease), isOk_ok _⟩
  | workResult =>
      simp only [hcase, bind_eq_ok, rejectIf_eq_ok] at hvalid
      obtain ⟨result, hresult, ⟨⟩, -, ⟨⟩, hsummary, hevidence⟩ := hvalid
      obtain ⟨read, hread⟩ := decodeWorkResult_canon hresult
      simp only [isOk_bind, rejectIf_eq_ok]
      exact ⟨_, hread, (), not_or.mpr ⟨hsummary, hevidence⟩, isOk_ok _⟩
  | perspectiveGap | translation | verificationTrace | commitment | position
  | continuityCheckpoint => exact isOk_ok _
  | sourceProposal | sourceReview | observationVerification | storyLink | assessment =>
      rw [hcase] at hkind
      exact absurd rfl hkind
  | topicProposal | topicVote | forumPost | openPgpKey | directMessage =>
      rw [hcase] at htopics
      exact absurd rfl htopics
  | repositoryPatch | codeReview | buildAttestation | releaseProposal | releaseReview =>
      rw [hcase] at hforge
      exact absurd rfl hforge

end

/-! ## The nonces of the authors -/

/-- The delegation and the nonce of an event, as an importer stores them. -/
def RemoteEventRow.authorKey (row : RemoteEventRow) : Option (String × String) := do
  let delegationId ← row.delegationId
  let nonce ← row.authorNonce
  pure (delegationId, nonce)

section

variable {P : Primitives} {identity : NodeIdentity P} {origin : String} {event : OriginEvent}
  {accepted : AcceptedObject} {appendedAt : ℤ} {db next logged : Db} {row : EventRow}
  {nonce : Option String}

theorem SignedAcknowledgement.nonce_of_ofJson_canon {x y : SignedAcknowledgement}
    (h : SignedAcknowledgement.ofJson P (P.canon (x.toJson P)) = some y) : y.nonce = x.nonce := by
  simp only [SignedAcknowledgement.toJson, Primitives.canon_object, List.map_cons,
    List.map_nil, canon_dateTime, Primitives.canon_string,
    SignedAcknowledgement.ofJson] at h
  rw [show Serde.fields _ _ = some _ from rfl] at h
  simp only [Serde.required, List.lookup_cons, String.reduceBEq, Option.bind_eq_bind,
    Option.bind_some, dateTimeOfJson_dateTime, Serde.string_string,
    MemoryProvenance.ofJson_canon, Option.pure_def, Option.bind_eq_some_iff,
    Option.some.injEq] at h
  obtain ⟨cursor, -, rfl⟩ := h
  rfl

/-- An event without a delegation has no nonce on either side. -/
theorem Appended.authorKey_of_anonymous {input : EventInput}
    (h : Appended P identity input appendedAt db row accepted logged)
    (hinput : input.delegationId = none) (hevent : originEvent P row = .ok event) :
    (remoteRow P event nonce).authorKey = row.authorKey := by
  simp only [originEvent, bind_eq_ok, okOr_eq_ok, pure_eq_ok, Except.ok.injEq] at hevent
  obtain ⟨canonical, -, rfl⟩ := hevent
  have hdelegation : row.delegationId = none := h.columns.2.2.2.1.trans hinput
  simp [RemoteEventRow.authorKey, EventRow.authorKey, remoteRow, hdelegation]

/-- An importer stores the nonce which the node has logged. -/
theorem Committed.authorKey {admitted : Admitted} {state projected : ImportState}
    (h : Committed P identity admitted appendedAt db row accepted next)
    (hevent : originEvent P row = .ok event)
    (hproject : validateAndProjectRemoteEvent P origin event state = .ok (nonce, projected)) :
    (remoteRow P event nonce).authorKey = row.authorKey := by
  obtain ⟨logged, happended, -⟩ := h.appended
  have hnonce := happended.authorNonce
  have hdelegation := happended.columns.2.2.2.1
  have hsame : event.delegationId = row.delegationId := by
    simp only [originEvent, bind_eq_ok, okOr_eq_ok, pure_eq_ok, Except.ok.injEq] at hevent
    obtain ⟨canonical, -, rfl⟩ := hevent
    rfl
  have hkeyed : nonce = (admitted.input P).authorNonce →
      (remoteRow P event nonce).authorKey = row.authorKey := by
    rintro rfl
    unfold RemoteEventRow.authorKey EventRow.authorKey remoteRow
    rw [hnonce, hsame]
  cases admitted with
  | registerLineage _ _ | registerDelegation _ _ | revokeDelegation _ | rotateLineageKey _ =>
      exact happended.authorKey_of_anonymous rfl hevent
  | appendContribution lineageId contribution =>
      refine hkeyed ?_
      obtain ⟨_, hread, henvelope⟩ := happended.envelope (contribution.toJson P) rfl
      rw [hevent] at hread
      cases hread
      rw [validateAndProjectRemoteEvent_contribution contribution.kind henvelope.kind,
        projectContribution_eq] at hproject
      simp only [authorizeContribution, henvelope.canonical, SignedContribution.ofJson_canon,
        okOr_some, ok_bind, bind_eq_ok, pure_eq_ok, Except.ok.injEq, Prod.mk.injEq,
        Prod.exists] at hproject
      obtain ⟨_, _, ⟨_, -, _, -, _, -, _, -, _, -, _, -, _, _, -, _, -, _, -, _, -, -, rfl⟩, _,
        -, rfl, -⟩ := hproject
      rfl
  | appendAcknowledgement lineageId acknowledgement =>
      refine hkeyed ?_
      obtain ⟨_, hread, henvelope⟩ := happended.envelope (acknowledgement.toJson P) rfl
      rw [hevent] at hread
      cases hread
      have hkind : event.kind = "acknowledgement" := henvelope.kind
      unfold validateAndProjectRemoteEvent at hproject
      simp only [hkind, bind_eq_ok, pure_eq_ok, Except.ok.injEq, Prod.mk.injEq] at hproject
      obtain ⟨_, hproject, rfl, -⟩ := hproject
      simp only [projectAcknowledgement, bind_eq_ok, okOr_eq_ok, pure_eq_ok, Except.ok.injEq,
        henvelope.canonical, Prod.exists] at hproject
      obtain ⟨received, hreceived, _, -, _, -, _, -, _, -, _, -, _, _, -, _, -, _, -, _, -, _,
        -, rfl⟩ := hproject
      exact congrArg some (SignedAcknowledgement.nonce_of_ofJson_canon hreceived)

theorem projectAndStore_authorKeys {state after : ImportState}
    (hstore : projectAndStore P origin event state = .ok after)
    (hkey : ∀ nonce projected, validateAndProjectRemoteEvent P origin event state =
      .ok (nonce, projected) → (remoteRow P event nonce).authorKey = row.authorKey)
    (hbefore : state.tables.remoteEvents.map RemoteEventRow.authorKey =
      db.events.map EventRow.authorKey) (hevents : next.events = db.events ++ [row]) :
    after.tables.remoteEvents.map RemoteEventRow.authorKey =
      next.events.map EventRow.authorKey := by
  obtain ⟨nonce, projected, hproject, rfl⟩ := projectAndStore_eq_ok hstore
  rw [hevents, List.map_append, List.map_append, hbefore, List.map_singleton,
    List.map_singleton, hkey nonce projected hproject]

/-- An importer which has recorded a log holds its nonces. -/
theorem History.authorKeys {commits : PendingCall → Db → ℤ → Prop} {entries : FeedEntry → Prop}
    (h : History P identity commits entries db) {events : List OriginEvent}
    {tables : OriginTables} (hevents : db.events.map (originEvent P) = events.map .ok)
    (himported : Imported P origin events tables) :
    tables.remoteEvents.map RemoteEventRow.authorKey = db.events.map EventRow.authorKey := by
  induction h generalizing events tables with
  | init =>
      have hnil : events = [] := by simpa [Db.init] using hevents.symm
      subst hnil
      rw [himported.nil]
      rfl
  | quiet db next _ hquiet ih =>
      rw [hquiet.events] at hevents ⊢
      exact ih hevents himported
  | commit db next call appendedAt row accepted _ _ _ _ hcommitted ih =>
      rw [hcommitted.events] at hevents
      obtain ⟨front, event, rfl, hfront, hevent⟩ := map_eq_map_ok_append hevents
      obtain ⟨before, commons, imported, hbefore, hstore, htables⟩ := himported.last
      rw [htables]
      exact projectAndStore_authorKeys hstore
        (fun _ _ hproject => hcommitted.authorKey hevent hproject) (ih hfront hbefore)
        hcommitted.events
  | observe db next sourceId languages feed retrievedAt entry canonicalUrl appendedAt row
      accepted _ _ hobserved ih =>
      rw [hobserved.events] at hevents
      obtain ⟨front, event, rfl, hfront, hevent⟩ := map_eq_map_ok_append hevents
      obtain ⟨before, commons, imported, hbefore, hstore, htables⟩ := himported.last
      obtain ⟨logged, happended, -⟩ := hobserved.appended
      rw [htables]
      exact projectAndStore_authorKeys hstore
        (fun _ _ _ => happended.authorKey_of_anonymous rfl hevent) (ih hfront hbefore)
        hobserved.events
  | witness db next bundle observedAt appendedAt row _ hwitnessed ih =>
      rw [hwitnessed.events] at hevents
      obtain ⟨front, event, rfl, hfront, hevent⟩ := map_eq_map_ok_append hevents
      obtain ⟨before, commons, imported, hbefore, hstore, htables⟩ := himported.last
      obtain ⟨base, accepted, logged, -, happended⟩ := hwitnessed.appended
      rw [htables]
      exact projectAndStore_authorKeys hstore
        (fun _ _ _ => happended.authorKey_of_anonymous rfl hevent) (ih hfront hbefore)
        hwitnessed.events

end

/-! ## Storing the next event -/

section

variable {P : Primitives} {identity : NodeIdentity P} {origin : String} {event : OriginEvent}
  {accepted : AcceptedObject} {appendedAt : ℤ} {base db next logged : Db} {row : EventRow}
  {nonce : Option String} {tables : OriginTables} {state : ImportState}

/-- An importer which has recorded the log of a node, and nothing else of it. -/
structure CaughtUp (P : Primitives) (db : Db) (tables : OriginTables) : Prop where
  authority : MirrorsAuthority tables db
  content : MirrorsContent tables db
  entries : tables.remoteEvents.map (RemoteEventRow.entry P) = db.events.map (EventRow.entry P)
  authorKeys : tables.remoteEvents.map RemoteEventRow.authorKey =
    db.events.map EventRow.authorKey
  eventHashes : tables.remoteEvents.map (fun row => row.eventHash) =
    db.events.map fun row => row.eventHash

theorem History.caughtUp {commits : PendingCall → Db → ℤ → Prop} {entries : FeedEntry → Prop}
    (h : History P identity commits entries db) {events : List OriginEvent}
    (hevents : db.events.map (originEvent P) = events.map .ok)
    (himported : Imported P origin events tables) : CaughtUp P db tables := by
  refine ⟨h.mirrorsAuthority hevents himported, h.mirrorsContent hevents himported,
    himported.entries hevents, h.authorKeys hevents himported, ?_⟩
  have hrows : db.events.map (fun row => row.eventHash) =
      events.map fun event => event.eventHash :=
    map_column_of_read (fun _ _ hread => congrArg Prod.snd (originEvent_columns hread)) hevents
  have hstored : ∀ {front : List OriginEvent} {rows : List RemoteEventRow},
      List.Forall₂ (fun event row => ∃ nonce, row = remoteRow P event nonce) front rows →
      rows.map (fun row => row.eventHash) = front.map fun event => event.eventHash := by
    intro front rows hall
    induction hall with
    | nil => rfl
    | cons hrow _ ih =>
        obtain ⟨nonce, rfl⟩ := hrow
        rw [List.map_cons, List.map_cons, ih]
        rfl
  rw [hrows, hstored himported.rows]

/-- No stored event excludes the next event of the log. -/
theorem CaughtUp.fresh {input : EventInput} (h : CaughtUp P db tables)
    (hlog : LogSound P db.events) (hbase : base.events = db.events)
    (happended : Appended P identity input appendedAt base row accepted logged)
    (hevent : originEvent P row = .ok event)
    (hkey : (remoteRow P event nonce).authorKey = row.authorKey) :
    (tables.remoteEvents.any (remoteRow P event nonce).clashes) = false := by
  have hcolumns : event.sequence = row.sequence ∧ event.eventId = row.eventId ∧
      event.eventHash = row.eventHash := by
    simp only [originEvent, bind_eq_ok, okOr_eq_ok, pure_eq_ok, Except.ok.injEq] at hevent
    obtain ⟨canonical, -, rfl⟩ := hevent
    exact ⟨rfl, rfl, rfl⟩
  obtain ⟨hsequence, hid, hhash⟩ := hcolumns
  have hfresh := happended.fresh
  rw [hbase] at hfresh
  rw [List.any_eq_false]
  intro stored hstored hclash
  obtain ⟨known, hknown, hsame⟩ : ∃ known ∈ db.events, known.entry P = stored.entry P := by
    have hmem : stored.entry P ∈ db.events.map (EventRow.entry P) := by
      rw [← h.entries]
      exact List.mem_map_of_mem hstored
    exact List.mem_map.mp hmem
  simp only [RemoteEventRow.clashes, Bool.or_eq_true, beq_iff_eq, Bool.and_eq_true] at hclash
  rcases hclash with ((hnumber | hsameId) | hsameHash) | hauthor
  · have hbounds := hlog.numbered.mem_bounds hknown
    have hstoredSequence : known.sequence = stored.originSequence :=
      congrArg LogEntry.sequence hsame
    have hnew : row.sequence = db.events.length + 1 := by
      rw [happended.columns.1, base.head_eq, hbase, ← db.head_eq, hlog.head_eq]
    have hrow : (remoteRow P event nonce).originSequence = event.sequence := rfl
    omega
  · have hknownId : known.eventId = stored.eventId := congrArg LogEntry.eventId hsame
    have hrow : (remoteRow P event nonce).eventId = event.eventId := rfl
    have hclashes := hfresh known hknown
    simp [EventRow.clashes, hknownId, hsameId, hrow, hid] at hclashes
  · have hmem : stored.eventHash ∈ db.events.map fun row => row.eventHash := by
      rw [← h.eventHashes]
      exact List.mem_map_of_mem hstored
    obtain ⟨other, hother, hotherHash⟩ := List.mem_map.mp hmem
    have hrow : (remoteRow P event nonce).eventHash = event.eventHash := rfl
    have hclashes := hfresh other hother
    simp [EventRow.clashes, hotherHash, hsameHash, hrow, hhash] at hclashes
  · -- The nonces of the two sides are the same.
    obtain ⟨⟨⟨hdelegation, hnonce⟩, hsameDelegation⟩, hsameNonce⟩ := hauthor
    have hstoredKey : stored.authorKey = row.authorKey := by
      rw [← hkey]
      unfold RemoteEventRow.authorKey
      rw [hsameDelegation, hsameNonce]
    obtain ⟨id, hid⟩ := Option.isSome_iff_exists.mp hdelegation
    obtain ⟨spent, hspent⟩ := Option.isSome_iff_exists.mp hnonce
    have hrowKey : row.authorKey = some (id, spent) := by
      rw [← hkey]
      unfold RemoteEventRow.authorKey
      rw [hid, hspent]
      rfl
    have hmem : stored.authorKey ∈ db.events.map EventRow.authorKey := by
      rw [← h.authorKeys]
      exact List.mem_map_of_mem hstored
    obtain ⟨other, hother, hotherKey⟩ := List.mem_map.mp hmem
    rw [← hbase] at hother
    exact happended.fresh_nonce hrowKey other hother
      (hotherKey.trans (hstoredKey.trans hrowKey))

/-- The importer stores the next event of the log which it accepts. -/
theorem CaughtUp.isOk_store {input : EventInput} (h : CaughtUp P db state.tables)
    (hlog : LogSound P db.events) (hbase : base.events = db.events)
    (happended : Appended P identity input appendedAt base row accepted logged)
    (hevent : originEvent P row = .ok event)
    (hkey : ∀ nonce projected, validateAndProjectRemoteEvent P origin event state =
      .ok (nonce, projected) → (remoteRow P event nonce).authorKey = row.authorKey)
    (hproject : isOk (validateAndProjectRemoteEvent P origin event state)) :
    isOk (projectAndStore P origin event state) := by
  obtain ⟨⟨nonce, projected⟩, hproject⟩ := hproject
  have hsame := (validateAndProjectRemoteEvent_sameLog origin event state _ hproject).remoteEvents
  have hfresh := h.fresh hlog hbase happended hevent (hkey nonce projected hproject)
  rw [← hsame] at hfresh
  unfold projectAndStore
  simp only [isOk_bind]
  exact ⟨(nonce, projected), hproject, _, insertNew_of_fresh hfresh, isOk_ok _⟩

/-! ## What the importer accepts -/

theorem projectAcknowledgement_of_authorized {acknowledgement : SignedAcknowledgement}
    {lineageId : String}
    (h : authorizeAcknowledgement P event tables = .ok acknowledgement)
    (hlineage : event.lineageId = some lineageId)
    (hcursor : isOk (validateRemoteAckCursor P tables lineageId event.sequence
      acknowledgement.cursor)) : isOk (projectAcknowledgement P event tables) := by
  obtain ⟨⟨⟩, hcursor⟩ := hcursor
  simp only [authorizeAcknowledgement, bind_eq_ok, pure_eq_ok, Except.ok.injEq,
    Prod.exists] at h
  obtain ⟨read, hread, ⟨⟩, hprotocol, ⟨⟩, hnonce, ⟨⟩, hmemory, receivedAt, hreceived, ⟨⟩,
    htime, author, sessionKey, hauthorize, ⟨⟩, hmetadata, key, hkey, ⟨⟩, hsignature, rfl⟩ := h
  have hauthor := requireRemoteEventMetadata_lineage hmetadata
  rw [hlineage, Option.some.injEq] at hauthor
  subst hauthor
  unfold projectAcknowledgement
  simp only [isOk_bind]
  exact ⟨read, hread, (), hprotocol, (), hnonce, (), hmemory, receivedAt, hreceived, (), htime,
    (lineageId, sessionKey), hauthorize, (), hmetadata, (), hcursor, key, hkey, (), hsignature,
    isOk_ok _⟩

/-- The importer accepts the event of a call. -/
theorem CaughtUp.accepts_commit {call : PendingCall} (h : CaughtUp P db state.tables)
    (hlogged : DelegationsLogged P db) (hlog : LogSound P db.events) (hcontent : ContentSound db)
    (hcursors : CursorsSound P db) (hsound : call.Sound P db)
    (htimely : call.Timely P db appendedAt) (hcurrent : call.Current db)
    (himportable : call.IsImportable P db)
    (hcommit : call.admitted.commit P identity appendedAt db = .ok (accepted, next))
    (hcommitted : Committed P identity call.admitted appendedAt db row accepted next)
    (hevent : originEvent P row = .ok event)
    (hcommons : ∀ lineageId contribution,
      call.admitted = .appendContribution lineageId contribution →
      contribution.kind.isCommons = true → AcceptsCommons P origin lineageId accepted.sequence
        accepted.id (contribution.canonical P) state.commons) :
    isOk (validateAndProjectRemoteEvent P origin event state) := by
  obtain ⟨hchecked, hkept⟩ := hsound
  obtain ⟨hyear, hauthored, hexpiry⟩ := htimely
  obtain ⟨logged, happended, -⟩ := hcommitted.appended
  have heffect := hcommitted.effect
  have hread : ∀ value, (call.admitted.input P).canonicalJson = P.jcs value →
      Envelope P (call.admitted.input P) appendedAt accepted.sequence value event := by
    intro value hvalue
    obtain ⟨other, hother, henvelope⟩ := happended.envelope value hvalue
    rw [hevent] at hother
    cases hother
    exact henvelope
  obtain ⟨admitted, checkedAt, seen⟩ := call
  cases admitted with
  | registerLineage lineageId registration =>
      have henvelope := hread (registration.toJson P) rfl
      have hkind : event.kind = "lineage_registered" := henvelope.kind
      obtain ⟨after, hafter, -⟩ := replay_registration h.authority hchecked henvelope hyear
        hauthored heffect
      obtain ⟨result, hresult, -⟩ := map_eq_ok.mp hafter
      unfold validateAndProjectRemoteEvent
      simp only [hkind, isOk_bind]
      exact ⟨result, hresult, isOk_ok _⟩
  | registerDelegation id delegation =>
      have henvelope := hread (delegation.toJson P) rfl
      have hkind : event.kind = "delegation_registered" := henvelope.kind
      obtain ⟨after, hafter, -⟩ := replay_delegation h.authority hchecked hcurrent henvelope
        hyear hauthored heffect
      obtain ⟨result, hresult, -⟩ := map_eq_ok.mp hafter
      unfold validateAndProjectRemoteEvent
      simp only [hkind, isOk_bind]
      exact ⟨result, hresult, isOk_ok _⟩
  | revokeDelegation revocation =>
      have henvelope := hread (revocation.toJson P) rfl
      have hkind : event.kind = "delegation_revoked" := henvelope.kind
      obtain ⟨after, hafter, -⟩ := replay_revocation h.authority hchecked hkept hcurrent
        henvelope hyear hauthored heffect
      obtain ⟨result, hresult, -⟩ := map_eq_ok.mp hafter
      unfold validateAndProjectRemoteEvent
      simp only [hkind, isOk_bind]
      exact ⟨result, hresult, isOk_ok _⟩
  | rotateLineageKey rotation =>
      have henvelope := hread (rotation.toJson P) rfl
      have hkind : event.kind = "lineage_key_rotated" := henvelope.kind
      obtain ⟨after, hafter, -⟩ := replay_rotation h.authority hchecked henvelope hyear
        hauthored heffect
      obtain ⟨result, hresult, -⟩ := map_eq_ok.mp hafter
      unfold validateAndProjectRemoteEvent
      simp only [hkind, isOk_bind]
      exact ⟨result, hresult, isOk_ok _⟩
  | appendContribution lineageId contribution =>
      have henvelope := hread (contribution.toJson P) rfl
      obtain ⟨store, hcheck⟩ := hchecked
      have hauthorized := replay_contribution h.authority hlogged hkept hcheck hcurrent
        henvelope hyear hauthored (hexpiry _ rfl)
      obtain ⟨hvalid, logged, happended, happly⟩ :=
        Db.appendContribution_row hcommit hcommitted.events
      obtain ⟨-, hid⟩ := Db.appendContribution_envelope hcommit hcommitted.events hevent
      obtain ⟨⟨⟩, hpayload, hvalid⟩ := bind_eq_ok.mp hvalid
      obtain ⟨⟨⟩, hreporting, hvalid⟩ := bind_eq_ok.mp hvalid
      have himportable := himportable lineageId contribution rfl
      have hbase : logged.content = db.content ∧ logged.sources = db.sources := by
        rw [happended.next_eq]
        exact ⟨rfl, rfl⟩
      have hbefore : ∀ stored ∈ db.events, stored.sequence < event.sequence := by
        intro stored hstored
        have hbounds := hlog.numbered.mem_bounds hstored
        have hsequence : accepted.sequence = db.events.length + 1 := by
          rw [happended.accepted_eq, ← hlog.head_eq]
          exact happended.columns.1
        rw [henvelope.sequence, hsequence]
        omega
      have hrecorded := isOk_federateKind_of_valid h.content hcontent hlog h.entries himportable
        hid hbase hpayload hvalid happly (by
          intro hkind
          rw [henvelope.sequence, hid]
          exact hcommons lineageId contribution rfl hkind)
      obtain ⟨after, hafter⟩ : isOk (applyFederatedContribution P origin lineageId event
          (contribution.canonical P) state) := by
        unfold applyFederatedContribution
        simp only [isOk_bind]
        exact ⟨(), validateContributionContent_canon himportable hpayload, (),
          validateRemoteReporting_canon himportable h.entries hbefore hreporting, hrecorded⟩
      rw [validateAndProjectRemoteEvent_contribution contribution.kind henvelope.kind,
        projectContribution_eq, hauthorized]
      simp only [ok_bind, isOk_bind]
      exact ⟨after, hafter, isOk_ok _⟩
  | appendAcknowledgement lineageId acknowledgement =>
      have henvelope := hread (acknowledgement.toJson P) rfl
      have hkind : event.kind = "acknowledgement" := henvelope.kind
      have hauthorized := replay_acknowledgement h.authority hlogged hkept hchecked hcurrent.1
        hcurrent.2 henvelope hyear hauthored (hexpiry _ rfl)
      obtain ⟨_, hacknowledged⟩ := Db.appendAcknowledgement_eq_ok hcommit
      have hcursor : isOk (validateRemoteAckCursor P state.tables lineageId event.sequence
          acknowledgement.cursor) := by
        have hprevious : ackCursorIn P (state.tables.remoteEvents.map
            (RemoteEventRow.entry P)) lineageId = some (db.lastAcknowledgedCursor lineageId) := by
          rw [h.entries]
          exact hcursors.agree lineageId
        have hsequence : accepted.sequence = db.head + 1 := by
          rw [happended.accepted_eq]
          exact happended.columns.1
        have hinLog := hacknowledged.inLog
        rw [isOk_validateRemoteAckCursor_iff hprevious (hcursors.nonneg lineageId),
          henvelope.sequence, hsequence]
        exact ⟨by omega, hacknowledged.forward⟩
      obtain ⟨result, hresult⟩ :=
        projectAcknowledgement_of_authorized hauthorized henvelope.lineage hcursor
      unfold validateAndProjectRemoteEvent
      simp only [hkind, isOk_bind]
      exact ⟨result, hresult, isOk_ok _⟩

/-- The importer accepts an observation whose texts it takes. -/
theorem CaughtUp.accepts_observation {sourceId canonicalUrl : String} {languages : List String}
    {feed : Feed} {retrievedAt : ℤ} {entry : FeedEntry} (h : CaughtUp P db state.tables)
    (hlimits : entry.WithinLimits) (hyear : FourDigitYear appendedAt)
    (hauthored : ceilToMillis (retrievedAt - clockSkew) ≤ appendedAt)
    (hobserved : Observed P identity (entryObservation P sourceId languages feed retrievedAt
      entry canonicalUrl) appendedAt db row accepted next)
    (hevent : originEvent P row = .ok event) :
    isOk (validateAndProjectRemoteEvent P origin event state) := by
  have henvelope := hobserved.envelope hevent
  have hkind : event.kind = "observation" := henvelope.kind
  obtain ⟨projected, hprojected⟩ :=
    (isOk_projectFederatedObservation_iff h.content hobserved).mpr hlimits
  have hmetadata : requireRemoteEventMetadata P event none none retrievedAt = .ok () :=
    requireRemoteEventMetadata_eq_ok henvelope.lineage henvelope.delegation henvelope.created
      henvelope.received hyear
  have hproject : isOk (projectObservation P event state.tables) := by
    rw [← observationPayload_canonical] at hprojected
    unfold projectObservation
    rw [henvelope.canonical, FederatedObservationEnvelope.ofJson_canon]
    simp only [okOr_some, ok_bind, isOk_bind, henvelope.sequence]
    exact ⟨(), rejectIf_of_not (by simp [observationEnvelope]), (),
      rejectIf_of_not (by simp [observationEnvelope]), (), hmetadata, _,
      henvelope.receivedAt hyear, (), validateAuthoredTimeAt_truncate.mpr hauthored, projected,
      hprojected⟩
  obtain ⟨after, hafter⟩ := hproject
  unfold validateAndProjectRemoteEvent
  simp only [hkind, isOk_bind]
  exact ⟨after, hafter, isOk_ok _⟩

/-- The importer accepts a witness whose cursor the log keeps. -/
theorem accepts_witness {bundle : FederationBundle} {observedAt sequence : ℤ}
    (hverify : verifyBundle P bundle = .ok ()) (hyear : FourDigitYear appendedAt)
    (hkeeps : KeepsCursor P bundle.checkpoint.cursor)
    (henvelope : Envelope P (witnessInput P bundle (makeCheckpointWitness P identity bundle
      observedAt)) appendedAt sequence
      ((makeCheckpointWitness P identity bundle observedAt).toJson P) event) :
    isOk (validateAndProjectRemoteEvent P identity.nodeId event state) := by
  obtain ⟨key, head, hverified⟩ := verifyBundle_eq_ok hverify
  have hkind : event.kind = "checkpoint_witnessed" := henvelope.kind
  have hmetadata : requireRemoteEventMetadata P event none none observedAt = .ok () :=
    requireRemoteEventMetadata_eq_ok henvelope.lineage henvelope.delegation henvelope.created
      henvelope.received hyear
  have hkey : P.verifyingKeyFromB64 identity.publicKey = .ok (P.publicKey identity.secret) := by
    rw [identity.publicKey_eq, P.verifyingKeyFromB64_publicKey]
  have hsignature := P.verifyObject_signObject identity.secret witnessDomain
    ((unsignedWitness P identity bundle observedAt).toJson P)
  have hwitness : validateWitness P identity.nodeId event = .ok () := by
    unfold validateWitness
    rw [henvelope.canonical, CheckpointWitness.ofJson_canon P hkeeps hkeeps]
    simp only [okOr_some, ok_bind, bind_eq_ok]
    refine ⟨(), rejectIf_of_not (by simp [makeCheckpointWitness, unsignedWitness]), (),
      hmetadata, (), hverified.checkpointVerified, (), rejectIf_of_not ?_, _, hkey, (),
      rejectIf_of_not ?_, hsignature⟩
    · simp [makeCheckpointWitness, unsignedWitness, hverified.checkpointNode,
        hverified.checkpointKey]
    · simp [makeCheckpointWitness, unsignedWitness, identity.nodeId_eq]
  unfold validateAndProjectRemoteEvent
  simp only [hkind, isOk_bind]
  exact ⟨(), hwitness, isOk_ok _⟩

end

/-! ## What a step adds to the known logs -/

section

variable {P : Primitives} {identity : NodeIdentity P}

theorem NodeState.step_events (node : NodeState) (action : Action) :
    node.db.events <+: (node.step P identity action).db.events := by
  rcases node.step_synchronizes identity action with hown |
    ⟨bundle, observedAt, now, appendedAt, report, key, head, opened, loop, fresh, state, -,
      hresult⟩
  · rcases hown.events with hkept | ⟨-, -, row, -, -, -, -, hevents⟩
    · rw [hkept]
    · exact ⟨[row], hevents.symm⟩
  · rcases hresult.events with hkept | ⟨-, row, -, -, -, -, hevents⟩
    · rw [hkept]
    · exact ⟨[row], hevents.symm⟩

/-- Every known log only grows. -/
theorem NodeState.step_knownEvents (node : NodeState) (action : Action) (origin : String) :
    node.db.knownEvents P identity.nodeId origin <+:
      (node.step P identity action).db.knownEvents P identity.nodeId origin := by
  by_cases hown : origin = identity.nodeId
  · unfold Db.knownEvents
    rw [if_pos hown, if_pos hown]
    exact (node.step_events action).filterMap _
  · rcases node.step_synchronizes identity action with hquiet |
      ⟨bundle, observedAt, now, appendedAt, report, key, head, opened, loop, fresh, state, -,
        hresult⟩
    · unfold Db.knownEvents
      rw [if_neg hown, if_neg hown, hquiet.origins]
    · by_cases hbundle : origin = bundle.originNodeId
      · rw [hbundle, hresult.knownEvents]
        exact List.prefix_append _ _
      · unfold Db.knownEvents
        rw [if_neg hown, if_neg hown, hresult.other_origins hbundle]

theorem NodeState.step_idInputs (node : NodeState) (action : Action) :
    node.db.idInputs P identity.nodeId ⊆
      (node.step P identity action).db.idInputs P identity.nodeId := by
  rintro bytes ⟨origin, event, hevent, hbytes⟩
  exact ⟨origin, event, (node.step_knownEvents action origin).subset hevent, hbytes⟩

theorem run_head_le_step (actions : List Action) (action : Action) :
    (NodeState.run P identity actions).db.head ≤
      (NodeState.run P identity (actions ++ [action])).db.head := by
  have hbefore := (run_history_any P identity actions).logSound
  have hafter := (run_history_any P identity (actions ++ [action])).logSound
  rw [hbefore.head_eq, hafter.head_eq, NodeState.run_append_singleton]
  exact_mod_cast ((NodeState.run P identity actions).step_events action).length_le

/-! ## Every run -/

/-- What lets every other node follow the log of a run.  Its calls find at their
commit the time and the authority of their check, and say nothing which an
importer refuses.  The collected entries are within the limits of an importer,
and the clock does not fall behind.  No cursor is too large for the canonical
text. -/
structure StaysImportable (P : Primitives) (identity : NodeIdentity P)
    (actions : List Action) : Prop where
  commits : CommitsMeet P identity (fun call db appendedAt => call.Timely P db appendedAt ∧
    call.Current db ∧ call.IsImportable P db) actions
  observations : ∀ sourceId languages feed retrievedAt entry appendedAt,
    .observe sourceId languages feed retrievedAt entry appendedAt ∈ actions →
      entry.WithinLimits ∧ FourDigitYear appendedAt ∧
        ceilToMillis (retrievedAt - clockSkew) ≤ appendedAt
  imports : ∀ bundle observedAt now appendedAt,
    .importBundle bundle observedAt now appendedAt ∈ actions →
      KeepsCursor P bundle.checkpoint.cursor ∧ FourDigitYear appendedAt
  cursors : ∀ n, 0 ≤ n → n ≤ (NodeState.run P identity actions).db.head → KeepsCursor P n

theorem StaysImportable.of_append {actions : List Action} {action : Action}
    (h : StaysImportable P identity (actions ++ [action])) :
    StaysImportable P identity actions where
  commits := h.commits.of_append
  observations := fun _ _ _ _ _ _ hmem =>
    h.observations _ _ _ _ _ _ (List.mem_append_left _ hmem)
  imports := fun _ _ _ _ hmem => h.imports _ _ _ _ (List.mem_append_left _ hmem)
  cursors := fun n hlow hhigh => h.cursors n hlow (hhigh.trans (run_head_le_step actions action))

/-- An importer which has stored the first events of the log can record the
others. -/
def Followable (P : Primitives) (origin : String) (state : ImportState)
    (stored : List OriginEvent) (db : Db) : Prop :=
  ∀ fresh, db.events.map (originEvent P) = (stored ++ fresh).map .ok →
    isOk (projectEvents P origin state fresh)

variable {origin : String} {state : ImportState} {stored : List OriginEvent} {db next : Db}
  {row : EventRow}

theorem Followable.congr (h : Followable P origin state stored db)
    (hevents : next.events = db.events) : Followable P origin state stored next := by
  intro fresh hlog
  rw [hevents] at hlog
  exact h fresh hlog

theorem Followable.append (h : Followable P origin state stored db)
    (hstored : Imported P origin stored state.tables)
    (hevents : next.events = db.events ++ [row])
    (hstep : ∀ front event middle, db.events.map (originEvent P) = (stored ++ front).map .ok →
      projectEvents P origin state front = .ok middle →
      Imported P origin (stored ++ front) middle.tables → originEvent P row = .ok event →
      isOk (projectAndStore P origin event middle)) :
    Followable P origin state stored next := by
  intro fresh hlog
  rcases List.eq_nil_or_concat fresh with rfl | ⟨front, event, rfl⟩
  · exact isOk_ok _
  rw [hevents, List.concat_eq_append, ← List.append_assoc, List.map_append, List.map_append]
    at hlog
  obtain ⟨hfront, hlast⟩ := List.append_inj' hlog rfl
  obtain ⟨middle, hproject⟩ := h front hfront
  obtain ⟨final, hstore⟩ := hstep front event middle hfront hproject
    (hstored.projectEvents hproject) (List.cons.inj hlast).1
  rw [List.concat_eq_append]
  exact ⟨final, foldState_append_singleton hproject hstore⟩

/-- Every other node which has stored a part of the log of a run can record the
rest, in whatever pages, and among whatever other logs. -/
theorem StaysImportable.followable {importer : NodeIdentity P} {imports actions : List Action}
    (hstays : StaysImportable P identity actions) (hother : importer.nodeId ≠ identity.nodeId)
    (hcollision : Set.InjOn P.sha256
      ((NodeState.run P identity actions).db.idInputs P identity.nodeId ∪
        (NodeState.run P importer imports).db.idInputs P importer.nodeId))
    (hstored : Imported P identity.nodeId stored
      ((NodeState.run P importer imports).db.origins identity.nodeId)) :
    Followable P identity.nodeId
      ((NodeState.run P importer imports).db.importState identity.nodeId) stored
      (NodeState.run P identity actions).db := by
  induction actions using List.reverseRecOn with
  | nil =>
      intro fresh hlog
      have hnil : stored ++ fresh = [] := List.map_eq_nil_iff.mp hlog.symm
      rw [(List.append_eq_nil_iff.mp hnil).2]
      exact isOk_ok _
  | append_singleton actions action ih =>
      have hearlier := hstays.of_append
      have hcollided : Set.InjOn P.sha256
          ((NodeState.run P identity actions).db.idInputs P identity.nodeId ∪
            (NodeState.run P importer imports).db.idInputs P importer.nodeId) := by
        refine hcollision.mono (Set.union_subset_union_left _ ?_)
        rw [NodeState.run_append_singleton]
        exact NodeState.step_idInputs _ action
      have hbefore := ih hearlier hcollided
      have hpending := run_pendingSound P identity actions
      have hhistory := run_history_any P identity actions
      have hlogged := (run_replaysAuthority P identity actions
        (hearlier.commits.mono fun _ _ _ h => ⟨h.1, h.2.1⟩)).logged
      have hlast := fun index appendedAt call accepted next hindex =>
        hstays.commits actions index appendedAt [] call accepted next hindex
      have hentry := fun sourceId languages feed retrievedAt entry appendedAt
          (haction : action = .observe sourceId languages feed retrievedAt entry appendedAt) =>
        hstays.observations sourceId languages feed retrievedAt entry appendedAt
          (List.mem_append_right actions (List.mem_singleton.mpr haction.symm))
      have himport := fun bundle observedAt now appendedAt
          (haction : action = .importBundle bundle observedAt now appendedAt) =>
        hstays.imports bundle observedAt now appendedAt
          (List.mem_append_right actions (List.mem_singleton.mpr haction.symm))
      rw [NodeState.run_append_singleton]
      have hsteps := (NodeState.run P identity actions).step_steps identity action
      generalize (NodeState.run P identity actions).step P identity action = next at hsteps
      cases hsteps with
      | idle => exact hbefore
      | pend => exact hbefore
      | abort => exact hbefore
      | commit index appendedAt call accepted next hcall hcommit =>
          obtain ⟨row, hcommitted⟩ := Admitted.commit_eq_ok hcommit
          obtain ⟨htimely, hcurrent, himportable⟩ :=
            hlast index appendedAt call accepted next rfl hcall hcommit
          refine hbefore.append hstored hcommitted.events ?_
          intro front event middle hlog hproject himported hevent
          have hcaught := hhistory.caughtUp hlog himported
          obtain ⟨logged, happended, -⟩ := hcommitted.appended
          refine hcaught.isOk_store hhistory.logSound rfl happended hevent
            (fun _ _ hprojected => hcommitted.authorKey hevent hprojected) ?_
          refine hcaught.accepts_commit hlogged hhistory.logSound hhistory.contentSound
            (hhistory.cursorsSound hearlier.cursors) (hpending call (List.mem_of_getElem? hcall))
            htimely hcurrent himportable hcommit hcommitted hevent ?_
          intro lineageId contribution hadmitted hkind
          rw [hadmitted] at hcommit
          have hleading : ((NodeState.run P importer imports).db.origins
                identity.nodeId).remoteEvents.map (remoteOriginEventFromRow P) ++
              front.map .ok = (NodeState.run P identity actions).db.events.map (originEvent P) := by
            rw [hstored.map_rows, hlog, List.map_append]
          obtain ⟨hrouting, hconsistent, hrecorded⟩ := run_commons_importable P identity importer
            actions imports front middle lineageId contribution appendedAt accepted next hother
            hleading hproject hcollided hkind hcommit
          exact ⟨hrouting, hconsistent, hrecorded⟩
      | observe sourceId languages feed retrievedAt entry appendedAt canonicalUrl observation
          accepted next hurl hobservation hnew happend =>
          obtain ⟨row, logged, happended, hsame⟩ :=
            (Db.appendObservation_logs identity observation appendedAt hnew _ happend).appended
          subst hobservation
          have hobserved : Observed P identity (entryObservation P sourceId languages feed
              retrievedAt entry canonicalUrl) appendedAt (NodeState.run P identity actions).db row
              accepted next := ⟨hnew, happend, logged, happended, hsame⟩
          obtain ⟨hlimits, hyear, hauthored⟩ := hentry _ _ _ _ _ _ rfl
          refine hbefore.append hstored hobserved.events ?_
          intro front event middle hlog hproject himported hevent
          have hcaught := hhistory.caughtUp hlog himported
          exact hcaught.isOk_store hhistory.logSound rfl happended hevent
            (fun _ _ _ => happended.authorKey_of_anonymous rfl hevent)
            (hcaught.accepts_observation hlimits hyear hauthored hobserved hevent)
      | markSourceFetch sourceId success => exact hbefore.congr rfl
      | importBundle bundle observedAt now appendedAt =>
          obtain ⟨hkeeps, hyear⟩ := himport _ _ _ _ rfl
          cases hverify : verifyBundle P bundle with
          | error e =>
              refine hbefore.congr ?_
              unfold importFederationBundle
              rw [hverify]
          | ok =>
              obtain ⟨hsame, hevents⟩ := importFederationBundle_frame identity bundle observedAt
                now appendedAt (NodeState.run P identity actions).db
              rcases hevents with hkept | ⟨base, accepted, logged, hbase, happend, hnext⟩
              · exact hbefore.congr hkept
              · obtain ⟨row, happended⟩ := appendEvent_eq_ok happend
                refine hbefore.append hstored
                  (by rw [hnext, happended.events, hbase] : _ = _ ++ [row]) ?_
                intro front event middle hlog hproject himported hevent
                obtain ⟨received, hreceived, henvelope⟩ := happended.envelope
                  ((makeCheckpointWitness P identity bundle observedAt).toJson P) rfl
                rw [hevent] at hreceived
                cases hreceived
                have hcaught := hhistory.caughtUp hlog himported
                exact hcaught.isOk_store hhistory.logSound hbase happended hevent
                  (fun _ _ _ => happended.authorKey_of_anonymous rfl hevent)
                  (accepts_witness hverify hyear hkeeps henvelope)

/-- A node which has stored a prefix of the log of a run, in whatever pages and among
whatever other logs, can record the rest of it. -/
theorem run_logImportable (P : Primitives) (identity importer : NodeIdentity P)
    (actions imports : List Action) (held : ℕ) (hstays : StaysImportable P identity actions)
    (hother : importer.nodeId ≠ identity.nodeId)
    (hheld : (NodeState.run P importer imports).db.Holds P identity.nodeId
      ((NodeState.run P identity actions).db.events.take held))
    (hcollision : Set.InjOn P.sha256
      ((NodeState.run P identity actions).db.idInputs P identity.nodeId ∪
        (NodeState.run P importer imports).db.idInputs P importer.nodeId)) :
    ∃ log : List OriginEvent,
      (NodeState.run P identity actions).db.events.map (originEvent P) = log.map .ok ∧
      isOk (projectEvents P identity.nodeId
        ((NodeState.run P importer imports).db.importState identity.nodeId) (log.drop held)) := by
  obtain ⟨log, hlog⟩ := run_ownLog P identity actions
  obtain ⟨stored, hstored, himported⟩ := hheld.imported
  have hstart : stored = log.take held := by
    rw [List.map_take, hlog.read, ← List.map_take] at hstored
    exact (List.map_injective_iff.mpr (fun _ _ => Except.ok.inj) hstored).symm
  refine ⟨log, hlog.read, hstays.followable hother hcollision himported _ ?_⟩
  rw [hstart, List.take_append_drop, hlog.read]

end

namespace Sample

/-- The import of the first events of a run, in one page. -/
def importFirst (limit : ℕ) (actions : List Action) : List Action :=
  match federationBundle library origin 0 limit 0 (NodeState.run library origin actions).db with
  | .ok bundle => [.importBundle bundle 0 0 0]
  | .error _ => []

instance commitmentRun_importable : Fact (CommitsMeetFrom library origin
    (fun call db _ => call.IsImportable library db) (.init library origin)
      (commitmentRun oneHour) ∧
    (NodeState.run library importer (importFirst 1 (commitmentRun oneHour))).db.Holds library
      origin.nodeId ((NodeState.run library origin (commitmentRun oneHour)).db.events.take 1) ∧
    importer.nodeId ≠ origin.nodeId) :=
  ⟨by decide +kernel⟩

instance commitmentRun_distinct : Fact (((runInputs library origin (commitmentRun oneHour) ++
    runInputs library importer (importFirst 1 (commitmentRun oneHour))).dedup.map
      library.sha256).Nodup) :=
  ⟨by decide +kernel⟩

theorem staysImportable_commitmentRun :
    StaysImportable library origin (commitmentRun oneHour) := by
  refine ⟨?_, ?_, ?_, ?_⟩
  · intro before index appendedAt after call accepted next hsplit hcall hcommit
    obtain ⟨htimely, hcurrent⟩ :=
      commitsMeet_commitmentRun before index appendedAt after call accepted next hsplit hcall
        hcommit
    exact ⟨htimely, hcurrent, commitsMeet_of_from commitmentRun_importable.out.1 before index
      appendedAt after call accepted next hsplit hcall hcommit⟩
  · intro _ _ _ _ _ _ hmem
    simp [commitmentRun, atOnce] at hmem
  · intro _ _ _ _ hmem
    simp [commitmentRun, atOnce] at hmem
  · intro n hlow hhigh
    rw [head_oneHour.out] at hhigh
    exact keepsCursor_of_abs_le library (by rw [abs_of_nonneg hlow]; omega)

/-- The node which holds the registration can record the delegation and the
commitment. -/
theorem run_logImportable_commitmentRun :
    ∃ log : List OriginEvent, (NodeState.run library origin (commitmentRun oneHour)).db.events.map
        (originEvent library) = log.map .ok ∧
      isOk (projectEvents library origin.nodeId
        ((NodeState.run library importer (importFirst 1 (commitmentRun oneHour))).db.importState
          origin.nodeId) (log.drop 1)) :=
  run_logImportable library origin importer (commitmentRun oneHour)
    (importFirst 1 (commitmentRun oneHour)) 1 staysImportable_commitmentRun
    commitmentRun_importable.out.2.2 commitmentRun_importable.out.2.1
    (injOn_of_runInputs commitmentRun_distinct.out)

end Sample

end Commonwake
