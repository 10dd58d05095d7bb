import Commonwake.ContentEffects

/-!
# Admitting a source

A source leaves the state in which it was proposed once two lineages other
than its proposer approve of it in traceable reviews.  The node counts the
reviews after it has logged the deciding one, an importer before it has
stored it.
-/

namespace Commonwake

open Outcome Table

/-! ## Logged events -/

/-- What the log of a node and the stored log of an origin have in common. -/
structure LogEntry where
  sequence : ℤ
  eventId : String
  kind : String
  lineageId : Option String
  canonical : Option Json

section

variable (P : Primitives)

def EventRow.entry (row : EventRow) : LogEntry :=
  ⟨row.sequence, row.eventId, row.kind, row.lineageId, P.parse row.canonicalJson⟩

def RemoteEventRow.entry (row : RemoteEventRow) : LogEntry :=
  ⟨row.originSequence, row.eventId, row.kind, row.lineageId, P.parse row.canonicalJson⟩

end

/-- Does the event declare that it can be traced? -/
def LogEntry.isTraceable (entry : LogEntry) : Bool :=
  decide ((entry.canonical.bind fun value => (value.get? "reporting").bind
    fun reporting => reporting.get? "mode") = some (.string "traceable"))

/-- Is the event with the given id in the log, and traceable? -/
def traceableIn (entries : List LogEntry) (eventId : String) : Bool :=
  match entries.find? fun entry => entry.eventId == eventId with
  | some entry => entry.isTraceable
  | none => false

/-- The approving reviews which count for a source. -/
def ContentTables.approvals (content : ContentTables) (entries : List LogEntry)
    (sourceId : String) : List SourceReviewRow :=
  content.reviews.filter fun row => row.sourceId == sourceId &&
    row.recommendation == .approve && traceableIn entries row.eventId

/-! ## Sources -/

/-- What the node and an importer have to agree on for a source. -/
structure SourceGate where
  sourceId : String
  proposerLineageId : String
  proposed : Bool
  deriving DecidableEq

def SourceRow.gate (row : SourceRow) : SourceGate :=
  ⟨row.sourceId, row.proposerLineageId, row.status == .proposed⟩

def FederatedSourceRow.gate (row : FederatedSourceRow) : SourceGate :=
  ⟨row.sourceId, row.proposerLineageId, row.status == .proposed⟩

def admitGate (sourceId : String) : List SourceGate → List SourceGate :=
  updateWhere (fun gate => gate.sourceId == sourceId)
    fun gate => { gate with proposed := false }

theorem gate_admitSource (sourceId : String) (sources : List SourceRow) :
    (admitSource sourceId sources).map SourceRow.gate =
      admitGate sourceId (sources.map SourceRow.gate) := by
  unfold admitSource admitGate updateWhere
  rw [List.map_map, List.map_map]
  refine List.map_congr_left fun row _ => ?_
  simp only [Function.comp_apply]
  by_cases hid : row.sourceId = sourceId
  · by_cases hstatus : row.status = .proposed
    · simp [SourceRow.gate, hid, hstatus]
    · simp [SourceRow.gate, hid, hstatus]
  · simp [SourceRow.gate, hid]

theorem gate_admitFederatedSource (sourceId : String) (sources : List FederatedSourceRow) :
    (admitFederatedSource sourceId sources).map FederatedSourceRow.gate =
      admitGate sourceId (sources.map FederatedSourceRow.gate) := by
  unfold admitFederatedSource admitGate updateWhere
  rw [List.map_map, List.map_map]
  refine List.map_congr_left fun row _ => ?_
  simp only [Function.comp_apply]
  by_cases hid : row.sourceId = sourceId
  · by_cases hstatus : row.status = .proposed
    · simp [FederatedSourceRow.gate, hid, hstatus]
    · simp [FederatedSourceRow.gate, hid, hstatus]
  · simp [FederatedSourceRow.gate, hid]

/-- A fetch moves a source among the later states only. -/
theorem gate_fetched (success : Bool) (row : SourceRow) :
    (row.fetched success).gate = row.gate := by
  unfold SourceRow.fetched SourceRow.gate
  cases success with
  | true =>
      cases hstatus : row.status with
      | probation =>
          by_cases hcount : 9 ≤ row.successfulFetches
          · simp [hcount]
          · simp [hcount]
      | _ => simp
  | false =>
      cases hstatus : row.status with
      | active =>
          by_cases hcount : 2 ≤ row.consecutiveFailures
          · simp [hcount]
          · simp [hcount]
      | _ => simp

theorem gate_markSourceFetch (sourceId : String) (success : Bool) (db : Db) :
    (db.markSourceFetch sourceId success).sources.map SourceRow.gate =
      db.sources.map SourceRow.gate := by
  unfold Db.markSourceFetch
  exact map_updateWhere (fun row _ => gate_fetched success row) db.sources

/-! ## Traceable events -/

section

variable {P : Primitives}

theorem joinsTraceable_eq {text? : String → Option String} {entries : List LogEntry}
    {eventId : String}
    (htext : (text? eventId).map P.parse =
      (entries.find? fun entry => entry.eventId == eventId).map LogEntry.canonical)
    (hparsed : ∀ entry ∈ entries, entry.canonical ≠ none) :
    joinsTraceable P text? eventId = .ok (traceableIn entries eventId) := by
  unfold joinsTraceable traceableIn
  cases hfound : entries.find? fun entry => entry.eventId == eventId with
  | none =>
      rw [hfound, Option.map_none, Option.map_eq_none_iff] at htext
      rw [htext]
      rfl
  | some entry =>
      rw [hfound, Option.map_some, Option.map_eq_some_iff] at htext
      obtain ⟨text, htext, hparse⟩ := htext
      have hsome := hparsed entry (List.mem_of_find?_eq_some hfound)
      obtain ⟨value, hvalue⟩ := Option.ne_none_iff_exists'.mp hsome
      rw [htext]
      simp only [reportingIsTraceable, hparse, hvalue, okOr_some, ok_bind, pure_eq_ok,
        LogEntry.isTraceable, Option.bind_some]

theorem canonicalText?_entry (db : Db) (eventId : String) :
    (db.canonicalText? eventId).map P.parse =
      ((db.events.map (EventRow.entry P)).find? fun entry =>
        entry.eventId == eventId).map LogEntry.canonical := by
  have htest : ((fun entry : LogEntry => entry.eventId == eventId) ∘ EventRow.entry P) =
      fun row => row.eventId == eventId := rfl
  unfold Db.canonicalText? Db.eventById?
  rw [List.find?_map, htest, Option.map_map, Option.map_map]
  rfl

theorem OriginTables.canonicalText?_entry (tables : OriginTables) (eventId : String) :
    (tables.canonicalText? eventId).map P.parse =
      ((tables.remoteEvents.map (RemoteEventRow.entry P)).find? fun entry =>
        entry.eventId == eventId).map LogEntry.canonical := by
  have htest : ((fun entry : LogEntry => entry.eventId == eventId) ∘
      RemoteEventRow.entry P) = fun row => row.eventId == eventId := rfl
  unfold OriginTables.canonicalText? OriginTables.event?
  rw [List.find?_map, htest, Option.map_map, Option.map_map]
  rfl

/-- The event of a contribution is traceable when its declaration is. -/
theorem isTraceable_contribution (contribution : SignedContribution) (entry : LogEntry)
    (h : entry.canonical = some (P.canon (contribution.toJson P))) :
    entry.isTraceable = (contribution.reporting.mode == .traceable) := by
  have hreporting : (P.canon (contribution.toJson P)).get? "reporting" =
      if contribution.reporting.isUnverified then none
      else some contribution.reporting.toJson := by
    unfold Primitives.canon
    rw [Json.get?_mapNumbers]
    cases hunverified : contribution.reporting.isUnverified with
    | true => simp [SignedContribution.toJson, hunverified, Json.get?, List.lookup_cons]
    | false =>
        simp [SignedContribution.toJson, hunverified, Json.get?, List.lookup_cons,
          ReportingDeclaration.toJson]
  unfold LogEntry.isTraceable
  rw [h, Option.bind_some, hreporting]
  cases hmode : contribution.reporting.mode with
  | traceable =>
      have hverified : contribution.reporting.isUnverified = false := by
        simp [ReportingDeclaration.isUnverified, hmode]
      simp [hverified, ReportingDeclaration.toJson, Json.get?, hmode, ReportingMode.asStr]
  | unverified =>
      cases contribution.reporting.isUnverified with
      | true => simp
      | false => simp [ReportingDeclaration.toJson, Json.get?, hmode, ReportingMode.asStr]

theorem isTraceable_of_valid {contribution : SignedContribution}
    (h : validateContributionContent P contribution = .ok ()) :
    contribution.reporting.isTraceable = (contribution.reporting.mode == .traceable) := by
  simp only [validateContributionContent, validateReportingDeclaration, bind_eq_ok] at h
  obtain ⟨⟨⟩, ⟨-, -, -, -, -, -, hmode⟩, -⟩ := h
  unfold ReportingDeclaration.isTraceable
  cases hreporting : contribution.reporting.mode with
  | unverified => rfl
  | traceable =>
      simp only [hreporting, rejectIf_eq_ok] at hmode
      simp [hmode]

/-! ## Counting the approvals -/

/-- A lineage has one current review of a source. -/
def ContentTables.ReviewsUnique (content : ContentTables) : Prop :=
  ∀ sourceId lineageId, content.reviews.countP (fun row =>
    row.sourceId == sourceId && row.reviewerLineageId == lineageId) ≤ 1

theorem ContentTables.ReviewsUnique.putReview {content : ContentTables}
    (h : content.ReviewsUnique) (row : SourceReviewRow) :
    (content.putReview row).ReviewsUnique := by
  intro sourceId lineageId
  unfold ContentTables.putReview
  simp only
  rw [countP_upsert _ _ (h row.sourceId row.reviewerLineageId)]
  have hold := h sourceId lineageId
  by_cases hkey : row.sourceId = sourceId ∧ row.reviewerLineageId = lineageId
  · have hnone : (content.reviews.filter fun stored => !(stored.sourceId == row.sourceId &&
        stored.reviewerLineageId == row.reviewerLineageId)).countP (fun stored =>
          stored.sourceId == sourceId && stored.reviewerLineageId == lineageId) = 0 := by
      rw [List.countP_eq_zero]
      intro stored hstored
      have hother := (List.mem_filter.mp hstored).2
      rw [hkey.1, hkey.2] at hother
      simpa only [Bool.not_eq_true', Bool.not_eq_true] using hother
    rw [hnone]
    split <;> omega
  · have hnot : (row.sourceId == sourceId && row.reviewerLineageId == lineageId) = false := by
      simpa using hkey
    have hfilter := List.Sublist.countP_le
      (p := fun stored : SourceReviewRow =>
        stored.sourceId == sourceId && stored.reviewerLineageId == lineageId)
      (List.filter_sublist (l := content.reviews) (p := fun stored =>
        !(stored.sourceId == row.sourceId &&
          stored.reviewerLineageId == row.reviewerLineageId)))
    rw [hnot]
    simp only [Bool.false_eq_true, if_false]
    omega

theorem traceableIn_append {entries : List LogEntry} {entry : LogEntry}
    (hfresh : ∀ stored ∈ entries, stored.eventId ≠ entry.eventId) (eventId : String) :
    traceableIn (entries ++ [entry]) eventId =
      if eventId = entry.eventId then entry.isTraceable
      else traceableIn entries eventId := by
  unfold traceableIn
  rw [List.find?_append]
  by_cases hid : eventId = entry.eventId
  · have hnone : entries.find? (fun stored => stored.eventId == eventId) = none := by
      rw [List.find?_eq_none]
      intro stored hstored
      simpa [hid] using hfresh stored hstored
    rw [hnone, if_pos hid]
    simp [hid]
  · have hlast : [entry].find? (fun stored => stored.eventId == eventId) = none := by
      simpa using fun hsame => hid (Eq.symm hsame)
    rw [hlast, if_neg hid, Option.or_none]

theorem traceableIn_of_fresh {entries : List LogEntry} {eventId : String}
    (hfresh : ∀ stored ∈ entries, stored.eventId ≠ eventId) :
    traceableIn entries eventId = false := by
  have hnone : entries.find? (fun stored => stored.eventId == eventId) = none := by
    rw [List.find?_eq_none]
    intro stored hstored
    simpa using hfresh stored hstored
  unfold traceableIn
  rw [hnone]

/-- The node counts the review which it has just logged; an importer adds it to
those whose events are stored. -/
theorem ContentTables.length_approvals_putReview {content : ContentTables}
    {entries : List LogEntry} {entry : LogEntry} {row : SourceReviewRow}
    (hunique : content.ReviewsUnique)
    (hfresh : ∀ stored ∈ entries, stored.eventId ≠ entry.eventId)
    (hlogged : ∀ stored ∈ content.reviews,
      ∃ other ∈ entries, other.eventId = stored.eventId)
    (hid : row.eventId = entry.eventId) :
    ((content.putReview row).approvals (entries ++ [entry]) row.sourceId).length =
      ((content.putReview row).approvals entries row.sourceId).length +
        if entry.isTraceable && row.recommendation == .approve then 1 else 0 := by
  have hcount := fun test => countP_upsert row test
    (hunique row.sourceId row.reviewerLineageId)
  have hold : ∀ stored ∈ content.reviews,
      traceableIn (entries ++ [entry]) stored.eventId =
        traceableIn entries stored.eventId := by
    intro stored hstored
    obtain ⟨other, hother, hsame⟩ := hlogged stored hstored
    rw [traceableIn_append hfresh, if_neg]
    rw [← hsame]
    exact hfresh other hother
  have hnew : traceableIn (entries ++ [entry]) row.eventId = entry.isTraceable := by
    rw [traceableIn_append hfresh, if_pos hid]
  have hbefore : traceableIn entries row.eventId = false := by
    rw [hid]
    exact traceableIn_of_fresh hfresh
  unfold ContentTables.approvals ContentTables.putReview
  simp only [← List.countP_eq_length_filter, hcount, hnew, hbefore, beq_self_eq_true,
    Bool.true_and, Bool.and_false, Bool.false_eq_true, if_false, Nat.add_zero]
  congr 1
  · refine List.countP_congr fun stored hstored => ?_
    rw [hold stored (List.mem_filter.mp hstored).1]
  · rw [Bool.and_comm]

/-! ## The two sides -/

/-- The sources of the node after a review. -/
theorem Db.applySourceReview_sources {db next : Db} {lineageId : String}
    {contribution : SignedContribution} {accepted : AcceptedObject}
    {payload : SourceReviewPayload}
    (hparsed : ∀ entry ∈ db.events.map (EventRow.entry P), entry.canonical ≠ none)
    (h : db.applySourceReview P lineageId contribution accepted payload = .ok next) :
    next.sources.map SourceRow.gate =
      if 2 ≤ (next.content.approvals (db.events.map (EventRow.entry P))
        payload.sourceId).length
      then admitGate payload.sourceId (db.sources.map SourceRow.gate)
      else db.sources.map SourceRow.gate := by
  have hfilter : ∀ rows : List SourceReviewRow,
      filterOk (fun row => joinsTraceable P db.canonicalText? row.eventId) rows =
        .ok (rows.filter fun row =>
          traceableIn (db.events.map (EventRow.entry P)) row.eventId) := fun rows =>
    filterOk_of_ok fun row _ => joinsTraceable_eq (canonicalText?_entry db row.eventId)
      hparsed
  unfold Db.applySourceReview at h
  simp only [hfilter, ok_bind, pure_eq_ok, Except.ok.injEq] at h
  subst h
  have hcount : ∀ reviews : List SourceReviewRow,
      ((reviews.filter fun row => row.sourceId == payload.sourceId).filter fun row =>
        traceableIn (db.events.map (EventRow.entry P)) row.eventId).countP
          (fun row => row.recommendation == .approve) =
      (reviews.filter fun row => row.sourceId == payload.sourceId &&
        row.recommendation == .approve &&
        traceableIn (db.events.map (EventRow.entry P)) row.eventId).length := by
    intro reviews
    rw [← List.countP_eq_length_filter, List.countP_filter, List.countP_filter]
    refine List.countP_congr fun row _ => ?_
    simp only [Bool.and_eq_true]
    constructor
    · rintro ⟨⟨happrove, htrace⟩, hsource⟩
      exact ⟨⟨hsource, happrove⟩, htrace⟩
    · rintro ⟨⟨hsource, happrove⟩, htrace⟩
      exact ⟨⟨happrove, htrace⟩, hsource⟩
  simp only [hcount, ContentTables.approvals]
  rw [apply_ite (List.map SourceRow.gate), gate_admitSource]
  exact if_congr Iff.rfl rfl rfl

theorem Db.applyStoryLink_sources {payload : StoryLinkPayload}
    {accepted : AcceptedObject} {db next : Db}
    (h : db.applyStoryLink accepted payload = .ok next) : next.sources = db.sources := by
  have hstep : ∀ (state : Db) (observationId : String) (after : Db),
      state.sources = db.sources →
      state.linkObservation payload.storyId accepted observationId = .ok after →
      after.sources = db.sources := by
    intro state observationId after hstate hafter
    simp only [Db.linkObservation, bind_eq_ok, okOr_eq_ok] at hafter
    obtain ⟨oldStory, -, hafter⟩ := hafter
    split at hafter
    · cases hafter
      exact hstate
    · cases hafter
      exact hstate
  exact foldState_invariant hstep rfl h

/-- The sources of an importer after a review. -/
theorem federateSourceReview_sources {tables next : OriginTables} {lineageId : String}
    {event : OriginEvent} {contribution : SignedContribution}
    {payload : SourceReviewPayload}
    (hparsed : ∀ entry ∈ tables.remoteEvents.map (RemoteEventRow.entry P),
      entry.canonical ≠ none)
    (h : federateSourceReview P lineageId event contribution payload tables = .ok next) :
    next.sources.map FederatedSourceRow.gate =
      if 2 ≤ (next.content.approvals (tables.remoteEvents.map (RemoteEventRow.entry P))
          payload.sourceId).length +
          (if contribution.reporting.isTraceable && payload.recommendation == .approve
            then 1 else 0)
      then admitGate payload.sourceId (tables.sources.map FederatedSourceRow.gate)
      else tables.sources.map FederatedSourceRow.gate := by
  have hfilter : ∀ rows : List SourceReviewRow,
      filterOk (fun row => joinsTraceable P tables.canonicalText? row.eventId) rows =
        .ok (rows.filter fun row =>
          traceableIn (tables.remoteEvents.map (RemoteEventRow.entry P)) row.eventId) :=
    fun rows => filterOk_of_ok fun row _ => joinsTraceable_eq
      (OriginTables.canonicalText?_entry tables row.eventId) hparsed
  unfold federateSourceReview at h
  simp only [hfilter, bind_eq_ok, ok_bind, pure_eq_ok, Except.ok.injEq] at h
  obtain ⟨source, -, _, -, rfl⟩ := h
  simp only [List.filter_filter, ContentTables.approvals]
  simp only [Bool.and_comm (traceableIn _ _)]
  rw [apply_ite (List.map FederatedSourceRow.gate), gate_admitFederatedSource]
  exact if_congr Iff.rfl rfl rfl

/-! ## Any contribution -/

variable (P) in
/-- The effect of a contribution on what the node and an importer agree on for
the sources; the content tables and the log are those after the event. -/
def recordGates (entries : List LogEntry) (content : ContentTables) (lineageId : String)
    (contribution : SignedContribution) (gates : List SourceGate) :
    Result (List SourceGate) :=
  let payload := contribution.payload
  match contribution.kind with
  | .sourceProposal => do
      let proposal ← decodePayload SourceProposalPayload.ofJson payload
      let feedUrl ← normalizeHttpUrl P proposal.feedUrl
      pure (gates ++ [⟨P.prefixedId "cwsrc_" (utf8 feedUrl), lineageId, true⟩])
  | .sourceReview => do
      let review ← decodePayload (SourceReviewPayload.ofJson P) payload
      pure (if 2 ≤ (content.approvals entries review.sourceId).length
        then admitGate review.sourceId gates else gates)
  | _ => pure gates

theorem Db.applyProjection_gates {lineageId : String} {contribution : SignedContribution}
    {accepted : AcceptedObject} {db next : Db}
    (hparsed : ∀ entry ∈ db.events.map (EventRow.entry P), entry.canonical ≠ none)
    (h : db.applyProjection P lineageId contribution accepted = .ok next) :
    recordGates P (db.events.map (EventRow.entry P)) next.content lineageId contribution
      (db.sources.map SourceRow.gate) = .ok (next.sources.map SourceRow.gate) := by
  unfold Db.applyProjection at h
  unfold recordGates
  cases hkind : contribution.kind with
  | sourceProposal =>
      simp only [hkind, Db.applySourceProposal, bind_eq_ok, insertNew_eq_ok, pure_eq_ok,
        Except.ok.injEq] at h ⊢
      obtain ⟨proposal, hproposal, feedUrl, hfeedUrl, _, -, _, ⟨-, rfl⟩, rfl⟩ := h
      refine ⟨proposal, hproposal, feedUrl, hfeedUrl, ?_⟩
      simp [SourceRow.gate]
  | sourceReview =>
      simp only [hkind, bind_eq_ok, pure_eq_ok, Except.ok.injEq] at h ⊢
      obtain ⟨review, hreview, happly⟩ := h
      exact ⟨review, hreview, (Db.applySourceReview_sources hparsed happly).symm⟩
  | observationVerification =>
      simp only [hkind, Db.applyVerification, bind_eq_ok, pure_eq_ok,
        Except.ok.injEq] at h ⊢
      obtain ⟨_, -, _, -, rfl⟩ := h
      rfl
  | storyLink =>
      simp only [hkind, bind_eq_ok, pure_eq_ok, Except.ok.injEq] at h ⊢
      obtain ⟨link, -, happly⟩ := h
      rw [Db.applyStoryLink_sources happly]
  | assessment =>
      simp only [hkind, Db.applyAssessment, bind_eq_ok, pure_eq_ok, Except.ok.injEq] at h ⊢
      obtain ⟨_, -, _, -, rfl⟩ := h
      rfl
  | workClaim =>
      simp only [hkind, Db.applyWorkClaim, bind_eq_ok, pure_eq_ok, Except.ok.injEq] at h ⊢
      obtain ⟨_, -, rfl⟩ := h
      rfl
  | workResult =>
      simp only [hkind, Db.applyWorkResult, bind_eq_ok, pure_eq_ok, Except.ok.injEq] at h ⊢
      obtain ⟨_, -, _, -, _, -, rfl⟩ := h
      rfl
  | topicProposal | topicVote | forumPost | openPgpKey | directMessage =>
      simp only [hkind, Db.applyCommons, bind_eq_ok, pure_eq_ok, Except.ok.injEq] at h ⊢
      obtain ⟨_, -, _, -, rfl⟩ := h
      rfl
  | _ =>
      simp only [hkind, pure_eq_ok, Except.ok.injEq] at h ⊢
      rw [h]

theorem linkFederatedStoryEvent_sources (storyId : String) (sequence : ℤ)
    (tables : OriginTables) :
    (linkFederatedStoryEvent storyId sequence tables).sources = tables.sources := by
  unfold linkFederatedStoryEvent
  split <;> rfl

theorem linkTargets_sources (event : OriginEvent) (targets : List String)
    (tables : OriginTables) :
    (linkTargets event targets tables).sources = tables.sources := by
  unfold linkTargets
  induction targets generalizing tables with
  | nil => rfl
  | cons storyId rest ih =>
      rw [List.foldl_cons, ih, linkFederatedStoryEvent_sources]

/-- The importer counts as if the event of the contribution were stored. -/
theorem federateKind_gates {origin lineageId : String} {event : OriginEvent}
    {contribution : SignedContribution} {state next : ImportState} {entry : LogEntry}
    (hparsed : ∀ stored ∈ state.tables.remoteEvents.map (RemoteEventRow.entry P),
      stored.canonical ≠ none)
    (hunique : state.tables.content.ReviewsUnique)
    (hfresh : ∀ stored ∈ state.tables.remoteEvents.map (RemoteEventRow.entry P),
      stored.eventId ≠ entry.eventId)
    (hlogged : ∀ stored ∈ state.tables.content.reviews,
      ∃ other ∈ state.tables.remoteEvents.map (RemoteEventRow.entry P),
        other.eventId = stored.eventId)
    (hid : event.eventId = entry.eventId)
    (htraceable : entry.isTraceable = contribution.reporting.isTraceable)
    (h : federateKind P origin lineageId event contribution state = .ok next) :
    recordGates P (state.tables.remoteEvents.map (RemoteEventRow.entry P) ++ [entry])
      next.tables.content lineageId contribution
      (state.tables.sources.map FederatedSourceRow.gate) =
        .ok (next.tables.sources.map FederatedSourceRow.gate) := by
  unfold federateKind at h
  unfold recordGates
  cases hkind : contribution.kind with
  | sourceProposal =>
      simp only [hkind, federateSourceProposal, bind_eq_ok, insertNew_eq_ok, pure_eq_ok,
        Except.ok.injEq] at h ⊢
      obtain ⟨proposal, hproposal, _, ⟨_, -, feedUrl, hfeedUrl, _, -, _, ⟨-, rfl⟩, rfl⟩,
        rfl⟩ := h
      refine ⟨proposal, hproposal, feedUrl, hfeedUrl, ?_⟩
      simp [FederatedSourceRow.gate]
  | sourceReview =>
      simp only [hkind, bind_eq_ok, pure_eq_ok, Except.ok.injEq] at h ⊢
      obtain ⟨review, hreview, tables, happly, rfl⟩ := h
      refine ⟨review, hreview, ?_⟩
      have hsources := federateSourceReview_sources hparsed happly
      have hcontent : tables.content = state.tables.content.putReview
          (reviewRow P lineageId event.eventId contribution review) := by
        simp only [federateSourceReview, bind_eq_ok, pure_eq_ok, Except.ok.injEq] at happly
        obtain ⟨_, -, _, -, _, -, rfl⟩ := happly
        rfl
      have hrow : (reviewRow P lineageId event.eventId contribution review).eventId =
          entry.eventId := hid
      have hcount := ContentTables.length_approvals_putReview hunique hfresh hlogged hrow
      have hcount' : ((state.tables.content.putReview
            (reviewRow P lineageId event.eventId contribution review)).approvals
          (state.tables.remoteEvents.map (RemoteEventRow.entry P) ++ [entry])
            review.sourceId).length =
          ((state.tables.content.putReview
            (reviewRow P lineageId event.eventId contribution review)).approvals
          (state.tables.remoteEvents.map (RemoteEventRow.entry P)) review.sourceId).length +
          if contribution.reporting.isTraceable && review.recommendation == .approve
            then 1 else 0 := by
        rw [← htraceable]
        exact hcount
      rw [hsources, hcontent]
      exact if_congr (by rw [hcount']) rfl rfl
  | observationVerification =>
      simp only [hkind, federateVerification, bind_eq_ok, pure_eq_ok,
        Except.ok.injEq] at h ⊢
      obtain ⟨_, -, _, ⟨_, -, _, -, rfl⟩, rfl⟩ := h
      rw [linkFederatedStoryEvent_sources]
  | storyLink =>
      simp only [hkind, federateStoryLink, bind_eq_ok, pure_eq_ok, Except.ok.injEq] at h ⊢
      obtain ⟨_, -, _, ⟨_, -, _, -, _, -, rfl⟩, rfl⟩ := h
      rw [linkFederatedStoryEvent_sources]
  | assessment =>
      simp only [hkind, federateAssessment, bind_eq_ok, pure_eq_ok, Except.ok.injEq] at h ⊢
      obtain ⟨_, -, _, ⟨_, -, _, -, rfl⟩, rfl⟩ := h
      rw [linkFederatedStoryEvent_sources]
  | correction =>
      simp only [hkind, federateCorrection, bind_eq_ok, pure_eq_ok, Except.ok.injEq] at h ⊢
      obtain ⟨_, -, _, ⟨_, -, _, -, _, -, rfl⟩, rfl⟩ := h
      rw [linkTargets_sources]
  | perspectiveGap | translation =>
      simp only [hkind, pure_eq_ok, Except.ok.injEq] at h ⊢
      rw [← h, linkTargets_sources]
  | workClaim | workResult =>
      simp only [hkind, bind_eq_ok, pure_eq_ok, Except.ok.injEq] at h ⊢
      obtain ⟨_, -, _, -, rfl⟩ := h
      rfl
  | topicProposal | topicVote | forumPost | openPgpKey | directMessage =>
      simp only [hkind, bind_eq_ok, pure_eq_ok, Except.ok.injEq] at h ⊢
      obtain ⟨_, -, _, -, _, -, rfl⟩ := h
      rfl
  | repositoryPatch | codeReview | buildAttestation | releaseProposal | releaseReview =>
      simp only [hkind, bind_eq_ok, pure_eq_ok, Except.ok.injEq] at h ⊢
      obtain ⟨_, -, _, -, rfl⟩ := h
      rfl
  | verificationTrace | commitment | position | continuityCheckpoint =>
      simp only [hkind, pure_eq_ok, Except.ok.injEq] at h ⊢
      rw [h]

theorem recordGates_canonical {entries : List LogEntry} {content : ContentTables}
    {lineageId : String} {contribution : SignedContribution} {gates next : List SourceGate}
    (h : recordGates P entries content lineageId contribution gates = .ok next) :
    recordGates P entries content lineageId (contribution.canonical P) gates =
      .ok next := by
  unfold recordGates at h ⊢
  simp only [SignedContribution.canonical] at h ⊢
  cases hkind : contribution.kind with
  | sourceProposal =>
      simp only [hkind, bind_eq_ok, pure_eq_ok, Except.ok.injEq] at h ⊢
      obtain ⟨proposal, hproposal, feedUrl, hfeedUrl, rfl⟩ := h
      exact ⟨proposal, decodePayload_canon (SourceProposalPayload.stable P) hproposal,
        feedUrl, hfeedUrl, rfl⟩
  | sourceReview =>
      simp only [hkind, bind_eq_ok, pure_eq_ok, Except.ok.injEq] at h ⊢
      obtain ⟨review, hreview, rfl⟩ := h
      exact ⟨review, decodePayload_canon (SourceReviewPayload.stable P) hreview, rfl⟩
  | _ =>
      simp only [hkind] at h ⊢
      exact h

/-- An importer knows a source as proposed or on probation, and as nothing
else. -/
theorem federateKind_statuses {origin lineageId : String} {event : OriginEvent}
    {contribution : SignedContribution} {state next : ImportState}
    (hstatuses : ∀ row ∈ state.tables.sources,
      row.status = .proposed ∨ row.status = .probation)
    (h : federateKind P origin lineageId event contribution state = .ok next) :
    ∀ row ∈ next.tables.sources, row.status = .proposed ∨ row.status = .probation := by
  unfold federateKind at h
  cases hkind : contribution.kind with
  | sourceProposal =>
      simp only [hkind, federateSourceProposal, bind_eq_ok, insertNew_eq_ok, pure_eq_ok,
        Except.ok.injEq] at h
      obtain ⟨_, -, _, ⟨_, -, _, -, _, -, _, ⟨-, rfl⟩, rfl⟩, rfl⟩ := h
      intro row hrow
      rcases List.mem_append.mp hrow with hold | hnew
      · exact hstatuses row hold
      · rw [List.mem_singleton.mp hnew]
        exact .inl rfl
  | sourceReview =>
      simp only [hkind, federateSourceReview, bind_eq_ok, pure_eq_ok, Except.ok.injEq] at h
      obtain ⟨review, -, _, ⟨_, -, _, -, approvals, -, rfl⟩, rfl⟩ := h
      have hadmitted : ∀ row ∈ admitFederatedSource review.sourceId state.tables.sources,
          row.status = .proposed ∨ row.status = .probation := by
        intro row hrow
        obtain ⟨old, hold, rfl⟩ := mem_updateWhere.mp hrow
        split
        · exact .inr rfl
        · exact hstatuses old hold
      intro row hrow
      simp only [apply_ite (row ∈ ·)] at hrow
      split_ifs at hrow <;> first | exact hadmitted row hrow | exact hstatuses row hrow
  | observationVerification =>
      simp only [hkind, federateVerification, bind_eq_ok, pure_eq_ok, Except.ok.injEq] at h
      obtain ⟨_, -, _, ⟨_, -, _, -, rfl⟩, rfl⟩ := h
      rw [linkFederatedStoryEvent_sources]
      exact hstatuses
  | storyLink =>
      simp only [hkind, federateStoryLink, bind_eq_ok, pure_eq_ok, Except.ok.injEq] at h
      obtain ⟨_, -, _, ⟨_, -, _, -, _, -, rfl⟩, rfl⟩ := h
      rw [linkFederatedStoryEvent_sources]
      exact hstatuses
  | assessment =>
      simp only [hkind, federateAssessment, bind_eq_ok, pure_eq_ok, Except.ok.injEq] at h
      obtain ⟨_, -, _, ⟨_, -, _, -, rfl⟩, rfl⟩ := h
      rw [linkFederatedStoryEvent_sources]
      exact hstatuses
  | correction =>
      simp only [hkind, federateCorrection, bind_eq_ok, pure_eq_ok, Except.ok.injEq] at h
      obtain ⟨_, -, _, ⟨_, -, _, -, _, -, rfl⟩, rfl⟩ := h
      rw [linkTargets_sources]
      exact hstatuses
  | perspectiveGap | translation =>
      simp only [hkind, pure_eq_ok, Except.ok.injEq] at h
      rw [← h, linkTargets_sources]
      exact hstatuses
  | workClaim | workResult =>
      simp only [hkind, bind_eq_ok, pure_eq_ok, Except.ok.injEq] at h
      obtain ⟨_, -, _, -, rfl⟩ := h
      exact hstatuses
  | topicProposal | topicVote | forumPost | openPgpKey | directMessage =>
      simp only [hkind, bind_eq_ok, pure_eq_ok, Except.ok.injEq] at h
      obtain ⟨_, -, _, -, _, -, rfl⟩ := h
      exact hstatuses
  | repositoryPatch | codeReview | buildAttestation | releaseProposal | releaseReview =>
      simp only [hkind, bind_eq_ok, pure_eq_ok, Except.ok.injEq] at h
      obtain ⟨_, -, _, -, rfl⟩ := h
      exact hstatuses
  | verificationTrace | commitment | position | continuityCheckpoint =>
      simp only [hkind, pure_eq_ok, Except.ok.injEq] at h
      rw [← h]
      exact hstatuses

end

end Commonwake
