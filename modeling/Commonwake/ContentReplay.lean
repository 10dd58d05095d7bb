import Commonwake.SourceAgreement
import Commonwake.LogVerification

/-!
# Replaying the content of a log

An importer starts with empty tables and records the observations of a log
and the reports about them, one after the other.  This module asks when every
such event of a log which a node has written is recorded without an error.
The signatures and the clock of the authors are the subject of
`AuthorityReplay`.
-/

namespace Commonwake

open Outcome Table HashChain

/-- The kinds of contributions which the tables of sources and stories are
made from, and the traces on which they rest. -/
def ContributionKind.isContent : ContributionKind → Bool
  | .sourceProposal | .sourceReview | .verificationTrace | .observationVerification
  | .storyLink | .assessment => true
  | _ => false

section

variable (P : Primitives)

/-- The part of `validateAndProjectRemoteEvent` which records observations and
the reports about sources and stories. -/
def replayContent (origin : String) (event : OriginEvent) (state : ImportState) :
    Result ImportState :=
  match event.kind with
  | "observation" => do
      let observation ← okOr (FederatedObservationEnvelope.ofJson P event.canonical) .json
      let tables ← projectFederatedObservation P event.sequence observation.payload
        state.tables
      pure { state with tables := tables }
  | "source_proposal" | "source_review" | "verification_trace"
  | "observation_verification" | "story_link" | "assessment" => do
      let contribution ← okOr (SignedContribution.ofJson P event.canonical) .json
      let lineageId ← okOr event.lineageId .database
      applyFederatedContribution P origin lineageId event contribution state
  | _ => pure state

/-- The row is stored after its projection.  The nonce of the author plays no
part in the content. -/
def replayContentRow (origin : String) (state : ImportState) (row : EventRow) :
    Result ImportState := do
  let event ← originEvent P row
  let next ← replayContent P origin event state
  pure { next with tables := { next.tables with
    remoteEvents := state.tables.remoteEvents ++ [remoteRow P event none] } }

/-- An importer which has replayed the log. -/
structure ReplaysContent (origin : String) (db : Db) (state : ImportState) : Prop where
  replay : foldState (replayContentRow P origin) ⟨.empty, .empty⟩ db.events = .ok state
  entries : state.tables.remoteEvents.map (RemoteEventRow.entry P) =
    db.events.map (EventRow.entry P)
  mirrors : MirrorsContent state.tables db

/-- What the importer asks of a contribution and the node does not: a story
which is linked to or assessed was not merged, and a trace can be read from
its canonical form. -/
def SignedContribution.IsImportable (contribution : SignedContribution) (db : Db) : Prop :=
  match contribution.kind with
  | .storyLink => ∀ link, decodePayload (StoryLinkPayload.ofJson P) contribution.payload =
      .ok link → db.content.hasUnmergedStory link.storyId = true
  | .assessment => ∀ assessment,
      decodePayload (AssessmentPayload.ofJson P) contribution.payload = .ok assessment →
        db.content.hasUnmergedStory assessment.storyId = true
  | .verificationTrace => isOk (decodePayload (VerificationTracePayload.ofJson P)
      (P.canon contribution.payload))
  | _ => True

def PendingCall.IsImportable (call : PendingCall) (db : Db) : Prop :=
  ∀ lineageId contribution, call.admitted = .appendContribution lineageId contribution →
    contribution.IsImportable P db

instance (contribution : SignedContribution) (db : Db) :
    Decidable (contribution.IsImportable P db) :=
  match hkind : contribution.kind with
  | .storyLink => decidable_of_iff (∀ link,
      decodePayload (StoryLinkPayload.ofJson P) contribution.payload = .ok link →
        db.content.hasUnmergedStory link.storyId = true)
      (by simp only [SignedContribution.IsImportable, hkind])
  | .assessment => decidable_of_iff (∀ assessment,
      decodePayload (AssessmentPayload.ofJson P) contribution.payload = .ok assessment →
        db.content.hasUnmergedStory assessment.storyId = true)
      (by simp only [SignedContribution.IsImportable, hkind])
  | .verificationTrace => decidable_of_iff
      (isOk (decodePayload (VerificationTracePayload.ofJson P) (P.canon contribution.payload)))
      (by simp only [SignedContribution.IsImportable, hkind])
  | .sourceProposal | .sourceReview | .observationVerification | .correction
  | .perspectiveGap | .translation | .workClaim | .workResult | .commitment | .position
  | .continuityCheckpoint | .topicProposal | .topicVote | .forumPost | .openPgpKey
  | .directMessage | .repositoryPatch | .codeReview | .buildAttestation | .releaseProposal
  | .releaseReview => isTrue (by simp only [SignedContribution.IsImportable, hkind])

instance (call : PendingCall) (db : Db) : Decidable (call.IsImportable P db) :=
  match hcall : call.admitted with
  | .appendContribution _ contribution => decidable_of_iff (contribution.IsImportable P db)
      (by simp [PendingCall.IsImportable, hcall])
  | .registerLineage _ _ | .registerDelegation _ _ | .revokeDelegation _
  | .rotateLineageKey _ | .appendAcknowledgement _ _ =>
      isTrue (by simp [PendingCall.IsImportable, hcall])

/-- The texts of the entry are within the limits of the importer. -/
def FeedEntry.WithinLimits (entry : FeedEntry) : Prop :=
  (∀ title, entry.title = some title → charCount title ≤ maxTitleChars) ∧
    ∀ summary, entry.summary = some summary → charCount summary ≤ maxSummaryChars

instance (entry : FeedEntry) : Decidable entry.WithinLimits :=
  inferInstanceAs (Decidable ((∀ title ∈ entry.title, charCount title ≤ maxTitleChars) ∧
    ∀ summary ∈ entry.summary, charCount summary ≤ maxSummaryChars))

end

section

variable {P : Primitives} {origin : String}

/-! ## Traces -/

theorem storedContribution_congr {first second : String}
    (h : P.parse first = P.parse second) :
    storedContribution P first = storedContribution P second := by
  unfold storedContribution
  rw [h]

theorem traceSubject_congr {first second : Option String}
    (h : first.map P.parse = second.map P.parse) :
    traceSubject P first = traceSubject P second := by
  cases first with
  | none =>
      cases second with
      | none => rfl
      | some text => cases h
  | some text =>
      cases second with
      | none => cases h
      | some other =>
          simp only [Option.map_some, Option.some.injEq] at h
          simp only [traceSubject, traceSubjectFromCanonical, storedContribution_congr h]

/-- The importer finds the traces which the node finds. -/
theorem remoteTraceSubject_eq {tables : OriginTables} {db : Db} {sequence : ℤ}
    (hentries : tables.remoteEvents.map (RemoteEventRow.entry P) =
      db.events.map (EventRow.entry P))
    (hbefore : ∀ row ∈ db.events, row.sequence < sequence) (traceEventId : String) :
    remoteTraceSubject P tables sequence traceEventId =
      db.localTraceSubject P traceEventId := by
  have hearlier : ∀ row ∈ tables.remoteEvents, row.originSequence < sequence := by
    intro row hrow
    have hmem : row.entry P ∈ db.events.map (EventRow.entry P) := by
      rw [← hentries]
      exact List.mem_map_of_mem hrow
    obtain ⟨logged, hlogged, hsame⟩ := List.mem_map.mp hmem
    have hsequence : logged.sequence = row.originSequence :=
      congrArg LogEntry.sequence hsame
    rw [← hsequence]
    exact hbefore logged hlogged
  have hremote : tables.remoteEvents.find? (fun row => row.eventId == traceEventId &&
      row.kind == "verification_trace" && decide (row.originSequence < sequence)) =
      tables.remoteEvents.find? fun row => row.eventId == traceEventId &&
        row.kind == "verification_trace" := by
    refine List.find?_congr ?_
    intro row hrow
    rw [decide_eq_true (hearlier row hrow), Bool.and_true]
  have hfind : (tables.remoteEvents.find? fun row => row.eventId == traceEventId &&
        row.kind == "verification_trace").map (RemoteEventRow.entry P) =
      (db.events.find? fun row => row.eventId == traceEventId &&
        row.kind == "verification_trace").map (EventRow.entry P) := by
    have hlist := congrArg (List.find? fun entry : LogEntry =>
      entry.eventId == traceEventId && entry.kind == "verification_trace") hentries
    rw [List.find?_map, List.find?_map] at hlist
    exact hlist
  refine traceSubject_congr ?_
  unfold OriginTables.traceText? Db.canonicalOfKind
  rw [hremote, Option.map_map, Option.map_map]
  have hparsed := congrArg (Option.map LogEntry.canonical) hfind
  rw [Option.map_map, Option.map_map] at hparsed
  exact hparsed

/-! ## The payload -/

theorem validateTraceChecks_same {first second : List VerificationCheck}
    (h : List.Forall₂ VerificationCheck.Same first second) (seen : List String) :
    validateTraceChecks P seen second = validateTraceChecks P seen first := by
  induction h generalizing seen with
  | nil => rfl
  | cons hsame _ ih =>
      simp only [validateTraceChecks, hsame.name, hsame.observed, hsame.evidence, ih]

theorem validateTraceArtifacts_same {first second : List VerificationArtifact}
    (h : List.Forall₂ VerificationArtifact.Same first second) (seen : List String) :
    validateTraceArtifacts seen second = validateTraceArtifacts seen first := by
  induction h generalizing seen with
  | nil => rfl
  | cons hsame _ ih =>
      simp only [validateTraceArtifacts, hsame.name, hsame.sha256, hsame.mediaType, ih]

theorem derivedOutcome_same {first second : List VerificationCheck}
    (h : List.Forall₂ VerificationCheck.Same first second) :
    derivedOutcome second = derivedOutcome first := by
  have hany : ∀ outcome : TraceOutcome, (second.any fun check => check.outcome == outcome) =
      first.any fun check => check.outcome == outcome := by
    intro outcome
    induction h with
    | nil => rfl
    | cons hsame _ ih => rw [List.any_cons, List.any_cons, hsame.outcome, ih]
  unfold derivedOutcome
  rw [hany, hany]

theorem validateVerificationTrace_same {contribution : SignedContribution}
    {first second : VerificationTracePayload} (h : first.Same second)
    (hvalid : validateVerificationTrace P contribution first = .ok ()) :
    validateVerificationTrace P (contribution.canonical P) second = .ok () := by
  obtain ⟨checks, artifacts, rfl, hchecks, hartifacts⟩ := h
  have hnil : checks = [] ↔ first.checks = [] := by
    constructor
    · rintro rfl
      exact List.forall₂_nil_right_iff.mp hchecks
    · intro hempty
      rw [hempty] at hchecks
      exact List.forall₂_nil_left_iff.mp hchecks
  unfold validateVerificationTrace at hvalid ⊢
  simp only [hnil, ← hchecks.length_eq, ← hartifacts.length_eq,
    validateTraceChecks_same hchecks, derivedOutcome_same hchecks,
    validateTraceArtifacts_same hartifacts, SignedContribution.canonical,
    requireNoSupersessions] at hvalid ⊢
  exact hvalid

theorem isObject_canon (payload : Json) : (P.canon payload).isObject = payload.isObject := by
  unfold Primitives.canon
  cases payload <;> simp [Json.isObject]

theorem decodeTrace_same {payload : Json} {trace read : VerificationTracePayload}
    (h : decodePayload (VerificationTracePayload.ofJson P) payload = .ok trace)
    (hread : decodePayload (VerificationTracePayload.ofJson P) (P.canon payload) =
      .ok read) : trace.Same read := by
  unfold decodePayload at h hread
  rw [okOr_eq_ok] at h hread
  exact VerificationTracePayload.agrees P payload trace read h hread

/-- A content report which the node finds valid is valid for the importer. -/
theorem validateContributionContent_canonical {contribution : SignedContribution} {db : Db}
    (hkind : contribution.kind.isContent = true)
    (himportable : contribution.IsImportable P db)
    (h : validateContributionContent P contribution = .ok ()) :
    validateContributionContent P (contribution.canonical P) = .ok () := by
  unfold validateContributionContent at h ⊢
  obtain ⟨⟨⟩, hreporting, h⟩ := bind_eq_ok.mp h
  obtain ⟨⟨⟩, hobject, h⟩ := bind_eq_ok.mp h
  refine bind_eq_ok.mpr ⟨(), hreporting, bind_eq_ok.mpr ⟨(), ?_, ?_⟩⟩
  · rw [rejectIf_eq_ok] at hobject ⊢
    change ¬ (P.canon contribution.payload).isObject = false
    rw [isObject_canon]
    exact hobject
  · unfold validatePayloadContent at h ⊢
    simp only [SignedContribution.canonical] at h ⊢
    cases hcase : contribution.kind with
    | sourceProposal =>
        simp only [hcase, bind_eq_ok] at h ⊢
        obtain ⟨proposal, hproposal, hvalid⟩ := h
        exact ⟨proposal, decodePayload_canon (SourceProposalPayload.stable P) hproposal,
          hvalid⟩
    | sourceReview =>
        simp only [hcase, bind_eq_ok] at h ⊢
        obtain ⟨review, hreview, hvalid⟩ := h
        exact ⟨review, decodePayload_canon (SourceReviewPayload.stable P) hreview, hvalid⟩
    | verificationTrace =>
        simp only [hcase, bind_eq_ok] at h ⊢
        simp only [SignedContribution.IsImportable, hcase] at himportable
        obtain ⟨trace, htrace, hvalid⟩ := h
        obtain ⟨read, hread⟩ := himportable
        exact ⟨read, hread,
          validateVerificationTrace_same (decodeTrace_same htrace hread) hvalid⟩
    | observationVerification =>
        simp only [hcase, bind_eq_ok] at h ⊢
        obtain ⟨verification, hverification, hvalid⟩ := h
        exact ⟨verification, decodePayload_canon (ObservationVerificationPayload.stable P)
          hverification, hvalid⟩
    | storyLink =>
        simp only [hcase, bind_eq_ok] at h ⊢
        obtain ⟨link, hlink, hvalid⟩ := h
        exact ⟨link, decodePayload_canon (StoryLinkPayload.stable P) hlink, hvalid⟩
    | assessment =>
        simp only [hcase, bind_eq_ok] at h ⊢
        obtain ⟨assessment, hassessment, hvalid⟩ := h
        exact ⟨assessment, decodePayload_canon (AssessmentPayload.stable P) hassessment,
          hvalid⟩
    | _ => simp [hcase, ContributionKind.isContent] at hkind

theorem reportSubjectIds_canonical {contribution : SignedContribution}
    {subjects : List String} (hkind : contribution.kind.isContent = true)
    (h : reportSubjectIds P contribution = .ok subjects) :
    reportSubjectIds P (contribution.canonical P) = .ok subjects := by
  unfold reportSubjectIds at h ⊢
  simp only [SignedContribution.canonical] at h ⊢
  cases hcase : contribution.kind with
  | sourceProposal | verificationTrace =>
      simp only [hcase] at h ⊢
      exact h
  | sourceReview =>
      simp only [hcase, bind_eq_ok] at h ⊢
      obtain ⟨review, hreview, hsubjects⟩ := h
      exact ⟨review, decodePayload_canon (SourceReviewPayload.stable P) hreview, hsubjects⟩
  | observationVerification =>
      simp only [hcase, bind_eq_ok] at h ⊢
      obtain ⟨verification, hverification, hsubjects⟩ := h
      exact ⟨verification, decodePayload_canon (ObservationVerificationPayload.stable P)
        hverification, hsubjects⟩
  | storyLink =>
      simp only [hcase, bind_eq_ok] at h ⊢
      obtain ⟨link, hlink, hsubjects⟩ := h
      exact ⟨link, decodePayload_canon (StoryLinkPayload.stable P) hlink, hsubjects⟩
  | assessment =>
      simp only [hcase, bind_eq_ok] at h ⊢
      obtain ⟨assessment, hassessment, hsubjects⟩ := h
      exact ⟨assessment, decodePayload_canon (AssessmentPayload.stable P) hassessment,
        hsubjects⟩
  | _ => simp [hcase, ContributionKind.isContent] at hkind

/-- The importer finds the traces of a report, when it finds the subjects. -/
theorem validateRemoteReporting_of_report {contribution : SignedContribution} {db : Db}
    {tables : OriginTables} {sequence : ℤ} (hkind : contribution.kind ≠ .verificationTrace)
    (hsubjects : ∀ subjects, reportSubjectIds P contribution = .ok subjects →
      reportSubjectIds P (contribution.canonical P) = .ok subjects)
    (hentries : tables.remoteEvents.map (RemoteEventRow.entry P) =
      db.events.map (EventRow.entry P))
    (hbefore : ∀ row ∈ db.events, row.sequence < sequence)
    (h : db.validateLocalReporting P contribution = .ok ()) :
    validateRemoteReporting P tables sequence (contribution.canonical P) = .ok () := by
  unfold Db.validateLocalReporting at h
  unfold validateRemoteReporting
  simp only [remoteTraceSubject_eq hentries hbefore]
  change (if contribution.kind = .verificationTrace then _ else _) = _
  rw [if_neg hkind] at h ⊢
  obtain ⟨⟨⟩, hrequired, h⟩ := bind_eq_ok.mp h
  rw [rejectIf_eq_ok] at hrequired
  change (if contribution.reporting.isTraceable = false then _ else _) = _
  by_cases htraceable : contribution.reporting.isTraceable = false
  · rw [if_pos htraceable, rejectIf_eq_ok]
    rintro ⟨-, hrequires⟩
    exact hrequired ⟨hrequires, htraceable⟩
  · rw [if_neg htraceable] at h ⊢
    simp only [bind_eq_ok, rejectIf_eq_ok, forEach_eq_ok, okOr_eq_ok] at h ⊢
    obtain ⟨subjects, hreport, ⟨⟩, hnonempty, htraces⟩ := h
    exact ⟨subjects, hsubjects subjects hreport, (), hnonempty, htraces⟩

/-- The importer finds the traces of a report. -/
theorem validateRemoteReporting_of_local {contribution : SignedContribution} {db : Db}
    {tables : OriginTables} {sequence : ℤ} (hkind : contribution.kind.isContent = true)
    (himportable : contribution.IsImportable P db)
    (hentries : tables.remoteEvents.map (RemoteEventRow.entry P) =
      db.events.map (EventRow.entry P))
    (hbefore : ∀ row ∈ db.events, row.sequence < sequence)
    (h : db.validateLocalReporting P contribution = .ok ()) :
    validateRemoteReporting P tables sequence (contribution.canonical P) = .ok () := by
  by_cases htrace : contribution.kind = .verificationTrace
  · unfold Db.validateLocalReporting at h
    unfold validateRemoteReporting
    simp only [remoteTraceSubject_eq hentries hbefore]
    change (if contribution.kind = .verificationTrace then _ else _) = _
    rw [if_pos htrace] at h ⊢
    simp only [SignedContribution.IsImportable, htrace] at himportable
    simp only [bind_eq_ok, forEach_eq_ok, rejectIf_eq_ok] at h ⊢
    obtain ⟨trace, hdecode, hparents⟩ := h
    obtain ⟨read, hread⟩ := himportable
    obtain ⟨_, _, rfl, -⟩ := decodeTrace_same hdecode hread
    exact ⟨_, hread, hparents⟩
  · exact validateRemoteReporting_of_report htrace
      (fun _ hsubjects => reportSubjectIds_canonical hkind hsubjects) hentries hbefore h

/-! ## One contribution -/

theorem MirrorsContent.any_source {tables : OriginTables} {db : Db}
    (h : MirrorsContent tables db) (sourceId : String) :
    (tables.sources.any fun row => row.sourceId == sourceId) =
      db.sources.any fun row => row.sourceId == sourceId := by
  have hany := congrArg (List.any · fun gate : SourceGate => gate.sourceId == sourceId)
    h.gates
  simp only [List.any_map] at hany
  exact hany

/-- The importer knows the source of a review, and its proposer. -/
theorem MirrorsContent.find_source {tables : OriginTables} {db : Db} {source : SourceRow}
    {sourceId : String} (h : MirrorsContent tables db)
    (hfound : db.sources.find? (fun row => row.sourceId == sourceId) = some source) :
    ∃ row, tables.sources.find? (fun row => row.sourceId == sourceId) = some row ∧
      row.proposerLineageId = source.proposerLineageId := by
  have hfind := congrArg (List.find? fun gate : SourceGate => gate.sourceId == sourceId)
    h.gates
  rw [List.find?_map, List.find?_map] at hfind
  have hlocal : (db.sources.find? ((fun gate : SourceGate => gate.sourceId == sourceId) ∘
      SourceRow.gate)).map SourceRow.gate = some source.gate := by
    have htest : ((fun gate : SourceGate => gate.sourceId == sourceId) ∘ SourceRow.gate) =
        fun row : SourceRow => row.sourceId == sourceId := rfl
    rw [htest, hfound, Option.map_some]
  rw [hlocal, Option.map_eq_some_iff] at hfind
  obtain ⟨row, hrow, hgate⟩ := hfind
  exact ⟨row, hrow, congrArg SourceGate.proposerLineageId hgate⟩

/-- Every observation of a node belongs to a story. -/
theorem ContentSound.storyOf {db : Db} (h : ContentSound db) {observationId : String}
    (hexists : db.content.hasObservation observationId = true) :
    ∃ storyId, db.content.storyOf? observationId = some storyId := by
  unfold ContentTables.hasObservation at hexists
  simp only [List.any_eq_true, beq_iff_eq] at hexists
  obtain ⟨observation, hobservation, rfl⟩ := hexists
  obtain ⟨link, hlink, hsame⟩ := List.mem_map.mp (h.linked observation hobservation)
  unfold ContentTables.storyOf?
  cases hfind : db.content.storyObservations.find? fun row =>
      row.observationId == observation.observationId with
  | some row => exact ⟨row.storyId, rfl⟩
  | none =>
      rw [List.find?_eq_none] at hfind
      exact absurd (by simpa using hsame) (hfind link hlink)

section

variable {lineageId : String} {contribution : SignedContribution} {event : OriginEvent}
  {accepted : AcceptedObject} {now : ℤ} {db next : Db} {state : ImportState}

theorem isOk_federateSourceReview {review : SourceReviewPayload}
    (h : MirrorsContent state.tables db)
    (hparsed : ∀ entry ∈ state.tables.remoteEvents.map (RemoteEventRow.entry P),
      entry.canonical ≠ none)
    (hvalid : db.validateSourceReview lineageId review = .ok ()) :
    isOk (federateSourceReview P lineageId event contribution review state.tables) := by
  unfold Db.validateSourceReview at hvalid
  simp only [bind_eq_ok, okOr_eq_ok, rejectIf_eq_ok] at hvalid
  obtain ⟨source, hsource, ⟨⟩, hindependent, hevidence⟩ := hvalid
  obtain ⟨row, hrow, hproposer⟩ := h.find_source hsource
  unfold federateSourceReview
  simp only [isOk_bind, okOr_eq_ok, rejectIf_eq_ok]
  refine ⟨row, hrow, (), ?_, ?_⟩
  · rw [hproposer]
    rintro (hsame | hempty)
    · exact hindependent hsame
    · exact hevidence hempty
  · obtain ⟨stored, hstored⟩ : isOk (filterOk
        (fun row => joinsTraceable P state.tables.canonicalText? row.eventId)
        ((state.tables.content.putReview (reviewRow P lineageId event.eventId contribution
          review)).reviews.filter fun row => row.sourceId == review.sourceId &&
            row.recommendation == .approve)) := by
      refine isOk_filterOk fun row _ => ?_
      exact ⟨_, joinsTraceable_eq (state.tables.canonicalText?_entry row.eventId) hparsed⟩
    exact ⟨stored, hstored, isOk_ok _⟩

theorem isOk_federateSourceProposal {proposal : SourceProposalPayload} {logged : Db}
    (h : MirrorsContent state.tables db) (hsources : logged.sources = db.sources)
    (hvalid : validateSourceProposal P proposal = .ok ())
    (happly : logged.applySourceProposal P lineageId accepted proposal = .ok next) :
    isOk (federateSourceProposal P lineageId event proposal state.tables) := by
  unfold Db.applySourceProposal at happly
  simp only [bind_eq_ok, insertNew_eq_ok] at happly
  obtain ⟨feedUrl, hfeedUrl, homepageUrl, hhomepageUrl, _, ⟨hclash, -⟩, -⟩ := happly
  have hnew : (state.tables.sources.any fun row =>
      row.sourceId == P.prefixedId "cwsrc_" (TextBytes.utf8 feedUrl)) = false := by
    rw [h.any_source, ← hsources]
    rw [List.any_eq_false] at hclash ⊢
    intro row hrow hsame
    apply hclash row hrow
    rw [hsame, Bool.true_or]
  unfold federateSourceProposal
  simp only [isOk_bind]
  exact ⟨(), hvalid, feedUrl, hfeedUrl, homepageUrl, hhomepageUrl, _,
    insertNew_of_fresh hnew, isOk_ok _⟩

theorem isOk_federateVerification {verification : ObservationVerificationPayload}
    (h : MirrorsContent state.tables db) (hsound : ContentSound db)
    (hexists : db.content.hasObservation verification.observationId = true) :
    isOk (federateVerification P lineageId event contribution verification
      state.tables) := by
  obtain ⟨storyId, hstory⟩ := hsound.storyOf hexists
  unfold federateVerification
  simp only [isOk_bind, rejectIf_eq_ok, okOr_eq_ok, h.content, Bool.not_eq_false]
  exact ⟨(), hexists, storyId, hstory, isOk_ok _⟩

theorem isOk_federateStoryLink {link : StoryLinkPayload} {content : ContentTables}
    (h : MirrorsContent state.tables db) (hnonempty : link.observationIds ≠ [])
    (hunmerged : db.content.hasUnmergedStory link.storyId = true)
    (hfold : foldState (federateLink link.storyId event.eventId) db.content
      link.observationIds = .ok content) :
    isOk (federateStoryLink event link state.tables) := by
  unfold federateStoryLink
  simp only [isOk_bind, rejectIf_eq_ok, h.content, Bool.not_eq_false]
  exact ⟨(), hnonempty, (), hunmerged, content, hfold, isOk_ok _⟩

theorem isOk_federateAssessment {assessment : AssessmentPayload}
    (h : MirrorsContent state.tables db) (hevidence : assessment.evidence ≠ [])
    (hunmerged : db.content.hasUnmergedStory assessment.storyId = true) :
    isOk (federateAssessment P lineageId event contribution assessment state.tables) := by
  unfold federateAssessment
  simp only [isOk_bind, rejectIf_eq_ok, h.content, Bool.not_eq_false]
  exact ⟨(), hevidence, (), hunmerged, isOk_ok _⟩

/-- The importer records an importable report which the node has recorded. -/
theorem isOk_federateKind {logged : Db} (hkind : contribution.kind.isContent = true)
    (h : MirrorsContent state.tables db) (hsound : ContentSound db)
    (hparsed : ∀ entry ∈ state.tables.remoteEvents.map (RemoteEventRow.entry P),
      entry.canonical ≠ none)
    (himportable : contribution.IsImportable P db) (hid : event.eventId = accepted.id)
    (hbase : logged.content = db.content ∧ logged.sources = db.sources)
    (hvalid : db.validateKind P lineageId contribution now = .ok ())
    (happly : logged.applyProjection P lineageId contribution accepted = .ok next) :
    isOk (federateKind P origin lineageId event (contribution.canonical P) state) := by
  have hrecord := Db.applyProjection_record happly
  unfold Db.validateKind at hvalid
  unfold Db.applyProjection at happly
  unfold ContentTables.record at hrecord
  unfold SignedContribution.IsImportable at himportable
  unfold federateKind
  simp only [SignedContribution.canonical]
  cases hcase : contribution.kind with
  | sourceProposal =>
      simp only [hcase, bind_eq_ok] at hvalid happly
      obtain ⟨proposal, hproposal, hvalid⟩ := hvalid
      obtain ⟨_, hsame, happly⟩ := happly
      rw [hproposal] at hsame
      cases hsame
      obtain ⟨tables, htables⟩ : isOk (federateSourceProposal P lineageId event proposal
          state.tables) := isOk_federateSourceProposal h hbase.2 hvalid happly
      simp only [isOk_bind]
      exact ⟨proposal, decodePayload_canon (SourceProposalPayload.stable P) hproposal,
        tables, htables, isOk_ok _⟩
  | sourceReview =>
      simp only [hcase, bind_eq_ok] at hvalid
      obtain ⟨review, hreview, hvalid⟩ := hvalid
      simp only [isOk_bind]
      obtain ⟨tables, htables⟩ := isOk_federateSourceReview h hparsed hvalid
      exact ⟨review, decodePayload_canon (SourceReviewPayload.stable P) hreview, tables,
        htables, isOk_ok _⟩
  | verificationTrace => exact isOk_ok _
  | observationVerification =>
      simp only [hcase, bind_eq_ok, ensureExists, rejectIf_eq_ok, Bool.not_eq_false] at hvalid
      obtain ⟨verification, hverification, hexists⟩ := hvalid
      simp only [isOk_bind]
      obtain ⟨tables, htables⟩ := isOk_federateVerification h hsound hexists
      exact ⟨verification, decodePayload_canon (ObservationVerificationPayload.stable P)
        hverification, tables, htables, isOk_ok _⟩
  | storyLink =>
      simp only [hcase, bind_eq_ok] at hvalid hrecord himportable
      obtain ⟨link, hlink, hvalid⟩ := hvalid
      obtain ⟨_, hsame, hfold⟩ := hrecord
      rw [hlink] at hsame
      cases hsame
      simp only [Db.validateStoryLink, bind_eq_ok, rejectIf_eq_ok] at hvalid
      obtain ⟨⟨⟩, -, ⟨⟩, hnonempty, -⟩ := hvalid
      rw [hbase.1, ← hid] at hfold
      obtain ⟨tables, htables⟩ := isOk_federateStoryLink h hnonempty
        (himportable link hlink) hfold
      simp only [isOk_bind]
      exact ⟨link, decodePayload_canon (StoryLinkPayload.stable P) hlink, tables, htables,
        isOk_ok _⟩
  | assessment =>
      simp only [hcase, bind_eq_ok] at hvalid himportable
      obtain ⟨assessment, hassessment, hvalid⟩ := hvalid
      simp only [Db.validateAssessment, bind_eq_ok, rejectIf_eq_ok] at hvalid
      obtain ⟨⟨⟩, -, hevidence⟩ := hvalid
      simp only [isOk_bind]
      obtain ⟨tables, htables⟩ := isOk_federateAssessment h hevidence
        (himportable assessment hassessment)
      exact ⟨assessment, decodePayload_canon (AssessmentPayload.stable P) hassessment, tables,
        htables, isOk_ok _⟩
  | _ => simp [hcase, ContributionKind.isContent] at hkind

end

/-! ## One observation -/

/-- A text which is cut has one character more than the limit. -/
theorem charCount_truncate_le_iff (value : String) (maximum : ℕ) :
    charCount (truncate value maximum) ≤ maximum ↔ charCount value ≤ maximum := by
  unfold truncate charCount
  by_cases hlong : (TextBytes.chars value).length > maximum
  · rw [if_pos hlong]
    simp only [TextBytes.chars_eq, String.toList_ofList, List.length_append,
      List.length_take, List.length_singleton] at hlong ⊢
    omega
  · rw [if_neg hlong]
    simp only [TextBytes.chars_eq, String.toList_ofList, List.length_take] at hlong ⊢
    omega

theorem charCount_entryTitle_le_iff (entry : FeedEntry) :
    charCount (entryTitle entry) ≤ maxTitleChars ↔
      ∀ title, entry.title = some title → charCount title ≤ maxTitleChars := by
  unfold entryTitle
  cases entry.title with
  | none =>
      have hdefault : charCount "Untitled observation" ≤ maxTitleChars := by decide
      simp [hdefault]
  | some title => simp [charCount_truncate_le_iff]

theorem charCount_entrySummary_le_iff (entry : FeedEntry) :
    charCount (entrySummary entry) ≤ maxSummaryChars ↔
      ∀ summary, entry.summary = some summary → charCount summary ≤ maxSummaryChars := by
  unfold entrySummary
  cases entry.summary with
  | none =>
      have hdefault : charCount "" ≤ maxSummaryChars := by decide
      simp [hdefault]
  | some summary => simp [charCount_truncate_le_iff]

section

variable {identity : NodeIdentity P} {sourceId canonicalUrl : String}
  {languages : List String} {feed : Feed} {retrievedAt appendedAt : ℤ} {entry : FeedEntry}
  {db next : Db} {row : EventRow} {accepted : AcceptedObject} {tables : OriginTables}

theorem observationPayload_canonical (db : Db) :
    (db.observationPayload P (entryObservation P sourceId languages feed retrievedAt entry
      canonicalUrl)).canonical P =
      db.observationPayload P (entryObservation P sourceId languages feed retrievedAt entry
        canonicalUrl) := by
  unfold FederatedObservationPayload.canonical
  simp only [Db.observationPayload, entryObservation, canon_entryMetadata]

/-- Of the checks which an importer makes of an observation, only that of its
texts can fail. -/
theorem isOk_projectFederatedObservation_iff (h : MirrorsContent tables db)
    (hobserved : Observed P identity (entryObservation P sourceId languages feed retrievedAt
      entry canonicalUrl) appendedAt db row accepted next) :
    isOk (projectFederatedObservation P accepted.sequence (db.observationPayload P
      (entryObservation P sourceId languages feed retrievedAt entry canonicalUrl)) tables) ↔
      entry.WithinLimits := by
  obtain ⟨hcollects, hnew, hunlinked, -⟩ := Db.appendObservation_eq_ok hobserved
  have hgate := h.passesSourceGate hcollects
  unfold OriginTables.passesSourceGate at hgate
  unfold FeedEntry.WithinLimits
  rw [← charCount_entryTitle_le_iff, ← charCount_entrySummary_le_iff]
  unfold projectFederatedObservation
  simp only [isOk_bind, rejectIf_eq_ok, Bool.not_eq_false, h.content, not_or, not_lt]
  constructor
  · rintro ⟨-, -, ⟨⟩, hlimits, -⟩
    exact hlimits
  · intro hlimits
    refine ⟨(), hgate, (), hlimits, (), not_not.mpr rfl, (), not_not.mpr rfl, (),
      not_not.mpr rfl, ?_⟩
    exact ⟨_, ContentTables.addObservation_eq_ok.mpr ⟨hnew, hunlinked, rfl⟩, isOk_ok _⟩

end

/-! ## One event -/

/-- The kinds of events which are replayed. -/
theorem replayContent_administrative {event : OriginEvent} {state : ImportState}
    (h : isAdministrative event.kind = true) :
    replayContent P origin event state = .ok state := by
  simp only [isAdministrative, Bool.or_eq_true, beq_iff_eq] at h
  unfold replayContent
  rcases h with ((((hkind | hkind) | hkind) | hkind) | hkind) | hkind
  all_goals
    rw [hkind]
    rfl

theorem replayContent_contribution {lineageId : String} {contribution : SignedContribution}
    {appendedAt sequence : ℤ} {event : OriginEvent} {state : ImportState}
    (henvelope : Envelope P (contributionInput P lineageId contribution) appendedAt
      sequence (contribution.toJson P) event) :
    replayContent P origin event state =
      if contribution.kind.isContent then
        applyFederatedContribution P origin lineageId event (contribution.canonical P) state
      else .ok state := by
  have hkind : event.kind = contribution.kind.asStr := henvelope.kind
  have hlineage : event.lineageId = some lineageId := henvelope.lineage
  unfold replayContent
  rw [hkind, henvelope.canonical, SignedContribution.ofJson_canon, hlineage]
  cases contribution.kind <;> rfl

theorem replayContent_observation {payload : FederatedObservationPayload}
    {appendedAt sequence : ℤ} {event : OriginEvent} {state : ImportState}
    (henvelope : Envelope P (observationInput P payload) appendedAt sequence
      ((observationEnvelope payload).toJson P) event) :
    replayContent P origin event state = (do
      let tables ← projectFederatedObservation P sequence (payload.canonical P) state.tables
      pure { state with tables := tables }) := by
  have hkind : event.kind = "observation" := henvelope.kind
  unfold replayContent
  rw [hkind, henvelope.canonical, FederatedObservationEnvelope.ofJson_canon,
    henvelope.sequence]
  rfl

/-- The other kinds of contributions leave sources and stories alone. -/
theorem Db.applyProjection_other {lineageId : String} {contribution : SignedContribution}
    {accepted : AcceptedObject} {db next : Db}
    (hkind : contribution.kind.isContent = false) (hlog : LogSound P db.events)
    (h : db.applyProjection P lineageId contribution accepted = .ok next) :
    next.content = db.content ∧
      next.sources.map SourceRow.gate = db.sources.map SourceRow.gate := by
  have hrecord := Db.applyProjection_record h
  have hgates := Db.applyProjection_gates (EventRow.entry_canonical_ne_none hlog) h
  unfold ContentTables.record at hrecord
  unfold recordGates at hgates
  cases hcase : contribution.kind with
  | sourceProposal | sourceReview | verificationTrace | observationVerification | storyLink
  | assessment => simp [hcase, ContributionKind.isContent] at hkind
  | _ =>
      simp only [hcase, pure_eq_ok, Except.ok.injEq] at hrecord hgates
      exact ⟨hrecord.symm, hgates.symm⟩

section

variable {db next : Db} {row : EventRow} {event : OriginEvent} {state : ImportState}

/-- One more row of the log. -/
theorem ReplaysContent.append {after : ImportState} (h : ReplaysContent P origin db state)
    (hrow : next.events = db.events ++ [row]) (hevent : originEvent P row = .ok event)
    (hreplay : replayContent P origin event state = .ok after)
    (hmirrors : MirrorsContent after.tables next) :
    ∃ final, ReplaysContent P origin next final := by
  refine ⟨{ after with tables := { after.tables with
    remoteEvents := state.tables.remoteEvents ++ [remoteRow P event none] } }, ?_, ?_, ?_⟩
  · rw [hrow, foldState_append, h.replay]
    simp [foldState, replayContentRow, hevent, hreplay]
  · rw [hrow, List.map_append, List.map_append, h.entries, List.map_singleton,
      List.map_singleton, entry_remoteRow hevent]
  · exact ⟨hmirrors.content, hmirrors.gates, hmirrors.statuses⟩

/-- A row which says nothing about sources and stories. -/
theorem ReplaysContent.append_administrative (h : ReplaysContent P origin db state)
    (hrow : next.events = db.events ++ [row]) (hevent : originEvent P row = .ok event)
    (hkind : isAdministrative event.kind = true) (hcontent : next.content = db.content)
    (hsources : next.sources = db.sources) : ∃ final, ReplaysContent P origin next final := by
  refine h.append hrow hevent (replayContent_administrative hkind) ?_
  refine h.mirrors.congr (.refl _) hcontent ?_
  rw [hsources]

theorem ReplaysContent.contribution {identity : NodeIdentity P} {lineageId : String}
    {contribution : SignedContribution} {appendedAt : ℤ} {accepted : AcceptedObject}
    (h : ReplaysContent P origin db state) (hsound : ContentSound db)
    (hlog : LogSound P db.events) (himportable : contribution.IsImportable P db)
    (hcommit : db.appendContribution P identity lineageId contribution appendedAt =
      .ok (accepted, next)) (hrow : next.events = db.events ++ [row])
    (hevent : originEvent P row = .ok event) :
    ∃ final, ReplaysContent P origin next final := by
  obtain ⟨henvelope, hid⟩ := Db.appendContribution_envelope hcommit hrow hevent
  have hreplay : replayContent P origin event state = _ := replayContent_contribution henvelope
  obtain ⟨hvalid, logged, happended, happly⟩ := Db.appendContribution_row hcommit hrow
  have hbase : logged.content = db.content ∧ logged.sources = db.sources := by
    rw [happended.next_eq]
    exact ⟨rfl, rfl⟩
  cases hkind : contribution.kind.isContent with
  | false =>
      rw [hkind] at hreplay
      have hlogged : LogSound P logged.events := by
        rw [happended.events]
        exact hlog.append rfl happended
      obtain ⟨hcontent, hgates⟩ := Db.applyProjection_other hkind hlogged happly
      rw [hbase.1] at hcontent
      rw [hbase.2] at hgates
      exact h.append hrow hevent hreplay (h.mirrors.congr (.refl _) hcontent hgates)
  | true =>
      rw [hkind, if_pos rfl] at hreplay
      obtain ⟨⟨⟩, hcontent, hvalid⟩ := bind_eq_ok.mp hvalid
      obtain ⟨⟨⟩, hreporting, hvalid⟩ := bind_eq_ok.mp hvalid
      have hbefore : ∀ stored ∈ db.events, stored.sequence < event.sequence := by
        intro stored hstored
        have hbounds := hlog.numbered.mem_bounds hstored
        have hsequence : accepted.sequence = db.events.length + 1 := by
          rw [happended.accepted_eq, ← hlog.head_eq]
          exact happended.columns.1
        rw [henvelope.sequence, hsequence]
        omega
      obtain ⟨after, hafter⟩ : isOk (applyFederatedContribution P origin lineageId event
          (contribution.canonical P) state) := by
        unfold applyFederatedContribution
        simp only [isOk_bind]
        refine ⟨(), validateContributionContent_canonical hkind himportable hcontent, (),
          validateRemoteReporting_of_local hkind himportable h.entries hbefore hreporting, ?_⟩
        refine isOk_federateKind hkind h.mirrors hsound ?_ himportable hid hbase hvalid happly
        rw [h.entries]
        exact EventRow.entry_canonical_ne_none hlog
      rw [hafter] at hreplay
      exact h.append hrow hevent hreplay
        (h.mirrors.applied hsound hlog h.entries hcommit hrow hevent hafter)

theorem ReplaysContent.observation {identity : NodeIdentity P} {sourceId canonicalUrl : String}
    {languages : List String} {feed : Feed} {retrievedAt appendedAt : ℤ}
    {entry : FeedEntry} {accepted : AcceptedObject}
    (h : ReplaysContent P origin db state) (hlimits : entry.WithinLimits)
    (hobserved : Observed P identity (entryObservation P sourceId languages feed retrievedAt
      entry canonicalUrl) appendedAt db row accepted next)
    (hevent : originEvent P row = .ok event) :
    ∃ final, ReplaysContent P origin next final := by
  obtain ⟨tables, htables⟩ :=
    (isOk_projectFederatedObservation_iff h.mirrors hobserved).mpr hlimits
  have hmirrors : MirrorsContent tables next := by
    refine h.mirrors.added hobserved ?_
    rw [observationPayload_canonical]
    exact htables
  have hreplay : replayContent P origin event state =
      .ok { state with tables := tables } := by
    rw [replayContent_observation (hobserved.envelope hevent), observationPayload_canonical,
      htables]
    rfl
  exact h.append hobserved.events hevent hreplay hmirrors

end

/-! ## Every run -/

theorem History.replaysContent {identity : NodeIdentity P} {db : Db}
    (h : History P identity (fun call db _ => call.IsImportable P db)
      FeedEntry.WithinLimits db) : ∃ state, ReplaysContent P origin db state := by
  induction h with
  | init =>
      refine ⟨⟨.empty, .empty⟩, rfl, rfl, rfl, rfl, ?_⟩
      intro row hrow
      cases hrow
  | quiet db next _ hquiet ih =>
      obtain ⟨state, hstate⟩ := ih
      refine ⟨state, ?_, ?_, ?_⟩
      · rw [hquiet.events]
        exact hstate.replay
      · rw [hquiet.events]
        exact hstate.entries
      · refine hstate.mirrors.congr (.refl _) hquiet.content ?_
        rcases hquiet.sources with hsame | ⟨sourceId, success, hfetched⟩
        · rw [hsame]
        · rw [hfetched, gate_markSourceFetch]
  | commit db next call appendedAt row accepted hbefore hsound hmeets hcommit hcommitted ih =>
      obtain ⟨state, hstate⟩ := ih
      have hafter := History.commit db next call appendedAt row accepted hbefore hsound hmeets
        hcommit hcommitted
      have hmem : row ∈ next.events := by
        rw [hcommitted.events]
        exact List.mem_append_right _ List.mem_cons_self
      obtain ⟨event, hevent⟩ := hafter.logSound.event hmem
      rcases Admitted.commit_content hcommit with ⟨lineageId, contribution, hadmitted⟩ |
        ⟨hkind, hcontent, hsources⟩
      · rw [hadmitted] at hcommit
        exact hstate.contribution hbefore.contentSound hbefore.logSound
          (hmeets lineageId contribution hadmitted) hcommit hcommitted.events hevent
      · obtain ⟨logged, happended, -⟩ := hcommitted.appended
        refine hstate.append_administrative hcommitted.events hevent ?_ hcontent hsources
        rw [happended.event_kind hevent, hkind]
  | observe db next sourceId languages feed retrievedAt entry canonicalUrl appendedAt row
      accepted hbefore hmeets hobserved ih =>
      obtain ⟨state, hstate⟩ := ih
      obtain ⟨logged, happended, -⟩ := hobserved.appended
      obtain ⟨event, hevent, -⟩ := happended.envelope _ rfl
      exact hstate.observation hmeets hobserved hevent
  | witness db next bundle observedAt appendedAt row hbefore hwitnessed ih =>
      obtain ⟨state, hstate⟩ := ih
      obtain ⟨base, accepted, logged, -, happended⟩ := hwitnessed.appended
      obtain ⟨event, hevent, -⟩ := happended.envelope _ rfl
      refine hstate.append_administrative hwitnessed.events hevent ?_
        hwitnessed.same.content hwitnessed.same.sources
      rw [happended.event_kind hevent]
      rfl

/-- In every run whose reports are importable and whose entries are within the
limits, the log replays without an error, and the importer then has the
observations, stories and assessments of the node. -/
theorem run_replaysContent (P : Primitives) (identity : NodeIdentity P)
    (actions : List Action)
    (hcommits : CommitsMeet P identity (fun call db _ => call.IsImportable P db) actions)
    (hentries : EntriesMeet FeedEntry.WithinLimits actions) :
    ∀ before after, actions = before ++ after →
      ∃ state, foldState (replayContentRow P identity.nodeId) ⟨.empty, .empty⟩
          (NodeState.run P identity before).db.events = .ok state ∧
        state.tables.content = (NodeState.run P identity before).db.content := by
  rintro before after rfl
  obtain ⟨state, hstate⟩ :=
    (run_history before hcommits.of_append hentries.of_append).replaysContent
  exact ⟨state, hstate.replay, hstate.mirrors.content⟩

/-- An importer which mirrors the node accepts its next observation exactly when
the texts of the entry are within the limits. -/
theorem NodeState.observation_importable_iff {identity : NodeIdentity P} {node : NodeState}
    {tables : OriginTables} {sourceId : String} {languages : List String} {feed : Feed}
    {retrievedAt : ℤ} {entry : FeedEntry} {appendedAt : ℤ} {row : EventRow}
    (hmirrors : MirrorsContent tables node.db)
    (hlogged : (node.step P identity
      (.observe sourceId languages feed retrievedAt entry appendedAt)).db.events =
        node.db.events ++ [row]) :
    ∃ event envelope, originEvent P row = .ok event ∧
      FederatedObservationEnvelope.ofJson P event.canonical = some envelope ∧
      (isOk (projectFederatedObservation P event.sequence envelope.payload tables) ↔
        entry.WithinLimits) := by
  have hsteps := node.step_steps identity
    (.observe sourceId languages feed retrievedAt entry appendedAt)
  generalize node.step P identity (.observe sourceId languages feed retrievedAt entry
    appendedAt) = next at hlogged hsteps
  cases hsteps with
  | idle => simp at hlogged
  | observe _ _ _ _ _ _ canonicalUrl observation accepted next hurl hobservation hnew
      happend =>
      subst hobservation
      obtain ⟨stored, logged, happended, hsame⟩ :=
        (Db.appendObservation_logs identity _ appendedAt hnew _ happend).appended
      have hobserved : Observed P identity _ appendedAt node.db stored accepted next :=
        ⟨hnew, happend, logged, happended, hsame⟩
      have hrow : stored = row := by
        rw [hobserved.events] at hlogged
        exact (List.cons.inj (List.append_cancel_left hlogged)).1
      subst hrow
      obtain ⟨event, hevent, henvelope⟩ := happended.envelope _ rfl
      have hread := FederatedObservationEnvelope.ofJson_canon P (observationEnvelope
        (node.db.observationPayload P (entryObservation P sourceId languages feed retrievedAt
          entry canonicalUrl)))
      rw [← henvelope.canonical] at hread
      refine ⟨event, _, hevent, hread, ?_⟩
      rw [henvelope.sequence]
      simp only [observationEnvelope, observationPayload_canonical]
      exact isOk_projectFederatedObservation_iff hmirrors hobserved

/-- An importer which holds the log accepts the next observation of the node
exactly when the texts of its entry were not cut. -/
theorem run_observation_importable_iff (P : Primitives) (identity importer : NodeIdentity P)
    (actions imports : List Action) (sourceId : String) (languages : List String)
    (feed : Feed) (retrievedAt : ℤ) (entry : FeedEntry) (appendedAt : ℤ) (row : EventRow)
    (hholds : (NodeState.run P importer imports).db.Holds P identity.nodeId
      (NodeState.run P identity actions).db.events)
    (hlogged : (NodeState.run P identity (actions ++
        [.observe sourceId languages feed retrievedAt entry appendedAt])).db.events =
      (NodeState.run P identity actions).db.events ++ [row]) :
    ∃ event envelope, originEvent P row = .ok event ∧
      FederatedObservationEnvelope.ofJson P event.canonical = some envelope ∧
      (isOk (projectFederatedObservation P event.sequence envelope.payload
          ((NodeState.run P importer imports).db.origins identity.nodeId)) ↔
        entry.WithinLimits) := by
  rw [NodeState.run_append_singleton] at hlogged
  exact NodeState.observation_importable_iff hholds.mirrorsContent hlogged

end

namespace Sample

instance mergedRun_importable : Fact (CommitsMeetFrom library origin
    (fun call db _ => call.IsImportable library db) (.init library origin) mergedRun ∧
    (NodeState.run library origin mergedRun).db.events.length = 14 ∧
    ((NodeState.run library origin mergedRun).db.content.observations.map
      fun observation => library.sha256 (utf8 observation.observationId)).Nodup) :=
  ⟨by decide +kernel⟩

/-- The log of the run in which two stories are merged is replayed. -/
theorem run_replaysContent_mergedRun :
    (NodeState.run library origin mergedRun).db.events.length = 14 ∧
    ∃ state, foldState (replayContentRow library origin.nodeId) ⟨.empty, .empty⟩
        (NodeState.run library origin mergedRun).db.events = .ok state ∧
      state.tables.content = (NodeState.run library origin mergedRun).db.content := by
  refine ⟨mergedRun_importable.out.2.1, ?_⟩
  refine run_replaysContent library origin mergedRun
    (commitsMeet_of_from mergedRun_importable.out.1) ?_ mergedRun [] (List.append_nil _).symm
  intro source languages feed retrievedAt entry appendedAt hmem
  simp only [mergedRun, openRun, reviewedRun, linkTo, accept, atOnce, observe,
    List.cons_append, List.nil_append, List.mem_cons, List.not_mem_nil, reduceCtorEq,
    false_or, or_false, Action.observe.injEq] at hmem
  rcases hmem with ⟨-, -, -, -, rfl, -⟩ | ⟨-, -, -, -, rfl, -⟩
  · decide
  · decide

/-- The node accepts the second link, which leaves an observation in a merged
story, and no importer accepts it. -/
instance relinkedRun_breaks :
    Fact ((NodeState.run library origin relinkedRun).db.events.length = 15 ∧
      ¬ isOk (foldState (replayContentRow library origin.nodeId) ⟨.empty, .empty⟩
        (NodeState.run library origin relinkedRun).db.events) ∧
      (∃ link ∈ (NodeState.run library origin relinkedRun).db.content.storyObservations,
        ∀ story ∈ (NodeState.run library origin relinkedRun).db.content.stories,
          story.storyId = link.storyId → story.mergedInto ≠ none) ∧
      ((NodeState.run library origin relinkedRun).db.content.observations.map
        fun observation => library.sha256 (utf8 observation.observationId)).Nodup) :=
  ⟨by decide +kernel⟩

/-- An accepted story link after which the log is not replayed. -/
theorem run_replaysContent_relinkedRun :
    (NodeState.run library origin relinkedRun).db.events.length = 15 ∧
      ¬ isOk (foldState (replayContentRow library origin.nodeId) ⟨.empty, .empty⟩
        (NodeState.run library origin relinkedRun).db.events) :=
  ⟨relinkedRun_breaks.out.1, relinkedRun_breaks.out.2.1⟩

/-- A title with one character more than the collector keeps. -/
def longTitle : String := TextBytes.ofChars (List.replicate 501 'a')

/-- The node logs one observation for each of the two titles. -/
instance openRun_observes : Fact (∀ title ∈ ["one", longTitle],
    (NodeState.run library origin (openRun ++ [observe (feedEntry "https://1" title)])).db.events =
      (NodeState.run library origin openRun).db.events ++
        (NodeState.run library origin
          (openRun ++ [observe (feedEntry "https://1" title)])).db.events.drop 10 ∧
    ((NodeState.run library origin
      (openRun ++ [observe (feedEntry "https://1" title)])).db.events.drop 10).length = 1) :=
  ⟨by decide +kernel⟩

theorem openRun_row {title : String} (h : title ∈ ["one", longTitle]) :
    ∃ row, (NodeState.run library origin
        (openRun ++ [observe (feedEntry "https://1" title)])).db.events =
      (NodeState.run library origin openRun).db.events ++ [row] := by
  obtain ⟨hevents, hlength⟩ := openRun_observes.out title h
  obtain ⟨row, hrow⟩ := List.length_eq_one_iff.mp hlength
  exact ⟨row, by rw [hevents, hrow]⟩

/-- The observation with the short title is imported. -/
theorem run_observation_importable_one : ∃ row event envelope,
    (NodeState.run library origin
        (openRun ++ [observe (feedEntry "https://1" "one")])).db.events =
      (NodeState.run library origin openRun).db.events ++ [row] ∧
    originEvent library row = .ok event ∧
    FederatedObservationEnvelope.ofJson library event.canonical = some envelope ∧
    isOk (projectFederatedObservation library event.sequence envelope.payload
      ((NodeState.run library importer (importLog openRun)).db.origins origin.nodeId)) := by
  obtain ⟨row, hrow⟩ := openRun_row List.mem_cons_self
  obtain ⟨event, envelope, hevent, henvelope, hiff⟩ :=
    run_observation_importable_iff library origin importer openRun (importLog openRun) sourceId
      ["en"] feed 0 (feedEntry "https://1" "one") 0 row openRun_admits.out.2.2 hrow
  exact ⟨row, event, envelope, hrow, hevent, henvelope, hiff.mpr (by decide)⟩

/-- The importer holds the log before the observation with the long title, and
rejects the observation. -/
theorem run_observation_rejected : ∃ row event envelope,
    (NodeState.run library importer (importLog openRun)).db.Holds library origin.nodeId
      (NodeState.run library origin openRun).db.events ∧
    (NodeState.run library origin
        (openRun ++ [observe (feedEntry "https://1" longTitle)])).db.events =
      (NodeState.run library origin openRun).db.events ++ [row] ∧
    originEvent library row = .ok event ∧
    FederatedObservationEnvelope.ofJson library event.canonical = some envelope ∧
    ¬ isOk (projectFederatedObservation library event.sequence envelope.payload
      ((NodeState.run library importer (importLog openRun)).db.origins origin.nodeId)) := by
  obtain ⟨-, -, hholds⟩ := openRun_admits.out
  obtain ⟨row, hrow⟩ := openRun_row
    (List.mem_cons_of_mem "one" List.mem_cons_self)
  have hlogged := hrow
  rw [NodeState.run_append_singleton] at hlogged
  obtain ⟨event, envelope, hevent, henvelope, hiff⟩ :=
    NodeState.observation_importable_iff hholds.mirrorsContent hlogged
  refine ⟨row, event, envelope, hholds, hrow, hevent, henvelope, ?_⟩
  rw [hiff]
  intro hlimits
  have htitle : charCount longTitle ≤ maxTitleChars := hlimits.1 longTitle rfl
  rw [charCount, longTitle, TextBytes.chars_eq, TextBytes.ofChars_eq, String.toList_ofList,
    List.length_replicate, maxTitleChars] at htitle
  omega

end Sample

end Commonwake
