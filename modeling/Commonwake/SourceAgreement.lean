import Commonwake.ContentMirror
import Commonwake.SampleNode

/-!
# The admission of sources

A proposed source is collected once two lineages other than its proposer
approve of it, each with a report which can be traced.  The node and its
importers count the approvals with different queries, and only the node sees
the fetches.  They nevertheless agree on which sources are still proposed.
-/

namespace Commonwake

open Outcome Table

/-- The source is in the table of the node, and still proposed. -/
def Db.IsProposed (db : Db) (sourceId : String) : Prop :=
  ∃ row ∈ db.sources, row.sourceId = sourceId ∧ row.status = .proposed

instance (db : Db) (sourceId : String) : Decidable (db.IsProposed sourceId) :=
  inferInstanceAs (Decidable (∃ row ∈ db.sources, row.sourceId = sourceId ∧
    row.status = .proposed))

/-- The same for the table which an importer keeps for an origin. -/
def OriginTables.IsProposed (tables : OriginTables) (sourceId : String) : Prop :=
  ∃ row ∈ tables.sources, row.sourceId = sourceId ∧ row.status = .proposed

/-- The first check of `projectFederatedObservation`. -/
def OriginTables.passesSourceGate (tables : OriginTables) (sourceId : String) : Bool :=
  tables.sources.any fun row => row.sourceId == sourceId &&
    (row.status == .probation || row.status == .active)

/-- The review of a source by a lineage; a later one replaces it. -/
def ContentTables.latestReview? (content : ContentTables)
    (sourceId lineageId : String) : Option SourceReviewRow :=
  content.reviews.find? fun row =>
    row.sourceId == sourceId && row.reviewerLineageId == lineageId

/-- The latest review of the source by the lineage approves, and is traceable. -/
def Db.Approves (P : Primitives) (db : Db) (sourceId lineageId : String) : Prop :=
  ∃ review, db.content.latestReview? sourceId lineageId = some review ∧
    review.recommendation = .approve ∧
    traceableIn (db.events.map (EventRow.entry P)) review.eventId = true

/-- Two lineages other than the proposer of the source approve of it. -/
def Db.Reviewed (P : Primitives) (db : Db) (sourceId : String) : Prop :=
  ∃ source ∈ db.sources, source.sourceId = sourceId ∧
    ∃ first second, first ≠ second ∧ first ≠ source.proposerLineageId ∧
      second ≠ source.proposerLineageId ∧ db.Approves P sourceId first ∧
      db.Approves P sourceId second

/-! ## Proposed sources -/

theorem Db.isProposed_iff (db : Db) (sourceId : String) :
    db.IsProposed sourceId ↔ ∃ gate ∈ db.sources.map SourceRow.gate,
      gate.sourceId = sourceId ∧ gate.proposed = true := by
  constructor
  · rintro ⟨row, hrow, hid, hstatus⟩
    refine ⟨row.gate, List.mem_map_of_mem hrow, hid, ?_⟩
    simp [SourceRow.gate, hstatus]
  · rintro ⟨gate, hgate, hid, hproposed⟩
    obtain ⟨row, hrow, rfl⟩ := List.mem_map.mp hgate
    exact ⟨row, hrow, hid, by simpa [SourceRow.gate] using hproposed⟩

theorem OriginTables.isProposed_iff (tables : OriginTables) (sourceId : String) :
    tables.IsProposed sourceId ↔ ∃ gate ∈ tables.sources.map FederatedSourceRow.gate,
      gate.sourceId = sourceId ∧ gate.proposed = true := by
  constructor
  · rintro ⟨row, hrow, hid, hstatus⟩
    refine ⟨row.gate, List.mem_map_of_mem hrow, hid, ?_⟩
    simp [FederatedSourceRow.gate, hstatus]
  · rintro ⟨gate, hgate, hid, hproposed⟩
    obtain ⟨row, hrow, rfl⟩ := List.mem_map.mp hgate
    exact ⟨row, hrow, hid, by simpa [FederatedSourceRow.gate] using hproposed⟩

theorem MirrorsContent.isProposed_iff {tables : OriginTables} {db : Db}
    (h : MirrorsContent tables db) (sourceId : String) :
    db.IsProposed sourceId ↔ tables.IsProposed sourceId := by
  rw [db.isProposed_iff, tables.isProposed_iff, h.gates]

/-- A source from which the node collects passes the gate of the importer. -/
theorem MirrorsContent.passesSourceGate {tables : OriginTables} {db : Db}
    (h : MirrorsContent tables db) {sourceId : String}
    (hcollects : (db.sources.any fun source => source.sourceId == sourceId &&
      source.collects) = true) : tables.passesSourceGate sourceId = true := by
  simp only [List.any_eq_true, Bool.and_eq_true, beq_iff_eq] at hcollects
  obtain ⟨source, hsource, hid, hstatus⟩ := hcollects
  have hadmitted : source.gate.proposed = false := by
    unfold SourceRow.collects at hstatus
    unfold SourceRow.gate
    cases hproposed : source.status with
    | proposed => simp [hproposed] at hstatus
    | _ => rfl
  have hgate : source.gate ∈ tables.sources.map FederatedSourceRow.gate := by
    rw [h.gates]
    exact List.mem_map_of_mem hsource
  obtain ⟨row, hrow, hsame⟩ := List.mem_map.mp hgate
  have hsameId : row.sourceId = source.sourceId := congrArg SourceGate.sourceId hsame
  have hnot : row.gate.proposed = false := by rw [hsame, hadmitted]
  have hprobation : row.status = .probation := by
    rcases h.statuses row hrow with hproposed | hprobation
    · simp [FederatedSourceRow.gate, hproposed] at hnot
    · exact hprobation
  unfold OriginTables.passesSourceGate
  rw [List.any_eq_true]
  refine ⟨row, hrow, ?_⟩
  simp [hsameId, hid, hprobation]

/-! ## Approvals -/

/-- The row of a lineage is its latest review. -/
theorem ContentTables.ReviewsUnique.latestReview {content : ContentTables}
    (h : content.ReviewsUnique) {review : SourceReviewRow}
    (hreview : review ∈ content.reviews) :
    content.latestReview? review.sourceId review.reviewerLineageId = some review := by
  have hcount := h review.sourceId review.reviewerLineageId
  unfold ContentTables.latestReview?
  generalize content.reviews = reviews at hreview hcount
  induction reviews with
  | nil => cases hreview
  | cons first rest ih =>
      rw [List.countP_cons] at hcount
      rw [List.find?_cons]
      cases hmatch : (first.sourceId == review.sourceId &&
          first.reviewerLineageId == review.reviewerLineageId) with
      | false =>
          rw [hmatch] at hcount
          rcases List.mem_cons.mp hreview with rfl | hrest
          · simp at hmatch
          · exact ih hrest (by simpa using hcount)
      | true =>
          rw [hmatch, if_pos rfl] at hcount
          -- A second row with this key would be counted as well.
          rcases List.mem_cons.mp hreview with rfl | hrest
          · rfl
          · have hpos : 0 < rest.countP (fun row => row.sourceId == review.sourceId &&
                row.reviewerLineageId == review.reviewerLineageId) :=
              List.countP_pos_iff.mpr ⟨review, hrest, by simp⟩
            omega

/-- Two approvals which count come from two lineages. -/
theorem ContentTables.ReviewsUnique.two_approvals {content : ContentTables}
    (h : content.ReviewsUnique) {entries : List LogEntry} {sourceId : String}
    (hcount : 2 ≤ (content.approvals entries sourceId).length) :
    ∃ first ∈ content.approvals entries sourceId,
      ∃ second ∈ content.approvals entries sourceId,
        first.reviewerLineageId ≠ second.reviewerLineageId := by
  have hsub : (content.approvals entries sourceId).Sublist content.reviews :=
    List.filter_sublist
  have hsource : ∀ row ∈ content.approvals entries sourceId, row.sourceId = sourceId := by
    intro row hrow
    unfold ContentTables.approvals at hrow
    simp only [List.mem_filter, Bool.and_eq_true, beq_iff_eq] at hrow
    exact hrow.2.1.1
  generalize content.approvals entries sourceId = approvals at hcount hsub hsource
  match approvals, hcount with
  | first :: second :: rest, _ =>
      refine ⟨first, by simp, second, by simp, ?_⟩
      intro hsame
      have hle := hsub.countP_le (p := fun row : SourceReviewRow =>
        row.sourceId == sourceId && row.reviewerLineageId == second.reviewerLineageId)
      have hunique := h sourceId second.reviewerLineageId
      have hfirst : first.sourceId = sourceId := hsource first (by simp)
      have hsecond : second.sourceId = sourceId := hsource second (by simp)
      simp only [List.countP_cons, hfirst, hsecond, hsame, beq_self_eq_true, Bool.and_self,
        if_true] at hle
      omega

section

variable {P : Primitives}

/-- A source whose gate a review has opened is reviewed. -/
theorem ContentSound.reviewed {db : Db} (h : ContentSound db) {sourceId : String}
    (hcount : 2 ≤ (db.content.approvals (db.events.map (EventRow.entry P))
      sourceId).length) : db.Reviewed P sourceId := by
  obtain ⟨first, hfirst, second, hsecond, hdistinct⟩ := h.reviewsUnique.two_approvals hcount
  have happroves : ∀ review ∈ db.content.approvals (db.events.map (EventRow.entry P))
      sourceId, review ∈ db.content.reviews ∧ review.sourceId = sourceId ∧
        db.Approves P sourceId review.reviewerLineageId := by
    intro review hreview
    unfold ContentTables.approvals at hreview
    simp only [List.mem_filter, Bool.and_eq_true, beq_iff_eq] at hreview
    obtain ⟨hmem, ⟨hid, happrove⟩, htraceable⟩ := hreview
    have hlatest := h.reviewsUnique.latestReview hmem
    rw [hid] at hlatest
    exact ⟨hmem, hid, review, hlatest, happrove, htraceable⟩
  obtain ⟨hfirstMem, hfirstId, hfirstApproves⟩ := happroves first hfirst
  obtain ⟨hsecondMem, hsecondId, hsecondApproves⟩ := happroves second hsecond
  obtain ⟨gate, hgate, hid, hindependent⟩ := h.reviewsIndependent first hfirstMem
  obtain ⟨other, hother, hotherId, hotherIndependent⟩ :=
    h.reviewsIndependent second hsecondMem
  have hsame : gate = other := by
    refine List.inj_on_of_nodup_map h.sourcesDistinct hgate hother ?_
    rw [hid, hotherId, hfirstId, hsecondId]
  subst hsame
  obtain ⟨source, hsource, rfl⟩ := List.mem_map.mp hgate
  exact ⟨source, hsource, hid.trans hfirstId, _, _, hdistinct, hindependent.symm,
    hotherIndependent.symm, hfirstApproves, hsecondApproves⟩

/-- A contribution which ends the proposal of a source is the last of the
reviews which it needs. -/
theorem Db.appendContribution_reviewed {identity : NodeIdentity P} {lineageId : String}
    {contribution : SignedContribution} {appendedAt : ℤ} {db next : Db}
    {accepted : AcceptedObject} (hlog : LogSound P db.events) (hsound : ContentSound next)
    (h : db.appendContribution P identity lineageId contribution appendedAt =
      .ok (accepted, next)) {sourceId : String} (hbefore : db.IsProposed sourceId)
    (hafter : ¬ next.IsProposed sourceId) : next.Reviewed P sourceId := by
  obtain ⟨-, logged, happend, happly⟩ := Db.appendContribution_eq_ok h
  obtain ⟨row, happended⟩ := appendEvent_eq_ok happend
  have hsources : logged.sources = db.sources := by
    rw [happended.next_eq]
  have hlogSound : LogSound P logged.events := by
    rw [happended.events]
    exact hlog.append rfl happended
  have hsame : next.events = logged.events :=
    (logged.applyProjection_onlyProjected lineageId contribution accepted _ happly).events
  have hgates := Db.applyProjection_gates
    (EventRow.entry_canonical_ne_none hlogSound) happly
  rw [hsources, ← hsame] at hgates
  obtain ⟨gate, hgate, hid, hproposed⟩ := (db.isProposed_iff sourceId).mp hbefore
  have hgone : gate ∉ next.sources.map SourceRow.gate := fun hmem =>
    hafter ((next.isProposed_iff sourceId).mpr ⟨gate, hmem, hid, hproposed⟩)
  unfold recordGates at hgates
  cases hkind : contribution.kind with
  | sourceProposal =>
      simp only [hkind, bind_eq_ok, pure_eq_ok, Except.ok.injEq] at hgates
      obtain ⟨_, -, _, -, hgates⟩ := hgates
      exact absurd (hgates ▸ List.mem_append_left _ hgate) hgone
  | sourceReview =>
      simp only [hkind, bind_eq_ok, pure_eq_ok, Except.ok.injEq] at hgates
      obtain ⟨review, -, hgates⟩ := hgates
      by_cases hcount : 2 ≤ (next.content.approvals (next.events.map (EventRow.entry P))
          review.sourceId).length
      · by_cases hsource : sourceId = review.sourceId
        · rw [hsource]
          exact hsound.reviewed hcount
        · rw [if_pos hcount] at hgates
          refine absurd ?_ hgone
          rw [← hgates]
          refine mem_updateWhere.mpr ⟨gate, hgate, ?_⟩
          rw [hid, if_neg (by simpa using hsource)]
      · rw [if_neg hcount] at hgates
        exact absurd (hgates ▸ hgate) hgone
  | _ =>
      simp only [hkind, pure_eq_ok, Except.ok.injEq] at hgates
      exact absurd (hgates ▸ hgate) hgone

/-! ## Every run -/

theorem Db.isProposed_congr {db next : Db}
    (h : next.sources.map SourceRow.gate = db.sources.map SourceRow.gate)
    (sourceId : String) : next.IsProposed sourceId ↔ db.IsProposed sourceId := by
  rw [db.isProposed_iff, next.isProposed_iff, h]

/-- A step which ends the proposal of a source logs the last of its reviews. -/
theorem NodeState.step_reviewed {identity : NodeIdentity P} (actions : List Action)
    (action : Action) {sourceId : String}
    (hbefore : (NodeState.run P identity actions).db.IsProposed sourceId)
    (hafter : ¬ (NodeState.run P identity (actions ++ [action])).db.IsProposed sourceId) :
    ∃ row, (NodeState.run P identity (actions ++ [action])).db.events =
        (NodeState.run P identity actions).db.events ++ [row] ∧
      (NodeState.run P identity (actions ++ [action])).db.Reviewed P sourceId := by
  have hlog := (run_history_any P identity actions).logSound
  have hsound := (run_history_any P identity (actions ++ [action])).contentSound
  rw [NodeState.run_append_singleton] at hafter hsound ⊢
  generalize NodeState.run P identity actions = node at hbefore hafter hlog hsound ⊢
  have hsteps := node.step_steps identity action
  generalize node.step P identity action = next at hafter hsound hsteps ⊢
  -- Every step but a contribution keeps the gates of the sources.
  have hsame : next.db.sources.map SourceRow.gate ≠ node.db.sources.map SourceRow.gate :=
    fun hgates => hafter ((Db.isProposed_congr hgates sourceId).mpr hbefore)
  cases hsteps with
  | idle => exact absurd rfl hsame
  | pend => exact absurd rfl hsame
  | abort => exact absurd rfl hsame
  | commit index appendedAt call accepted next hcall hcommit =>
      rcases Admitted.commit_content hcommit with ⟨lineageId, contribution, hadmitted⟩ |
        ⟨-, -, hsources⟩
      · obtain ⟨row, hcommitted⟩ := Admitted.commit_eq_ok hcommit
        rw [hadmitted] at hcommit
        exact ⟨row, hcommitted.events,
          Db.appendContribution_reviewed hlog hsound hcommit hbefore hafter⟩
      · exact absurd (congrArg (List.map SourceRow.gate) hsources) hsame
  | observe sourceId languages feed retrievedAt entry appendedAt canonicalUrl observation
      accepted next hurl hobservation hnew happend =>
      obtain ⟨row, logged, happended, hrecords⟩ :=
        (Db.appendObservation_logs identity observation appendedAt hnew _ happend).appended
      obtain ⟨-, -, -, -, hsources⟩ := Db.appendObservation_eq_ok
        ⟨hnew, happend, logged, happended, hrecords⟩
      exact absurd (congrArg (List.map SourceRow.gate) hsources) hsame
  | markSourceFetch sourceId success =>
      exact absurd (gate_markSourceFetch sourceId success node.db) hsame
  | importBundle bundle observedAt now appendedAt =>
      obtain ⟨hlocal, -⟩ := importFederationBundle_frame identity bundle observedAt now
        appendedAt node.db
      exact absurd (congrArg (List.map SourceRow.gate) hlocal.sources) hsame

/-- In every run a source leaves its proposal only with an event after which
two lineages other than its proposer approve of it.  An importer which holds
the log agrees on the proposed sources, and every observation which the node
accepts next passes its gate. -/
theorem run_sourcesAgree (P : Primitives) (identity : NodeIdentity P)
    (actions : List Action) :
    (∀ action sourceId, (NodeState.run P identity actions).db.IsProposed sourceId →
      ¬ (NodeState.run P identity (actions ++ [action])).db.IsProposed sourceId →
      ∃ row, (NodeState.run P identity (actions ++ [action])).db.events =
          (NodeState.run P identity actions).db.events ++ [row] ∧
        (NodeState.run P identity (actions ++ [action])).db.Reviewed P sourceId) ∧
    ∀ (importer : NodeIdentity P) (imports : List Action),
      (NodeState.run P importer imports).db.Holds P identity.nodeId
        (NodeState.run P identity actions).db.events →
      (∀ sourceId, (NodeState.run P identity actions).db.IsProposed sourceId ↔
        ((NodeState.run P importer imports).db.origins identity.nodeId).IsProposed
          sourceId) ∧
      ∀ observation appendedAt accepted next,
        (NodeState.run P identity actions).db.storedObservation
          ((NodeState.run P identity actions).db.observationPayload P
            observation).observationId = none →
        (NodeState.run P identity actions).db.appendObservation P identity observation
          appendedAt = .ok (accepted, next) →
        ((NodeState.run P importer imports).db.origins identity.nodeId).passesSourceGate
          observation.sourceId = true := by
  refine ⟨fun action sourceId => NodeState.step_reviewed actions action, ?_⟩
  intro importer imports hholds
  have hmirrors := hholds.mirrorsContent
  refine ⟨hmirrors.isProposed_iff, ?_⟩
  intro observation appendedAt accepted next hnew happend
  obtain ⟨row, logged, happended, hrecords⟩ :=
    (Db.appendObservation_logs identity observation appendedAt hnew _ happend).appended
  obtain ⟨hcollects, -⟩ := Db.appendObservation_eq_ok
    ⟨hnew, happend, logged, happended, hrecords⟩
  exact hmirrors.passesSourceGate hcollects

end

namespace Sample

/-- The second approval opens the source, and the importer holds the log. -/
instance openRun_admits : Fact ((NodeState.run library origin reviewedRun).db.IsProposed sourceId ∧
    ¬ (NodeState.run library origin openRun).db.IsProposed sourceId ∧
    (NodeState.run library importer (importLog openRun)).db.Holds library origin.nodeId
      (NodeState.run library origin openRun).db.events) :=
  ⟨by decide +kernel⟩

/-- Both nodes have admitted the source of the sample run. -/
theorem run_sourcesAgree_openRun :
    (NodeState.run library origin openRun).db.Reviewed library sourceId ∧
      ¬ ((NodeState.run library importer (importLog openRun)).db.origins
        origin.nodeId).IsProposed sourceId := by
  obtain ⟨hbefore, hafter, hholds⟩ := openRun_admits.out
  obtain ⟨row, -, hreviewed⟩ :=
    (run_sourcesAgree library origin reviewedRun).1 (.commit 0 0) sourceId hbefore hafter
  refine ⟨hreviewed, ?_⟩
  have hagree := (run_sourcesAgree library origin openRun).2 importer (importLog openRun) hholds
  rw [← hagree.1 sourceId]
  exact hafter

end Sample

end Commonwake
