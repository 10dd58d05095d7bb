import Commonwake.AuthorityReplay
import Commonwake.ImportHistory
import Commonwake.NodeHistory
import Commonwake.SourceAdmission

/-!
# The content tables of an importer

An importer which holds the log of a node has the same reviews, stories,
observations, verifications and assessments as the node, and it agrees with
the node on which sources are still only proposed.
-/

namespace Commonwake

open Outcome Table

/-! ## What an importer does with an event -/

/-- The content tables and the sources of an origin are the same in both. -/
structure OriginTables.SameContent (first second : OriginTables) : Prop where
  content : second.content = first.content
  sources : second.sources = first.sources

theorem OriginTables.SameContent.refl (tables : OriginTables) : tables.SameContent tables :=
  ⟨rfl, rfl⟩

section

variable {P : Primitives} {origin : String} {event : OriginEvent}

theorem projectRegistration_sameContent (tables : OriginTables) :
    Ensures (projectRegistration P event tables)
      fun result => tables.SameContent result.2 := by
  unfold projectRegistration
  repeat refine Ensures.bind fun _ => ?_
  exact .pure ⟨rfl, rfl⟩

theorem projectDelegation_sameContent (tables : OriginTables) :
    Ensures (projectDelegation P event tables)
      fun result => tables.SameContent result.2 := by
  unfold projectDelegation
  repeat refine Ensures.bind fun _ => ?_
  exact .pure ⟨rfl, rfl⟩

theorem projectRevocation_sameContent (tables : OriginTables) :
    Ensures (projectRevocation P event tables)
      fun result => tables.SameContent result.2 := by
  unfold projectRevocation
  repeat refine Ensures.bind fun _ => ?_
  exact .pure ⟨rfl, rfl⟩

theorem projectRotation_sameContent (tables : OriginTables) :
    Ensures (projectRotation P event tables)
      fun result => tables.SameContent result.2 := by
  unfold projectRotation
  repeat refine Ensures.bind fun _ => ?_
  exact .pure ⟨rfl, rfl⟩

/-- The kinds of events which say nothing about sources and stories. -/
def isAdministrative (kind : String) : Bool :=
  kind == "lineage_registered" || kind == "delegation_registered" ||
    kind == "delegation_revoked" || kind == "lineage_key_rotated" ||
    kind == "acknowledgement" || kind == "checkpoint_witnessed"

theorem projectAndStore_eq_ok {state next : ImportState}
    (h : projectAndStore P origin event state = .ok next) :
    ∃ nonce projected, validateAndProjectRemoteEvent P origin event state =
        .ok (nonce, projected) ∧
      next = { projected with tables := { projected.tables with
        remoteEvents := state.tables.remoteEvents ++ [remoteRow P event nonce] } } := by
  unfold projectAndStore at h
  simp only [bind_eq_ok, insertNew_eq_ok, pure_eq_ok, Except.ok.injEq] at h
  obtain ⟨⟨nonce, projected⟩, hproject, rows, ⟨-, rfl⟩, rfl⟩ := h
  have hlog := validateAndProjectRemoteEvent_sameLog origin event state _ hproject
  refine ⟨nonce, projected, hproject, ?_⟩
  rw [← hlog.remoteEvents]

theorem projectAndStore_administrative {state next : ImportState}
    (h : projectAndStore P origin event state = .ok next)
    (hkind : isAdministrative event.kind = true) :
    state.tables.SameContent next.tables := by
  obtain ⟨nonce, projected, hproject, rfl⟩ := projectAndStore_eq_ok h
  have hsame : state.tables.SameContent projected.tables := by
    simp only [isAdministrative, Bool.or_eq_true, beq_iff_eq] at hkind
    unfold validateAndProjectRemoteEvent at hproject
    rcases hkind with ((((hkind | hkind) | hkind) | hkind) | hkind) | hkind
    · simp only [hkind, bind_eq_ok, pure_eq_ok, Except.ok.injEq, Prod.mk.injEq,
        Prod.exists] at hproject
      obtain ⟨_, tables, htables, -, rfl⟩ := hproject
      exact projectRegistration_sameContent state.tables _ htables
    · simp only [hkind, bind_eq_ok, pure_eq_ok, Except.ok.injEq, Prod.mk.injEq,
        Prod.exists] at hproject
      obtain ⟨_, tables, htables, -, rfl⟩ := hproject
      exact projectDelegation_sameContent state.tables _ htables
    · simp only [hkind, bind_eq_ok, pure_eq_ok, Except.ok.injEq, Prod.mk.injEq,
        Prod.exists] at hproject
      obtain ⟨_, tables, htables, -, rfl⟩ := hproject
      exact projectRevocation_sameContent state.tables _ htables
    · simp only [hkind, bind_eq_ok, pure_eq_ok, Except.ok.injEq, Prod.mk.injEq,
        Prod.exists] at hproject
      obtain ⟨_, tables, htables, -, rfl⟩ := hproject
      exact projectRotation_sameContent state.tables _ htables
    · simp only [hkind, bind_eq_ok, pure_eq_ok, Except.ok.injEq, Prod.mk.injEq] at hproject
      obtain ⟨_, -, -, rfl⟩ := hproject
      exact .refl _
    · simp only [hkind, bind_eq_ok, pure_eq_ok, Except.ok.injEq, Prod.mk.injEq] at hproject
      obtain ⟨_, -, -, rfl⟩ := hproject
      exact .refl _
  exact ⟨hsame.content, hsame.sources⟩

/-- The kinds of contributions have a branch of their own. -/
theorem validateAndProjectRemoteEvent_contribution {state : ImportState}
    (kind : ContributionKind) (hkind : event.kind = kind.asStr) :
    validateAndProjectRemoteEvent P origin event state =
      projectContribution P origin event state := by
  unfold validateAndProjectRemoteEvent
  rw [hkind]
  cases kind <;> rfl

section

variable {appendedAt sequence : ℤ}

theorem requireRemoteEventMetadata_lineage {lineageId delegationId : Option String}
    {createdAt : ℤ}
    (h : requireRemoteEventMetadata P event lineageId delegationId createdAt = .ok ()) :
    event.lineageId = lineageId := by
  unfold requireRemoteEventMetadata at h
  simp only [bind_eq_ok, rejectIf_eq_ok, not_or, not_not] at h
  obtain ⟨-, ⟨hlineage, -, -⟩, -⟩ := h
  exact hlineage

/-- An importer applies the contribution in its canonical form, for the lineage
for which the node has logged it. -/
theorem projectAndStore_contribution {lineageId : String}
    {contribution : SignedContribution} {state next : ImportState}
    (henvelope : Envelope P (contributionInput P lineageId contribution) appendedAt
      sequence (contribution.toJson P) event)
    (h : projectAndStore P origin event state = .ok next) :
    ∃ nonce applied, applyFederatedContribution P origin lineageId event
        (contribution.canonical P) state = .ok applied ∧
      next = { applied with tables := { applied.tables with
        remoteEvents := state.tables.remoteEvents ++ [remoteRow P event nonce] } } := by
  obtain ⟨nonce, projected, hproject, rfl⟩ := projectAndStore_eq_ok h
  rw [validateAndProjectRemoteEvent_contribution contribution.kind henvelope.kind,
    projectContribution_eq] at hproject
  simp only [bind_eq_ok, pure_eq_ok, Except.ok.injEq, Prod.mk.injEq, Prod.exists] at hproject
  obtain ⟨author, signed, hauthorize, applied, happly, rfl, rfl⟩ := hproject
  unfold authorizeContribution at hauthorize
  simp only [henvelope.canonical, SignedContribution.ofJson_canon, okOr_some, ok_bind,
    bind_eq_ok, pure_eq_ok, Except.ok.injEq, Prod.mk.injEq, Prod.exists] at hauthorize
  obtain ⟨_, -, _, -, _, -, _, -, _, -, _, -, _, _, -, ⟨⟩, hmetadata, _, -, _, -, rfl,
    rfl⟩ := hauthorize
  have hlineage := requireRemoteEventMetadata_lineage hmetadata
  rw [henvelope.lineage] at hlineage
  rw [← Option.some.inj hlineage] at happly
  exact ⟨_, applied, happly, rfl⟩

theorem projectAndStore_observation {payload : FederatedObservationPayload}
    {state next : ImportState}
    (henvelope : Envelope P (observationInput P payload) appendedAt sequence
      ((observationEnvelope payload).toJson P) event)
    (h : projectAndStore P origin event state = .ok next) :
    ∃ tables, projectFederatedObservation P sequence (payload.canonical P)
        state.tables = .ok tables ∧
      next = ⟨{ tables with
        remoteEvents := state.tables.remoteEvents ++ [remoteRow P event none] },
        state.commons⟩ := by
  obtain ⟨nonce, projected, hproject, rfl⟩ := projectAndStore_eq_ok h
  have hkind : event.kind = "observation" := henvelope.kind
  unfold validateAndProjectRemoteEvent at hproject
  simp only [hkind, bind_eq_ok, pure_eq_ok, Except.ok.injEq, Prod.mk.injEq] at hproject
  obtain ⟨tables, hproject, rfl, rfl⟩ := hproject
  unfold projectObservation at hproject
  simp only [henvelope.canonical, FederatedObservationEnvelope.ofJson_canon, okOr_some,
    ok_bind, bind_eq_ok, henvelope.sequence] at hproject
  obtain ⟨_, -, _, -, _, -, _, -, _, -, htables⟩ := hproject
  exact ⟨tables, htables, rfl⟩

end

/-! ## What the node does with a call -/

theorem Db.appendContribution_eq_ok {identity : NodeIdentity P} {lineageId : String}
    {contribution : SignedContribution} {appendedAt : ℤ} {db next : Db}
    {accepted : AcceptedObject}
    (h : db.appendContribution P identity lineageId contribution appendedAt =
      .ok (accepted, next)) :
    db.validateProjection P lineageId contribution appendedAt = .ok () ∧
      ∃ logged, appendEvent P identity (contributionInput P lineageId contribution)
          appendedAt db = .ok (accepted, logged) ∧
        logged.applyProjection P lineageId contribution accepted = .ok next := by
  unfold Db.appendContribution at h
  simp only [bind_eq_ok, pure_eq_ok, Except.ok.injEq, Prod.mk.injEq, Prod.exists] at h
  obtain ⟨⟨⟩, hvalid, _, logged, happend, _, happly, rfl, rfl⟩ := h
  exact ⟨hvalid, logged, happend, happly⟩

/-- The row of a contribution is the one which was appended. -/
theorem Db.appendContribution_row {identity : NodeIdentity P} {lineageId : String}
    {contribution : SignedContribution} {appendedAt : ℤ} {db next : Db} {row : EventRow}
    {accepted : AcceptedObject}
    (h : db.appendContribution P identity lineageId contribution appendedAt =
      .ok (accepted, next)) (hrow : next.events = db.events ++ [row]) :
    db.validateProjection P lineageId contribution appendedAt = .ok () ∧
      ∃ logged, Appended P identity (contributionInput P lineageId contribution) appendedAt
          db row accepted logged ∧
        logged.applyProjection P lineageId contribution accepted = .ok next := by
  obtain ⟨hvalid, logged, happend, happly⟩ := Db.appendContribution_eq_ok h
  obtain ⟨logRow, happended⟩ := appendEvent_eq_ok happend
  have hlogged : logged.events = db.events ++ [row] := by
    rw [← hrow]
    exact (logged.applyProjection_onlyProjected lineageId contribution accepted _
      happly).events.symm
  have hsame : logRow = row := by
    rw [happended.events] at hlogged
    exact (List.cons.inj (List.append_cancel_left hlogged)).1
  subst hsame
  exact ⟨hvalid, logged, happended, happly⟩

/-- What an importer sees of the event of a contribution. -/
theorem Db.appendContribution_envelope {identity : NodeIdentity P} {lineageId : String}
    {contribution : SignedContribution} {appendedAt : ℤ} {db next : Db} {row : EventRow}
    {accepted : AcceptedObject} {event : OriginEvent}
    (h : db.appendContribution P identity lineageId contribution appendedAt =
      .ok (accepted, next)) (hrow : next.events = db.events ++ [row])
    (hevent : originEvent P row = .ok event) :
    Envelope P (contributionInput P lineageId contribution) appendedAt accepted.sequence
      (contribution.toJson P) event ∧ event.eventId = accepted.id := by
  obtain ⟨-, logged, happended, -⟩ := Db.appendContribution_row h hrow
  obtain ⟨event', hevent', henvelope⟩ := happended.envelope (contribution.toJson P) rfl
  rw [hevent] at hevent'
  cases hevent'
  obtain ⟨-, hid, -⟩ := happended.originEvent_eq (contribution.toJson P) rfl hevent
  refine ⟨henvelope, ?_⟩
  rw [hid, happended.accepted_eq]

theorem Observed.envelope {identity : NodeIdentity P} {observation : IngestedObservation}
    {appendedAt : ℤ} {db next : Db} {row : EventRow} {accepted : AcceptedObject}
    {event : OriginEvent}
    (h : Observed P identity observation appendedAt db row accepted next)
    (hevent : originEvent P row = .ok event) :
    Envelope P (observationInput P (db.observationPayload P observation)) appendedAt
      accepted.sequence
      ((observationEnvelope (db.observationPayload P observation)).toJson P) event := by
  obtain ⟨logged, happended, -⟩ := h.appended
  obtain ⟨event', hevent', henvelope⟩ := happended.envelope
    ((observationEnvelope (db.observationPayload P observation)).toJson P) rfl
  rw [hevent] at hevent'
  cases hevent'
  exact henvelope

/-- A call is a contribution, or it changes the log and the authority tables
only. -/
theorem Admitted.commit_frame {identity : NodeIdentity P} {admitted : Admitted}
    {appendedAt : ℤ} {db next : Db} {accepted : AcceptedObject}
    (h : admitted.commit P identity appendedAt db = .ok (accepted, next)) :
    (∃ lineageId contribution, admitted = .appendContribution lineageId contribution) ∨
      (isAdministrative (admitted.input P).kind = true ∧
        next = { db with events := next.events, authority := next.authority }) := by
  have hlogged : ∀ {input : EventInput} {object : AcceptedObject} {logged : Db},
      appendEvent P identity input appendedAt db = .ok (object, logged) →
      logged = { db with events := logged.events } := by
    intro input object logged happend
    obtain ⟨row, hrow⟩ := appendEvent_eq_ok happend
    rw [hrow.next_eq]
  cases admitted with
  | registerLineage lineageId registration =>
      simp only [Admitted.commit, Db.registerLineage, bind_eq_ok, pure_eq_ok,
        Except.ok.injEq, Prod.mk.injEq, Prod.exists] at h
      obtain ⟨_, -, _, logged, happend, _, -, -, rfl⟩ := h
      refine .inr ⟨rfl, ?_⟩
      rw [hlogged happend]
  | registerDelegation id delegation =>
      simp only [Admitted.commit, Db.registerDelegation, bind_eq_ok, pure_eq_ok,
        Except.ok.injEq, Prod.mk.injEq, Prod.exists] at h
      obtain ⟨_, -, _, -, _, logged, happend, _, -, -, rfl⟩ := h
      refine .inr ⟨rfl, ?_⟩
      rw [hlogged happend]
  | revokeDelegation revocation =>
      simp only [Admitted.commit, Db.revokeDelegation, bind_eq_ok, pure_eq_ok,
        Except.ok.injEq, Prod.mk.injEq, Prod.exists] at h
      obtain ⟨_, -, _, -, _, -, _, logged, happend, -, rfl⟩ := h
      refine .inr ⟨rfl, ?_⟩
      rw [hlogged happend]
  | rotateLineageKey rotation =>
      simp only [Admitted.commit, Db.rotateLineageKey, bind_eq_ok, pure_eq_ok,
        Except.ok.injEq, Prod.mk.injEq, Prod.exists] at h
      obtain ⟨_, -, _, -, _, -, _, logged, happend, _, -, _, -, -, rfl⟩ := h
      refine .inr ⟨rfl, ?_⟩
      rw [hlogged happend]
  | appendContribution lineageId contribution => exact .inl ⟨lineageId, contribution, rfl⟩
  | appendAcknowledgement lineageId acknowledgement =>
      simp only [Admitted.commit, Db.appendAcknowledgement, bind_eq_ok, pure_eq_ok,
        Except.ok.injEq, Prod.mk.injEq, Prod.exists] at h
      obtain ⟨_, -, _, -, _, logged, happend, -, rfl⟩ := h
      refine .inr ⟨rfl, ?_⟩
      rw [hlogged happend]

/-- A call is a contribution, or it leaves the content tables alone. -/
theorem Admitted.commit_content {identity : NodeIdentity P} {admitted : Admitted}
    {appendedAt : ℤ} {db next : Db} {accepted : AcceptedObject}
    (h : admitted.commit P identity appendedAt db = .ok (accepted, next)) :
    (∃ lineageId contribution, admitted = .appendContribution lineageId contribution) ∨
      (isAdministrative (admitted.input P).kind = true ∧ next.content = db.content ∧
        next.sources = db.sources) := by
  rcases Admitted.commit_frame h with hcontribution | ⟨hkind, hnext⟩
  · exact .inl hcontribution
  · refine .inr ⟨hkind, ?_, ?_⟩
    · rw [hnext]
    · rw [hnext]

theorem Db.appendObservation_eq_ok {identity : NodeIdentity P}
    {observation : IngestedObservation} {appendedAt : ℤ} {db next : Db} {row : EventRow}
    {accepted : AcceptedObject}
    (h : Observed P identity observation appendedAt db row accepted next) :
    (db.sources.any fun source => source.sourceId == observation.sourceId &&
        source.collects) = true ∧
      (db.content.observations.any fun stored =>
        stored.observationId == (db.observationPayload P observation).observationId) =
          false ∧
      (db.content.storyObservations.any fun stored =>
        stored.observationId == (db.observationPayload P observation).observationId) =
          false ∧
      next.content = db.content.withObservation
        (observedStory P (db.observationPayload P observation) accepted.sequence)
        (observedRow P (db.observationPayload P observation) accepted.sequence) ∧
      next.sources = db.sources := by
  have happend := h.append
  unfold Db.appendObservation at happend
  simp only [h.new, bind_eq_ok, rejectIf_eq_ok, Bool.not_eq_false, pure_eq_ok,
    Except.ok.injEq, Prod.mk.injEq, Prod.exists] at happend
  obtain ⟨-, hsource, _, logged, hlogged, content, hcontent, rfl, rfl⟩ := happend
  obtain ⟨stored, hstored⟩ := appendEvent_eq_ok hlogged
  have hsame : logged.content = db.content ∧ logged.sources = db.sources := by
    rw [hstored.next_eq]
    exact ⟨rfl, rfl⟩
  rw [hsame.1] at hcontent
  obtain ⟨hclash, hlink, hnext⟩ := ContentTables.addObservation_eq_ok.mp hcontent
  refine ⟨hsource, ?_, hlink, hnext, hsame.2⟩
  rw [List.any_eq_false] at hclash ⊢
  intro other hother hid
  apply hclash other hother
  rw [hid, Bool.true_or]

/-! ## The content tables of a node -/

/-- What holds of the reviews, the sources and the observations of a node after
every event. -/
structure ContentSound (db : Db) : Prop where
  reviewsUnique : db.content.ReviewsUnique
  reviewsLogged : ∀ review ∈ db.content.reviews,
    ∃ row ∈ db.events, row.eventId = review.eventId
  reviewsIndependent : ∀ review ∈ db.content.reviews,
    ∃ gate ∈ db.sources.map SourceRow.gate, gate.sourceId = review.sourceId ∧
      gate.proposerLineageId ≠ review.reviewerLineageId
  sourcesDistinct : ((db.sources.map SourceRow.gate).map SourceGate.sourceId).Nodup
  linked : ∀ observation ∈ db.content.observations, observation.observationId ∈
    db.content.storyObservations.map StoryObservationRow.observationId

theorem ContentSound.congr {db next : Db} (h : ContentSound db)
    (hevents : ∀ row ∈ db.events, row ∈ next.events)
    (hcontent : next.content = db.content)
    (hgates : next.sources.map SourceRow.gate = db.sources.map SourceRow.gate) :
    ContentSound next := by
  obtain ⟨hunique, hlogged, hindependent, hdistinct, hlinked⟩ := h
  refine ⟨?_, ?_, ?_, ?_, ?_⟩
  · rw [hcontent]
    exact hunique
  · rw [hcontent]
    intro review hreview
    obtain ⟨row, hrow, hid⟩ := hlogged review hreview
    exact ⟨row, hevents row hrow, hid⟩
  · rw [hcontent, hgates]
    exact hindependent
  · rw [hgates]
    exact hdistinct
  · rw [hcontent]
    exact hlinked

/-- The sources which are known stay known, with their proposers. -/
theorem recordGates_keeps {entries : List LogEntry} {content : ContentTables}
    {lineageId : String} {contribution : SignedContribution} {gates next : List SourceGate}
    (h : recordGates P entries content lineageId contribution gates = .ok next) :
    ∀ gate ∈ gates, ∃ kept ∈ next, kept.sourceId = gate.sourceId ∧
      kept.proposerLineageId = gate.proposerLineageId := by
  intro gate hgate
  unfold recordGates at h
  cases hkind : contribution.kind with
  | sourceProposal =>
      simp only [hkind, bind_eq_ok, pure_eq_ok, Except.ok.injEq] at h
      obtain ⟨_, -, _, -, rfl⟩ := h
      exact ⟨gate, List.mem_append_left _ hgate, rfl, rfl⟩
  | sourceReview =>
      simp only [hkind, bind_eq_ok, pure_eq_ok, Except.ok.injEq] at h
      obtain ⟨review, -, rfl⟩ := h
      split
      · refine ⟨_, mem_updateWhere.mpr ⟨gate, hgate, rfl⟩, ?_⟩
        split
        · exact ⟨rfl, rfl⟩
        · exact ⟨rfl, rfl⟩
      · exact ⟨gate, hgate, rfl, rfl⟩
  | _ =>
      simp only [hkind, pure_eq_ok, Except.ok.injEq] at h
      subst h
      exact ⟨gate, hgate, rfl, rfl⟩

theorem map_sourceId_gates (sources : List SourceRow) :
    (sources.map SourceRow.gate).map SourceGate.sourceId = sources.map SourceRow.sourceId := by
  rw [List.map_map]
  rfl

/-- A proposal names a source which is new to the node. -/
theorem Db.applyProjection_distinct {lineageId : String} {contribution : SignedContribution}
    {accepted : AcceptedObject} {db next : Db}
    (hparsed : ∀ entry ∈ db.events.map (EventRow.entry P), entry.canonical ≠ none)
    (hdistinct : ((db.sources.map SourceRow.gate).map SourceGate.sourceId).Nodup)
    (h : db.applyProjection P lineageId contribution accepted = .ok next) :
    ((next.sources.map SourceRow.gate).map SourceGate.sourceId).Nodup := by
  have hgates := Db.applyProjection_gates hparsed h
  unfold recordGates at hgates
  cases hkind : contribution.kind with
  | sourceProposal =>
      unfold Db.applyProjection at h
      simp only [hkind, Db.applySourceProposal, bind_eq_ok, insertNew_eq_ok, pure_eq_ok,
        Except.ok.injEq] at h
      obtain ⟨proposal, -, feedUrl, -, _, -, _, ⟨hclash, rfl⟩, rfl⟩ := h
      rw [map_sourceId_gates] at hdistinct ⊢
      rw [List.map_append, List.nodup_append]
      refine ⟨hdistinct, by simp, ?_⟩
      intro id hid other hother hsame
      obtain ⟨stored, hstored, rfl⟩ := List.mem_map.mp hid
      simp only [List.map_cons, List.map_nil, List.mem_singleton] at hother
      rw [List.any_eq_false] at hclash
      apply hclash stored hstored
      simp [hsame, hother]
  | sourceReview =>
      simp only [hkind, bind_eq_ok, pure_eq_ok, Except.ok.injEq] at hgates
      obtain ⟨review, -, hgates⟩ := hgates
      rw [← hgates]
      split
      · unfold admitGate
        rw [map_updateWhere]
        · exact hdistinct
        · intro _ _
          rfl
      · exact hdistinct
  | _ =>
      simp only [hkind, pure_eq_ok, Except.ok.injEq] at hgates
      rw [← hgates]
      exact hdistinct

theorem EventRow.entry_canonical_ne_none {events : List EventRow} (h : LogSound P events) :
    ∀ entry ∈ events.map (EventRow.entry P), entry.canonical ≠ none := by
  intro entry hentry
  obtain ⟨row, hrow, rfl⟩ := List.mem_map.mp hentry
  exact h.readable row hrow

/-- A contribution keeps the tables sound. -/
theorem ContentSound.contribution {identity : NodeIdentity P} {lineageId : String}
    {contribution : SignedContribution} {appendedAt : ℤ} {db next : Db}
    {accepted : AcceptedObject} (hsound : ContentSound db) (hlog : LogSound P db.events)
    (h : db.appendContribution P identity lineageId contribution appendedAt =
      .ok (accepted, next)) : ContentSound next := by
  obtain ⟨hvalid, logged, happend, happly⟩ := Db.appendContribution_eq_ok h
  obtain ⟨row, happended⟩ := appendEvent_eq_ok happend
  have hbase : logged.content = db.content ∧ logged.sources = db.sources := by
    rw [happended.next_eq]
    exact ⟨rfl, rfl⟩
  have hevents : next.events = db.events ++ [row] := by
    rw [(logged.applyProjection_onlyProjected lineageId contribution accepted _
      happly).events, happended.events]
  have hlogged : LogSound P logged.events := by
    rw [happended.events]
    exact hlog.append rfl happended
  have hparsed := EventRow.entry_canonical_ne_none hlogged
  have hrecord := Db.applyProjection_record happly
  have hgates := Db.applyProjection_gates hparsed happly
  rw [hbase.1] at hrecord
  rw [hbase.2] at hgates
  obtain ⟨hreviews, hobservations, hlinks⟩ := ContentTables.record_frame hrecord
  have hdistinct := Db.applyProjection_distinct hparsed
    (by rw [hbase.2]; exact hsound.sourcesDistinct) happly
  have hkept := recordGates_keeps hgates
  have hold : ∀ review ∈ db.content.reviews,
      ∃ gate ∈ next.sources.map SourceRow.gate, gate.sourceId = review.sourceId ∧
        gate.proposerLineageId ≠ review.reviewerLineageId := by
    intro review hreview
    obtain ⟨gate, hgate, hid, hproposer⟩ := hsound.reviewsIndependent review hreview
    obtain ⟨kept, hmem, hsame, hsameProposer⟩ := hkept gate hgate
    exact ⟨kept, hmem, hsame.trans hid, by rw [hsameProposer]; exact hproposer⟩
  have hlinked : ∀ observation ∈ next.content.observations, observation.observationId ∈
      next.content.storyObservations.map StoryObservationRow.observationId := by
    rw [hobservations, hlinks]
    exact hsound.linked
  rcases hreviews with hsame | ⟨review, hkind, hreview, hput⟩
  · refine ⟨?_, ?_, ?_, hdistinct, hlinked⟩
    · unfold ContentTables.ReviewsUnique
      rw [hsame]
      exact hsound.reviewsUnique
    · rw [hsame, hevents]
      intro stored hstored
      obtain ⟨other, hother, hid⟩ := hsound.reviewsLogged stored hstored
      exact ⟨other, List.mem_append_left _ hother, hid⟩
    · rw [hsame]
      exact hold
  · -- The transaction has found the reviewed source and another proposer.
    have hsource : ∃ gate ∈ db.sources.map SourceRow.gate,
        gate.sourceId = review.sourceId ∧ gate.proposerLineageId ≠ lineageId := by
      simp only [Db.validateProjection, Db.validateKind, hkind, hreview,
        Db.validateSourceReview, bind_eq_ok, ok_bind, okOr_eq_ok, rejectIf_eq_ok] at hvalid
      obtain ⟨-, -, -, -, source, hfound, -, hproposer, -⟩ := hvalid
      have hid := List.find?_some hfound
      refine ⟨source.gate, List.mem_map_of_mem (List.mem_of_find?_eq_some hfound), ?_,
        hproposer⟩
      simpa [SourceRow.gate] using hid
    refine ⟨?_, ?_, ?_, hdistinct, hlinked⟩
    · rw [hput]
      exact hsound.reviewsUnique.putReview _
    · rw [hput, hevents]
      intro stored hstored
      rcases mem_upsert hstored with rfl | hbefore
      · refine ⟨row, by simp, ?_⟩
        rw [happended.accepted_eq]
        rfl
      · obtain ⟨other, hother, hid⟩ := hsound.reviewsLogged stored hbefore
        exact ⟨other, List.mem_append_left _ hother, hid⟩
    · rw [hput]
      intro stored hstored
      rcases mem_upsert hstored with rfl | hbefore
      · obtain ⟨gate, hgate, hid, hproposer⟩ := hsource
        obtain ⟨kept, hmem, hsame, hsameProposer⟩ := hkept gate hgate
        exact ⟨kept, hmem, hsame.trans hid, by rw [hsameProposer]; exact hproposer⟩
      · exact hold stored hbefore

/-- The tables of a node are sound after every event. -/
theorem History.contentSound {identity : NodeIdentity P}
    {commits : PendingCall → Db → ℤ → Prop} {entries : FeedEntry → Prop} {db : Db}
    (h : History P identity commits entries db) : ContentSound db := by
  induction h with
  | init =>
      refine ⟨?_, ?_, ?_, List.nodup_nil, ?_⟩
      · intro sourceId lineageId
        exact Nat.zero_le 1
      · intro review hreview
        cases hreview
      · intro review hreview
        cases hreview
      · intro observation hobservation
        cases hobservation
  | quiet db next _ hquiet ih =>
      refine ih.congr (by rw [hquiet.events]; exact fun _ hrow => hrow) hquiet.content ?_
      rcases hquiet.sources with hsame | ⟨sourceId, success, hfetched⟩
      · rw [hsame]
      · rw [hfetched, gate_markSourceFetch]
  | commit db next call appendedAt row accepted hbefore hsound _ hcommit hcommitted ih =>
      rcases Admitted.commit_content hcommit with ⟨lineageId, contribution, hadmitted⟩ |
        ⟨-, hcontent, hsources⟩
      · rw [hadmitted] at hcommit
        exact ih.contribution hbefore.logSound hcommit
      · refine ih.congr ?_ hcontent (by rw [hsources])
        rw [hcommitted.events]
        exact fun other hother => List.mem_append_left _ hother
  | observe db next sourceId languages feed retrievedAt entry canonicalUrl appendedAt row
      accepted hbefore _ hobserved ih =>
      obtain ⟨-, -, -, hcontent, hsources⟩ := Db.appendObservation_eq_ok hobserved
      refine ⟨?_, ?_, ?_, ?_, ?_⟩
      · rw [hcontent]
        exact ih.reviewsUnique
      · rw [hcontent, hobserved.events]
        intro stored hstored
        obtain ⟨other, hother, hid⟩ := ih.reviewsLogged stored hstored
        exact ⟨other, List.mem_append_left _ hother, hid⟩
      · rw [hcontent, hsources]
        exact ih.reviewsIndependent
      · rw [hsources]
        exact ih.sourcesDistinct
      · rw [hcontent]
        simp only [ContentTables.withObservation, List.map_append]
        intro observation hobservation
        rcases List.mem_append.mp hobservation with hold | hnew
        · exact List.mem_append_left _ (ih.linked observation hold)
        · rw [List.mem_singleton.mp hnew]
          exact List.mem_append_right _ (by simp)
  | witness db next bundle observedAt appendedAt row _ hwitnessed ih =>
      refine ih.congr ?_ hwitnessed.same.content (by rw [hwitnessed.same.sources])
      rw [hwitnessed.events]
      exact fun other hother => List.mem_append_left _ hother

/-! ## The mirror -/

theorem entry_remoteRow {row : EventRow} {event : OriginEvent}
    (h : originEvent P row = .ok event) (nonce : Option String) :
    (remoteRow P event nonce).entry P = row.entry P := by
  simp only [originEvent, bind_eq_ok, okOr_eq_ok, pure_eq_ok, Except.ok.injEq] at h
  obtain ⟨canonical, hparse, rfl⟩ := h
  simp [RemoteEventRow.entry, remoteRow, EventRow.entry, hparse]

/-- The entries of the two logs are the same. -/
theorem entries_of_rows {rows : List EventRow} {events : List OriginEvent}
    {stored : List RemoteEventRow}
    (hrows : List.Forall₂ (fun event row => ∃ nonce, row = remoteRow P event nonce) events
      stored)
    (hevents : rows.map (originEvent P) = events.map .ok) :
    stored.map (RemoteEventRow.entry P) = rows.map (EventRow.entry P) := by
  induction hrows generalizing rows with
  | nil =>
      rw [List.map_nil, List.map_eq_nil_iff] at hevents
      rw [hevents]
      rfl
  | @cons event _ _ _ hrow _ ih =>
      obtain ⟨nonce, rfl⟩ := hrow
      cases rows with
      | nil => simp at hevents
      | cons first rest =>
          simp only [List.map_cons, List.cons.injEq] at hevents ⊢
          exact ⟨entry_remoteRow hevents.1 nonce, ih hevents.2⟩

theorem Imported.entries {rows : List EventRow} {events : List OriginEvent}
    {tables : OriginTables} (h : Imported P origin events tables)
    (hevents : rows.map (originEvent P) = events.map .ok) :
    tables.remoteEvents.map (RemoteEventRow.entry P) = rows.map (EventRow.entry P) :=
  entries_of_rows h.rows hevents

theorem map_eq_map_ok_append {rows : List EventRow} {row : EventRow}
    {events : List OriginEvent}
    (h : (rows ++ [row]).map (originEvent P) = events.map .ok) :
    ∃ front event, events = front ++ [event] ∧
      rows.map (originEvent P) = front.map .ok ∧ originEvent P row = .ok event := by
  rcases List.eq_nil_or_concat events with rfl | ⟨front, event, rfl⟩
  · simp at h
  · rw [List.concat_eq_append, List.map_append, List.map_append] at h
    obtain ⟨hfront, hlast⟩ := List.append_inj' h rfl
    refine ⟨front, event, List.concat_eq_append, hfront, ?_⟩
    simpa using hlast

/-- The content tables of an importer are those of the node. -/
structure MirrorsContent (tables : OriginTables) (db : Db) : Prop where
  content : tables.content = db.content
  gates : tables.sources.map FederatedSourceRow.gate = db.sources.map SourceRow.gate
  statuses : ∀ row ∈ tables.sources, row.status = .proposed ∨ row.status = .probation

theorem MirrorsContent.congr {tables : OriginTables} {next : OriginTables} {db after : Db}
    (h : MirrorsContent tables db) (hsame : tables.SameContent next)
    (hcontent : after.content = db.content)
    (hgates : after.sources.map SourceRow.gate = db.sources.map SourceRow.gate) :
    MirrorsContent next after := by
  refine ⟨?_, ?_, ?_⟩
  · rw [hsame.content, hcontent, h.content]
  · rw [hsame.sources, hgates, h.gates]
  · rw [hsame.sources]
    exact h.statuses

/-- The checkpoints of an origin do not matter. -/
theorem MirrorsContent.checkpoints {tables : OriginTables} {imported : ImportState}
    {db : Db} (h : MirrorsContent imported.tables db)
    (htables : tables =
      { imported.tables with remoteCheckpoints := tables.remoteCheckpoints }) :
    MirrorsContent tables db := by
  rw [htables]
  exact ⟨h.content, h.gates, h.statuses⟩

section

variable {identity : NodeIdentity P} {before : OriginTables} {commons : CommonsTables}
  {db next : Db} {imported : ImportState} {row : EventRow} {appendedAt : ℤ}
  {accepted : AcceptedObject}

/-- A contribution which the node has accepted and the importer has applied. -/
theorem MirrorsContent.applied {lineageId : String} {contribution : SignedContribution}
    {applied : ImportState} (h : MirrorsContent before db) (hsound : ContentSound db)
    (hlog : LogSound P db.events)
    (hentries : before.remoteEvents.map (RemoteEventRow.entry P) =
      db.events.map (EventRow.entry P))
    (hcommit : db.appendContribution P identity lineageId contribution appendedAt =
      .ok (accepted, next)) (hrow : next.events = db.events ++ [row])
    (hevent : originEvent P row = .ok event)
    (happlied : applyFederatedContribution P origin lineageId event
      (contribution.canonical P) ⟨before, commons⟩ = .ok applied) :
    MirrorsContent applied.tables next := by
  obtain ⟨hvalid, logged, happended, happly⟩ := Db.appendContribution_row hcommit hrow
  obtain ⟨-, hid⟩ := Db.appendContribution_envelope hcommit hrow hevent
  simp only [applyFederatedContribution, bind_eq_ok] at happlied
  obtain ⟨⟨⟩, -, ⟨⟩, -, hfederate⟩ := happlied
  have hbase : logged.content = db.content ∧ logged.sources = db.sources := by
    rw [happended.next_eq]
    exact ⟨rfl, rfl⟩
  have hcontent : applied.tables.content = next.content := by
    have hlocal := ContentTables.record_canonical (Db.applyProjection_record happly)
    have hremote := federateKind_record hfederate
    rw [h.content, hid] at hremote
    rw [hbase.1, hremote] at hlocal
    exact Except.ok.inj hlocal
  have hreadable : LogSound P logged.events := by
    rw [happended.events]
    exact hlog.append rfl happended
  have hgates : applied.tables.sources.map FederatedSourceRow.gate =
      next.sources.map SourceRow.gate := by
    have hlocal := recordGates_canonical (Db.applyProjection_gates
      (EventRow.entry_canonical_ne_none hreadable) happly)
    have htraceable : (row.entry P).isTraceable =
        (contribution.canonical P).reporting.isTraceable := by
      change (row.entry P).isTraceable = contribution.reporting.isTraceable
      obtain ⟨⟨⟩, hcontent, -⟩ := bind_eq_ok.mp hvalid
      rw [isTraceable_of_valid hcontent]
      refine isTraceable_contribution (P := P) contribution _ ?_
      obtain ⟨-, -, -, -, -, -, hjson⟩ := happended.columns
      simp only [EventRow.entry, hjson, contributionInput, Primitives.parse_jcs']
    have hremote : recordGates P (before.remoteEvents.map (RemoteEventRow.entry P) ++
          [row.entry P]) applied.tables.content lineageId (contribution.canonical P)
        (before.sources.map FederatedSourceRow.gate) =
          .ok (applied.tables.sources.map FederatedSourceRow.gate) := by
      refine federateKind_gates ?_ ?_ ?_ ?_ ?_ htraceable hfederate
      · rw [hentries]
        exact EventRow.entry_canonical_ne_none hlog
      · rw [h.content]
        exact hsound.reviewsUnique
      · rw [hentries]
        intro stored hstored
        obtain ⟨old, hold, rfl⟩ := List.mem_map.mp hstored
        exact happended.fresh_id old hold
      · rw [hentries, h.content]
        intro stored hstored
        obtain ⟨other, hother, hsame⟩ := hsound.reviewsLogged stored hstored
        exact ⟨other.entry P, List.mem_map_of_mem hother, hsame⟩
      · rw [hid, happended.accepted_eq]
        rfl
    rw [happended.events, List.map_append, List.map_singleton, hbase.2] at hlocal
    rw [hentries, h.gates, hcontent, hlocal] at hremote
    exact (Except.ok.inj hremote).symm
  have hstatuses := federateKind_statuses h.statuses hfederate
  exact ⟨hcontent, hgates, hstatuses⟩

/-- A contribution which the node has accepted and the importer has recorded. -/
theorem MirrorsContent.contribution {lineageId : String}
    {contribution : SignedContribution} (h : MirrorsContent before db)
    (hsound : ContentSound db) (hlog : LogSound P db.events)
    (hentries : before.remoteEvents.map (RemoteEventRow.entry P) =
      db.events.map (EventRow.entry P))
    (hcommit : db.appendContribution P identity lineageId contribution appendedAt =
      .ok (accepted, next)) (hrow : next.events = db.events ++ [row])
    (hevent : originEvent P row = .ok event)
    (hstore : projectAndStore P origin event ⟨before, commons⟩ = .ok imported) :
    MirrorsContent imported.tables next := by
  obtain ⟨henvelope, -⟩ := Db.appendContribution_envelope hcommit hrow hevent
  obtain ⟨nonce, applied, happlied, himported⟩ :=
    projectAndStore_contribution henvelope hstore
  have hnext := h.applied hsound hlog hentries hcommit hrow hevent happlied
  rw [himported]
  exact ⟨hnext.content, hnext.gates, hnext.statuses⟩

/-- An observation which the node has logged and the importer has added. -/
theorem MirrorsContent.added {observation : IngestedObservation} {tables : OriginTables}
    (h : MirrorsContent before db)
    (hobserved : Observed P identity observation appendedAt db row accepted next)
    (hproject : projectFederatedObservation P accepted.sequence
      ((db.observationPayload P observation).canonical P) before = .ok tables) :
    MirrorsContent tables next := by
  obtain ⟨-, -, -, hcontent, hsources⟩ := Db.appendObservation_eq_ok hobserved
  unfold projectFederatedObservation at hproject
  simp only [bind_eq_ok, pure_eq_ok, Except.ok.injEq] at hproject
  obtain ⟨-, -, -, -, -, -, -, -, -, -, content, hadd, rfl⟩ := hproject
  obtain ⟨-, -, rfl⟩ := ContentTables.addObservation_eq_ok.mp hadd
  refine ⟨?_, ?_, ?_⟩
  · simp only [linkFederatedStoryEvent_content, h.content]
    rw [hcontent]
    rfl
  · simp only [linkFederatedStoryEvent_sources, hsources, h.gates]
  · simp only [linkFederatedStoryEvent_sources]
    exact h.statuses

/-- An observation which the node has logged and the importer has recorded. -/
theorem MirrorsContent.observation {observation : IngestedObservation}
    (h : MirrorsContent before db)
    (hobserved : Observed P identity observation appendedAt db row accepted next)
    (hevent : originEvent P row = .ok event)
    (hstore : projectAndStore P origin event ⟨before, commons⟩ = .ok imported) :
    MirrorsContent imported.tables next := by
  have henvelope := hobserved.envelope hevent
  obtain ⟨tables, hproject, himported⟩ := projectAndStore_observation henvelope hstore
  have hnext := h.added hobserved hproject
  rw [himported]
  exact ⟨hnext.content, hnext.gates, hnext.statuses⟩

end

/-- An importer which has recorded the log of a node mirrors its content
tables. -/
theorem History.mirrorsContent {identity : NodeIdentity P}
    {commits : PendingCall → Db → ℤ → Prop} {entries : FeedEntry → Prop} {db : Db}
    (h : History P identity commits entries db) {events : List OriginEvent}
    {tables : OriginTables} (hevents : db.events.map (originEvent P) = events.map .ok)
    (himported : Imported P origin events tables) : MirrorsContent tables db := by
  induction h generalizing events tables with
  | init =>
      have hnil : events = [] := by simpa [Db.init] using hevents.symm
      subst hnil
      rw [himported.nil]
      refine ⟨rfl, rfl, ?_⟩
      intro row hrow
      cases hrow
  | quiet db next _ hquiet ih =>
      rw [hquiet.events] at hevents
      refine (ih hevents himported).congr (.refl _) hquiet.content ?_
      rcases hquiet.sources with hsame | ⟨sourceId, success, hfetched⟩
      · rw [hsame]
      · rw [hfetched, gate_markSourceFetch]
  | commit db next call appendedAt row accepted hbefore hsound _ hcommit hcommitted ih =>
      rw [hcommitted.events] at hevents
      obtain ⟨front, event, rfl, hfront, hevent⟩ := map_eq_map_ok_append hevents
      obtain ⟨before, commons, imported, hbeforeImported, hstore, htables⟩ :=
        himported.last
      have hmirrors : MirrorsContent before db := ih hfront hbeforeImported
      refine MirrorsContent.checkpoints ?_ htables
      rcases Admitted.commit_content hcommit with ⟨lineageId, contribution, hadmitted⟩ |
        ⟨hkind, hcontent, hsources⟩
      · rw [hadmitted] at hcommit
        exact hmirrors.contribution hbefore.contentSound hbefore.logSound
          (hbeforeImported.entries hfront) hcommit hcommitted.events hevent hstore
      · obtain ⟨logged, happended, -⟩ := hcommitted.appended
        have heventKind := happended.event_kind hevent
        exact hmirrors.congr (projectAndStore_administrative hstore (by rw [heventKind, hkind]))
          hcontent (by rw [hsources])
  | observe db next sourceId languages feed retrievedAt entry canonicalUrl appendedAt row
      accepted hbefore _ hobserved ih =>
      rw [hobserved.events] at hevents
      obtain ⟨front, event, rfl, hfront, hevent⟩ := map_eq_map_ok_append hevents
      obtain ⟨before, commons, imported, hbeforeImported, hstore, htables⟩ :=
        himported.last
      have hmirrors : MirrorsContent before db := ih hfront hbeforeImported
      refine MirrorsContent.checkpoints ?_ htables
      exact hmirrors.observation hobserved hevent hstore
  | witness db next bundle observedAt appendedAt row _ hwitnessed ih =>
      rw [hwitnessed.events] at hevents
      obtain ⟨front, event, rfl, hfront, hevent⟩ := map_eq_map_ok_append hevents
      obtain ⟨before, commons, imported, hbeforeImported, hstore, htables⟩ :=
        himported.last
      have hmirrors : MirrorsContent before db := ih hfront hbeforeImported
      refine MirrorsContent.checkpoints ?_ htables
      obtain ⟨base, accepted, logged, -, happended⟩ := hwitnessed.appended
      have heventKind := happended.event_kind hevent
      exact hmirrors.congr (projectAndStore_administrative hstore (by rw [heventKind]; rfl))
        hwitnessed.same.content (by rw [hwitnessed.same.sources])

/-- An importer which holds the log mirrors the node. -/
theorem Db.Holds.mirrorsContent {identity importer : NodeIdentity P}
    {actions imports : List Action}
    (h : (NodeState.run P importer imports).db.Holds P identity.nodeId
      (NodeState.run P identity actions).db.events) :
    MirrorsContent ((NodeState.run P importer imports).db.origins identity.nodeId)
      (NodeState.run P identity actions).db := by
  obtain ⟨events, hevents, himported⟩ := h.imported
  exact (run_history_any P identity actions).mirrorsContent hevents himported

end

end Commonwake
