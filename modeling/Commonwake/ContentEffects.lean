import Commonwake.AuthorityEffects
import Commonwake.PayloadRoundTrip

/-!
# What a contribution records

The node and an importer run the same statements on their content tables,
each behind checks of its own.  `ContentTables.record` is what the two have in
common; both sides are shown to perform it whenever they succeed.
-/

namespace Commonwake

open Outcome Table

section

variable (P : Primitives)

/-- The effect of a contribution on the content tables. -/
def ContentTables.record (lineageId eventId : String)
    (contribution : SignedContribution) (content : ContentTables) :
    Result ContentTables :=
  let payload := contribution.payload
  match contribution.kind with
  | .sourceReview => do
      let review ← decodePayload (SourceReviewPayload.ofJson P) payload
      pure (content.putReview (reviewRow P lineageId eventId contribution review))
  | .observationVerification => do
      let verification ← decodePayload (ObservationVerificationPayload.ofJson P) payload
      pure (content.putVerification
        (verificationRow P lineageId eventId contribution verification))
  | .storyLink => do
      let link ← decodePayload (StoryLinkPayload.ofJson P) payload
      foldState (federateLink link.storyId eventId) content link.observationIds
  | .assessment => do
      let assessment ← decodePayload (AssessmentPayload.ofJson P) payload
      pure (content.putAssessment
        (assessmentRow P lineageId eventId contribution assessment))
  | _ => pure content

/-- An observation with its link, and its story when that is new. -/
def ContentTables.withObservation (story : StoryRow) (observation : ObservationRow)
    (content : ContentTables) : ContentTables :=
  { content with
    stories := insertOrIgnore (fun stored => stored.storyId == story.storyId)
      story content.stories
    observations := content.observations ++ [observation]
    storyObservations := content.storyObservations ++
      [⟨story.storyId, observation.observationId, none⟩] }

end

section

variable {P : Primitives}

theorem ContentTables.addObservation_eq_ok {clash : ObservationRow → Bool}
    {story : StoryRow} {observation : ObservationRow} {content next : ContentTables} :
    content.addObservation clash story observation = .ok next ↔
      content.observations.any clash = false ∧
      (content.storyObservations.any fun stored =>
        stored.observationId == observation.observationId) = false ∧
      next = content.withObservation story observation := by
  unfold ContentTables.addObservation ContentTables.withObservation
  simp only [bind_eq_ok, insertNew_eq_ok, pure_eq_ok, Except.ok.injEq]
  constructor
  · rintro ⟨_, ⟨hobservation, rfl⟩, _, ⟨hlink, rfl⟩, rfl⟩
    exact ⟨hobservation, hlink, rfl⟩
  · rintro ⟨hobservation, hlink, rfl⟩
    exact ⟨_, ⟨hobservation, rfl⟩, _, ⟨hlink, rfl⟩, rfl⟩

/-! ## The node -/

theorem Db.linkObservation_content {storyId observationId : String}
    {accepted : AcceptedObject} {db next : Db}
    (h : db.linkObservation storyId accepted observationId = .ok next) :
    federateLink storyId accepted.id db.content observationId = .ok next.content := by
  simp only [Db.linkObservation, bind_eq_ok, okOr_eq_ok] at h
  obtain ⟨oldStory, hold, hnext⟩ := h
  unfold federateLink
  rw [hold, okOr_some, ok_bind]
  by_cases hsame : oldStory = storyId
  · rw [if_pos hsame] at hnext ⊢
    cases hnext
    rfl
  · rw [if_neg hsame] at hnext ⊢
    cases hnext
    rfl

theorem Db.applyStoryLink_content {payload : StoryLinkPayload}
    {accepted : AcceptedObject} {db next : Db}
    (h : db.applyStoryLink accepted payload = .ok next) :
    foldState (federateLink payload.storyId accepted.id) db.content
      payload.observationIds = .ok next.content := by
  unfold Db.applyStoryLink at h
  generalize payload.observationIds = observationIds at h ⊢
  induction observationIds generalizing db with
  | nil =>
      cases h
      rfl
  | cons observationId rest ih =>
      simp only [foldState, bind_eq_ok] at h ⊢
      obtain ⟨middle, hmiddle, hrest⟩ := h
      exact ⟨middle.content, Db.linkObservation_content hmiddle, ih hrest⟩

theorem Db.applyProjection_record {lineageId : String}
    {contribution : SignedContribution} {accepted : AcceptedObject} {db next : Db}
    (h : db.applyProjection P lineageId contribution accepted = .ok next) :
    db.content.record P lineageId accepted.id contribution = .ok next.content := by
  unfold Db.applyProjection at h
  unfold ContentTables.record
  cases hkind : contribution.kind with
  | sourceProposal =>
      simp only [hkind, Db.applySourceProposal, bind_eq_ok, pure_eq_ok,
        Except.ok.injEq] at h ⊢
      obtain ⟨_, -, _, -, _, -, _, -, rfl⟩ := h
      rfl
  | sourceReview =>
      simp only [hkind, Db.applySourceReview, bind_eq_ok, pure_eq_ok,
        Except.ok.injEq] at h ⊢
      obtain ⟨review, hreview, _, -, rfl⟩ := h
      exact ⟨review, hreview, rfl⟩
  | observationVerification =>
      simp only [hkind, Db.applyVerification, bind_eq_ok, pure_eq_ok,
        Except.ok.injEq] at h ⊢
      obtain ⟨verification, hverification, _, -, rfl⟩ := h
      exact ⟨verification, hverification, rfl⟩
  | storyLink =>
      simp only [hkind, bind_eq_ok] at h ⊢
      obtain ⟨link, hlink, happly⟩ := h
      exact ⟨link, hlink, Db.applyStoryLink_content happly⟩
  | assessment =>
      simp only [hkind, Db.applyAssessment, bind_eq_ok, pure_eq_ok,
        Except.ok.injEq] at h ⊢
      obtain ⟨assessment, hassessment, _, -, rfl⟩ := h
      exact ⟨assessment, hassessment, rfl⟩
  | workClaim =>
      simp only [hkind, Db.applyWorkClaim, bind_eq_ok, pure_eq_ok, Except.ok.injEq] at h ⊢
      obtain ⟨_, -, rfl⟩ := h
      rfl
  | workResult =>
      simp only [hkind, Db.applyWorkResult, bind_eq_ok, pure_eq_ok, Except.ok.injEq] at h ⊢
      obtain ⟨_, -, _, -, _, -, rfl⟩ := h
      rfl
  | topicProposal | topicVote | forumPost | openPgpKey | directMessage =>
      simp only [hkind, Db.applyCommons, bind_eq_ok, pure_eq_ok, Except.ok.injEq] at h ⊢
      obtain ⟨_, -, _, -, rfl⟩ := h
      rfl
  | _ =>
      simp only [hkind, pure_eq_ok, Except.ok.injEq] at h ⊢
      rw [h]

/-! ## The importer -/

theorem linkFederatedStoryEvent_content (storyId : String) (sequence : ℤ)
    (tables : OriginTables) :
    (linkFederatedStoryEvent storyId sequence tables).content = tables.content := by
  unfold linkFederatedStoryEvent
  split <;> rfl

theorem linkTargets_content (event : OriginEvent) (targets : List String)
    (tables : OriginTables) :
    (linkTargets event targets tables).content = tables.content := by
  unfold linkTargets
  induction targets generalizing tables with
  | nil => rfl
  | cons storyId rest ih =>
      rw [List.foldl_cons, ih, linkFederatedStoryEvent_content]

theorem federateKind_record {origin lineageId : String} {event : OriginEvent}
    {contribution : SignedContribution} {state next : ImportState}
    (h : federateKind P origin lineageId event contribution state = .ok next) :
    state.tables.content.record P lineageId event.eventId contribution =
      .ok next.tables.content := by
  unfold federateKind at h
  unfold ContentTables.record
  cases hkind : contribution.kind with
  | sourceProposal =>
      simp only [hkind, federateSourceProposal, bind_eq_ok, pure_eq_ok,
        Except.ok.injEq] at h ⊢
      obtain ⟨_, -, _, ⟨_, -, _, -, _, -, _, -, rfl⟩, rfl⟩ := h
      rfl
  | sourceReview =>
      simp only [hkind, federateSourceReview, bind_eq_ok, pure_eq_ok,
        Except.ok.injEq] at h ⊢
      obtain ⟨review, hreview, _, ⟨_, -, _, -, _, -, rfl⟩, rfl⟩ := h
      exact ⟨review, hreview, rfl⟩
  | observationVerification =>
      simp only [hkind, federateVerification, bind_eq_ok, pure_eq_ok,
        Except.ok.injEq] at h ⊢
      obtain ⟨verification, hverification, _, ⟨_, -, _, -, rfl⟩, rfl⟩ := h
      refine ⟨verification, hverification, ?_⟩
      rw [linkFederatedStoryEvent_content]
  | storyLink =>
      simp only [hkind, federateStoryLink, bind_eq_ok, pure_eq_ok, Except.ok.injEq] at h ⊢
      obtain ⟨link, hlink, _, ⟨_, -, _, -, content, hfold, rfl⟩, rfl⟩ := h
      refine ⟨link, hlink, ?_⟩
      rw [linkFederatedStoryEvent_content]
      exact hfold
  | assessment =>
      simp only [hkind, federateAssessment, bind_eq_ok, pure_eq_ok, Except.ok.injEq] at h ⊢
      obtain ⟨assessment, hassessment, _, ⟨_, -, _, -, rfl⟩, rfl⟩ := h
      refine ⟨assessment, hassessment, ?_⟩
      rw [linkFederatedStoryEvent_content]
  | correction =>
      simp only [hkind, federateCorrection, bind_eq_ok, pure_eq_ok, Except.ok.injEq] at h ⊢
      obtain ⟨_, -, _, ⟨_, -, _, -, _, -, rfl⟩, rfl⟩ := h
      rw [linkTargets_content]
  | perspectiveGap | translation =>
      simp only [hkind, pure_eq_ok, Except.ok.injEq] at h ⊢
      rw [← h, linkTargets_content]
  | workClaim | workResult =>
      simp only [hkind, bind_eq_ok, pure_eq_ok, Except.ok.injEq] at h ⊢
      obtain ⟨_, -, _, -, rfl⟩ := h
      rfl
  | topicProposal | topicVote | forumPost | openPgpKey | directMessage =>
      simp only [hkind, bind_eq_ok, pure_eq_ok, Except.ok.injEq] at h ⊢
      obtain ⟨_, -, _, -, _, -, rfl⟩ := h
      rfl
  | repositoryPatch | codeReview | buildAttestation | releaseProposal | releaseReview =>
      simp only [hkind, bind_eq_ok, pure_eq_ok, Except.ok.injEq] at h ⊢
      obtain ⟨_, -, _, -, rfl⟩ := h
      rfl
  | verificationTrace | commitment | position | continuityCheckpoint =>
      simp only [hkind, pure_eq_ok, Except.ok.injEq] at h ⊢
      rw [h]

/-- An importer, which reads the canonical form, records what the node has
recorded. -/
theorem ContentTables.record_canonical {lineageId eventId : String}
    {contribution : SignedContribution} {content next : ContentTables}
    (h : content.record P lineageId eventId contribution = .ok next) :
    content.record P lineageId eventId (contribution.canonical P) = .ok next := by
  unfold ContentTables.record at h ⊢
  simp only [SignedContribution.canonical] at h ⊢
  cases hkind : contribution.kind with
  | sourceReview =>
      simp only [hkind, bind_eq_ok, pure_eq_ok, Except.ok.injEq] at h ⊢
      obtain ⟨review, hreview, rfl⟩ := h
      exact ⟨review, decodePayload_canon (SourceReviewPayload.stable P) hreview, rfl⟩
  | observationVerification =>
      simp only [hkind, bind_eq_ok, pure_eq_ok, Except.ok.injEq] at h ⊢
      obtain ⟨verification, hverification, rfl⟩ := h
      exact ⟨verification, decodePayload_canon (ObservationVerificationPayload.stable P)
        hverification, rfl⟩
  | storyLink =>
      simp only [hkind, bind_eq_ok] at h ⊢
      obtain ⟨link, hlink, hfold⟩ := h
      exact ⟨link, decodePayload_canon (StoryLinkPayload.stable P) hlink, hfold⟩
  | assessment =>
      simp only [hkind, bind_eq_ok, pure_eq_ok, Except.ok.injEq] at h ⊢
      obtain ⟨assessment, hassessment, rfl⟩ := h
      exact ⟨assessment, decodePayload_canon (AssessmentPayload.stable P) hassessment, rfl⟩
  | _ =>
      simp only [hkind] at h ⊢
      exact h

/-! ## What a contribution leaves alone -/

theorem federateLink_links {storyId eventId observationId : String}
    {content next : ContentTables}
    (h : federateLink storyId eventId content observationId = .ok next) :
    next.reviews = content.reviews ∧ next.observations = content.observations ∧
      next.storyObservations.map StoryObservationRow.observationId =
        content.storyObservations.map StoryObservationRow.observationId := by
  simp only [federateLink, bind_eq_ok, okOr_eq_ok] at h
  obtain ⟨oldStory, -, hnext⟩ := h
  split at hnext
  · cases hnext
    exact ⟨rfl, rfl, rfl⟩
  · cases hnext
    refine ⟨rfl, rfl, ?_⟩
    simp only [ContentTables.moveObservation]
    rw [map_updateWhere]
    intro _ _
    rfl

/-- A contribution changes the reviews by putting one of them, and it keeps the
observations and the set of those which are linked. -/
theorem ContentTables.record_frame {lineageId eventId : String}
    {contribution : SignedContribution} {content next : ContentTables}
    (h : content.record P lineageId eventId contribution = .ok next) :
    (next.reviews = content.reviews ∨ ∃ review, contribution.kind = .sourceReview ∧
      decodePayload (SourceReviewPayload.ofJson P) contribution.payload = .ok review ∧
      next = content.putReview (reviewRow P lineageId eventId contribution review)) ∧
    next.observations = content.observations ∧
    next.storyObservations.map StoryObservationRow.observationId =
      content.storyObservations.map StoryObservationRow.observationId := by
  unfold ContentTables.record at h
  cases hkind : contribution.kind with
  | sourceReview =>
      simp only [hkind, bind_eq_ok, pure_eq_ok, Except.ok.injEq] at h
      obtain ⟨review, hreview, rfl⟩ := h
      exact ⟨.inr ⟨review, rfl, hreview, rfl⟩, rfl, rfl⟩
  | observationVerification =>
      simp only [hkind, bind_eq_ok, pure_eq_ok, Except.ok.injEq] at h
      obtain ⟨verification, -, rfl⟩ := h
      exact ⟨.inl rfl, rfl, rfl⟩
  | storyLink =>
      simp only [hkind, bind_eq_ok] at h
      obtain ⟨link, -, hfold⟩ := h
      have hstep : ∀ (state : ContentTables) (observationId : String)
          (after : ContentTables),
          (state.reviews = content.reviews ∧ state.observations = content.observations ∧
            state.storyObservations.map StoryObservationRow.observationId =
              content.storyObservations.map StoryObservationRow.observationId) →
          federateLink link.storyId eventId state observationId = .ok after →
          (after.reviews = content.reviews ∧ after.observations = content.observations ∧
            after.storyObservations.map StoryObservationRow.observationId =
              content.storyObservations.map StoryObservationRow.observationId) := by
        rintro state observationId after ⟨hreviews, hobservations, hlinks⟩ hafter
        obtain ⟨hreviews', hobservations', hlinks'⟩ := federateLink_links hafter
        exact ⟨hreviews'.trans hreviews, hobservations'.trans hobservations,
          hlinks'.trans hlinks⟩
      obtain ⟨hreviews, hobservations, hlinks⟩ :=
        foldState_invariant hstep ⟨rfl, rfl, rfl⟩ hfold
      exact ⟨.inl hreviews, hobservations, hlinks⟩
  | assessment =>
      simp only [hkind, bind_eq_ok, pure_eq_ok, Except.ok.injEq] at h
      obtain ⟨assessment, -, rfl⟩ := h
      exact ⟨.inl rfl, rfl, rfl⟩
  | _ =>
      simp only [hkind, pure_eq_ok, Except.ok.injEq] at h
      subst h
      exact ⟨.inl rfl, rfl, rfl⟩

end

end Commonwake
