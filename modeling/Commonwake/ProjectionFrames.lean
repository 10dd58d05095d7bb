import Commonwake.Federation

/-!
# What recording an event leaves alone

Recording an event of an origin changes the tables which are derived from
the log of the origin, but not the stored log itself: `remote_events` is
written by `import_federation_bundle` only, after the event was recorded,
and `remote_checkpoints` after the last event.
-/

namespace Commonwake

open Outcome Table

/-- The stored log of an origin is the same in both. -/
structure OriginTables.SameLog (first second : OriginTables) : Prop where
  remoteEvents : second.remoteEvents = first.remoteEvents
  remoteCheckpoints : second.remoteCheckpoints = first.remoteCheckpoints

theorem OriginTables.SameLog.refl (tables : OriginTables) : tables.SameLog tables :=
  ⟨rfl, rfl⟩

theorem OriginTables.SameLog.trans {first second third : OriginTables}
    (h : first.SameLog second) (h' : second.SameLog third) : first.SameLog third :=
  ⟨h'.remoteEvents.trans h.remoteEvents,
    h'.remoteCheckpoints.trans h.remoteCheckpoints⟩

/-- The event with the given sequence was recorded: the stored log is the same,
and every new link of a story names this event. -/
structure OriginTables.Records (sequence : ℤ) (first second : OriginTables) : Prop
    extends first.SameLog second where
  storyEvents : ∀ event ∈ second.storyEvents,
    event ∈ first.storyEvents ∨ event.originSequence = sequence

/-- Nothing but the content tables may differ. -/
structure OriginTables.OnlyContent (sequence : ℤ) (first second : OriginTables) : Prop
    extends first.Records sequence second where
  lineages : second.lineages = first.lineages
  lineageKeys : second.lineageKeys = first.lineageKeys
  delegations : second.delegations = first.delegations

theorem OriginTables.Records.of_sameLog {sequence : ℤ} {first second : OriginTables}
    (h : first.SameLog second) (hkept : second.storyEvents = first.storyEvents) :
    first.Records sequence second :=
  ⟨h, fun _ hevent => .inl (hkept ▸ hevent)⟩

theorem OriginTables.OnlyContent.refl (sequence : ℤ) (tables : OriginTables) :
    tables.OnlyContent sequence tables :=
  ⟨.of_sameLog (.refl tables) rfl, rfl, rfl, rfl⟩

theorem OriginTables.OnlyContent.trans {sequence : ℤ} {first second third : OriginTables}
    (h : first.OnlyContent sequence second) (h' : second.OnlyContent sequence third) :
    first.OnlyContent sequence third := by
  refine ⟨⟨h.toSameLog.trans h'.toSameLog, ?_⟩, h'.lineages.trans h.lineages,
    h'.lineageKeys.trans h.lineageKeys, h'.delegations.trans h.delegations⟩
  intro event hevent
  rcases h'.storyEvents event hevent with hold | hnew
  · exact h.storyEvents event hold
  · exact .inr hnew

section

variable {P : Primitives}

theorem linkFederatedStoryEvent_onlyContent (storyId : String) (sequence : ℤ)
    (tables : OriginTables) :
    tables.OnlyContent sequence (linkFederatedStoryEvent storyId sequence tables) := by
  unfold linkFederatedStoryEvent
  split
  · refine ⟨⟨⟨rfl, rfl⟩, ?_⟩, rfl, rfl, rfl⟩
    intro event hevent
    rcases mem_insertOrIgnore hevent with hold | rfl
    · exact .inl hold
    · exact .inr rfl
  · exact .refl sequence tables

theorem linkTargets_onlyContent (event : OriginEvent) (targets : List String)
    (tables : OriginTables) : tables.OnlyContent event.sequence (linkTargets event targets tables) := by
  unfold linkTargets
  induction targets generalizing tables with
  | nil => exact .refl event.sequence tables
  | cons storyId rest ih =>
      exact (linkFederatedStoryEvent_onlyContent storyId event.sequence tables).trans
        (ih (linkFederatedStoryEvent storyId event.sequence tables))

/-! ## Authority events -/

theorem projectRegistration_records (event : OriginEvent) (tables : OriginTables) :
    Ensures (projectRegistration P event tables)
      fun result => tables.Records event.sequence result.2 := by
  unfold projectRegistration
  repeat refine Ensures.bind fun _ => ?_
  exact .pure (.of_sameLog ⟨rfl, rfl⟩ rfl)

theorem projectDelegation_records (event : OriginEvent) (tables : OriginTables) :
    Ensures (projectDelegation P event tables)
      fun result => tables.Records event.sequence result.2 := by
  unfold projectDelegation
  repeat refine Ensures.bind fun _ => ?_
  exact .pure (.of_sameLog ⟨rfl, rfl⟩ rfl)

theorem projectRevocation_records (event : OriginEvent) (tables : OriginTables) :
    Ensures (projectRevocation P event tables)
      fun result => tables.Records event.sequence result.2 := by
  unfold projectRevocation
  repeat refine Ensures.bind fun _ => ?_
  exact .pure (.of_sameLog ⟨rfl, rfl⟩ rfl)

theorem projectRotation_records (event : OriginEvent) (tables : OriginTables) :
    Ensures (projectRotation P event tables)
      fun result => tables.Records event.sequence result.2 := by
  unfold projectRotation
  repeat refine Ensures.bind fun _ => ?_
  exact .pure (.of_sameLog ⟨rfl, rfl⟩ rfl)

/-! ## Observations and contributions -/

theorem linkFederatedStoryEvent_content_onlyContent (storyId : String) (sequence : ℤ)
    (tables : OriginTables) (content : ContentTables) :
    tables.OnlyContent sequence
      (linkFederatedStoryEvent storyId sequence { tables with content := content }) := by
  have hcontent : tables.OnlyContent sequence { tables with content := content } :=
    ⟨.of_sameLog ⟨rfl, rfl⟩ rfl, rfl, rfl, rfl⟩
  exact hcontent.trans (linkFederatedStoryEvent_onlyContent storyId sequence _)

theorem projectFederatedObservation_onlyContent (sequence : ℤ)
    (observation : FederatedObservationPayload) (tables : OriginTables) :
    Ensures (projectFederatedObservation P sequence observation tables)
      fun next => tables.OnlyContent sequence next := by
  unfold projectFederatedObservation
  repeat refine Ensures.bind fun _ => ?_
  exact .pure (linkFederatedStoryEvent_content_onlyContent _ _ _ _)

theorem projectObservation_onlyContent (event : OriginEvent) (tables : OriginTables) :
    Ensures (projectObservation P event tables) fun next => tables.OnlyContent event.sequence next := by
  unfold projectObservation
  repeat first
    | exact projectFederatedObservation_onlyContent _ _ _
    | refine Ensures.bind fun _ => ?_

theorem federateSourceProposal_onlyContent (lineageId : String) (event : OriginEvent)
    (payload : SourceProposalPayload) (tables : OriginTables) :
    Ensures (federateSourceProposal P lineageId event payload tables)
      fun next => tables.OnlyContent event.sequence next := by
  unfold federateSourceProposal
  repeat refine Ensures.bind fun _ => ?_
  exact .pure ⟨.of_sameLog ⟨rfl, rfl⟩ rfl, rfl, rfl, rfl⟩

theorem federateSourceReview_onlyContent (lineageId : String) (event : OriginEvent)
    (contribution : SignedContribution) (payload : SourceReviewPayload)
    (tables : OriginTables) :
    Ensures (federateSourceReview P lineageId event contribution payload tables)
      fun next => tables.OnlyContent event.sequence next := by
  unfold federateSourceReview
  repeat refine Ensures.bind fun _ => ?_
  exact .pure ⟨.of_sameLog ⟨rfl, rfl⟩ rfl, rfl, rfl, rfl⟩

theorem federateVerification_onlyContent (lineageId : String) (event : OriginEvent)
    (contribution : SignedContribution) (payload : ObservationVerificationPayload)
    (tables : OriginTables) :
    Ensures (federateVerification P lineageId event contribution payload tables)
      fun next => tables.OnlyContent event.sequence next := by
  unfold federateVerification
  repeat refine Ensures.bind fun _ => ?_
  exact .pure (linkFederatedStoryEvent_content_onlyContent _ _ _ _)

theorem federateStoryLink_onlyContent (event : OriginEvent) (payload : StoryLinkPayload)
    (tables : OriginTables) :
    Ensures (federateStoryLink event payload tables)
      fun next => tables.OnlyContent event.sequence next := by
  unfold federateStoryLink
  repeat refine Ensures.bind fun _ => ?_
  exact .pure (linkFederatedStoryEvent_content_onlyContent _ _ _ _)

theorem federateAssessment_onlyContent (lineageId : String) (event : OriginEvent)
    (contribution : SignedContribution) (payload : AssessmentPayload)
    (tables : OriginTables) :
    Ensures (federateAssessment P lineageId event contribution payload tables)
      fun next => tables.OnlyContent event.sequence next := by
  unfold federateAssessment
  repeat refine Ensures.bind fun _ => ?_
  exact .pure (linkFederatedStoryEvent_content_onlyContent _ _ _ _)

theorem federateCorrection_onlyContent (event : OriginEvent)
    (contribution : SignedContribution) (payload : CorrectionPayload)
    (tables : OriginTables) :
    Ensures (federateCorrection event contribution payload tables)
      fun next => tables.OnlyContent event.sequence next := by
  unfold federateCorrection
  repeat refine Ensures.bind fun _ => ?_
  exact .pure (linkTargets_onlyContent _ _ _)

theorem federateKind_onlyContent (origin lineageId : String) (event : OriginEvent)
    (contribution : SignedContribution) (state : ImportState) :
    Ensures (federateKind P origin lineageId event contribution state)
      fun next => state.tables.OnlyContent event.sequence next.tables := by
  unfold federateKind
  cases contribution.kind with
  | sourceProposal =>
      refine Ensures.bind fun payload => ?_
      exact (federateSourceProposal_onlyContent _ _ _ _).seq fun _ h => .pure h
  | sourceReview =>
      refine Ensures.bind fun payload => ?_
      exact (federateSourceReview_onlyContent _ _ _ _ _).seq fun _ h => .pure h
  | observationVerification =>
      refine Ensures.bind fun payload => ?_
      exact (federateVerification_onlyContent _ _ _ _ _).seq fun _ h => .pure h
  | storyLink =>
      refine Ensures.bind fun payload => ?_
      exact (federateStoryLink_onlyContent _ _ _).seq fun _ h => .pure h
  | assessment =>
      refine Ensures.bind fun payload => ?_
      exact (federateAssessment_onlyContent _ _ _ _ _).seq fun _ h => .pure h
  | correction =>
      refine Ensures.bind fun payload => ?_
      exact (federateCorrection_onlyContent _ _ _ _).seq fun _ h => .pure h
  | perspectiveGap | translation =>
      exact .pure (linkTargets_onlyContent event contribution.targets state.tables)
  | workClaim | workResult =>
      repeat refine Ensures.bind fun _ => ?_
      exact .pure (.refl _ _)
  | topicProposal | topicVote | forumPost | openPgpKey | directMessage =>
      repeat refine Ensures.bind fun _ => ?_
      exact .pure (.refl _ _)
  | repositoryPatch | codeReview | buildAttestation | releaseProposal | releaseReview =>
      repeat refine Ensures.bind fun _ => ?_
      exact .pure (.refl _ _)
  | verificationTrace | commitment | position | continuityCheckpoint =>
      exact .pure (.refl _ _)

theorem projectContribution_onlyContent (origin : String) (event : OriginEvent)
    (state : ImportState) :
    Ensures (projectContribution P origin event state)
      fun result => state.tables.OnlyContent event.sequence result.2.tables := by
  have happly : ∀ lineageId contribution,
      Ensures (applyFederatedContribution P origin lineageId event contribution state)
        fun next => state.tables.OnlyContent event.sequence next.tables := by
    intro lineageId contribution
    unfold applyFederatedContribution
    repeat first
      | exact federateKind_onlyContent _ _ _ _ _
      | refine Ensures.bind fun _ => ?_
  unfold projectContribution
  repeat first
    | exact (happly _ _).seq fun _ h => .pure h
    | refine Ensures.bind fun _ => ?_

theorem validateAndProjectRemoteEvent_records (origin : String) (event : OriginEvent)
    (state : ImportState) :
    Ensures (validateAndProjectRemoteEvent P origin event state)
      fun result => state.tables.Records event.sequence result.2.tables := by
  unfold validateAndProjectRemoteEvent
  split
  · exact (projectRegistration_records _ _).seq fun _ h => .pure h
  · exact (projectDelegation_records _ _).seq fun _ h => .pure h
  · exact (projectRevocation_records _ _).seq fun _ h => .pure h
  · exact (projectRotation_records _ _).seq fun _ h => .pure h
  · exact Ensures.bind fun _ => .pure (.of_sameLog (.refl _) rfl)
  · exact (projectObservation_onlyContent _ _).seq fun _ h => .pure h.toRecords
  · exact Ensures.bind fun _ => .pure (.of_sameLog (.refl _) rfl)
  · intro result hresult
    exact (projectContribution_onlyContent origin event state result hresult).toRecords

/-- Recording an event keeps the stored log. -/
theorem validateAndProjectRemoteEvent_sameLog (origin : String) (event : OriginEvent)
    (state : ImportState) :
    Ensures (validateAndProjectRemoteEvent P origin event state)
      fun result => state.tables.SameLog result.2.tables := by
  intro result hresult
  exact (validateAndProjectRemoteEvent_records origin event state result hresult).toSameLog

end

end Commonwake
