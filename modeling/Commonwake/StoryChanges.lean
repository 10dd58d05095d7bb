import Commonwake.StorySteps

/-!
# Which stories have changed

The view of a story is put together from many tables, and the stories which
have changed are collected by queries of their own.  What an event changes is
collected under its sequence, except for the stories between which a link moves
observations: they are collected only where the link names them as its targets.
-/

namespace Commonwake

open Outcome Table

section

variable (P : Primitives)

/-- The story is among those which have changed in the window. -/
def Db.Reports (db : Db) (after through : ℤ) (storyId : String) : Prop :=
  ∃ ids, db.changedStoryIds P after through = .ok ids ∧ storyId ∈ ids

/-- The targets of the event name the story. -/
def EventRow.Targets (row : EventRow) (storyId : String) : Prop :=
  columnHolds P EventRow.targetsJson storyId row = .ok true

/-- The step logs the event, and a story which is not merged is shown differently from then
on. -/
structure ShowsChange (identity : NodeIdentity P) (node : NodeState) (action : Action)
    (row : EventRow) (storyId : String) : Prop where
  logged : (node.step P identity action).db.events = node.db.events ++ [row]
  unmerged : (node.step P identity action).db.content.hasUnmergedStory storyId = true
  changed : (node.step P identity action).db.storyView P storyId ≠ node.db.storyView P storyId

/-! ## The union of the queries -/

/-- Something about the story was recorded at the sequence. -/
inductive Db.ChangedAt (db : Db) (storyId : String) : ℤ → Prop
  | created (story : StoryRow) (hstory : story ∈ db.content.stories)
      (hid : story.storyId = storyId) (hunmerged : story.mergedInto = none) :
      ChangedAt db storyId story.createdSequence
  | observed (row : ObservationRow) (hrow : row ∈ db.content.observations)
      (hstory : db.content.storyOf? row.observationId = some storyId) :
      ChangedAt db storyId row.createdSequence
  | assessed (row : AssessmentRow) (sequence : ℤ) (hrow : row ∈ db.content.assessments)
      (hstory : row.storyId = storyId) (hevent : db.sequenceOf? row.eventId = some sequence) :
      ChangedAt db storyId sequence
  | verified (row : VerificationRow) (sequence : ℤ) (hrow : row ∈ db.content.verifications)
      (hstory : db.content.storyOf? row.observationId = some storyId)
      (hevent : db.sequenceOf? row.eventId = some sequence) :
      ChangedAt db storyId sequence
  | targeted (row : EventRow) (hrow : row ∈ db.events)
      (hkind : relatesToStories row.kind = true) (htargets : row.Targets P storyId)
      (hstory : db.content.hasStory storyId = true) :
      ChangedAt db storyId row.sequence

end

section

variable {P : Primitives} {db next : Db} {storyId : String}

theorem EventRow.targets_iff {row : EventRow} {texts : List String}
    (h : jsonEachText P row.targetsJson = .ok texts) :
    row.Targets P storyId ↔ storyId ∈ texts := by
  unfold EventRow.Targets columnHolds
  rw [h, ok_bind, pure_eq_ok, Except.ok.injEq, List.contains_iff_mem]

theorem mem_targetedStories {row : EventRow} {stories : List String}
    (h : db.targetedStories P row = .ok stories) :
    storyId ∈ stories ↔ row.Targets P storyId ∧ db.content.hasStory storyId = true := by
  simp only [Db.targetedStories, bind_eq_ok, pure_eq_ok, Except.ok.injEq] at h
  obtain ⟨texts, htexts, rfl⟩ := h
  rw [List.mem_filter, EventRow.targets_iff htexts]

theorem Db.mem_storyChanges {changes : List (String × ℤ)}
    (h : db.storyChanges P = .ok changes) {sequence : ℤ} :
    (storyId, sequence) ∈ changes ↔ db.ChangedAt P storyId sequence := by
  simp only [Db.storyChanges, bind_eq_ok, pure_eq_ok, Except.ok.injEq] at h
  obtain ⟨targeted, htraverse, rfl⟩ := h
  have htargeted : (storyId, sequence) ∈ targeted.flatten ↔
      ∃ row ∈ db.events, relatesToStories row.kind = true ∧ row.Targets P storyId ∧
        db.content.hasStory storyId = true ∧ row.sequence = sequence := by
    rw [List.mem_flatten]
    constructor
    · rintro ⟨entries, hentries, hentry⟩
      obtain ⟨row, hrow, hstories⟩ := (mem_traverse htraverse).mp hentries
      simp only [bind_eq_ok, Except.ok.injEq] at hstories
      obtain ⟨stories, hstories, rfl⟩ := hstories
      obtain ⟨hrow, hkind⟩ := List.mem_filter.mp hrow
      obtain ⟨story, hstory, heq⟩ := List.mem_map.mp hentry
      obtain ⟨rfl, hsequence⟩ := Prod.mk.inj heq
      obtain ⟨htargets, hexists⟩ := (mem_targetedStories hstories).mp hstory
      exact ⟨row, hrow, hkind, htargets, hexists, hsequence⟩
    · rintro ⟨row, hrow, hkind, htargets, hexists, rfl⟩
      have hmem : row ∈ db.events.filter fun row => relatesToStories row.kind :=
        List.mem_filter.mpr ⟨hrow, hkind⟩
      obtain ⟨entries, hentries⟩ := isOk_traverse.mp ⟨targeted, htraverse⟩ row hmem
      refine ⟨entries, (mem_traverse htraverse).mpr ⟨row, hmem, hentries⟩, ?_⟩
      simp only [bind_eq_ok, Except.ok.injEq] at hentries
      obtain ⟨stories, hstories, rfl⟩ := hentries
      exact List.mem_map.mpr ⟨storyId, (mem_targetedStories hstories).mpr ⟨htargets, hexists⟩,
        rfl⟩
  simp only [List.mem_append, htargeted, List.mem_map, List.mem_filter, List.mem_filterMap,
    Option.map_eq_some_iff, Option.bind_eq_bind, Option.bind_eq_some_iff, Option.pure_def,
    Option.some.injEq, Prod.mk.injEq, Option.isNone_iff_eq_none]
  constructor
  · rintro ((((⟨story, ⟨hstory, hunmerged⟩, hid, rfl⟩ | ⟨row, hrow, story, hstory, rfl, rfl⟩) |
      ⟨row, hrow, seq, hevent, hstory, rfl⟩) | ⟨row, hrow, seq, hevent, story, hstory, rfl, rfl⟩) |
      ⟨row, hrow, hkind, htargets, hexists, rfl⟩)
    · exact .created story hstory hid hunmerged
    · exact .observed row hrow hstory
    · exact .assessed row _ hrow hstory hevent
    · exact .verified row _ hrow hstory hevent
    · exact .targeted row hrow hkind htargets hexists
  · intro hchanged
    cases hchanged with
    | created story hstory hid hunmerged =>
        exact .inl (.inl (.inl (.inl ⟨story, ⟨hstory, hunmerged⟩, hid, rfl⟩)))
    | observed row hrow hstory =>
        exact .inl (.inl (.inl (.inr ⟨row, hrow, storyId, hstory, rfl, rfl⟩)))
    | assessed row _ hrow hstory hevent =>
        exact .inl (.inl (.inr ⟨row, hrow, sequence, hevent, hstory, rfl⟩))
    | verified row _ hrow hstory hevent =>
        exact .inl (.inr ⟨row, hrow, sequence, hevent, storyId, hstory, rfl, rfl⟩)
    | targeted row hrow hkind htargets hexists =>
        exact .inr ⟨row, hrow, hkind, htargets, hexists, rfl⟩

theorem Db.TargetsReadable.isOk_storyChanges (h : db.TargetsReadable P) :
    isOk (db.storyChanges P) := by
  unfold Db.storyChanges
  simp only [isOk_bind]
  have htargeted : isOk (Outcome.traverse (fun row : EventRow => do
      pure ((← db.targetedStories P row).map fun storyId => (storyId, row.sequence)))
      (db.events.filter fun row => relatesToStories row.kind)) := by
    rw [isOk_traverse]
    intro row hrow
    obtain ⟨texts, htexts⟩ := h row (List.mem_filter.mp hrow).1
    unfold Db.targetedStories
    rw [htexts]
    exact ⟨_, rfl⟩
  obtain ⟨targeted, htargeted⟩ := htargeted
  exact ⟨targeted, htargeted, _, rfl⟩

theorem Db.TargetsReadable.reports_iff (h : db.TargetsReadable P) {after through : ℤ} :
    db.Reports P after through storyId ↔
      ∃ sequence, db.ChangedAt P storyId sequence ∧ after < sequence ∧ sequence ≤ through := by
  obtain ⟨changes, hchanges⟩ := h.isOk_storyChanges
  have hmem : ∀ sequence, (storyId, sequence) ∈ changes ↔ db.ChangedAt P storyId sequence :=
    fun sequence => Db.mem_storyChanges hchanges
  unfold Db.Reports Db.changedStoryIds
  simp only [hchanges, ok_bind, pure_eq_ok, Except.ok.injEq, exists_eq_left', List.mem_mergeSort,
    List.mem_dedup, List.mem_map, List.mem_filter, inWindow, decide_eq_true_eq, Prod.exists,
    exists_and_right, exists_eq_right, hmem]

/-- Reported in every window around a sequence is what was recorded at the sequence. -/
theorem Db.TargetsReadable.reports_around (h : db.TargetsReadable P) {sequence : ℤ} :
    (∀ after through, after < sequence → sequence ≤ through →
      db.Reports P after through storyId) ↔ db.ChangedAt P storyId sequence := by
  constructor
  · intro hall
    obtain ⟨found, hchanged, hlow, hhigh⟩ := h.reports_iff.mp
      (hall (sequence - 1) sequence (by omega) le_rfl)
    have hsame : found = sequence := by omega
    rwa [← hsame]
  · intro hchanged after through hlow hhigh
    exact h.reports_iff.mpr ⟨sequence, hchanged, hlow, hhigh⟩

/-! ## Tables which hold the same about a story -/

namespace ContentTables.SameStory

variable {content next : ContentTables} {head : ℤ}
  {eventIds sourceIds lineageIds : List String}

theorem of_eq (hstories : next.stories = content.stories)
    (hobservations : next.observations = content.observations)
    (hlinks : next.storyObservations = content.storyObservations)
    (hverifications : next.verifications = content.verifications)
    (hassessments : next.assessments = content.assessments) :
    SameStory storyId content next := by
  refine ⟨by rw [hstories], by rw [hlinks], ?_, ?_, by rw [hassessments]⟩
  · intro link _ _
    rw [hobservations]
  · intro link _ _
    rw [hverifications]

theorem withObservation (h : content.Rooted head eventIds sourceIds lineageIds)
    {story : StoryRow} {observation : ObservationRow} (hother : story.storyId ≠ storyId) :
    SameStory storyId content (content.withObservation story observation) := by
  refine ⟨?_, ?_, ?_, fun _ _ _ => rfl, rfl⟩
  · obtain ⟨added, hstories, hadded⟩ := insertOrIgnore_eq_append
      (fun stored : StoryRow => stored.storyId == story.storyId) story content.stories
    have hnone : (added.find? fun row => row.storyId == storyId && row.mergedInto.isNone) =
        none := by
      rw [List.find?_eq_none]
      intro row hrow
      rw [hadded row hrow]
      simp [hother]
    unfold ContentTables.withObservation
    rw [hstories, List.find?_append, hnone, Option.or_none]
  · unfold ContentTables.withObservation
    rw [List.filter_append]
    simp [hother]
  · intro link hlink hstory
    exact find?_append_of_key (h.linked link hlink)

theorem putVerification (h : content.Rooted head eventIds sourceIds lineageIds)
    {verification : VerificationRow}
    (hother : content.storyOf? verification.observationId ≠ some storyId) :
    SameStory storyId content (content.putVerification verification) := by
  refine ⟨rfl, rfl, fun _ _ _ => rfl, ?_, rfl⟩
  intro link hlink hstory
  have hne : verification.observationId ≠ link.observationId := by
    intro hsame
    apply hother
    unfold ContentTables.storyOf?
    rw [hsame, find?_eq_some_of_nodup h.linksDistinct hlink, Option.map_some, hstory]
  apply filter_upsert_of_ne
  · simpa using hne
  · intro stored hsame
    rw [Bool.and_eq_true, beq_iff_eq] at hsame
    rw [hsame.1]
    simpa using hne

theorem putAssessment {assessment : AssessmentRow} (hother : assessment.storyId ≠ storyId) :
    SameStory storyId content (content.putAssessment assessment) := by
  refine ⟨rfl, rfl, fun _ _ _ => rfl, fun _ _ _ => rfl, ?_⟩
  apply filter_upsert_of_ne
  · simpa using hother
  · intro stored hsame
    rw [Bool.and_eq_true, beq_iff_eq] at hsame
    rw [hsame.1]
    simpa using hother

end ContentTables.SameStory

/-! ## What one event reports -/

namespace StoryStep

variable {row : EventRow}

theorem eventById?_own (h : StoryStep P db row next) :
    next.eventById? row.eventId = some row := by
  unfold Db.eventById?
  have hnone : (db.events.find? fun stored => stored.eventId == row.eventId) = none := by
    rw [List.find?_eq_none]
    intro stored hstored
    simpa using h.fresh stored hstored
  rw [h.events, List.find?_append, hnone, Option.none_or, List.find?_singleton,
    beq_self_eq_true]
  rfl

theorem sequenceOf?_own (h : StoryStep P db row next) :
    next.sequenceOf? row.eventId = some row.sequence := by
  unfold Db.sequenceOf?
  rw [h.eventById?_own]
  rfl

/-- What an earlier event recorded keeps its sequence. -/
theorem sequenceOf?_lt (h : StoryStep P db row next) (hrooted : db.StoriesRooted P)
    {eventId : String} {sequence : ℤ} (hknown : eventId ∈ db.events.map EventRow.eventId)
    (hsequence : next.sequenceOf? eventId = some sequence) : sequence < row.sequence := by
  unfold Db.sequenceOf? at hsequence
  rw [h.eventById?_eq hknown] at hsequence
  obtain ⟨stored, hfound, rfl⟩ := Option.map_eq_some_iff.mp hsequence
  have hbound := hrooted.numbered stored (List.mem_of_find?_eq_some hfound)
  rw [h.sequence]
  omega

/-- The related events of a story change only by an event which names it. -/
theorem relatedStoryEvents_eq (h : StoryStep P db row next)
    (hother : relatesToStories row.kind = true → ¬ row.Targets P storyId) :
    next.relatedStoryEvents P storyId = db.relatedStoryEvents P storyId := by
  unfold Db.relatedStoryEvents
  rw [h.events, List.filter_append]
  by_cases hrelates : relatesToStories row.kind = true
  · obtain ⟨texts, htexts⟩ := h.readable
    have hnot := hother hrelates
    rw [EventRow.targets_iff htexts] at hnot
    have hcolumn : columnHolds P EventRow.targetsJson storyId row = .ok false := by
      unfold columnHolds
      rw [htexts, ok_bind, pure_eq_ok, Except.ok.injEq]
      simpa using hnot
    have hone : ([row].filter fun row => relatesToStories row.kind) = [row] := by
      rw [List.filter_singleton, hrelates]
      rfl
    rw [hone, filterOk_concat_of_false hcolumn]
  · have hnone : ([row].filter fun row => relatesToStories row.kind) = [] := by
      rw [List.filter_singleton, eq_false_of_ne_true hrelates]
      rfl
    rw [hnone, List.append_nil]

/-- An event which is not a link, and records nothing about a story, leaves what the tables
hold about it. -/
theorem sameStory (h : StoryStep P db row next) (hrooted : db.StoriesRooted P)
    (hkind : row.kind ≠ "story_link")
    (hchanged : ¬ next.ChangedAt P storyId row.sequence) :
    ContentTables.SameStory storyId db.content next.content := by
  have hcontent := hrooted.content
  have heffect := h.effect
  generalize hnext : next.content = content at heffect
  cases heffect with
  | other _ _ hstories hobservations hlinks hverifications hassessments =>
      exact .of_eq hstories hobservations hlinks hverifications hassessments
  | observe story observation _ _ _ hobservation _ hunlinked =>
      apply ContentTables.SameStory.withObservation hcontent
      intro hsame
      apply hchanged
      have hstoryOf : next.content.storyOf? observation.observationId = some storyId := by
        have hnone : (db.content.storyObservations.find? fun link =>
            link.observationId == observation.observationId) = none := by
          rw [List.find?_eq_none]
          rw [List.any_eq_false] at hunlinked
          exact hunlinked
        rw [hnext]
        unfold ContentTables.storyOf? ContentTables.withObservation
        rw [List.find?_append, hnone, Option.none_or, List.find?_singleton, beq_self_eq_true,
          ← hsame]
        rfl
      rw [← hobservation]
      apply Db.ChangedAt.observed observation _ hstoryOf
      rw [hnext]
      exact List.mem_append_right _ List.mem_cons_self
  | verify verification _ hevent =>
      apply ContentTables.SameStory.putVerification hcontent
      intro hstory
      apply hchanged
      apply Db.ChangedAt.verified verification
      · rw [hnext]
        exact mem_upsert_iff.mpr (.inl rfl)
      · rw [hnext]
        exact hstory
      · rw [hevent]
        exact h.sequenceOf?_own
  | assess assessment _ hevent _ =>
      apply ContentTables.SameStory.putAssessment
      intro hstory
      apply hchanged
      apply Db.ChangedAt.assessed assessment
      · rw [hnext]
        exact mem_upsert_iff.mpr (.inl rfl)
      · exact hstory
      · rw [hevent]
        exact h.sequenceOf?_own
  | link _ _ _ hlink => exact absurd hlink hkind

theorem targeted (h : StoryStep P db row next) (hrelates : relatesToStories row.kind = true)
    (htargets : row.Targets P storyId) (hstory : next.content.hasStory storyId = true) :
    next.ChangedAt P storyId row.sequence := by
  apply Db.ChangedAt.targeted row _ hrelates htargets hstory
  rw [h.events]
  exact List.mem_append_right _ List.mem_cons_self

/-- Whatever an event which is not a link shows differently, it records. -/
theorem changedAt (h : StoryStep P db row next) (hrooted : db.StoriesRooted P)
    (hkind : row.kind ≠ "story_link") (hstory : next.content.hasStory storyId = true)
    (hview : next.storyView P storyId ≠ db.storyView P storyId) :
    next.ChangedAt P storyId row.sequence := by
  by_contra hchanged
  apply hview
  have hrelated : relatesToStories row.kind = true → ¬ row.Targets P storyId :=
    fun hrelates htargets => hchanged (h.targeted hrelates htargets hstory)
  unfold Db.storyView
  rw [storyViewBody_congr (h.agrees hrooted) (h.sameStory hrooted hkind hchanged),
    h.relatedStoryEvents_eq hrelated]

/-- A link records nothing about the stories except that it names them. -/
theorem changedAt_link (h : StoryStep P db row next) (hrooted : db.StoriesRooted P)
    (hkind : row.kind = "story_link") (hstory : next.content.hasStory storyId = true) :
    next.ChangedAt P storyId row.sequence ↔ row.Targets P storyId := by
  have hrelates : relatesToStories row.kind = true := by
    rw [hkind]
    decide
  constructor
  · intro hchanged
    have hcontent := hrooted.content
    have heffect := h.effect
    have hhead := h.sequence
    generalize hnext : next.content = content at heffect
    generalize hsequence : row.sequence = sequence at hchanged
    cases heffect with
    | other _ hother => exact absurd hkind hother
    | observe _ _ hother | verify _ hother | assess _ hother =>
        rw [hrelates] at hother
        cases hother
    | link _ _ _ _ hfold =>
        have hrelinked := ContentTables.relinked_of_fold hfold
        cases hchanged with
        | created story hmem _ _ =>
            have hmapped : story.createdSequence ∈ content.stories.map
                StoryRow.createdSequence := by
              rw [← hnext]
              exact List.mem_map_of_mem hmem
            rw [hrelinked.stories] at hmapped
            obtain ⟨old, hold, hsame⟩ := List.mem_map.mp hmapped
            have hbound := hcontent.stories old hold
            omega
        | observed stored hmem _ =>
            rw [hnext, hrelinked.observations] at hmem
            have hbound := (hcontent.observations stored hmem).1
            omega
        | assessed stored _ hmem _ hevent =>
            rw [hnext, hrelinked.assessments] at hmem
            have hbound := h.sequenceOf?_lt hrooted (hcontent.assessments stored hmem).1 hevent
            omega
        | verified stored _ hmem _ hevent =>
            rw [hnext, hrelinked.verifications] at hmem
            have hbound := h.sequenceOf?_lt hrooted (hcontent.verifications stored hmem) hevent
            omega
        | targeted stored hmem _ htargets _ =>
            rw [h.events] at hmem
            rcases List.mem_append.mp hmem with hold | hnew
            · have hbound := hrooted.numbered stored hold
              omega
            · rwa [← List.mem_singleton.mp hnew]
  · intro htargets
    exact h.targeted hrelates htargets hstory

end StoryStep

/-- A step which makes the log longer logs one event. -/
theorem NodeState.storyStep_of_logged (node : NodeState) {identity : NodeIdentity P}
    {action : Action} (h : (node.step P identity action).db.events.length =
      node.db.events.length + 1) :
    ∃ row, StoryStep P node.db row (node.step P identity action).db := by
  rcases node.step_storyStep action with hquiet | hstep
  · rw [hquiet.events] at h
    omega
  · exact hstep

/-- In every run, the stories which an event shows differently and which are not merged are
reported as changed, except that a link reports only those of them which it names. -/
theorem run_storyChanges (P : Primitives) (identity : NodeIdentity P) (actions : List Action)
    (action : Action) (row : EventRow) (storyId : String)
    (h : ShowsChange P identity (NodeState.run P identity actions) action row storyId) :
    (∀ after through, after < row.sequence → row.sequence ≤ through →
      (NodeState.run P identity (actions ++ [action])).db.Reports P after through storyId) ↔
        (row.kind = "story_link" → row.Targets P storyId) := by
  have hrooted := run_storiesRooted identity actions
  have hnext := run_storiesRooted identity (actions ++ [action])
  obtain ⟨hlogged, hunmerged, hchanged⟩ := h
  rw [NodeState.run_append_singleton] at hnext ⊢
  generalize NodeState.run P identity actions = node at *
  have hstory : (node.step P identity action).db.content.hasStory storyId = true := by
    obtain ⟨story, hmem, hid, -⟩ := ContentTables.hasUnmergedStory_eq_true.mp hunmerged
    exact List.any_eq_true.mpr ⟨story, hmem, by simpa using hid⟩
  rw [hnext.readable.reports_around]
  rcases node.step_storyStep action with hquiet | ⟨logged, hstep⟩
  · rw [hquiet.events] at hlogged
    simp at hlogged
  · have hrow : logged = row := by
      have hsame := hstep.events.symm.trans hlogged
      simpa using hsame
    subst hrow
    by_cases hkind : logged.kind = "story_link"
    · rw [hstep.changedAt_link hrooted hkind hstory]
      exact ⟨fun htargets _ => htargets, fun hlink => hlink hkind⟩
    · exact iff_of_true (hstep.changedAt hrooted hkind hstory hchanged)
        fun hlink => absurd hlink hkind

/-- The number of observations which the view of a story shows. -/
def Db.shownObservations (db : Db) (storyId : String) : ℕ :=
  (((db.content.storyObservations.filter fun link => link.storyId == storyId).filterMap
    fun link => db.content.observations.find? fun row =>
      row.observationId == link.observationId).filterMap
    fun row => (db.storyContext.sourceName? row.sourceId).map fun name => (row, name)).length

theorem Db.length_observations_storyView {view : StoryView}
    (h : db.storyView P storyId = .ok view) :
    view.observations.length = db.shownObservations storyId := by
  simp only [Db.storyView, storyViewBody, bind_eq_ok, pure_eq_ok, Except.ok.injEq] at h
  obtain ⟨_, ⟨_, -, observations, hobservations, _, -, _, -, _, -, rfl⟩, _, -, rfl⟩ := h
  have hlength := congrArg List.length (traverse_eq_ok.mp hobservations)
  rw [List.length_map, List.length_map] at hlength
  rw [← hlength, observationsOf, List.length_mergeSort]
  rfl

end

namespace Sample

/-- The run in which two stories are merged, before its link is committed. -/
def checkedLinkRun : List Action := mergedRun.dropLast

/-- The story into which the link moves the first observation. -/
def gainingStory : String := storyIdOf library secondObservation

instance checkedLinkRun_shown : Fact
    (let node := NodeState.run library origin checkedLinkRun
    let next := (node.step library origin (.commit 0 0)).db
    node.db.head = 13 ∧ next.events.length = node.db.events.length + 1 ∧
    next.content.hasUnmergedStory gainingStory = true ∧
    isOk (node.db.storyView library gainingStory) ∧
    node.db.shownObservations gainingStory = 1 ∧ next.shownObservations gainingStory = 2 ∧
    ∀ ids, next.changedStoryIds library 13 14 = .ok ids → gainingStory ∉ ids) :=
  ⟨by decide +kernel⟩

/-- A link without targets gives an observation to a story, and nothing reports it. -/
theorem checkedLinkRun_unreported :
    ∃ row, ShowsChange library origin (NodeState.run library origin checkedLinkRun)
        (.commit 0 0) row gainingStory ∧
      ¬ ∀ after through, after < row.sequence → row.sequence ≤ through →
        (NodeState.run library origin (checkedLinkRun ++ [.commit 0 0])).db.Reports library
          after through gainingStory := by
  obtain ⟨hhead, hlength, hunmerged, ⟨view, hview⟩, hbefore, hafter, hids⟩ :=
    checkedLinkRun_shown.out
  rw [NodeState.run_append_singleton]
  generalize NodeState.run library origin checkedLinkRun = node at *
  obtain ⟨row, hstep⟩ := node.storyStep_of_logged hlength
  refine ⟨row, ⟨hstep.events, hunmerged, ?_⟩, ?_⟩
  · intro hsame
    have hcount := Db.length_observations_storyView hview
    have hcount' := Db.length_observations_storyView (hsame.trans hview)
    omega
  · intro hreports
    have hsequence : row.sequence = 14 := by rw [hstep.sequence, hhead]; rfl
    obtain ⟨ids, hchanged, hmem⟩ := hreports 13 14 (by omega) (by omega)
    exact hids ids hchanged hmem

instance openRun_observed : Fact
    (let node := NodeState.run library origin openRun
    let next := (node.step library origin (observe (feedEntry "https://1" "one"))).db
    next.events.length = node.db.events.length + 1 ∧
    next.events.getLast?.map (·.kind) = some "observation" ∧
    next.content.hasUnmergedStory (storyIdOf library firstObservation) = true ∧
    ¬ isOk (node.db.storyView library (storyIdOf library firstObservation)) ∧
    isOk (next.storyView library (storyIdOf library firstObservation))) :=
  ⟨by decide +kernel⟩

/-- A new story is reported around its observation. -/
theorem run_storyChanges_observed :
    ∃ row : EventRow, ∀ after through, after < row.sequence → row.sequence ≤ through →
      (NodeState.run library origin
        (openRun ++ [observe (feedEntry "https://1" "one")])).db.Reports library after through
          (storyIdOf library firstObservation) := by
  obtain ⟨hlength, hkind, hunmerged, hbefore, hafter⟩ := openRun_observed.out
  obtain ⟨row, hstep⟩ := (NodeState.run library origin openRun).storyStep_of_logged hlength
  have hobservation : row.kind = "observation" := by
    rw [hstep.events, List.getLast?_concat, Option.map_some, Option.some.injEq] at hkind
    exact hkind
  refine ⟨row, (run_storyChanges library origin openRun _ row _
    ⟨hstep.events, hunmerged, ?_⟩).mpr ?_⟩
  · intro hsame
    rw [hsame] at hafter
    exact hbefore hafter
  · intro hlink
    rw [hobservation] at hlink
    exact absurd hlink (by decide)

end Sample

end Commonwake
