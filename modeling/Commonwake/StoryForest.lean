import Commonwake.ContentReplay

/-!
# The forest of stories

Stories are merged into one another when their last observation is linked
elsewhere.  As long as observations are linked to stories which are not
merged, every observation belongs to one such story, exactly the empty stories
are merged, and every chain of merges ends.
-/

namespace Commonwake

open Outcome Table TextBytes

namespace ContentTables

/-- Following the merges from a story ends at one which is not merged. -/
inductive Settles (content : ContentTables) : String → Prop
  | unmerged (story : StoryRow) (hstory : story ∈ content.stories)
      (hmerged : story.mergedInto = none) : Settles content story.storyId
  | merged (story : StoryRow) (target : String) (hstory : story ∈ content.stories)
      (hmerged : story.mergedInto = some target) (htarget : Settles content target) :
      Settles content story.storyId

/-- The story has an observation. -/
def IsInhabited (content : ContentTables) (storyId : String) : Prop :=
  ∃ link ∈ content.storyObservations, link.storyId = storyId

/-- There is one row for every story, every observation belongs to exactly one
story, which is not merged, the merged stories are those without observations,
and every chain of merges ends. -/
structure IsForest (content : ContentTables) : Prop where
  distinct : (content.stories.map StoryRow.storyId).Nodup
  one_story : ∀ observation ∈ content.observations,
    content.storyObservations.countP (fun link =>
      link.observationId == observation.observationId) = 1
  unmerged : ∀ link ∈ content.storyObservations,
    ∃ story ∈ content.stories, story.storyId = link.storyId ∧ story.mergedInto = none
  merged_iff : ∀ story ∈ content.stories,
    story.mergedInto ≠ none ↔ ¬ content.IsInhabited story.storyId
  settles : ∀ story ∈ content.stories, content.Settles story.storyId

/-- What has to be known besides, so that every event keeps the forest: a story
is named after an observation. -/
structure StoriesSound (P : Primitives) (content : ContentTables) : Prop where
  forest : content.IsForest
  linksDistinct : (content.storyObservations.map StoryObservationRow.observationId).Nodup
  named : ∀ story ∈ content.stories, ∃ observation ∈ content.observations,
    story.storyId = storyIdOf P observation.observationId

/-! ## The tables behind the stories -/

theorem hasUnmergedStory_eq_true {content : ContentTables} {storyId : String} :
    content.hasUnmergedStory storyId = true ↔
      ∃ story ∈ content.stories, story.storyId = storyId ∧ story.mergedInto = none := by
  simp [hasUnmergedStory]

theorem mem_of_storyOf? {content : ContentTables} {observationId storyId : String}
    (h : content.storyOf? observationId = some storyId) :
    ∃ link ∈ content.storyObservations, link.observationId = observationId ∧
      link.storyId = storyId := by
  unfold storyOf? at h
  obtain ⟨link, hfind, hstory⟩ := Option.map_eq_some_iff.mp h
  have htest := List.find?_some hfind
  exact ⟨link, List.mem_of_find?_eq_some hfind, by simpa using htest, hstory⟩

/-- A story has one row. -/
theorem IsForest.eq_of_storyId {content : ContentTables} (h : content.IsForest)
    {first second : StoryRow} (hfirst : first ∈ content.stories)
    (hsecond : second ∈ content.stories) (hid : first.storyId = second.storyId) :
    first = second :=
  List.inj_on_of_nodup_map h.distinct hfirst hsecond hid

theorem IsForest.inhabited_iff {content : ContentTables} (h : content.IsForest)
    {story : StoryRow} (hstory : story ∈ content.stories) :
    content.IsInhabited story.storyId ↔ story.mergedInto = none := by
  have hmerged := h.merged_iff story hstory
  tauto

/-- The forest depends on three tables only. -/
theorem IsForest.congr {content next : ContentTables} (h : content.IsForest)
    (hstories : next.stories = content.stories)
    (hobservations : next.observations = content.observations)
    (hlinks : next.storyObservations = content.storyObservations) : next.IsForest := by
  have hsettles : ∀ storyId, content.Settles storyId → next.Settles storyId := by
    intro storyId hstory
    induction hstory with
    | unmerged story hstory hmerged => exact .unmerged story (hstories ▸ hstory) hmerged
    | merged story target hstory hmerged _ ih =>
        exact .merged story target (hstories ▸ hstory) hmerged ih
  have hinhabited : ∀ storyId, next.IsInhabited storyId ↔ content.IsInhabited storyId := by
    intro storyId
    unfold IsInhabited
    rw [hlinks]
  refine ⟨?_, ?_, ?_, ?_, ?_⟩
  · rw [hstories]
    exact h.distinct
  · rw [hobservations, hlinks]
    exact h.one_story
  · rw [hlinks, hstories]
    exact h.unmerged
  · rw [hstories]
    intro story hstory
    rw [hinhabited]
    exact h.merged_iff story hstory
  · rw [hstories]
    intro story hstory
    exact hsettles _ (h.settles story hstory)

theorem StoriesSound.congr {P : Primitives} {content next : ContentTables}
    (h : content.StoriesSound P) (hstories : next.stories = content.stories)
    (hobservations : next.observations = content.observations)
    (hlinks : next.storyObservations = content.storyObservations) :
    next.StoriesSound P := by
  refine ⟨h.forest.congr hstories hobservations hlinks, ?_, ?_⟩
  · rw [hlinks]
    exact h.linksDistinct
  · rw [hstories, hobservations]
    exact h.named

/-! ## Moving an observation -/

section

variable {content : ContentTables} {storyId eventId oldStory observationId : String}

theorem mem_links_moveObservation {link : StoryObservationRow} :
    link ∈ (content.moveObservation storyId eventId oldStory
        observationId).storyObservations ↔
      ∃ old ∈ content.storyObservations, (if old.observationId == observationId
        then { old with storyId := storyId, linkedEventId := some eventId } else old) =
          link :=
  mem_updateWhere

/-- The stories which are inhabited after the move. -/
theorem isInhabited_moveObservation
    (hold : content.storyOf? observationId = some oldStory) (other : String) :
    (content.moveObservation storyId eventId oldStory observationId).IsInhabited other ↔
      other = storyId ∨ ∃ link ∈ content.storyObservations,
        link.observationId ≠ observationId ∧ link.storyId = other := by
  unfold IsInhabited
  simp only [mem_links_moveObservation]
  constructor
  · rintro ⟨_, ⟨old, hmem, rfl⟩, rfl⟩
    by_cases hsame : old.observationId = observationId
    · simp [hsame]
    · simp only [hsame, beq_iff_eq, if_false]
      exact .inr ⟨old, hmem, hsame, rfl⟩
  · rintro (rfl | ⟨link, hlink, hother, rfl⟩)
    · obtain ⟨link, hlink, hid, -⟩ := mem_of_storyOf? hold
      exact ⟨_, ⟨link, hlink, rfl⟩, by simp [hid]⟩
    · exact ⟨_, ⟨link, hlink, rfl⟩, by simp [hother]⟩

/-- A story which is neither left nor entered is as inhabited as before. -/
theorem isInhabited_moveObservation_of_ne (hdistinct :
      (content.storyObservations.map StoryObservationRow.observationId).Nodup)
    (hold : content.storyOf? observationId = some oldStory) {other : String}
    (hne : other ≠ storyId) (hneOld : other ≠ oldStory) :
    (content.moveObservation storyId eventId oldStory observationId).IsInhabited other ↔
      content.IsInhabited other := by
  rw [isInhabited_moveObservation hold]
  obtain ⟨moved, hmoved, hid, hstory⟩ := mem_of_storyOf? hold
  constructor
  · rintro (rfl | ⟨link, hlink, -, rfl⟩)
    · exact absurd rfl hne
    · exact ⟨link, hlink, rfl⟩
  · rintro ⟨link, hlink, rfl⟩
    refine .inr ⟨link, hlink, ?_, rfl⟩
    intro hsame
    have heq : link = moved :=
      List.inj_on_of_nodup_map hdistinct hlink hmoved (hsame.trans hid.symm)
    exact hneOld (heq ▸ hstory)

/-- The rows of the stories after the move. -/
theorem stories_moveObservation :
    (content.moveObservation storyId eventId oldStory observationId).stories =
      if (content.moveObservation storyId eventId oldStory
          observationId).storyObservations.countP (fun row => row.storyId == oldStory) = 0
      then updateWhere (fun row => row.storyId == oldStory)
        (fun row => { row with mergedInto := some storyId }) content.stories
      else content.stories := rfl

theorem countP_eq_zero_iff_not_isInhabited (content : ContentTables) (storyId : String) :
    content.storyObservations.countP (fun row => row.storyId == storyId) = 0 ↔
      ¬ content.IsInhabited storyId := by
  rw [List.countP_eq_zero]
  unfold IsInhabited
  simp

theorem map_observationId_moveObservation :
    (content.moveObservation storyId eventId oldStory observationId).storyObservations.map
      StoryObservationRow.observationId =
      content.storyObservations.map StoryObservationRow.observationId := by
  unfold moveObservation
  rw [map_updateWhere]
  intro _ _
  rfl

theorem map_storyId_moveObservation :
    (content.moveObservation storyId eventId oldStory observationId).stories.map
      StoryRow.storyId = content.stories.map StoryRow.storyId := by
  rw [stories_moveObservation]
  split
  · rw [map_updateWhere]
    intro _ _
    rfl
  · rfl

/-- A story which is not left keeps its row. -/
theorem mem_stories_moveObservation {story : StoryRow} (hne : story.storyId ≠ oldStory) :
    story ∈ (content.moveObservation storyId eventId oldStory observationId).stories ↔
      story ∈ content.stories := by
  rw [stories_moveObservation]
  split
  · rw [mem_updateWhere]
    constructor
    · rintro ⟨old, hold, rfl⟩
      by_cases hsame : old.storyId = oldStory
      · simp [hsame] at hne
      · simpa [hsame] using hold
    · intro hstory
      exact ⟨story, hstory, by simp [hne]⟩
  · rfl

/-- A story which keeps an observation is not merged. -/
theorem stories_moveObservation_of_inhabited
    (h : (content.moveObservation storyId eventId oldStory observationId).IsInhabited
      oldStory) :
    (content.moveObservation storyId eventId oldStory observationId).stories =
      content.stories := by
  have hcount := (countP_eq_zero_iff_not_isInhabited (content.moveObservation storyId
    eventId oldStory observationId) oldStory).not.mpr (not_not.mpr h)
  rw [stories_moveObservation, if_neg hcount]

theorem stories_moveObservation_of_left
    (h : ¬ (content.moveObservation storyId eventId oldStory observationId).IsInhabited
      oldStory) :
    (content.moveObservation storyId eventId oldStory observationId).stories =
      updateWhere (fun row => row.storyId == oldStory)
        (fun row => { row with mergedInto := some storyId }) content.stories := by
  have hcount := (countP_eq_zero_iff_not_isInhabited (content.moveObservation storyId
    eventId oldStory observationId) oldStory).mpr h
  rw [stories_moveObservation, if_pos hcount]

/-- The chains of merges still end: only a story at the end of a chain can be
left, and it is merged into another one. -/
theorem Settles.moveObservation {target : StoryRow} (h : content.IsForest)
    (hinhabited : content.IsInhabited oldStory)
    (htarget : target ∈ (content.moveObservation storyId eventId oldStory
      observationId).stories)
    (htargetId : target.storyId = storyId) (htargetMerged : target.mergedInto = none)
    {other : String} (hother : content.Settles other) :
    (content.moveObservation storyId eventId oldStory observationId).Settles other := by
  induction hother with
  | unmerged story hstory hmerged =>
      by_cases hid : story.storyId = oldStory
      · by_cases hleft : (content.moveObservation storyId eventId oldStory
            observationId).IsInhabited oldStory
        · rw [← stories_moveObservation_of_inhabited hleft] at hstory
          exact .unmerged story hstory hmerged
        · have hrow : { story with mergedInto := some storyId } ∈
              (content.moveObservation storyId eventId oldStory observationId).stories := by
            rw [stories_moveObservation_of_left hleft]
            exact mem_updateWhere.mpr ⟨story, hstory, by simp [hid]⟩
          have hsettled := Settles.unmerged target htarget htargetMerged
          rw [htargetId] at hsettled
          exact .merged { story with mergedInto := some storyId } storyId hrow rfl hsettled
      · rw [← mem_stories_moveObservation hid] at hstory
        exact .unmerged story hstory hmerged
  | merged story next hstory hmerged _ ih =>
      by_cases hid : story.storyId = oldStory
      · have hnone := (h.inhabited_iff hstory).mp (hid ▸ hinhabited)
        rw [hmerged] at hnone
        cases hnone
      · rw [← mem_stories_moveObservation hid] at hstory
        exact .merged story next hstory hmerged ih

/-- Moving an observation to a story which is not merged keeps the forest. -/
theorem IsForest.moveObservation (h : content.IsForest) (hdistinct :
      (content.storyObservations.map StoryObservationRow.observationId).Nodup)
    (hold : content.storyOf? observationId = some oldStory) (hne : oldStory ≠ storyId)
    (htarget : content.hasUnmergedStory storyId = true) :
    (content.moveObservation storyId eventId oldStory observationId).IsForest := by
  obtain ⟨target, htargetMem, htargetId, htargetMerged⟩ := hasUnmergedStory_eq_true.mp htarget
  obtain ⟨moved, hmoved, -, hmovedStory⟩ := mem_of_storyOf? hold
  have htargetNext : target ∈ (content.moveObservation storyId eventId oldStory
      observationId).stories := by
    rw [mem_stories_moveObservation (by rw [htargetId]; exact hne.symm)]
    exact htargetMem
  have hinhabited : ∀ story ∈ content.stories, story.storyId ≠ oldStory →
      ((content.moveObservation storyId eventId oldStory observationId).IsInhabited
        story.storyId ↔ content.IsInhabited story.storyId) := by
    intro story hstory hneOld
    by_cases hsame : story.storyId = storyId
    · have htargetInhabited := (h.inhabited_iff htargetMem).mpr htargetMerged
      rw [htargetId, ← hsame] at htargetInhabited
      rw [isInhabited_moveObservation hold]
      exact iff_of_true (.inl hsame) htargetInhabited
    · exact isInhabited_moveObservation_of_ne hdistinct hold hsame hneOld
  have hleaves : content.IsInhabited oldStory := ⟨moved, hmoved, hmovedStory⟩
  refine ⟨?_, ?_, ?_, ?_, ?_⟩
  · rw [map_storyId_moveObservation]
    exact h.distinct
  · intro observation hobservation
    have hcount := h.one_story observation hobservation
    have hids : (content.moveObservation storyId eventId oldStory
        observationId).storyObservations.map StoryObservationRow.observationId =
        content.storyObservations.map StoryObservationRow.observationId :=
      map_observationId_moveObservation
    have hsame := congrArg (List.countP (· == observation.observationId)) hids
    rw [List.countP_map, List.countP_map] at hsame
    rw [← hcount]
    exact hsame
  · intro link hlink
    obtain ⟨old, hold, rfl⟩ := mem_links_moveObservation.mp hlink
    by_cases hid : old.observationId = observationId
    · exact ⟨target, htargetNext, by simp [hid, htargetId], htargetMerged⟩
    · simp only [hid, beq_iff_eq, if_false] at hlink ⊢
      obtain ⟨story, hstory, hstoryId, hmerged⟩ := h.unmerged old hold
      refine ⟨story, ?_, hstoryId, hmerged⟩
      by_cases hleft : story.storyId = oldStory
      · rw [stories_moveObservation_of_inhabited ⟨old, hlink, hstoryId.symm.trans hleft⟩]
        exact hstory
      · rw [mem_stories_moveObservation hleft]
        exact hstory
  · intro story hstory
    by_cases hid : story.storyId = oldStory
    · by_cases hleft : (content.moveObservation storyId eventId oldStory
          observationId).IsInhabited oldStory
      · rw [stories_moveObservation_of_inhabited hleft] at hstory
        have hnone := (h.inhabited_iff hstory).mp (hid ▸ hleaves)
        rw [hid]
        exact iff_of_false (not_not.mpr hnone) (not_not.mpr hleft)
      · rw [stories_moveObservation_of_left hleft, mem_updateWhere] at hstory
        obtain ⟨row, -, rfl⟩ := hstory
        by_cases hrow : row.storyId = oldStory
        · rw [hid]
          exact iff_of_true (by simp [hrow]) hleft
        · simp [hrow] at hid
    · rw [mem_stories_moveObservation hid] at hstory
      rw [hinhabited story hstory hid]
      exact h.merged_iff story hstory
  · intro story hstory
    have hid : story.storyId ∈ content.stories.map StoryRow.storyId := by
      rw [← map_storyId_moveObservation]
      exact List.mem_map_of_mem hstory
    obtain ⟨old, hold, hsame⟩ := List.mem_map.mp hid
    rw [← hsame]
    exact Settles.moveObservation h hleaves htargetNext htargetId htargetMerged
      (h.settles old hold)

end

/-! ## Reports -/

section

variable {P : Primitives} {content next : ContentTables} {storyId eventId : String}

theorem hasUnmergedStory_moveObservation {oldStory observationId : String}
    (hne : oldStory ≠ storyId) (h : content.hasUnmergedStory storyId = true) :
    (content.moveObservation storyId eventId oldStory observationId).hasUnmergedStory
      storyId = true := by
  obtain ⟨story, hstory, hid, hmerged⟩ := hasUnmergedStory_eq_true.mp h
  refine hasUnmergedStory_eq_true.mpr ⟨story, ?_, hid, hmerged⟩
  rw [mem_stories_moveObservation (by rw [hid]; exact hne.symm)]
  exact hstory

theorem StoriesSound.moveObservation {oldStory observationId : String}
    (h : content.StoriesSound P) (hold : content.storyOf? observationId = some oldStory)
    (hne : oldStory ≠ storyId) (htarget : content.hasUnmergedStory storyId = true) :
    (content.moveObservation storyId eventId oldStory observationId).StoriesSound P := by
  refine ⟨h.forest.moveObservation h.linksDistinct hold hne htarget, ?_, ?_⟩
  · rw [map_observationId_moveObservation]
    exact h.linksDistinct
  · intro story hstory
    have hid : story.storyId ∈ content.stories.map StoryRow.storyId := by
      rw [← map_storyId_moveObservation]
      exact List.mem_map_of_mem hstory
    obtain ⟨old, hold, hsame⟩ := List.mem_map.mp hid
    rw [← hsame]
    exact h.named old hold

/-- Linking observations to a story which is not merged. -/
theorem StoriesSound.links {observationIds : List String} (h : content.StoriesSound P)
    (htarget : content.hasUnmergedStory storyId = true)
    (hfold : foldState (federateLink storyId eventId) content observationIds =
      .ok next) : next.StoriesSound P := by
  have hstep : ∀ (state : ContentTables) (observationId : String) (after : ContentTables),
      (state.StoriesSound P ∧ state.hasUnmergedStory storyId = true) →
      federateLink storyId eventId state observationId = .ok after →
      (after.StoriesSound P ∧ after.hasUnmergedStory storyId = true) := by
    rintro state observationId after ⟨hsound, hunmerged⟩ hafter
    simp only [federateLink, bind_eq_ok, okOr_eq_ok] at hafter
    obtain ⟨oldStory, hold, hnext⟩ := hafter
    by_cases hsame : oldStory = storyId
    · rw [if_pos hsame] at hnext
      cases hnext
      exact ⟨hsound, hunmerged⟩
    · rw [if_neg hsame] at hnext
      cases hnext
      exact ⟨hsound.moveObservation hold hsame hunmerged,
        hasUnmergedStory_moveObservation hsame hunmerged⟩
  exact (foldState_invariant hstep ⟨h, htarget⟩ hfold).1

/-- A report, when its links name a story which is not merged. -/
theorem StoriesSound.record {lineageId : String} {contribution : SignedContribution}
    (h : content.StoriesSound P)
    (hlinks : contribution.kind = .storyLink → ∀ link,
      decodePayload (StoryLinkPayload.ofJson P) contribution.payload = .ok link →
      content.hasUnmergedStory link.storyId = true)
    (hrecord : content.record P lineageId eventId contribution = .ok next) :
    next.StoriesSound P := by
  unfold ContentTables.record at hrecord
  cases hkind : contribution.kind with
  | storyLink =>
      simp only [hkind, bind_eq_ok] at hrecord
      obtain ⟨link, hlink, hfold⟩ := hrecord
      exact h.links (hlinks hkind link hlink) hfold
  | sourceReview | observationVerification | assessment =>
      simp only [hkind, bind_eq_ok, pure_eq_ok, Except.ok.injEq] at hrecord
      obtain ⟨_, -, rfl⟩ := hrecord
      exact h.congr rfl rfl rfl
  | _ =>
      simp only [hkind, pure_eq_ok, Except.ok.injEq] at hrecord
      rw [← hrecord]
      exact h

/-! ## Observations -/

theorem Settles.mono {storyId : String} (hsub : content.stories ⊆ next.stories)
    (h : content.Settles storyId) : next.Settles storyId := by
  induction h with
  | unmerged story hstory hmerged => exact .unmerged story (hsub hstory) hmerged
  | merged story target hstory hmerged _ ih =>
      exact .merged story target (hsub hstory) hmerged ih

section

variable {story : StoryRow} {observation : ObservationRow}

theorem isInhabited_withObservation (storyId : String) :
    (content.withObservation story observation).IsInhabited storyId ↔
      content.IsInhabited storyId ∨ story.storyId = storyId := by
  unfold IsInhabited withObservation
  simp only [List.mem_append, List.mem_singleton]
  constructor
  · rintro ⟨link, hlink | rfl, hid⟩
    · exact .inl ⟨link, hlink, hid⟩
    · exact .inr hid
  · rintro (⟨link, hlink, hid⟩ | hid)
    · exact ⟨link, .inl hlink, hid⟩
    · exact ⟨_, .inr rfl, hid⟩

/-- Every observation keeps its one story, and so does the new one. -/
theorem IsForest.one_story_withObservation (h : content.IsForest)
    (hunlinked : (content.storyObservations.any fun stored =>
      stored.observationId == observation.observationId) = false) :
    ∀ stored ∈ (content.withObservation story observation).observations,
      (content.withObservation story observation).storyObservations.countP (fun link =>
        link.observationId == stored.observationId) = 1 := by
  have hnone : content.storyObservations.countP (fun link =>
      link.observationId == observation.observationId) = 0 := by
    rw [List.countP_eq_zero]
    rw [List.any_eq_false] at hunlinked
    exact hunlinked
  intro stored hstored
  unfold ContentTables.withObservation at hstored ⊢
  simp only at hstored ⊢
  rw [List.countP_append, List.countP_singleton]
  rcases List.mem_append.mp hstored with hold | hnew
  · have hcount := h.one_story stored hold
    have hne : ¬ (observation.observationId == stored.observationId) = true := by
      intro hsame
      rw [← beq_iff_eq.mp hsame, hnone] at hcount
      cases hcount
    rw [hcount, if_neg hne]
  · rw [List.mem_singleton.mp hnew, hnone, if_pos (by simp)]

theorem nodup_withObservation (h :
      (content.storyObservations.map StoryObservationRow.observationId).Nodup)
    (hunlinked : (content.storyObservations.any fun stored =>
      stored.observationId == observation.observationId) = false) :
    ((content.withObservation story observation).storyObservations.map
      StoryObservationRow.observationId).Nodup := by
  unfold withObservation
  rw [List.map_append, List.nodup_append]
  refine ⟨h, by simp, ?_⟩
  intro id hid other hother hsame
  obtain ⟨link, hlink, rfl⟩ := List.mem_map.mp hid
  simp only [List.map_cons, List.map_nil, List.mem_singleton] at hother
  rw [List.any_eq_false] at hunlinked
  exact hunlinked link hlink (by simp [hsame, hother])

/-- An observation of a known story. -/
theorem StoriesSound.withObservation_known (h : content.StoriesSound P)
    (hunlinked : (content.storyObservations.any fun stored =>
      stored.observationId == observation.observationId) = false)
    (hknown : content.hasUnmergedStory story.storyId = true) :
    (content.withObservation story observation).StoriesSound P := by
  obtain ⟨known, hmem, hid, hunmerged⟩ := hasUnmergedStory_eq_true.mp hknown
  have hstories : (content.withObservation story observation).stories =
      content.stories := by
    have hclash : content.stories.any (fun stored => stored.storyId == story.storyId) =
        true := List.any_eq_true.mpr ⟨known, hmem, by simp [hid]⟩
    unfold ContentTables.withObservation insertOrIgnore
    simp only [hclash, if_true]
  refine ⟨⟨?_, h.forest.one_story_withObservation hunlinked, ?_, ?_, ?_⟩, ?_, ?_⟩
  · rw [hstories]
    exact h.forest.distinct
  · intro link hlink
    rw [hstories]
    rcases List.mem_append.mp hlink with hold | hnew
    · exact h.forest.unmerged link hold
    · rw [List.mem_singleton.mp hnew]
      exact ⟨known, hmem, hid, hunmerged⟩
  · intro row hrow
    rw [hstories] at hrow
    rw [isInhabited_withObservation, h.forest.merged_iff row hrow]
    by_cases hsame : story.storyId = row.storyId
    · have hrowUnmerged : row.mergedInto = none := by
        rw [← h.forest.eq_of_storyId hmem hrow (hid.trans hsame)]
        exact hunmerged
      have hinhabited := (h.forest.inhabited_iff hrow).mpr hrowUnmerged
      exact iff_of_false (not_not.mpr hinhabited) (not_not.mpr (.inr hsame))
    · simp [hsame]
  · intro row hrow
    rw [hstories] at hrow
    exact (h.forest.settles row hrow).mono (by rw [hstories]; exact List.Subset.refl _)
  · exact nodup_withObservation h.linksDistinct hunlinked
  · intro row hrow
    rw [hstories] at hrow
    obtain ⟨old, hold, hname⟩ := h.named row hrow
    exact ⟨old, List.mem_append_left _ hold, hname⟩

/-- An observation which opens a story. -/
theorem StoriesSound.withObservation_new (h : content.StoriesSound P)
    (hmerged : story.mergedInto = none)
    (hunlinked : (content.storyObservations.any fun stored =>
      stored.observationId == observation.observationId) = false)
    (hnew : content.hasStory story.storyId = false)
    (hname : story.storyId = storyIdOf P observation.observationId) :
    (content.withObservation story observation).StoriesSound P := by
  have hfresh : ∀ row ∈ content.stories, row.storyId ≠ story.storyId := by
    intro row hrow hsame
    unfold hasStory at hnew
    rw [List.any_eq_false] at hnew
    exact hnew row hrow (by simp [hsame])
  have hstories : (content.withObservation story observation).stories =
      content.stories ++ [story] := by
    unfold hasStory at hnew
    unfold ContentTables.withObservation insertOrIgnore
    simp only [hnew, Bool.false_eq_true, if_false]
  refine ⟨⟨?_, h.forest.one_story_withObservation hunlinked, ?_, ?_, ?_⟩, ?_, ?_⟩
  · rw [hstories, List.map_append, List.nodup_append]
    refine ⟨h.forest.distinct, by simp, ?_⟩
    intro id hid other hother
    obtain ⟨row, hrow, rfl⟩ := List.mem_map.mp hid
    simp only [List.map_cons, List.map_nil, List.mem_singleton] at hother
    rw [hother]
    exact hfresh row hrow
  · intro link hlink
    rw [hstories]
    rcases List.mem_append.mp hlink with hold | hnewLink
    · obtain ⟨row, hrow, hid, hunmerged⟩ := h.forest.unmerged link hold
      exact ⟨row, List.mem_append_left _ hrow, hid, hunmerged⟩
    · rw [List.mem_singleton.mp hnewLink]
      exact ⟨story, by simp, rfl, hmerged⟩
  · intro row hrow
    rw [hstories] at hrow
    rw [isInhabited_withObservation]
    rcases List.mem_append.mp hrow with hold | hnewRow
    · rw [h.forest.merged_iff row hold]
      simp [(hfresh row hold).symm]
    · rw [List.mem_singleton.mp hnewRow]
      exact iff_of_false (not_not.mpr hmerged) (not_not.mpr (.inr rfl))
  · intro row hrow
    rw [hstories] at hrow
    rcases List.mem_append.mp hrow with hold | hnewRow
    · exact (h.forest.settles row hold).mono (by rw [hstories]; simp)
    · rw [List.mem_singleton.mp hnewRow]
      exact .unmerged story (by rw [hstories]; simp) hmerged
  · exact nodup_withObservation h.linksDistinct hunlinked
  · intro row hrow
    rw [hstories] at hrow
    rcases List.mem_append.mp hrow with hold | hnewRow
    · obtain ⟨old, hold, hname⟩ := h.named row hold
      exact ⟨old, List.mem_append_left _ hold, hname⟩
    · rw [List.mem_singleton.mp hnewRow]
      exact ⟨observation, List.mem_append_right _ List.mem_cons_self, hname⟩

end

end

/-! ## The story of a new observation -/

/-- No two observations have the same digest. -/
def CollisionFree (P : Primitives) (content : ContentTables) : Prop :=
  Set.InjOn P.sha256 {bytes | ∃ observation ∈ content.observations,
    bytes = utf8 observation.observationId}

section

variable {P : Primitives} {content next : ContentTables}

theorem CollisionFree.mono (h : next.CollisionFree P)
    (hsub : content.observations ⊆ next.observations) : content.CollisionFree P := by
  refine Set.InjOn.mono ?_ h
  rintro bytes ⟨observation, hobservation, rfl⟩
  exact ⟨observation, hsub hobservation, rfl⟩

theorem earliest_mem {β : Type} {entries : List (ℤ × β)} {best : ℤ × β}
    (h : earliest entries = some best) : best ∈ entries := by
  induction entries generalizing best with
  | nil => cases h
  | cons entry rest ih =>
      unfold earliest at h
      split at h
      · next other hother =>
          split at h
          · cases h
            exact List.mem_cons_of_mem _ (ih hother)
          · cases h
            exact List.mem_cons_self
      · cases h
        exact List.mem_cons_self

/-- The story of an address holds an observation. -/
theorem isInhabited_of_existingStory {sourceId canonicalUrl storyId : String}
    (h : content.existingStory sourceId canonicalUrl = some storyId) :
    content.IsInhabited storyId := by
  unfold existingStory at h
  simp only [Option.map_eq_some_iff] at h
  obtain ⟨best, hbest, rfl⟩ := h
  obtain ⟨row, -, hrow⟩ := List.mem_filterMap.mp (earliest_mem hbest)
  split at hrow
  · obtain ⟨storyId, hstory, rfl⟩ := Option.map_eq_some_iff.mp hrow
    obtain ⟨link, hlink, -, hid⟩ := mem_of_storyOf? hstory
    exact ⟨link, hlink, hid⟩
  · cases hrow

/-- An observation which follows the rule for its story keeps the tables
sound. -/
theorem StoriesSound.observe {story : StoryRow} {observation : ObservationRow}
    (h : content.StoriesSound P)
    (hfree : (content.withObservation story observation).CollisionFree P)
    (hmerged : story.mergedInto = none)
    (hunlinked : (content.storyObservations.any fun stored =>
      stored.observationId == observation.observationId) = false)
    (hstory : story.storyId = (content.existingStory observation.sourceId
      observation.canonicalUrl).getD (storyIdOf P observation.observationId)) :
    (content.withObservation story observation).StoriesSound P := by
  cases hexisting : content.existingStory observation.sourceId
      observation.canonicalUrl with
  | some storyId =>
      rw [hexisting, Option.getD_some] at hstory
      obtain ⟨link, hlink, hid⟩ := isInhabited_of_existingStory hexisting
      obtain ⟨known, hknown, hknownId, hunmerged⟩ := h.forest.unmerged link hlink
      refine h.withObservation_known hunlinked (hasUnmergedStory_eq_true.mpr ?_)
      exact ⟨known, hknown, hknownId.trans (hid.trans hstory.symm), hunmerged⟩
  | none =>
      rw [hexisting, Option.getD_none] at hstory
      refine h.withObservation_new hmerged hunlinked ?_ hstory
      -- A story of this name would have been opened by this very observation.
      by_contra hknown
      simp only [hasStory, Bool.not_eq_false, List.any_eq_true, beq_iff_eq] at hknown
      obtain ⟨row, hrow, hid⟩ := hknown
      obtain ⟨old, hold, hname⟩ := h.named row hrow
      rw [hid, hstory] at hname
      have hdigest := P.sha256_eq_of_prefixedId_eq hname
      have hbytes := hfree
        ⟨observation, List.mem_append_right _ List.mem_cons_self, rfl⟩
        ⟨old, List.mem_append_left _ hold, rfl⟩ hdigest
      have hsame := utf8_injective hbytes
      have hcount := h.forest.one_story old hold
      rw [← hsame] at hcount
      have hnone : content.storyObservations.countP (fun link =>
          link.observationId == observation.observationId) = 0 := by
        rw [List.countP_eq_zero]
        rw [List.any_eq_false] at hunlinked
        exact hunlinked
      rw [hnone] at hcount
      cases hcount

end

end ContentTables

/-! ## The tables of a node -/

section

variable {P : Primitives}

/-- A story link names a story which is not merged. -/
def PendingCall.LinksUnmerged (P : Primitives) (call : PendingCall) (db : Db) : Prop :=
  ∀ lineageId contribution, call.admitted = .appendContribution lineageId contribution →
    contribution.kind = .storyLink → ∀ link,
    decodePayload (StoryLinkPayload.ofJson P) contribution.payload = .ok link →
      db.content.hasUnmergedStory link.storyId = true

theorem storiesSound_empty : ContentTables.empty.StoriesSound P := by
  refine ⟨⟨List.nodup_nil, ?_, ?_, ?_, ?_⟩, List.nodup_nil, ?_⟩
  all_goals
    intro row hrow
    cases hrow

theorem History.storiesSound {identity : NodeIdentity P} {db : Db}
    {entries : FeedEntry → Prop}
    (h : History P identity (fun call db _ => call.LinksUnmerged P db) entries db)
    (hfree : db.content.CollisionFree P) : db.content.StoriesSound P := by
  induction h with
  | init => exact storiesSound_empty
  | quiet db next _ hquiet ih =>
      rw [hquiet.content] at hfree ⊢
      exact ih hfree
  | commit db next call appendedAt row accepted _ _ hmeets hcommit _ ih =>
      rcases Admitted.commit_content hcommit with ⟨lineageId, contribution, hadmitted⟩ |
        ⟨-, hcontent, -⟩
      · rw [hadmitted] at hcommit
        obtain ⟨-, logged, happend, happly⟩ := Db.appendContribution_eq_ok hcommit
        obtain ⟨_, happended⟩ := appendEvent_eq_ok happend
        have hbase : logged.content = db.content := by
          rw [happended.next_eq]
        have hrecord := Db.applyProjection_record happly
        rw [hbase] at hrecord
        obtain ⟨-, hobservations, -⟩ := ContentTables.record_frame hrecord
        have hbefore := ih (hfree.mono (by rw [hobservations]; exact List.Subset.refl _))
        exact hbefore.record (hmeets lineageId contribution hadmitted) hrecord
      · rw [hcontent] at hfree ⊢
        exact ih hfree
  | observe db next sourceId languages feed retrievedAt entry canonicalUrl appendedAt row
      accepted _ _ hobserved ih =>
      obtain ⟨-, -, hunlinked, hcontent, -⟩ := Db.appendObservation_eq_ok hobserved
      rw [hcontent] at hfree ⊢
      have hbefore := ih (hfree.mono (List.subset_append_left _ _))
      exact hbefore.observe hfree rfl hunlinked rfl
  | witness db next bundle observedAt appendedAt row _ hwitnessed ih =>
      rw [hwitnessed.same.content] at hfree ⊢
      exact ih hfree

/-! ## The tables of an origin -/

theorem federateKind_unmerged {origin lineageId : String} {event : OriginEvent}
    {contribution : SignedContribution} {state next : ImportState}
    (h : federateKind P origin lineageId event contribution state = .ok next)
    (hkind : contribution.kind = .storyLink) (link : StoryLinkPayload)
    (hlink : decodePayload (StoryLinkPayload.ofJson P) contribution.payload = .ok link) :
    state.tables.content.hasUnmergedStory link.storyId = true := by
  unfold federateKind at h
  simp only [hkind, federateStoryLink, hlink, ok_bind, bind_eq_ok, rejectIf_eq_ok,
    Bool.not_eq_false] at h
  obtain ⟨_, ⟨⟨⟩, -, ⟨⟩, hunmerged, -⟩, -⟩ := h
  exact hunmerged

/-- What a recorded event does to the content tables of an origin. -/
theorem projectAndStore_content {origin : String} {event : OriginEvent}
    {state next : ImportState} (h : projectAndStore P origin event state = .ok next) :
    next.tables.content = state.tables.content ∨
      (∃ observation tables, projectFederatedObservation P event.sequence observation
        state.tables = .ok tables ∧ next.tables.content = tables.content) ∨
      ∃ lineageId contribution applied, federateKind P origin lineageId event contribution
        state = .ok applied ∧ next.tables.content = applied.tables.content := by
  cases hadministrative : isAdministrative event.kind with
  | true => exact .inl (projectAndStore_administrative h hadministrative).content
  | false =>
      obtain ⟨nonce, projected, hproject, rfl⟩ := projectAndStore_eq_ok h
      by_cases hobservation : event.kind = "observation"
      · unfold validateAndProjectRemoteEvent at hproject
        simp only [hobservation, projectObservation, bind_eq_ok, pure_eq_ok, Except.ok.injEq,
          Prod.mk.injEq] at hproject
        obtain ⟨tables, ⟨_, -, _, -, _, -, _, -, _, -, _, -, htables⟩, -, rfl⟩ := hproject
        exact .inr (.inl ⟨_, tables, htables, rfl⟩)
      · have hcontribution : validateAndProjectRemoteEvent P origin event state =
            projectContribution P origin event state := by
          simp only [isAdministrative, Bool.or_eq_false_iff, beq_eq_false_iff_ne] at hadministrative
          unfold validateAndProjectRemoteEvent
          split
          all_goals first
            | rfl
            | (exfalso; simp_all)
        rw [hcontribution, projectContribution_eq] at hproject
        simp only [applyFederatedContribution, bind_eq_ok, pure_eq_ok, Except.ok.injEq,
          Prod.mk.injEq, Prod.exists] at hproject
        obtain ⟨lineageId, contribution, -, applied, ⟨_, -, _, -, hfederate⟩, -, rfl⟩ := hproject
        exact .inr (.inr ⟨lineageId, contribution, applied, hfederate, rfl⟩)

theorem Imported.storiesSound {origin : String} {events : List OriginEvent}
    {tables : OriginTables} (h : Imported P origin events tables)
    (hfree : tables.content.CollisionFree P) : tables.content.StoriesSound P := by
  induction h with
  | empty => exact storiesSound_empty
  | checkpoints events tables checkpoints _ ih => exact ih hfree
  | store events event tables commons next _ hstore ih =>
      rcases projectAndStore_content hstore with hsame | ⟨observation, after, hproject, hnext⟩ |
        ⟨lineageId, contribution, applied, hfederate, hnext⟩
      · rw [hsame] at hfree ⊢
        exact ih hfree
      · rw [hnext] at hfree ⊢
        unfold projectFederatedObservation at hproject
        simp only [bind_eq_ok, rejectIf_eq_ok, not_not, pure_eq_ok, Except.ok.injEq] at hproject
        obtain ⟨-, -, -, -, -, -, -, -, -, hstory, content, hadd, rfl⟩ := hproject
        obtain ⟨-, hunlinked, rfl⟩ := ContentTables.addObservation_eq_ok.mp hadd
        rw [linkFederatedStoryEvent_content] at hfree ⊢
        have hbefore := ih (hfree.mono (List.subset_append_left _ _))
        exact hbefore.observe hfree rfl hunlinked hstory
      · rw [hnext] at hfree ⊢
        have hrecord := federateKind_record hfederate
        obtain ⟨-, hobservations, -⟩ := ContentTables.record_frame hrecord
        have hbefore := ih (hfree.mono (by rw [hobservations]; exact List.Subset.refl _))
        exact hbefore.record (federateKind_unmerged hfederate) hrecord

/-- In every run the stories of every origin form a forest, and so do those of
the node, when its story links name stories which are not merged. -/
theorem run_storyForest (P : Primitives) (identity : NodeIdentity P)
    (actions : List Action) :
    (∀ origin,
      ((NodeState.run P identity actions).db.origins origin).content.CollisionFree P →
      ((NodeState.run P identity actions).db.origins origin).content.IsForest) ∧
    (CommitsMeet P identity (fun call db _ => call.LinksUnmerged P db) actions →
      (NodeState.run P identity actions).db.content.CollisionFree P →
      (NodeState.run P identity actions).db.content.IsForest) := by
  constructor
  · intro origin hfree
    obtain ⟨events, himported⟩ := run_recorded P identity actions origin
    exact (himported.storiesSound hfree).forest
  · intro hcommits hfree
    have hhistory : History P identity _ (fun _ => True) _ := run_history actions hcommits
      fun _ _ _ _ _ _ _ => trivial
    exact (hhistory.storiesSound hfree).forest

end

namespace Sample

theorem collisionFree_of_nodup {content : ContentTables}
    (h : (content.observations.map fun observation =>
      library.sha256 (utf8 observation.observationId)).Nodup) :
    content.CollisionFree library := by
  rintro _ ⟨first, hfirst, rfl⟩ _ ⟨second, hsecond, rfl⟩ hdigest
  rw [List.inj_on_of_nodup_map h hfirst hsecond hdigest]

/-- The stories of the run in which two of them are merged. -/
theorem run_storyForest_mergedRun :
    (NodeState.run library origin mergedRun).db.content.IsForest := by
  obtain ⟨hcommits, -, hdigests⟩ := mergedRun_importable.out
  refine (run_storyForest library origin mergedRun).2 ?_ (collisionFree_of_nodup hdigests)
  refine (commitsMeet_of_from hcommits).mono ?_
  intro call db _ himportable lineageId contribution hadmitted hkind link hlink
  have hcontribution := himportable lineageId contribution hadmitted
  simp only [SignedContribution.IsImportable, hkind] at hcontribution
  exact hcontribution link hlink

/-- A link to a merged story leaves the observation there. -/
theorem run_storyForest_relinkedRun :
    (NodeState.run library origin relinkedRun).db.content.CollisionFree library ∧
      ¬ (NodeState.run library origin relinkedRun).db.content.IsForest := by
  obtain ⟨-, -, ⟨link, hlink, hmerged⟩, hdigests⟩ := relinkedRun_breaks.out
  refine ⟨collisionFree_of_nodup hdigests, ?_⟩
  intro hforest
  obtain ⟨story, hstory, hid, hunmerged⟩ := hforest.unmerged link hlink
  exact hmerged story hstory hid hunmerged

end Sample

end Commonwake
