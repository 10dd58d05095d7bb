import Commonwake.Commitments
import Commonwake.StoryForest

/-!
# What the views of the stories are put together from

The view of a story joins the content tables with the log, the sources and the
lineages.  An event changes the content tables in one of five ways, and the
names and texts which a view joins stay as they are once something refers to
them.
-/

namespace Commonwake

open Outcome Table HashChain

def SourceRow.named (row : SourceRow) : String × String := (row.sourceId, row.name)

def LineageRow.named (row : LineageRow) : String × String :=
  (row.lineageId, row.displayName)

section

variable (P : Primitives)

/-- What an event does to the content tables, except for the reviews. -/
inductive StoryEffect (db : Db) (row : EventRow) : ContentTables → Prop
  | other (content : ContentTables) (hkind : row.kind ≠ "story_link")
      (hstories : content.stories = db.content.stories)
      (hobservations : content.observations = db.content.observations)
      (hlinks : content.storyObservations = db.content.storyObservations)
      (hverifications : content.verifications = db.content.verifications)
      (hassessments : content.assessments = db.content.assessments) :
      StoryEffect db row content
  | observe (story : StoryRow) (observation : ObservationRow)
      (hkind : relatesToStories row.kind = false)
      (hstory : story.createdSequence = row.sequence)
      (hunmerged : story.mergedInto = none)
      (hobservation : observation.createdSequence = row.sequence)
      (hsource : observation.sourceId ∈ db.sources.map SourceRow.sourceId)
      (hunlinked : (db.content.storyObservations.any fun stored =>
        stored.observationId == observation.observationId) = false) :
      StoryEffect db row (db.content.withObservation story observation)
  | verify (verification : VerificationRow) (hkind : relatesToStories row.kind = false)
      (hevent : verification.eventId = row.eventId) :
      StoryEffect db row (db.content.putVerification verification)
  | assess (assessment : AssessmentRow) (hkind : relatesToStories row.kind = false)
      (hevent : assessment.eventId = row.eventId)
      (hassessor : db.lineage? assessment.assessorLineageId ≠ none) :
      StoryEffect db row (db.content.putAssessment assessment)
  | link (storyId : String) (observationIds : List String) (content : ContentTables)
      (hkind : row.kind = "story_link")
      (hfold : foldState (federateLink storyId row.eventId) db.content observationIds =
        .ok content) :
      StoryEffect db row content

/-- A step which logs an event. -/
structure StoryStep (db : Db) (row : EventRow) (next : Db) : Prop where
  events : next.events = db.events ++ [row]
  sequence : row.sequence = db.head + 1
  fresh : ∀ stored ∈ db.events, stored.eventId ≠ row.eventId
  readable : isOk (jsonEachText P row.targetsJson)
  sources : ∃ added, next.sources.map SourceRow.named =
    db.sources.map SourceRow.named ++ added
  lineages : ∃ added, next.authority.lineages.map LineageRow.named =
    db.authority.lineages.map LineageRow.named ++ added
  effect : StoryEffect db row next.content

/-- Everything which the tables refer to is there. -/
structure ContentTables.Rooted (head : ℤ) (eventIds sourceIds lineageIds : List String)
    (content : ContentTables) : Prop where
  stories : ∀ story ∈ content.stories, story.createdSequence ≤ head
  observations : ∀ row ∈ content.observations,
    row.createdSequence ≤ head ∧ row.sourceId ∈ sourceIds
  linksDistinct : (content.storyObservations.map StoryObservationRow.observationId).Nodup
  linked : ∀ link ∈ content.storyObservations,
    link.observationId ∈ content.observations.map ObservationRow.observationId
  linkEvents : ∀ link ∈ content.storyObservations, ∀ eventId,
    link.linkedEventId = some eventId → eventId ∈ eventIds
  verifications : ∀ row ∈ content.verifications, row.eventId ∈ eventIds
  assessments : ∀ row ∈ content.assessments,
    row.eventId ∈ eventIds ∧ row.assessorLineageId ∈ lineageIds

/-- The targets of every event can be read. -/
def Db.TargetsReadable (db : Db) : Prop :=
  ∀ row ∈ db.events, isOk (jsonEachText P row.targetsJson)

/-- The log is numbered up to its head and the content tables are rooted in it. -/
structure Db.StoriesRooted (db : Db) : Prop where
  numbered : ∀ row ∈ db.events, row.sequence ≤ db.head
  readable : db.TargetsReadable P
  content : db.content.Rooted db.head (db.events.map EventRow.eventId)
    (db.sources.map SourceRow.sourceId)
    (db.authority.lineages.map LineageRow.lineageId)

/-- The second context has the texts and names of everything in the tables which the
first has. -/
structure StoryContext.Agrees (content : ContentTables) (first second : StoryContext) :
    Prop where
  links : ∀ link ∈ content.storyObservations, ∀ eventId,
    link.linkedEventId = some eventId →
      second.canonicalText? eventId = first.canonicalText? eventId
  verifications : ∀ row ∈ content.verifications,
    second.canonicalText? row.eventId = first.canonicalText? row.eventId
  assessments : ∀ row ∈ content.assessments,
    second.canonicalText? row.eventId = first.canonicalText? row.eventId ∧
      second.displayName? row.assessorLineageId = first.displayName? row.assessorLineageId
  observations : ∀ row ∈ content.observations,
    second.sourceName? row.sourceId = first.sourceName? row.sourceId

/-- The tables hold the same about a story. -/
structure ContentTables.SameStory (storyId : String) (content next : ContentTables) :
    Prop where
  header : (next.stories.find? fun row => row.storyId == storyId && row.mergedInto.isNone) =
    content.stories.find? fun row => row.storyId == storyId && row.mergedInto.isNone
  links : (next.storyObservations.filter fun link => link.storyId == storyId) =
    content.storyObservations.filter fun link => link.storyId == storyId
  observations : ∀ link ∈ content.storyObservations, link.storyId = storyId →
    (next.observations.find? fun row => row.observationId == link.observationId) =
      content.observations.find? fun row => row.observationId == link.observationId
  verifications : ∀ link ∈ content.storyObservations, link.storyId = storyId →
    (next.verifications.filter fun row => row.observationId == link.observationId) =
      content.verifications.filter fun row => row.observationId == link.observationId
  assessments : (next.assessments.filter fun row => row.storyId == storyId) =
    content.assessments.filter fun row => row.storyId == storyId

end

section

variable {P : Primitives}

/-! ## The view of a story whose tables stay -/

section

variable {first second : StoryContext} {content next : ContentTables} {storyId : String}

theorem joinsTraceable_congr {texts others : String → Option String} {eventId : String}
    (h : texts eventId = others eventId) :
    joinsTraceable P texts eventId = joinsTraceable P others eventId := by
  unfold joinsTraceable
  rw [h]

theorem observationsOf_congr (hagrees : StoryContext.Agrees content first second)
    (hsame : ContentTables.SameStory storyId content next) :
    observationsOf second next storyId = observationsOf first content storyId := by
  unfold observationsOf
  dsimp only
  rw [hsame.links]
  have hrows : ((content.storyObservations.filter fun link =>
        link.storyId == storyId).filterMap fun link => next.observations.find? fun row =>
          row.observationId == link.observationId) =
      (content.storyObservations.filter fun link =>
        link.storyId == storyId).filterMap fun link => content.observations.find? fun row =>
          row.observationId == link.observationId := by
    apply List.filterMap_congr
    intro link hlink
    obtain ⟨hmem, hstory⟩ := List.mem_filter.mp hlink
    exact hsame.observations link hmem (by simpa using hstory)
  rw [hrows]
  congr 1
  apply List.filterMap_congr
  intro row hrow
  obtain ⟨link, -, hfound⟩ := List.mem_filterMap.mp hrow
  rw [hagrees.observations row (List.mem_of_find?_eq_some hfound)]

/-- An observation of a story is one which a link of the story found. -/
theorem exists_link_of_mem_observationsOf {joined : ObservationRow × String}
    (h : joined ∈ observationsOf first content storyId) :
    ∃ link ∈ content.storyObservations, link.storyId = storyId ∧
      link.observationId = joined.1.observationId := by
  simp only [observationsOf, List.mem_mergeSort, List.mem_filterMap, Option.map_eq_some_iff,
    List.mem_filter, beq_iff_eq] at h
  obtain ⟨row, ⟨link, ⟨hlink, hstory⟩, hfound⟩, name, -, rfl⟩ := h
  have htest := List.find?_some hfound
  exact ⟨link, hlink, hstory, (by simpa using htest : row.observationId = _).symm⟩

theorem verificationsOf_congr (hagrees : StoryContext.Agrees content first second)
    {observationId : String}
    (hrows : (next.verifications.filter fun row => row.observationId == observationId) =
      content.verifications.filter fun row => row.observationId == observationId) :
    verificationsOf P second next observationId =
      verificationsOf P first content observationId := by
  unfold verificationsOf
  rw [hrows]
  apply traverse_congr
  intro row hrow
  have hknown := hagrees.verifications row (List.mem_filter.mp hrow).1
  rw [joinsTraceable_congr hknown]

theorem assessmentsOf_congr (hagrees : StoryContext.Agrees content first second)
    (hsame : ContentTables.SameStory storyId content next) :
    assessmentsOf second next storyId = assessmentsOf first content storyId := by
  unfold assessmentsOf
  dsimp only
  rw [hsame.assessments]
  congr 1
  apply List.filterMap_congr
  intro row hrow
  obtain ⟨htext, hname⟩ := hagrees.assessments row (List.mem_filter.mp hrow).1
  rw [htext, hname]

theorem distinctSources_congr (hagrees : StoryContext.Agrees content first second)
    (hsame : ContentTables.SameStory storyId content next) :
    distinctSources P second next storyId = distinctSources P first content storyId := by
  unfold distinctSources
  rw [hsame.links]
  refine filterOk_bind_congr ?_ fun links hlinks => ?_
  · intro link hlink
    cases hevent : link.linkedEventId with
    | none => rfl
    | some eventId =>
        exact joinsTraceable_congr
          (hagrees.links link (List.mem_filter.mp hlink).1 eventId hevent)
  · have hrows : (links.filterMap fun link => next.observations.find? fun row =>
          row.observationId == link.observationId) =
        links.filterMap fun link => content.observations.find? fun row =>
          row.observationId == link.observationId := by
      apply List.filterMap_congr
      intro link hlink
      obtain ⟨hmem, hstory⟩ := List.mem_filter.mp (hlinks link hlink)
      exact hsame.observations link hmem (by simpa using hstory)
    rw [hrows]

/-- What the tables hold about a story decides what is shown of it. -/
theorem storyViewBody_congr (hagrees : StoryContext.Agrees content first second)
    (hsame : ContentTables.SameStory storyId content next) (missing : CommonwakeError) :
    storyViewBody P second next storyId missing =
      storyViewBody P first content storyId missing := by
  have hobservations : Outcome.traverse
      (fun joined : ObservationRow × String =>
        observationView P second next joined.1 joined.2)
      (observationsOf first content storyId) =
    Outcome.traverse (fun joined : ObservationRow × String =>
        observationView P first content joined.1 joined.2)
      (observationsOf first content storyId) := by
    apply traverse_congr
    intro joined hjoined
    obtain ⟨link, hlink, hstory, hid⟩ := exists_link_of_mem_observationsOf hjoined
    unfold observationView
    rw [← hid, verificationsOf_congr hagrees (hsame.verifications link hlink hstory)]
  unfold storyViewBody
  rw [hsame.header, observationsOf_congr hagrees hsame, hobservations,
    assessmentsOf_congr hagrees hsame, distinctSources_congr hagrees hsame]

end

/-! ## The steps of a node -/

section

variable {identity : NodeIdentity P} {db next : Db} {row : EventRow}

theorem Appended.targets {input : EventInput} {receivedAt : ℤ} {accepted : AcceptedObject}
    (h : Appended P identity input receivedAt db row accepted next) :
    jsonEachText P row.targetsJson = .ok input.targets := by
  obtain ⟨_, _, -, -, -, hrow⟩ := h.row_eq
  rw [hrow]
  exact jsonEachText_strings input.targets

/-- A contribution adds at most the source which it proposes. -/
theorem Db.applyProjection_named {lineageId : String} {contribution : SignedContribution}
    {accepted : AcceptedObject}
    (h : db.applyProjection P lineageId contribution accepted = .ok next) :
    ∃ added, next.sources.map SourceRow.named = db.sources.map SourceRow.named ++ added := by
  have hsame : next.sources = db.sources → ∃ added,
      next.sources.map SourceRow.named = db.sources.map SourceRow.named ++ added := by
    intro hsources
    exact ⟨[], by rw [hsources, List.append_nil]⟩
  unfold Db.applyProjection at h
  cases hkind : contribution.kind with
  | sourceProposal =>
      simp only [hkind, Db.applySourceProposal, bind_eq_ok, insertNew_eq_ok, pure_eq_ok,
        Except.ok.injEq] at h
      obtain ⟨_, -, _, -, _, -, _, ⟨-, rfl⟩, rfl⟩ := h
      exact ⟨_, List.map_append⟩
  | sourceReview =>
      simp only [hkind, Db.applySourceReview, bind_eq_ok, pure_eq_ok, Except.ok.injEq] at h
      obtain ⟨_, -, _, -, rfl⟩ := h
      refine ⟨[], ?_⟩
      dsimp only
      split
      · unfold admitSource
        rw [map_updateWhere, List.append_nil]
        intro _ _
        rfl
      · rw [List.append_nil]
  | observationVerification =>
      simp only [hkind, Db.applyVerification, bind_eq_ok, pure_eq_ok, Except.ok.injEq] at h
      obtain ⟨_, -, _, -, rfl⟩ := h
      exact hsame rfl
  | storyLink =>
      simp only [hkind, bind_eq_ok] at h
      obtain ⟨_, -, happly⟩ := h
      exact hsame (Db.applyStoryLink_sources happly)
  | assessment =>
      simp only [hkind, Db.applyAssessment, bind_eq_ok, pure_eq_ok, Except.ok.injEq] at h
      obtain ⟨_, -, _, -, rfl⟩ := h
      exact hsame rfl
  | workClaim =>
      simp only [hkind, Db.applyWorkClaim, bind_eq_ok, pure_eq_ok, Except.ok.injEq] at h
      obtain ⟨_, -, rfl⟩ := h
      exact hsame rfl
  | workResult =>
      simp only [hkind, Db.applyWorkResult, bind_eq_ok, pure_eq_ok, Except.ok.injEq] at h
      obtain ⟨_, -, _, -, _, -, rfl⟩ := h
      exact hsame rfl
  | topicProposal | topicVote | forumPost | openPgpKey | directMessage =>
      simp only [hkind, Db.applyCommons, bind_eq_ok, pure_eq_ok, Except.ok.injEq] at h
      obtain ⟨_, -, _, -, rfl⟩ := h
      exact hsame rfl
  | _ =>
      simp only [hkind, pure_eq_ok, Except.ok.injEq] at h
      exact hsame (by rw [h])

/-- A call adds at most the lineage which it registers. -/
theorem AuthorityEffect.named {accepted : AcceptedObject} {admitted : Admitted}
    {authority : AuthorityTables} (h : AuthorityEffect P db accepted admitted authority) :
    ∃ added, authority.lineages.map LineageRow.named =
      db.authority.lineages.map LineageRow.named ++ added := by
  cases h with
  | registerLineage => exact ⟨_, List.map_append⟩
  | rotateLineageKey =>
      refine ⟨[], ?_⟩
      rw [List.append_nil, map_updateWhere]
      intro _ _
      rfl
  | registerDelegation | revokeDelegation | appendContribution | appendAcknowledgement =>
      exact ⟨[], (List.append_nil _).symm⟩

theorem StoryEffect.contribution {lineageId : String} {contribution : SignedContribution}
    {content : ContentTables} (hkind : row.kind = contribution.kind.asStr)
    (hlineage : db.lineage? lineageId ≠ none)
    (h : db.content.record P lineageId row.eventId contribution = .ok content) :
    StoryEffect db row content := by
  unfold ContentTables.record at h
  cases hcase : contribution.kind with
  | sourceReview =>
      simp only [hcase, bind_eq_ok, pure_eq_ok, Except.ok.injEq] at h
      obtain ⟨review, -, rfl⟩ := h
      rw [hcase] at hkind
      exact .other _ (by rw [hkind]; decide) rfl rfl rfl rfl rfl
  | observationVerification =>
      simp only [hcase, bind_eq_ok, pure_eq_ok, Except.ok.injEq] at h
      obtain ⟨verification, -, rfl⟩ := h
      rw [hcase] at hkind
      exact .verify _ (by rw [hkind]; decide) rfl
  | storyLink =>
      simp only [hcase, bind_eq_ok] at h
      obtain ⟨link, -, hfold⟩ := h
      rw [hcase] at hkind
      exact .link link.storyId link.observationIds content hkind hfold
  | assessment =>
      simp only [hcase, bind_eq_ok, pure_eq_ok, Except.ok.injEq] at h
      obtain ⟨assessment, -, rfl⟩ := h
      rw [hcase] at hkind
      exact .assess _ (by rw [hkind]; decide) rfl hlineage
  | _ =>
      simp only [hcase, pure_eq_ok, Except.ok.injEq] at h
      rw [hcase] at hkind
      exact .other _ (by rw [hkind]; decide) (by rw [← h]) (by rw [← h]) (by rw [← h])
        (by rw [← h]) (by rw [← h])

theorem Admitted.storyStep {admitted : Admitted} {appendedAt : ℤ} {accepted : AcceptedObject}
    (hcommit : admitted.commit P identity appendedAt db = .ok (accepted, next))
    (hcommitted : Committed P identity admitted appendedAt db row accepted next) :
    StoryStep P db row next := by
  obtain ⟨logged, happended, -⟩ := hcommitted.appended
  obtain ⟨hsequence, hkind, hlineage, -⟩ := happended.columns
  refine ⟨hcommitted.events, hsequence, happended.fresh_id, ⟨_, happended.targets⟩, ?_,
    hcommitted.effect.named, ?_⟩
  · rcases Admitted.commit_content hcommit with ⟨lineageId, contribution, rfl⟩ |
      ⟨-, -, hsources⟩
    · obtain ⟨-, base, happend, happly⟩ := Db.appendContribution_eq_ok hcommit
      obtain ⟨_, hbase⟩ := appendEvent_eq_ok happend
      have hnamed := Db.applyProjection_named happly
      rw [hbase.next_eq] at hnamed
      exact hnamed
    · rw [hsources]
      exact ⟨[], (List.append_nil _).symm⟩
  · rcases Admitted.commit_content hcommit with ⟨lineageId, contribution, rfl⟩ |
      ⟨hadministrative, hcontent, -⟩
    · obtain ⟨-, base, happend, happly⟩ := Db.appendContribution_eq_ok hcommit
      obtain ⟨_, hbase⟩ := appendEvent_eq_ok happend
      have hrecord := Db.applyProjection_record happly
      have hid : accepted.id = row.eventId := by rw [happended.accepted_eq]
      rw [hbase.next_eq, hid] at hrecord
      have hauthor := happended.author
      simp only [Db.knowsAuthor, hlineage, Admitted.input, contributionInput,
        Bool.and_eq_true] at hauthor
      exact .contribution hkind (Option.isSome_iff_ne_none.mp hauthor.1) hrecord
    · have hother : row.kind ≠ "story_link" := by
        rw [hkind]
        intro hsame
        rw [hsame] at hadministrative
        revert hadministrative
        decide
      exact .other _ hother (by rw [hcontent]) (by rw [hcontent]) (by rw [hcontent])
        (by rw [hcontent]) (by rw [hcontent])

theorem Observed.storyStep {observation : IngestedObservation} {appendedAt : ℤ}
    {accepted : AcceptedObject}
    (h : Observed P identity observation appendedAt db row accepted next) :
    StoryStep P db row next := by
  obtain ⟨logged, happended, -⟩ := h.appended
  obtain ⟨hsource, -, hunlinked, hcontent, hsources⟩ := Db.appendObservation_eq_ok h
  obtain ⟨hsequence, hkind, -⟩ := happended.columns
  have haccepted : accepted.sequence = row.sequence := by rw [happended.accepted_eq]
  refine ⟨h.events, hsequence, happended.fresh_id, ⟨_, happended.targets⟩, ?_, ?_, ?_⟩
  · rw [hsources]
    exact ⟨[], (List.append_nil _).symm⟩
  · rw [Db.appendObservation_authority h.append]
    exact ⟨[], (List.append_nil _).symm⟩
  · rw [hcontent]
    apply StoryEffect.observe
    · rw [hkind]
      exact (by decide : relatesToStories "observation" = false)
    · exact haccepted
    · rfl
    · exact haccepted
    · obtain ⟨source, hmem, htest⟩ := List.any_eq_true.mp hsource
      rw [Bool.and_eq_true, beq_iff_eq] at htest
      exact List.mem_map.mpr ⟨source, hmem, htest.1⟩
    · exact hunlinked

theorem Witnessed.storyStep {bundle : FederationBundle} {observedAt appendedAt : ℤ}
    (h : Witnessed P identity bundle observedAt appendedAt db row next) :
    StoryStep P db row next := by
  obtain ⟨base, accepted, logged, hbase, happended⟩ := h.appended
  obtain ⟨hsequence, hkind, -⟩ := happended.columns
  have hhead : base.head = db.head := by rw [Db.head, Db.head, hbase]
  refine ⟨h.events, ?_, ?_, ⟨_, happended.targets⟩, ?_, ?_, ?_⟩
  · rw [hsequence, hhead]
  · rw [← hbase]
    exact happended.fresh_id
  · rw [h.same.sources]
    exact ⟨[], (List.append_nil _).symm⟩
  · rw [h.same.authority]
    exact ⟨[], (List.append_nil _).symm⟩
  · rw [h.same.content]
    have hother : row.kind ≠ "story_link" := by
      rw [hkind]
      exact (by decide : "checkpoint_witnessed" ≠ "story_link")
    exact .other _ hother rfl rfl rfl rfl rfl

/-- A step of a node logs one event, or is quiet. -/
theorem NodeState.step_storyStep (node : NodeState) (action : Action) :
    node.db.Quiet (node.step P identity action).db ∨
      ∃ row, StoryStep P node.db row (node.step P identity action).db := by
  have hsteps := node.step_steps identity action
  generalize node.step P identity action = next at hsteps
  cases hsteps with
  | idle | pend | abort => exact .inl ⟨rfl, rfl, rfl, .inl rfl⟩
  | commit index appendedAt call accepted next hcall hcommit =>
      obtain ⟨row, hcommitted⟩ := Admitted.commit_eq_ok hcommit
      exact .inr ⟨row, Admitted.storyStep hcommit hcommitted⟩
  | observe sourceId languages feed retrievedAt entry appendedAt canonicalUrl observation
      accepted next hurl hobservation hnew happend =>
      obtain ⟨row, logged, happended, hsame⟩ :=
        (Db.appendObservation_logs identity observation appendedAt hnew _ happend).appended
      have hobserved : Observed P identity observation appendedAt node.db row accepted next :=
        ⟨hnew, happend, logged, happended, hsame⟩
      exact .inr ⟨row, hobserved.storyStep⟩
  | markSourceFetch sourceId success =>
      exact .inl ⟨rfl, rfl, rfl, .inr ⟨sourceId, success, rfl⟩⟩
  | importBundle bundle observedAt now appendedAt =>
      obtain ⟨hsame, hevents⟩ := importFederationBundle_frame identity bundle observedAt
        now appendedAt node.db
      rcases hevents with hkept | ⟨base, accepted, logged, hbase, happend, hnext⟩
      · exact .inl ⟨hkept, hsame.authority, hsame.content, .inl hsame.sources⟩
      · obtain ⟨row, happended⟩ := appendEvent_eq_ok happend
        have hwitnessed : Witnessed P identity bundle observedAt appendedAt node.db row
            (importFederationBundle P identity bundle observedAt now appendedAt node.db).2 := by
          refine ⟨⟨base, accepted, logged, hbase, happended⟩, ?_, hsame⟩
          simp only [hnext, happended.events, hbase]
        exact .inr ⟨row, hwitnessed.storyStep⟩

end

/-! ## Linking observations -/

/-- What a story link does to the tables besides moving observations between stories. -/
structure ContentTables.Relinked (eventId : String) (content next : ContentTables) : Prop where
  stories : next.stories.map StoryRow.createdSequence =
    content.stories.map StoryRow.createdSequence
  observations : next.observations = content.observations
  verifications : next.verifications = content.verifications
  assessments : next.assessments = content.assessments
  observationIds : next.storyObservations.map StoryObservationRow.observationId =
    content.storyObservations.map StoryObservationRow.observationId
  linkEvents : ∀ link ∈ next.storyObservations,
    link.linkedEventId = some eventId ∨ link ∈ content.storyObservations

theorem ContentTables.Relinked.move {content state : ContentTables}
    {storyId eventId oldStory observationId : String}
    (h : content.Relinked eventId state) :
    content.Relinked eventId (state.moveObservation storyId eventId oldStory observationId) := by
  have hstories : (state.moveObservation storyId eventId oldStory observationId).stories.map
      StoryRow.createdSequence = state.stories.map StoryRow.createdSequence := by
    rw [ContentTables.stories_moveObservation]
    split
    · rw [map_updateWhere]
      intro _ _
      rfl
    · rfl
  refine ⟨hstories.trans h.stories, h.observations, h.verifications, h.assessments,
    ContentTables.map_observationId_moveObservation.trans h.observationIds, ?_⟩
  intro link hlink
  obtain ⟨old, hold, rfl⟩ := ContentTables.mem_links_moveObservation.mp hlink
  by_cases hmoved : old.observationId = observationId
  · simp [hmoved]
  · simp only [hmoved, beq_iff_eq, if_false]
    exact h.linkEvents old hold

theorem ContentTables.relinked_of_fold {content next : ContentTables}
    {storyId eventId : String} {observationIds : List String}
    (h : foldState (federateLink storyId eventId) content observationIds = .ok next) :
    content.Relinked eventId next := by
  have hstep : ∀ (state : ContentTables) (observationId : String) (after : ContentTables),
      content.Relinked eventId state →
      federateLink storyId eventId state observationId = .ok after →
      content.Relinked eventId after := by
    intro state observationId after hstate hafter
    simp only [federateLink, bind_eq_ok, okOr_eq_ok] at hafter
    obtain ⟨oldStory, -, hafter⟩ := hafter
    split at hafter
    · cases hafter
      exact hstate
    · cases hafter
      exact hstate.move
  exact foldState_invariant hstep
    ⟨rfl, rfl, rfl, rfl, rfl, fun link hlink => .inr hlink⟩ h

/-! ## What is referred to stays -/

theorem find?_append_of_key {α : Type} {key : α → String} {rows added : List α} {k : String}
    (h : k ∈ rows.map key) :
    ((rows ++ added).find? fun row => key row == k) = rows.find? fun row => key row == k := by
  obtain ⟨row, hrow, rfl⟩ := List.mem_map.mp h
  have hfound : (rows.find? fun stored => key stored == key row).isSome = true :=
    List.find?_isSome.mpr ⟨row, hrow, beq_self_eq_true _⟩
  rw [List.find?_append, Option.or_of_isSome hfound]

section

variable {db next : Db} {row : EventRow}

theorem Db.sourceName?_eq (db : Db) (sourceId : String) :
    db.storyContext.sourceName? sourceId =
      ((db.sources.map SourceRow.named).find? fun pair => pair.1 == sourceId).map Prod.snd := by
  rw [List.find?_map, Option.map_map]
  rfl

theorem Db.displayName?_eq (db : Db) (lineageId : String) :
    db.storyContext.displayName? lineageId =
      ((db.authority.lineages.map LineageRow.named).find? fun pair =>
        pair.1 == lineageId).map Prod.snd := by
  rw [List.find?_map, Option.map_map]
  rfl

theorem SourceRow.map_named (rows : List SourceRow) :
    (rows.map SourceRow.named).map Prod.fst = rows.map SourceRow.sourceId := by
  rw [List.map_map]
  rfl

theorem LineageRow.map_named (rows : List LineageRow) :
    (rows.map LineageRow.named).map Prod.fst = rows.map LineageRow.lineageId := by
  rw [List.map_map]
  rfl

namespace StoryStep

theorem head_eq (h : StoryStep P db row next) : next.head = row.sequence := by
  rw [Db.head, h.events, List.getLast?_concat]

theorem head_lt (h : StoryStep P db row next) : db.head < next.head := by
  rw [h.head_eq, h.sequence]
  omega

theorem eventIds (h : StoryStep P db row next) {eventId : String}
    (hknown : eventId ∈ db.events.map EventRow.eventId) :
    eventId ∈ next.events.map EventRow.eventId := by
  rw [h.events, List.map_append]
  exact List.mem_append_left _ hknown

theorem own_eventId (h : StoryStep P db row next) :
    row.eventId ∈ next.events.map EventRow.eventId := by
  rw [h.events, List.map_append]
  exact List.mem_append_right _ List.mem_cons_self

theorem sourceIds (h : StoryStep P db row next) {sourceId : String}
    (hknown : sourceId ∈ db.sources.map SourceRow.sourceId) :
    sourceId ∈ next.sources.map SourceRow.sourceId := by
  obtain ⟨added, hadded⟩ := h.sources
  rw [← SourceRow.map_named] at hknown ⊢
  rw [hadded, List.map_append]
  exact List.mem_append_left _ hknown

theorem lineageIds (h : StoryStep P db row next) {lineageId : String}
    (hknown : lineageId ∈ db.authority.lineages.map LineageRow.lineageId) :
    lineageId ∈ next.authority.lineages.map LineageRow.lineageId := by
  obtain ⟨added, hadded⟩ := h.lineages
  rw [← LineageRow.map_named] at hknown ⊢
  rw [hadded, List.map_append]
  exact List.mem_append_left _ hknown

theorem eventById?_eq (h : StoryStep P db row next) {eventId : String}
    (hknown : eventId ∈ db.events.map EventRow.eventId) :
    next.eventById? eventId = db.eventById? eventId := by
  unfold Db.eventById?
  rw [h.events, find?_append_of_key hknown]

theorem sourceName?_eq (h : StoryStep P db row next) {sourceId : String}
    (hknown : sourceId ∈ db.sources.map SourceRow.sourceId) :
    next.storyContext.sourceName? sourceId = db.storyContext.sourceName? sourceId := by
  obtain ⟨added, hadded⟩ := h.sources
  rw [← SourceRow.map_named] at hknown
  rw [Db.sourceName?_eq, Db.sourceName?_eq, hadded, find?_append_of_key hknown]

theorem displayName?_eq (h : StoryStep P db row next) {lineageId : String}
    (hknown : lineageId ∈ db.authority.lineages.map LineageRow.lineageId) :
    next.storyContext.displayName? lineageId = db.storyContext.displayName? lineageId := by
  obtain ⟨added, hadded⟩ := h.lineages
  rw [← LineageRow.map_named] at hknown
  rw [Db.displayName?_eq, Db.displayName?_eq, hadded, find?_append_of_key hknown]

/-- An event leaves the texts and names which the tables refer to. -/
theorem agrees (h : StoryStep P db row next) (hrooted : db.StoriesRooted P) :
    StoryContext.Agrees db.content db.storyContext next.storyContext := by
  have htext : ∀ eventId, eventId ∈ db.events.map EventRow.eventId →
      next.storyContext.canonicalText? eventId = db.storyContext.canonicalText? eventId := by
    intro eventId hknown
    change (next.eventById? eventId).map _ = (db.eventById? eventId).map _
    rw [h.eventById?_eq hknown]
  refine ⟨?_, ?_, ?_, ?_⟩
  · intro link hlink eventId hevent
    exact htext eventId (hrooted.content.linkEvents link hlink eventId hevent)
  · intro stored hstored
    exact htext _ (hrooted.content.verifications stored hstored)
  · intro stored hstored
    obtain ⟨hevent, hassessor⟩ := hrooted.content.assessments stored hstored
    exact ⟨htext _ hevent, h.displayName?_eq hassessor⟩
  · intro stored hstored
    exact h.sourceName?_eq (hrooted.content.observations stored hstored).2

end StoryStep

/-! ## Every reference leads somewhere -/

namespace ContentTables.Rooted

variable {head later : ℤ} {eventIds laterIds sourceIds laterSources lineageIds
  laterLineages : List String} {content after : ContentTables}

theorem mono (h : content.Rooted head eventIds sourceIds lineageIds) (hhead : head ≤ later)
    (hevents : eventIds ⊆ laterIds) (hsources : sourceIds ⊆ laterSources)
    (hlineages : lineageIds ⊆ laterLineages) :
    content.Rooted later laterIds laterSources laterLineages where
  stories story hstory := (h.stories story hstory).trans hhead
  observations row hrow :=
    ⟨(h.observations row hrow).1.trans hhead, hsources (h.observations row hrow).2⟩
  linksDistinct := h.linksDistinct
  linked := h.linked
  linkEvents link hlink eventId hevent := hevents (h.linkEvents link hlink eventId hevent)
  verifications row hrow := hevents (h.verifications row hrow)
  assessments row hrow :=
    ⟨hevents (h.assessments row hrow).1, hlineages (h.assessments row hrow).2⟩

theorem withObservation (h : content.Rooted head eventIds sourceIds lineageIds)
    {story : StoryRow} {observation : ObservationRow} (hstory : story.createdSequence ≤ head)
    (hobservation : observation.createdSequence ≤ head)
    (hsource : observation.sourceId ∈ sourceIds)
    (hunlinked : (content.storyObservations.any fun stored =>
      stored.observationId == observation.observationId) = false) :
    (content.withObservation story observation).Rooted head eventIds sourceIds lineageIds := by
  refine ⟨?_, ?_, ?_, ?_, ?_, h.verifications, h.assessments⟩
  · intro stored hstored
    rcases mem_insertOrIgnore hstored with hold | rfl
    · exact h.stories stored hold
    · exact hstory
  · intro stored hstored
    rcases List.mem_append.mp hstored with hold | hnew
    · exact h.observations stored hold
    · rw [List.mem_singleton.mp hnew]
      exact ⟨hobservation, hsource⟩
  · unfold ContentTables.withObservation
    rw [List.map_append, List.map_singleton, List.nodup_append]
    refine ⟨h.linksDistinct, List.nodup_singleton _, ?_⟩
    intro id hid other hother hsame
    obtain ⟨link, hlink, rfl⟩ := List.mem_map.mp hid
    rw [List.any_eq_false] at hunlinked
    apply hunlinked link hlink
    rw [hsame, List.mem_singleton.mp hother]
    exact beq_self_eq_true _
  · intro link hlink
    unfold ContentTables.withObservation
    rw [List.map_append]
    rcases List.mem_append.mp hlink with hold | hnew
    · exact List.mem_append_left _ (h.linked link hold)
    · rw [List.mem_singleton.mp hnew]
      exact List.mem_append_right _ List.mem_cons_self
  · intro link hlink eventId hevent
    rcases List.mem_append.mp hlink with hold | hnew
    · exact h.linkEvents link hold eventId hevent
    · rw [List.mem_singleton.mp hnew] at hevent
      cases hevent

theorem relinked {eventId : String} (h : content.Rooted head eventIds sourceIds lineageIds)
    (hrelinked : content.Relinked eventId after) (hevent : eventId ∈ eventIds) :
    after.Rooted head eventIds sourceIds lineageIds := by
  refine ⟨?_, ?_, ?_, ?_, ?_, ?_, ?_⟩
  · intro story hstory
    have hmem : story.createdSequence ∈ after.stories.map StoryRow.createdSequence :=
      List.mem_map_of_mem hstory
    rw [hrelinked.stories] at hmem
    obtain ⟨old, hold, hsame⟩ := List.mem_map.mp hmem
    rw [← hsame]
    exact h.stories old hold
  · rw [hrelinked.observations]
    exact h.observations
  · rw [hrelinked.observationIds]
    exact h.linksDistinct
  · intro link hlink
    have hmem : link.observationId ∈
        after.storyObservations.map StoryObservationRow.observationId :=
      List.mem_map_of_mem hlink
    rw [hrelinked.observationIds] at hmem
    obtain ⟨old, hold, hsame⟩ := List.mem_map.mp hmem
    rw [hrelinked.observations, ← hsame]
    exact h.linked old hold
  · intro link hlink linked hlinked
    rcases hrelinked.linkEvents link hlink with hnew | hold
    · rw [hnew, Option.some.injEq] at hlinked
      rwa [← hlinked]
    · exact h.linkEvents link hold linked hlinked
  · rw [hrelinked.verifications]
    exact h.verifications
  · rw [hrelinked.assessments]
    exact h.assessments

end ContentTables.Rooted

/-- An event keeps what the tables refer to, and what it adds refers to the event. -/
theorem Db.StoriesRooted.step (hrooted : db.StoriesRooted P) (h : StoryStep P db row next) :
    next.StoriesRooted P := by
  have hbefore := hrooted.content.mono h.head_lt.le (fun _ => h.eventIds)
    (fun _ => h.sourceIds) (fun _ => h.lineageIds)
  have hown := h.own_eventId
  refine ⟨?_, ?_, ?_⟩
  · rw [h.events]
    intro stored hstored
    rcases List.mem_append.mp hstored with hold | hnew
    · exact (hrooted.numbered stored hold).trans h.head_lt.le
    · rw [List.mem_singleton.mp hnew, h.head_eq]
  · unfold Db.TargetsReadable
    rw [h.events]
    intro stored hstored
    rcases List.mem_append.mp hstored with hold | hnew
    · exact hrooted.readable stored hold
    · rw [List.mem_singleton.mp hnew]
      exact h.readable
  · have heffect := h.effect
    generalize next.content = content at heffect
    cases heffect with
    | other _ _ hstories hobservations hlinks hverifications hassessments =>
        refine ⟨?_, ?_, ?_, ?_, ?_, ?_, ?_⟩
        · rw [hstories]
          exact hbefore.stories
        · rw [hobservations]
          exact hbefore.observations
        · rw [hlinks]
          exact hbefore.linksDistinct
        · rw [hlinks, hobservations]
          exact hbefore.linked
        · rw [hlinks]
          exact hbefore.linkEvents
        · rw [hverifications]
          exact hbefore.verifications
        · rw [hassessments]
          exact hbefore.assessments
    | observe story observation _ hstory _ hobservation hsource hunlinked =>
        apply hbefore.withObservation
        · rw [hstory, h.head_eq]
        · rw [hobservation, h.head_eq]
        · exact h.sourceIds hsource
        · exact hunlinked
    | verify verification _ hevent =>
        refine { hbefore with verifications := ?_ }
        intro stored hstored
        rcases mem_upsert hstored with rfl | hold
        · rw [hevent]
          exact hown
        · exact hbefore.verifications stored hold
    | assess assessment _ hevent hassessor =>
        refine { hbefore with assessments := ?_ }
        intro stored hstored
        rcases mem_upsert hstored with rfl | hold
        · obtain ⟨lineage, hlineage⟩ := Option.ne_none_iff_exists'.mp hassessor
          have htest := List.find?_some hlineage
          rw [hevent]
          refine ⟨hown, h.lineageIds (List.mem_map.mpr ⟨lineage, ?_, by simpa using htest⟩)⟩
          exact List.mem_of_find?_eq_some hlineage
        · exact hbefore.assessments stored hold
    | link storyId observationIds _ _ hfold =>
        exact hbefore.relinked (ContentTables.relinked_of_fold hfold) hown

theorem Db.StoriesRooted.quiet (h : db.StoriesRooted P) (hquiet : db.Quiet next) :
    next.StoriesRooted P := by
  have hhead : next.head = db.head := by rw [Db.head, Db.head, hquiet.events]
  have hsources : next.sources.map SourceRow.sourceId =
      db.sources.map SourceRow.sourceId := by
    rcases hquiet.sources with hsame | ⟨sourceId, success, hfetched⟩
    · rw [hsame]
    · rw [hfetched, Db.markSourceFetch, map_updateWhere]
      intro source _
      unfold SourceRow.fetched
      split <;> rfl
  refine ⟨?_, ?_, ?_⟩
  · rw [hquiet.events, hhead]
    exact h.numbered
  · unfold Db.TargetsReadable
    rw [hquiet.events]
    exact h.readable
  · rw [hquiet.content, hquiet.events, hquiet.authority, hhead, hsources]
    exact h.content

theorem run_storiesRooted (identity : NodeIdentity P) (actions : List Action) :
    (NodeState.run P identity actions).db.StoriesRooted P := by
  induction actions using List.reverseRecOn with
  | nil =>
      refine ⟨?_, ?_, ?_, ?_, List.nodup_nil, ?_, ?_, ?_, ?_⟩
      all_goals
        intro row hrow
        cases hrow
  | append_singleton actions action ih =>
      rw [NodeState.run_append_singleton]
      rcases (NodeState.run P identity actions).step_storyStep action with hquiet |
        ⟨row, hstep⟩
      · exact ih.quiet hquiet
      · exact ih.step hstep

end

end

end Commonwake
