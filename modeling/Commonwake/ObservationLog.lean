import Commonwake.SampleNode
import Commonwake.StoryForest

/-!
# The observations in the log

An entry of a feed is identified by its source, its address and the digest of
its content.  The log holds one event for every entry which was ingested, the
observations follow it row by row, and ingesting an entry again adds nothing.
-/

namespace Commonwake

open Outcome Table HashChain

/-- What makes two entries the same document. -/
structure DocumentKey where
  sourceId : String
  canonicalUrl : String
  documentHash : String
  deriving DecidableEq

namespace DocumentKey

/-- What the id of the observation is the digest of. -/
def bytes (key : DocumentKey) : Bytes :=
  utf8 key.sourceId ++ 0 :: (utf8 key.canonicalUrl ++ 0 :: utf8 key.documentHash)

def SameAddress (first second : DocumentKey) : Prop :=
  first.sourceId = second.sourceId ∧ first.canonicalUrl = second.canonicalUrl

end DocumentKey

def ObservationRow.key (row : ObservationRow) : DocumentKey :=
  ⟨row.sourceId, row.canonicalUrl, row.documentHash⟩

def FederatedObservationPayload.key (payload : FederatedObservationPayload) : DocumentKey :=
  ⟨payload.sourceId, payload.canonicalUrl, payload.documentHash⟩

def IngestedObservation.key (observation : IngestedObservation) : DocumentKey :=
  ⟨observation.sourceId, observation.canonicalUrl, observation.documentHash⟩

section

variable (P : Primitives)

def DocumentKey.observationId (key : DocumentKey) : String :=
  P.prefixedId "cwobs_" key.bytes

/-- The document of an observation event, as its canonical object has it. -/
def EventRow.document? (row : EventRow) : Option DocumentKey :=
  if row.kind = "observation" then
    ((P.parse row.canonicalJson).bind (FederatedObservationEnvelope.ofJson P)).map
      fun envelope => envelope.payload.key
  else none

/-- The document which an action ingests, when its transaction succeeds. -/
def NodeState.ingested (identity : NodeIdentity P) (node : NodeState) :
    Action → Option DocumentKey
  | .observe sourceId languages feed retrievedAt entry appendedAt =>
      match entryUrl P entry with
      | some canonicalUrl =>
          let observation := entryObservation P sourceId languages feed retrievedAt entry
            canonicalUrl
          match node.db.appendObservation P identity observation appendedAt with
          | .ok _ => some observation.key
          | .error _ => none
      | none => none
  | _ => none

/-- The documents which a list of actions ingests, one after the other. -/
def NodeState.ingestedBy (identity : NodeIdentity P) :
    NodeState → List Action → List DocumentKey
  | _, [] => []
  | node, action :: rest =>
      (node.ingested P identity action).toList ++
        ingestedBy identity (node.step P identity action) rest

/-- The documents which a run ingests. -/
def ingestedDocuments (identity : NodeIdentity P) (actions : List Action) :
    List DocumentKey :=
  (NodeState.init P identity).ingestedBy P identity actions

/-- How the observations of a node follow its log. -/
structure ObservationsSound (db : Db) : Prop where
  logged : db.events.filterMap (EventRow.document? P) =
    db.content.observations.map ObservationRow.key
  kinds : ∀ row ∈ db.events, row.kind = "observation" → row.document? P ≠ none
  named : ∀ observation ∈ db.content.observations,
    observation.observationId = observation.key.observationId P
  distinct : (db.content.observations.map ObservationRow.key).Nodup
  sequenced : ∀ observation ∈ db.content.observations,
    ∃ row ∈ db.events, row.sequence = observation.createdSequence
  ordered : (db.content.observations.map ObservationRow.createdSequence).Pairwise (· < ·)
  linked : ∀ observation ∈ db.content.observations, observation.observationId ∈
    db.content.storyObservations.map StoryObservationRow.observationId
  stories : ∀ storyId ∈ db.content.stories.map StoryRow.storyId,
    ∃ observation ∈ db.content.observations, storyId = storyIdOf P observation.observationId
  housed : ∀ link ∈ db.content.storyObservations,
    link.storyId ∈ db.content.stories.map StoryRow.storyId

/-- The bytes which are digested to name documents and their stories. -/
def digestedBytes (keys : List DocumentKey) : Set Bytes :=
  {bytes | ∃ key ∈ keys, bytes = key.bytes ∨ bytes = utf8 (key.observationId P)}

/-- The observation of a row was attached, when it was appended, to the story which
held the earliest observation of its address, or to a story of its own. -/
def Attached (db next : Db) (row : ObservationRow) : Prop :=
  ∃ storyId, next.content.storyOf? row.observationId = some storyId ∧
    ((∃ first ∈ db.content.observations, first.key.SameAddress row.key ∧
        (∀ other ∈ db.content.observations, other.key.SameAddress row.key →
          first.createdSequence ≤ other.createdSequence) ∧
        db.content.storyOf? first.observationId = some storyId) ∨
      ((∀ other ∈ db.content.observations, ¬ other.key.SameAddress row.key) ∧
        db.content.hasStory storyId = false))

end

section

variable {P : Primitives} {identity : NodeIdentity P}

/-! ## The documents of a run -/

namespace NodeState

theorem ingestedBy_append (node : NodeState) (actions rest : List Action) :
    node.ingestedBy P identity (actions ++ rest) = node.ingestedBy P identity actions ++
      (actions.foldl (step P identity) node).ingestedBy P identity rest := by
  induction actions generalizing node with
  | nil => rfl
  | cons action tail ih =>
      rw [List.cons_append, ingestedBy, ih, ingestedBy, List.foldl_cons, List.append_assoc]

end NodeState

theorem ingestedDocuments_append (actions rest : List Action) :
    ingestedDocuments P identity (actions ++ rest) = ingestedDocuments P identity actions ++
      (NodeState.run P identity actions).ingestedBy P identity rest :=
  NodeState.ingestedBy_append _ actions rest

theorem ingestedDocuments_append_singleton (actions : List Action) (action : Action) :
    ingestedDocuments P identity (actions ++ [action]) =
      ingestedDocuments P identity actions ++
        ((NodeState.run P identity actions).ingested P identity action).toList := by
  rw [ingestedDocuments_append, NodeState.ingestedBy, NodeState.ingestedBy, List.append_nil]

/-! ## What a step does to the observations -/

/-- No contribution gives a story another id, or adds one. -/
theorem ContentTables.record_storyIds {lineageId eventId : String}
    {contribution : SignedContribution} {content next : ContentTables}
    (h : content.record P lineageId eventId contribution = .ok next) :
    next.stories.map StoryRow.storyId = content.stories.map StoryRow.storyId := by
  unfold ContentTables.record at h
  cases hkind : contribution.kind with
  | sourceReview =>
      simp only [hkind, bind_eq_ok, pure_eq_ok, Except.ok.injEq] at h
      obtain ⟨review, -, rfl⟩ := h
      rfl
  | observationVerification =>
      simp only [hkind, bind_eq_ok, pure_eq_ok, Except.ok.injEq] at h
      obtain ⟨verification, -, rfl⟩ := h
      rfl
  | storyLink =>
      simp only [hkind, bind_eq_ok] at h
      obtain ⟨link, -, hfold⟩ := h
      have hstep : ∀ (state : ContentTables) (observationId : String) (after : ContentTables),
          state.stories.map StoryRow.storyId = content.stories.map StoryRow.storyId →
          federateLink link.storyId eventId state observationId = .ok after →
          after.stories.map StoryRow.storyId = content.stories.map StoryRow.storyId := by
        intro state observationId after hstate hafter
        simp only [federateLink, bind_eq_ok, okOr_eq_ok] at hafter
        obtain ⟨oldStory, -, hafter⟩ := hafter
        split at hafter
        · cases hafter
          exact hstate
        · cases hafter
          rw [map_storyId_moveObservation, hstate]
      exact foldState_invariant hstep rfl hfold
  | assessment =>
      simp only [hkind, bind_eq_ok, pure_eq_ok, Except.ok.injEq] at h
      obtain ⟨assessment, -, rfl⟩ := h
      rfl
  | _ =>
      simp only [hkind, pure_eq_ok, Except.ok.injEq] at h
      rw [h]

/-- A report leaves every observation in a story which exists. -/
theorem ContentTables.record_housed {lineageId eventId : String}
    {contribution : SignedContribution} {content next : ContentTables}
    (h : content.record P lineageId eventId contribution = .ok next)
    (hhoused : ∀ link ∈ content.storyObservations,
      link.storyId ∈ content.stories.map StoryRow.storyId)
    (hlinks : contribution.kind = .storyLink → ∀ link,
      decodePayload (StoryLinkPayload.ofJson P) contribution.payload = .ok link →
        content.hasStory link.storyId = true) :
    ∀ link ∈ next.storyObservations, link.storyId ∈ next.stories.map StoryRow.storyId := by
  rw [ContentTables.record_storyIds h]
  unfold ContentTables.record at h
  cases hkind : contribution.kind with
  | storyLink =>
      simp only [hkind, bind_eq_ok] at h
      obtain ⟨link, hlink, hfold⟩ := h
      have hknown : link.storyId ∈ content.stories.map StoryRow.storyId := by
        have hstory := hlinks hkind link hlink
        simp only [ContentTables.hasStory, List.any_eq_true, beq_iff_eq] at hstory
        obtain ⟨story, hmem, hid⟩ := hstory
        exact List.mem_map.mpr ⟨story, hmem, hid⟩
      have hstep : ∀ (state : ContentTables) (observationId : String) (after : ContentTables),
          (∀ row ∈ state.storyObservations,
            row.storyId ∈ content.stories.map StoryRow.storyId) →
          federateLink link.storyId eventId state observationId = .ok after →
          ∀ row ∈ after.storyObservations,
            row.storyId ∈ content.stories.map StoryRow.storyId := by
        intro state observationId after hstate hafter
        simp only [federateLink, bind_eq_ok, okOr_eq_ok] at hafter
        obtain ⟨oldStory, -, hafter⟩ := hafter
        by_cases hsame : oldStory = link.storyId
        · rw [if_pos hsame] at hafter
          cases hafter
          exact hstate
        · rw [if_neg hsame] at hafter
          cases hafter
          intro row hrow
          obtain ⟨old, hold, rfl⟩ := ContentTables.mem_links_moveObservation.mp hrow
          by_cases hmoved : old.observationId = observationId
          · simp only [hmoved, BEq.rfl, if_true]
            exact hknown
          · simp only [hmoved, beq_iff_eq, if_false]
            exact hstate old hold
      exact foldState_invariant hstep hhoused hfold
  | sourceReview | observationVerification | assessment =>
      simp only [hkind, bind_eq_ok, pure_eq_ok, Except.ok.injEq] at h
      obtain ⟨_, -, rfl⟩ := h
      exact hhoused
  | _ =>
      simp only [hkind, pure_eq_ok, Except.ok.injEq] at h
      rw [← h]
      exact hhoused

/-- The story of a link was there when the link was committed. -/
theorem Db.validateProjection_hasStory {db : Db} {lineageId : String}
    {contribution : SignedContribution} {now : ℤ}
    (h : db.validateProjection P lineageId contribution now = .ok ())
    (hkind : contribution.kind = .storyLink) (link : StoryLinkPayload)
    (hlink : decodePayload (StoryLinkPayload.ofJson P) contribution.payload = .ok link) :
    db.content.hasStory link.storyId = true := by
  simp only [Db.validateProjection, Db.validateKind, hkind, hlink, ok_bind, bind_eq_ok,
    Db.validateStoryLink, ensureExists, rejectIf_eq_ok, Bool.not_eq_false] at h
  obtain ⟨-, -, -, -, -, hstory, -⟩ := h
  exact hstory

theorem EventRow.document?_of_ne {row : EventRow} (h : row.kind ≠ "observation") :
    row.document? P = none := by
  unfold EventRow.document?
  rw [if_neg h]

/-- A step which logs no observation. -/
theorem ObservationsSound.kept {db next : Db} {rows : List EventRow}
    (h : ObservationsSound P db) (hevents : next.events = db.events ++ rows)
    (hrows : ∀ row ∈ rows, row.kind ≠ "observation")
    (hobservations : next.content.observations = db.content.observations)
    (hlinks : next.content.storyObservations.map StoryObservationRow.observationId =
      db.content.storyObservations.map StoryObservationRow.observationId)
    (hstories : next.content.stories.map StoryRow.storyId =
      db.content.stories.map StoryRow.storyId)
    (hhoused : ∀ link ∈ next.content.storyObservations,
      link.storyId ∈ next.content.stories.map StoryRow.storyId) :
    ObservationsSound P next := by
  have hnone : rows.filterMap (EventRow.document? P) = [] := by
    rw [List.filterMap_eq_nil_iff]
    intro row hrow
    exact EventRow.document?_of_ne (hrows row hrow)
  refine ⟨?_, ?_, ?_, ?_, ?_, ?_, ?_, ?_, hhoused⟩
  · rw [hevents, List.filterMap_append, hnone, List.append_nil, hobservations]
    exact h.logged
  · intro row hrow hkind
    rw [hevents] at hrow
    cases List.mem_append.mp hrow with
    | inl hold => exact h.kinds row hold hkind
    | inr hnew => exact absurd hkind (hrows row hnew)
  · rw [hobservations]
    exact h.named
  · rw [hobservations]
    exact h.distinct
  · rw [hobservations]
    intro observation hobservation
    obtain ⟨row, hrow, hsequence⟩ := h.sequenced observation hobservation
    refine ⟨row, ?_, hsequence⟩
    rw [hevents]
    exact List.mem_append_left rows hrow
  · rw [hobservations]
    exact h.ordered
  · rw [hobservations, hlinks]
    exact h.linked
  · rw [hobservations, hstories]
    exact h.stories

/-- The document of the event of an observation. -/
theorem Observed.document? {observation : IngestedObservation} {appendedAt : ℤ}
    {db next : Db} {row : EventRow} {accepted : AcceptedObject}
    (h : Observed P identity observation appendedAt db row accepted next) :
    row.document? P = some observation.key := by
  obtain ⟨logged, happended, -⟩ := h.appended
  obtain ⟨-, hkind, -, -, -, -, hjson⟩ := happended.columns
  have hread := FederatedObservationEnvelope.ofJson_canon P
    (observationEnvelope (db.observationPayload P observation))
  unfold EventRow.document?
  rw [hkind, hjson]
  simp only [observationInput, Primitives.parse_jcs', Option.bind_some, hread, if_true,
    Option.map_some]
  rfl

theorem ObservationsSound.createdSequence_le {db : Db} (h : ObservationsSound P db)
    (hlog : LogSound P db.events) {observation : ObservationRow}
    (hobservation : observation ∈ db.content.observations) :
    observation.createdSequence ≤ db.head := by
  obtain ⟨row, hrow, hsequence⟩ := h.sequenced observation hobservation
  have hbound := (hlog.numbered.mem_bounds hrow).2
  rw [hlog.head_eq, ← hsequence]
  omega

/-- The story of a new observation is known, or named after it. -/
theorem ObservationsSound.storyId_known {db : Db} (h : ObservationsSound P db)
    (observation : IngestedObservation) :
    (db.observationPayload P observation).storyId ∈
        db.content.stories.map StoryRow.storyId ∨
      (db.observationPayload P observation).storyId =
        storyIdOf P (db.observationPayload P observation).observationId := by
  unfold Db.observationPayload
  simp only
  cases hexisting : db.content.existingStory observation.sourceId
      observation.canonicalUrl with
  | none => exact .inr rfl
  | some storyId =>
      obtain ⟨link, hlink, hid⟩ := ContentTables.isInhabited_of_existingStory hexisting
      rw [Option.getD_some, ← hid]
      exact .inl (h.housed link hlink)

/-- An observation which is logged. -/
theorem ObservationsSound.observed {observation : IngestedObservation} {appendedAt : ℤ}
    {db next : Db} {row : EventRow} {accepted : AcceptedObject}
    (h : ObservationsSound P db) (hlog : LogSound P db.events)
    (hobserved : Observed P identity observation appendedAt db row accepted next) :
    ObservationsSound P next := by
  obtain ⟨-, hnew, -, hcontent, -⟩ := Db.appendObservation_eq_ok hobserved
  obtain ⟨logged, happended, -⟩ := hobserved.appended
  have hsequence : row.sequence = db.head + 1 := happended.columns.1
  have haccepted : accepted.sequence = row.sequence := by
    rw [happended.accepted_eq]
  have hstories : next.content.stories = insertOrIgnore
      (fun stored => stored.storyId == (db.observationPayload P observation).storyId)
      (observedStory P (db.observationPayload P observation) accepted.sequence)
      db.content.stories := by
    rw [hcontent]
    rfl
  rw [List.any_eq_false] at hnew
  refine ⟨?_, ?_, ?_, ?_, ?_, ?_, ?_, ?_, ?_⟩
  · rw [hobserved.events, hcontent, List.filterMap_append, h.logged]
    simp only [ContentTables.withObservation, List.map_append, List.map_singleton,
      List.filterMap_cons, List.filterMap_nil, hobserved.document?]
    rfl
  · rw [hobserved.events]
    intro stored hstored hkind
    cases List.mem_append.mp hstored with
    | inl hold => exact h.kinds stored hold hkind
    | inr hlast =>
        rw [List.mem_singleton.mp hlast, hobserved.document?]
        exact Option.some_ne_none _
  · rw [hcontent]
    intro stored hstored
    cases List.mem_append.mp hstored with
    | inl hold => exact h.named stored hold
    | inr hlast =>
        rw [List.mem_singleton.mp hlast]
        rfl
  · rw [hcontent]
    simp only [ContentTables.withObservation, List.map_append, List.map_singleton]
    rw [List.nodup_append]
    refine ⟨h.distinct, List.nodup_singleton _, ?_⟩
    intro key hkey other hother hsame
    obtain ⟨stored, hstored, rfl⟩ := List.mem_map.mp hkey
    rw [List.mem_singleton.mp hother] at hsame
    apply hnew stored hstored
    rw [beq_iff_eq, h.named stored hstored, hsame]
    rfl
  · rw [hobserved.events, hcontent]
    intro stored hstored
    cases List.mem_append.mp hstored with
    | inl hold =>
        obtain ⟨entry, hentry, hid⟩ := h.sequenced stored hold
        exact ⟨entry, List.mem_append_left _ hentry, hid⟩
    | inr hlast =>
        rw [List.mem_singleton.mp hlast]
        exact ⟨row, List.mem_append_right _ List.mem_cons_self, haccepted.symm⟩
  · rw [hcontent]
    simp only [ContentTables.withObservation, List.map_append, List.map_singleton]
    rw [List.pairwise_append]
    refine ⟨h.ordered, List.pairwise_singleton _ _, ?_⟩
    intro sequence hmem other hother
    obtain ⟨stored, hstored, rfl⟩ := List.mem_map.mp hmem
    have hbound := h.createdSequence_le hlog hstored
    have hlast : other = accepted.sequence := List.mem_singleton.mp hother
    omega
  · rw [hcontent]
    intro stored hstored
    simp only [ContentTables.withObservation, List.map_append, List.map_singleton]
    cases List.mem_append.mp hstored with
    | inl hold => exact List.mem_append_left _ (h.linked stored hold)
    | inr hlast =>
        rw [List.mem_singleton.mp hlast]
        exact List.mem_append_right _ List.mem_cons_self
  · rw [hstories]
    intro storyId hstory
    have hold : ∀ known ∈ db.content.stories.map StoryRow.storyId,
        ∃ stored ∈ next.content.observations,
          known = storyIdOf P stored.observationId := by
      intro known hknown
      obtain ⟨stored, hstored, hname⟩ := h.stories known hknown
      rw [hcontent]
      exact ⟨stored, List.mem_append_left _ hstored, hname⟩
    obtain ⟨story, hmem, rfl⟩ := List.mem_map.mp hstory
    cases mem_insertOrIgnore hmem with
    | inl hkept => exact hold _ (List.mem_map_of_mem hkept)
    | inr hadded =>
        rw [hadded]
        cases h.storyId_known observation with
        | inl hknown => exact hold _ hknown
        | inr hname =>
            rw [hcontent]
            exact ⟨_, List.mem_append_right _ List.mem_cons_self, hname⟩
  · rw [hstories, hcontent]
    intro link hlink
    cases List.mem_append.mp hlink with
    | inl hold =>
        have hkept := List.map_subset StoryRow.storyId (subset_insertOrIgnore
          (fun stored => stored.storyId == (db.observationPayload P observation).storyId)
          (observedStory P (db.observationPayload P observation) accepted.sequence)
          db.content.stories)
        exact hkept (h.housed link hold)
    | inr hlast =>
        rw [List.mem_singleton.mp hlast]
        have hadded : ∃ story ∈ insertOrIgnore
            (fun stored => stored.storyId == (db.observationPayload P observation).storyId)
            (observedStory P (db.observationPayload P observation) accepted.sequence)
            db.content.stories,
            story.storyId = (db.observationPayload P observation).storyId := by
          apply exists_mem_insertOrIgnore
          · rfl
          · intro story hclash
            exact beq_iff_eq.mp hclash
        obtain ⟨story, hmem, hid⟩ := hadded
        exact List.mem_map.mpr ⟨story, hmem, hid⟩

theorem observationsSound_init (P : Primitives) (nodeId : String) :
    ObservationsSound P (Db.init P nodeId) := by
  refine ⟨rfl, ?_, ?_, List.nodup_nil, ?_, List.Pairwise.nil, ?_, ?_, ?_⟩
  all_goals
    intro row hrow
    cases hrow

theorem History.observationsSound {commits : PendingCall → Db → ℤ → Prop}
    {entries : FeedEntry → Prop} {db : Db} (h : History P identity commits entries db) :
    ObservationsSound P db := by
  induction h with
  | init => exact observationsSound_init P identity.nodeId
  | quiet db next _ hquiet ih =>
      have hevents : next.events = db.events ++ [] := by
        rw [hquiet.events, List.append_nil]
      refine ih.kept hevents ?_ ?_ ?_ ?_ ?_
      · intro row hrow
        cases hrow
      all_goals rw [hquiet.content]
      exact ih.housed
  | commit db next call appendedAt row accepted _ _ _ hcommit hcommitted ih =>
      obtain ⟨logged, happended, -⟩ := hcommitted.appended
      have hkind := happended.columns.2.1
      cases Admitted.commit_content hcommit with
      | inl hcontribution =>
          obtain ⟨lineageId, contribution, hadmitted⟩ := hcontribution
          rw [hadmitted] at hcommit hkind
          obtain ⟨hvalid, base, hbase, happly⟩ :=
            Db.appendContribution_row hcommit hcommitted.events
          have hcontent : base.content = db.content := by
            rw [hbase.next_eq]
          have hrecord := Db.applyProjection_record happly
          rw [hcontent] at hrecord
          obtain ⟨-, hobservations, hlinks⟩ := ContentTables.record_frame hrecord
          refine ih.kept hcommitted.events ?_ hobservations hlinks
            (ContentTables.record_storyIds hrecord)
            (ContentTables.record_housed hrecord ih.housed
              (Db.validateProjection_hasStory hvalid))
          intro stored hstored
          rw [List.mem_singleton.mp hstored, hkind]
          change contribution.kind.asStr ≠ "observation"
          cases contribution.kind <;> decide
      | inr hframe =>
          obtain ⟨hadministrative, hcontent, -⟩ := hframe
          refine ih.kept hcommitted.events ?_ ?_ ?_ ?_ ?_
          · intro stored hstored
            rw [List.mem_singleton.mp hstored, hkind]
            intro hobservation
            rw [hobservation] at hadministrative
            cases hadministrative
          all_goals rw [hcontent]
          exact ih.housed
  | observe db next sourceId languages feed retrievedAt entry canonicalUrl appendedAt row
      accepted hbefore _ hobserved ih =>
      exact ih.observed hbefore.logSound hobserved
  | witness db next bundle observedAt appendedAt row _ hwitnessed ih =>
      obtain ⟨base, accepted, logged, hbase, happended⟩ := hwitnessed.appended
      have hkind := happended.columns.2.1
      refine ih.kept hwitnessed.events ?_ ?_ ?_ ?_ ?_
      · intro stored hstored
        rw [List.mem_singleton.mp hstored, hkind]
        exact (by decide : "checkpoint_witnessed" ≠ "observation")
      all_goals rw [hwitnessed.same.content]
      exact ih.housed

theorem run_observationsSound (P : Primitives) (identity : NodeIdentity P)
    (actions : List Action) : ObservationsSound P (NodeState.run P identity actions).db :=
  (run_history_any P identity actions).observationsSound

/-! ## What is stored is not logged again -/

theorem storedObservation_isSome_iff {db : Db} (h : ObservationsSound P db)
    {observationId : String} :
    (db.storedObservation observationId).isSome ↔
      ∃ observation ∈ db.content.observations,
        observation.observationId = observationId := by
  unfold Db.storedObservation
  constructor
  · intro hstored
    cases hfind : db.content.observations.find? fun row =>
        row.observationId == observationId with
    | none => simp [hfind] at hstored
    | some observation =>
        have hid := List.find?_some hfind
        exact ⟨observation, List.mem_of_find?_eq_some hfind, beq_iff_eq.mp hid⟩
  · rintro ⟨observation, hobservation, hid⟩
    cases hfind : db.content.observations.find? fun row =>
        row.observationId == observationId with
    | none =>
        rw [List.find?_eq_none] at hfind
        exact absurd (beq_iff_eq.mpr hid) (hfind observation hobservation)
    | some found =>
        obtain ⟨row, hrow, hsequence⟩ :=
          h.sequenced found (List.mem_of_find?_eq_some hfind)
        have hevent : (db.events.find? fun row =>
            row.sequence == found.createdSequence).isSome := by
          rw [List.find?_isSome]
          exact ⟨row, hrow, beq_iff_eq.mpr hsequence⟩
        obtain ⟨event, hevent⟩ := Option.isSome_iff_exists.mp hevent
        simp [hevent]

theorem Admitted.commit_observations {admitted : Admitted} {appendedAt : ℤ} {db next : Db}
    {accepted : AcceptedObject}
    (h : admitted.commit P identity appendedAt db = .ok (accepted, next)) :
    next.content.observations = db.content.observations := by
  cases Admitted.commit_content h with
  | inl hcontribution =>
      obtain ⟨lineageId, contribution, rfl⟩ := hcontribution
      obtain ⟨-, logged, happend, happly⟩ := Db.appendContribution_eq_ok h
      obtain ⟨_, happended⟩ := appendEvent_eq_ok happend
      have hcontent : logged.content = db.content := by
        rw [happended.next_eq]
      rw [(ContentTables.record_frame (Db.applyProjection_record happly)).2.1, hcontent]
  | inr hframe => rw [hframe.2.1]

namespace NodeState

variable (identity) in
/-- A step stores one more observation, or ingests only what is stored. -/
theorem step_observations (node : NodeState) (action : Action) :
    ((node.step P identity action).db.content.observations =
        node.db.content.observations ∧
      ∀ key, node.ingested P identity action = some key →
        (node.db.storedObservation (key.observationId P)).isSome) ∨
    ∃ observation appendedAt row accepted,
      node.ingested P identity action = some observation.key ∧
        Observed P identity observation appendedAt node.db row accepted
          (node.step P identity action).db := by
  cases action with
  | observe sourceId languages feed retrievedAt entry appendedAt =>
      simp only [step, ingested]
      cases hurl : entryUrl P entry with
      | none => exact .inl ⟨rfl, by simp⟩
      | some canonicalUrl =>
          simp only
          generalize entryObservation P sourceId languages feed retrievedAt entry
            canonicalUrl = observation
          cases hstored : node.db.storedObservation
              (node.db.observationPayload P observation).observationId with
          | some accepted =>
              rw [Db.appendObservation_stored identity hstored]
              refine .inl ⟨rfl, ?_⟩
              intro key hkey
              cases hkey
              exact Option.isSome_iff_exists.mpr ⟨accepted, hstored⟩
          | none =>
              cases happend : node.db.appendObservation P identity observation
                  appendedAt with
              | error e => exact .inl ⟨rfl, by simp⟩
              | ok pair =>
                  obtain ⟨accepted, next⟩ := pair
                  obtain ⟨row, logged, happended, hsame⟩ :=
                    (Db.appendObservation_logs identity observation appendedAt hstored _
                      happend).appended
                  exact .inr ⟨observation, appendedAt, row, accepted, rfl, hstored, happend,
                    logged, happended, hsame⟩
  | commit index appendedAt =>
      refine .inl ⟨?_, by simp [ingested]⟩
      simp only [step]
      cases node.pending[index]? with
      | none => rfl
      | some call =>
          simp only
          cases settle_cases node.db
              (call.admitted.commit P identity appendedAt node.db) with
          | inl hsame => rw [hsame]
          | inr hok =>
              obtain ⟨accepted, hcommit⟩ := hok
              exact Admitted.commit_observations hcommit
  | importBundle bundle observedAt now appendedAt =>
      obtain ⟨hsame, -⟩ := importFederationBundle_frame identity bundle observedAt now
        appendedAt node.db
      refine .inl ⟨?_, by simp [ingested]⟩
      exact congrArg ContentTables.observations hsame.content
  | markSourceFetch sourceId success => exact .inl ⟨rfl, by simp [ingested]⟩
  | check call checkedAt =>
      refine .inl ⟨?_, by simp [ingested]⟩
      simp only [step]
      cases call.check P checkedAt node.db with
      | error e => rfl
      | ok admitted => rfl

end NodeState

/-- The stored observations are those which were ingested. -/
theorem run_ingested (P : Primitives) (identity : NodeIdentity P) (actions : List Action) :
    (∀ observation ∈ (NodeState.run P identity actions).db.content.observations,
      observation.key ∈ ingestedDocuments P identity actions) ∧
    ∀ key ∈ ingestedDocuments P identity actions,
      ((NodeState.run P identity actions).db.storedObservation
        (key.observationId P)).isSome := by
  induction actions using List.reverseRecOn with
  | nil =>
      constructor
      · intro observation hobservation
        cases hobservation
      · intro key hkey
        cases hkey
  | append_singleton actions action ih =>
      obtain ⟨hkeys, hstored⟩ := ih
      have hbefore := run_observationsSound P identity actions
      have hafter := run_observationsSound P identity (actions ++ [action])
      rw [ingestedDocuments_append_singleton]
      rw [NodeState.run_append_singleton] at hafter ⊢
      generalize NodeState.run P identity actions = node at hkeys hstored hbefore hafter ⊢
      have hstep := node.step_observations identity action
      cases hstep with
      | inl hkept =>
          obtain ⟨hsame, hknown⟩ := hkept
          constructor
          · rw [hsame]
            intro observation hobservation
            exact List.mem_append_left _ (hkeys observation hobservation)
          · intro key hkey
            rw [storedObservation_isSome_iff hafter, hsame,
              ← storedObservation_isSome_iff hbefore]
            cases List.mem_append.mp hkey with
            | inl hold => exact hstored key hold
            | inr hnew => exact hknown key (Option.mem_toList.mp hnew)
      | inr hnew =>
          obtain ⟨observation, appendedAt, row, accepted, hingested, hobserved⟩ := hnew
          obtain ⟨-, -, -, hcontent, -⟩ := Db.appendObservation_eq_ok hobserved
          rw [hingested]
          constructor
          · rw [hcontent]
            intro stored hmem
            cases List.mem_append.mp hmem with
            | inl hold => exact List.mem_append_left _ (hkeys stored hold)
            | inr hlast =>
                rw [List.mem_singleton.mp hlast]
                exact List.mem_append_right _ List.mem_cons_self
          · intro key hkey
            rw [storedObservation_isSome_iff hafter, hcontent]
            cases List.mem_append.mp hkey with
            | inl hold =>
                obtain ⟨stored, hmem, hid⟩ :=
                  (storedObservation_isSome_iff hbefore).mp (hstored key hold)
                exact ⟨stored, List.mem_append_left _ hmem, hid⟩
            | inr hlast =>
                rw [← Option.some_inj.mp (Option.mem_toList.mp hlast)]
                exact ⟨_, List.mem_append_right _ List.mem_cons_self, rfl⟩

/-! ## Documents and their ids -/

theorem DocumentKey.bytes_inj {first second : DocumentKey}
    (hurl : (0 : UInt8) ∉ utf8 first.canonicalUrl)
    (hotherUrl : (0 : UInt8) ∉ utf8 second.canonicalUrl)
    (hhash : (0 : UInt8) ∉ utf8 first.documentHash)
    (hotherHash : (0 : UInt8) ∉ utf8 second.documentHash)
    (h : first.bytes = second.bytes) : first = second := by
  -- Only the address and the digest are free of zero bytes: read from the end.
  have hreverse := congrArg List.reverse h
  simp only [bytes, List.reverse_append, List.reverse_cons, List.append_assoc,
    List.singleton_append] at hreverse
  obtain ⟨hashes, hrest⟩ := append_zero_inj (by simpa using hhash)
    (by simpa using hotherHash) hreverse
  obtain ⟨urls, sources⟩ := append_zero_inj (by simpa using hurl)
    (by simpa using hotherUrl) hrest
  have hsource := utf8_injective (List.reverse_injective sources)
  have hcanonical := utf8_injective (List.reverse_injective urls)
  have hdocument := utf8_injective (List.reverse_injective hashes)
  cases first
  cases second
  simp_all

theorem NodeState.ingested_hash {node : NodeState} {action : Action} {key : DocumentKey}
    (h : node.ingested P identity action = some key) :
    (0 : UInt8) ∉ utf8 key.documentHash := by
  cases action with
  | observe sourceId languages feed retrievedAt entry appendedAt =>
      simp only [ingested] at h
      cases hurl : entryUrl P entry with
      | none => simp [hurl] at h
      | some canonicalUrl =>
          simp only [hurl] at h
          split at h
          · cases h
            exact zero_notMem_sha256Hex P _
          · cases h
  | _ => cases h

theorem ingestedDocuments_hash {actions : List Action} {key : DocumentKey}
    (h : key ∈ ingestedDocuments P identity actions) :
    (0 : UInt8) ∉ utf8 key.documentHash := by
  induction actions using List.reverseRecOn with
  | nil => cases h
  | append_singleton actions action ih =>
      rw [ingestedDocuments_append_singleton] at h
      cases List.mem_append.mp h with
      | inl hold => exact ih hold
      | inr hnew => exact NodeState.ingested_hash (Option.mem_toList.mp hnew)

/-- Distinct documents have distinct ids. -/
theorem observationId_injOn {actions : List Action}
    (haddresses : ∀ key ∈ ingestedDocuments P identity actions,
      (0 : UInt8) ∉ utf8 key.canonicalUrl)
    (hdigests : Set.InjOn P.sha256 (digestedBytes P (ingestedDocuments P identity actions))) :
    Set.InjOn (DocumentKey.observationId P)
      {key | key ∈ ingestedDocuments P identity actions} := by
  intro first hfirst second hsecond hsame
  have hbytes := hdigests ⟨first, hfirst, .inl rfl⟩ ⟨second, hsecond, .inl rfl⟩
    (P.sha256_eq_of_prefixedId_eq hsame)
  exact DocumentKey.bytes_inj (haddresses first hfirst) (haddresses second hsecond)
    (ingestedDocuments_hash hfirst) (ingestedDocuments_hash hsecond) hbytes

/-- Every ingested document has one event. -/
theorem run_countP_document {actions : List Action}
    (hids : Set.InjOn (DocumentKey.observationId P)
      {key | key ∈ ingestedDocuments P identity actions}) {key : DocumentKey}
    (hkey : key ∈ ingestedDocuments P identity actions) :
    (NodeState.run P identity actions).db.events.countP
      (fun row => row.document? P == some key) = 1 := by
  have hsound := run_observationsSound P identity actions
  obtain ⟨hkeys, hstored⟩ := run_ingested P identity actions
  obtain ⟨observation, hobservation, hid⟩ :=
    (storedObservation_isSome_iff hsound).mp (hstored key hkey)
  have hsame : observation.key = key := by
    apply hids (hkeys observation hobservation) hkey
    rw [← hid, hsound.named observation hobservation]
  have hmem : key ∈ (NodeState.run P identity actions).db.content.observations.map
      ObservationRow.key := List.mem_map.mpr ⟨observation, hobservation, hsame⟩
  have hcount := List.count_eq_one_of_mem hsound.distinct hmem
  rw [← hsound.logged, List.count, List.countP_filterMap] at hcount
  rw [← hcount]
  apply List.countP_congr
  intro row _
  cases row.document? P with
  | none => simp
  | some document => simp

/-! ## Ingesting again -/

theorem storedObservation_le_head {db : Db} (hlog : LogSound P db.events)
    {observationId : String} {accepted : AcceptedObject}
    (h : db.storedObservation observationId = some accepted) :
    accepted.sequence ≤ db.head := by
  simp only [Db.storedObservation, Option.bind_eq_bind, Option.bind_eq_some_iff,
    Option.pure_def, Option.some.injEq] at h
  obtain ⟨observation, -, event, hevent, rfl⟩ := h
  have hbound := (hlog.numbered.mem_bounds (List.mem_of_find?_eq_some hevent)).2
  rw [hlog.head_eq]
  rwa [zero_add] at hbound

/-- The entry was ingested before, or has no address. -/
def FeedEntry.IsStored (P : Primitives) (sourceId : String) (feed : Feed) (db : Db)
    (entry : FeedEntry) : Prop :=
  ∀ canonicalUrl, entryUrl P entry = some canonicalUrl →
    (db.storedObservation ((entryObservation P sourceId [] feed 0 entry
      canonicalUrl).key.observationId P)).isSome

theorem ingestEntry_stored {sourceId : String} {feed : Feed} {loop : IngestLoop}
    {entry : FeedEntry} (hlog : LogSound P loop.db.events)
    (h : entry.IsStored P sourceId feed loop.db) (languages : List String)
    (retrievedAt : ℤ) :
    ∃ readings, ingestEntry P identity sourceId languages feed retrievedAt loop entry =
      .ok ⟨readings, loop.accepted, loop.db⟩ := by
  unfold ingestEntry
  cases hurl : entryUrl P entry with
  | none => exact ⟨loop.readings, rfl⟩
  | some canonicalUrl =>
      obtain ⟨accepted, hstored⟩ := Option.isSome_iff_exists.mp (h canonicalUrl hurl)
      have hsequence := storedObservation_le_head hlog hstored
      have happend : loop.db.appendObservation P identity (entryObservation P sourceId
          languages feed retrievedAt entry canonicalUrl)
          (loop.readings.headD retrievedAt) = .ok (accepted, loop.db) :=
        Db.appendObservation_stored identity hstored
      refine ⟨loop.readings.tail, ?_⟩
      simp only [happend, ok_bind, if_neg (not_lt.mpr hsequence)]
      rfl

/-- An entry whose document was ingested changes nothing. -/
theorem run_step_ingested {actions : List Action} {sourceId : String}
    {languages : List String} {feed : Feed} {retrievedAt : ℤ} {entry : FeedEntry}
    {appendedAt : ℤ} {canonicalUrl : String} (hurl : entryUrl P entry = some canonicalUrl)
    (hkey : (entryObservation P sourceId languages feed retrievedAt entry
      canonicalUrl).key ∈ ingestedDocuments P identity actions) :
    (NodeState.run P identity actions).step P identity
        (.observe sourceId languages feed retrievedAt entry appendedAt) =
      NodeState.run P identity actions := by
  have hstored := (run_ingested P identity actions).2 _ hkey
  obtain ⟨accepted, hstored⟩ := Option.isSome_iff_exists.mp hstored
  have happend : (NodeState.run P identity actions).db.appendObservation P identity
      (entryObservation P sourceId languages feed retrievedAt entry canonicalUrl) appendedAt =
        .ok (accepted, (NodeState.run P identity actions).db) :=
    Db.appendObservation_stored identity hstored
  simp only [NodeState.step, hurl, happend, settle]

theorem ingestEntries_stored {sourceId : String} {feed : Feed} {entries : List FeedEntry}
    {loop : IngestLoop} (hlog : LogSound P loop.db.events)
    (h : ∀ entry ∈ entries, entry.IsStored P sourceId feed loop.db)
    (languages : List String) (retrievedAt : ℤ) :
    ∃ readings, ingestEntries P identity sourceId languages feed retrievedAt loop entries =
      (.ok (), ⟨readings, loop.accepted, loop.db⟩) := by
  induction entries generalizing loop with
  | nil => exact ⟨loop.readings, rfl⟩
  | cons entry rest ih =>
      obtain ⟨readings, hentry⟩ : ∃ readings, ingestEntry P identity sourceId languages feed
          retrievedAt loop entry = .ok ⟨readings, loop.accepted, loop.db⟩ :=
        ingestEntry_stored hlog (h entry List.mem_cons_self) languages retrievedAt
      unfold ingestEntries
      rw [hentry]
      have hrest : ∀ other ∈ rest, other.IsStored P sourceId feed loop.db :=
        fun other hother => h other (List.mem_cons_of_mem _ hother)
      have hloop : LogSound P (⟨readings, loop.accepted, loop.db⟩ : IngestLoop).db.events :=
        hlog
      exact ih hloop hrest

/-- A loop which succeeds has ingested every entry with an address. -/
theorem ingestEntries_ingested {sourceId : String} {languages : List String} {feed : Feed}
    {retrievedAt : ℤ} (pending : List PendingCall) {loop final : IngestLoop}
    {entries : List FeedEntry}
    (h : ingestEntries P identity sourceId languages feed retrievedAt loop entries =
      (.ok (), final)) :
    ∃ observes : List Action,
      (⟨final.db, pending⟩ : NodeState) =
        observes.foldl (NodeState.step P identity) ⟨loop.db, pending⟩ ∧
      ∀ entry ∈ entries, ∀ canonicalUrl, entryUrl P entry = some canonicalUrl →
        (entryObservation P sourceId [] feed 0 entry canonicalUrl).key ∈
          NodeState.ingestedBy P identity ⟨loop.db, pending⟩ observes := by
  induction entries generalizing loop with
  | nil =>
      cases h
      exact ⟨[], rfl, by simp⟩
  | cons entry rest ih =>
      unfold ingestEntries at h
      cases hentry : ingestEntry P identity sourceId languages feed retrievedAt loop
          entry with
      | error e => simp [hentry] at h
      | ok next =>
          rw [hentry] at h
          obtain ⟨observes, hrun, hingested⟩ := ih h
          have hstep := ingestEntry_step identity pending hentry
          refine ⟨.observe sourceId languages feed retrievedAt entry
            (loop.readings.headD retrievedAt) :: observes, ?_, ?_⟩
          · rw [List.foldl_cons, hstep]
            exact hrun
          · intro other hother canonicalUrl hurl
            rw [NodeState.ingestedBy, hstep]
            cases List.mem_cons.mp hother with
            | inr hrest =>
                exact List.mem_append_right _ (hingested other hrest canonicalUrl hurl)
            | inl hsame =>
                subst hsame
                simp only [ingestEntry, hurl, bind_eq_ok, Prod.exists] at hentry
                obtain ⟨accepted, db, happend, -⟩ := hentry
                refine List.mem_append_left _ (Option.mem_toList.mpr ?_)
                simp only [NodeState.ingested, hurl, happend]
                rfl

/-- A document whose entries were ingested adds nothing, whatever follows. -/
theorem ingestFeedBytes_again (parseFeed : Bytes → Except String Feed)
    {before : List Action} {sourceId : String} {languages : List String} {bytes : Bytes}
    {retrievedAt : ℤ} {readings : List ℤ} {seen accepted : ℕ} {next : Db}
    (h : ingestFeedBytes P parseFeed identity sourceId languages bytes retrievedAt readings
      (NodeState.run P identity before).db = (.ok (seen, accepted), next)) :
    ∃ observes : List Action,
      (⟨next, (NodeState.run P identity before).pending⟩ : NodeState) =
        NodeState.run P identity (before ++ observes) ∧
      ∀ rest languages retrievedAt readings,
        ingestFeedBytes P parseFeed identity sourceId languages bytes retrievedAt readings
          (NodeState.run P identity (before ++ observes ++ rest)).db =
        (.ok (seen, 0), (NodeState.run P identity (before ++ observes ++ rest)).db) := by
  unfold ingestFeedBytes at h
  split at h
  · simp at h
  next hsize =>
  cases hfeed : parseFeed bytes with
  | error message => simp [hfeed] at h
  | ok feed =>
      simp only [hfeed, ingestFeed] at h
      split at h
      · simp at h
      next hentries =>
      generalize hloop : ingestEntries P identity sourceId languages feed retrievedAt
        ⟨readings, 0, (NodeState.run P identity before).db⟩ feed.entries = outcome at h
      obtain ⟨result, final⟩ := outcome
      cases result with
      | error e => simp [Except.map] at h
      | ok done =>
          simp only [Except.map, Prod.mk.injEq, Except.ok.injEq] at h
          obtain ⟨⟨rfl, rfl⟩, rfl⟩ := h
          obtain ⟨observes, hrun, hingested⟩ := ingestEntries_ingested
            (NodeState.run P identity before).pending hloop
          refine ⟨observes, ?_, ?_⟩
          · rw [hrun, NodeState.run_append]
          · intro rest languages retrievedAt readings
            have hstored : ∀ entry ∈ feed.entries, entry.IsStored P sourceId feed
                (NodeState.run P identity (before ++ observes ++ rest)).db := by
              intro entry hentry canonicalUrl hurl
              apply (run_ingested P identity (before ++ observes ++ rest)).2
              rw [ingestedDocuments_append, ingestedDocuments_append]
              refine List.mem_append_left _ (List.mem_append_right _ ?_)
              exact hingested entry hentry canonicalUrl hurl
            have hlog :=
              (run_history_any P identity (before ++ observes ++ rest)).logSound
            obtain ⟨left, hagain⟩ : ∃ left, ingestEntries P identity sourceId languages feed
                retrievedAt ⟨readings, 0,
                  (NodeState.run P identity (before ++ observes ++ rest)).db⟩ feed.entries =
                (.ok (), ⟨left, 0,
                  (NodeState.run P identity (before ++ observes ++ rest)).db⟩) := by
              generalize NodeState.run P identity (before ++ observes ++ rest) = node at hstored hlog ⊢
              exact ingestEntries_stored hlog hstored languages retrievedAt
            simp only [ingestFeedBytes, if_neg hsize, hfeed, ingestFeed, if_neg hentries,
              hagain, Except.map]

/-! ## The story of a new observation -/

theorem earliest_eq_none {β : Type} {entries : List (ℤ × β)} :
    earliest entries = none ↔ entries = [] := by
  cases entries with
  | nil => simp [earliest]
  | cons first rest =>
      unfold earliest
      cases earliest rest with
      | none => simp
      | some best => by_cases hlt : best.1 < first.1 <;> simp [hlt]

theorem earliest_le {β : Type} {entries : List (ℤ × β)} {best : ℤ × β}
    (h : earliest entries = some best) : ∀ entry ∈ entries, best.1 ≤ entry.1 := by
  induction entries generalizing best with
  | nil => cases h
  | cons first rest ih =>
      unfold earliest at h
      intro entry hentry
      cases hrest : earliest rest with
      | none =>
          rw [hrest] at h
          cases h
          rw [earliest_eq_none.mp hrest] at hentry
          rw [List.mem_singleton.mp hentry]
      | some other =>
          have hother := ih hrest
          rw [hrest] at h
          simp only at h
          by_cases hlt : other.1 < first.1
          · rw [if_pos hlt] at h
            cases h
            cases List.mem_cons.mp hentry with
            | inl hsame => rw [hsame]; exact hlt.le
            | inr hmem => exact hother entry hmem
          · rw [if_neg hlt] at h
            cases h
            cases List.mem_cons.mp hentry with
            | inl hsame => rw [hsame]
            | inr hmem => exact (not_lt.mp hlt).trans (hother entry hmem)

theorem ContentTables.exists_storyOf? {content : ContentTables} {observationId : String}
    (h : observationId ∈ content.storyObservations.map StoryObservationRow.observationId) :
    ∃ storyId, content.storyOf? observationId = some storyId := by
  obtain ⟨link, hlink, hid⟩ := List.mem_map.mp h
  have hfound : (content.storyObservations.find? fun row =>
      row.observationId == observationId).isSome := by
    rw [List.find?_isSome]
    exact ⟨link, hlink, beq_iff_eq.mpr hid⟩
  obtain ⟨found, hfind⟩ := Option.isSome_iff_exists.mp hfound
  unfold ContentTables.storyOf?
  rw [hfind]
  exact ⟨_, rfl⟩

/-- The story of an address is that of its earliest observation. -/
theorem existingStory_eq_some {db : Db} {sourceId canonicalUrl storyId : String}
    (hlinked : ∀ observation ∈ db.content.observations, observation.observationId ∈
      db.content.storyObservations.map StoryObservationRow.observationId)
    (h : db.content.existingStory sourceId canonicalUrl = some storyId) :
    ∃ first ∈ db.content.observations,
      (first.sourceId = sourceId ∧ first.canonicalUrl = canonicalUrl) ∧
      (∀ other ∈ db.content.observations,
        other.sourceId = sourceId ∧ other.canonicalUrl = canonicalUrl →
          first.createdSequence ≤ other.createdSequence) ∧
      db.content.storyOf? first.observationId = some storyId := by
  unfold ContentTables.existingStory at h
  simp only [Option.map_eq_some_iff] at h
  obtain ⟨best, hbest, rfl⟩ := h
  obtain ⟨first, hfirst, hjoined⟩ :=
    List.mem_filterMap.mp (ContentTables.earliest_mem hbest)
  by_cases haddress : first.sourceId = sourceId ∧ first.canonicalUrl = canonicalUrl
  · rw [if_pos haddress] at hjoined
    obtain ⟨storyId, hstory, rfl⟩ := Option.map_eq_some_iff.mp hjoined
    refine ⟨first, hfirst, haddress, ?_, hstory⟩
    intro other hother hsame
    obtain ⟨otherStory, hotherStory⟩ := ContentTables.exists_storyOf? (hlinked other hother)
    have hle := earliest_le hbest (other.createdSequence, otherStory)
    apply hle
    refine List.mem_filterMap.mpr ⟨other, hother, ?_⟩
    rw [if_pos hsame, hotherStory]
    rfl
  · rw [if_neg haddress] at hjoined
    cases hjoined

theorem existingStory_eq_none {db : Db} {sourceId canonicalUrl : String}
    (hlinked : ∀ observation ∈ db.content.observations, observation.observationId ∈
      db.content.storyObservations.map StoryObservationRow.observationId)
    (h : db.content.existingStory sourceId canonicalUrl = none) :
    ∀ other ∈ db.content.observations,
      ¬ (other.sourceId = sourceId ∧ other.canonicalUrl = canonicalUrl) := by
  unfold ContentTables.existingStory at h
  rw [Option.map_eq_none_iff, earliest_eq_none, List.filterMap_eq_nil_iff] at h
  intro other hother hsame
  have hjoined := h other hother
  obtain ⟨storyId, hstory⟩ := ContentTables.exists_storyOf? (hlinked other hother)
  rw [if_pos hsame, hstory] at hjoined
  cases hjoined

/-- The story of a new observation, when no two digests are equal. -/
theorem ObservationsSound.attached {observation : IngestedObservation} {appendedAt : ℤ}
    {db next : Db} {row : EventRow} {accepted : AcceptedObject} {digested : Set Bytes}
    (h : ObservationsSound P db) (hdigests : Set.InjOn P.sha256 digested)
    (hstored : ∀ stored ∈ db.content.observations,
      utf8 stored.observationId ∈ digested)
    (hnamed : utf8 (observation.key.observationId P) ∈ digested)
    (hobserved : Observed P identity observation appendedAt db row accepted next) :
    Attached db next
      (observedRow P (db.observationPayload P observation) accepted.sequence) := by
  obtain ⟨-, hnew, hunlinked, hcontent, -⟩ := Db.appendObservation_eq_ok hobserved
  have hstory : next.content.storyOf? (db.observationPayload P observation).observationId =
      some (db.observationPayload P observation).storyId := by
    rw [hcontent]
    simp only [ContentTables.storyOf?, ContentTables.withObservation]
    rw [List.any_eq_false] at hunlinked
    rw [List.find?_append, List.find?_eq_none.mpr hunlinked]
    simp [observedRow, observedStory]
  refine ⟨(db.observationPayload P observation).storyId, hstory, ?_⟩
  cases hexisting : db.content.existingStory observation.sourceId
      observation.canonicalUrl with
  | some storyId =>
      have hid : (db.observationPayload P observation).storyId = storyId := by
        simp only [Db.observationPayload, hexisting, Option.getD_some]
      rw [hid]
      exact .inl (existingStory_eq_some h.linked hexisting)
  | none =>
      have hid : (db.observationPayload P observation).storyId =
          storyIdOf P (observation.key.observationId P) := by
        simp only [Db.observationPayload, hexisting, Option.getD_none]
        rfl
      refine .inr ⟨existingStory_eq_none h.linked hexisting, ?_⟩
      -- A story of this name would be named after a stored observation.
      by_contra hknown
      simp only [ContentTables.hasStory, Bool.not_eq_false, List.any_eq_true,
        beq_iff_eq] at hknown
      obtain ⟨story, hmem, hsame⟩ := hknown
      obtain ⟨stored, hstoredMem, hname⟩ :=
        h.stories story.storyId (List.mem_map_of_mem hmem)
      rw [hsame, hid] at hname
      have hdigest := P.sha256_eq_of_prefixedId_eq hname
      have hbytes := hdigests hnamed (hstored stored hstoredMem) hdigest
      rw [List.any_eq_false] at hnew
      exact hnew stored hstoredMem (beq_iff_eq.mpr (utf8_injective hbytes).symm)

theorem ingestedDocuments_subset {before : List Action} (rest : List Action) :
    ingestedDocuments P identity before ⊆ ingestedDocuments P identity (before ++ rest) := by
  rw [ingestedDocuments_append]
  exact List.subset_append_left _ _

/-- The step of a run which appends an observation. -/
theorem run_attached {before rest : List Action} {action : Action}
    (hdigests : Set.InjOn P.sha256
      (digestedBytes P (ingestedDocuments P identity (before ++ action :: rest))))
    {row : ObservationRow}
    (hrow : row ∈ (NodeState.run P identity (before ++ [action])).db.content.observations)
    (hnew : row ∉ (NodeState.run P identity before).db.content.observations) :
    Attached (NodeState.run P identity before).db
      (NodeState.run P identity (before ++ [action])).db row := by
  have hsound := run_observationsSound P identity before
  have hkeys := (run_ingested P identity before).1
  have hdigested : ∀ key ∈ ingestedDocuments P identity (before ++ [action]),
      utf8 (key.observationId P) ∈
        digestedBytes P (ingestedDocuments P identity (before ++ action :: rest)) := by
    intro key hkey
    have hlater := ingestedDocuments_subset rest hkey
    rw [List.append_assoc, List.singleton_append] at hlater
    exact ⟨key, hlater, .inr rfl⟩
  rw [ingestedDocuments_append_singleton] at hdigested
  rw [NodeState.run_append_singleton] at hrow ⊢
  generalize NodeState.run P identity before = node at hrow hnew hsound hkeys hdigested ⊢
  have hstep := node.step_observations identity action
  cases hstep with
  | inl hkept =>
      rw [hkept.1] at hrow
      exact absurd hrow hnew
  | inr hadded =>
      obtain ⟨observation, appendedAt, event, accepted, hingested, hobserved⟩ := hadded
      rw [hingested] at hdigested
      obtain ⟨-, -, -, hcontent, -⟩ := Db.appendObservation_eq_ok hobserved
      rw [hcontent] at hrow
      cases List.mem_append.mp hrow with
      | inl hold => exact absurd hold hnew
      | inr hlast =>
          rw [List.mem_singleton.mp hlast]
          refine hsound.attached hdigests ?_ ?_ hobserved
          · intro stored hstored
            rw [hsound.named stored hstored]
            exact hdigested _ (List.mem_append_left _ (hkeys stored hstored))
          · exact hdigested _ (List.mem_append_right _ List.mem_cons_self)

/-- In every run the log holds one event for every document which was ingested, and
no others; an entry which was ingested changes nothing when it is seen again, and
neither does a feed which was ingested; and every observation joins, when it is appended, the story which then holds
the earliest observation of its address, or opens a story of its own. -/
theorem run_observations (P : Primitives) (identity : NodeIdentity P)
    (actions : List Action)
    (haddresses : ∀ key ∈ ingestedDocuments P identity actions,
      (0 : UInt8) ∉ utf8 key.canonicalUrl)
    (hdigests : Set.InjOn P.sha256
      (digestedBytes P (ingestedDocuments P identity actions))) :
    ((∀ row ∈ (NodeState.run P identity actions).db.events, row.kind = "observation" →
        ∃ key ∈ ingestedDocuments P identity actions, row.document? P = some key) ∧
      ∀ key ∈ ingestedDocuments P identity actions,
        (NodeState.run P identity actions).db.events.countP
          (fun row => row.document? P == some key) = 1) ∧
    (∀ sourceId languages feed retrievedAt entry appendedAt canonicalUrl,
      entryUrl P entry = some canonicalUrl →
      (entryObservation P sourceId languages feed retrievedAt entry canonicalUrl).key ∈
        ingestedDocuments P identity actions →
      (NodeState.run P identity actions).step P identity
        (.observe sourceId languages feed retrievedAt entry appendedAt) =
          NodeState.run P identity actions) ∧
    (∀ (parseFeed : Bytes → Except String Feed) (before : List Action) sourceId languages
        bytes retrievedAt readings seen accepted next,
      ingestFeedBytes P parseFeed identity sourceId languages bytes retrievedAt readings
        (NodeState.run P identity before).db = (.ok (seen, accepted), next) →
      ∃ observes : List Action,
        (⟨next, (NodeState.run P identity before).pending⟩ : NodeState) =
          NodeState.run P identity (before ++ observes) ∧
        ∀ rest languages retrievedAt readings,
          ingestFeedBytes P parseFeed identity sourceId languages bytes retrievedAt readings
            (NodeState.run P identity (before ++ observes ++ rest)).db =
          (.ok (seen, 0), (NodeState.run P identity (before ++ observes ++ rest)).db)) ∧
    ∀ before action rest, actions = before ++ action :: rest →
      ∀ row ∈ (NodeState.run P identity (before ++ [action])).db.content.observations,
        row ∉ (NodeState.run P identity before).db.content.observations →
        Attached (NodeState.run P identity before).db
          (NodeState.run P identity (before ++ [action])).db row := by
  have hids := observationId_injOn haddresses hdigests
  refine ⟨⟨?_, fun key hkey => run_countP_document hids hkey⟩, ?_, ?_, ?_⟩
  · intro row hrow hkind
    have hsound := run_observationsSound P identity actions
    obtain ⟨key, hkey⟩ := Option.ne_none_iff_exists'.mp (hsound.kinds row hrow hkind)
    have hlogged : key ∈ (NodeState.run P identity actions).db.events.filterMap
        (EventRow.document? P) := List.mem_filterMap.mpr ⟨row, hrow, hkey⟩
    rw [hsound.logged] at hlogged
    obtain ⟨observation, hobservation, rfl⟩ := List.mem_map.mp hlogged
    exact ⟨_, (run_ingested P identity actions).1 observation hobservation, hkey⟩
  · intro sourceId languages feed retrievedAt entry appendedAt canonicalUrl hurl hkey
    exact run_step_ingested hurl hkey
  · intro parseFeed before sourceId languages bytes retrievedAt readings seen accepted next
    exact ingestFeedBytes_again parseFeed
  · rintro before action rest rfl row hrow hnew
    exact run_attached hdigests hrow hnew

end

namespace Sample

/-- The first entry is seen again, and once more with another title, after its
observation was linked elsewhere. -/
def followedRun : List Action :=
  mergedRun ++ [observe (feedEntry "https://1" "one"), observe (feedEntry "https://1" "three")]

instance followedRun_digests : Fact (
    (∀ key ∈ ingestedDocuments library origin followedRun,
      (0 : UInt8) ∉ utf8 key.canonicalUrl) ∧
    (((ingestedDocuments library origin followedRun).dedup.flatMap fun key =>
      [key.bytes, utf8 (key.observationId library)]).map library.sha256).Nodup ∧
    (ingestedDocuments library origin followedRun).length = 4) := ⟨by decide +kernel⟩

theorem digestedBytes_injOn {keys : List DocumentKey}
    (h : ((keys.dedup.flatMap fun key =>
      [key.bytes, utf8 (key.observationId library)]).map library.sha256).Nodup) :
    Set.InjOn library.sha256 (digestedBytes library keys) := by
  have hmem : ∀ bytes ∈ digestedBytes library keys, bytes ∈ keys.dedup.flatMap fun key =>
      [key.bytes, utf8 (key.observationId library)] := by
    rintro bytes ⟨key, hkey, hbytes⟩
    refine List.mem_flatMap.mpr ⟨key, List.mem_dedup.mpr hkey, ?_⟩
    simpa using hbytes
  intro first hfirst second hsecond hsame
  exact List.inj_on_of_nodup_map h (hmem first hfirst) (hmem second hsecond) hsame

/-- Four ingested entries, three documents, three events. -/
theorem run_observations_followedRun :
    (ingestedDocuments library origin followedRun).length = 4 ∧
      ∀ key ∈ ingestedDocuments library origin followedRun,
        (NodeState.run library origin followedRun).db.events.countP
          (fun row => row.document? library == some key) = 1 := by
  obtain ⟨haddresses, hdigests, hlength⟩ := followedRun_digests.out
  exact ⟨hlength, (run_observations library origin followedRun haddresses
    (digestedBytes_injOn hdigests)).1.2⟩

end Sample

end Commonwake
