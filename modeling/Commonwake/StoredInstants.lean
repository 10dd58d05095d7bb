import Commonwake.CommonsRows
import Commonwake.StoryForest
import Commonwake.SampleNode

/-!
# Instants which are stored as texts

Every instant of an accepted object is stored as a text, and read again
whenever the object is shown.  The text of an instant outside the years 0 to
9999 cannot be read, and one such row makes every view over it fail.
-/

namespace Outcome

variable {ε α β : Type} {errors : ε → Prop}

/-- The computation does not fail with one of the errors. -/
def Avoids (errors : ε → Prop) (x : Except ε α) : Prop :=
  ∀ error, x = .error error → ¬ errors error

theorem Avoids.pure (a : α) : Avoids errors (Pure.pure a : Except ε α) := by
  intro error herror
  cases herror

theorem Avoids.of_isOk {x : Except ε α} (h : isOk x) : Avoids errors x := by
  obtain ⟨a, rfl⟩ := h
  exact .pure a

/-- The rule for a step on whose value the rest depends. -/
theorem Avoids.seq {x : Except ε α} {f : α → Except ε β} (hx : Avoids errors x)
    (hf : ∀ a, x = .ok a → Avoids errors (f a)) : Avoids errors (x >>= f) := by
  intro error herror
  cases hresult : x with
  | error other =>
      rw [hresult, error_bind, Except.error.injEq] at herror
      rw [← herror]
      exact hx other hresult
  | ok a =>
      rw [hresult, ok_bind] at herror
      exact hf a hresult error herror

theorem Avoids.bind {x : Except ε α} {f : α → Except ε β} (hx : Avoids errors x)
    (hf : ∀ a, Avoids errors (f a)) : Avoids errors (x >>= f) :=
  hx.seq fun a _ => hf a

theorem Avoids.rejectIf {condition : Prop} [Decidable condition] {error : ε}
    (h : ¬ errors error) : Avoids errors (rejectIf condition error) := by
  intro other hother
  by_cases hcondition : condition
  · rw [rejectIf_of hcondition, Except.error.injEq] at hother
    rwa [← hother]
  · rw [rejectIf_of_not hcondition] at hother
    cases hother

theorem Avoids.okOr {value : Option α} {error : ε} (h : ¬ errors error) :
    Avoids errors (okOr value error) := by
  intro other hother
  cases value with
  | none =>
      rw [okOr_none, Except.error.injEq] at hother
      rwa [← hother]
  | some a => cases hother

theorem Avoids.traverse {f : α → Except ε β} {items : List α}
    (h : ∀ a ∈ items, Avoids errors (f a)) : Avoids errors (traverse f items) := by
  induction items with
  | nil => exact .pure []
  | cons a rest ih =>
      have hrest := ih fun b hb => h b (List.mem_cons_of_mem a hb)
      exact (h a List.mem_cons_self).bind fun b => hrest.bind fun bs => .pure _

theorem Avoids.filterOk {test : α → Except ε Bool} {items : List α}
    (h : ∀ a ∈ items, Avoids errors (test a)) : Avoids errors (filterOk test items) := by
  induction items with
  | nil => exact .pure []
  | cons a rest ih =>
      have hrest := ih fun b hb => h b (List.mem_cons_of_mem a hb)
      exact (h a List.mem_cons_self).bind fun keep => hrest.bind fun kept => .pure _

end Outcome

namespace Commonwake

open Outcome Table

/-- The error of a stored instant which cannot be read. -/
def CommonwakeError.isUnreadable : CommonwakeError → Prop
  | .internal message => ∃ text : String, message = s!"stored timestamp is invalid: {text}"
  | _ => False

/-- The computation does not fail because of a stored instant. -/
abbrev ReadsInstants {α : Type} (x : Result α) : Prop :=
  Avoids CommonwakeError.isUnreadable x

section

variable (P : Primitives)

/-! ## Written instants -/

/-- The end of the lease which a work claim asks for. -/
def SignedContribution.leaseEnd (contribution : SignedContribution) : Option ℤ :=
  if contribution.kind = .workClaim then
    (WorkClaimPayload.ofJson contribution.payload).map fun claim =>
      contribution.createdAt + minutes claim.leaseMinutes
  else none

/-- The instants of a call which its transaction writes. -/
def Admitted.instants : Admitted → List ℤ
  | .registerLineage _ registration => [registration.createdAt]
  | .registerDelegation _ delegation => [delegation.notBefore, delegation.expiresAt]
  | .revokeDelegation revocation => [revocation.createdAt]
  | .rotateLineageKey rotation => [rotation.statement.createdAt]
  | .appendContribution _ contribution =>
      contribution.createdAt :: contribution.leaseEnd.toList
  | .appendAcknowledgement _ acknowledgement => [acknowledgement.createdAt]

/-- The instants of an event of an origin which its projection writes. -/
def OriginEvent.instants (event : OriginEvent) : List ℤ :=
  match event.kind with
  | "lineage_registered" =>
      match LineageRegistration.ofJson P event.canonical with
      | some registration => [registration.createdAt]
      | none => []
  | "delegation_registered" =>
      match SessionDelegation.ofJson P event.canonical with
      | some delegation => [delegation.notBefore, delegation.expiresAt]
      | none => []
  | "delegation_revoked" | "lineage_key_rotated" | "acknowledgement"
  | "checkpoint_witnessed" => []
  | "observation" =>
      match FederatedObservationEnvelope.ofJson P event.canonical with
      | some envelope => envelope.payload.retrievedAt :: envelope.payload.publishedAt.toList
      | none => []
  | _ =>
      match SignedContribution.ofJson P event.canonical with
      | some contribution => [contribution.createdAt]
      | none => []

/-- The instants which an action writes as texts: those of the accepted objects,
and the readings of the clock. -/
def NodeState.written (identity : NodeIdentity P) (node : NodeState) : Action → List ℤ
  | .check _ _ => []
  | .commit index appendedAt =>
      match node.pending[index]? with
      | some call =>
          match call.admitted.commit P identity appendedAt node.db with
          | .ok _ => appendedAt :: call.admitted.instants
          | .error _ => []
      | none => []
  | .observe sourceId languages feed retrievedAt entry appendedAt =>
      match entryUrl P entry with
      | some canonicalUrl =>
          let observation := entryObservation P sourceId languages feed retrievedAt entry
            canonicalUrl
          if node.db.storedObservation
              (node.db.observationPayload P observation).observationId = none then
            match node.db.appendObservation P identity observation appendedAt with
            | .ok _ =>
                appendedAt :: observation.retrievedAt :: observation.publishedAt.toList
            | .error _ => []
          else []
      | none => []
  | .markSourceFetch _ _ => []
  | .importBundle bundle observedAt now appendedAt =>
      let (result, next) := importFederationBundle P identity bundle observedAt now appendedAt
        node.db
      match result with
      | .ok _ =>
          (bundle.events.filter fun event =>
            (node.db.knownHead bundle.originNodeId).1 < event.sequence).flatMap
              (OriginEvent.instants P) ++
            (if next.events = node.db.events then [] else [observedAt, appendedAt])
      | .error _ => []

/-! ## Readable tables -/

/-- A stored instant which can be read. -/
def Primitives.Readable (text : String) : Prop :=
  isOk (P.parseTimestamp text)

/-- Every stored instant of the stories, the observations and the assessments
can be read. -/
structure ContentTables.Readable (content : ContentTables) : Prop where
  stories : ∀ row ∈ content.stories, P.Readable row.firstSeenAt
  retrieved : ∀ row ∈ content.observations, P.Readable row.retrievedAt
  published : ∀ row ∈ content.observations, ∀ text, row.publishedAt = some text →
    P.Readable text
  assessments : ∀ row ∈ content.assessments, P.Readable row.createdAt

structure CommonsTables.Readable (tables : CommonsTables) : Prop where
  topics : ∀ row ∈ tables.topics, P.Readable row.createdAt
  votes : ∀ row ∈ tables.votes, P.Readable row.createdAt
  posts : ∀ row ∈ tables.posts, P.Readable row.createdAt

structure AuthorityTables.Readable (tables : AuthorityTables) : Prop where
  lineages : ∀ row ∈ tables.lineages, P.Readable row.createdAt
  notBefore : ∀ row ∈ tables.delegations, P.Readable row.notBefore
  expiresAt : ∀ row ∈ tables.delegations, P.Readable row.expiresAt

def EventRow.Readable (row : EventRow) : Prop :=
  P.Readable row.createdAt ∧ P.Readable row.receivedAt

/-- Every stored instant which a view reads can be read. -/
structure Db.Readable (db : Db) : Prop where
  events : ∀ row ∈ db.events, row.Readable P
  authority : db.authority.Readable P
  content : db.content.Readable P
  commons : db.commons.Readable P
  origins : ∀ origin, (db.origins origin).content.Readable P

/-- The views of a node do not fail because of a stored instant. -/
structure Db.ViewsRead (identity : NodeIdentity P) (db : Db) : Prop where
  lineage : ∀ lineageId, ReadsInstants (db.lineage P lineageId)
  delegation : ∀ id, ReadsInstants (db.delegation P id)
  eventsAfter : ∀ after limit, ReadsInstants (db.eventsAfter P after limit)
  orient : ∀ lineageId since now, ReadsInstants (orient P identity lineageId since now db)
  storyView : ∀ storyId, ReadsInstants (db.storyView P storyId)
  federatedStoryView : ∀ origin storyId, ReadsInstants (db.federatedStoryView P origin storyId)
  topicView : ∀ topicId now, ReadsInstants (db.commons.topicView P topicId now)

end

section

variable {P : Primitives}

/-! ## Reading -/

theorem Primitives.Readable.reads {text : String} (h : P.Readable text) :
    ReadsInstants (P.parseTimestamp text) :=
  .of_isOk h

theorem verifyingKeyFromB64_reads (value : String) :
    ReadsInstants (P.verifyingKeyFromB64 value) := by
  unfold Primitives.verifyingKeyFromB64
  refine (Avoids.okOr id).bind fun bytes => ?_
  refine (Avoids.rejectIf id).bind fun _ => ?_
  exact (Avoids.rejectIf id).bind fun _ => .pure _

theorem expectedProjection_reads (row : EventRow) (canonical : Json) :
    ReadsInstants (expectedProjection P row canonical) := by
  unfold expectedProjection
  split
  · refine (Avoids.okOr id).bind fun object => ?_
    exact (verifyingKeyFromB64_reads _).bind fun _ => .pure _
  · exact (Avoids.okOr id).bind fun _ => .pure _
  · exact (Avoids.okOr id).bind fun _ => .pure _
  · exact (Avoids.okOr id).bind fun _ => .pure _
  · refine (Avoids.okOr id).bind fun object => ?_
    exact (Avoids.okOr id).bind fun _ => .pure _
  · refine (Avoids.okOr id).bind fun payload => ?_
    exact (Avoids.okOr id).bind fun _ => .pure _
  · exact (Avoids.okOr id).bind fun _ => .pure _
  · refine (Avoids.okOr id).bind fun object => ?_
    exact (Avoids.rejectIf id).bind fun _ => .pure _

theorem EventRow.Readable.view {row : EventRow} (h : row.Readable P) :
    ReadsInstants (eventView P row) := by
  unfold eventView
  refine (Avoids.okOr id).bind fun canonical => ?_
  refine (expectedProjection_reads row canonical).bind fun projection => ?_
  refine h.1.reads.bind fun createdAt => ?_
  exact h.2.reads.bind fun receivedAt => .pure _

theorem jsonEachText_reads (text : String) : ReadsInstants (jsonEachText P text) := by
  unfold jsonEachText
  refine (Avoids.okOr id).bind fun value => ?_
  split <;> exact .pure _

theorem columnHolds_reads (column : EventRow → String) (text : String) (row : EventRow) :
    ReadsInstants (columnHolds P column text row) := by
  unfold columnHolds
  exact (jsonEachText_reads _).bind fun _ => .pure _

theorem storedContribution_reads (text : String) :
    ReadsInstants (storedContribution P text) := by
  unfold storedContribution
  exact (Avoids.okOr id).bind fun _ => .okOr id

theorem joinsTraceable_reads (text? : String → Option String) (eventId : String) :
    ReadsInstants (joinsTraceable P text? eventId) := by
  unfold joinsTraceable
  split
  · unfold reportingIsTraceable
    exact (Avoids.okOr id).bind fun _ => .pure _
  · exact .pure _

theorem storedList_reads {α : Type} (decode : Json → Option α) (text : String) :
    ReadsInstants (storedList P decode text) := by
  unfold storedList
  exact (Avoids.okOr id).bind fun _ => .okOr id

/-! ### Stories -/

section

variable {context : StoryContext} {content : ContentTables}

theorem observationView_reads {row : ObservationRow} (name : String)
    (hretrieved : P.Readable row.retrievedAt)
    (hpublished : ∀ text, row.publishedAt = some text → P.Readable text) :
    ReadsInstants (observationView P context content row name) := by
  have hverifications : ReadsInstants
      (verificationsOf P context content row.observationId) := by
    unfold verificationsOf
    apply Avoids.traverse
    intro verification _
    exact (joinsTraceable_reads _ _).bind fun _ => .pure _
  unfold observationView
  refine hverifications.bind fun verifications => ?_
  cases hcase : row.publishedAt with
  | none => exact hretrieved.reads.bind fun _ => .pure _
  | some text =>
      refine Avoids.bind ?_ fun publishedAt => hretrieved.reads.bind fun _ => .pure _
      exact (hpublished text hcase).reads

theorem assessmentView_reads {row : AssessmentRow} (name text : String)
    (h : P.Readable row.createdAt) : ReadsInstants (assessmentView P row name text) := by
  unfold assessmentView
  refine (storedList_reads _ _).bind fun claims => ?_
  refine (storedList_reads _ _).bind fun evidence => ?_
  refine (storedContribution_reads text).bind fun contribution => ?_
  exact h.reads.bind fun _ => .pure _

theorem mem_observationsOf {storyId : String} {joined : ObservationRow × String}
    (h : joined ∈ observationsOf context content storyId) :
    joined.1 ∈ content.observations := by
  simp only [observationsOf, List.mem_mergeSort, List.mem_filterMap, List.mem_filter,
    Option.map_eq_some_iff] at h
  obtain ⟨row, ⟨link, -, hfind⟩, name, -, rfl⟩ := h
  exact List.mem_of_find?_eq_some hfind

theorem mem_assessmentsOf {storyId : String} {joined : AssessmentRow × String × String}
    (h : joined ∈ assessmentsOf context content storyId) :
    joined.1 ∈ content.assessments := by
  simp only [assessmentsOf, List.mem_mergeSort, List.mem_filterMap, List.mem_filter,
    Option.bind_eq_bind, Option.bind_eq_some_iff, Option.pure_def, Option.some.injEq] at h
  obtain ⟨row, ⟨hrow, -⟩, name, -, text, -, rfl⟩ := h
  exact hrow

theorem ContentTables.Readable.storyViewBody (h : content.Readable P) (storyId : String)
    {missing : CommonwakeError} (hmissing : ¬ missing.isUnreadable) :
    ReadsInstants (storyViewBody P context content storyId missing) := by
  unfold Commonwake.storyViewBody
  refine (Avoids.okOr hmissing).seq ?_
  intro header hheader
  rw [okOr_eq_ok] at hheader
  have hobservations : ReadsInstants (Outcome.traverse
      (fun joined => observationView P context content joined.1 joined.2)
      (observationsOf context content storyId)) := by
    apply Avoids.traverse
    intro joined hjoined
    have hrow := mem_observationsOf hjoined
    exact observationView_reads _ (h.retrieved _ hrow) (h.published _ hrow)
  have hassessments : ReadsInstants (Outcome.traverse
      (fun joined => assessmentView P joined.1 joined.2.1 joined.2.2)
      (assessmentsOf context content storyId)) := by
    apply Avoids.traverse
    intro joined hjoined
    exact assessmentView_reads _ _ (h.assessments _ (mem_assessmentsOf hjoined))
  have hsources : ReadsInstants (distinctSources P context content storyId) := by
    unfold distinctSources
    refine Avoids.bind (.filterOk ?_) fun _ => .pure _
    intro link _
    split
    · exact joinsTraceable_reads _ _
    · exact .pure _
  refine hobservations.bind fun observations => ?_
  refine hassessments.bind fun assessments => ?_
  refine hsources.bind fun sources => ?_
  exact (h.stories header (List.mem_of_find?_eq_some hheader)).reads.bind fun _ => .pure _

end

theorem Db.Readable.storyView {db : Db} (h : db.Readable P) (storyId : String) :
    ReadsInstants (db.storyView P storyId) := by
  unfold Db.storyView
  refine (h.content.storyViewBody storyId id).bind fun body => ?_
  refine Avoids.bind ?_ fun related => .pure _
  unfold Db.relatedStoryEvents
  refine Avoids.seq (.filterOk fun row _ => columnHolds_reads _ _ row) ?_
  intro rows hrows
  apply Avoids.traverse
  intro row hrow
  have hevent := mem_of_filterOk hrows hrow
  exact (h.events row (List.mem_filter.mp hevent).1).view

theorem Db.Readable.federatedStoryView {db : Db} (h : db.Readable P) (origin storyId : String) :
    ReadsInstants (db.federatedStoryView P origin storyId) := by
  unfold Db.federatedStoryView
  refine ((h.origins origin).storyViewBody storyId id).bind fun body => ?_
  refine Avoids.bind (.traverse ?_) fun related => .pure _
  intro row _
  exact (Avoids.okOr id).bind fun _ => .pure _

/-! ### Events -/

theorem Db.Readable.eventsAfter {db : Db} (h : db.Readable P) (after : ℤ) (limit : ℕ) :
    ReadsInstants (db.eventsAfter P after limit) := by
  apply Avoids.traverse
  intro row hrow
  have hevent := List.mem_of_mem_take hrow
  exact (h.events row (List.mem_filter.mp hevent).1).view

theorem Db.Readable.openCommitments {db : Db} (h : db.Readable P) (lineageId : String) :
    ReadsInstants (db.openCommitments P lineageId) := by
  unfold Db.openCommitments
  apply Avoids.seq
  · apply Avoids.filterOk
    intro row _
    refine Avoids.bind ?_ fun superseded => .pure _
    refine Avoids.bind (.filterOk ?_) fun later => .pure _
    intro other _
    exact columnHolds_reads _ _ other
  · intro commitments hcommitments
    apply Avoids.traverse
    intro row hrow
    have hevent := mem_of_filterOk hcommitments (List.mem_of_mem_take hrow)
    exact (h.events row (List.mem_filter.mp hevent).1).view

theorem checkpointAt_reads (identity : NodeIdentity P) (cursor now : ℤ) (db : Db) :
    ReadsInstants (checkpointAt P identity cursor now db) := by
  unfold checkpointAt Db.eventHashAt
  refine Avoids.bind ?_ fun _ => .pure _
  refine (Avoids.rejectIf id).bind fun _ => ?_
  split
  · exact .pure _
  · exact (Avoids.okOr id).bind fun _ => .pure _

theorem Db.changedStoryIds_reads (db : Db) (after through : ℤ) :
    ReadsInstants (db.changedStoryIds P after through) := by
  unfold Db.changedStoryIds Db.storyChanges
  refine Avoids.bind (Avoids.bind (.traverse ?_) fun _ => .pure _) fun _ => .pure _
  intro row _
  refine Avoids.bind ?_ fun _ => .pure _
  exact (jsonEachText_reads _).bind fun _ => .pure _

theorem Db.Readable.lineage {db : Db} (h : db.Readable P) (lineageId : String) :
    ReadsInstants (db.lineage P lineageId) := by
  unfold Db.lineage
  refine (Avoids.okOr id).seq ?_
  intro row hrow
  have hmem := List.mem_of_find?_eq_some (okOr_eq_ok.mp hrow)
  exact (h.authority.lineages row hmem).reads.bind fun _ => .pure _

theorem Db.Readable.delegation {db : Db} (h : db.Readable P) (delegationId : String) :
    ReadsInstants (db.delegation P delegationId) := by
  unfold Db.delegation
  refine (Avoids.okOr id).seq ?_
  intro row hrow
  have hmem := List.mem_of_find?_eq_some (okOr_eq_ok.mp hrow)
  have hscopes : ReadsInstants (storedScopes P row.scopesJson) := by
    unfold storedScopes
    exact (Avoids.okOr id).bind fun _ => .okOr id
  refine hscopes.bind fun scopes => ?_
  refine (h.authority.notBefore row hmem).reads.bind fun notBefore => ?_
  exact (h.authority.expiresAt row hmem).reads.bind fun expiresAt => .pure _

theorem Db.Readable.orient {db : Db} (h : db.Readable P) (identity : NodeIdentity P)
    (lineageId : String) (since : Option ℤ) (now : ℤ) :
    ReadsInstants (orient P identity lineageId since now db) := by
  unfold Commonwake.orient
  refine (h.lineage lineageId).bind fun lineage => ?_
  refine (Avoids.rejectIf id).bind fun _ => ?_
  refine (h.eventsAfter _ _).bind fun page => ?_
  refine Avoids.bind ?_ fun worldChanges => ?_
  · refine (db.changedStoryIds_reads _ _).bind fun ids => ?_
    exact .traverse fun storyId _ => h.storyView storyId
  refine Avoids.bind (.traverse fun id _ => h.federatedStoryView id.1 id.2) fun federated => ?_
  refine (checkpointAt_reads identity _ now db).bind fun checkpoint => ?_
  exact (h.openCommitments lineageId).bind fun commitments => .pure _

/-! ### Topics -/

theorem maxText_mem {texts : List String} {text : String} (h : maxText texts = some text) :
    text ∈ texts := by
  induction texts using List.reverseRecOn generalizing text with
  | nil => cases h
  | append_singleton texts last ih =>
      unfold maxText at h
      rw [List.foldl_append, List.foldl_cons, List.foldl_nil] at h
      split at h
      · rename_i found hbest
        split at h
        · rw [← Option.some.inj h]
          exact List.mem_append_right _ List.mem_cons_self
        · exact List.mem_append_left _ (ih h)
      · rw [← Option.some.inj h]
        exact List.mem_append_right _ List.mem_cons_self

theorem not_isUnreadable_dormancy : ¬ CommonwakeError.isUnreadable
    (.internal "stored topic dormancy interval is malformed") := by
  rintro ⟨text, htext⟩
  have happend : "stored topic dormancy interval is malformed" =
      "stored timestamp is invalid: " ++ text := htext
  have hchars := congrArg (fun text : String => text.toList.take 9) happend
  simp [String.toList_append] at hchars

theorem CommonsTables.Readable.topicView {tables : CommonsTables} (h : tables.Readable P)
    (topicId : String) (now : ℤ) : ReadsInstants (tables.topicView P topicId now) := by
  have hvotes : ReadsInstants (tables.topicVoteViews P topicId) := by
    unfold CommonsTables.topicVoteViews
    apply Avoids.traverse
    intro row hrow
    rw [List.mem_mergeSort, List.mem_filter] at hrow
    exact (h.votes row hrow.1).reads.bind fun _ => .pure _
  have hstrings : ∀ text, ReadsInstants (storedStrings P text) := by
    intro text
    unfold storedStrings
    exact (Avoids.okOr id).bind fun _ => .okOr id
  unfold CommonsTables.topicView
  refine (Avoids.okOr id).seq ?_
  intro row hrow
  have hmem := List.mem_of_find?_eq_some (okOr_eq_ok.mp hrow)
  refine (h.topics row hmem).reads.bind fun createdAt => ?_
  -- Either way the rest of the view reads the votes and two lists of texts.
  split
  · rename_i text htext
    obtain ⟨post, hpost, rfl⟩ := List.mem_map.mp (maxText_mem htext)
    refine (h.posts post (List.mem_filter.mp hpost).1).reads.bind fun lastActivityAt => ?_
    refine (Avoids.rejectIf not_isUnreadable_dormancy).bind fun _ => ?_
    refine hvotes.bind fun votes => ?_
    exact (hstrings _).bind fun tags => (hstrings _).bind fun languages => .pure _
  · refine (Avoids.rejectIf not_isUnreadable_dormancy).bind fun _ => ?_
    refine hvotes.bind fun votes => ?_
    exact (hstrings _).bind fun tags => (hstrings _).bind fun languages => .pure _

/-- Where every stored instant can be read, the views can be shown. -/
theorem Db.Readable.viewsRead {db : Db} (h : db.Readable P) (identity : NodeIdentity P) :
    db.ViewsRead P identity where
  lineage := h.lineage
  delegation := h.delegation
  eventsAfter := h.eventsAfter
  orient := h.orient identity
  storyView := h.storyView
  federatedStoryView := h.federatedStoryView
  topicView := h.commons.topicView

/-! ## Writing -/

theorem Primitives.readable_timestamp {t : ℤ} (h : FourDigitYear t) :
    P.Readable (P.timestamp t) :=
  (P.isOk_parseTimestamp_timestamp t).mpr h

section

variable {content next : ContentTables}

theorem ContentTables.Readable.moveObservation (h : content.Readable P)
    (storyId eventId oldStory observationId : String) :
    (content.moveObservation storyId eventId oldStory observationId).Readable P := by
  refine ⟨?_, h.retrieved, h.published, h.assessments⟩
  intro row hrow
  simp only [ContentTables.moveObservation] at hrow
  split at hrow
  · obtain ⟨old, hold, rfl⟩ := mem_updateWhere.mp hrow
    have hreadable := h.stories old hold
    split <;> exact hreadable
  · exact h.stories row hrow

theorem ContentTables.Readable.links (h : content.Readable P) {storyId eventId : String}
    {observationIds : List String}
    (hlinks : foldState (federateLink storyId eventId) content observationIds = .ok next) :
    next.Readable P := by
  refine foldState_invariant ?_ h hlinks
  intro state observationId after hstate hafter
  simp only [federateLink, bind_eq_ok, okOr_eq_ok] at hafter
  obtain ⟨oldStory, -, hafter⟩ := hafter
  split at hafter
  · cases hafter
    exact hstate
  · cases hafter
    exact hstate.moveObservation _ _ _ _

theorem ContentTables.Readable.record (h : content.Readable P) {lineageId eventId : String}
    {contribution : SignedContribution} (hyear : FourDigitYear contribution.createdAt)
    (hrecord : content.record P lineageId eventId contribution = .ok next) :
    next.Readable P := by
  unfold ContentTables.record at hrecord
  cases hkind : contribution.kind with
  | sourceReview =>
      simp only [hkind, bind_eq_ok, pure_eq_ok, Except.ok.injEq] at hrecord
      obtain ⟨review, -, rfl⟩ := hrecord
      exact ⟨h.stories, h.retrieved, h.published, h.assessments⟩
  | observationVerification =>
      simp only [hkind, bind_eq_ok, pure_eq_ok, Except.ok.injEq] at hrecord
      obtain ⟨verification, -, rfl⟩ := hrecord
      exact ⟨h.stories, h.retrieved, h.published, h.assessments⟩
  | storyLink =>
      simp only [hkind, bind_eq_ok] at hrecord
      obtain ⟨link, -, hlinks⟩ := hrecord
      exact h.links hlinks
  | assessment =>
      simp only [hkind, bind_eq_ok, pure_eq_ok, Except.ok.injEq] at hrecord
      obtain ⟨assessment, -, rfl⟩ := hrecord
      refine ⟨h.stories, h.retrieved, h.published, ?_⟩
      intro row hrow
      cases mem_upsert hrow with
      | inl hnew =>
          rw [hnew]
          exact P.readable_timestamp hyear
      | inr hold => exact h.assessments row hold
  | _ =>
      simp only [hkind, pure_eq_ok, Except.ok.injEq] at hrecord
      rwa [← hrecord]

theorem ContentTables.Readable.withObservation (h : content.Readable P)
    {observation : FederatedObservationPayload} (sequence : ℤ)
    (hretrieved : FourDigitYear observation.retrievedAt)
    (hpublished : ∀ t, observation.publishedAt = some t → FourDigitYear t) :
    (content.withObservation (observedStory P observation sequence)
      (observedRow P observation sequence)).Readable P := by
  refine ⟨?_, ?_, ?_, h.assessments⟩
  · intro row hrow
    cases mem_insertOrIgnore hrow with
    | inl hold => exact h.stories row hold
    | inr hnew =>
        rw [hnew]
        exact P.readable_timestamp hretrieved
  · intro row hrow
    cases List.mem_append.mp hrow with
    | inl hold => exact h.retrieved row hold
    | inr hnew =>
        rw [List.mem_singleton.mp hnew]
        exact P.readable_timestamp hretrieved
  · intro row hrow text htext
    cases List.mem_append.mp hrow with
    | inl hold => exact h.published row hold text htext
    | inr hnew =>
        rw [List.mem_singleton.mp hnew] at htext
        obtain ⟨t, ht, rfl⟩ := Option.map_eq_some_iff.mp htext
        exact P.readable_timestamp (hpublished t ht)

end

theorem CommonsTables.Readable.record {tables next : CommonsTables} (h : tables.Readable P)
    {record : CommonsRecord} (hyear : FourDigitYear record.contribution.createdAt)
    (hrecord : tables.record P record = .ok next) : next.Readable P := by
  have hnew := P.readable_timestamp hyear
  cases CommonsTables.record_recorded hrecord with
  | topic payload row hkind hpayload hrow =>
      refine ⟨?_, h.votes, h.posts⟩
      intro stored hstored
      cases mem_insertOrIgnore hstored with
      | inl hold => exact h.topics stored hold
      | inr hsame =>
          rw [hsame, hrow]
          exact hnew
  | vote payload row same hkind hpayload hrow hsame hfresh =>
      have hrowReadable : P.Readable row.createdAt := by
        rw [hrow]
        exact hnew
      refine ⟨h.topics, ?_, h.posts⟩
      intro stored hstored
      rcases upsert_cases hstored with ⟨hold, -⟩ | ⟨old, hold, -, rfl⟩ | ⟨-, rfl⟩
      · exact h.votes stored hold
      · split
        · exact hrowReadable
        · exact h.votes old hold
      · exact hrowReadable
  | post payload row hkind hpayload hrow =>
      refine ⟨h.topics, h.votes, ?_⟩
      intro stored hstored
      cases mem_insertOrIgnore hstored with
      | inl hold => exact h.posts stored hold
      | inr hsame =>
          rw [hsame, hrow]
          exact hnew
  | key => exact ⟨h.topics, h.votes, h.posts⟩
  | message => exact ⟨h.topics, h.votes, h.posts⟩
  | other => exact h

theorem AuthorityTables.Readable.revokeWhere {tables : AuthorityTables}
    (h : tables.Readable P) (condition : LocalDelegationRow → Bool) (sequence : ℤ) :
    AuthorityTables.Readable P
      { tables with delegations := revokeWhere condition sequence tables.delegations } := by
  refine ⟨h.lineages, ?_, ?_⟩
  · intro row hrow
    obtain ⟨old, hold, rfl⟩ := mem_updateWhere.mp hrow
    have hkept := h.notBefore old hold
    split <;> exact hkept
  · intro row hrow
    obtain ⟨old, hold, rfl⟩ := mem_updateWhere.mp hrow
    have hkept := h.expiresAt old hold
    split <;> exact hkept

theorem AuthorityEffect.readable {db : Db} {accepted : AcceptedObject} {admitted : Admitted}
    {tables : AuthorityTables} (h : AuthorityEffect P db accepted admitted tables)
    (hreadable : db.authority.Readable P)
    (hyears : ∀ t ∈ admitted.instants, FourDigitYear t) : tables.Readable P := by
  cases h with
  | registerLineage lineageId registration =>
      refine ⟨?_, hreadable.notBefore, hreadable.expiresAt⟩
      intro row hrow
      cases List.mem_append.mp hrow with
      | inl hold => exact hreadable.lineages row hold
      | inr hnew =>
          rw [List.mem_singleton.mp hnew]
          exact P.readable_timestamp (hyears _ (by simp [Admitted.instants]))
  | registerDelegation id delegation =>
      refine ⟨hreadable.lineages, ?_, ?_⟩
      · intro row hrow
        cases List.mem_append.mp hrow with
        | inl hold => exact hreadable.notBefore row hold
        | inr hnew =>
            rw [List.mem_singleton.mp hnew]
            exact P.readable_timestamp (hyears _ (by simp [Admitted.instants]))
      · intro row hrow
        cases List.mem_append.mp hrow with
        | inl hold => exact hreadable.expiresAt row hold
        | inr hnew =>
            rw [List.mem_singleton.mp hnew]
            exact P.readable_timestamp (hyears _ (by simp [Admitted.instants]))
  | revokeDelegation revocation owner => exact hreadable.revokeWhere _ _
  | rotateLineageKey rotation lineage =>
      refine ⟨?_, ?_, ?_⟩
      · intro row hrow
        obtain ⟨old, hold, rfl⟩ := mem_updateWhere.mp hrow
        have hkept := hreadable.lineages old hold
        split <;> exact hkept
      · simp only
        split
        · exact (hreadable.revokeWhere _ _).notBefore
        · exact hreadable.notBefore
      · simp only
        split
        · exact (hreadable.revokeWhere _ _).expiresAt
        · exact hreadable.expiresAt
  | appendContribution => exact hreadable
  | appendAcknowledgement => exact ⟨hreadable.lineages, hreadable.notBefore, hreadable.expiresAt⟩

/-! ## One step -/

section

variable {identity : NodeIdentity P} {db next : Db} {appendedAt : ℤ} {row : EventRow}
  {accepted : AcceptedObject}

theorem Appended.readable {input : EventInput} {logged : Db}
    (h : Appended P identity input appendedAt db row accepted logged)
    (hcreated : FourDigitYear input.createdAt) (happended : FourDigitYear appendedAt) :
    row.Readable P := by
  obtain ⟨-, -, -, -, hcreatedAt, hreceivedAt, -⟩ := h.columns
  unfold EventRow.Readable
  rw [hcreatedAt, hreceivedAt]
  exact ⟨P.readable_timestamp hcreated, P.readable_timestamp happended⟩

theorem readable_append (hevents : ∀ row ∈ db.events, row.Readable P)
    (hnext : next.events = db.events ++ [row]) (hrow : row.Readable P) :
    ∀ stored ∈ next.events, stored.Readable P := by
  rw [hnext]
  intro stored hstored
  cases List.mem_append.mp hstored with
  | inl hold => exact hevents stored hold
  | inr hnew =>
      rw [List.mem_singleton.mp hnew]
      exact hrow

theorem Admitted.input_createdAt (admitted : Admitted) :
    (admitted.input P).createdAt ∈ admitted.instants := by
  cases admitted <;> exact List.mem_cons_self

/-- What a contribution writes into the commons of the node can be read. -/
theorem CommonsTables.Readable.contribution {lineageId : String}
    {contribution : SignedContribution} (h : db.commons.Readable P)
    (hnode : db.nodeId = some identity.nodeId) (hyear : FourDigitYear contribution.createdAt)
    (hcommit : db.appendContribution P identity lineageId contribution appendedAt =
      .ok (accepted, next)) (hrow : next.events = db.events ++ [row]) :
    next.commons.Readable P := by
  have hreplay := (Db.CommonsExtends.contribution hnode hcommit hrow).replay
  split at hreplay
  · simp only [foldState, bind_eq_ok, Except.ok.injEq, exists_eq_right] at hreplay
    exact h.record hyear hreplay
  · rw [foldState, Except.ok.injEq] at hreplay
    rwa [← hreplay]

theorem Db.Readable.commit {admitted : Admitted} (h : db.Readable P)
    (hnode : db.nodeId = some identity.nodeId)
    (hcommit : admitted.commit P identity appendedAt db = .ok (accepted, next))
    (happended : FourDigitYear appendedAt)
    (hyears : ∀ t ∈ admitted.instants, FourDigitYear t) : next.Readable P := by
  obtain ⟨row, hcommitted⟩ := Admitted.commit_eq_ok hcommit
  obtain ⟨logged, hlogged, hsame⟩ := hcommitted.appended
  have hrow := hlogged.readable (hyears _ admitted.input_createdAt) happended
  have horigins : next.origins = db.origins := by
    rw [hsame.origins, hlogged.next_eq]
  have hevents := readable_append h.events hcommitted.events hrow
  have hauthority := hcommitted.effect.readable h.authority hyears
  have hother : ∀ origin, (next.origins origin).content.Readable P := by
    rw [horigins]
    exact h.origins
  rcases Admitted.commit_frame hcommit with ⟨lineageId, contribution, rfl⟩ | ⟨-, hnext⟩
  · have hyear := hyears _ (Admitted.input_createdAt (P := P) _)
    obtain ⟨-, logged, hlogged, happly⟩ := Db.appendContribution_row hcommit
      hcommitted.events
    have hrecord := Db.applyProjection_record happly
    have hcontent : logged.content = db.content := by rw [hlogged.next_eq]
    rw [hcontent] at hrecord
    exact ⟨hevents, hauthority, h.content.record hyear hrecord,
      h.commons.contribution hnode hyear hcommit hcommitted.events, hother⟩
  · refine ⟨hevents, hauthority, ?_, ?_, hother⟩
    · rw [hnext]
      exact h.content
    · rw [hnext]
      exact h.commons

theorem Db.Readable.observe {observation : IngestedObservation} (h : db.Readable P)
    (hobserved : Observed P identity observation appendedAt db row accepted next)
    (happended : FourDigitYear appendedAt) (hretrieved : FourDigitYear observation.retrievedAt)
    (hpublished : ∀ t, observation.publishedAt = some t → FourDigitYear t) :
    next.Readable P := by
  obtain ⟨logged, hlogged, hsame⟩ := hobserved.appended
  obtain ⟨-, -, -, hcontent, -⟩ := Db.appendObservation_eq_ok hobserved
  have hauthority : next.authority = db.authority := by
    have happend := hobserved.append
    unfold Db.appendObservation at happend
    simp only [hobserved.new, bind_eq_ok, pure_eq_ok, Except.ok.injEq, Prod.mk.injEq,
      Prod.exists] at happend
    obtain ⟨-, -, _, logged, hlog, content, -, -, rfl⟩ := happend
    obtain ⟨row, hrow⟩ := appendEvent_eq_ok hlog
    simp only [hrow.next_eq]
  refine ⟨readable_append h.events hobserved.events (hlogged.readable hretrieved happended),
    ?_, ?_, ?_, ?_⟩
  · rw [hauthority]
    exact h.authority
  · rw [hcontent]
    exact h.content.withObservation _ hretrieved hpublished
  · rw [Db.appendObservation_commons hobserved]
    exact h.commons
  · rw [hsame.origins, hlogged.next_eq]
    exact h.origins

end

section

variable {origin : String} {event : OriginEvent} {state next : ImportState}

/-- Every kind of contribution writes the time of the contribution. -/
theorem instants_contribution {contribution : SignedContribution}
    (hkind : event.kind = contribution.kind.asStr)
    (hdecode : SignedContribution.ofJson P event.canonical = some contribution) :
    event.instants P = [contribution.createdAt] := by
  unfold OriginEvent.instants
  rw [hkind, hdecode]
  cases contribution.kind <;> rfl

/-- An event which an import records writes its own instants. -/
theorem projectRemoteEvent_readable {nonce : Option String}
    (h : validateAndProjectRemoteEvent P origin event state = .ok (nonce, next))
    (hyears : ∀ t ∈ event.instants P, FourDigitYear t)
    (hcontent : state.tables.content.Readable P) (hcommons : state.commons.Readable P) :
    next.tables.content.Readable P ∧ next.commons.Readable P := by
  have hsame : ∀ {tables : OriginTables}, state.tables.SameContent tables →
      tables.content.Readable P ∧ state.commons.Readable P := by
    intro tables htables
    rw [htables.content]
    exact ⟨hcontent, hcommons⟩
  unfold validateAndProjectRemoteEvent at h
  split at h
  case h_6 hkind =>
    simp only [projectObservation, projectFederatedObservation, bind_eq_ok, okOr_eq_ok,
      pure_eq_ok, Except.ok.injEq, Prod.mk.injEq] at h
    obtain ⟨tables, ⟨envelope, hdecode, -, -, -, -, -, -, -, -, -, -, -, -, -, -, -, -, -, -,
      -, -, content, hadd, rfl⟩, -, rfl⟩ := h
    obtain ⟨-, -, rfl⟩ := ContentTables.addObservation_eq_ok.mp hadd
    rw [linkFederatedStoryEvent_content]
    unfold OriginEvent.instants at hyears
    rw [hkind] at hyears
    simp only [hdecode] at hyears
    refine ⟨hcontent.withObservation event.sequence (hyears _ List.mem_cons_self) ?_, hcommons⟩
    intro t ht
    exact hyears t (List.mem_cons_of_mem _ (by rw [ht]; exact List.mem_cons_self))
  case h_8 =>
    have hreplay := projectContribution_commons h
    rw [projectContribution_eq] at h
    simp only [bind_eq_ok, pure_eq_ok, Except.ok.injEq, Prod.mk.injEq, Prod.exists,
      applyFederatedContribution] at h
    obtain ⟨lineageId, contribution, hauthorize, applied, ⟨⟨⟩, -, ⟨⟩, -, hfederate⟩, -, rfl⟩ :=
      h
    simp only [authorizeContribution, bind_eq_ok, okOr_eq_ok, rejectIf_eq_ok, not_not,
      pure_eq_ok, Except.ok.injEq, Prod.mk.injEq, Prod.exists] at hauthorize
    obtain ⟨contribution, hdecode, -, -, -, -, -, -, -, hkind, receivedAt, -, -, -, lineage,
      sessionKey, -, ⟨⟩, hmetadata, key, -, ⟨⟩, -, rfl, rfl⟩ := hauthorize
    rw [instants_contribution hkind hdecode] at hyears
    have hyear := hyears _ List.mem_cons_self
    refine ⟨hcontent.record hyear (federateKind_record hfederate), ?_⟩
    rw [commonsRecord_eq hdecode (requireRemoteEventMetadata_lineage hmetadata) hkind]
      at hreplay
    split at hreplay
    · simp only [Option.toList_some, foldState, bind_eq_ok, Except.ok.injEq, exists_eq_right]
        at hreplay
      exact hcommons.record hyear hreplay
    · rw [Option.toList_none, foldState, Except.ok.injEq] at hreplay
      rwa [← hreplay]
  all_goals
    simp only [bind_eq_ok, pure_eq_ok, Except.ok.injEq, Prod.mk.injEq, Prod.exists] at h
  case h_1 =>
    obtain ⟨_, tables, htables, -, rfl⟩ := h
    exact hsame (projectRegistration_sameContent state.tables _ htables)
  case h_2 =>
    obtain ⟨_, tables, htables, -, rfl⟩ := h
    exact hsame (projectDelegation_sameContent state.tables _ htables)
  case h_3 =>
    obtain ⟨_, tables, htables, -, rfl⟩ := h
    exact hsame (projectRevocation_sameContent state.tables _ htables)
  case h_4 =>
    obtain ⟨_, tables, htables, -, rfl⟩ := h
    exact hsame (projectRotation_sameContent state.tables _ htables)
  all_goals
    obtain ⟨_, -, -, rfl⟩ := h
    exact ⟨hcontent, hcommons⟩

theorem projectEvents_readable {events : List OriginEvent}
    (h : projectEvents P origin state events = .ok next)
    (hyears : ∀ event ∈ events, ∀ t ∈ event.instants P, FourDigitYear t)
    (hcontent : state.tables.content.Readable P) (hcommons : state.commons.Readable P) :
    next.tables.content.Readable P ∧ next.commons.Readable P := by
  unfold projectEvents at h
  induction events generalizing state with
  | nil =>
      rw [foldState, Except.ok.injEq] at h
      rw [← h]
      exact ⟨hcontent, hcommons⟩
  | cons event rest ih =>
      simp only [foldState, bind_eq_ok] at h
      obtain ⟨middle, hstore, hrest⟩ := h
      obtain ⟨nonce, projected, hproject, rfl⟩ := projectAndStore_eq_ok hstore
      obtain ⟨hcontent', hcommons'⟩ := projectRemoteEvent_readable hproject
        (hyears event List.mem_cons_self) hcontent hcommons
      exact ih hrest (fun other hother => hyears other (List.mem_cons_of_mem event hother))
        hcontent' hcommons'

end

section

variable {identity : NodeIdentity P}

/-- An import succeeds, or it records nothing. -/
theorem importFederationBundle_succeeds (identity : NodeIdentity P)
    (bundle : FederationBundle) (observedAt now appendedAt : ℤ) (db : Db) :
    db.Unrecorded (importFederationBundle P identity bundle observedAt now appendedAt db).2 ∨
      ∃ report key head opened loop fresh state,
        (importFederationBundle P identity bundle observedAt now appendedAt db).1 =
          .ok report ∧
        ImportResult P identity bundle (makeCheckpointWitness P identity bundle observedAt)
          now appendedAt db report
          (importFederationBundle P identity bundle observedAt now appendedAt db).2 key head
          opened loop fresh state := by
  unfold importFederationBundle
  cases verifyBundle P bundle with
  | error e => exact .inl (.refl db)
  | ok =>
      have houtcome := importTransaction_outcome identity bundle
        (makeCheckpointWitness P identity bundle observedAt) now appendedAt db
      simp only [Db.importFederationBundle]
      generalize importTransaction P identity bundle
        (makeCheckpointWitness P identity bundle observedAt) now appendedAt db = outcome
        at houtcome
      cases houtcome with
      | rolledBack e => exact .inl (.refl db)
      | committed key head message input _ _ _ _ =>
          obtain ⟨rows, heq⟩ := recordEquivocation_onlyEvidence (P := P) input db
          simp only [heq]
          exact .inl ⟨rfl, rfl, rfl, rfl, rfl, rfl, rfl, rfl, rfl⟩
      | done report next key head opened loop fresh state hresult =>
          exact .inr ⟨report, key, head, opened, loop, fresh, state, rfl, hresult⟩

/-- The events which an import records are those beyond the known cursor. -/
theorem ImportResult.fresh_subset {bundle : FederationBundle} {witness : CheckpointWitness}
    {now appendedAt : ℤ} {db next opened : Db} {report : FederationImportReport} {key : Bytes}
    {head : String} {loop : ImportLoop} {fresh : List OriginEvent} {state : ImportState}
    (h : ImportResult P identity bundle witness now appendedAt db report next key head
      opened loop fresh state) {event : OriginEvent} (hevent : event ∈ fresh) :
    event ∈ bundle.events.filter fun event =>
      (db.knownHead bundle.originNodeId).1 < event.sequence := by
  obtain ⟨overlap, hevents, -⟩ := h.looped.split
  rw [List.mem_filter, hevents, decide_eq_true_eq]
  exact ⟨List.mem_append_right _ hevent, (h.looped.numbered.mem_bounds hevent).1⟩

theorem readable_importBundle {db : Db} (h : db.Readable P) (bundle : FederationBundle)
    (observedAt now appendedAt : ℤ)
    (hyears : ∀ t ∈ NodeState.written P identity ⟨db, []⟩
      (.importBundle bundle observedAt now appendedAt), FourDigitYear t) :
    (importFederationBundle P identity bundle observedAt now appendedAt db).2.Readable P := by
  have hframe := importFederationBundle_frame identity bundle observedAt now appendedAt db
  have hcases := importFederationBundle_succeeds identity bundle observedAt now appendedAt db
  unfold NodeState.written at hyears
  simp only at hyears
  generalize importFederationBundle P identity bundle observedAt now appendedAt db = result
    at hframe hcases hyears
  rcases hcases with hquiet | ⟨report, key, head, opened, loop, fresh, state, hok, hresult⟩
  · refine ⟨?_, ?_, ?_, ?_, ?_⟩
    · rw [hquiet.events]
      exact h.events
    · rw [hquiet.authority]
      exact h.authority
    · rw [hquiet.content]
      exact h.content
    · rw [hquiet.commons]
      exact h.commons
    · rw [hquiet.origins]
      exact h.origins
  · rw [hok] at hyears
    simp only [List.forall_mem_append] at hyears
    obtain ⟨hevents, hclock⟩ := hyears
    have hproject := hresult.looped.projected
    rw [hresult.opens.importState] at hproject
    obtain ⟨hcontent, hcommons⟩ := projectEvents_readable hproject
      (fun event hevent t ht => hevents t
        (List.mem_flatMap.mpr ⟨event, hresult.fresh_subset hevent, ht⟩))
      (h.origins bundle.originNodeId) h.commons
    refine ⟨?_, ?_, ?_, ?_, ?_⟩
    · rcases hresult.events with hkept | ⟨base, row, accepted, logged, -, hlogged, hrow⟩
      · rw [hkept]
        exact h.events
      · have hmoved : result.2.events ≠ db.events := by
          rw [hrow]
          exact fun hsame => List.cons_ne_nil row [] (List.append_right_eq_self.mp hsame)
        rw [if_neg hmoved] at hclock
        exact readable_append h.events hrow (hlogged.readable
          (hclock _ List.mem_cons_self) (hclock _ (by simp)))
    · rw [hframe.same.authority]
      exact h.authority
    · rw [hframe.same.content]
      exact h.content
    · rw [hresult.commons]
      exact hcommons
    · intro origin
      by_cases hsame : origin = bundle.originNodeId
      · rw [hsame, hresult.tables.1]
        exact hcontent
      · rw [hresult.other_origins hsame]
        exact h.origins origin

/-- A step whose instants have four-digit years keeps the tables readable. -/
theorem NodeState.step_readable (node : NodeState) (action : Action)
    (h : node.db.Readable P) (hnode : node.db.nodeId = some identity.nodeId)
    (hyears : ∀ t ∈ node.written P identity action, FourDigitYear t) :
    (node.step P identity action).db.Readable P := by
  have hsteps := node.step_steps identity action
  generalize node.step P identity action = next at hsteps
  cases hsteps with
  | idle => exact h
  | pend => exact h
  | abort => exact h
  | commit index appendedAt call accepted next hcall hcommit =>
      simp only [NodeState.written, hcall, hcommit, List.forall_mem_cons] at hyears
      exact h.commit hnode hcommit hyears.1 hyears.2
  | observe sourceId languages feed retrievedAt entry appendedAt canonicalUrl observation
      accepted next hurl hobservation hnew happend =>
      subst hobservation
      simp only [NodeState.written, hurl, hnew, happend, if_true, List.forall_mem_cons,
        Option.mem_toList] at hyears
      obtain ⟨row, logged, happended, hsame⟩ :=
        (Db.appendObservation_logs identity _ appendedAt hnew _ happend).appended
      exact h.observe ⟨hnew, happend, logged, happended, hsame⟩ hyears.1 hyears.2.1
        fun t ht => hyears.2.2 t ht
  | markSourceFetch => exact ⟨h.events, h.authority, h.content, h.commons, h.origins⟩
  | importBundle bundle observedAt now appendedAt =>
      exact readable_importBundle h bundle observedAt now appendedAt hyears

end

end

section

variable (P : Primitives) (identity : NodeIdentity P)

/-- Every instant which a run writes is read back up to its milliseconds. -/
def InstantsSurvive (actions : List Action) : Prop :=
  ∀ before action after, actions = before ++ action :: after →
    ∀ t ∈ (NodeState.run P identity before).written P identity action,
      P.parseTimestamp (P.timestamp t) = .ok (truncateToMillis t)

/-- Every instant which a run writes has a year from 0 to 9999. -/
def InstantsDated (actions : List Action) : Prop :=
  ∀ before action after, actions = before ++ action :: after →
    ∀ t ∈ (NodeState.run P identity before).written P identity action, FourDigitYear t

end

section

variable {P : Primitives} {identity : NodeIdentity P}

theorem instantsSurvive_iff {actions : List Action} :
    InstantsSurvive P identity actions ↔ InstantsDated P identity actions := by
  constructor
  · intro hsurvive before action after hactions t ht
    have hread := hsurvive before action after hactions t ht
    exact (P.isOk_parseTimestamp_timestamp t).mp ⟨_, hread⟩
  · intro hdated before action after hactions t ht
    exact P.parseTimestamp_timestamp (hdated before action after hactions t ht)

theorem run_readable {actions : List Action} (h : InstantsDated P identity actions) :
    (NodeState.run P identity actions).db.Readable P := by
  induction actions using List.reverseRecOn with
  | nil =>
      refine ⟨nofun, ⟨nofun, nofun, nofun⟩, ⟨nofun, nofun, nofun, nofun⟩,
        ⟨nofun, nofun, nofun⟩, ?_⟩
      intro origin
      exact ⟨nofun, nofun, nofun, nofun⟩
  | append_singleton actions action ih =>
      have hbefore : InstantsDated P identity actions := by
        intro before other after hactions
        apply h before other (after ++ [action])
        rw [hactions, List.append_assoc, List.cons_append]
      rw [NodeState.run_append_singleton]
      exact (NodeState.run P identity actions).step_readable action (ih hbefore)
        (run_nodeId identity actions) (h actions action [] rfl)

/-- The instants of a run survive, and the views of the node can be shown, exactly
if all instants have four-digit years. -/
theorem run_instants (P : Primitives) (identity : NodeIdentity P) (actions : List Action) :
    (InstantsSurvive P identity actions ∧
      (NodeState.run P identity actions).db.ViewsRead P identity) ↔
    InstantsDated P identity actions := by
  rw [instantsSurvive_iff]
  constructor
  · intro h
    exact h.1
  · intro hdated
    exact ⟨hdated, (run_readable hdated).viewsRead identity⟩

namespace Sample

/-- An instant in the year before the year 0. -/
def beforeYearZero : ℤ := -62200000000 * 1000000000

/-- A lineage registers with this time of authorship. -/
def ancientRun : List Action :=
  atOnce (.registerLineage (registration [2] "First" "0123456789abcdef" beforeYearZero)) 0

instance ancientRun_lineage : Fact
    (((NodeState.run library origin ancientRun).db.lineage? (lineageOf [2])).map
      (fun row => (library.parseTimestamp row.createdAt).toOption) = some none) :=
  ⟨by decide +kernel⟩

/-- The registration is accepted, and the lineage cannot be shown any more. -/
theorem ancientRun_unreadable :
    ¬ (NodeState.run library origin ancientRun).db.ViewsRead library origin := by
  intro hviews
  obtain ⟨row, hrow, hparse⟩ := Option.map_eq_some_iff.mp ancientRun_lineage.out
  have hreads := hviews.lineage (lineageOf [2])
  unfold Db.lineage at hreads
  rw [hrow] at hreads
  simp only [okOr_some, ok_bind] at hreads
  unfold Primitives.parseTimestamp at hreads hparse
  cases htext : library.parseRfc3339 row.createdAt with
  | some t =>
      rw [htext] at hparse
      cases hparse
  | none =>
      rw [htext] at hreads
      exact hreads _ rfl ⟨row.createdAt, rfl⟩

end Sample

end

end Commonwake
