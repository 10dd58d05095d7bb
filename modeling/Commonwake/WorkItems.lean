import Commonwake.Lifetime
import Commonwake.Publication
import Mathlib.Logic.Relation

/-!
# The work items of a node

Every event and every statement about the relays writes work items in two ways:
it inserts an open one, or it updates some of those which are there.  The place
of an item in the order of the table is fixed, except for the item which asks
for relays: this one is moved to the head of the log.
-/

namespace Commonwake

open Outcome Table

/-- What an update keeps of an item; `own` is the one which may be moved. -/
structure WorkItemRow.Keeps (own : String) (row later : WorkItemRow) : Prop where
  workId : later.workId = row.workId
  kind : later.kind = row.kind
  subjectId : later.subjectId = row.subjectId
  createdSequence : row.workId ≠ own → later.createdSequence = row.createdSequence

section

variable (P : Primitives)

structure WorkItemRow.WellFormed (row : WorkItemRow) : Prop where
  workId : row.workId = workIdOf P row.kind row.subjectId
  createdSequence : 0 ≤ row.createdSequence

structure WorkTables.Sound (work : WorkTables) : Prop where
  distinct : (work.items.map WorkItemRow.workId).Nodup
  wellFormed : ∀ row ∈ work.items, row.WellFormed P

/-- One statement on the work items. -/
inductive WorkTables.Change (own : String) (work : WorkTables) : WorkTables → Prop
  | kept (next : WorkTables) (hkept : next.items = work.items) : Change own work next
  | inserted (kind subjectType subjectId : String) (requiredResults sequence : ℤ)
      (hsequence : 0 ≤ sequence) :
      Change own work (insertWorkItem P kind subjectType subjectId requiredResults sequence work)
  | updated (next : WorkTables) (condition : WorkItemRow → Bool)
      (update : WorkItemRow → WorkItemRow)
      (hkeeps : ∀ row, condition row = true → row.Keeps own (update row))
      (hnonneg : ∀ row, 0 ≤ row.createdSequence → 0 ≤ (update row).createdSequence)
      (hitems : next.items = updateWhere condition update work.items) :
      Change own work next

/-- The statements of a step. -/
def WorkTables.Changes (own : String) : WorkTables → WorkTables → Prop :=
  Relation.ReflTransGen (WorkTables.Change P own)

/-- The id of the item which asks for relays. -/
def originWorkId (identity : NodeIdentity P) : String :=
  workIdOf P "replicate_origin" identity.nodeId

end

section

variable {P : Primitives} {identity : NodeIdentity P} {own : String}
variable {row later last : WorkItemRow} {work next : WorkTables}

theorem WorkItemRow.Keeps.refl (row : WorkItemRow) : row.Keeps own row :=
  ⟨rfl, rfl, rfl, fun _ => rfl⟩

theorem WorkItemRow.Keeps.trans (h : row.Keeps own later) (hlast : later.Keeps own last) :
    row.Keeps own last := by
  refine ⟨hlast.workId.trans h.workId, hlast.kind.trans h.kind,
    hlast.subjectId.trans h.subjectId, fun hne => ?_⟩
  rw [hlast.createdSequence (h.workId ▸ hne), h.createdSequence hne]

/-! ## One statement -/

theorem WorkTables.Change.sound (h : work.Change P own next) (hsound : work.Sound P) :
    next.Sound P := by
  cases h with
  | kept _ hkept => exact ⟨hkept ▸ hsound.distinct, hkept ▸ hsound.wellFormed⟩
  | inserted kind subjectType subjectId requiredResults sequence hsequence =>
      constructor
      · unfold insertWorkItem insertOrIgnore
        simp only
        split
        · exact hsound.distinct
        · next hfresh =>
            rw [List.map_append, List.nodup_append]
            refine ⟨hsound.distinct, List.nodup_singleton _, ?_⟩
            intro id hid other hother
            obtain ⟨stored, hstored, rfl⟩ := List.mem_map.mp hid
            rw [List.mem_singleton.mp hother]
            intro heq
            apply hfresh
            rw [List.any_eq_true]
            exact ⟨stored, hstored, by simp [heq]⟩
      · intro row hrow
        rcases mem_insertOrIgnore hrow with hold | rfl
        · exact hsound.wellFormed row hold
        · exact ⟨rfl, hsequence⟩
  | updated _ condition update hkeeps hnonneg hitems =>
      constructor
      · rw [hitems, map_updateWhere fun row hrow => (hkeeps row hrow).workId]
        exact hsound.distinct
      · intro row hrow
        rw [hitems] at hrow
        obtain ⟨old, hold, rfl⟩ := mem_updateWhere.mp hrow
        have hformed := hsound.wellFormed old hold
        split
        · next hcondition =>
            have hkept := hkeeps old hcondition
            refine ⟨?_, hnonneg old hformed.createdSequence⟩
            rw [hkept.workId, hkept.kind, hkept.subjectId]
            exact hformed.workId
        · exact hformed

theorem WorkTables.Change.keeps (h : work.Change P own next) (hrow : row ∈ work.items) :
    ∃ later ∈ next.items, row.Keeps own later := by
  cases h with
  | kept _ hkept => exact ⟨row, hkept ▸ hrow, .refl row⟩
  | inserted => exact ⟨row, subset_insertOrIgnore _ _ _ hrow, .refl row⟩
  | updated _ condition update hkeeps hnonneg hitems =>
      rw [hitems]
      refine ⟨_, mem_updateWhere.mpr ⟨row, hrow, rfl⟩, ?_⟩
      split
      · next hcondition => exact hkeeps row hcondition
      · exact .refl row

/-! ## The statements of a step -/

theorem WorkTables.Change.single (h : work.Change P own next) : work.Changes P own next :=
  Relation.ReflTransGen.single h

theorem WorkTables.Changes.refl (work : WorkTables) : work.Changes P own work :=
  Relation.ReflTransGen.refl

theorem WorkTables.Changes.trans {last : WorkTables} (h : work.Changes P own next)
    (hlast : next.Changes P own last) : work.Changes P own last :=
  Relation.ReflTransGen.trans h hlast

theorem WorkTables.Changes.of_items (h : next.items = work.items) :
    work.Changes P own next :=
  (WorkTables.Change.kept next h).single

theorem WorkTables.Changes.sound (h : work.Changes P own next) (hsound : work.Sound P) :
    next.Sound P := by
  induction h with
  | refl => exact hsound
  | tail _ hchange ih => exact hchange.sound ih

theorem WorkTables.Changes.keeps (h : work.Changes P own next) (hrow : row ∈ work.items) :
    ∃ later ∈ next.items, row.Keeps own later := by
  induction h with
  | refl => exact ⟨row, hrow, .refl row⟩
  | tail _ hchange ih =>
      obtain ⟨middle, hmiddle, hkeeps⟩ := ih
      obtain ⟨later, hlater, hlast⟩ := hchange.keeps hmiddle
      exact ⟨later, hlater, hkeeps.trans hlast⟩

variable {sequence : ℤ}

theorem insertWorkItem_changes (kind subjectType subjectId : String) (requiredResults : ℤ)
    (hsequence : 0 ≤ sequence) (work : WorkTables) :
    work.Changes P own
      (insertWorkItem P kind subjectType subjectId requiredResults sequence work) :=
  (WorkTables.Change.inserted kind subjectType subjectId requiredResults sequence
    hsequence).single

/-- An update which closes items moves none. -/
theorem WorkTables.Changes.closed (condition : WorkItemRow → Bool)
    (h : next.items = updateWhere condition (fun row => { row with
      status := .complete, completedSequence := some sequence }) work.items) :
    work.Changes P own next :=
  (WorkTables.Change.updated next condition (fun row : WorkItemRow => { row with
      status := .complete, completedSequence := some sequence })
    (fun _ _ => ⟨rfl, rfl, rfl, fun _ => rfl⟩) (fun _ hrow => hrow) h).single

theorem completeWork_changes (kind subjectId : String) (work : WorkTables) :
    work.Changes P own (completeWork kind subjectId sequence work) :=
  .closed _ rfl

theorem foldl_changes {α : Type} {f : WorkTables → α → WorkTables}
    (h : ∀ work a, WorkTables.Changes P own work (f work a)) (items : List α) (work : WorkTables) :
    work.Changes P own (items.foldl f work) := by
  induction items generalizing work with
  | nil => exact .refl work
  | cons a rest ih => exact (h work a).trans (ih (f work a))

theorem seedBootstrapWork_changes (work : WorkTables) :
    work.Changes P own (seedBootstrapWork P work) :=
  foldl_changes (fun work subjectId => insertWorkItem_changes _ _ subjectId 0 le_rfl work) _ work

theorem observationWork_changes (isNewStory : Bool) (payload : FederatedObservationPayload)
    (hsequence : 0 ≤ sequence) (stories : List StoryRow) (work : WorkTables) :
    work.Changes P own (observationWork P isNewStory payload sequence stories work) := by
  unfold observationWork
  have hverify : work.Changes P own _ := insertWorkItem_changes "verify_observation"
    "observation" payload.observationId 2 hsequence work
  have hboth := hverify.trans
    (insertWorkItem_changes "assess_story" "story" payload.storyId 2 hsequence _)
  cases isNewStory with
  | true =>
      refine hboth.trans ?_
      exact foldl_changes (fun work row => insertWorkItem_changes _ _ _ 1 hsequence work) _ _
  | false => exact hboth

/-! ## Contributions -/

/-- The work items of the result follow from those before. -/
abbrev WorkFollows (P : Primitives) (own : String) (db next : Db) : Prop :=
  db.work.Changes P own next.work

variable {accepted : AcceptedObject} {db : Db}

theorem Db.applyStoryLink_work (db : Db) (accepted : AcceptedObject)
    (payload : StoryLinkPayload) :
    Ensures (db.applyStoryLink accepted payload) (WorkFollows P own db) := by
  have hstep : ∀ state observationId next, WorkFollows P own db state →
      Db.linkObservation payload.storyId accepted state observationId = .ok next →
      WorkFollows P own db next := by
    intro state observationId next hstate hnext
    unfold Db.linkObservation at hnext
    obtain ⟨oldStory, -, hlink⟩ := bind_eq_ok.mp hnext
    split at hlink
    · cases hlink
      exact hstate
    · cases hlink
      exact hstate.trans (completeWork_changes _ _ _)
  intro next hnext
  exact foldState_invariant hstep (WorkTables.Changes.refl db.work) hnext

theorem Db.applyWorkResult_work (db : Db) (lineageId : String)
    (contribution : SignedContribution) (accepted : AcceptedObject)
    (payload : WorkResultPayload) :
    Ensures (db.applyWorkResult P lineageId contribution accepted payload)
      (WorkFollows P own db) := by
  unfold Db.applyWorkResult
  refine Ensures.bind fun item => Ensures.bind fun received => .pure ?_
  by_cases henough : 0 < item.requiredResults ∧ item.requiredResults ≤ received.length
  · rw [if_pos henough]
    exact .closed _ rfl
  · rw [if_neg henough]
    exact .of_items rfl

/-- Closing the task of a decided object, or leaving it open. -/
theorem completeWork_if_changes {decided : Prop} [Decidable decided] (kind subjectId : String)
    (work : WorkTables) :
    work.Changes P own
      (if decided then completeWork kind subjectId sequence work else work) := by
  split
  · exact completeWork_changes kind subjectId work
  · exact .refl work

theorem Db.applyProjection_work (db : Db) (lineageId : String)
    (contribution : SignedContribution) (hsequence : 0 ≤ accepted.sequence) :
    Ensures (db.applyProjection P lineageId contribution accepted) (WorkFollows P own db) := by
  unfold Db.applyProjection
  cases contribution.kind with
  | sourceProposal =>
      refine Ensures.bind fun payload => ?_
      unfold Db.applySourceProposal
      repeat refine Ensures.bind fun _ => ?_
      exact .pure (insertWorkItem_changes _ _ _ 2 hsequence _)
  | sourceReview =>
      refine Ensures.bind fun payload => ?_
      unfold Db.applySourceReview
      exact Ensures.bind fun _ => .pure (completeWork_if_changes _ _ _)
  | observationVerification =>
      refine Ensures.bind fun payload => ?_
      unfold Db.applyVerification
      exact Ensures.bind fun _ => .pure (completeWork_if_changes _ _ _)
  | storyLink => exact Ensures.bind fun payload => db.applyStoryLink_work accepted payload
  | assessment =>
      refine Ensures.bind fun payload => ?_
      unfold Db.applyAssessment
      exact Ensures.bind fun _ => .pure (completeWork_if_changes _ _ _)
  | workClaim =>
      exact Ensures.bind fun payload => .pure (.of_items rfl)
  | workResult =>
      exact Ensures.bind fun payload => db.applyWorkResult_work lineageId contribution accepted payload
  | topicProposal | topicVote | forumPost | openPgpKey | directMessage =>
      unfold Db.applyCommons
      repeat refine Ensures.bind fun _ => ?_
      exact .pure (.refl _)
  | verificationTrace | correction | perspectiveGap | translation | commitment
  | position | continuityCheckpoint | repositoryPatch | codeReview | buildAttestation
  | releaseProposal | releaseReview => exact .pure (.refl _)

/-! ## Transactions -/

/-- The rule for a transaction which logs its event first. -/
theorem Ensures.workFollows {input : EventInput} {appendedAt : ℤ}
    {rest : AcceptedObject × Db → Result (AcceptedObject × Db)} (hhead : 0 ≤ db.head)
    (h : ∀ accepted logged, 0 ≤ accepted.sequence →
      Ensures (rest (accepted, logged)) fun result => WorkFollows P own logged result.2) :
    Ensures (appendEvent P identity input appendedAt db >>= rest)
      fun result => WorkFollows P own db result.2 := by
  intro result hresult
  obtain ⟨⟨accepted, logged⟩, happend, hrest⟩ := bind_eq_ok.mp hresult
  obtain ⟨row, happended⟩ := appendEvent_eq_ok happend
  have hsequence : 0 ≤ accepted.sequence := by
    rw [happended.accepted_eq]
    change 0 ≤ row.sequence
    rw [happended.columns.1]
    omega
  have hwork : logged.work = db.work := by rw [happended.next_eq]
  have hfollows := h accepted logged hsequence result hrest
  change logged.work.Changes P own result.2.work at hfollows
  rw [hwork] at hfollows
  exact hfollows

theorem Admitted.commit_work (admitted : Admitted) (appendedAt : ℤ) (hhead : 0 ≤ db.head) :
    Ensures (admitted.commit P identity appendedAt db)
      fun result => WorkFollows P own db result.2 := by
  cases admitted with
  | registerLineage lineageId registration =>
      change Ensures (db.registerLineage P identity lineageId registration appendedAt) _
      unfold Db.registerLineage
      refine Ensures.bind fun _ => Ensures.workFollows hhead fun accepted logged _ => ?_
      exact Ensures.bind fun _ => .pure (.refl _)
  | registerDelegation id delegation =>
      change Ensures (db.registerDelegation P identity id delegation appendedAt) _
      unfold Db.registerDelegation
      refine Ensures.bind fun _ => Ensures.bind fun _ =>
        Ensures.workFollows hhead fun accepted logged _ => ?_
      exact Ensures.bind fun _ => .pure (.refl _)
  | revokeDelegation revocation =>
      change Ensures (db.revokeDelegation P identity revocation appendedAt) _
      unfold Db.revokeDelegation
      refine Ensures.bind fun _ => Ensures.bind fun _ => Ensures.bind fun _ =>
        Ensures.workFollows hhead fun accepted logged _ => ?_
      exact .pure (.refl _)
  | rotateLineageKey rotation =>
      change Ensures (db.rotateLineageKey P identity rotation appendedAt) _
      unfold Db.rotateLineageKey
      refine Ensures.bind fun _ => Ensures.bind fun _ => Ensures.bind fun _ =>
        Ensures.workFollows hhead fun accepted logged _ => ?_
      exact Ensures.bind fun _ => Ensures.bind fun _ => .pure (.refl _)
  | appendContribution lineageId contribution =>
      change Ensures (db.appendContribution P identity lineageId contribution appendedAt) _
      unfold Db.appendContribution
      refine Ensures.bind fun _ => Ensures.workFollows hhead fun accepted logged hsequence => ?_
      exact (logged.applyProjection_work lineageId contribution hsequence).seq
        fun _ h => .pure h
  | appendAcknowledgement lineageId acknowledgement =>
      change Ensures (db.appendAcknowledgement P identity lineageId acknowledgement
        appendedAt) _
      unfold Db.appendAcknowledgement
      refine Ensures.bind fun _ => Ensures.bind fun _ =>
        Ensures.workFollows hhead fun accepted logged _ => ?_
      exact .pure (.refl _)

theorem Db.appendObservation_work (observation : IngestedObservation) (now : ℤ)
    (hhead : 0 ≤ db.head) :
    Ensures (db.appendObservation P identity observation now)
      fun result => WorkFollows P own db result.2 := by
  unfold Db.appendObservation
  simp only
  split
  · exact .pure (.refl _)
  · refine Ensures.bind fun _ => Ensures.workFollows hhead fun accepted logged hsequence => ?_
    exact Ensures.bind fun _ => .pure (observationWork_changes _ _ hsequence _ _)

/-! ## The steps of a node -/

theorem NodeState.step_work (node : NodeState) (action : Action) (hhead : 0 ≤ node.db.head) :
    WorkFollows P own node.db (node.step P identity action).db := by
  have hsteps := node.step_steps identity action
  generalize node.step P identity action = next at hsteps
  cases hsteps with
  | idle => exact .refl _
  | pend => exact .refl _
  | abort => exact .refl _
  | commit index appendedAt call accepted next hcall hcommit =>
      exact call.admitted.commit_work appendedAt hhead _ hcommit
  | observe sourceId languages feed retrievedAt entry appendedAt canonicalUrl observation
      accepted next hurl hobservation hnew happend =>
      exact Db.appendObservation_work observation appendedAt hhead _ happend
  | markSourceFetch sourceId success => exact .refl _
  | importBundle bundle observedAt now appendedAt =>
      have hframe := importFederationBundle_frame identity bundle observedAt now appendedAt
        node.db
      exact .of_items (congrArg WorkTables.items hframe.same.work)

theorem Db.head_congr {next : Db} (h : next.events = db.events) : next.head = db.head := by
  rw [Db.head_eq, Db.head_eq, h]

theorem Appended.head_le {input : EventInput} {receivedAt : ℤ} {event : EventRow}
    {base logged next : Db}
    (h : Appended P identity input receivedAt base event accepted logged)
    (hbase : base.events = db.events) (hnext : next.events = db.events ++ [event]) :
    db.head ≤ next.head := by
  have hhead : next.head = event.sequence := by
    unfold Db.head
    rw [hnext, List.getLast?_append_of_ne_nil _ (List.cons_ne_nil _ _)]
    rfl
  rw [hhead, h.columns.1, Db.head_congr hbase]
  omega

/-- The log of a node grows. -/
theorem NodeState.step_head (node : NodeState) (identity : NodeIdentity P) (action : Action) :
    (node.step P identity action).db.nodeId = node.db.nodeId ∧
      node.db.head ≤ (node.step P identity action).db.head := by
  have hsteps := node.step_steps identity action
  generalize node.step P identity action = next at hsteps
  cases hsteps with
  | idle => exact ⟨rfl, le_refl _⟩
  | pend => exact ⟨rfl, le_refl _⟩
  | abort => exact ⟨rfl, le_refl _⟩
  | commit index appendedAt call accepted next hcall hcommit =>
      obtain ⟨event, hcommitted⟩ := Admitted.commit_eq_ok hcommit
      obtain ⟨logged, happended, hsame⟩ := hcommitted.appended
      refine ⟨?_, happended.head_le rfl hcommitted.events⟩
      rw [hsame.nodeId, happended.next_eq]
  | observe sourceId languages feed retrievedAt entry appendedAt canonicalUrl observation
      accepted next hurl hobservation hnew happend =>
      obtain ⟨event, logged, happended, hsame⟩ :=
        (Db.appendObservation_logs identity observation appendedAt hnew _ happend).appended
      refine ⟨?_, happended.head_le rfl ?_⟩
      · rw [hsame.nodeId, happended.next_eq]
      · rw [hsame.events, happended.events]
  | markSourceFetch sourceId success => exact ⟨rfl, le_refl _⟩
  | importBundle bundle observedAt now appendedAt =>
      have hframe := importFederationBundle_frame identity bundle observedAt now appendedAt
        node.db
      refine ⟨hframe.same.nodeId, ?_⟩
      rcases hframe.events with hkept | ⟨base, accepted, logged, hbase, happend, hnext⟩
      · exact (Db.head_congr hkept).ge
      · obtain ⟨event, happended⟩ := appendEvent_eq_ok happend
        apply happended.head_le hbase
        rw [← hbase, ← happended.events]
        exact hnext

/-! ## Relays -/

theorem refreshReplicationWork_nodeId (now : ℤ) (tables : PublicationTables) (db : Db) :
    (refreshReplicationWork P now tables db).nodeId = db.nodeId := by
  unfold refreshReplicationWork
  cases hnode : db.nodeId with
  | none => exact hnode
  | some nodeId => rfl

theorem refreshReplicationWork_head (now : ℤ) (tables : PublicationTables) (db : Db) :
    (refreshReplicationWork P now tables db).head = db.head := by
  apply Db.head_congr
  unfold refreshReplicationWork
  cases db.nodeId with
  | none => rfl
  | some nodeId => rfl

theorem refreshReplicationWork_changes (now : ℤ) (tables : PublicationTables)
    (hnode : db.nodeId = some identity.nodeId) (hhead : 0 ≤ db.head) :
    WorkFollows P (originWorkId P identity) db (refreshReplicationWork P now tables db) := by
  unfold refreshReplicationWork
  rw [hnode]
  simp only
  have hinsert : db.work.Changes P (originWorkId P identity) _ :=
    insertWorkItem_changes "replicate_origin" "origin_node" identity.nodeId 0 hhead db.work
  refine hinsert.trans ?_
  split
  · exact .closed _ rfl
  · refine WorkTables.Change.single (.updated _ _ (fun row : WorkItemRow => { row with
      status := .isOpen, createdSequence := db.head, completedSequence := none })
      ?_ (fun _ _ => hhead) rfl)
    intro row hrow
    exact ⟨rfl, rfl, rfl, fun hne => absurd (beq_iff_eq.mp hrow) hne⟩

/-- The item which asks for relays stands at the head while it is open. -/
theorem refreshReplicationWork_origin {now : ℤ} {tables : PublicationTables}
    (hnode : db.nodeId = some identity.nodeId)
    (hrow : row ∈ (refreshReplicationWork P now tables db).work.items)
    (hid : row.workId = originWorkId P identity) (hopen : row.status = .isOpen) :
    row.createdSequence = db.head := by
  unfold refreshReplicationWork at hrow
  rw [hnode] at hrow
  simp only at hrow
  split at hrow
  · obtain ⟨old, hold, rfl⟩ := mem_updateWhere.mp hrow
    split at hopen
    · cases hopen
    · next hother =>
        rw [if_neg hother] at hid
        exact absurd (beq_iff_eq.mpr hid) hother
  · obtain ⟨old, hold, rfl⟩ := mem_updateWhere.mp hrow
    split
    · rfl
    · next hother =>
        rw [if_neg hother] at hid
        exact absurd (beq_iff_eq.mpr hid) hother

/-! ## The steps of a publisher -/

/-- The database after a statement about the relays. -/
def Db.Refreshed (P : Primitives) (db next : Db) : Prop :=
  next = db ∨ ∃ now tables, next = refreshReplicationWork P now tables db

theorem configurePublicationTarget_refreshed (endpoint : String) (now : ℤ)
    (tables : PublicationTables) (db : Db) :
    Ensures (configurePublicationTarget P endpoint now tables db)
      fun result => db.Refreshed P result.2 := by
  unfold configurePublicationTarget
  exact Ensures.bind fun _ => .pure (.inr ⟨_, _, rfl⟩)

theorem setDesiredReplicas_refreshed (desiredReplicas : ℕ) (now : ℤ)
    (tables : PublicationTables) (db : Db) :
    Ensures (setDesiredReplicas P desiredReplicas now tables db)
      fun result => db.Refreshed P result.2 := by
  unfold setDesiredReplicas
  exact Ensures.bind fun _ => .pure (.inr ⟨_, _, rfl⟩)

theorem recordPublicationSuccess_refreshed (endpoint : String) (receipt : ReplicationReceipt)
    (now : ℤ) (tables : PublicationTables) (db : Db) :
    Ensures (recordPublicationSuccess P identity endpoint receipt now tables db)
      fun result => db.Refreshed P result.2 := by
  unfold recordPublicationSuccess
  repeat refine Ensures.bind fun _ => ?_
  exact .pure (.inr ⟨_, _, rfl⟩)

theorem recordPublicationFailure_refreshed (endpoint error : String)
    (nextAttemptAt now : ℤ) (tables : PublicationTables) (db : Db) :
    Ensures (recordPublicationFailure P endpoint error nextAttemptAt now tables db)
      fun result => db.Refreshed P result.2 := by
  unfold recordPublicationFailure
  exact Ensures.bind fun _ => .pure (.inr ⟨_, _, rfl⟩)

theorem PublishRun.proceed_refreshed (run : PublishRun) (now : ℤ) (answer : Option String)
    (errorText : String) (tables : PublicationTables) (db : Db) :
    db.Refreshed P (run.proceed P identity now answer errorText tables db).2.2 := by
  unfold PublishRun.proceed
  cases run.phase with
  | recording progress bundle receipt =>
      simp only
      cases hrecord : recordPublicationSuccess P identity run.endpoint receipt now tables db with
      | error error => exact .inl rfl
      | ok result =>
          have hrefreshed := recordPublicationSuccess_refreshed run.endpoint receipt now tables
            db result hrecord
          simp only
          split
          · exact hrefreshed
          · exact hrefreshed
  | failing error =>
      simp only
      split
      · exact .inl rfl
      · exact .inl rfl
  | backingOff error failures =>
      simp only
      cases hrecord : recordPublicationFailure P run.endpoint errorText
          (now + publicationDelay failures) now tables db with
      | error failure => exact .inl rfl
      | ok result =>
          exact recordPublicationFailure_refreshed run.endpoint errorText _ now tables db
            result hrecord
  | _ => exact .inl rfl

theorem Publisher.settle_refreshed {publisher : Publisher}
    {result : Result (PublicationTables × Db)}
    (h : Ensures result fun stored => publisher.node.db.Refreshed P stored.2) :
    publisher.node.db.Refreshed P (publisher.settle result).node.db := by
  cases result with
  | error error => exact .inl rfl
  | ok stored => exact h stored rfl

/-- A step of a publisher is one of its node, or a statement about its relays. -/
theorem Publisher.step_db (publisher : Publisher) (identity : NodeIdentity P)
    (action : PublicationAction) :
    (∃ own, (publisher.step P identity action).node.db =
        (publisher.node.step P identity own).db) ∨
      publisher.node.db.Refreshed P (publisher.step P identity action).node.db := by
  cases action with
  | node own => exact .inl ⟨own, rfl⟩
  | configure endpoint now =>
      exact .inr (settle_refreshed (configurePublicationTarget_refreshed endpoint now _ _))
  | setDesiredReplicas desiredReplicas now =>
      exact .inr (settle_refreshed (setDesiredReplicas_refreshed desiredReplicas now _ _))
  | publish endpoint batchSize maxPages now =>
      refine .inr ?_
      unfold Publisher.step
      simp only
      split
      · exact settle_refreshed (configurePublicationTarget_refreshed endpoint now _ _)
      · exact .inl rfl
  | proceed index now answer errorText =>
      refine .inr ?_
      unfold Publisher.step
      simp only
      cases publisher.runs[index]? with
      | none => exact .inl rfl
      | some run => exact run.proceed_refreshed now answer errorText _ _

/-! ## The database over a run -/

/-- A later database of the same node. -/
structure Db.Grows (P : Primitives) (own : String) (first second : Db) : Prop where
  nodeId : second.nodeId = first.nodeId
  head : first.head ≤ second.head
  work : first.work.Changes P own second.work

/-- A database whose table of work items is in order. -/
structure Db.KeepsWork (P : Primitives) (identity : NodeIdentity P) (db : Db) : Prop where
  nodeId : db.nodeId = some identity.nodeId
  head : 0 ≤ db.head
  work : db.work.Sound P

theorem Db.Grows.refl (db : Db) : db.Grows P own db := ⟨rfl, le_refl _, .refl _⟩

theorem Db.Grows.trans {first second third : Db} (h : first.Grows P own second)
    (h' : second.Grows P own third) : first.Grows P own third :=
  ⟨h'.nodeId.trans h.nodeId, h.head.trans h'.head, h.work.trans h'.work⟩

theorem Db.KeepsWork.grows {next : Db} (h : db.KeepsWork P identity)
    (hgrows : db.Grows P own next) : next.KeepsWork P identity :=
  ⟨hgrows.nodeId.trans h.nodeId, h.head.trans hgrows.head, hgrows.work.sound h.work⟩

theorem refreshReplicationWork_grows (now : ℤ) (tables : PublicationTables)
    (h : db.KeepsWork P identity) :
    db.Grows P (originWorkId P identity) (refreshReplicationWork P now tables db) :=
  ⟨refreshReplicationWork_nodeId now tables db, (refreshReplicationWork_head now tables db).ge,
    refreshReplicationWork_changes now tables h.nodeId h.head⟩

theorem Publisher.step_grows (publisher : Publisher) (action : PublicationAction)
    (h : publisher.node.db.KeepsWork P identity) :
    publisher.node.db.Grows P (originWorkId P identity)
      (publisher.step P identity action).node.db := by
  rcases publisher.step_db identity action with ⟨own, hown⟩ | hsame |
    ⟨now, tables, hrefresh⟩
  · rw [hown]
    have hhead := publisher.node.step_head identity own
    exact ⟨hhead.1, hhead.2, publisher.node.step_work own h.head⟩
  · rw [hsame]
    exact .refl _
  · rw [hrefresh]
    exact refreshReplicationWork_grows now tables h

theorem Db.init_keepsWork (identity : NodeIdentity P) :
    (Db.init P identity.nodeId).KeepsWork P identity := by
  have hempty : (⟨[], [], []⟩ : WorkTables).Sound P :=
    ⟨List.nodup_nil, fun _ hrow => absurd hrow List.not_mem_nil⟩
  have hseed : WorkTables.Changes P (originWorkId P identity) _ _ :=
    seedBootstrapWork_changes ⟨[], [], []⟩
  exact ⟨rfl, le_refl _, hseed.sound hempty⟩

end

end Commonwake
