import Commonwake.Publication
import Commonwake.Lifetime
import Commonwake.Counting

/-!
# The publication state is sound

Whatever the relays answer and however runs, calls and new targets come in
between, a target names an entry of the log, its receipt is the one for this
entry and for its relay, and the entry never moves back.
-/

namespace Commonwake

open Outcome Table Counting

section

variable (P : Primitives) (identity : NodeIdentity P)

/-- The receipt which the row names. -/
structure PublicationTarget.Holds (row : PublicationTarget) (receipt : ReplicationReceipt) :
    Prop where
  verified : verifyReplicationReceipt P receipt = .ok ()
  origin : receipt.originCheckpoint.nodeId = identity.nodeId ∧
    receipt.originCheckpoint.nodePublicKey = identity.publicKey
  relay : row.relayNodeId = some receipt.relayNodeId ∧
    row.relayNodePublicKey = some receipt.relayNodePublicKey
  cursor : row.acknowledgedCursor = receipt.originCheckpoint.cursor
  eventHash : row.acknowledgedEventHash = receipt.originCheckpoint.eventHash

/-- The row names an entry of the log, and a stored receipt is the one for it. -/
structure PublicationTarget.Sound (db : Db) (row : PublicationTarget) : Prop where
  onChain : db.eventHashAt row.acknowledgedCursor = .ok row.acknowledgedEventHash
  receipt : ∀ text, row.receiptJson = some text →
    ∃ receipt, (P.parse text).bind (ReplicationReceipt.ofJson P) = some receipt ∧
      row.Holds P identity receipt

/-- The later row of a target is no older and of the same relay. -/
structure PublicationTarget.Precedes (row later : PublicationTarget) : Prop where
  endpoint : later.endpoint = row.endpoint
  cursor : row.acknowledgedCursor ≤ later.acknowledgedCursor
  relay : ∀ relayNodeId, row.relayNodeId = some relayNodeId →
    later.relayNodeId = some relayNodeId
  relayKey : ∀ publicKey, row.relayNodePublicKey = some publicKey →
    later.relayNodePublicKey = some publicKey

/-- What a statement does to the targets. -/
inductive TargetsChange (db : Db) (tables : PublicationTables) : PublicationTables → Prop
  | kept (next : PublicationTables) (hkept : next.targets = tables.targets) :
      TargetsChange db tables next
  | configured (next : PublicationTables) (endpoint : String) (now : ℤ)
      (hinsert : next.targets = insertOrIgnore (fun stored => stored.endpoint == endpoint)
        (PublicationTarget.new P endpoint now) tables.targets) :
      TargetsChange db tables next
  | confirmed (next : PublicationTables) (endpoint : String) (receipt : ReplicationReceipt)
      (now : ℤ) (stored : PublicationTarget)
      (hverified : verifyReplicationReceipt P receipt = .ok ())
      (hrange : IsI64 receipt.originCheckpoint.cursor)
      (horigin : receipt.originCheckpoint.nodeId = identity.nodeId ∧
        receipt.originCheckpoint.nodePublicKey = identity.publicKey)
      (honChain : db.localEventHash? receipt.originCheckpoint.cursor =
        some receipt.originCheckpoint.eventHash)
      (hstored : tables.target? endpoint = some stored)
      (hrelay : ∀ relayNodeId, stored.relayNodeId = some relayNodeId →
        relayNodeId = receipt.relayNodeId)
      (hkey : ∀ publicKey, stored.relayNodePublicKey = some publicKey →
        publicKey = receipt.relayNodePublicKey)
      (hcursor : stored.acknowledgedCursor ≤ receipt.originCheckpoint.cursor)
      (hupdate : next.targets = updateWhere (fun row => row.endpoint == endpoint)
        (PublicationTarget.confirm P receipt now) tables.targets) :
      TargetsChange db tables next
  | failed (next : PublicationTables) (endpoint error : String) (nextAttemptAt now : ℤ)
      (hupdate : next.targets = updateWhere (fun row => row.endpoint == endpoint)
        (PublicationTarget.fail P error nextAttemptAt now) tables.targets) :
      TargetsChange db tables next

end

section

variable {P : Primitives} {identity : NodeIdentity P} {db nextDb : Db}
  {tables next : PublicationTables} {row later : PublicationTarget}
  {receipt : ReplicationReceipt}

/-! ## Receipts on the wire -/

/-- A stored receipt is read back. -/
theorem ReplicationReceipt.ofJson_toJson {x : ReplicationReceipt}
    (h : IsI64 x.originCheckpoint.cursor) :
    ReplicationReceipt.ofJson P (x.toJson P) = some x := by
  simp only [ReplicationReceipt.toJson, ReplicationReceipt.ofJson]
  rw [show Serde.fields _ _ = some _ from rfl]
  simp only [Serde.required, List.lookup_cons, String.reduceBEq, Option.bind_eq_bind,
    Option.bind_some, dateTimeOfJson_dateTime, Serde.string_string,
    Checkpoint.ofJson_toJson h, Option.pure_def]

theorem ReplicationReceipt.isI64_of_ofJson {value : Json} {x : ReplicationReceipt}
    (h : ReplicationReceipt.ofJson P value = some x) : IsI64 x.originCheckpoint.cursor := by
  simp only [ReplicationReceipt.ofJson, Option.bind_eq_bind, Option.bind_eq_some_iff,
    Option.pure_def, Option.some.injEq] at h
  obtain ⟨m, -, protocol, -, relay, -, key, -, checkpoint, hcheckpoint, retainedAt, -,
    signature, -, rfl⟩ := h
  obtain ⟨value, hvalue⟩ := required_eq_some hcheckpoint
  exact Checkpoint.isI64_of_ofJson hvalue

theorem isI64_of_readAnswer {answer : Option String} {report : FederationPublishReport}
    (h : readAnswer P answer = .ok report) : IsI64 report.receipt.originCheckpoint.cursor := by
  simp only [readAnswer, okOr_eq_ok, Option.bind_eq_bind, Option.bind_eq_some_iff,
    FederationPublishReport.ofJson, Option.pure_def, Option.some.injEq] at h
  obtain ⟨text, -, value, -, m, -, imported, -, receipt, hreceipt, rfl⟩ := h
  obtain ⟨value, hvalue⟩ := required_eq_some hreceipt
  exact ReplicationReceipt.isI64_of_ofJson hvalue

/-! ## The log only grows -/

theorem Db.eventHashAt_of_events (h : nextDb.events = db.events) (cursor : ℤ) :
    nextDb.eventHashAt cursor = db.eventHashAt cursor := by
  unfold Db.eventHashAt
  rw [h]

theorem Db.eventHashAt_append {event : EventRow} (h : nextDb.events = db.events ++ [event])
    {cursor : ℤ} {eventHash : String} (hhash : db.eventHashAt cursor = .ok eventHash) :
    nextDb.eventHashAt cursor = .ok eventHash := by
  unfold Db.eventHashAt at hhash ⊢
  rw [h, List.find?_append]
  simp only [bind_eq_ok] at hhash ⊢
  obtain ⟨⟨⟩, hcursor, hhash⟩ := hhash
  refine ⟨(), hcursor, ?_⟩
  by_cases hzero : cursor = 0
  · rw [if_pos hzero] at hhash ⊢
    exact hhash
  · rw [if_neg hzero] at hhash ⊢
    simp only [bind_eq_ok, okOr_eq_ok] at hhash ⊢
    obtain ⟨found, hfound, hhash⟩ := hhash
    refine ⟨found, ?_, hhash⟩
    rw [hfound]
    rfl

theorem Db.eventHashAt_of_localEventHash? {cursor : ℤ} {eventHash : String}
    (hcursor : 0 ≤ cursor) (h : db.localEventHash? cursor = some eventHash) :
    db.eventHashAt cursor = .ok eventHash := by
  unfold Db.localEventHash? at h
  unfold Db.eventHashAt
  simp only [bind_eq_ok, rejectIf_eq_ok]
  refine ⟨(), not_lt.mpr hcursor, ?_⟩
  by_cases hzero : cursor = 0
  · rw [if_pos hzero] at h ⊢
    rw [Option.some.inj h]
    rfl
  · rw [if_neg hzero] at h ⊢
    obtain ⟨found, hfound, rfl⟩ := Option.map_eq_some_iff.mp h
    rw [hfound]
    rfl

/-- A step of the node keeps every entry of its log. -/
theorem NodeState.step_eventHashAt (node : NodeState) (action : Action) {cursor : ℤ}
    {eventHash : String} (h : node.db.eventHashAt cursor = .ok eventHash) :
    (node.step P identity action).db.eventHashAt cursor = .ok eventHash := by
  rcases node.step_synchronizes identity action with hown |
    ⟨bundle, observedAt, now, appendedAt, report, key, head, opened, loop, fresh, state, -,
      hresult⟩
  · rcases hown.events with hsame | ⟨input, receivedAt, event, accepted, logged, -, -, hevents⟩
    · rw [Db.eventHashAt_of_events hsame]
      exact h
    · exact Db.eventHashAt_append hevents h
  · rcases hresult.events with hsame | ⟨base, event, accepted, logged, -, -, hevents⟩
    · rw [Db.eventHashAt_of_events hsame]
      exact h
    · exact Db.eventHashAt_append hevents h

/-- The work item has nothing to do with the log. -/
theorem refreshReplicationWork_events (now : ℤ) (tables : PublicationTables) (db : Db) :
    (refreshReplicationWork P now tables db).events = db.events := by
  unfold refreshReplicationWork
  cases db.nodeId with
  | none => rfl
  | some nodeId => rfl

/-! ## The statements -/

theorem configurePublicationTarget_change {endpoint : String} {now : ℤ}
    (h : configurePublicationTarget P endpoint now tables db = .ok (next, nextDb)) :
    TargetsChange P identity db tables next ∧ nextDb.events = db.events := by
  simp only [configurePublicationTarget, bind_eq_ok, rejectIf_eq_ok, pure_eq_ok,
    Except.ok.injEq, Prod.mk.injEq] at h
  obtain ⟨-, -, rfl, rfl⟩ := h
  exact ⟨.configured _ endpoint now rfl, refreshReplicationWork_events _ _ _⟩

theorem setDesiredReplicas_change {desiredReplicas : ℕ} {now : ℤ}
    (h : setDesiredReplicas P desiredReplicas now tables db = .ok (next, nextDb)) :
    TargetsChange P identity db tables next ∧ nextDb.events = db.events := by
  simp only [setDesiredReplicas, bind_eq_ok, rejectIf_eq_ok, pure_eq_ok, Except.ok.injEq,
    Prod.mk.injEq] at h
  obtain ⟨-, -, rfl, rfl⟩ := h
  exact ⟨.kept _ rfl, refreshReplicationWork_events _ _ _⟩

theorem presentAnd_bne {value : Option String} {expected : String}
    (h : ¬presentAnd (fun known => known != expected) value = true) :
    ∀ known, value = some known → known = expected := by
  rintro known rfl
  by_contra hne
  exact h (bne_iff_ne.mpr hne)

theorem recordPublicationSuccess_change {endpoint : String} {now : ℤ}
    (hrange : IsI64 receipt.originCheckpoint.cursor)
    (h : recordPublicationSuccess P identity endpoint receipt now tables db =
      .ok (next, nextDb)) :
    TargetsChange P identity db tables next ∧ nextDb.events = db.events := by
  simp only [recordPublicationSuccess, bind_eq_ok, rejectIf_eq_ok, okOr_eq_ok, pure_eq_ok,
    Except.ok.injEq, Prod.mk.injEq, not_or, not_not, not_lt] at h
  obtain ⟨⟨⟩, hverified, -, horigin, -, honChain, stored, hstored, -, ⟨hrelay, hkey⟩, -,
    ⟨hcursor, -⟩, rfl, rfl⟩ := h
  exact ⟨.confirmed _ endpoint receipt now stored hverified hrange horigin honChain hstored
    (presentAnd_bne hrelay) (presentAnd_bne hkey) hcursor rfl,
    refreshReplicationWork_events _ _ _⟩

theorem recordPublicationFailure_change {endpoint error : String} {nextAttemptAt now : ℤ}
    (h : recordPublicationFailure P endpoint error nextAttemptAt now tables db =
      .ok (next, nextDb)) :
    TargetsChange P identity db tables next ∧ nextDb.events = db.events := by
  simp only [recordPublicationFailure, bind_eq_ok, rejectIf_eq_ok, pure_eq_ok,
    Except.ok.injEq, Prod.mk.injEq] at h
  obtain ⟨-, -, rfl, rfl⟩ := h
  exact ⟨.failed _ endpoint _ nextAttemptAt now rfl, refreshReplicationWork_events _ _ _⟩

theorem verifyReplicationReceipt_nonneg (h : verifyReplicationReceipt P receipt = .ok ()) :
    0 ≤ receipt.originCheckpoint.cursor := by
  simp only [verifyReplicationReceipt, bind_eq_ok, rejectIf_eq_ok, not_lt] at h
  obtain ⟨-, -, -, -, -, hcursor, -⟩ := h
  exact hcursor

theorem PublicationTarget.Sound.of_same (h : row.Sound P identity db)
    (hcursor : later.acknowledgedCursor = row.acknowledgedCursor)
    (hhash : later.acknowledgedEventHash = row.acknowledgedEventHash)
    (hreceipt : later.receiptJson = row.receiptJson)
    (hrelay : later.relayNodeId = row.relayNodeId)
    (hkey : later.relayNodePublicKey = row.relayNodePublicKey) :
    later.Sound P identity db := by
  constructor
  · rw [hcursor, hhash]
    exact h.onChain
  · intro text htext
    rw [hreceipt] at htext
    obtain ⟨receipt, hread, hholds⟩ := h.receipt text htext
    refine ⟨receipt, hread, hholds.verified, hholds.origin, ?_, ?_, ?_⟩
    · rw [hrelay, hkey]
      exact hholds.relay
    · rw [hcursor]
      exact hholds.cursor
    · rw [hhash]
      exact hholds.eventHash

/-- Every row which a statement leaves is sound. -/
theorem TargetsChange.sound (h : TargetsChange P identity db tables next)
    (hsound : ∀ row ∈ tables.targets, row.Sound P identity db) :
    ∀ row ∈ next.targets, row.Sound P identity db := by
  intro row hrow
  cases h with
  | kept hkept =>
      rw [hkept] at hrow
      exact hsound row hrow
  | configured endpoint now hinsert =>
      rw [hinsert] at hrow
      rcases mem_insertOrIgnore hrow with hold | rfl
      · exact hsound row hold
      · refine ⟨rfl, ?_⟩
        intro text htext
        cases htext
  | confirmed endpoint receipt now stored hverified hrange horigin honChain hstored hrelay
      hkey hcursor hupdate =>
      rw [hupdate] at hrow
      obtain ⟨old, hold, rfl⟩ := mem_updateWhere.mp hrow
      split
      · refine ⟨Db.eventHashAt_of_localEventHash?
          (verifyReplicationReceipt_nonneg hverified) honChain, ?_⟩
        intro text htext
        have htoText : P.toText (receipt.toJson P) = text := Option.some.inj htext
        refine ⟨receipt, ?_, hverified, horigin, ⟨rfl, rfl⟩, rfl, rfl⟩
        rw [← htoText, P.parse_toText, Option.bind_some,
          ReplicationReceipt.ofJson_toJson hrange]
      · exact hsound old hold
  | failed endpoint error nextAttemptAt now hupdate =>
      rw [hupdate] at hrow
      obtain ⟨old, hold, rfl⟩ := mem_updateWhere.mp hrow
      split
      · exact (hsound old hold).of_same rfl rfl rfl rfl rfl
      · exact hsound old hold

theorem PublicationTarget.Precedes.refl (row : PublicationTarget) : row.Precedes row :=
  ⟨rfl, le_refl _, fun _ h => h, fun _ h => h⟩

theorem PublicationTarget.Precedes.trans {last : PublicationTarget} (h : row.Precedes later)
    (hlast : later.Precedes last) : row.Precedes last :=
  ⟨hlast.endpoint.trans h.endpoint, h.cursor.trans hlast.cursor,
    fun _ hrelay => hlast.relay _ (h.relay _ hrelay),
    fun _ hkey => hlast.relayKey _ (h.relayKey _ hkey)⟩

/-- Every target stays, and no statement moves it back or to another relay. -/
theorem TargetsChange.precedes (h : TargetsChange P identity db tables next)
    (hdistinct : (tables.targets.map PublicationTarget.endpoint).Nodup)
    (hrow : row ∈ tables.targets) : ∃ later ∈ next.targets, row.Precedes later := by
  cases h with
  | kept hkept =>
      rw [hkept]
      exact ⟨row, hrow, .refl row⟩
  | configured endpoint now hinsert =>
      rw [hinsert]
      exact ⟨row, subset_insertOrIgnore _ _ _ hrow, .refl row⟩
  | confirmed endpoint receipt now stored hverified hrange horigin honChain hstored hrelay
      hkey hcursor hupdate =>
      rw [hupdate]
      refine ⟨_, mem_updateWhere.mpr ⟨row, hrow, rfl⟩, ?_⟩
      by_cases hendpoint : row.endpoint = endpoint
      · -- The row is the one which was compared with the receipt.
        have hname : stored.endpoint = endpoint := by
          simpa using List.find?_some hstored
        have hsame : row = stored := List.inj_on_of_nodup_map hdistinct hrow
          (List.mem_of_find?_eq_some hstored) (hendpoint.trans hname.symm)
        rw [if_pos (beq_iff_eq.mpr hendpoint), hsame]
        refine ⟨rfl, hcursor, ?_, ?_⟩
        · intro relayNodeId hknown
          rw [hrelay relayNodeId hknown]
          rfl
        · intro publicKey hknown
          rw [hkey publicKey hknown]
          rfl
      · rw [if_neg (by simpa using hendpoint)]
        exact .refl row
  | failed endpoint error nextAttemptAt now hupdate =>
      rw [hupdate]
      refine ⟨_, mem_updateWhere.mpr ⟨row, hrow, rfl⟩, ?_⟩
      split
      · exact ⟨rfl, le_refl _, fun _ hrelay => hrelay, fun _ hkey => hkey⟩
      · exact .refl row

theorem TargetsChange.distinct (h : TargetsChange P identity db tables next)
    (hdistinct : (tables.targets.map PublicationTarget.endpoint).Nodup) :
    (next.targets.map PublicationTarget.endpoint).Nodup := by
  cases h with
  | kept hkept =>
      rw [hkept]
      exact hdistinct
  | configured endpoint now hinsert =>
      rw [hinsert]
      unfold insertOrIgnore
      by_cases hany : (tables.targets.any fun stored => stored.endpoint == endpoint) = true
      · rw [if_pos hany]
        exact hdistinct
      · rw [if_neg hany, List.map_append, List.nodup_append]
        refine ⟨hdistinct, List.nodup_singleton _, ?_⟩
        intro name hname other hother
        obtain ⟨stored, hstored, rfl⟩ := List.mem_map.mp hname
        rw [List.mem_singleton.mp hother]
        intro hendpoint
        exact hany (List.any_eq_true.mpr ⟨stored, hstored, beq_iff_eq.mpr hendpoint⟩)
  | confirmed endpoint receipt now stored hverified hrange horigin honChain hstored hrelay
      hkey hcursor hupdate =>
      rw [hupdate, map_updateWhere]
      · exact hdistinct
      · intro old _
        rfl
  | failed endpoint error nextAttemptAt now hupdate =>
      rw [hupdate, map_updateWhere]
      · exact hdistinct
      · intro old _
        rfl

/-! ## The machine -/

section

variable (P identity)

/-- The state of a node which publishes. -/
structure Publisher.Sound (publisher : Publisher) : Prop where
  targets : ∀ row ∈ publisher.tables.targets, row.Sound P identity publisher.node.db
  distinct : (publisher.tables.targets.map PublicationTarget.endpoint).Nodup
  receipts : ∀ run ∈ publisher.runs, ∀ progress bundle receipt,
    run.phase = .recording progress bundle receipt → IsI64 receipt.originCheckpoint.cursor

/-- A step changes the targets by one statement, or the log of the node. -/
inductive PublisherStep (publisher next : Publisher) : Prop
  | statement (hchange : TargetsChange P identity publisher.node.db publisher.tables
        next.tables) (hevents : next.node.db.events = publisher.node.db.events)
  | node (action : Action) (htables : next.tables = publisher.tables)
      (hnode : next.node = publisher.node.step P identity action)

end

variable {run : PublishRun} {now : ℤ} {answer : Option String} {errorText : String}

theorem PublishPhase.ofResult_eq_recording {result : Result PublishPhase}
    {progress : PublishProgress} {bundle : FederationBundle} :
    PublishPhase.ofResult result = .recording progress bundle receipt ↔
      result = .ok (.recording progress bundle receipt) := by
  cases result with
  | ok phase => simp [PublishPhase.ofResult]
  | error error => simp [PublishPhase.ofResult]

/-- A critical section of a run is at most one statement. -/
theorem PublishRun.proceed_change
    (hrun : ∀ progress bundle receipt, run.phase = .recording progress bundle receipt →
      IsI64 receipt.originCheckpoint.cursor) :
    TargetsChange P identity db tables
        (run.proceed P identity now answer errorText tables db).2.1 ∧
      (run.proceed P identity now answer errorText tables db).2.2.events = db.events := by
  have hkept : TargetsChange P identity db tables tables ∧ db.events = db.events :=
    ⟨.kept _ rfl, rfl⟩
  unfold PublishRun.proceed
  cases hphase : run.phase with
  | recording progress bundle receipt =>
      simp only
      cases hrecord : recordPublicationSuccess P identity run.endpoint receipt now tables db with
      | error error => exact hkept
      | ok result =>
          have hchange := recordPublicationSuccess_change (hrun _ _ _ hphase) hrecord
          simp only
          split
          · exact hchange
          · exact hchange
  | failing error =>
      simp only
      cases replicationHealth P identity now tables db with
      | error failure => exact hkept
      | ok health => exact hkept
  | backingOff error failures =>
      simp only
      cases hrecord : recordPublicationFailure P run.endpoint errorText
          (now + publicationDelay failures) now tables db with
      | error failure => exact hkept
      | ok result => exact recordPublicationFailure_change hrecord
  | _ => exact hkept

/-- A receipt which a run is about to record was read from an answer. -/
theorem PublishRun.proceed_recording {progress : PublishProgress} {bundle : FederationBundle}
    (h : (run.proceed P identity now answer errorText tables db).1 =
      .recording progress bundle receipt) : IsI64 receipt.originCheckpoint.cursor := by
  unfold PublishRun.proceed at h
  cases hphase : run.phase with
  | sending before page =>
      simp only [hphase, PublishPhase.ofResult_eq_recording, bind_eq_ok, pure_eq_ok,
        Except.ok.injEq, PublishPhase.recording.injEq] at h
      obtain ⟨report, hreport, -, -, -, -, rfl⟩ := h
      exact isI64_of_readAnswer hreport
  | recording before page known =>
      simp only [hphase] at h
      split at h
      · cases h
      · split at h
        · cases h
        · cases h
  | failing error =>
      simp only [hphase] at h
      split at h <;> cases h
  | backingOff error failures =>
      simp only [hphase] at h
      split at h <;> cases h
  | done result =>
      simp only [hphase] at h
      cases h
  | _ =>
      simp only [hphase, PublishPhase.ofResult_eq_recording, bind_eq_ok, pure_eq_ok,
        Except.ok.injEq, reduceCtorEq, and_false, exists_false] at h

theorem Publisher.settle_step {publisher : Publisher}
    {result : Result (PublicationTables × Db)}
    (h : ∀ next nextDb, result = .ok (next, nextDb) →
      TargetsChange P identity publisher.node.db publisher.tables next ∧
        nextDb.events = publisher.node.db.events) :
    PublisherStep P identity publisher (publisher.settle result) := by
  cases result with
  | error error => exact .statement (.kept _ rfl) rfl
  | ok result =>
      obtain ⟨hchange, hevents⟩ := h result.1 result.2 rfl
      exact .statement hchange hevents

theorem Publisher.step_cases {publisher : Publisher} (h : publisher.Sound P identity)
    (action : PublicationAction) :
    PublisherStep P identity publisher (publisher.step P identity action) := by
  cases action with
  | node action => exact .node action rfl rfl
  | configure endpoint now =>
      exact Publisher.settle_step fun _ _ => configurePublicationTarget_change
  | setDesiredReplicas desiredReplicas now =>
      exact Publisher.settle_step fun _ _ => setDesiredReplicas_change
  | publish endpoint batchSize maxPages now =>
      simp only [Publisher.step]
      split
      · have hsettled : PublisherStep P identity publisher (publisher.settle
            (configurePublicationTarget P endpoint now publisher.tables publisher.node.db)) :=
          Publisher.settle_step fun _ _ => configurePublicationTarget_change
        cases hsettled with
        | statement hchange hevents => exact .statement hchange hevents
        | node action htables hnode => exact .node action htables hnode
      · exact .statement (.kept _ rfl) rfl
  | proceed index now answer errorText =>
      simp only [Publisher.step]
      cases hrun : publisher.runs[index]? with
      | none => exact .statement (.kept _ rfl) rfl
      | some run =>
          have hreceipts := h.receipts run (List.mem_of_getElem? hrun)
          exact .statement (PublishRun.proceed_change hreceipts).1
            (PublishRun.proceed_change hreceipts).2

/-- No run is ever about to record a receipt which the wire cannot carry. -/
theorem Publisher.step_receipts {publisher : Publisher} (h : publisher.Sound P identity)
    (action : PublicationAction) :
    ∀ run ∈ (publisher.step P identity action).runs, ∀ progress bundle receipt,
      run.phase = .recording progress bundle receipt →
        IsI64 receipt.originCheckpoint.cursor := by
  intro run hrun progress bundle receipt hphase
  cases action with
  | node action => exact h.receipts run hrun _ _ _ hphase
  | configure endpoint now =>
      simp only [Publisher.step, Publisher.settle] at hrun
      split at hrun <;> exact h.receipts run hrun _ _ _ hphase
  | setDesiredReplicas desiredReplicas now =>
      simp only [Publisher.step, Publisher.settle] at hrun
      split at hrun <;> exact h.receipts run hrun _ _ _ hphase
  | publish endpoint batchSize maxPages now =>
      simp only [Publisher.step] at hrun
      split at hrun
      · rcases List.mem_append.mp hrun with hold | hnew
        · exact h.receipts run hold _ _ _ hphase
        · rw [List.mem_singleton.mp hnew] at hphase
          cases hphase
      · exact h.receipts run hrun _ _ _ hphase
  | proceed index now answer errorText =>
      simp only [Publisher.step] at hrun
      cases hcurrent : publisher.runs[index]? with
      | none =>
          rw [hcurrent] at hrun
          exact h.receipts run hrun _ _ _ hphase
      | some current =>
          rw [hcurrent] at hrun
          rcases List.mem_or_eq_of_mem_set hrun with hold | rfl
          · exact h.receipts run hold _ _ _ hphase
          · exact PublishRun.proceed_recording hphase

theorem Publisher.Sound.init : (Publisher.init P identity).Sound P identity := by
  refine ⟨?_, List.nodup_nil, ?_⟩
  · intro row hrow
    cases hrow
  · intro run hrun
    cases hrun

theorem PublicationTarget.Sound.grow (h : row.Sound P identity db)
    (hgrow : ∀ cursor eventHash, db.eventHashAt cursor = .ok eventHash →
      nextDb.eventHashAt cursor = .ok eventHash) : row.Sound P identity nextDb :=
  ⟨hgrow _ _ h.onChain, h.receipt⟩

theorem Publisher.Sound.step {publisher : Publisher} (h : publisher.Sound P identity)
    (action : PublicationAction) : (publisher.step P identity action).Sound P identity := by
  have hreceipts := Publisher.step_receipts h action
  cases Publisher.step_cases h action with
  | statement hchange hevents =>
      refine ⟨?_, hchange.distinct h.distinct, hreceipts⟩
      intro row hrow
      refine (hchange.sound h.targets row hrow).grow ?_
      intro cursor eventHash hhash
      rw [Db.eventHashAt_of_events hevents]
      exact hhash
  | node action htables hnode =>
      refine ⟨?_, ?_, hreceipts⟩
      · intro row hrow
        rw [htables] at hrow
        rw [hnode]
        exact (h.targets row hrow).grow fun _ _ => publisher.node.step_eventHashAt action
      · rw [htables]
        exact h.distinct

theorem Publisher.Sound.step_precedes {publisher : Publisher} (h : publisher.Sound P identity)
    (action : PublicationAction) (hrow : row ∈ publisher.tables.targets) :
    ∃ later ∈ (publisher.step P identity action).tables.targets, row.Precedes later := by
  cases Publisher.step_cases h action with
  | statement hchange hevents => exact hchange.precedes h.distinct hrow
  | node action htables hnode =>
      rw [htables]
      exact ⟨row, hrow, .refl row⟩

@[simp] theorem Publisher.run_append_singleton (actions : List PublicationAction)
    (action : PublicationAction) :
    Publisher.run P identity (actions ++ [action]) =
      Publisher.step P identity (Publisher.run P identity actions) action := by
  simp [Publisher.run]

theorem Publisher.run_sound (actions : List PublicationAction) :
    (Publisher.run P identity actions).Sound P identity := by
  induction actions using List.reverseRecOn with
  | nil => exact .init
  | append_singleton actions action ih =>
      rw [Publisher.run_append_singleton]
      exact ih.step action

/-- No target is ever moved back or to another relay. -/
theorem Publisher.run_precedes (actions rest : List PublicationAction)
    (hrow : row ∈ (Publisher.run P identity actions).tables.targets) :
    ∃ later ∈ (Publisher.run P identity (actions ++ rest)).tables.targets,
      row.Precedes later := by
  induction rest using List.reverseRecOn with
  | nil =>
      rw [List.append_nil]
      exact ⟨row, hrow, .refl row⟩
  | append_singleton rest action ih =>
      obtain ⟨middle, hmiddle, hbefore⟩ := ih
      rw [← List.append_assoc, Publisher.run_append_singleton]
      obtain ⟨later, hlater, hafter⟩ :=
        (Publisher.run_sound (actions ++ rest)).step_precedes action hmiddle
      exact ⟨later, hlater, hbefore.trans hafter⟩

/-! ## Health -/

theorem receiptMismatch_head (endpoint : String) {message : String}
    (h : receiptMismatch endpoint = .internal message) :
    (utf8 message).take 8 = utf8 "stored r" := by
  rw [← CommonwakeError.internal.inj h]
  rw [utf8_append, utf8_append, List.append_assoc, List.take_append_of_le_length (by decide)]
  decide

theorem optionalTimestamp_ne_mismatch {value : Option String} (endpoint : String) :
    optionalTimestamp P value ≠ .error (receiptMismatch endpoint) := by
  intro h
  cases value with
  | none => cases h
  | some text =>
      simp only [optionalTimestamp, bind_eq_error] at h
      rcases h with h | ⟨instant, -, hpure⟩
      · simp only [Primitives.parseTimestamp] at h
        cases hparse : P.parseRfc3339 text with
        | some instant =>
            rw [hparse] at h
            cases h
        | none =>
            rw [hparse] at h
            have hhead := receiptMismatch_head endpoint (Except.error.inj h).symm
            rw [utf8_append, List.take_append_of_le_length (by decide)] at hhead
            exact absurd hhead (by decide)
      · cases hpure

/-- What a sound row stores. -/
theorem PublicationTarget.Sound.storedReceipt (h : row.Sound P identity db) :
    storedReceipt P row = .ok none ∨
      ∃ receipt, storedReceipt P row = .ok (some receipt) ∧ row.Holds P identity receipt := by
  unfold Commonwake.storedReceipt
  cases htext : row.receiptJson with
  | none => exact .inl rfl
  | some text =>
      obtain ⟨receipt, hread, hholds⟩ := h.receipt text htext
      refine .inr ⟨receipt, ?_, hholds⟩
      simp only [hread, okOr_some, ok_bind]
      rfl

theorem PublicationTarget.Holds.check (h : row.Holds P identity receipt) :
    checkStoredReceipt P identity row receipt = .ok () := by
  unfold checkStoredReceipt
  rw [h.verified, ok_bind, rejectIf_eq_ok]
  simp only [h.origin.1, h.origin.2, h.relay.1, h.relay.2, h.cursor, h.eventHash, ne_eq,
    not_true_eq_false, or_self, not_false_eq_true]

theorem PublicationTarget.Sound.view (h : row.Sound P identity db) (recentAfter : ℤ) :
    ∃ receipt, Commonwake.storedReceipt P row = .ok receipt ∧
      (∀ known, receipt = some known → row.Holds P identity known) ∧
      publicationTargetView P identity recentAfter db row =
        storedTargetView P recentAfter db row receipt := by
  rcases h.storedReceipt with hnone | ⟨receipt, hstored, hholds⟩
  · refine ⟨none, hnone, ?_, ?_⟩
    · intro known hknown
      cases hknown
    · unfold publicationTargetView
      rw [hnone]
      rfl
  · refine ⟨some receipt, hstored, ?_, ?_⟩
    · intro known hknown
      rw [← Option.some.inj hknown]
      exact hholds
    · unfold publicationTargetView
      rw [hstored, ok_bind]
      simp only [hholds.check]
      rfl

theorem storedTargetView_ne_mismatch {recentAfter : ℤ} {stored : Option ReplicationReceipt}
    (endpoint : String) :
    storedTargetView P recentAfter db row stored ≠ .error (receiptMismatch endpoint) := by
  intro h
  simp only [storedTargetView, bind_eq_error] at h
  rcases h with h | ⟨_, -, h | ⟨_, -, h | ⟨_, -, h | ⟨_, -, h⟩⟩⟩⟩
  · exact optionalTimestamp_ne_mismatch endpoint h
  · exact optionalTimestamp_ne_mismatch endpoint h
  · exact optionalTimestamp_ne_mismatch endpoint h
  · unfold rejectIf at h
    split at h
    · have hhead := receiptMismatch_head endpoint (Except.error.inj h).symm
      exact absurd hhead (by decide)
    · cases h
  · cases h

/-- The health of sound targets is never refused for a receipt. -/
theorem replicationHealth_ne_mismatch (h : ∀ row ∈ tables.targets, row.Sound P identity db)
    (now : ℤ) (endpoint : String) :
    replicationHealth P identity now tables db ≠ .error (receiptMismatch endpoint) := by
  intro herror
  simp only [replicationHealth, bind_eq_error] at herror
  rcases herror with htraverse | ⟨targets, -, hpure⟩
  · obtain ⟨row, hrow, hview⟩ := traverse_eq_error htraverse
    obtain ⟨receipt, -, -, hof⟩ :=
      (h row (List.mem_mergeSort.mp hrow)).view (now - recentConfirmationHours * minutes 60)
    rw [hof] at hview
    exact storedTargetView_ne_mismatch endpoint hview
  · cases hpure

/-- The relays with a stored receipt for the current head. -/
def currentRelays (P : Primitives) (tables : PublicationTables) (db : Db) : Set String :=
  { relay | ∃ row ∈ tables.targets, ∃ receipt,
    storedReceipt P row = .ok (some receipt) ∧ receipt.relayNodeId = relay ∧
    receipt.originCheckpoint.cursor = db.head ∧
    receipt.originCheckpoint.eventHash = db.headHash }

/-- Who is confirmed by the view of a sound row. -/
theorem PublicationTarget.Sound.view_confirms (h : row.Sound P identity db)
    {recentAfter : ℤ} {view : PublicationTargetView}
    (hview : publicationTargetView P identity recentAfter db row = .ok view) (relay : String) :
    (view.atCurrentHead = true ∧ view.relayNodeId = some relay) ↔
      ∃ receipt, Commonwake.storedReceipt P row = .ok (some receipt) ∧
        receipt.relayNodeId = relay ∧ receipt.originCheckpoint.cursor = db.head ∧
        receipt.originCheckpoint.eventHash = db.headHash := by
  obtain ⟨stored, hstored, hholds, hof⟩ := h.view recentAfter
  rw [hof] at hview
  simp only [storedTargetView, bind_eq_ok, pure_eq_ok, Except.ok.injEq] at hview
  obtain ⟨_, -, _, -, _, -, _, -, rfl⟩ := hview
  rw [hstored]
  simp only [Bool.and_eq_true, beq_iff_eq, Except.ok.injEq]
  constructor
  · rintro ⟨⟨⟨hsome, hcursor⟩, hhash⟩, hrelay⟩
    obtain ⟨receipt, rfl⟩ := Option.isSome_iff_exists.mp hsome
    have hheld := hholds receipt rfl
    refine ⟨receipt, rfl, ?_, ?_, ?_⟩
    · rw [hheld.relay.1, Option.some.injEq] at hrelay
      exact hrelay
    · rw [← hheld.cursor]
      exact hcursor
    · rw [← hheld.eventHash]
      exact hhash
  · rintro ⟨receipt, rfl, rfl, hcursor, hhash⟩
    have hheld := hholds receipt rfl
    refine ⟨⟨⟨rfl, ?_⟩, ?_⟩, hheld.relay.1⟩
    · rw [hheld.cursor]
      exact hcursor
    · rw [hheld.eventHash]
      exact hhash

theorem replicationHealth_confirmed (h : ∀ row ∈ tables.targets, row.Sound P identity db)
    {now : ℤ} {health : ReplicationHealth}
    (hhealth : replicationHealth P identity now tables db = .ok health) :
    health.confirmedCurrentReplicas = (currentRelays P tables db).ncard := by
  simp only [replicationHealth, bind_eq_ok, pure_eq_ok, Except.ok.injEq] at hhealth
  obtain ⟨views, hviews, rfl⟩ := hhealth
  refine length_eq_ncard (List.nodup_dedup _) ?_
  rw [traverse_eq_ok] at hviews
  intro relay
  unfold distinctRelays currentRelays
  rw [List.mem_dedup, List.mem_filterMap, Set.mem_ofPred_eq]
  constructor
  · rintro ⟨view, hview, hrelay⟩
    rw [List.mem_filter] at hview
    have hmem : (.ok view : Result PublicationTargetView) ∈ views.map .ok :=
      List.mem_map.mpr ⟨view, hview.1, rfl⟩
    rw [← hviews] at hmem
    obtain ⟨row, hrow, hof⟩ := List.mem_map.mp hmem
    have hstored := List.mem_mergeSort.mp hrow
    exact ⟨row, hstored, ((h row hstored).view_confirms hof relay).mp ⟨hview.2, hrelay⟩⟩
  · rintro ⟨row, hrow, hconfirms⟩
    have hmem : publicationTargetView P identity
        (now - recentConfirmationHours * minutes 60) db row ∈ views.map .ok := by
      rw [← hviews]
      exact List.mem_map_of_mem (List.mem_mergeSort.mpr hrow)
    obtain ⟨view, hview, hof⟩ := List.mem_map.mp hmem
    obtain ⟨hcurrent, hrelay⟩ := ((h row hrow).view_confirms hof.symm relay).mpr hconfirms
    exact ⟨view, List.mem_filter.mpr ⟨hview, hcurrent⟩, hrelay⟩

end

/-- In every run, with any number of publications, any answers of the relays and any
calls in between: a target never moves back and keeps its relay, it names an entry of the
log, its receipt is the one for this entry and relay, and the health of the targets counts
the relays with a receipt for the head. -/
structure Publisher.Reliable (P : Primitives) (identity : NodeIdentity P)
    (first later : Publisher) : Prop where
  distinct : (first.tables.targets.map PublicationTarget.endpoint).Nodup
  forward : ∀ row ∈ first.tables.targets, ∃ next ∈ later.tables.targets, row.Precedes next
  sound : ∀ row ∈ first.tables.targets, row.Sound P identity first.node.db
  health : ∀ now endpoint, replicationHealth P identity now first.tables first.node.db ≠
    .error (receiptMismatch endpoint)
  confirmed : ∀ now health,
    replicationHealth P identity now first.tables first.node.db = .ok health →
      health.confirmedCurrentReplicas = (currentRelays P first.tables first.node.db).ncard

theorem run_publication_reliable (P : Primitives) (identity : NodeIdentity P)
    (actions rest : List PublicationAction) :
    Publisher.Reliable P identity (Publisher.run P identity actions)
      (Publisher.run P identity (actions ++ rest)) := by
  have hsound := @Publisher.run_sound P identity actions
  refine ⟨hsound.distinct, ?_, hsound.targets, ?_, ?_⟩
  · intro row hrow
    exact Publisher.run_precedes actions rest hrow
  · exact replicationHealth_ne_mismatch hsound.targets
  · intro now health
    exact replicationHealth_confirmed hsound.targets

end Commonwake
