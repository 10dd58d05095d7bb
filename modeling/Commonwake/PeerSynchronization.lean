import Commonwake.CommonsConvergence
import Commonwake.EdgeQuotas
import Commonwake.EquivocationSoundness
import Commonwake.ImportWindows
import Commonwake.LogImportability

/-!
# Synchronizing with a peer

`synchronize_peer` asks a peer for the pages of an origin, one after the other,
and imports each of them.  It holds no lock between two pages, so that the calls
of the node, other imports and other synchronizations come in between.  The
peer may answer anything.
-/

namespace Commonwake

open Outcome Table HashChain

/-! ## The loop -/

structure FederationPeerView where
  nodeId : String
  nodePublicKey : String
  firstSeenAt : ℤ
  lastSeenAt : ℤ
  cursor : ℤ
  eventHash : String

/-- Why a synchronization fails: an error of the node or of the request, or an answer
which is refused. -/
inductive SyncError
  | failed (error : CommonwakeError)
  | bail (message : String)

structure SyncReport where
  status : String
  caughtUp : Bool
  peer : String
  relayedOriginRequested : Option String
  originNodeId : String
  cursor : ℤ
  importedEvents : ℕ
  pages : ℕ
  checkpointWitnessEvents : List String

/-- The variables of the loop of `synchronize_peer`. -/
structure SyncProgress where
  cursor : ℤ
  importedEvents : ℕ
  pages : ℕ
  witnesses : List String

/-- What a synchronization is about to do. -/
inductive SyncPhase
  /-- Read the answer to the probe. -/
  | probing
  /-- Read the stored cursor of the origin. -/
  | locating (probe : FederationBundle)
  /-- Read the next page, and import it. -/
  | following (probe : FederationBundle) (progress : SyncProgress)
  | done (result : Except SyncError SyncReport)

structure SyncRun where
  peer : String
  originNodeId : Option String
  batchSize : ℕ
  maxPages : Option ℕ
  phase : SyncPhase

/-- The arguments of `synchronize_peer`. -/
def SyncRun.start (peer : String) (originNodeId : Option String) (batchSize : ℕ)
    (maxPages : Option ℕ) : SyncRun :=
  ⟨peer, originNodeId, max 1 (min batchSize maxFederationEvents), maxPages, .probing⟩

/-- The cursor and the limit of the request which is under way. -/
def SyncRun.request? (run : SyncRun) : Option (ℤ × ℕ) :=
  match run.phase with
  | .probing => some (0, 1)
  | .following _ progress => some (progress.cursor, run.batchSize)
  | .locating _ | .done _ => none

def SyncPhase.ofResult : Except SyncError SyncPhase → SyncPhase
  | .ok phase => phase
  | .error error => .done (.error error)

/-- The loop after a page. -/
def SyncProgress.advance (progress : SyncProgress) (report : FederationImportReport) :
    SyncProgress where
  cursor := report.currentCursor
  importedEvents := progress.importedEvents + report.importedEvents
  pages := progress.pages + 1
  witnesses := progress.witnesses ++ report.witnessEventId.toList

def SyncRun.report (run : SyncRun) (probe : FederationBundle) (progress : SyncProgress)
    (caughtUp : Bool) : SyncReport where
  status := "synchronized"
  caughtUp := caughtUp
  peer := run.peer
  relayedOriginRequested := run.originNodeId
  originNodeId := probe.originNodeId
  cursor := progress.cursor
  importedEvents := progress.importedEvents
  pages := progress.pages
  checkpointWitnessEvents := progress.witnesses

/-- Has the loop read as many pages as it may? -/
def SyncRun.exhausted (run : SyncRun) (pages : ℕ) : Bool :=
  run.maxPages.any fun maximum => decide (max 1 maximum ≤ pages)

def orFailed {α : Type} (result : Result α) : Except SyncError α :=
  result.mapError .failed

/-- The checks of a page before its import. -/
def checkSyncPage (probe : FederationBundle) (progress : SyncProgress)
    (answer : Result FederationBundle) : Except SyncError FederationBundle := do
  let bundle ← orFailed answer
  rejectIf (bundle.originNodeId ≠ probe.originNodeId ∨
      bundle.originNodePublicKey ≠ probe.originNodePublicKey)
    (.bail "peer identity changed during synchronization")
  rejectIf (bundle.fromCursor ≠ progress.cursor)
    (.bail s!"peer returned a federation page beginning at cursor {bundle.fromCursor} when cursor {progress.cursor} was requested")
  pure bundle

section

variable (P : Primitives)

def federationPeerView (row : PeerRow) : Result FederationPeerView := do
  pure {
    nodeId := row.nodeId
    nodePublicKey := row.nodePublicKey
    firstSeenAt := ← P.parseTimestamp row.firstSeenAt
    lastSeenAt := ← P.parseTimestamp row.lastSeenAt
    cursor := row.cursor
    eventHash := row.eventHash }

def federationPeers (db : Db) : Result (List FederationPeerView) :=
  Outcome.traverse (federationPeerView P)
    (db.peers.mergeSort fun a b => decide (a.firstSeenAt ≤ b.firstSeenAt))

/-- The checks of the probe. -/
def checkProbe (identity : NodeIdentity P) (run : SyncRun) (answer : Result FederationBundle) :
    Except SyncError FederationBundle := do
  let probe ← orFailed answer
  orFailed (verifyBundle P probe)
  rejectIf ((run.originNodeId.any fun requested => requested != probe.originNodeId) = true)
    (.bail "relay returned a different origin than requested")
  rejectIf (probe.originNodeId = identity.nodeId)
    (.bail "refusing to synchronize a node from its own HTTP endpoint")
  pure probe

/-- What a synchronization does between two awaits, with the answer of the peer when it
awaited one. -/
def SyncRun.proceed (identity : NodeIdentity P) (run : SyncRun)
    (answer : Result FederationBundle) (readings : Readings) (db : Db) : SyncPhase × Db :=
  match run.phase with
  | .probing =>
      (.ofResult (do
        let probe ← checkProbe P identity run answer
        pure (.locating probe)), db)
  | .locating probe =>
      (.ofResult (do
        let peers ← orFailed (federationPeers P db)
        let known := peers.find? fun known => known.nodeId == probe.originNodeId
        pure (.following probe ⟨(known.map (·.cursor)).getD 0, 0, 0, []⟩)), db)
  | .following probe progress =>
      match checkSyncPage probe progress answer with
      | .error error => (.done (.error error), db)
      | .ok bundle =>
          match importFederationBundle P identity bundle readings.observedAt readings.now
              readings.appendedAt db with
          | (.error error, next) => (.done (.error (.failed error)), next)
          | (.ok report, next) =>
              let progress := progress.advance report
              if bundle.events.length = 0 then
                (.done (.ok (run.report probe progress true)), next)
              else if run.exhausted progress.pages then
                (.done (.ok (run.report probe progress false)), next)
              else (.following probe progress, next)
  | .done result => (.done result, db)

end

/-! ## The node which synchronizes -/

inductive SyncAction
  /-- A critical section of the calls, the collector and the other imports. -/
  | node (action : Action)
  | synchronize (peer : String) (originNodeId : Option String) (batchSize : ℕ)
      (maxPages : Option ℕ)
  | proceed (index : ℕ) (answer : Result FederationBundle) (readings : Readings)

structure Synchronizer where
  node : NodeState
  runs : List SyncRun

section

variable (P : Primitives)

namespace Synchronizer

def init (identity : NodeIdentity P) : Synchronizer :=
  ⟨NodeState.init P identity, []⟩

def step (identity : NodeIdentity P) (synchronizer : Synchronizer) : SyncAction → Synchronizer
  | .node action => { synchronizer with node := synchronizer.node.step P identity action }
  | .synchronize peer originNodeId batchSize maxPages =>
      { synchronizer with
        runs := synchronizer.runs ++ [.start peer originNodeId batchSize maxPages] }
  | .proceed index answer readings =>
      match synchronizer.runs[index]? with
      | some run =>
          let (phase, db) := run.proceed P identity answer readings synchronizer.node.db
          { node := { synchronizer.node with db := db }
            runs := synchronizer.runs.set index { run with phase := phase } }
      | none => synchronizer

/-- The state after a list of actions. -/
def run (identity : NodeIdentity P) (actions : List SyncAction) : Synchronizer :=
  actions.foldl (step P identity) (init P identity)

end Synchronizer

end

section

variable {P : Primitives} {identity : NodeIdentity P}

/-! ## One critical section -/

@[simp] theorem orFailed_eq_ok {α : Type} {result : Result α} {value : α} :
    orFailed result = .ok value ↔ result = .ok value := by
  cases result <;> simp [orFailed, Except.mapError]

theorem checkSyncPage_eq_ok {probe bundle : FederationBundle} {progress : SyncProgress}
    {answer : Result FederationBundle} :
    checkSyncPage probe progress answer = .ok bundle ↔ answer = .ok bundle ∧
      (bundle.originNodeId = probe.originNodeId ∧
        bundle.originNodePublicKey = probe.originNodePublicKey) ∧
      bundle.fromCursor = progress.cursor := by
  simp only [checkSyncPage, bind_eq_ok, rejectIf_eq_ok, orFailed_eq_ok, pure_eq_ok,
    Except.ok.injEq, not_or, not_not]
  constructor
  · rintro ⟨_, hanswer, _, hsame, _, hfrom, rfl⟩
    exact ⟨hanswer, hsame, hfrom⟩
  · rintro ⟨hanswer, hsame, hfrom⟩
    exact ⟨bundle, hanswer, (), hsame, (), hfrom, rfl⟩

/-- The view of the peers shows the stored cursor of every origin. -/
theorem federationPeers_cursor {db : Db} {peers : List FederationPeerView}
    (hdistinct : (db.peers.map PeerRow.nodeId).Nodup) (h : federationPeers P db = .ok peers)
    (origin : String) :
    ((peers.find? fun known => known.nodeId == origin).map (·.cursor)).getD 0 =
      (db.knownHead origin).1 := by
  unfold federationPeers at h
  have hperm := List.mergeSort_perm db.peers fun a b => decide (a.firstSeenAt ≤ b.firstSeenAt)
  generalize db.peers.mergeSort (fun a b => decide (a.firstSeenAt ≤ b.firstSeenAt)) = rows
    at h hperm
  have hcolumns : peers.map (fun view => (view.nodeId, view.cursor)) =
      rows.map fun row => (row.nodeId, row.cursor) := by
    refine map_traverse ?_ h
    intro row view hview
    simp only [federationPeerView, bind_eq_ok, pure_eq_ok, Except.ok.injEq] at hview
    obtain ⟨_, -, _, -, rfl⟩ := hview
    rfl
  have hfind := congrArg (List.find? fun pair : String × ℤ => pair.1 == origin) hcolumns
  rw [List.find?_map, List.find?_map] at hfind
  have hcursors := congrArg (Option.map Prod.snd) hfind
  rw [Option.map_map, Option.map_map] at hcursors
  have hsame : rows.find? (fun row => row.nodeId == origin) = db.peer? origin :=
    (find?_eq_of_perm hperm.symm hdistinct origin).symm
  have hrows : (peers.find? fun known => known.nodeId == origin).map (·.cursor) =
      (db.peer? origin).map (·.cursor) := by
    rw [← hsame]
    exact hcursors
  rw [hrows]
  unfold Db.knownHead
  cases db.peer? origin with
  | none => rfl
  | some peer => rfl

/-- An import succeeds, or it fails and records nothing. -/
theorem importFederationBundle_outcome (identity : NodeIdentity P)
    (bundle : FederationBundle) (observedAt now appendedAt : ℤ) (db : Db) :
    (∃ error next, importFederationBundle P identity bundle observedAt now appendedAt db =
        (.error error, next) ∧ db.Unrecorded next) ∨
      ∃ report next key head opened loop fresh state,
        importFederationBundle P identity bundle observedAt now appendedAt db =
          (.ok report, next) ∧
        ImportResult P identity bundle (makeCheckpointWitness P identity bundle observedAt)
          now appendedAt db report next key head opened loop fresh state := by
  unfold importFederationBundle
  cases verifyBundle P bundle with
  | error e => exact .inl ⟨e, db, rfl, .refl db⟩
  | ok =>
      have houtcome := importTransaction_outcome identity bundle
        (makeCheckpointWitness P identity bundle observedAt) now appendedAt db
      simp only [Db.importFederationBundle]
      generalize importTransaction P identity bundle
        (makeCheckpointWitness P identity bundle observedAt) now appendedAt db = outcome
        at houtcome
      cases houtcome with
      | rolledBack e => exact .inl ⟨e, db, rfl, .refl db⟩
      | committed key head message input _ _ _ _ =>
          obtain ⟨rows, heq⟩ := recordEquivocation_onlyEvidence (P := P) input db
          simp only [heq]
          exact .inl ⟨_, _, rfl, rfl, rfl, rfl, rfl, rfl, rfl, rfl, rfl, rfl⟩
      | done report next key head opened loop fresh state hresult =>
          exact .inr ⟨report, next, key, head, opened, loop, fresh, state, rfl, hresult⟩

/-- The probe names the origin which was asked for, and not the node itself. -/
structure SyncRun.Follows (identity : NodeIdentity P) (run : SyncRun) (origin : String) :
    Prop where
  other : origin ≠ identity.nodeId
  requested : ∀ requested, run.originNodeId = some requested → requested = origin

/-- What a critical section of a synchronization can do. -/
inductive SyncSteps (identity : NodeIdentity P) (run : SyncRun) (readings : Readings)
    (db : Db) : SyncPhase → Db → Prop
  | idle (result : Except SyncError SyncReport) (hphase : run.phase = .done result) :
      SyncSteps identity run readings db (.done result) db
  | probe (probe : FederationBundle) (hphase : run.phase = .probing)
      (hfollows : run.Follows identity probe.originNodeId) :
      SyncSteps identity run readings db (.locating probe) db
  | locate (probe : FederationBundle) (hphase : run.phase = .locating probe) :
      SyncSteps identity run readings db
        (.following probe ⟨(db.knownHead probe.originNodeId).1, 0, 0, []⟩) db
  | fail (error : SyncError) (next : Db) (hquiet : db.Unrecorded next) :
      SyncSteps identity run readings db (.done (.error error)) next
  | page (probe : FederationBundle) (progress : SyncProgress) (bundle : FederationBundle)
      (report : FederationImportReport) (next : Db) (key : Bytes) (head : String) (opened : Db)
      (loop : ImportLoop) (fresh : List OriginEvent) (state : ImportState) (phase : SyncPhase)
      (hphase : run.phase = .following probe progress)
      (horigin : bundle.originNodeId = probe.originNodeId)
      (hfrom : bundle.fromCursor = progress.cursor)
      (hresult : ImportResult P identity bundle
        (makeCheckpointWitness P identity bundle readings.observedAt) readings.now
        readings.appendedAt db report next key head opened loop fresh state)
      (hnext : phase =
        if bundle.events.length = 0 then
          .done (.ok (run.report probe (progress.advance report) true))
        else if run.exhausted (progress.advance report).pages then
          .done (.ok (run.report probe (progress.advance report) false))
        else .following probe (progress.advance report)) :
      SyncSteps identity run readings db phase next

theorem SyncRun.proceed_steps (identity : NodeIdentity P) (run : SyncRun)
    (answer : Result FederationBundle) (readings : Readings) {db : Db}
    (hdistinct : (db.peers.map PeerRow.nodeId).Nodup) :
    SyncSteps identity run readings db (run.proceed P identity answer readings db).1
      (run.proceed P identity answer readings db).2 := by
  have hquiet := Db.Unrecorded.refl db
  unfold SyncRun.proceed
  cases hphase : run.phase with
  | done result => exact .idle result hphase
  | probing =>
      simp only
      cases hprobe : checkProbe P identity run answer with
      | error error => exact .fail error db hquiet
      | ok probe =>
          refine .probe probe hphase ?_
          simp only [checkProbe, bind_eq_ok, rejectIf_eq_ok, orFailed_eq_ok, pure_eq_ok,
            Except.ok.injEq] at hprobe
          obtain ⟨_, -, -, -, -, hrequested, -, hother, rfl⟩ := hprobe
          refine ⟨hother, ?_⟩
          intro requested hsome
          rw [hsome] at hrequested
          simpa using hrequested
  | locating probe =>
      simp only
      cases hpeers : federationPeers P db with
      | error error => exact .fail (.failed error) db hquiet
      | ok peers =>
          have hcursor := federationPeers_cursor hdistinct hpeers probe.originNodeId
          simp only [orFailed, Except.mapError, ok_bind, pure_eq_ok, SyncPhase.ofResult, hcursor]
          exact .locate probe hphase
  | following probe progress =>
      simp only
      cases hpage : checkSyncPage probe progress answer with
      | error error => exact .fail error db hquiet
      | ok bundle =>
          obtain ⟨-, ⟨horigin, -⟩, hfrom⟩ := checkSyncPage_eq_ok.mp hpage
          simp only
          rcases importFederationBundle_outcome identity bundle readings.observedAt readings.now
            readings.appendedAt db with ⟨error, next, himport, hunrecorded⟩ |
            ⟨report, next, key, head, opened, loop, fresh, state, himport, hresult⟩
          · rw [himport]
            exact .fail (.failed error) next hunrecorded
          · rw [himport]
            have hsteps : SyncSteps identity run readings db _ next :=
              .page probe progress bundle report next key head opened loop fresh state _
                hphase horigin hfrom hresult rfl
            simp only
            split
            · rename_i hempty
              rwa [if_pos hempty] at hsteps
            · rename_i hsome
              rw [if_neg hsome] at hsteps
              split
              · rename_i hexhausted
                rwa [if_pos hexhausted] at hsteps
              · rename_i hmore
                rwa [if_neg hmore] at hsteps

/-! ## Witnesses of an import -/

/-- No checkpoint beyond the stored head was witnessed. -/
def Db.WitnessesKnown (db : Db) : Prop :=
  ∀ row ∈ db.checkpointWitnesses, row.cursor ≤ (db.knownHead row.originNodeId).1

section

variable {bundle : FederationBundle} {witness : CheckpointWitness} {now appendedAt : ℤ}
  {db next opened : Db} {report : FederationImportReport} {key : Bytes} {head : String}
  {loop : ImportLoop} {fresh : List OriginEvent} {state : ImportState}

/-- An import reports the witness which it has logged. -/
theorem ImportResult.witness_cases
    (h : ImportResult P identity bundle witness now appendedAt db report next key head
      opened loop fresh state) (hknown : db.WitnessesKnown) :
    (report.witnessEventId = none ∧ next.events = db.events ∧
        next.checkpointWitnesses = db.checkpointWitnesses) ∨
      ∃ base row accepted logged, base.events = db.events ∧
        Appended P identity (witnessInput P bundle witness) appendedAt base row accepted
          logged ∧
        report.witnessEventId = some row.eventId ∧ next.events = db.events ++ [row] ∧
        next.checkpointWitnesses = db.checkpointWitnesses ++
          [⟨bundle.originNodeId, bundle.checkpoint.cursor, bundle.checkpoint.eventHash,
            row.eventId⟩] ∧
        bundle.checkpoint.cursor ≤ (next.knownHead bundle.originNodeId).1 := by
  obtain ⟨-, hevents, -, hwitnesses, -⟩ := h.advanced
  have hhead := h.knownHead
  have hdone := h.witnessed
  generalize advancePeer P bundle (P.timestamp now) loop = base at hdone hevents hwitnesses
  unfold witnessImport at hdone
  by_cases hdue : shouldWitness bundle (db.knownHead bundle.originNodeId).1 = false
  · rw [if_pos hdue, pure_eq_ok, Except.ok.injEq, Prod.mk.injEq] at hdone
    obtain ⟨hnone, rfl⟩ := hdone
    exact .inl ⟨hnone.symm, hevents, hwitnesses⟩
  rw [if_neg hdue] at hdone
  rw [Bool.not_eq_false] at hdue
  obtain ⟨hthrough, hbeyond⟩ := h.cursor_of_due hdue
  -- What was witnessed before ends at or before the old head.
  have hnew : base.alreadyWitnessed bundle = none := by
    cases hagain : base.alreadyWitnessed bundle with
    | none => rfl
    | some witnessed =>
        unfold Db.alreadyWitnessed at hagain
        obtain ⟨stored, hfound, -⟩ := Option.bind_eq_some_iff.mp hagain
        have hstored := List.mem_of_find?_eq_some hfound
        have htest := List.find?_some hfound
        simp only [Bool.and_eq_true, beq_iff_eq] at htest
        rw [hwitnesses] at hstored
        have hbound := hknown stored hstored
        rw [htest.1.1, htest.1.2, h.verified.checkpointCursor] at hbound
        omega
  simp only [hnew, appendWitness, bind_eq_ok, insertNew_eq_ok, pure_eq_ok, Except.ok.injEq]
    at hdone
  obtain ⟨_, ⟨⟨accepted, logged⟩, happend, witnesses, ⟨-, rfl⟩, rfl⟩, hdone⟩ := hdone
  simp only [Prod.mk.injEq] at hdone
  obtain ⟨hsome, rfl⟩ := hdone
  obtain ⟨row, happended⟩ := appendEvent_eq_ok happend
  have hlogged : logged.checkpointWitnesses = base.checkpointWitnesses := by
    rw [happended.next_eq]
  have hid : accepted.id = row.eventId := by
    rw [happended.accepted_eq]
  refine .inr ⟨base, row, accepted, logged, hevents, happended, ?_, ?_, ?_, ?_⟩
  · rw [← hsome, hid]
  · simp only [recordImport, happended.events, hevents]
  · simp only [recordImport, hlogged, hwitnesses, hid]
  · rw [hhead, h.verified.checkpointCursor, hthrough]

theorem ImportResult.witnessesKnown
    (h : ImportResult P identity bundle witness now appendedAt db report next key head
      opened loop fresh state) (hknown : db.WitnessesKnown) : next.WitnessesKnown := by
  have hheads := h.knownHead_le
  rcases h.witness_cases hknown with ⟨-, -, hkept⟩ |
    ⟨base, row, accepted, logged, -, -, -, -, hmore, hcursor⟩
  · intro stored hstored
    rw [hkept] at hstored
    exact (hknown stored hstored).trans (hheads _)
  · intro stored hstored
    rw [hmore] at hstored
    rcases List.mem_append.mp hstored with hold | hnew
    · exact (hknown stored hold).trans (hheads _)
    · rw [List.mem_singleton.mp hnew]
      exact hcursor

end

theorem run_witnessesKnown (identity : NodeIdentity P) (actions : List Action) :
    (NodeState.run P identity actions).db.WitnessesKnown := by
  induction actions using List.reverseRecOn with
  | nil =>
      intro row hrow
      cases hrow
  | append_singleton actions action ih =>
      rw [NodeState.run_append_singleton]
      rcases (NodeState.run P identity actions).step_synchronizes identity action with hown |
        ⟨bundle, observedAt, now, appendedAt, report, key, head, opened, loop, fresh, state, -,
          hresult⟩
      · intro row hrow
        rw [hown.checkpointWitnesses] at hrow
        unfold Db.knownHead Db.peer?
        rw [hown.peers]
        exact ih row hrow
      · exact hresult.witnessesKnown ih

/-! ## What a synchronization may say -/

/-- The log and what is stored of the origins have grown. -/
structure Db.Gains (first later : Db) : Prop where
  events : first.events ⊆ later.events
  heads : ∀ origin, (first.knownHead origin).1 ≤ (later.knownHead origin).1
  checkpoints : ∀ origin, (first.origins origin).remoteCheckpoints ⊆
    (later.origins origin).remoteCheckpoints

theorem Db.OwnStep.gains {db next : Db} (h : db.OwnStep P identity next) : db.Gains next := by
  refine ⟨?_, fun origin => ?_, fun origin => ?_⟩
  · rcases h.events with hkept | ⟨-, -, row, -, -, -, -, hevents⟩
    · rw [hkept]
      exact List.Subset.refl _
    · rw [hevents]
      exact List.subset_append_left _ _
  · unfold Db.knownHead Db.peer?
    rw [h.peers]
  · rw [h.origins]
    exact List.Subset.refl _

theorem ImportResult.gains {bundle : FederationBundle} {witness : CheckpointWitness}
    {now appendedAt : ℤ} {db next opened : Db} {report : FederationImportReport} {key : Bytes}
    {head : String} {loop : ImportLoop} {fresh : List OriginEvent} {state : ImportState}
    (h : ImportResult P identity bundle witness now appendedAt db report next key head
      opened loop fresh state) : db.Gains next := by
  refine ⟨?_, h.knownHead_le, fun origin => ?_⟩
  · rcases h.events with hkept | ⟨-, row, -, -, -, -, hevents⟩
    · rw [hkept]
      exact List.Subset.refl _
    · rw [hevents]
      exact List.subset_append_left _ _
  · by_cases horigin : origin = bundle.originNodeId
    · rw [horigin]
      exact h.checkpoints.1
    · rw [h.other_origins horigin]
      exact List.Subset.refl _

/-- What the loop has counted is there. -/
structure SyncProgress.Sound (P : Primitives) (origin : String) (db : Db)
    (progress : SyncProgress) : Prop where
  nonneg : 0 ≤ progress.cursor
  reached : progress.cursor ≤ (db.knownHead origin).1
  counted : (progress.importedEvents : ℤ) ≤ progress.cursor
  witnesses : ∀ id ∈ progress.witnesses, ∃ row ∈ db.events, row.eventId = id ∧
    row.witnesses P origin = true
  distinct : progress.witnesses.Nodup
  answered : progress.witnesses.length ≤ progress.pages

def SyncReport.progress (report : SyncReport) : SyncProgress :=
  ⟨report.cursor, report.importedEvents, report.pages, report.checkpointWitnessEvents⟩

/-- A report is about the origin which was asked for, and counts what is there.  It
stopped at its limit of pages, or at a page without events for which the node holds a
checkpoint of the origin. -/
structure SyncReport.Sound (P : Primitives) (identity : NodeIdentity P) (run : SyncRun)
    (db : Db) (report : SyncReport) : Prop where
  follows : run.Follows identity report.originNodeId
  progress : report.progress.Sound P report.originNodeId db
  limit : ∀ maximum, run.maxPages = some maximum → report.pages ≤ max 1 maximum
  stopped : report.caughtUp = false → ∃ maximum, run.maxPages = some maximum ∧
    report.pages = max 1 maximum
  attested : report.caughtUp = true →
    ∃ row ∈ (db.origins report.originNodeId).remoteCheckpoints, row.cursor ≤ report.cursor

def SyncRun.Sound (P : Primitives) (identity : NodeIdentity P) (db : Db) (run : SyncRun) :
    Prop :=
  match run.phase with
  | .probing => True
  | .locating probe => run.Follows identity probe.originNodeId
  | .following probe progress => run.Follows identity probe.originNodeId ∧
      progress.Sound P probe.originNodeId db ∧ run.exhausted progress.pages = false
  | .done (.ok report) => report.Sound P identity run db
  | .done (.error _) => True

theorem SyncProgress.Sound.grow {origin : String} {db next : Db} {progress : SyncProgress}
    (h : progress.Sound P origin db) (hgains : db.Gains next) :
    progress.Sound P origin next where
  nonneg := h.nonneg
  reached := h.reached.trans (hgains.heads origin)
  counted := h.counted
  witnesses := fun id hid => by
    obtain ⟨row, hrow, hsame⟩ := h.witnesses id hid
    exact ⟨row, hgains.events hrow, hsame⟩
  distinct := h.distinct
  answered := h.answered

theorem SyncReport.Sound.grow {run : SyncRun} {db next : Db} {report : SyncReport}
    (h : report.Sound P identity run db) (hgains : db.Gains next) :
    report.Sound P identity run next where
  follows := h.follows
  progress := h.progress.grow hgains
  limit := h.limit
  stopped := h.stopped
  attested := fun hcaught => by
    obtain ⟨row, hrow, hcursor⟩ := h.attested hcaught
    exact ⟨row, hgains.checkpoints _ hrow, hcursor⟩

theorem SyncRun.Sound.grow {run : SyncRun} {db next : Db} (h : run.Sound P identity db)
    (hgains : db.Gains next) : run.Sound P identity next := by
  unfold SyncRun.Sound at h ⊢
  cases hphase : run.phase with
  | probing => trivial
  | locating probe =>
      rw [hphase] at h
      exact h
  | following probe progress =>
      rw [hphase] at h
      exact ⟨h.1, h.2.1.grow hgains, h.2.2⟩
  | done result =>
      rw [hphase] at h
      cases result with
      | error error => trivial
      | ok report => exact h.grow hgains

/-! ## What a critical section keeps -/

theorem StoredChains.knownHead_eq {db : Db} (h : StoredChains P db) (origin : String) :
    (db.knownHead origin).1 = ((db.origins origin).remoteEvents.length : ℤ) :=
  congrArg Prod.fst (h.stored_head origin).2

theorem SyncSteps.gains {run : SyncRun} {readings : Readings} {db next : Db}
    {phase : SyncPhase} (h : SyncSteps identity run readings db phase next) : db.Gains next := by
  have hown : ∀ next, db.Unrecorded next → db.OwnStep P identity next := fun _ hquiet =>
    hquiet.ownStep
  have hidle : db.Gains db := (hown db (.refl db)).gains
  cases h with
  | idle => exact hidle
  | probe => exact hidle
  | locate => exact hidle
  | fail error next hquiet => exact (hown next hquiet).gains
  | page => exact ImportResult.gains ‹_›

theorem ImportResult.importedEvents_eq {bundle : FederationBundle}
    {witness : CheckpointWitness} {now appendedAt : ℤ} {db next opened : Db}
    {report : FederationImportReport} {key : Bytes} {head : String} {loop : ImportLoop}
    {fresh : List OriginEvent} {state : ImportState}
    (h : ImportResult P identity bundle witness now appendedAt db report next key head
      opened loop fresh state) :
    (next.knownHead bundle.originNodeId).1 =
      (db.knownHead bundle.originNodeId).1 + report.importedEvents := by
  have hreport : report.importedEvents = loop.importedEvents :=
    congrArg FederationImportReport.importedEvents h.reported
  have hloop : loop.importedEvents = fresh.length :=
    congrArg ImportLoop.importedEvents h.looped.result
  rw [h.knownHead, hreport, hloop]
  exact h.cursor_eq

/-- A page adds to the progress what the import has recorded. -/
theorem SyncProgress.Sound.page {bundle : FederationBundle} {now appendedAt observedAt : ℤ}
    {db next opened : Db} {report : FederationImportReport} {key : Bytes} {head : String}
    {loop : ImportLoop} {fresh : List OriginEvent} {state : ImportState}
    {progress : SyncProgress} (h : progress.Sound P bundle.originNodeId db)
    (hresult : ImportResult P identity bundle (makeCheckpointWitness P identity bundle
      observedAt) now appendedAt db report next key head opened loop fresh state)
    (hknown : db.WitnessesKnown) :
    (progress.advance report).Sound P bundle.originNodeId next := by
  have hgrown := h.grow hresult.gains
  have hcursor : report.currentCursor = (next.knownHead bundle.originNodeId).1 := by
    rw [hresult.reported, hresult.knownHead]
  have hcount := hresult.importedEvents_eq
  have hnonneg := h.nonneg
  have hreached := h.reached
  have hcounted := h.counted
  have hanswered := h.answered
  refine ⟨?_, ?_, ?_, ?_, ?_, ?_⟩
  · change 0 ≤ report.currentCursor
    omega
  · change report.currentCursor ≤ _
    omega
  · change ((progress.importedEvents + report.importedEvents : ℕ) : ℤ) ≤ report.currentCursor
    push_cast
    omega
  all_goals
    rcases hresult.witness_cases hknown with ⟨hnone, -, -⟩ |
      ⟨base, row, accepted, logged, hbase, happended, hsome, hevents, -, -⟩
  · simp only [SyncProgress.advance, hnone, Option.toList_none, List.append_nil]
    exact hgrown.witnesses
  · simp only [SyncProgress.advance, hsome, Option.toList_some]
    intro id hid
    rcases List.mem_append.mp hid with hold | hnew
    · exact hgrown.witnesses id hold
    · refine ⟨row, ?_, (List.mem_singleton.mp hnew).symm, (happended.witnesses _).mpr rfl⟩
      rw [hevents]
      exact List.mem_append_right _ List.mem_cons_self
  · simp only [SyncProgress.advance, hnone, Option.toList_none, List.append_nil]
    exact h.distinct
  · simp only [SyncProgress.advance, hsome, Option.toList_some]
    rw [List.nodup_append]
    refine ⟨h.distinct, List.nodup_singleton _, ?_⟩
    intro id hold other hother
    obtain ⟨stored, hstored, hid, -⟩ := h.witnesses id hold
    rw [← hbase] at hstored
    rw [List.mem_singleton.mp hother, ← hid]
    exact happended.fresh_id stored hstored
  · simp only [SyncProgress.advance, hnone, Option.toList_none, List.append_nil]
    omega
  · simp only [SyncProgress.advance, hsome, Option.toList_some, List.length_append,
      List.length_singleton]
    omega

theorem SyncRun.exhausted_eq_false {run : SyncRun} {pages : ℕ} :
    run.exhausted pages = false ↔
      ∀ maximum, run.maxPages = some maximum → pages < max 1 maximum := by
  unfold SyncRun.exhausted
  cases run.maxPages with
  | none => simp
  | some maximum =>
      simp only [Option.any_some, Option.some.injEq, forall_eq', decide_eq_false_iff_not,
        not_le]

theorem SyncSteps.sound {run : SyncRun} {readings : Readings} {db next : Db}
    {phase : SyncPhase} (h : SyncSteps identity run readings db phase next)
    (hrun : run.Sound P identity db) (hchains : StoredChains P db)
    (hknown : db.WitnessesKnown) :
    SyncRun.Sound P identity next { run with phase := phase } := by
  unfold SyncRun.Sound at hrun
  cases h with
  | idle result hphase =>
      rw [hphase] at hrun
      cases result with
      | error error => trivial
      | ok report =>
          exact ⟨⟨hrun.follows.other, hrun.follows.requested⟩, hrun.progress, hrun.limit,
            hrun.stopped, hrun.attested⟩
  | probe probe hphase hfollows => exact ⟨hfollows.other, hfollows.requested⟩
  | locate probe hphase =>
      rw [hphase] at hrun
      have hcursor := hchains.knownHead_eq probe.originNodeId
      refine ⟨⟨hrun.other, hrun.requested⟩, ⟨?_, le_rfl, ?_, ?_, List.nodup_nil, le_rfl⟩, ?_⟩
      · change 0 ≤ (db.knownHead probe.originNodeId).1
        omega
      · change ((0 : ℕ) : ℤ) ≤ (db.knownHead probe.originNodeId).1
        omega
      · intro id hid
        cases hid
      · rw [SyncRun.exhausted_eq_false]
        intro maximum _
        change 0 < max 1 maximum
        omega
  | fail error next hquiet => trivial
  | page probe progress bundle report next key head opened loop fresh state phase hphase horigin
      hfrom hresult hnext =>
      rw [hphase] at hrun
      obtain ⟨hfollows, hprogress, hmore⟩ := hrun
      rw [SyncRun.exhausted_eq_false] at hmore
      rw [← horigin] at hprogress
      have hadvanced := hprogress.page hresult hknown
      have hadvancedSame := hadvanced
      rw [horigin] at hadvanced
      have hpages : (progress.advance report).pages = progress.pages + 1 := rfl
      have hlimit : ∀ maximum, run.maxPages = some maximum →
          (progress.advance report).pages ≤ max 1 maximum := by
        intro maximum hmaximum
        have hless := hmore maximum hmaximum
        omega
      by_cases hempty : bundle.events.length = 0
      · rw [if_pos hempty] at hnext
        subst hnext
        refine ⟨⟨hfollows.other, hfollows.requested⟩, hadvanced, hlimit, ?_, ?_⟩
        · intro hfalse
          cases hfalse
        · intro _
          obtain ⟨-, ⟨row, hrow, hcursor, -⟩, -⟩ := hresult.checkpoints
          have hthrough := hresult.verified.throughCursor
          have hreached := hprogress.reached
          have hheads := hresult.knownHead_le bundle.originNodeId
          have hend : (progress.advance report).cursor =
              (next.knownHead bundle.originNodeId).1 := by
            change report.currentCursor = _
            rw [hresult.reported, hresult.knownHead]
          rw [hresult.verified.checkpointCursor] at hcursor
          rw [horigin] at hrow
          refine ⟨row, hrow, ?_⟩
          change row.cursor ≤ (progress.advance report).cursor
          omega
      · rw [if_neg hempty] at hnext
        by_cases hexhausted : run.exhausted (progress.advance report).pages = true
        · rw [if_pos hexhausted] at hnext
          subst hnext
          refine ⟨⟨hfollows.other, hfollows.requested⟩, hadvanced, hlimit, ?_, ?_⟩
          · intro _
            unfold SyncRun.exhausted at hexhausted
            rw [Option.any_eq_true] at hexhausted
            obtain ⟨maximum, hmaximum, hless⟩ := hexhausted
            rw [decide_eq_true_eq] at hless
            exact ⟨maximum, hmaximum, le_antisymm (hlimit maximum hmaximum) hless⟩
          · intro hfalse
            cases hfalse
        · rw [if_neg hexhausted] at hnext
          rw [Bool.not_eq_true] at hexhausted
          subst hnext
          exact ⟨⟨hfollows.other, hfollows.requested⟩, hadvanced, hexhausted⟩

/-! ## What is counted twice -/

/-- The events of an origin which a synchronization has counted as its own. -/
def SyncPhase.importedFor (origin : String) : SyncPhase → ℕ
  | .following probe progress =>
      if probe.originNodeId = origin then progress.importedEvents else 0
  | .done (.ok report) => if report.originNodeId = origin then report.importedEvents else 0
  | .probing | .locating _ | .done (.error _) => 0

/-- A critical section counts no more events than it stores. -/
theorem SyncSteps.counts {run : SyncRun} {readings : Readings} {db next : Db}
    {phase : SyncPhase} (h : SyncSteps identity run readings db phase next) (origin : String) :
    (phase.importedFor origin : ℤ) + (db.knownHead origin).1 ≤
      run.phase.importedFor origin + (next.knownHead origin).1 := by
  have hheads := h.gains.heads origin
  cases h with
  | idle result hphase =>
      rw [hphase]
  | probe probe hphase =>
      rw [hphase]
      exact le_rfl
  | locate probe hphase =>
      rw [hphase]
      simp only [SyncPhase.importedFor]
      split <;> simp
  | fail error next hquiet =>
      have hnothing : (SyncPhase.done (.error error)).importedFor origin = 0 := rfl
      rw [hnothing]
      omega
  | page probe progress bundle report next key head opened loop fresh state phase hphase horigin
      hfrom hresult hnext =>
      have hphases : phase.importedFor origin = if probe.originNodeId = origin then
          progress.importedEvents + report.importedEvents else 0 := by
        rw [hnext]
        split
        · rfl
        · split <;> rfl
      rw [hphases, hphase]
      simp only [SyncPhase.importedFor]
      by_cases hsame : probe.originNodeId = origin
      · rw [if_pos hsame, if_pos hsame]
        rw [← hsame, ← horigin, hresult.importedEvents_eq]
        push_cast
        omega
      · rw [if_neg hsame, if_neg hsame]
        omega

theorem sum_map_set {α : Type} (f : α → ℕ) {items : List α} {index : ℕ} {old : α}
    (h : items[index]? = some old) (new : α) :
    ((items.set index new).map f).sum + f old = (items.map f).sum + f new := by
  induction items generalizing index with
  | nil => cases h
  | cons first rest ih =>
      cases index with
      | zero =>
          rw [List.getElem?_cons_zero, Option.some.injEq] at h
          simp only [List.set_cons_zero, List.map_cons, List.sum_cons, h]
          omega
      | succ index =>
          rw [List.getElem?_cons_succ] at h
          have hrest := ih h
          simp only [List.set_cons_succ, List.map_cons, List.sum_cons]
          omega

/-! ## Every run -/

/-- A synchronization changes the database by imports only. -/
theorem SyncRun.proceed_node (identity : NodeIdentity P) (run : SyncRun)
    (answer : Result FederationBundle) (readings : Readings) (node : NodeState) :
    { node with db := (run.proceed P identity answer readings node.db).2 } = node ∨
      ∃ bundle, answer = .ok bundle ∧
        { node with db := (run.proceed P identity answer readings node.db).2 } =
          node.step P identity (.importBundle bundle readings.observedAt readings.now
            readings.appendedAt) := by
  unfold SyncRun.proceed
  cases run.phase with
  | probing | locating _ | done _ => exact .inl rfl
  | following probe progress =>
      simp only
      cases hpage : checkSyncPage probe progress answer with
      | error error => exact .inl rfl
      | ok bundle =>
          refine .inr ⟨bundle, (checkSyncPage_eq_ok.mp hpage).1, ?_⟩
          simp only [NodeState.step]
          generalize importFederationBundle P identity bundle readings.observedAt readings.now
            readings.appendedAt node.db = outcome
          obtain ⟨result, next⟩ := outcome
          cases result with
          | error error => rfl
          | ok report =>
              simp only
              split
              · rfl
              · split <;> rfl

/-- The events of an origin which any synchronization has counted. -/
def Synchronizer.importedFor (synchronizer : Synchronizer) (origin : String) : ℕ :=
  (synchronizer.runs.map fun run => run.phase.importedFor origin).sum

/-- The invariant of a node which synchronizes. -/
structure Synchronizer.Sound (P : Primitives) (identity : NodeIdentity P)
    (synchronizer : Synchronizer) : Prop where
  node : ∃ actions, synchronizer.node = NodeState.run P identity actions
  runs : ∀ run ∈ synchronizer.runs, run.Sound P identity synchronizer.node.db
  counted : ∀ origin, (synchronizer.importedFor origin : ℤ) ≤
    (synchronizer.node.db.knownHead origin).1

theorem Synchronizer.step_proceed {synchronizer : Synchronizer} {index : ℕ} {run : SyncRun}
    (h : synchronizer.runs[index]? = some run) (answer : Result FederationBundle)
    (readings : Readings) :
    synchronizer.step P identity (.proceed index answer readings) =
      ⟨{ synchronizer.node with
          db := (run.proceed P identity answer readings synchronizer.node.db).2 },
        synchronizer.runs.set index { run with
          phase := (run.proceed P identity answer readings synchronizer.node.db).1 }⟩ := by
  simp only [Synchronizer.step, h]

theorem Synchronizer.Sound.step {synchronizer : Synchronizer}
    (h : synchronizer.Sound P identity) (action : SyncAction) :
    (synchronizer.step P identity action).Sound P identity := by
  obtain ⟨⟨actions, hnode⟩, hruns, hcounted⟩ := h
  cases action with
  | node action =>
      have hgains : synchronizer.node.db.Gains (synchronizer.node.step P identity action).db := by
        rcases synchronizer.node.step_synchronizes identity action with hown |
          ⟨_, _, _, _, _, _, _, _, _, _, _, -, hresult⟩
        · exact hown.gains
        · exact hresult.gains
      refine ⟨⟨actions ++ [action], ?_⟩, fun run hrun => (hruns run hrun).grow hgains,
        fun origin => (hcounted origin).trans (hgains.heads origin)⟩
      rw [NodeState.run_append_singleton, ← hnode]
      rfl
  | synchronize peer originNodeId batchSize maxPages =>
      refine ⟨⟨actions, hnode⟩, ?_, ?_⟩
      · intro run hrun
        rcases List.mem_append.mp hrun with hold | hnew
        · exact hruns run hold
        · rw [List.mem_singleton.mp hnew]
          trivial
      · intro origin
        have hsum := hcounted origin
        unfold Synchronizer.importedFor at hsum ⊢
        simp only [Synchronizer.step, List.map_append, List.sum_append]
        simpa [SyncRun.start, SyncPhase.importedFor] using hsum
  | proceed index answer readings =>
      cases hindex : synchronizer.runs[index]? with
      | none =>
          simp only [Synchronizer.step, hindex]
          exact ⟨⟨actions, hnode⟩, hruns, hcounted⟩
      | some run =>
          rw [Synchronizer.step_proceed hindex]
          have hchains : StoredChains P synchronizer.node.db := by
            rw [hnode]
            exact run_storedChains P identity actions
          have hknown : synchronizer.node.db.WitnessesKnown := by
            rw [hnode]
            exact run_witnessesKnown identity actions
          have hsteps := run.proceed_steps identity answer readings hchains.distinct
          have hmem := List.mem_of_getElem? hindex
          refine ⟨?_, ?_, ?_⟩
          · rcases run.proceed_node identity answer readings
              synchronizer.node with hkept | ⟨bundle, -, himported⟩
            · exact ⟨actions, by rw [← hnode]; exact hkept⟩
            · refine ⟨actions ++ [.importBundle bundle readings.observedAt readings.now
                readings.appendedAt], ?_⟩
              rw [NodeState.run_append_singleton, ← hnode]
              exact himported
          · intro other hother
            rcases List.mem_or_eq_of_mem_set hother with hold | hnew
            · exact (hruns other hold).grow hsteps.gains
            · rw [hnew]
              exact hsteps.sound (hruns run hmem) hchains hknown
          · intro origin
            have hcounts := hsteps.counts origin
            have hsum := hcounted origin
            have hset := sum_map_set (fun run : SyncRun => run.phase.importedFor origin) hindex
              { run with phase := (run.proceed P identity answer readings
                synchronizer.node.db).1 }
            unfold Synchronizer.importedFor at hsum ⊢
            simp only at hset ⊢
            omega

theorem Synchronizer.run_sound (identity : NodeIdentity P) (actions : List SyncAction) :
    (Synchronizer.run P identity actions).Sound P identity := by
  induction actions using List.reverseRecOn with
  | nil =>
      refine ⟨⟨[], rfl⟩, ?_, fun origin => le_rfl⟩
      intro run hrun
      cases hrun
  | append_singleton actions action ih =>
      unfold Synchronizer.run
      rw [List.foldl_append]
      exact ih.step action

/-- Whatever the peers answer, and however the synchronizations of a node interleave with
one another, with other imports and with the calls of the node: every report is sound,
and no stored event is counted by two of them. -/
theorem run_synchronizations (P : Primitives) (identity : NodeIdentity P)
    (actions : List SyncAction) :
    (∃ steps, (Synchronizer.run P identity actions).node = NodeState.run P identity steps) ∧
    (∀ run ∈ (Synchronizer.run P identity actions).runs, ∀ report,
      run.phase = .done (.ok report) →
        report.Sound P identity run (Synchronizer.run P identity actions).node.db) ∧
    ∀ origin, (Synchronizer.run P identity actions).importedFor origin ≤
      ((Synchronizer.run P identity actions).node.db.origins origin).remoteEvents.length := by
  obtain ⟨⟨steps, hnode⟩, hruns, hcounted⟩ := Synchronizer.run_sound identity actions
  refine ⟨⟨steps, hnode⟩, ?_, ?_⟩
  · intro run hrun report hphase
    have hsound := hruns run hrun
    unfold SyncRun.Sound at hsound
    rw [hphase] at hsound
    exact hsound
  · intro origin
    have hsum := hcounted origin
    rw [hnode, (run_storedChains P identity steps).knownHead_eq] at hsum
    rw [hnode]
    exact_mod_cast hsum

end

end Commonwake
