import Commonwake.ImportLoop
import Commonwake.ProjectionFrames

/-!
# The transaction of an import

An import ends in one of three ways: it is rolled back, it records evidence
and nothing else, or it applies every event beyond the stored cursor.  The
theorem `importTransaction_outcome` says so for every database and every
bundle, and says what each way entails.
-/

namespace Commonwake

open Outcome Table HashChain

/-! ## Storing the recorded events -/

section

variable {P : Primitives} {origin : String}

theorem projectAndStore_log {event : OriginEvent} {state next : ImportState}
    (h : projectAndStore P origin event state = .ok next) :
    ∃ nonce, next.tables.remoteEvents =
        state.tables.remoteEvents ++ [remoteRow P event nonce] ∧
      (∀ row ∈ state.tables.remoteEvents, row.originSequence ≠ event.sequence) ∧
      next.tables.remoteCheckpoints = state.tables.remoteCheckpoints := by
  unfold projectAndStore at h
  simp only [bind_eq_ok, insertNew_eq_ok, pure_eq_ok, Except.ok.injEq] at h
  obtain ⟨⟨nonce, middle⟩, hproject, rows, ⟨hclash, rfl⟩, rfl⟩ := h
  have hlog := validateAndProjectRemoteEvent_sameLog origin event state _ hproject
  have hevents : middle.tables.remoteEvents = state.tables.remoteEvents :=
    hlog.remoteEvents
  refine ⟨nonce, by simp only [hevents], ?_, hlog.remoteCheckpoints⟩
  intro row hrow hsequence
  rw [hevents, List.any_eq_false] at hclash
  apply hclash row hrow
  simp [RemoteEventRow.clashes, remoteRow, hsequence]

/-- Every recorded event is stored, in order, after what was stored before. -/
theorem projectEvents_log {events : List OriginEvent} {state next : ImportState}
    (h : projectEvents P origin state events = .ok next) :
    ∃ rows, List.Forall₂ (fun event row => ∃ nonce, row = remoteRow P event nonce)
        events rows ∧
      next.tables.remoteEvents = state.tables.remoteEvents ++ rows ∧
      next.tables.remoteCheckpoints = state.tables.remoteCheckpoints := by
  induction events generalizing state with
  | nil =>
      simp only [projectEvents, foldState, Except.ok.injEq] at h
      subst h
      exact ⟨[], .nil, by simp, rfl⟩
  | cons event rest ih =>
      simp only [projectEvents, foldState, bind_eq_ok] at h
      obtain ⟨middle, hstore, hrest⟩ := h
      obtain ⟨nonce, hevents, -, hcheckpoints⟩ := projectAndStore_log hstore
      obtain ⟨rows, hforall, hrows, hkept⟩ := ih hrest
      refine ⟨remoteRow P event nonce :: rows, .cons ⟨nonce, rfl⟩ hforall, ?_, ?_⟩
      · rw [hrows, hevents, List.append_assoc, List.singleton_append]
      · rw [hkept, hcheckpoints]

/-- The last recorded event is the one stored under its number. -/
theorem projectEvents_find_last {front : List OriginEvent} {last : OriginEvent}
    {state next : ImportState}
    (h : projectEvents P origin state (front ++ [last]) = .ok next) :
    ∃ row, next.tables.remoteEvents.find?
        (fun row => row.originSequence == last.sequence) = some row ∧
      row.eventHash = last.eventHash := by
  unfold projectEvents at h
  rw [foldState_append] at h
  simp only [bind_eq_ok, foldState, Except.ok.injEq] at h
  obtain ⟨middle, -, final, hstore, rfl⟩ := h
  obtain ⟨nonce, hevents, hfresh, -⟩ := projectAndStore_log hstore
  refine ⟨remoteRow P last nonce, ?_, rfl⟩
  have hnone : middle.tables.remoteEvents.find?
      (fun row => row.originSequence == last.sequence) = none := by
    rw [List.find?_eq_none]
    intro row hrow
    simpa using hfresh row hrow
  rw [hevents, List.find?_append, hnone]
  simp [remoteRow]

end

/-! ## The peer of a bundle -/

/-- The database after the peer of a bundle was found or created. -/
inductive OpensPeer (bundle : FederationBundle) (now : String) (db : Db) : Db → Prop
  | known (peer : PeerRow) (hpeer : db.peer? bundle.originNodeId = some peer)
      (hkey : peer.nodePublicKey = bundle.originNodePublicKey) :
      OpensPeer bundle now db db
  | first (hpeer : db.peer? bundle.originNodeId = none)
      (hfrom : bundle.fromCursor = 0) :
      OpensPeer bundle now db { db with
        peers := db.peers ++ [⟨bundle.originNodeId, bundle.originNodePublicKey, now, now,
          0, zeroHash, "null"⟩] }

theorem openPeer_eq_ok {bundle : FederationBundle} {now : String} {db : Db}
    {known : ℤ} {loop : ImportLoop} (h : openPeer bundle now db = .ok (known, loop)) :
    ∃ opened, OpensPeer bundle now db opened ∧
      known = (db.knownHead bundle.originNodeId).1 ∧
      loop = ⟨opened, (db.knownHead bundle.originNodeId).1,
        (db.knownHead bundle.originNodeId).2, 0⟩ := by
  unfold openPeer at h
  unfold Db.knownHead
  cases hpeer : db.peer? bundle.originNodeId with
  | some peer =>
      simp only [hpeer, bind_eq_ok, rejectIf_eq_ok, not_not, pure_eq_ok,
        Except.ok.injEq, Prod.mk.injEq] at h
      obtain ⟨-, hkey, rfl, rfl⟩ := h
      exact ⟨db, .known peer hpeer hkey, rfl, rfl⟩
  | none =>
      simp only [hpeer, bind_eq_ok, rejectIf_eq_ok, not_not, pure_eq_ok,
        Except.ok.injEq, Prod.mk.injEq] at h
      obtain ⟨-, hfrom, rfl, rfl⟩ := h
      exact ⟨_, .first hpeer hfrom, rfl, rfl⟩

theorem OpensPeer.origins {bundle : FederationBundle} {now : String} {db opened : Db}
    (h : OpensPeer bundle now db opened) : opened.origins = db.origins := by
  cases h <;> rfl

theorem OpensPeer.importState {bundle : FederationBundle} {now : String}
    {db opened : Db} (h : OpensPeer bundle now db opened) (origin : String) :
    opened.importState origin = db.importState origin := by
  cases h <;> rfl

/-- A first contact starts at the beginning of the log. -/
theorem OpensPeer.eq_or_first {bundle : FederationBundle} {now : String}
    {db opened : Db} (h : OpensPeer bundle now db opened) :
    opened = db ∨ (bundle.fromCursor = 0 ∧
      db.knownHead bundle.originNodeId = (0, zeroHash)) := by
  cases h with
  | known => exact .inl rfl
  | first hpeer hfrom =>
      refine .inr ⟨hfrom, ?_⟩
      simp [Db.knownHead, hpeer]

/-! ## Contradictions -/

/-- The stored hash at a cursor: the one of the event with that number. -/
def storedHashAt (origin : String) (cursor : ℤ) (db : Db) : Option String :=
  if cursor = 0 then some zeroHash
  else ((db.origins origin).remoteEvents.find? fun row =>
    row.originSequence == cursor).map (·.eventHash)

/-- What a bundle must contradict for an import to record evidence against
its origin: a stored event, the stored head, or the stored event at the
cursor of the checkpoint. -/
inductive Contradicts (bundle : FederationBundle) (db : Db) : Prop
  | event (event : OriginEvent) (row : RemoteEventRow) (hevent : event ∈ bundle.events)
      (hrow : (db.origins bundle.originNodeId).remoteEvents.find?
        (fun row => row.originSequence == event.sequence) = some row)
      (hknown : event.sequence ≤ (db.knownHead bundle.originNodeId).1)
      (hhash : row.eventHash ≠ event.eventHash)
  | head (event : OriginEvent) (hevent : event ∈ bundle.events)
      (hnext : event.sequence = (db.knownHead bundle.originNodeId).1 + 1)
      (hlink : event.previousHash ≠ (db.knownHead bundle.originNodeId).2)
  | checkpoint (hash : String)
      (hknown : bundle.throughCursor ≤ (db.knownHead bundle.originNodeId).1)
      (hstored : storedHashAt bundle.originNodeId bundle.throughCursor db = some hash)
      (hhash : hash ≠ bundle.checkpoint.eventHash)

section

variable (P : Primitives)

theorem checkCheckpoint_cases (bundle : FederationBundle) (db : Db) :
    (∃ e, checkCheckpoint P bundle db = .error (.rolledBack e)) ∨
    (∃ hash message input, storedHashAt bundle.originNodeId bundle.checkpoint.cursor db =
        some hash ∧ hash ≠ bundle.checkpoint.eventHash ∧
      input.originNodeId = bundle.originNodeId ∧
      checkCheckpoint P bundle db =
        .error (.committed (.conflict message) (recordEquivocation P input db))) ∨
    (storedHashAt bundle.originNodeId bundle.checkpoint.cursor db =
        some bundle.checkpoint.eventHash ∧ checkCheckpoint P bundle db = .ok ()) := by
  unfold checkCheckpoint storedHashAt
  by_cases hcursor : bundle.checkpoint.cursor = 0
  · simp only [if_pos hcursor, pure_eq_ok, ok_bind]
    by_cases hhash : zeroHash = bundle.checkpoint.eventHash
    · exact .inr (.inr ⟨by rw [hhash], if_pos hhash⟩)
    · refine .inr (.inl ⟨zeroHash, _, _, rfl, hhash, ?_, if_neg hhash⟩)
      rfl
  · simp only [if_neg hcursor]
    cases (db.origins bundle.originNodeId).remoteEvents.find?
        (fun row => row.originSequence == bundle.checkpoint.cursor) with
    | none => exact .inl ⟨_, rfl⟩
    | some row =>
        simp only [okOr_some, Except.map, orRollBack, ok_bind, Option.map_some]
        by_cases hhash : row.eventHash = bundle.checkpoint.eventHash
        · exact .inr (.inr ⟨by rw [hhash], if_pos hhash⟩)
        · refine .inr (.inl ⟨row.eventHash, _, _, rfl, hhash, ?_, if_neg hhash⟩)
          rfl

/-! ## The outcome of a transaction -/

/-- What an import which succeeded did. -/
structure ImportResult (identity : NodeIdentity P) (bundle : FederationBundle)
    (witness : CheckpointWitness) (now appendedAt : ℤ) (db : Db)
    (report : FederationImportReport) (next : Db) (key : Bytes) (head : String)
    (opened : Db) (loop : ImportLoop) (fresh : List OriginEvent)
    (state : ImportState) : Prop where
  verified : VerifiedBundle P bundle key head
  notOwn : bundle.originNodeId ≠ identity.nodeId
  opens : OpensPeer bundle (P.timestamp now) db opened
  start : bundle.fromCursor ≤ (db.knownHead bundle.originNodeId).1
  looped : LoopResult P bundle.originNodeId (db.knownHead bundle.originNodeId) opened
    bundle.events loop fresh state
  checkpoint : storedHashAt bundle.originNodeId bundle.checkpoint.cursor loop.db =
    some bundle.checkpoint.eventHash
  witnessed : witnessImport P identity bundle witness appendedAt
    (db.knownHead bundle.originNodeId).1 loop.cursor
    (advancePeer P bundle (P.timestamp now) loop) = .ok (report.witnessEventId, next)
  reported : report = {
    originNodeId := bundle.originNodeId
    previouslyKnownCursor := (db.knownHead bundle.originNodeId).1
    importedEvents := loop.importedEvents
    currentCursor := loop.cursor
    currentEventHash := loop.hash
    witnessEventId := report.witnessEventId }

/-- The three ways in which the transaction of an import can end. -/
inductive ImportOutcome (identity : NodeIdentity P) (bundle : FederationBundle)
    (witness : CheckpointWitness) (now appendedAt : ℤ) (db : Db) :
    ImportStep (FederationImportReport × Db) → Prop
  | rolledBack (e : CommonwakeError) :
      ImportOutcome identity bundle witness now appendedAt db (.error (.rolledBack e))
  | committed (key : Bytes) (head message : String) (input : EquivocationInput)
      (hverified : VerifiedBundle P bundle key head)
      (hstart : bundle.fromCursor ≤ (db.knownHead bundle.originNodeId).1)
      (horigin : input.originNodeId = bundle.originNodeId)
      (hcontradicts : Contradicts bundle db) :
      ImportOutcome identity bundle witness now appendedAt db
        (.error (.committed (.conflict message) (recordEquivocation P input db)))
  | done (report : FederationImportReport) (next : Db) (key : Bytes) (head : String)
      (opened : Db) (loop : ImportLoop) (fresh : List OriginEvent) (state : ImportState)
      (hresult : ImportResult P identity bundle witness now appendedAt db report next
        key head opened loop fresh state) :
      ImportOutcome identity bundle witness now appendedAt db (.ok (report, next))

variable {P}

/-- The event right after the start of a chain carries its head. -/
theorem AuthenticChain.previousHash_of_first {key : Bytes} {start : ℤ} {head : String}
    {events : List OriginEvent} (hchain : AuthenticChain P key start head events)
    {event : OriginEvent} (hevent : event ∈ events)
    (hsequence : event.sequence = start + 1) : event.previousHash = head := by
  cases events with
  | nil => cases hevent
  | cons first rest =>
      rcases List.mem_cons.mp hevent with rfl | hmem
      · exact hchain.linked.1
      · have hbounds := hchain.numbered.2.mem_bounds hmem
        omega

/-- A first contact cannot conflict with what is stored. -/
theorem not_loopConflict_of_first {key : Bytes} {head : String}
    {bundle : FederationBundle} {db : Db} (hverified : VerifiedBundle P bundle key head)
    (hfrom : bundle.fromCursor = 0) :
    ¬ LoopConflict bundle.originNodeId (0, zeroHash) db bundle.events := by
  have hchain := hverified.chain
  rw [hfrom, hverified.genesis hfrom] at hchain
  rintro (⟨event, row, hevent, -, hknown, -⟩ | ⟨event, hevent, hnext, hlink⟩)
  · have hbounds := hchain.numbered.mem_bounds hevent
    simp only at hknown
    omega
  · exact hlink (hchain.previousHash_of_first hevent hnext)

/-- The number of the last event is the cursor of the bundle. -/
theorem VerifiedBundle.sequence_last {key : Bytes} {head : String}
    {bundle : FederationBundle} (hverified : VerifiedBundle P bundle key head)
    {front : List OriginEvent} {last : OriginEvent}
    (hevents : bundle.events = front ++ [last]) :
    last.sequence = bundle.throughCursor := by
  have hnumbered := hverified.chain.numbered
  have hlength := hverified.throughCursor
  rw [hevents] at hnumbered hlength
  have hlast := (Numbered.append.mp hnumbered).2.1
  rw [hlast, hlength, List.length_append, List.length_singleton]
  push_cast
  ring

/-- Once a new event was recorded, the checkpoint agrees with the last one. -/
theorem storedHashAt_of_fresh {key : Bytes} {head : String} {bundle : FederationBundle}
    {known : ℤ × String} {opened : Db} {loop : ImportLoop} {fresh : List OriginEvent}
    {state : ImportState} (hverified : VerifiedBundle P bundle key head)
    (hloop : LoopResult P bundle.originNodeId known opened bundle.events loop fresh
      state)
    (hfresh : fresh ≠ []) :
    storedHashAt bundle.originNodeId bundle.checkpoint.cursor loop.db =
      some bundle.checkpoint.eventHash := by
  obtain ⟨⟨overlap, hsplit, -⟩, -, -, hproject, hresult⟩ := hloop
  obtain ⟨front, last, rfl⟩ : ∃ front last, fresh = front ++ [last] :=
    ⟨_, _, (List.dropLast_append_getLast hfresh).symm⟩
  have hevents : bundle.events = overlap ++ front ++ [last] := by
    rw [hsplit, List.append_assoc]
  have hsequence := hverified.sequence_last hevents
  have hpositive : last.sequence ≠ 0 := by
    have hmem : last ∈ bundle.events := by simp [hevents]
    have hbounds := hverified.chain.numbered.mem_bounds hmem
    have hfrom := hverified.fromCursor
    omega
  have hhash : bundle.checkpoint.eventHash = last.eventHash := by
    rw [hverified.checkpointHash (.inl (by simp [hevents])), hevents,
      lastHash_append_singleton]
  obtain ⟨row, hfind, hrow⟩ := projectEvents_find_last hproject
  have hcursor : bundle.checkpoint.cursor = last.sequence := by
    rw [hverified.checkpointCursor, hsequence]
  have htables : (loop.db.origins bundle.originNodeId).remoteEvents =
      state.tables.remoteEvents := by
    rw [hresult]
    simp [Db.withImportState]
  rw [storedHashAt, hcursor, if_neg hpositive, htables, hfind, hhash, Option.map_some,
    hrow]

/-- Without a new event the loop changes nothing. -/
theorem LoopResult.db_of_nil {origin : String} {known : ℤ × String} {opened : Db}
    {events : List OriginEvent} {loop : ImportLoop} {state : ImportState}
    (hloop : LoopResult P origin known opened events loop [] state) :
    loop.db = opened := by
  have hproject := hloop.projected
  simp only [projectEvents, foldState, Except.ok.injEq] at hproject
  rw [hloop.result, ← hproject]
  simp

/-- Without a new event the bundle ends at or before the stored cursor. -/
theorem throughCursor_le_of_nil {key : Bytes} {head : String}
    {bundle : FederationBundle} {known : ℤ × String} {opened : Db} {loop : ImportLoop}
    {state : ImportState} (hverified : VerifiedBundle P bundle key head)
    (hstart : bundle.fromCursor ≤ known.1)
    (hloop : LoopResult P bundle.originNodeId known opened bundle.events loop []
      state) :
    bundle.throughCursor ≤ known.1 := by
  obtain ⟨overlap, hsplit, hoverlap⟩ := hloop.split
  rw [List.append_nil] at hsplit
  by_cases hnil : bundle.events = []
  · have hlength := hverified.throughCursor
    rw [hnil] at hlength
    simp only [List.length_nil, Nat.cast_zero] at hlength
    omega
  · have heq : bundle.events = bundle.events.dropLast ++ [bundle.events.getLast hnil] :=
      (List.dropLast_append_getLast hnil).symm
    have hmem : bundle.events.getLast hnil ∈ overlap := by
      rw [← hsplit]
      exact List.getLast_mem hnil
    rw [← hverified.sequence_last heq]
    exact (hoverlap _ hmem).1

/-- With a new event the loop ends at the cursor of the bundle. -/
theorem cursor_of_fresh {key : Bytes} {head : String}
    {bundle : FederationBundle} {known : ℤ × String} {opened : Db} {loop : ImportLoop}
    {fresh : List OriginEvent} {state : ImportState}
    (hverified : VerifiedBundle P bundle key head)
    (hloop : LoopResult P bundle.originNodeId known opened bundle.events loop fresh
      state)
    (hfresh : fresh ≠ []) : loop.cursor = bundle.throughCursor := by
  obtain ⟨⟨overlap, hsplit, -⟩, hnumbered, -, -, hresult⟩ := hloop
  obtain ⟨front, last, rfl⟩ : ∃ front last, fresh = front ++ [last] :=
    ⟨_, _, (List.dropLast_append_getLast hfresh).symm⟩
  have hevents : bundle.events = overlap ++ front ++ [last] := by
    rw [hsplit, List.append_assoc]
  have hlast := (Numbered.append.mp hnumbered).2.1
  rw [hresult, ← hverified.sequence_last hevents, hlast]
  simp only [List.length_append, List.length_singleton]
  push_cast
  ring

/-- The outcome of a transaction whose loop ran to its end. -/
theorem importOutcome_of_loop {identity : NodeIdentity P} {bundle : FederationBundle}
    {witness : CheckpointWitness} {now appendedAt : ℤ} {db opened : Db} {key : Bytes}
    {head : String} {loop : ImportLoop} {fresh : List OriginEvent} {state : ImportState}
    (hverified : VerifiedBundle P bundle key head)
    (hown : bundle.originNodeId ≠ identity.nodeId)
    (hopens : OpensPeer bundle (P.timestamp now) db opened)
    (hstart : bundle.fromCursor ≤ (db.knownHead bundle.originNodeId).1)
    (hloop : LoopResult P bundle.originNodeId (db.knownHead bundle.originNodeId) opened
      bundle.events loop fresh state) :
    ImportOutcome P identity bundle witness now appendedAt db (do
      checkCheckpoint P bundle loop.db
      let (witnessEventId, db') ← orRollBack (witnessImport P identity bundle witness
        appendedAt (db.knownHead bundle.originNodeId).1 loop.cursor
        (advancePeer P bundle (P.timestamp now) loop))
      pure ({
        originNodeId := bundle.originNodeId
        previouslyKnownCursor := (db.knownHead bundle.originNodeId).1
        importedEvents := loop.importedEvents
        currentCursor := loop.cursor
        currentEventHash := loop.hash
        witnessEventId := witnessEventId }, db')) := by
  rcases checkCheckpoint_cases P bundle loop.db with ⟨e, hcheck⟩ |
    ⟨hash, message, input, hstored, hhash, horigin, hcheck⟩ | ⟨hstored, hcheck⟩
  · rw [hcheck]
    exact .rolledBack e
  · -- Evidence is recorded only when the loop has changed nothing.
    rw [hcheck]
    have hnil : fresh = [] := by
      by_contra hfresh
      rw [storedHashAt_of_fresh hverified hloop hfresh] at hstored
      exact hhash (Option.some.inj hstored).symm
    subst hnil
    have hdb := hloop.db_of_nil
    have hthrough := throughCursor_le_of_nil hverified hstart hloop
    rw [hdb, hverified.checkpointCursor] at hstored
    rcases hopens.eq_or_first with hopened | ⟨hfrom, hknown⟩
    · subst hopened
      rw [hdb]
      exact .committed key head message input hverified hstart horigin
        (.checkpoint hash hthrough hstored hhash)
    · exfalso
      have hzero : bundle.throughCursor = 0 := by
        have hlength := hverified.throughCursor
        rw [hknown] at hthrough
        simp only at hthrough
        omega
      have hevents : bundle.events = [] := by
        have hlength := hverified.throughCursor
        rw [← List.length_eq_zero_iff]
        omega
      rw [storedHashAt, if_pos hzero] at hstored
      apply hhash
      rw [hverified.checkpointHash (.inr hzero), hevents, lastHash_nil,
        hverified.genesis hfrom]
      exact (Option.some.inj hstored).symm
  · rw [hcheck]
    cases hwitness : witnessImport P identity bundle witness appendedAt
        (db.knownHead bundle.originNodeId).1 loop.cursor
        (advancePeer P bundle (P.timestamp now) loop) with
    | error e => exact .rolledBack e
    | ok result =>
        exact .done _ result.2 key head opened loop fresh state ⟨hverified, hown, hopens,
          hstart, hloop, hstored, hwitness, rfl⟩

/-- The outcome of every import, for every database and every bundle. -/
theorem importTransaction_outcome (identity : NodeIdentity P)
    (bundle : FederationBundle) (witness : CheckpointWitness) (now appendedAt : ℤ)
    (db : Db) :
    ImportOutcome P identity bundle witness now appendedAt db
      (importTransaction P identity bundle witness now appendedAt db) := by
  unfold importTransaction
  cases hverify : verifyBundle P bundle with
  | error e => exact .rolledBack e
  | ok =>
      obtain ⟨key, head, hverified⟩ := verifyBundle_eq_ok hverify
      by_cases hown : bundle.originNodeId = identity.nodeId
      · rw [rejectIf_of hown]
        exact .rolledBack _
      rw [rejectIf_of_not hown]
      cases hopen : openPeer bundle (P.timestamp now) db with
      | error e => exact .rolledBack e
      | ok result =>
          obtain ⟨known, loop⟩ := result
          obtain ⟨opened, hopens, rfl, rfl⟩ := openPeer_eq_ok hopen
          simp only [orRollBack, ok_bind]
          by_cases hstart : bundle.fromCursor > (db.knownHead bundle.originNodeId).1
          · rw [rejectIf_of hstart]
            exact .rolledBack _
          rw [rejectIf_of_not hstart]
          rw [not_lt] at hstart
          have hloop := loopOutcome P bundle.originNodeId opened hverified.chain hstart
          simp only [ok_bind]
          generalize foldState (importEvent P bundle.originNodeId
            (db.knownHead bundle.originNodeId).1) _ bundle.events = outcome at hloop
          cases hloop with
          | rolledBack e => exact .rolledBack e
          | committed message input horigin hconflict =>
              rcases hopens.eq_or_first with hopened | ⟨hfrom, hknown⟩
              · subst hopened
                refine .committed key head message input hverified hstart horigin ?_
                cases hconflict with
                | event event row hevent hrow hknown hhash =>
                    exact .event event row hevent hrow hknown hhash
                | head event hevent hnext hlink => exact .head event hevent hnext hlink
              · rw [hknown] at hconflict
                exact absurd hconflict (not_loopConflict_of_first hverified hfrom)
          | done loop fresh state hresult =>
              exact importOutcome_of_loop hverified hown hopens hstart hresult

end

end Commonwake
