import Commonwake.BundleVerification

/-!
# The loop of an import

The events of a verified bundle fall into two parts.  Those up to the stored
cursor are compared with the stored ones and change nothing; those beyond it
are checked and recorded one after the other.  Since the bundle is a chain,
a conflict can only be found before the first change.
-/

namespace Commonwake

open Outcome Table HashChain

/-- The stored head of an origin: its cursor and its hash. -/
def Db.knownHead (db : Db) (origin : String) : ℤ × String :=
  match db.peer? origin with
  | some peer => (peer.cursor, peer.eventHash)
  | none => (0, zeroHash)

@[simp] theorem Db.withImportState_importState (db : Db) (origin : String) :
    db.withImportState origin (db.importState origin) = db := by
  simp [Db.withImportState, Db.importState, Db.setOrigin]

@[simp] theorem Db.importState_withImportState (db : Db) (origin : String)
    (state : ImportState) :
    (db.withImportState origin state).importState origin = state := by
  simp [Db.withImportState, Db.importState, Db.setOrigin]

@[simp] theorem Db.withImportState_withImportState (db : Db) (origin : String)
    (first second : ImportState) :
    (db.withImportState origin first).withImportState origin second =
      db.withImportState origin second := by
  simp [Db.withImportState, Db.setOrigin]

section

variable (P : Primitives)

/-- Check and record the events of an origin one after the other. -/
def projectEvents (origin : String) (state : ImportState)
    (events : List OriginEvent) : Result ImportState :=
  foldState (fun state event => projectAndStore P origin event state) state events

end

section

variable (P : Primitives) (origin : String)

/-! ## Events beyond the stored cursor -/

theorem checkExtension_of_link {event : OriginEvent} {loop : ImportLoop}
    (hsequence : event.sequence = loop.cursor + 1)
    (hlink : event.previousHash = loop.hash) :
    checkExtension P origin event loop = .ok () := by
  unfold checkExtension
  rw [rejectIf_of_not (by simpa using hsequence)]
  simp [orRollBack, hlink]

theorem checkExtension_of_fork {event : OriginEvent} (loop : ImportLoop)
    (hsequence : event.sequence = loop.cursor + 1)
    (hlink : event.previousHash ≠ loop.hash) :
    ∃ message input, input.originNodeId = origin ∧
      checkExtension P origin event loop =
        .error (.committed (.conflict message)
          (recordEquivocation P input loop.db)) := by
  unfold checkExtension
  rw [rejectIf_of_not (by simpa using hsequence)]
  simp only [orRollBack, ok_bind, if_neg hlink, throw_eq_error]
  exact ⟨_, _, rfl, rfl⟩

/-- A chain which starts at the head of the loop is recorded event by event,
and fails only by rolling back. -/
theorem foldState_importEvent_fresh {knownCursor : ℤ} (loop : ImportLoop)
    {events : List OriginEvent} (hknown : knownCursor ≤ loop.cursor)
    (hnumbered : Numbered OriginEvent.sequence loop.cursor events)
    (hlinked : Linked OriginEvent.previousHash OriginEvent.eventHash loop.hash
      events) :
    foldState (importEvent P origin knownCursor) loop events =
      match projectEvents P origin (loop.db.importState origin) events with
      | .ok state => .ok {
          db := loop.db.withImportState origin state
          cursor := loop.cursor + events.length
          hash := lastHash OriginEvent.eventHash loop.hash events
          importedEvents := loop.importedEvents + events.length }
      | .error e => .error (.rolledBack e) := by
  induction events generalizing loop with
  | nil => simp [foldState, projectEvents]
  | cons event rest ih =>
      obtain ⟨hsequence, hrest⟩ := hnumbered
      obtain ⟨hlink, hlinks⟩ := hlinked
      have hbeyond : ¬ event.sequence ≤ knownCursor := by omega
      simp only [foldState, importEvent, if_neg hbeyond,
        checkExtension_of_link P origin hsequence hlink, ok_bind, projectEvents]
      cases hproject : projectAndStore P origin event (loop.db.importState origin) with
      | error e => simp [orRollBack]
      | ok state =>
          simp only [orRollBack, ok_bind, pure_eq_ok]
          rw [ih _ (by simp only; omega) (by simpa [hsequence] using hrest) hlinks]
          simp only [Db.importState_withImportState, projectEvents,
            Db.withImportState_withImportState, lastHash_cons, List.length_cons,
            hsequence]
          congr 1
          push_cast
          ring_nf

/-! ## Events up to the stored cursor -/

theorem checkOverlap_cases (event : OriginEvent) (db : Db) :
    (∃ e, checkOverlap P origin event db = .error (.rolledBack e)) ∨
    (∃ row message input,
      (db.origins origin).remoteEvents.find?
        (fun row => row.originSequence == event.sequence) = some row ∧
      row.eventHash ≠ event.eventHash ∧ input.originNodeId = origin ∧
      checkOverlap P origin event db =
        .error (.committed (.conflict message) (recordEquivocation P input db))) ∨
    (∃ row, (db.origins origin).remoteEvents.find?
        (fun row => row.originSequence == event.sequence) = some row ∧
      row.eventHash = event.eventHash ∧ checkOverlap P origin event db = .ok ()) := by
  unfold checkOverlap
  cases hfind : (db.origins origin).remoteEvents.find?
      (fun row => row.originSequence == event.sequence) with
  | none => exact .inl ⟨_, rfl⟩
  | some row =>
      simp only [okOr_some, orRollBack, ok_bind]
      by_cases hhash : row.eventHash = event.eventHash
      · exact .inr (.inr ⟨row, rfl, hhash, by simp [hhash]⟩)
      · simp only [if_neg hhash]
        cases P.parse row.canonicalJson with
        | none => exact .inl ⟨_, rfl⟩
        | some canonical =>
            exact .inr (.inl ⟨row, _, _, rfl, hhash, rfl, rfl⟩)

/-! ## The whole loop -/

/-- What a loop which ran to its end did: the first events were stored
before, and the others were recorded. -/
structure LoopResult (known : ℤ × String) (db : Db)
    (events : List OriginEvent) (loop : ImportLoop) (fresh : List OriginEvent)
    (state : ImportState) : Prop where
  split : ∃ overlap, events = overlap ++ fresh ∧
    ∀ event ∈ overlap, event.sequence ≤ known.1 ∧
      ∃ row, (db.origins origin).remoteEvents.find?
        (fun row => row.originSequence == event.sequence) = some row ∧
        row.eventHash = event.eventHash
  numbered : Numbered OriginEvent.sequence known.1 fresh
  linked : Linked OriginEvent.previousHash OriginEvent.eventHash known.2 fresh
  projected : projectEvents P origin (db.importState origin) fresh = .ok state
  result : loop = {
    db := db.withImportState origin state
    cursor := known.1 + fresh.length
    hash := lastHash OriginEvent.eventHash known.2 fresh
    importedEvents := fresh.length }

/-- A loop finds that an event differs from the stored one, or that the first
new event does not extend the stored head. -/
inductive LoopConflict (known : ℤ × String) (db : Db) (events : List OriginEvent) :
    Prop
  | event (event : OriginEvent) (row : RemoteEventRow) (hevent : event ∈ events)
      (hrow : (db.origins origin).remoteEvents.find?
        (fun row => row.originSequence == event.sequence) = some row)
      (hknown : event.sequence ≤ known.1) (hhash : row.eventHash ≠ event.eventHash)
  | head (event : OriginEvent) (hevent : event ∈ events)
      (hnext : event.sequence = known.1 + 1) (hlink : event.previousHash ≠ known.2)

theorem LoopConflict.cons {known : ℤ × String} {db : Db} {events : List OriginEvent}
    (first : OriginEvent) (h : LoopConflict origin known db events) :
    LoopConflict origin known db (first :: events) := by
  cases h with
  | event event row hevent hrow hknown hhash =>
      exact .event event row (List.mem_cons_of_mem _ hevent) hrow hknown hhash
  | head event hevent hnext hlink =>
      exact .head event (List.mem_cons_of_mem _ hevent) hnext hlink

/-- The three ways in which the loop over a chain can end. -/
inductive LoopOutcome (known : ℤ × String) (db : Db) (events : List OriginEvent) :
    ImportStep ImportLoop → Prop
  | rolledBack (e : CommonwakeError) :
      LoopOutcome known db events (.error (.rolledBack e))
  | committed (message : String) (input : EquivocationInput)
      (horigin : input.originNodeId = origin)
      (hconflict : LoopConflict origin known db events) :
      LoopOutcome known db events
        (.error (.committed (.conflict message) (recordEquivocation P input db)))
  | done (loop : ImportLoop) (fresh : List OriginEvent) (state : ImportState)
      (hresult : LoopResult P origin known db events loop fresh state) :
      LoopOutcome known db events (.ok loop)

/-- The outcome of a loop which compares one event and goes on. -/
theorem LoopOutcome.cons {known : ℤ × String} {db : Db} {events : List OriginEvent}
    {result : ImportStep ImportLoop} {event : OriginEvent} {row : RemoteEventRow}
    (hrow : (db.origins origin).remoteEvents.find?
      (fun row => row.originSequence == event.sequence) = some row)
    (hknown : event.sequence ≤ known.1) (hhash : row.eventHash = event.eventHash)
    (h : LoopOutcome P origin known db events result) :
    LoopOutcome P origin known db (event :: events) result := by
  cases h with
  | rolledBack e => exact .rolledBack e
  | committed message input horigin hconflict =>
      exact .committed message input horigin (hconflict.cons origin event)
  | done loop fresh state hresult =>
      obtain ⟨⟨overlap, hsplit, hoverlap⟩, hnum, hlinks, hproject, hloop⟩ := hresult
      refine .done loop fresh state ⟨⟨event :: overlap, ?_, ?_⟩, hnum, hlinks, hproject,
        hloop⟩
      · rw [hsplit, List.cons_append]
      · intro other hother
        rcases List.mem_cons.mp hother with rfl | hmem
        · exact ⟨hknown, row, hrow, hhash⟩
        · exact hoverlap other hmem

/-- The outcome of a loop whose first event is the first beyond the stored
cursor. -/
theorem loopOutcome_fresh {key : Bytes} {head : String} {known : ℤ × String} {db : Db}
    {event : OriginEvent} {rest : List OriginEvent}
    (hchain : AuthenticChain P key known.1 head (event :: rest)) :
    LoopOutcome P origin known db (event :: rest)
      (foldState (importEvent P origin known.1) ⟨db, known.1, known.2, 0⟩
        (event :: rest)) := by
  obtain ⟨hnumbered, ⟨-, hlinked⟩, -⟩ := hchain
  have hsequence : event.sequence = known.1 + 1 := hnumbered.1
  by_cases hhead : event.previousHash = known.2
  · have hlinks : Linked OriginEvent.previousHash OriginEvent.eventHash known.2
        (event :: rest) := ⟨hhead, hlinked⟩
    have hfold := foldState_importEvent_fresh P origin
      ⟨db, known.1, known.2, 0⟩ le_rfl hnumbered hlinks
    rw [hfold]
    cases hproject : projectEvents P origin (db.importState origin)
        (event :: rest) with
    | error e => exact .rolledBack e
    | ok state =>
        refine .done _ (event :: rest) state ⟨⟨[], rfl, by simp⟩, hnumbered, hlinks,
          hproject, ?_⟩
        simp
  · obtain ⟨message, input, horigin, hfork⟩ := checkExtension_of_fork P origin
      ⟨db, known.1, known.2, 0⟩ hsequence hhead
    have hbeyond : ¬ event.sequence ≤ known.1 := by omega
    have hfold : foldState (importEvent P origin known.1) ⟨db, known.1, known.2, 0⟩
        (event :: rest) =
        .error (.committed (.conflict message) (recordEquivocation P input db)) := by
      simp only [foldState, importEvent, if_neg hbeyond, hfork, error_bind]
    rw [hfold]
    exact .committed message input horigin (.head event (by simp) hsequence hhead)

theorem loopOutcome {key : Bytes} {start : ℤ} {head : String} {known : ℤ × String}
    (db : Db) {events : List OriginEvent}
    (hchain : AuthenticChain P key start head events) (hstart : start ≤ known.1) :
    LoopOutcome P origin known db events
      (foldState (importEvent P origin known.1) ⟨db, known.1, known.2, 0⟩ events) := by
  induction events generalizing start head with
  | nil =>
      refine .done _ [] (db.importState origin) ⟨⟨[], rfl, by simp⟩, trivial, trivial,
        rfl, ?_⟩
      simp
  | cons event rest ih =>
      by_cases hknown : event.sequence ≤ known.1
      · obtain ⟨⟨hsequence, hnumbered⟩, ⟨-, hlinked⟩, hauthentic⟩ := hchain
        have hrest : AuthenticChain P key (start + 1) event.eventHash rest :=
          ⟨hnumbered, hlinked, fun other hother =>
            hauthentic other (List.mem_cons_of_mem _ hother)⟩
        simp only [foldState, importEvent, if_pos hknown]
        rcases checkOverlap_cases P origin event db with ⟨e, hcheck⟩ |
          ⟨row, message, input, hrow, hhash, horigin, hcheck⟩ | ⟨row, hrow, hhash, hcheck⟩
        · rw [hcheck]
          exact .rolledBack e
        · rw [hcheck]
          exact .committed message input horigin
            (.event event row (by simp) hrow hknown hhash)
        · rw [hcheck]
          exact (ih hrest (by omega)).cons P origin hrow hknown hhash
      · have hcursor : start = known.1 := by
          have hsequence := hchain.numbered.1
          omega
        rw [hcursor] at hchain
        exact loopOutcome_fresh P origin hchain

end

end Commonwake
