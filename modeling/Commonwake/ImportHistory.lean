import Commonwake.OriginChain
import Commonwake.LocalLog

/-!
# How the tables of an origin came about

Whatever bundles a node has imported, the tables which it keeps about an
origin are the result of recording the stored events of that origin one
after the other, each in the state of the topic commons at that time.
-/

namespace Commonwake

open Outcome Table

section

variable (P : Primitives) (origin : String)

/-- What is stored about an origin after the given events were recorded. -/
inductive Imported : List OriginEvent → OriginTables → Prop
  | empty : Imported [] .empty
  | checkpoints (events : List OriginEvent) (tables : OriginTables)
      (checkpoints : List RemoteCheckpointRow) (himported : Imported events tables) :
      Imported events { tables with remoteCheckpoints := checkpoints }
  | store (events : List OriginEvent) (event : OriginEvent) (tables : OriginTables)
      (commons : CommonsTables) (next : ImportState) (himported : Imported events tables)
      (hstore : projectAndStore P origin event ⟨tables, commons⟩ = .ok next) :
      Imported (events ++ [event]) next.tables

/-- The tables of every origin were recorded in this way. -/
def Db.Recorded (db : Db) : Prop :=
  ∀ origin, ∃ events, Imported P origin events (db.origins origin)

/-- The importer holds the given rows of the log of the origin, and no others. -/
def Db.Holds (importer : Db) (rows : List EventRow) : Prop :=
  (importer.origins origin).remoteEvents.map (remoteOriginEventFromRow P) =
    rows.map (originEvent P)

instance (importer : Db) (rows : List EventRow) :
    Decidable (importer.Holds P origin rows) :=
  inferInstanceAs (Decidable (_ = rows.map (originEvent P)))

end

section

variable {P : Primitives} {origin : String}

/-! ## One event -/

theorem Db.importState_tables (db : Db) (origin : String) :
    (db.importState origin).tables = db.origins origin := rfl

theorem projectEvents_nil (state : ImportState) :
    projectEvents P origin state [] = .ok state := rfl

theorem Imported.projectEvents {events fresh : List OriginEvent}
    {state next : ImportState} (h : Imported P origin events state.tables)
    (hproject : projectEvents P origin state fresh = .ok next) :
    Imported P origin (events ++ fresh) next.tables := by
  unfold Commonwake.projectEvents at hproject
  induction fresh generalizing events state with
  | nil =>
      simp only [foldState, Except.ok.injEq] at hproject
      rw [← hproject, List.append_nil]
      exact h
  | cons event rest ih =>
      simp only [foldState, bind_eq_ok] at hproject
      obtain ⟨middle, hstore, hrest⟩ := hproject
      have hmiddle : Imported P origin (events ++ [event]) middle.tables :=
        .store events event state.tables state.commons middle h hstore
      have hfinal := ih hmiddle hrest
      rwa [List.append_assoc, List.singleton_append] at hfinal

/-- The last event, and what was stored before it. -/
theorem Imported.last {events : List OriginEvent} {event : OriginEvent}
    {tables : OriginTables} (h : Imported P origin (events ++ [event]) tables) :
    ∃ before commons next, Imported P origin events before ∧
      projectAndStore P origin event ⟨before, commons⟩ = .ok next ∧
      tables = { next.tables with remoteCheckpoints := tables.remoteCheckpoints } := by
  generalize hall : events ++ [event] = all at h
  induction h with
  | empty => simp at hall
  | checkpoints all tables checkpoints _ ih =>
      obtain ⟨before, commons, next, hbefore, hstore, htables⟩ := ih hall
      refine ⟨before, commons, next, hbefore, hstore, ?_⟩
      rw [htables]
  | store all last tables commons next himported hstore =>
      obtain ⟨hevents, hlast⟩ := List.append_inj' hall rfl
      rw [← (List.cons.inj hlast).1] at hstore
      exact ⟨tables, commons, next, hevents ▸ himported, hstore, rfl⟩

theorem Imported.nil {tables : OriginTables} (h : Imported P origin [] tables) :
    tables = { OriginTables.empty with remoteCheckpoints := tables.remoteCheckpoints } := by
  generalize hall : ([] : List OriginEvent) = all at h
  induction h with
  | empty => rfl
  | checkpoints all tables checkpoints _ ih =>
      have htables := ih hall
      rw [htables]
  | store all last tables commons next himported hstore => simp at hall

/-- The stored rows are those of the recorded events. -/
theorem Imported.rows {events : List OriginEvent} {tables : OriginTables}
    (h : Imported P origin events tables) :
    List.Forall₂ (fun event row => ∃ nonce, row = remoteRow P event nonce) events
      tables.remoteEvents := by
  induction h with
  | empty => exact .nil
  | checkpoints events tables checkpoints _ ih => exact ih
  | store events event tables commons next _ hstore ih =>
      obtain ⟨nonce, hrows, -, -⟩ := projectAndStore_log hstore
      rw [hrows]
      exact List.rel_append ih (.cons ⟨nonce, rfl⟩ .nil)

theorem Imported.map_rows {events : List OriginEvent} {tables : OriginTables}
    (h : Imported P origin events tables) :
    tables.remoteEvents.map (remoteOriginEventFromRow P) = events.map .ok := by
  have hrows := h.rows
  clear h
  generalize tables.remoteEvents = rows at hrows
  induction hrows with
  | nil => rfl
  | @cons event row events rows hrow _ ih =>
      obtain ⟨nonce, rfl⟩ := hrow
      rw [List.map_cons, List.map_cons, remoteOriginEventFromRow_remoteRow, ih]

/-! ## Every run -/

theorem ImportResult.imported {identity : NodeIdentity P} {bundle : FederationBundle}
    {witness : CheckpointWitness} {now appendedAt : ℤ} {db next opened : Db}
    {report : FederationImportReport} {key : Bytes} {head : String} {loop : ImportLoop}
    {fresh events : List OriginEvent} {state : ImportState}
    (h : ImportResult P identity bundle witness now appendedAt db report next key head
      opened loop fresh state)
    (himported : Imported P bundle.originNodeId events (db.origins bundle.originNodeId)) :
    Imported P bundle.originNodeId (events ++ fresh)
      (next.origins bundle.originNodeId) := by
  have hproject := h.looped.projected
  rw [h.opens.importState] at hproject
  have hfresh : Imported P bundle.originNodeId (events ++ fresh) state.tables :=
    himported.projectEvents hproject
  rw [h.tables.1]
  exact .checkpoints _ _ _ hfresh

theorem importFederationBundle_recorded (identity : NodeIdentity P)
    (bundle : FederationBundle) (observedAt now appendedAt : ℤ) {db : Db}
    (himported : db.Recorded P) :
    (importFederationBundle P identity bundle observedAt now appendedAt db).2.Recorded P := by
  unfold importFederationBundle
  cases verifyBundle P bundle with
  | error e => exact himported
  | ok =>
      have houtcome := importTransaction_outcome identity bundle
        (makeCheckpointWitness P identity bundle observedAt) now appendedAt db
      simp only [Db.importFederationBundle]
      generalize importTransaction P identity bundle
        (makeCheckpointWitness P identity bundle observedAt) now appendedAt db = outcome
        at houtcome
      cases houtcome with
      | rolledBack e => exact himported
      | committed key head message input _ _ _ _ =>
          obtain ⟨rows, heq⟩ := recordEquivocation_onlyEvidence (P := P) input db
          rw [heq]
          exact himported
      | done report next key head opened loop fresh state hresult =>
          intro origin
          obtain ⟨events, hevents⟩ := himported origin
          by_cases hsame : origin = bundle.originNodeId
          · subst hsame
            exact ⟨events ++ fresh, hresult.imported hevents⟩
          · rw [hresult.other_origins hsame]
            exact ⟨events, hevents⟩

theorem NodeState.step_recorded {identity : NodeIdentity P} (node : NodeState)
    (action : Action) (himported : node.db.Recorded P) :
    (node.step P identity action).db.Recorded P := by
  have hmoves := node.step_moves identity action
  generalize (node.step P identity action).db = next at hmoves
  cases hmoves with
  | stay => exact himported
  | log _ input appendedAt accepted next hlogs =>
      intro origin
      rw [hlogs.federation.2]
      exact himported origin
  | derive _ next hsame =>
      intro origin
      rw [hsame.origins]
      exact himported origin
  | importBundle bundle observedAt now appendedAt =>
      exact importFederationBundle_recorded identity bundle observedAt now appendedAt
        himported

/-- After every run, the tables of every origin are the result of recording
events of that origin. -/
theorem run_recorded (P : Primitives) (identity : NodeIdentity P)
    (actions : List Action) : (NodeState.run P identity actions).db.Recorded P :=
  NodeState.run_induction (fun _ => ⟨[], .empty⟩)
    (fun node action himported => node.step_recorded action himported) actions

/-- A node which holds the log of an origin has recorded exactly its events. -/
theorem Db.Holds.imported {identity : NodeIdentity P} {actions : List Action}
    {rows : List EventRow}
    (h : (NodeState.run P identity actions).db.Holds P origin rows) :
    ∃ events, rows.map (originEvent P) = events.map .ok ∧
      Imported P origin events ((NodeState.run P identity actions).db.origins origin) := by
  obtain ⟨events, hevents⟩ := run_recorded P identity actions origin
  refine ⟨events, ?_, hevents⟩
  rw [← hevents.map_rows]
  exact h.symm

end

end Commonwake
