import Commonwake.PendingCalls
import Commonwake.ContentEffects

/-!
# The history of a node

A run interleaves checks, transactions, fetches and imports.  For the tables
which are derived from the log of the node only the logged events matter, in
their order: `History` is a run without the calls in flight.  Every invariant
of these tables is proved by induction on it.
-/

namespace Commonwake

open Outcome Table HashChain

/-- A change which is not logged: nothing, or the bookkeeping of a fetch. -/
structure Db.Quiet (first second : Db) : Prop where
  events : second.events = first.events
  authority : second.authority = first.authority
  content : second.content = first.content
  sources : second.sources = first.sources ∨
    ∃ sourceId success, second.sources = (first.markSourceFetch sourceId success).sources

/-- Every entry which the collector has seen meets the condition. -/
def EntriesMeet (condition : FeedEntry → Prop) (actions : List Action) : Prop :=
  ∀ sourceId languages feed retrievedAt entry appendedAt,
    .observe sourceId languages feed retrievedAt entry appendedAt ∈ actions →
      condition entry

theorem EntriesMeet.of_append {condition : FeedEntry → Prop} {actions rest : List Action}
    (h : EntriesMeet condition (actions ++ rest)) : EntriesMeet condition actions := by
  intro sourceId languages feed retrievedAt entry appendedAt hmem
  exact h _ _ _ _ _ _ (List.mem_append_left rest hmem)

section

variable (P : Primitives) (identity : NodeIdentity P)

/-- What the transaction of an observation logged. -/
structure Observed (observation : IngestedObservation) (appendedAt : ℤ) (db : Db)
    (row : EventRow) (accepted : AcceptedObject) (next : Db) : Prop where
  new : db.storedObservation (db.observationPayload P observation).observationId = none
  append : db.appendObservation P identity observation appendedAt = .ok (accepted, next)
  appended : ∃ logged, Appended P identity
    (observationInput P (db.observationPayload P observation)) appendedAt db row accepted
    logged ∧ logged.SameRecords next

/-- What an import which logged a witness did to the node's own tables. -/
structure Witnessed (bundle : FederationBundle) (observedAt appendedAt : ℤ) (db : Db)
    (row : EventRow) (next : Db) : Prop where
  appended : ∃ base accepted logged, base.events = db.events ∧
    Appended P identity (witnessInput P bundle
      (makeCheckpointWitness P identity bundle observedAt)) appendedAt base row accepted
      logged
  events : next.events = db.events ++ [row]
  same : db.SameLocal next

/-- The databases which a node passes through, when the calls which it commits
and the entries which it collects meet the two conditions. -/
inductive History (commits : PendingCall → Db → ℤ → Prop) (entries : FeedEntry → Prop) :
    Db → Prop
  | init : History commits entries (Db.init P identity.nodeId)
  | quiet (db next : Db) (hbefore : History commits entries db) (hquiet : db.Quiet next) :
      History commits entries next
  | commit (db next : Db) (call : PendingCall) (appendedAt : ℤ) (row : EventRow)
      (accepted : AcceptedObject) (hbefore : History commits entries db)
      (hsound : call.Sound P db) (hmeets : commits call db appendedAt)
      (hcommit : call.admitted.commit P identity appendedAt db = .ok (accepted, next))
      (hcommitted : Committed P identity call.admitted appendedAt db row accepted next) :
      History commits entries next
  | observe (db next : Db) (sourceId : String) (languages : List String) (feed : Feed)
      (retrievedAt : ℤ) (entry : FeedEntry) (canonicalUrl : String) (appendedAt : ℤ)
      (row : EventRow) (accepted : AcceptedObject) (hbefore : History commits entries db)
      (hmeets : entries entry)
      (hobserved : Observed P identity (entryObservation P sourceId languages feed
        retrievedAt entry canonicalUrl) appendedAt db row accepted next) :
      History commits entries next
  | witness (db next : Db) (bundle : FederationBundle) (observedAt appendedAt : ℤ)
      (row : EventRow) (hbefore : History commits entries db)
      (hwitnessed : Witnessed P identity bundle observedAt appendedAt db row next) :
      History commits entries next

end

section

variable {P : Primitives} {identity : NodeIdentity P}

theorem Observed.events {observation : IngestedObservation} {appendedAt : ℤ}
    {db next : Db} {row : EventRow} {accepted : AcceptedObject}
    (h : Observed P identity observation appendedAt db row accepted next) :
    next.events = db.events ++ [row] := by
  obtain ⟨logged, happended, hsame⟩ := h.appended
  rw [hsame.events, happended.events]

/-- The history of a run whose calls and entries meet the conditions. -/
theorem run_history {commits : PendingCall → Db → ℤ → Prop} {entries : FeedEntry → Prop}
    (actions : List Action) (hcommits : CommitsMeet P identity commits actions)
    (hentries : EntriesMeet entries actions) :
    History P identity commits entries (NodeState.run P identity actions).db := by
  induction actions using List.reverseRecOn with
  | nil => exact .init
  | append_singleton actions action ih =>
      have hbefore := ih hcommits.of_append hentries.of_append
      have hpending := run_pendingSound P identity actions
      have hlast := fun index appendedAt call accepted next hindex =>
        hcommits actions index appendedAt [] call accepted next hindex
      have hentry : ∀ sourceId languages feed retrievedAt entry appendedAt,
          action = .observe sourceId languages feed retrievedAt entry appendedAt →
          entries entry := by
        rintro sourceId languages feed retrievedAt entry appendedAt rfl
        exact hentries _ _ _ _ _ _ (List.mem_append_right actions List.mem_cons_self)
      rw [NodeState.run_append_singleton]
      generalize NodeState.run P identity actions = node at hbefore hpending hlast
      have hsteps := node.step_steps identity action
      generalize node.step P identity action = next at hsteps
      cases hsteps with
      | idle => exact hbefore
      | pend => exact hbefore
      | abort => exact hbefore
      | commit index appendedAt call accepted next hcall hcommit =>
          obtain ⟨row, hcommitted⟩ := Admitted.commit_eq_ok hcommit
          exact .commit node.db next call appendedAt row accepted hbefore
            (hpending call (List.mem_of_getElem? hcall))
            (hlast index appendedAt call accepted next rfl hcall hcommit) hcommit hcommitted
      | observe sourceId languages feed retrievedAt entry appendedAt canonicalUrl
          observation accepted next hurl hobservation hnew happend =>
          obtain ⟨row, logged, happended, hsame⟩ :=
            (Db.appendObservation_logs identity observation appendedAt hnew _
              happend).appended
          subst hobservation
          exact .observe node.db next sourceId languages feed retrievedAt entry canonicalUrl
            appendedAt row accepted hbefore (hentry _ _ _ _ _ _ rfl)
            ⟨hnew, happend, logged, happended, hsame⟩
      | markSourceFetch sourceId success =>
          exact .quiet node.db _ hbefore ⟨rfl, rfl, rfl, .inr ⟨sourceId, success, rfl⟩⟩
      | importBundle bundle observedAt now appendedAt =>
          obtain ⟨hsame, hevents⟩ := importFederationBundle_frame identity bundle observedAt
            now appendedAt node.db
          rcases hevents with hkept | ⟨base, accepted, logged, hbase, happend, hnext⟩
          · exact .quiet node.db _ hbefore
              ⟨hkept, hsame.authority, hsame.content, .inl hsame.sources⟩
          · obtain ⟨row, happended⟩ := appendEvent_eq_ok happend
            refine .witness node.db _ bundle observedAt appendedAt row hbefore
              ⟨⟨base, accepted, logged, hbase, happended⟩, ?_, hsame⟩
            simp only [hnext, happended.events, hbase]

/-- The history of any run. -/
theorem run_history_any (P : Primitives) (identity : NodeIdentity P)
    (actions : List Action) :
    History P identity (fun _ _ _ => True) (fun _ => True)
      (NodeState.run P identity actions).db :=
  run_history actions (fun _ _ _ _ _ _ _ _ _ _ => trivial) fun _ _ _ _ _ _ _ => trivial

/-! ## The log -/

/-- The rows of the log are numbered, have distinct ids, and can be read. -/
structure LogSound (P : Primitives) (events : List EventRow) : Prop where
  numbered : Numbered EventRow.sequence 0 events
  distinct : (events.map EventRow.eventId).Nodup
  readable : ∀ row ∈ events, P.parse row.canonicalJson ≠ none

theorem LogSound.head_eq {db : Db} (h : LogSound P db.events) :
    db.head = db.events.length := by
  rw [db.head_eq, h.numbered.lastHash_eq, zero_add]

theorem LogSound.event {events : List EventRow} (h : LogSound P events) {row : EventRow}
    (hrow : row ∈ events) : ∃ event, originEvent P row = .ok event := by
  obtain ⟨canonical, hcanonical⟩ := Option.ne_none_iff_exists'.mp (h.readable row hrow)
  simp [originEvent, hcanonical]

/-- A new row has an id of its own. -/
theorem Appended.fresh_id {input : EventInput} {receivedAt : ℤ} {db next : Db}
    {row : EventRow} {accepted : AcceptedObject}
    (h : Appended P identity input receivedAt db row accepted next) :
    ∀ stored ∈ db.events, stored.eventId ≠ row.eventId := by
  intro stored hstored hsame
  have hclash := h.fresh stored hstored
  simp [EventRow.clashes, hsame] at hclash

theorem LogSound.append {input : EventInput} {receivedAt : ℤ} {base next : Db}
    {row : EventRow} {accepted : AcceptedObject} {events : List EventRow}
    (h : LogSound P events) (hbase : base.events = events)
    (happended : Appended P identity input receivedAt base row accepted next) :
    LogSound P (events ++ [row]) := by
  subst hbase
  have hsequence : row.sequence = base.events.length + 1 := by
    rw [happended.columns.1, h.head_eq]
  refine ⟨?_, ?_, ?_⟩
  · rw [Numbered.append]
    refine ⟨h.numbered, ?_, trivial⟩
    rw [hsequence, zero_add]
  · rw [List.map_append, List.nodup_append]
    refine ⟨h.distinct, by simp, ?_⟩
    intro stored hstored other hother
    obtain ⟨old, hold, rfl⟩ := List.mem_map.mp hstored
    simp only [List.map_cons, List.map_nil, List.mem_singleton] at hother
    rw [hother]
    exact happended.fresh_id old hold
  · intro stored hstored
    rcases List.mem_append.mp hstored with hold | hnew
    · exact h.readable stored hold
    · rw [List.mem_singleton.mp hnew]
      obtain ⟨previous, canonical, -, -, hparse, hrow⟩ := happended.row_eq
      have hjson := happended.columns.2.2.2.2.2.2
      rw [hjson, hparse]
      simp

theorem History.logSound {commits : PendingCall → Db → ℤ → Prop}
    {entries : FeedEntry → Prop} {db : Db} (h : History P identity commits entries db) :
    LogSound P db.events := by
  induction h with
  | init => exact ⟨trivial, List.nodup_nil, by intro row hrow; cases hrow⟩
  | quiet db next _ hquiet ih =>
      rw [hquiet.events]
      exact ih
  | commit db next call appendedAt row accepted _ _ _ _ hcommitted ih =>
      obtain ⟨logged, happended, -⟩ := hcommitted.appended
      rw [hcommitted.events]
      exact ih.append rfl happended
  | observe db next sourceId languages feed retrievedAt entry canonicalUrl appendedAt row
      accepted _ _ hobserved ih =>
      obtain ⟨logged, happended, -⟩ := hobserved.appended
      rw [hobserved.events]
      exact ih.append rfl happended
  | witness db next bundle observedAt appendedAt row _ hwitnessed ih =>
      obtain ⟨base, accepted, logged, hbase, happended⟩ := hwitnessed.appended
      rw [hwitnessed.events]
      exact ih.append hbase happended

end

end Commonwake
