import Commonwake.Acknowledgements
import Commonwake.Orientation

/-!
# Continuity

A returning participant reads the log page by page and acknowledges what it
has read.  The acknowledged cursor of a lineage only moves forward, stays
inside the log, and passes no event besides those which the lineage has
acknowledged itself and the events of its own acknowledgements.  The pages
leave no gap, also when the log grows while they are read.
-/

namespace Commonwake

open Outcome HashChain

section

variable (P : Primitives) (identity : NodeIdentity P)

/-- The run has accepted this acknowledgement of the lineage. -/
def AcceptsAcknowledgement (actions : List Action) (lineageId : String)
    (acknowledgement : SignedAcknowledgement) : Prop :=
  ∃ before index appendedAt after call accepted next,
    actions = before ++ .commit index appendedAt :: after ∧
    (NodeState.run P identity before).pending[index]? = some call ∧
    call.admitted = .appendAcknowledgement lineageId acknowledgement ∧
    call.admitted.commit P identity appendedAt (NodeState.run P identity before).db =
      .ok (accepted, next)

/-- The events inside the window of an orientation. -/
def OrientationBundle.page (bundle : OrientationBundle) (db : Db) : List EventRow :=
  db.events.filter fun row => inWindow bundle.fromCursor bundle.nextCursor row.sequence

/-- The records of an orientation are chosen among these events. -/
def OrientationBundle.Shows (bundle : OrientationBundle) (lineageId : String)
    (rows : List EventRow) : Prop :=
  ∃ views : List EventView, rows.map (eventView P) = views.map .ok ∧
    bundle.selfHistory = (views.filter fun view =>
      view.kind != "acknowledgement" && view.lineageId == some lineageId) ∧
    bundle.mentions = (views.filter fun view =>
      view.kind != "acknowledgement" && view.targets.contains lineageId) ∧
    bundle.corrections = views.filter fun view => view.kind == "correction" &&
      (view.lineageId == some lineageId || view.targets.contains lineageId)

/-- What a reader has seen who asked for one page after the other, each at the
cursor where the page before it ended: the first cursor, the number of pages
before the last one, the run up to the last page, the events of all pages, and
the last page.  The node may do anything between two pages. -/
inductive Follows (lineageId : String) :
    ℤ → ℕ → List Action → List EventRow → OrientationBundle → Prop
  | first (since : Option ℤ) (now : ℤ) (actions : List Action) (bundle : OrientationBundle)
      (horient : orient P identity lineageId since now (NodeState.run P identity actions).db =
        .ok bundle) :
      Follows lineageId bundle.fromCursor 0 actions
        (bundle.page (NodeState.run P identity actions).db) bundle
  | next (start : ℤ) (pages : ℕ) (actions rest : List Action) (visited : List EventRow)
      (last bundle : OrientationBundle) (now : ℤ)
      (hread : Follows lineageId start pages actions visited last)
      (hmore : last.hasMore = true)
      (horient : orient P identity lineageId (some last.nextCursor) now
        (NodeState.run P identity (actions ++ rest)).db = .ok bundle) :
      Follows lineageId start (pages + 1) (actions ++ rest)
        (visited ++ bundle.page (NodeState.run P identity (actions ++ rest)).db) bundle

end

section

variable {P : Primitives} {identity : NodeIdentity P} {lineageId : String}

/-! ## The cursor of a lineage -/

theorem AcceptsAcknowledgement.append {actions : List Action}
    {acknowledgement : SignedAcknowledgement}
    (h : AcceptsAcknowledgement P identity actions lineageId acknowledgement)
    (rest : List Action) :
    AcceptsAcknowledgement P identity (actions ++ rest) lineageId acknowledgement := by
  obtain ⟨before, index, appendedAt, after, call, accepted, next, rfl, hcall, hadmitted,
    hcommit⟩ := h
  exact ⟨before, index, appendedAt, after ++ rest, call, accepted, next, by simp, hcall,
    hadmitted, hcommit⟩

/-- One action either keeps the cursor of a lineage, or commits an
acknowledgement of it. -/
theorem NodeState.step_cursor (identity : NodeIdentity P) (node : NodeState)
    (action : Action) (lineageId : String) :
    ((node.step P identity action).db.lastAcknowledgedCursor lineageId =
        node.db.lastAcknowledgedCursor lineageId ∧
      ((node.step P identity action).db.events = node.db.events ∨
        ∃ row, (node.step P identity action).db.events = node.db.events ++ [row] ∧
          row.sequence = node.db.head + 1)) ∨
    ∃ index appendedAt call acknowledgement row accepted,
      action = .commit index appendedAt ∧ node.pending[index]? = some call ∧
      call.admitted = .appendAcknowledgement lineageId acknowledgement ∧
      call.admitted.commit P identity appendedAt node.db =
        .ok (accepted, (node.step P identity action).db) ∧
      Acknowledged P identity lineageId acknowledgement appendedAt node.db row accepted
        (node.step P identity action).db := by
  have hsteps := node.step_steps identity action
  generalize node.step P identity action = after at hsteps
  cases hsteps with
  | idle => exact .inl ⟨rfl, .inl rfl⟩
  | pend => exact .inl ⟨rfl, .inl rfl⟩
  | abort => exact .inl ⟨rfl, .inl rfl⟩
  | commit index appendedAt call accepted next hcall hcommit =>
      obtain ⟨row, hcommitted⟩ := Admitted.commit_eq_ok hcommit
      obtain ⟨logged, happended, -⟩ := hcommitted.appended
      have hlogged : ∃ row, next.events = node.db.events ++ [row] ∧
          row.sequence = node.db.head + 1 :=
        ⟨row, hcommitted.events, happended.columns.1⟩
      by_cases hack : ∃ other acknowledgement,
          call.admitted = .appendAcknowledgement other acknowledgement
      · obtain ⟨other, acknowledgement, hadmitted⟩ := hack
        have happend := hcommit
        rw [hadmitted] at happend
        obtain ⟨stored, hacknowledged⟩ := Db.appendAcknowledgement_eq_ok happend
        by_cases hother : lineageId = other
        · subst hother
          exact .inr ⟨index, appendedAt, call, acknowledgement, stored, accepted, rfl, hcall,
            hadmitted, hcommit, hacknowledged⟩
        · exact .inl ⟨hacknowledged.others lineageId hother, .inr hlogged⟩
      · have htable := hcommitted.effect.acknowledgements
          fun other acknowledgement hadmitted => hack ⟨_, _, hadmitted⟩
        exact .inl ⟨Db.lastAcknowledgedCursor_congr htable lineageId, .inr hlogged⟩
  | observe sourceId languages feed retrievedAt entry appendedAt canonicalUrl observation
      accepted next hurl hobservation hnew happend =>
      obtain ⟨row, logged, happended, hsame⟩ :=
        (Db.appendObservation_logs identity observation appendedAt hnew _ happend).appended
      have hevents : next.events = node.db.events ++ [row] := by
        rw [hsame.events, happended.events]
      have htable := congrArg AuthorityTables.acknowledgements
        (Db.appendObservation_authority happend)
      exact .inl ⟨Db.lastAcknowledgedCursor_congr htable lineageId,
        .inr ⟨row, hevents, happended.columns.1⟩⟩
  | markSourceFetch sourceId success => exact .inl ⟨rfl, .inl rfl⟩
  | importBundle bundle observedAt now appendedAt =>
      obtain ⟨hsame, hevents⟩ := importFederationBundle_frame identity bundle observedAt now
        appendedAt node.db
      have htable := congrArg AuthorityTables.acknowledgements hsame.authority
      refine .inl ⟨Db.lastAcknowledgedCursor_congr htable lineageId, ?_⟩
      rcases hevents with hkept | ⟨base, accepted, logged, hbase, happend, hnext⟩
      · exact .inl hkept
      · obtain ⟨row, happended⟩ := appendEvent_eq_ok happend
        have hhead : base.head = node.db.head := by
          rw [base.head_eq, node.db.head_eq, hbase]
        refine .inr ⟨row, ?_, ?_⟩
        · rw [hnext, happended.events, hbase]
        · rw [happended.columns.1, hhead]

/-- The cursor does not move backward. -/
theorem NodeState.cursor_le_step (identity : NodeIdentity P) (node : NodeState)
    (action : Action) (lineageId : String) :
    node.db.lastAcknowledgedCursor lineageId ≤
      (node.step P identity action).db.lastAcknowledgedCursor lineageId := by
  rcases node.step_cursor identity action lineageId with
    ⟨hsame, -⟩ | ⟨index, appendedAt, call, acknowledgement, row, accepted, -, -, -, -, hack⟩
  · rw [hsame]
  · have hforward := hack.forward
    have hinLog := hack.inLog
    rw [hack.cursor]
    split <;> omega

theorem run_cursor_le (actions rest : List Action) (lineageId : String) :
    (NodeState.run P identity actions).db.lastAcknowledgedCursor lineageId ≤
      (NodeState.run P identity (actions ++ rest)).db.lastAcknowledgedCursor lineageId := by
  induction rest using List.reverseRecOn with
  | nil => rw [List.append_nil]
  | append_singleton rest action ih =>
      rw [← List.append_assoc, NodeState.run_append_singleton]
      exact ih.trans (NodeState.cursor_le_step identity _ action lineageId)

/-- Where the cursor of a lineage can be: the events behind it are within reach
of what the lineage has signed, or the events of its acknowledgements. -/
structure Continuous (P : Primitives) (identity : NodeIdentity P) (actions : List Action)
    (lineageId : String) : Prop where
  inLog : (NodeState.run P identity actions).db.lastAcknowledgedCursor lineageId ≤
    (NodeState.run P identity actions).db.head
  own : ∀ row ∈ (NodeState.run P identity actions).db.events,
    (∀ acknowledgement, AcceptsAcknowledgement P identity actions lineageId acknowledgement →
      acknowledgement.cursor < row.sequence) →
    row.sequence ≤ (NodeState.run P identity actions).db.lastAcknowledgedCursor lineageId →
    row.kind = "acknowledgement" ∧ row.lineageId = some lineageId

/-- Every action keeps the lineage continuous. -/
theorem Continuous.step {actions : List Action}
    (h : Continuous P identity actions lineageId) (action : Action) :
    Continuous P identity (actions ++ [action]) lineageId := by
  have hstep := (NodeState.run P identity actions).step_cursor identity action lineageId
  have hsound := (run_history_any P identity actions).logSound
  obtain ⟨hinLog, hown⟩ := h
  have hnext : NodeState.run P identity (actions ++ [action]) =
      (NodeState.run P identity actions).step P identity action :=
    NodeState.run_append_singleton actions action
  refine ⟨?_, ?_⟩
  · rw [hnext]
    rcases hstep with ⟨hsame, hkept | ⟨row, hevents, hsequence⟩⟩ |
      ⟨index, appendedAt, call, acknowledgement, row, accepted, -, -, -, -, hack⟩
    · rw [hsame, Db.head_eq, hkept, ← Db.head_eq]
      exact hinLog
    · rw [hsame, Db.head_eq, hevents, lastHash_append_singleton, hsequence]
      omega
    · obtain ⟨logged, happended⟩ := hack.appended
      have hhead := happended.head_next hack.events
      have hbound := hack.inLog
      rw [hhead, hack.cursor]
      split <;> omega
  · intro row hrow hsigned hreached
    rw [hnext] at hrow hreached
    have hold : ∀ acknowledgement,
        AcceptsAcknowledgement P identity actions lineageId acknowledgement →
        acknowledgement.cursor < row.sequence :=
      fun acknowledgement haccepted => hsigned acknowledgement (haccepted.append [action])
    rcases hstep with ⟨hsame, hkept | ⟨new, hevents, hsequence⟩⟩ |
      ⟨index, appendedAt, call, acknowledgement, new, accepted, rfl, hcall, hadmitted,
        hcommit, hack⟩
    · rw [hsame] at hreached
      rw [hkept] at hrow
      exact hown row hrow hold hreached
    · rw [hsame] at hreached
      rw [hevents] at hrow
      rcases List.mem_append.mp hrow with hmem | hmem
      · exact hown row hmem hold hreached
      · rw [List.mem_singleton.mp hmem] at hreached
        omega
    · -- The lineage has signed the cursor, so that only the new event is left.
      have haccepted : acknowledgement.cursor < row.sequence :=
        hsigned acknowledgement ⟨actions, index, appendedAt, [], call, accepted, _, rfl,
          hcall, hadmitted, hcommit⟩
      rw [hack.cursor] at hreached
      rw [hack.events] at hrow
      obtain ⟨logged, happended⟩ := hack.appended
      rcases List.mem_append.mp hrow with hmem | hmem
      · have hbounds := (hsound.numbered.mem_bounds hmem).2
        rw [zero_add, ← hsound.head_eq] at hbounds
        split at hreached <;> omega
      · rw [List.mem_singleton.mp hmem]
        exact ⟨happended.columns.2.1, happended.columns.2.2.1⟩

theorem run_continuous (P : Primitives) (identity : NodeIdentity P) (actions : List Action)
    (lineageId : String) :
    Continuous P identity actions lineageId := by
  induction actions using List.reverseRecOn with
  | nil =>
      refine ⟨le_refl 0, ?_⟩
      intro row hrow
      cases hrow
  | append_singleton actions action ih => exact ih.step action

/-! ## One page -/

theorem eventView_sequence {row : EventRow} {view : EventView}
    (h : eventView P row = .ok view) : view.sequence = row.sequence := by
  simp only [eventView, bind_eq_ok, pure_eq_ok, Except.ok.injEq] at h
  obtain ⟨_, -, _, -, _, -, _, -, rfl⟩ := h
  rfl

theorem pageEnd_eq {fromCursor : ℤ} {rows : List EventRow} {views : List EventView}
    (hviews : rows.map (eventView P) = views.map .ok)
    (hnumbered : Numbered EventRow.sequence fromCursor rows) :
    pageEnd fromCursor views = fromCursor + rows.length := by
  have hsequences : views.map EventView.sequence = rows.map EventRow.sequence := by
    clear hnumbered
    induction rows generalizing views with
    | nil =>
        cases views with
        | nil => rfl
        | cons view rest => simp at hviews
    | cons row rows ih =>
        cases views with
        | nil => simp at hviews
        | cons view rest =>
            simp only [List.map_cons, List.cons.injEq] at hviews ⊢
            exact ⟨eventView_sequence hviews.1, ih hviews.2⟩
  have hpage : pageEnd fromCursor views = lastHash EventView.sequence fromCursor views := by
    unfold pageEnd lastHash
    cases views.getLast? <;> rfl
  rw [hpage, lastHash_eq_map, hsequences, ← lastHash_eq_map, hnumbered.lastHash_eq]

/-- What a successful orientation shows. -/
structure Oriented (P : Primitives) (lineageId : String) (since : Option ℤ) (db : Db)
    (bundle : OrientationBundle) : Prop where
  fromCursor : bundle.fromCursor = since.getD (db.lastAcknowledgedCursor lineageId)
  nonneg : 0 ≤ bundle.fromCursor
  page : bundle.page db = (db.events.drop bundle.fromCursor.toNat).take maxOrientationPage
  nextCursor : bundle.nextCursor = bundle.fromCursor + (bundle.page db).length
  hasMore : bundle.hasMore =
    decide (maxOrientationPage < (db.events.drop bundle.fromCursor.toNat).length)
  shows : bundle.Shows P lineageId (bundle.page db)

theorem orient_eq_ok {since : Option ℤ} {now : ℤ} {db : Db} {bundle : OrientationBundle}
    (hsound : LogSound P db.events)
    (h : orient P identity lineageId since now db = .ok bundle) :
    Oriented P lineageId since db bundle := by
  unfold orient at h
  simp only [bind_eq_ok, rejectIf_eq_ok, not_lt, pure_eq_ok, Except.ok.injEq] at h
  obtain ⟨lineage, -, -, hnonneg, views, hviews, worldChanges, -, federated, -, checkpoint, -,
    commitments, -, rfl⟩ := h
  generalize hfrom : since.getD (db.lastAcknowledgedCursor lineageId) = fromCursor at *
  have hcast : fromCursor = 0 + (fromCursor.toNat : ℤ) := by omega
  have hafter : (db.events.filter fun row => decide (fromCursor < row.sequence)) =
      db.events.drop fromCursor.toNat := by
    rw [← hsound.numbered.filter_gt, ← hcast]
  have hnumbered : Numbered EventRow.sequence fromCursor
      (db.events.drop fromCursor.toNat) := by
    have hdrop := hsound.numbered.drop fromCursor.toNat
    rw [← hcast] at hdrop
    exact hdrop
  unfold Db.eventsAfter at hviews
  rw [hafter, traverse_eq_ok] at hviews
  have hpage : ((db.events.drop fromCursor.toNat).take maxOrientationPage).map (eventView P) =
      (views.take maxOrientationPage).map .ok := by
    have htake := congrArg (List.take maxOrientationPage) hviews
    rw [← List.map_take, ← List.map_take, List.take_take, min_eq_left (by omega)] at htake
    exact htake
  have hlength : views.length =
      min (maxOrientationPage + 1) (db.events.drop fromCursor.toNat).length := by
    have hlengths := congrArg List.length hviews
    rw [List.length_map, List.length_map, List.length_take] at hlengths
    exact hlengths.symm
  have hend := pageEnd_eq hpage (hnumbered.take maxOrientationPage)
  -- The window of the bundle holds exactly the rows of the page.
  have hwindow : (db.events.filter fun row =>
        inWindow fromCursor (pageEnd fromCursor (views.take maxOrientationPage))
          row.sequence) =
      (db.events.drop fromCursor.toNat).take maxOrientationPage := by
    have hfilter := hsound.numbered.filter_window fromCursor.toNat
      ((db.events.drop fromCursor.toNat).take maxOrientationPage).length
    have hcut : (db.events.drop fromCursor.toNat).take
          ((db.events.drop fromCursor.toNat).take maxOrientationPage).length =
        (db.events.drop fromCursor.toNat).take maxOrientationPage := by
      rw [List.length_take, ← List.take_take, List.take_length]
    rw [← hcast, hcut] at hfilter
    rw [← hfilter]
    refine List.filter_congr fun row _ => ?_
    rw [hend]
    rfl
  refine ⟨hfrom.symm, hnonneg, hwindow, ?_, ?_, ?_⟩
  · simp only [OrientationBundle.page, hwindow]
    exact hend
  · simp only [hlength, decide_eq_decide]
    omega
  · simp only [OrientationBundle.page, hwindow]
    exact ⟨_, hpage, rfl, rfl, rfl⟩

/-! ## All pages -/

/-- The log only grows. -/
theorem run_events_append (actions rest : List Action) :
    ∃ added, (NodeState.run P identity (actions ++ rest)).db.events =
      (NodeState.run P identity actions).db.events ++ added := by
  induction rest using List.reverseRecOn with
  | nil => exact ⟨[], by simp⟩
  | append_singleton rest action ih =>
      obtain ⟨added, hadded⟩ := ih
      rw [← List.append_assoc, NodeState.run_append_singleton]
      rcases (NodeState.run P identity (actions ++ rest)).step_cursor identity action "" with
        ⟨-, hkept | ⟨row, hevents, -⟩⟩ |
        ⟨index, appendedAt, call, acknowledgement, row, accepted, -, -, -, -, hack⟩
      · exact ⟨added, by rw [hkept, hadded]⟩
      · exact ⟨added ++ [row], by rw [hevents, hadded, List.append_assoc]⟩
      · exact ⟨added ++ [row], by rw [hack.events, hadded, List.append_assoc]⟩

/-- The pages cover the log from the first cursor to the last one. -/
structure Covers (db : Db) (start : ℤ) (pages : ℕ) (visited : List EventRow)
    (bundle : OrientationBundle) : Prop where
  nonneg : 0 ≤ start
  rows : visited = (db.events.drop start.toNat).take visited.length
  nextCursor : bundle.nextCursor = start + visited.length
  earlier : maxOrientationPage * pages ≤ visited.length
  full : bundle.hasMore = true → maxOrientationPage * (pages + 1) ≤ visited.length
  hasMore : bundle.hasMore =
    decide (visited.length < (db.events.drop start.toNat).length)

theorem Oriented.covers {since : Option ℤ} {db : Db} {bundle : OrientationBundle}
    (h : Oriented P lineageId since db bundle) :
    Covers db bundle.fromCursor 0 (bundle.page db) bundle := by
  have hlength : (bundle.page db).length =
      min maxOrientationPage (db.events.drop bundle.fromCursor.toNat).length := by
    rw [h.page, List.length_take]
  refine ⟨h.nonneg, ?_, h.nextCursor, by omega, ?_, ?_⟩
  · rw [hlength, ← List.take_take, List.take_length]
    exact h.page
  · intro hmore
    rw [h.hasMore, decide_eq_true_iff] at hmore
    omega
  · rw [h.hasMore, decide_eq_decide]
    omega

/-- The next page, also of a longer log, continues the ones before it. -/
theorem Covers.next {db after : Db} {start : ℤ} {pages : ℕ} {visited added : List EventRow}
    {last bundle : OrientationBundle} (h : Covers db start pages visited last)
    (hmore : last.hasMore = true) (hadded : after.events = db.events ++ added)
    (horiented : Oriented P lineageId (some last.nextCursor) after bundle) :
    Covers after start (pages + 1) (visited ++ bundle.page after) bundle := by
  have hshort := h.hasMore
  rw [hmore, eq_comm, decide_eq_true_iff] at hshort
  have hstart : start.toNat ≤ db.events.length := by
    rw [List.length_drop] at hshort
    omega
  have hrest : after.events.drop start.toNat = db.events.drop start.toNat ++ added := by
    rw [hadded, List.drop_append_of_le_length hstart]
  have hvisited : visited = (after.events.drop start.toNat).take visited.length := by
    rw [hrest, List.take_append_of_le_length hshort.le]
    exact h.rows
  have hnonneg := h.nonneg
  have hfrom : bundle.fromCursor = start + visited.length := by
    rw [horiented.fromCursor, Option.getD_some, h.nextCursor]
  have hpage : bundle.page after = ((after.events.drop start.toNat).drop visited.length).take
      maxOrientationPage := by
    rw [horiented.page, hfrom, List.drop_drop]
    congr 2
    omega
  have hremaining : (after.events.drop bundle.fromCursor.toNat).length =
      (after.events.drop start.toNat).length - visited.length := by
    rw [hfrom, List.length_drop, List.length_drop]
    omega
  have hlength : (bundle.page after).length = min maxOrientationPage
      ((after.events.drop start.toNat).length - visited.length) := by
    rw [hpage, List.length_take, List.length_drop]
  have hfull := h.full hmore
  have hlater : visited.length < (after.events.drop start.toNat).length := by
    rw [hrest, List.length_append]
    omega
  refine ⟨h.nonneg, ?_, ?_, ?_, ?_, ?_⟩
  · have hjoined : visited ++ bundle.page after =
        (after.events.drop start.toNat).take (visited.length + maxOrientationPage) := by
      rw [hpage, List.take_add, ← hvisited]
    have hcut : (visited ++ bundle.page after).length =
        min (visited.length + maxOrientationPage)
          (after.events.drop start.toNat).length := by
      rw [hjoined, List.length_take]
    rw [hcut, ← List.take_take, List.take_length]
    exact hjoined
  · rw [horiented.nextCursor, hfrom, List.length_append]
    push_cast
    ring
  · rw [List.length_append]
    omega
  · intro hlast
    rw [horiented.hasMore, decide_eq_true_iff, hremaining] at hlast
    rw [List.length_append, hlength]
    unfold maxOrientationPage at *
    omega
  · rw [horiented.hasMore, hremaining, decide_eq_decide, List.length_append, hlength]
    omega

theorem Follows.covers {start : ℤ} {pages : ℕ} {actions : List Action}
    {visited : List EventRow} {bundle : OrientationBundle}
    (h : Follows P identity lineageId start pages actions visited bundle) :
    Covers (NodeState.run P identity actions).db start pages visited bundle := by
  induction h with
  | first since now actions bundle horient =>
      exact (orient_eq_ok (run_history_any P identity actions).logSound horient).covers
  | next start pages actions rest visited last bundle now _ hmore horient ih =>
      obtain ⟨added, hadded⟩ := run_events_append (P := P) actions rest
      exact ih.next hmore hadded
        (orient_eq_ok (run_history_any P identity (actions ++ rest)).logSound horient)

/-- The cursor of a lineage, and the pages which it reads. -/
theorem run_continuity (P : Primitives) (identity : NodeIdentity P) (actions : List Action)
    (lineageId : String) :
    (∀ before after, actions = before ++ after →
      (NodeState.run P identity before).db.lastAcknowledgedCursor lineageId ≤
        (NodeState.run P identity actions).db.lastAcknowledgedCursor lineageId) ∧
    (NodeState.run P identity actions).db.lastAcknowledgedCursor lineageId ≤
      (NodeState.run P identity actions).db.head ∧
    (∀ row ∈ (NodeState.run P identity actions).db.events,
      (∀ acknowledgement,
        AcceptsAcknowledgement P identity actions lineageId acknowledgement →
          acknowledgement.cursor < row.sequence) →
      row.sequence ≤ (NodeState.run P identity actions).db.lastAcknowledgedCursor lineageId →
      row.kind = "acknowledgement" ∧ row.lineageId = some lineageId) ∧
    (∀ since now bundle,
      orient P identity lineageId since now (NodeState.run P identity actions).db =
        .ok bundle →
      bundle.fromCursor = since.getD
        ((NodeState.run P identity actions).db.lastAcknowledgedCursor lineageId) ∧
      bundle.Shows P lineageId (bundle.page (NodeState.run P identity actions).db)) ∧
    ∀ start pages visited bundle,
      Follows P identity lineageId start pages actions visited bundle →
      maxOrientationPage * pages ≤ visited.length ∧
      (bundle.hasMore = false →
        visited = (NodeState.run P identity actions).db.events.filter fun row =>
          decide (start < row.sequence)) := by
  have hcontinuous := run_continuous P identity actions lineageId
  have hsound := (run_history_any P identity actions).logSound
  refine ⟨?_, hcontinuous.inLog, hcontinuous.own, ?_, ?_⟩
  · rintro before after rfl
    exact run_cursor_le before after lineageId
  · intro since now bundle horient
    have horiented := orient_eq_ok hsound horient
    exact ⟨horiented.fromCursor, horiented.shows⟩
  · intro start pages visited bundle hfollows
    have hcovers := hfollows.covers
    refine ⟨hcovers.earlier, ?_⟩
    intro hlast
    have hshort := hcovers.hasMore
    rw [hlast, eq_comm, decide_eq_false_iff_not, not_lt] at hshort
    have hcast : start = 0 + (start.toNat : ℤ) := by
      have hnonneg := hcovers.nonneg
      omega
    have hafter := hsound.numbered.filter_gt start.toNat
    rw [← hcast] at hafter
    rw [hafter, hcovers.rows, List.take_of_length_le hshort]

end

namespace Sample

/-- One page from the start shows the whole log of the sample run. -/
instance orient_acknowledgedRun : Fact (
    (orient library origin (lineageOf [2]) (some 0) 0
        (NodeState.run library origin acknowledgedRun).db).map
      (fun bundle => (bundle.fromCursor, bundle.hasMore)) = .ok (0, false)) :=
  ⟨by decide +kernel⟩

theorem run_continuity_acknowledgedRun : ∃ bundle,
    Follows library origin (lineageOf [2]) 0 0 acknowledgedRun
      (bundle.page (NodeState.run library origin acknowledgedRun).db) bundle ∧
    bundle.page (NodeState.run library origin acknowledgedRun).db =
      (NodeState.run library origin acknowledgedRun).db.events.filter fun row =>
        decide (0 < row.sequence) := by
  have hpage := orient_acknowledgedRun.out
  cases horient : orient library origin (lineageOf [2]) (some 0) 0
      (NodeState.run library origin acknowledgedRun).db with
  | error e =>
      rw [horient] at hpage
      cases hpage
  | ok bundle =>
      rw [horient] at hpage
      simp only [Except.map, Except.ok.injEq, Prod.mk.injEq] at hpage
      have hfollows := Follows.first (some 0) 0 acknowledgedRun bundle horient
      rw [hpage.1] at hfollows
      obtain ⟨-, -, -, -, hpages⟩ :=
        run_continuity library origin acknowledgedRun (lineageOf [2])
      exact ⟨bundle, hfollows, (hpages _ _ _ _ hfollows).2 hpage.2⟩

end Sample

end Commonwake
