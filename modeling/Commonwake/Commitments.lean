import Commonwake.Continuity
import Commonwake.CommonsRows

/-!
# Open commitments

A lineage is shown its commitments until an event supersedes them.  The events
which a contribution supersedes are not checked against their authors, so that
any lineage can close the commitments of another.
-/

namespace Commonwake

open Outcome Table

/-! ## A filtered page -/

theorem take_filter_eq_take {α : Type} {p : α → Bool} {l : List α} {n : ℕ}
    (h : ∀ a ∈ l.take n, p a = true) : (l.filter p).take n = l.take n := by
  induction l generalizing n with
  | nil => rfl
  | cons a rest ih =>
      cases n with
      | zero => simp
      | succ n =>
          rw [List.take_succ_cons, List.forall_mem_cons] at h
          rw [List.filter_cons_of_pos h.1, List.take_succ_cons, List.take_succ_cons, ih h.2]

/-- What stays in the list stays on the page. -/
theorem mem_take_filter {α : Type} {p : α → Bool} {l : List α} {n : ℕ} {a : α}
    (hmem : a ∈ l.take n) (ha : p a = true) : a ∈ (l.filter p).take n := by
  induction l generalizing n with
  | nil => simp at hmem
  | cons first rest ih =>
      cases n with
      | zero => simp at hmem
      | succ n =>
          rw [List.take_succ_cons, List.mem_cons] at hmem
          by_cases hfirst : p first = true
          · rw [List.filter_cons_of_pos hfirst, List.take_succ_cons, List.mem_cons]
            exact hmem.imp_right ih
          · rw [List.filter_cons_of_neg hfirst]
            rcases hmem with rfl | hrest
            · exact absurd ha hfirst
            · exact List.mem_of_mem_take (i := n) (by
                rw [List.take_take, Nat.min_eq_left (Nat.le_succ n)]
                exact ih hrest)

section

variable (P : Primitives)

/-- The events which an event supersedes. -/
def EventRow.supersedes (row : EventRow) : List String :=
  ((jsonEachText P row.supersedesJson).toOption).getD []

/-- The commitments of a lineage which no event supersedes. -/
def Db.openCommitmentRows (db : Db) (lineageId : String) : List EventRow :=
  db.events.filter fun row => row.lineageId == some lineageId && row.kind == "commitment" &&
    !db.events.any fun later => (later.supersedes P).contains row.eventId

def Db.SupersedesReadable (db : Db) : Prop :=
  ∀ row ∈ db.events, jsonEachText P row.supersedesJson = .ok (row.supersedes P)

end

section

variable {P : Primitives} {identity : NodeIdentity P} {db next : Db} {lineageId : String}

theorem jsonEachText_strings (texts : List String) :
    jsonEachText P (P.toText (Serde.strings texts)) = .ok texts := by
  have htexts : (texts.map Json.string).filterMap Serde.string = texts := by
    rw [List.filterMap_map]
    exact List.filterMap_some
  unfold jsonEachText
  rw [P.parse_toText, okOr_some, ok_bind]
  simp only [Serde.strings, htexts, pure_eq_ok]

theorem Appended.supersedes {input : EventInput} {receivedAt : ℤ} {row : EventRow}
    {accepted : AcceptedObject}
    (h : Appended P identity input receivedAt db row accepted next) :
    jsonEachText P row.supersedesJson = .ok input.supersedes ∧
      row.supersedes P = input.supersedes := by
  obtain ⟨_, _, -, -, -, hrow⟩ := h.row_eq
  have hread : jsonEachText P row.supersedesJson = .ok input.supersedes := by
    rw [hrow]
    exact jsonEachText_strings input.supersedes
  refine ⟨hread, ?_⟩
  unfold EventRow.supersedes
  rw [hread]
  rfl

theorem run_supersedesReadable (identity : NodeIdentity P) (actions : List Action) :
    (NodeState.run P identity actions).db.SupersedesReadable P := by
  refine run_advance_induction (Db.SupersedesReadable P) ?_ ?_ actions
  · intro row hrow
    cases hrow
  · intro db next hreadable hadvance row hrow
    rcases hadvance.events with hkept | ⟨_, _, _, added, _, _, -, happended, hevents⟩
    · rw [hkept] at hrow
      exact hreadable row hrow
    · rw [hevents] at hrow
      rcases List.mem_append.mp hrow with hold | hnew
      · exact hreadable row hold
      · rw [List.mem_singleton.mp hnew, happended.supersedes.2]
        exact happended.supersedes.1

/-- The query for the open commitments. -/
theorem Db.openCommitments_eq (h : db.SupersedesReadable P) (lineageId : String) :
    db.openCommitments P lineageId =
      Outcome.traverse (eventView P) ((db.openCommitmentRows P lineageId).take 100) := by
  have hsuperseded : ∀ eventId, db.isSuperseded P eventId =
      .ok (db.events.any fun later => (later.supersedes P).contains eventId) := by
    intro eventId
    have hfilter : filterOk (columnHolds P EventRow.supersedesJson eventId) db.events =
        .ok (db.events.filter fun later => (later.supersedes P).contains eventId) := by
      apply filterOk_of_ok
      intro later hlater
      rw [columnHolds, h later hlater, ok_bind, pure_eq_ok]
    rw [Db.isSuperseded, hfilter, ok_bind, pure_eq_ok]
    congr 1
    rw [Bool.eq_iff_iff]
    simp
  have hopen : filterOk
      (fun row : EventRow => do pure (!(← db.isSuperseded P row.eventId)))
      (db.events.filter fun row =>
        row.lineageId == some lineageId && row.kind == "commitment") =
    .ok ((db.events.filter fun row =>
        row.lineageId == some lineageId && row.kind == "commitment").filter fun row =>
      !db.events.any fun later => (later.supersedes P).contains row.eventId) := by
    apply filterOk_of_ok
    intro row _
    rw [hsuperseded, ok_bind, pure_eq_ok]
  rw [Db.openCommitments, hopen, ok_bind, List.filter_filter]
  unfold Db.openCommitmentRows
  congr 3
  funext row
  rw [Bool.and_comm]

/-- New events close commitments, and may be commitments themselves. -/
theorem Db.openCommitmentRows_append {added : List EventRow}
    (hevents : next.events = db.events ++ added) :
    next.openCommitmentRows P lineageId =
      ((db.openCommitmentRows P lineageId).filter fun row =>
        !added.any fun later => (later.supersedes P).contains row.eventId) ++
      added.filter fun row => row.lineageId == some lineageId && row.kind == "commitment" &&
        !next.events.any fun later => (later.supersedes P).contains row.eventId := by
  unfold Db.openCommitmentRows
  rw [hevents, List.filter_append, List.filter_filter]
  congr 2
  funext row
  rw [List.any_append, Bool.not_or, ← Bool.and_assoc, ← Bool.and_assoc, Bool.and_comm,
    ← Bool.and_assoc, ← Bool.and_assoc]

/-! ## Closing commitments -/

/-- The views of the query, and the rows from which they were read. -/
theorem Db.openCommitments_rows {views : List EventView} (h : db.SupersedesReadable P)
    (hviews : db.openCommitments P lineageId = .ok views) :
    ((db.openCommitmentRows P lineageId).take 100).map (eventView P) = views.map .ok := by
  rw [Db.openCommitments_eq h, traverse_eq_ok] at hviews
  exact hviews

theorem eventView_eventId {row : EventRow} {view : EventView}
    (h : eventView P row = .ok view) : view.eventId = row.eventId := by
  simp only [eventView, bind_eq_ok, pure_eq_ok, Except.ok.injEq] at h
  obtain ⟨_, -, _, -, _, -, _, -, rfl⟩ := h
  rfl

/-- The views of a page have the ids of its rows. -/
theorem map_eventView_eventId {rows : List EventRow} {views : List EventView}
    (h : rows.map (eventView P) = views.map .ok) :
    rows.map (·.eventId) = views.map (·.eventId) := by
  induction rows generalizing views with
  | nil =>
      rw [List.map_nil, eq_comm, List.map_eq_nil_iff] at h
      rw [h]
      rfl
  | cons row rest ih =>
      cases views with
      | nil => cases h
      | cons view others =>
          rw [List.map_cons, List.map_cons, List.cons.injEq] at h
          rw [List.map_cons, List.map_cons, ih h.2, eventView_eventId h.1]

/-- The commitments after a contribution of another lineage. -/
theorem Db.openCommitmentRows_contribution {author : String}
    {contribution : SignedContribution} {appendedAt : ℤ} {accepted : AcceptedObject}
    (hcommit : db.appendContribution P identity author contribution appendedAt =
      .ok (accepted, next)) (hother : author ≠ lineageId) :
    ∃ row, next.events = db.events ++ [row] ∧
      jsonEachText P row.supersedesJson = .ok (row.supersedes P) ∧
      next.openCommitmentRows P lineageId = (db.openCommitmentRows P lineageId).filter
        fun row => !contribution.supersedes.contains row.eventId := by
  have hadmitted : (Admitted.appendContribution author contribution).commit P identity
      appendedAt db = .ok (accepted, next) := hcommit
  obtain ⟨row, hcommitted⟩ := Admitted.commit_eq_ok hadmitted
  obtain ⟨logged, happended, -⟩ := hcommitted.appended
  obtain ⟨hread, hsupersedes⟩ := happended.supersedes
  have hlineage : row.lineageId = some author := happended.columns.2.2.1
  refine ⟨row, hcommitted.events, hsupersedes.symm ▸ hread, ?_⟩
  have hnot : (row.lineageId == some lineageId) = false := by
    rw [hlineage, beq_eq_false_iff_ne]
    exact fun heq => hother (Option.some.inj heq)
  rw [Db.openCommitmentRows_append hcommitted.events, List.filter_cons_of_neg (by
    rw [hnot, Bool.false_and, Bool.false_and]
    exact Bool.false_ne_true), List.filter_nil, List.append_nil]
  refine List.filter_congr fun stored _ => ?_
  rw [List.any_cons, List.any_nil, Bool.or_false, hsupersedes]
  rfl

/-- The commitments of a lineage are in the hands of others exactly as far as
these supersede them. -/
theorem run_commitments (actions : List Action) {views : List EventView}
    (hviews : (NodeState.run P identity actions).db.openCommitments P lineageId = .ok views) :
    (∀ author contribution appendedAt accepted next, author ≠ lineageId →
      (NodeState.run P identity actions).db.appendContribution P identity author contribution
        appendedAt = .ok (accepted, next) →
      (next.openCommitments P lineageId = .ok views ↔
        ∀ view ∈ views, view.eventId ∉ contribution.supersedes)) ∧
    (∀ rest later, (NodeState.run P identity (actions ++ rest)).db.openCommitments P
        lineageId = .ok later →
      ∀ view ∈ views, view ∉ later →
      (∀ row ∈ (NodeState.run P identity (actions ++ rest)).db.events.drop
          (NodeState.run P identity actions).db.events.length,
        row.lineageId ≠ some lineageId → view.eventId ∉ row.supersedes P) →
      ∃ row ∈ (NodeState.run P identity (actions ++ rest)).db.events.drop
          (NodeState.run P identity actions).db.events.length,
        row.lineageId = some lineageId ∧ view.eventId ∈ row.supersedes P) := by
  have hreadable := run_supersedesReadable identity actions
  have hrows := Db.openCommitments_rows hreadable hviews
  have hids := map_eventView_eventId hrows
  refine ⟨?_, ?_⟩
  · intro author contribution appendedAt accepted next hauthor hcommit
    obtain ⟨row, hevents, hread, hnext⟩ :=
      Db.openCommitmentRows_contribution hcommit hauthor
    have hnextReadable : next.SupersedesReadable P := by
      intro stored hstored
      rw [hevents] at hstored
      rcases List.mem_append.mp hstored with hold | hnew
      · exact hreadable stored hold
      · rw [List.mem_singleton.mp hnew]
        exact hread
    rw [Db.openCommitments_eq hnextReadable, traverse_eq_ok, hnext]
    have hnone : (∀ view ∈ views, view.eventId ∉ contribution.supersedes) ↔
        ∀ row ∈ ((NodeState.run P identity actions).db.openCommitmentRows P lineageId).take
          100, (!contribution.supersedes.contains row.eventId) = true := by
      have hall : ∀ ids : List String, (∀ id ∈ ids, id ∉ contribution.supersedes) ↔
          ∀ id ∈ ids, (!contribution.supersedes.contains id) = true := by
        intro ids
        simp
      rw [← List.forall_mem_map (f := fun view : EventView => view.eventId)
        (P := fun id => id ∉ contribution.supersedes), ← hids, hall, List.forall_mem_map]
    rw [hnone]
    constructor
    · intro heq row hrow
      -- The row of this id on the new page is not superseded.
      have hmem : row.eventId ∈ ((((NodeState.run P identity
          actions).db.openCommitmentRows P lineageId).filter fun row : EventRow =>
            !contribution.supersedes.contains row.eventId).take 100).map (·.eventId) := by
        rw [map_eventView_eventId heq, ← hids]
        exact List.mem_map_of_mem hrow
      obtain ⟨stored, hstored, hid⟩ := List.mem_map.mp hmem
      rw [← hid]
      exact (List.mem_filter.mp (List.mem_of_mem_take hstored)).2
    · intro hkept
      rw [take_filter_eq_take hkept]
      exact hrows
  · intro rest later hlater view hview hgone hothers
    obtain ⟨added, hadded⟩ := @run_events_append P identity actions rest
    rw [hadded, List.drop_left] at hothers ⊢
    have hlaterRows := Db.openCommitments_rows
      (run_supersedesReadable identity (actions ++ rest)) hlater
    obtain ⟨row, hrow, hrowView⟩ : ∃ row ∈ ((NodeState.run P identity
        actions).db.openCommitmentRows P lineageId).take 100, eventView P row = .ok view := by
      rw [← List.mem_map, hrows]
      exact List.mem_map_of_mem hview
    by_cases hclosed : added.any fun later => (later.supersedes P).contains row.eventId
    · obtain ⟨later, hmem, hcontains⟩ := List.any_eq_true.mp hclosed
      have hsupersedes : view.eventId ∈ later.supersedes P := by
        rw [eventView_eventId hrowView]
        simpa using hcontains
      refine ⟨later, hmem, ?_, hsupersedes⟩
      by_contra hother
      exact hothers later hmem hother hsupersedes
    · exfalso
      apply hgone
      have hkept : row ∈ ((NodeState.run P identity (actions ++ rest)).db.openCommitmentRows
          P lineageId).take 100 := by
        rw [Db.openCommitmentRows_append hadded, List.take_append]
        exact List.mem_append_left _ (mem_take_filter hrow (by simpa using hclosed))
      have hmem := List.mem_map_of_mem (f := eventView P) hkept
      rw [hlaterRows, hrowView] at hmem
      obtain ⟨found, hfound, heq⟩ := List.mem_map.mp hmem
      rw [← Except.ok.inj heq]
      exact hfound

end

namespace Sample

/-- A second lineage with its session. -/
def secondRegistered : List Action :=
  atOnce (.registerLineage (registration [3] "Second" "0123456789abcdef" 0)) 0 ++
    atOnce (.registerDelegation secondDelegation) 0

def position (nonce : String) (supersedes : List String) : SignedContribution :=
  let draft : SignedContribution := ⟨protocolVersion, delegationId library secondDelegation,
    .position, 0, nonce, [], supersedes, .default, oneHour, ""⟩
  { draft with
    signature := library.signObject [13] contributionDomain (draft.toJson library) }

/-- The position of another lineage, which supersedes the commitment. -/
def closing : SignedContribution :=
  position "fedcba9876543210" [eventIdOf (commitment oneHour)]

/-- The lineage is shown its commitment, and the other one may speak. -/
def committedRun : List Action := commitmentRun oneHour ++ secondRegistered

instance committedRun_shows : Fact (
    ((NodeState.run library origin committedRun).db.openCommitments library
      (lineageOf [2])).map (·.map (·.eventId)) = .ok [eventIdOf (commitment oneHour)] ∧
    ((NodeState.run library origin (committedRun ++ accept closing)).db.openCommitments
      library (lineageOf [2])).map (·.map (·.eventId)) = .ok [] ∧
    (NodeState.run library origin (committedRun ++ accept closing)).db.events.map
        (·.lineageId) =
      (NodeState.run library origin committedRun).db.events.map (·.lineageId) ++
        [some (lineageOf [3])] ∧
    lineageOf [3] ≠ lineageOf [2]) :=
  ⟨by decide +kernel⟩

/-- The event of one lineage takes a commitment from another. -/
theorem committedRun_closed :
    ((NodeState.run library origin committedRun).db.openCommitments library
      (lineageOf [2])).map (·.map (·.eventId)) = .ok [eventIdOf (commitment oneHour)] ∧
    ((NodeState.run library origin (committedRun ++ accept closing)).db.openCommitments
      library (lineageOf [2])).map (·.map (·.eventId)) = .ok [] ∧
    (NodeState.run library origin (committedRun ++ accept closing)).db.events.map
        (·.lineageId) =
      (NodeState.run library origin committedRun).db.events.map (·.lineageId) ++
        [some (lineageOf [3])] ∧
    lineageOf [3] ≠ lineageOf [2] :=
  committedRun_shows.out

/-- As long as the other lineage supersedes something else, the commitment stays. -/
theorem run_commitments_committedRun :
    ∃ views, views.map (·.eventId) = [eventIdOf (commitment oneHour)] ∧
      ∀ contribution appendedAt accepted next,
        (NodeState.run library origin committedRun).db.appendContribution library origin
          (lineageOf [3]) contribution appendedAt = .ok (accepted, next) →
        (next.openCommitments library (lineageOf [2]) = .ok views ↔
          ∀ view ∈ views, view.eventId ∉ contribution.supersedes) := by
  obtain ⟨hshown, -, -, hother⟩ := committedRun_shows.out
  cases hviews : (NodeState.run library origin committedRun).db.openCommitments library
      (lineageOf [2]) with
  | error e =>
      rw [hviews] at hshown
      cases hshown
  | ok views =>
      rw [hviews] at hshown
      refine ⟨views, Except.ok.inj hshown, ?_⟩
      intro contribution appendedAt accepted next haccepted
      exact (run_commitments committedRun hviews).1 (lineageOf [3]) contribution appendedAt
        accepted next hother haccepted

end Sample

end Commonwake
