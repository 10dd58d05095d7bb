import Commonwake.ContentMirror
import Commonwake.SampleNode

/-!
# The cursors of acknowledgements

A node keeps the acknowledged cursor of every lineage in a table; an importer
computes it from the last acknowledgement in the stored log.  Both follow the
rule that an acknowledgement of the head consumes its own event.
-/

namespace Commonwake

open Outcome Table HashChain

/-! ## The cursor in the log -/

/-- The last acknowledgement of a lineage in a log. -/
def lastAcknowledgementIn (entries : List LogEntry) (lineageId : String) :
    Option LogEntry :=
  (entries.filter fun entry => entry.lineageId == some lineageId &&
    entry.kind == "acknowledgement").getLast?

section

variable (P : Primitives)

/-- The cursor at which the event of an acknowledgement leaves its lineage. -/
def LogEntry.ackCursor (entry : LogEntry) : Option ℤ := do
  let value ← entry.canonical
  let acknowledgement ← SignedAcknowledgement.ofJson P value
  pure (if acknowledgement.cursor = entry.sequence - 1 then entry.sequence
    else acknowledgement.cursor)

/-- The cursor which the log gives to a lineage. -/
def ackCursorIn (entries : List LogEntry) (lineageId : String) : Option ℤ :=
  match lastAcknowledgementIn entries lineageId with
  | some entry => entry.ackCursor P
  | none => some 0

end

section

variable {P : Primitives}

theorem lastAcknowledgementIn_append (entries : List LogEntry) (entry : LogEntry)
    (lineageId : String) :
    lastAcknowledgementIn (entries ++ [entry]) lineageId =
      if entry.lineageId = some lineageId ∧ entry.kind = "acknowledgement" then some entry
      else lastAcknowledgementIn entries lineageId := by
  unfold lastAcknowledgementIn
  rw [List.filter_append]
  by_cases hentry : entry.lineageId = some lineageId ∧ entry.kind = "acknowledgement"
  · simp [hentry]
  · have hfalse : (entry.lineageId == some lineageId &&
        entry.kind == "acknowledgement") = false := by
      simpa using hentry
    simp [hfalse, hentry]

/-- Other events leave the cursor alone. -/
theorem ackCursorIn_append_of_ne {entries : List LogEntry} {entry : LogEntry}
    {lineageId : String}
    (h : entry.lineageId = some lineageId → entry.kind ≠ "acknowledgement") :
    ackCursorIn P (entries ++ [entry]) lineageId = ackCursorIn P entries lineageId := by
  have hother : ¬ (entry.lineageId = some lineageId ∧ entry.kind = "acknowledgement") :=
    fun hboth => h hboth.1 hboth.2
  unfold ackCursorIn
  rw [lastAcknowledgementIn_append, if_neg hother]

theorem ackCursorIn_append_self {entries : List LogEntry} {entry : LogEntry}
    {lineageId : String} (hlineage : entry.lineageId = some lineageId)
    (hkind : entry.kind = "acknowledgement") :
    ackCursorIn P (entries ++ [entry]) lineageId = entry.ackCursor P := by
  unfold ackCursorIn
  rw [lastAcknowledgementIn_append, if_pos ⟨hlineage, hkind⟩]

/-! ## The check of the importer -/

theorem OriginTables.lastAcknowledgement_entry (tables : OriginTables) (lineageId : String) :
    (tables.lastAcknowledgement lineageId).map (RemoteEventRow.entry P) =
      lastAcknowledgementIn (tables.remoteEvents.map (RemoteEventRow.entry P)) lineageId := by
  unfold OriginTables.lastAcknowledgement lastAcknowledgementIn
  rw [List.filter_map, List.getLast?_map]
  rfl

/-- The importer compares the cursor with the one which its log gives. -/
theorem isOk_validateRemoteAckCursor_iff {tables : OriginTables} {lineageId : String}
    {sequence cursor previous : ℤ}
    (hprevious : ackCursorIn P (tables.remoteEvents.map (RemoteEventRow.entry P)) lineageId =
      some previous) (hpositive : 0 ≤ previous) :
    isOk (validateRemoteAckCursor P tables lineageId sequence cursor) ↔
      cursor ≤ sequence - 1 ∧ previous ≤ cursor := by
  unfold ackCursorIn at hprevious
  rw [← OriginTables.lastAcknowledgement_entry] at hprevious
  unfold validateRemoteAckCursor
  cases hlast : tables.lastAcknowledgement lineageId with
  | none =>
      simp only [hlast, Option.map_none, Option.some.injEq] at hprevious
      subst hprevious
      simp only [isOk_bind, rejectIf_eq_ok, not_or, not_lt, pure_eq_ok]
      constructor
      · rintro ⟨-, ⟨hlow, hhigh⟩, -⟩
        exact ⟨hhigh, hlow⟩
      · rintro ⟨hhigh, hlow⟩
        exact ⟨(), ⟨hlow, hhigh⟩, isOk_ok _⟩
  | some row =>
      simp only [hlast, Option.map_some, LogEntry.ackCursor, RemoteEventRow.entry,
        Option.bind_eq_bind, Option.bind_eq_some_iff, Option.pure_def,
        Option.some.injEq] at hprevious
      obtain ⟨value, hvalue, acknowledgement, hread, rfl⟩ := hprevious
      simp only [isOk_bind, rejectIf_eq_ok, not_or, not_lt, hvalue, hread, okOr_some,
        Except.ok.injEq, exists_eq_left', isOk_rejectIf]
      constructor
      · rintro ⟨-, ⟨hlow, hhigh⟩, hforward⟩
        exact ⟨hhigh, hforward⟩
      · rintro ⟨hhigh, hforward⟩
        exact ⟨(), ⟨le_trans hpositive hforward, hhigh⟩, hforward⟩

/-! ## The table of the node -/

theorem Db.lastAcknowledgedCursor_congr {db next : Db}
    (h : next.authority.acknowledgements = db.authority.acknowledgements)
    (lineageId : String) :
    next.lastAcknowledgedCursor lineageId = db.lastAcknowledgedCursor lineageId := by
  unfold Db.lastAcknowledgedCursor
  rw [h]

/-- What an accepted acknowledgement did. -/
structure Acknowledged (P : Primitives) (identity : NodeIdentity P) (lineageId : String)
    (acknowledgement : SignedAcknowledgement) (appendedAt : ℤ) (db : Db) (row : EventRow)
    (accepted : AcceptedObject) (next : Db) : Prop where
  inLog : acknowledgement.cursor ≤ db.head
  forward : db.lastAcknowledgedCursor lineageId ≤ acknowledgement.cursor
  appended : ∃ logged, Appended P identity (acknowledgementInput P lineageId acknowledgement)
    appendedAt db row accepted logged
  events : next.events = db.events ++ [row]
  cursor : next.lastAcknowledgedCursor lineageId =
    if acknowledgement.cursor = db.head then db.head + 1 else acknowledgement.cursor
  others : ∀ other, other ≠ lineageId →
    next.lastAcknowledgedCursor other = db.lastAcknowledgedCursor other

variable {identity : NodeIdentity P}

theorem Db.appendAcknowledgement_eq_ok {lineageId : String}
    {acknowledgement : SignedAcknowledgement} {now : ℤ} {db next : Db}
    {accepted : AcceptedObject}
    (h : db.appendAcknowledgement P identity lineageId acknowledgement now =
      .ok (accepted, next)) :
    ∃ row, Acknowledged P identity lineageId acknowledgement now db row accepted next := by
  unfold Db.appendAcknowledgement at h
  simp only [bind_eq_ok, rejectIf_eq_ok, not_lt, gt_iff_lt, pure_eq_ok, Except.ok.injEq,
    Prod.mk.injEq, Prod.exists] at h
  obtain ⟨-, hhead, -, hforward, accepted, logged, happend, rfl, rfl⟩ := h
  obtain ⟨row, happended⟩ := appendEvent_eq_ok happend
  have hsequence : accepted.sequence = db.head + 1 := by
    rw [happended.accepted_eq]
    exact happended.columns.1
  have hauthority : logged.authority = db.authority := by
    rw [happended.next_eq]
  refine ⟨row, hhead, hforward, ⟨logged, happended⟩, happended.events, ?_, ?_⟩
  · unfold Db.lastAcknowledgedCursor
    rw [find?_upsert_self (by simp), hsequence]
  · intro other hother
    unfold Db.lastAcknowledgedCursor
    rw [find?_upsert_of_ne, hauthority]
    · simpa using Ne.symm hother
    · intro stored hstored
      rw [beq_iff_eq] at hstored
      simpa [hstored] using Ne.symm hother

/-- An acknowledgement is accepted when its cursor is, and its event can be
logged. -/
theorem isOk_appendAcknowledgement_iff {lineageId : String}
    {acknowledgement : SignedAcknowledgement} {now : ℤ} {db : Db} :
    isOk (db.appendAcknowledgement P identity lineageId acknowledgement now) ↔
      (acknowledgement.cursor ≤ db.head ∧
        db.lastAcknowledgedCursor lineageId ≤ acknowledgement.cursor) ∧
      isOk (appendEvent P identity (acknowledgementInput P lineageId acknowledgement) now
        db) := by
  unfold Db.appendAcknowledgement
  simp only [isOk_bind, rejectIf_eq_ok, not_lt, gt_iff_lt, pure_eq_ok]
  constructor
  · rintro ⟨-, hhead, -, hforward, result, hresult, -⟩
    exact ⟨⟨hhead, hforward⟩, result, hresult⟩
  · rintro ⟨⟨hhead, hforward⟩, result, hresult⟩
    exact ⟨(), hhead, (), hforward, result, hresult, isOk_ok _⟩

/-- The other calls keep the table. -/
theorem AuthorityEffect.acknowledgements {db : Db} {accepted : AcceptedObject}
    {admitted : Admitted} {tables : AuthorityTables}
    (h : AuthorityEffect P db accepted admitted tables)
    (hother : ∀ lineageId acknowledgement,
      admitted ≠ .appendAcknowledgement lineageId acknowledgement) :
    tables.acknowledgements = db.authority.acknowledgements := by
  cases h with
  | registerLineage => rfl
  | registerDelegation => rfl
  | revokeDelegation => rfl
  | rotateLineageKey => rfl
  | appendContribution => rfl
  | appendAcknowledgement lineageId acknowledgement =>
      exact absurd rfl (hother lineageId acknowledgement)

/-- The event of another call is not an acknowledgement. -/
theorem Admitted.input_kind_ne {admitted : Admitted}
    (hother : ∀ lineageId acknowledgement,
      admitted ≠ .appendAcknowledgement lineageId acknowledgement) :
    (admitted.input P).kind ≠ "acknowledgement" := by
  cases admitted with
  | registerLineage => exact (by decide : "lineage_registered" ≠ "acknowledgement")
  | registerDelegation => exact (by decide : "delegation_registered" ≠ "acknowledgement")
  | revokeDelegation => exact (by decide : "delegation_revoked" ≠ "acknowledgement")
  | rotateLineageKey => exact (by decide : "lineage_key_rotated" ≠ "acknowledgement")
  | appendContribution lineageId contribution =>
      change contribution.kind.asStr ≠ "acknowledgement"
      cases contribution.kind <;> decide
  | appendAcknowledgement lineageId acknowledgement =>
      exact absurd rfl (hother lineageId acknowledgement)

/-! ## Agreement -/

/-- The table of the node agrees with its log. -/
structure CursorsSound (P : Primitives) (db : Db) : Prop where
  agree : ∀ lineageId, ackCursorIn P (db.events.map (EventRow.entry P)) lineageId =
    some (db.lastAcknowledgedCursor lineageId)
  nonneg : ∀ lineageId, 0 ≤ db.lastAcknowledgedCursor lineageId

theorem CursorsSound.append_other {db next : Db} {row : EventRow} (h : CursorsSound P db)
    (hevents : next.events = db.events ++ [row]) (hkind : row.kind ≠ "acknowledgement")
    (htable : next.authority.acknowledgements = db.authority.acknowledgements) :
    CursorsSound P next := by
  have hcursor := Db.lastAcknowledgedCursor_congr htable
  refine ⟨fun lineageId => ?_, fun lineageId => ?_⟩
  · rw [hevents, List.map_append, List.map_singleton, ackCursorIn_append_of_ne, h.agree,
      hcursor]
    intro _
    exact hkind
  · rw [hcursor]
    exact h.nonneg lineageId

theorem CursorsSound.acknowledge {lineageId : String}
    {acknowledgement : SignedAcknowledgement} {appendedAt : ℤ} {db next : Db}
    {row : EventRow} {accepted : AcceptedObject} (h : CursorsSound P db)
    (hack : Acknowledged P identity lineageId acknowledgement appendedAt db row accepted next)
    (hkeeps : KeepsCursor P acknowledgement.cursor) : CursorsSound P next := by
  obtain ⟨logged, happended⟩ := hack.appended
  obtain ⟨hsequence, hkind, hlineage, -, -, -, hjson⟩ := happended.columns
  have hentry : (row.entry P).ackCursor P = some (next.lastAcknowledgedCursor lineageId) := by
    rw [hack.cursor]
    simp only [LogEntry.ackCursor, EventRow.entry, hjson, hsequence, acknowledgementInput,
      Primitives.parse_jcs', SignedAcknowledgement.ofJson_canon P hkeeps,
      Option.bind_eq_bind, Option.bind_some, Option.pure_def, add_sub_cancel_right]
  have hforward := hack.forward
  have hpositive := h.nonneg lineageId
  have hhead := hack.inLog
  refine ⟨fun other => ?_, fun other => ?_⟩
  · rw [hack.events, List.map_append, List.map_singleton]
    by_cases hother : other = lineageId
    · rw [hother, ackCursorIn_append_self hlineage hkind, hentry]
    · rw [ackCursorIn_append_of_ne, h.agree, hack.others other hother]
      intro hsame
      have hids : some lineageId = some other := hlineage.symm.trans hsame
      exact absurd (Option.some.inj hids).symm hother
  · by_cases hother : other = lineageId
    · rw [hother, hack.cursor]
      split <;> omega
    · rw [hack.others other hother]
      exact h.nonneg other

theorem Appended.head_next {input : EventInput} {appendedAt : ℤ} {db logged next : Db}
    {row : EventRow} {accepted : AcceptedObject}
    (h : Appended P identity input appendedAt db row accepted logged)
    (hevents : next.events = db.events ++ [row]) : next.head = db.head + 1 := by
  rw [next.head_eq, hevents, lastHash_append_singleton, h.columns.1]

theorem History.cursorsSound {commits : PendingCall → Db → ℤ → Prop}
    {entries : FeedEntry → Prop} {db : Db} (h : History P identity commits entries db)
    (hkeeps : ∀ n, 0 ≤ n → n ≤ db.head → KeepsCursor P n) : CursorsSound P db := by
  induction h with
  | init => exact ⟨fun _ => rfl, fun _ => le_refl 0⟩
  | quiet db next _ hquiet ih =>
      have hhead : next.head = db.head := by
        rw [next.head_eq, db.head_eq, hquiet.events]
      rw [hhead] at hkeeps
      have hbefore := ih hkeeps
      have hcursor := Db.lastAcknowledgedCursor_congr
        (congrArg AuthorityTables.acknowledgements hquiet.authority)
      refine ⟨fun lineageId => ?_, fun lineageId => ?_⟩
      · rw [hquiet.events, hcursor]
        exact hbefore.agree lineageId
      · rw [hcursor]
        exact hbefore.nonneg lineageId
  | commit db next call appendedAt row accepted _ _ _ hcommit hcommitted ih =>
      obtain ⟨logged, happended, -⟩ := hcommitted.appended
      have hhead := happended.head_next hcommitted.events
      have hbefore := ih fun n hlow hhigh => hkeeps n hlow (by omega)
      by_cases hack : ∃ lineageId acknowledgement,
          call.admitted = .appendAcknowledgement lineageId acknowledgement
      · obtain ⟨lineageId, acknowledgement, hadmitted⟩ := hack
        rw [hadmitted] at hcommit
        obtain ⟨row, hacknowledged⟩ := Db.appendAcknowledgement_eq_ok hcommit
        have hlow := hbefore.nonneg lineageId
        have hforward := hacknowledged.forward
        have hinLog := hacknowledged.inLog
        exact hbefore.acknowledge hacknowledged (hkeeps _ (by omega) (by omega))
      · have hother : ∀ lineageId acknowledgement,
            call.admitted ≠ .appendAcknowledgement lineageId acknowledgement :=
          fun lineageId acknowledgement hadmitted => hack ⟨_, _, hadmitted⟩
        refine hbefore.append_other hcommitted.events ?_
          (hcommitted.effect.acknowledgements hother)
        rw [happended.columns.2.1]
        exact Admitted.input_kind_ne hother
  | observe db next sourceId languages feed retrievedAt entry canonicalUrl appendedAt row
      accepted _ _ hobserved ih =>
      obtain ⟨logged, happended, -⟩ := hobserved.appended
      have hhead := happended.head_next hobserved.events
      have hbefore := ih fun n hlow hhigh => hkeeps n hlow (by omega)
      refine hbefore.append_other hobserved.events ?_
        (congrArg AuthorityTables.acknowledgements
          (Db.appendObservation_authority hobserved.append))
      rw [happended.columns.2.1]
      exact (by decide : "observation" ≠ "acknowledgement")
  | witness db next bundle observedAt appendedAt row _ hwitnessed ih =>
      obtain ⟨base, accepted, logged, hbase, happended⟩ := hwitnessed.appended
      have hevents : next.events = base.events ++ [row] := by
        rw [hbase]
        exact hwitnessed.events
      have hhead := happended.head_next hevents
      have hsame : base.head = db.head := by
        rw [base.head_eq, db.head_eq, hbase]
      have hbefore := ih fun n hlow hhigh => hkeeps n hlow (by omega)
      refine hbefore.append_other hwitnessed.events ?_
        (congrArg AuthorityTables.acknowledgements hwitnessed.same.authority)
      rw [happended.columns.2.1]
      exact (by decide : "checkpoint_witnessed" ≠ "acknowledgement")

/-- After every prefix of the log of a node, an importer which has recorded the
same events gives every lineage the cursor of the node, and accepts exactly the
acknowledgements whose cursor the node accepts. -/
theorem run_acknowledgementsAgree (P : Primitives) (identity : NodeIdentity P)
    (actions : List Action) (events : List OriginEvent) (tables : OriginTables)
    (hkeeps : ∀ n, 0 ≤ n → n ≤ (NodeState.run P identity actions).db.head →
      KeepsCursor P n)
    (hevents : (NodeState.run P identity actions).db.events.map (originEvent P) =
      events.map .ok)
    (himported : Imported P identity.nodeId events tables) (lineageId : String) :
    ackCursorIn P (tables.remoteEvents.map (RemoteEventRow.entry P)) lineageId =
        some ((NodeState.run P identity actions).db.lastAcknowledgedCursor lineageId) ∧
      ∀ acknowledgement now,
        isOk ((NodeState.run P identity actions).db.appendAcknowledgement P identity
          lineageId acknowledgement now) ↔
        isOk (validateRemoteAckCursor P tables lineageId
          ((NodeState.run P identity actions).db.head + 1) acknowledgement.cursor) ∧
        isOk (appendEvent P identity (acknowledgementInput P lineageId acknowledgement) now
          (NodeState.run P identity actions).db) := by
  have hsound := (run_history_any P identity actions).cursorsSound hkeeps
  have hcursor : ackCursorIn P (tables.remoteEvents.map (RemoteEventRow.entry P)) lineageId =
      some ((NodeState.run P identity actions).db.lastAcknowledgedCursor lineageId) := by
    rw [himported.entries hevents]
    exact hsound.agree lineageId
  refine ⟨hcursor, fun acknowledgement now => ?_⟩
  rw [isOk_appendAcknowledgement_iff,
    isOk_validateRemoteAckCursor_iff hcursor (hsound.nonneg lineageId), add_sub_cancel_right]

end

namespace Sample

/-- The acknowledgement of the third event consumes the fourth, its own. -/
instance acknowledgedRun_held : Fact (
    (NodeState.run library origin acknowledgedRun).db.head = 4 ∧
    (NodeState.run library origin acknowledgedRun).db.lastAcknowledgedCursor (lineageOf [2]) = 4 ∧
    (NodeState.run library importer (importLog acknowledgedRun)).db.Holds library origin.nodeId
      (NodeState.run library origin acknowledgedRun).db.events) :=
  ⟨by decide +kernel⟩

/-- The importer of the sample run finds the same cursor. -/
theorem run_acknowledgementsAgree_acknowledgedRun :
    ackCursorIn library (((NodeState.run library importer
      (importLog acknowledgedRun)).db.origins origin.nodeId).remoteEvents.map
        (RemoteEventRow.entry library)) (lineageOf [2]) = some 4 := by
  obtain ⟨hhead, hcursor, hholds⟩ := acknowledgedRun_held.out
  obtain ⟨events, hevents, himported⟩ := hholds.imported
  have hkeeps : ∀ n, 0 ≤ n → n ≤ (NodeState.run library origin acknowledgedRun).db.head →
      KeepsCursor library n := by
    intro n hlow hhigh
    rw [hhead] at hhigh
    exact keepsCursor_of_abs_le library (by rw [abs_of_nonneg hlow]; omega)
  have hagree := (run_acknowledgementsAgree library origin acknowledgedRun events _ hkeeps
    hevents himported (lineageOf [2])).1
  rw [hagree, hcursor]

end Sample

end Commonwake
