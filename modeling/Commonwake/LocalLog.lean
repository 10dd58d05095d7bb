import Commonwake.System

/-!
# The log of a node

What `append_event` commits, and what an import does to the node's own
tables: it may log a witness, and it leaves everything else alone.
-/

namespace Commonwake

open Outcome Table HashChain

section

variable {P : Primitives}

/-! ## Appending -/

theorem Db.head_eq (db : Db) : db.head = lastHash EventRow.sequence 0 db.events := by
  unfold Db.head lastHash
  cases db.events.getLast? <;> rfl

theorem Db.headHash_eq (db : Db) :
    db.headHash = lastHash EventRow.eventHash zeroHash db.events := by
  unfold Db.headHash lastHash
  cases db.events.getLast? <;> rfl

/-- What a successful `append_event` did. -/
structure Appended (P : Primitives) (identity : NodeIdentity P) (input : EventInput)
    (receivedAt : ℤ) (db : Db) (row : EventRow) (accepted : AcceptedObject) (next : Db) :
    Prop where
  fits : byteLen input.canonicalJson ≤ maxCanonicalObjectBytes
  row_eq : ∃ previous canonical, HexText.decode db.headHash = some previous ∧
    previous.length = 32 ∧ P.parse input.canonicalJson = some canonical ∧
    row = db.newRow P identity input receivedAt (P.eventHash previous
      (logRecord P input.kind input.lineageId input.delegationId
        (P.timestamp input.createdAt) (P.timestamp receivedAt) canonical))
  accepted_eq : accepted = ⟨row.eventId, row.sequence, row.eventHash⟩
  next_eq : next = { db with events := db.events ++ [row] }
  fresh : ∀ stored ∈ db.events, row.clashes stored = false
  author : db.knowsAuthor row = true

theorem appendEvent_eq_ok {identity : NodeIdentity P} {input : EventInput}
    {receivedAt : ℤ} {db next : Db} {accepted : AcceptedObject}
    (h : appendEvent P identity input receivedAt db = .ok (accepted, next)) :
    ∃ row, Appended P identity input receivedAt db row accepted next := by
  unfold appendEvent canonicalLogInput at h
  simp only [bind_eq_ok, rejectIf_eq_ok, okOr_eq_ok, pure_eq_ok, Except.ok.injEq,
    Prod.mk.injEq, not_lt, not_not, not_or, Bool.not_eq_true, Bool.not_eq_false] at h
  obtain ⟨-, hfits, previous, hprevious, -, hlength, record, ⟨canonical, hcanonical, rfl⟩,
    -, ⟨hclash, hauthor⟩, rfl, rfl⟩ := h
  refine ⟨_, hfits, ⟨previous, canonical, hprevious, hlength, hcanonical, rfl⟩, rfl, rfl,
    ?_, hauthor⟩
  intro stored hstored
  rw [List.any_eq_false] at hclash
  simpa using hclash stored hstored

section

variable {identity : NodeIdentity P} {input : EventInput} {receivedAt : ℤ} {db next : Db}
  {row : EventRow} {accepted : AcceptedObject}

/-- The columns of the new row. -/
theorem Appended.columns
    (h : Appended P identity input receivedAt db row accepted next) :
    row.sequence = db.head + 1 ∧ row.kind = input.kind ∧
      row.lineageId = input.lineageId ∧ row.delegationId = input.delegationId ∧
      row.createdAt = P.timestamp input.createdAt ∧
      row.receivedAt = P.timestamp receivedAt ∧
      row.canonicalJson = input.canonicalJson := by
  obtain ⟨previous, canonical, -, -, -, rfl⟩ := h.row_eq
  exact ⟨rfl, rfl, rfl, rfl, rfl, rfl, rfl⟩

/-- The event of the new row. -/
theorem Appended.originEvent_eq
    (h : Appended P identity input receivedAt db row accepted next) (value : Json)
    (hvalue : input.canonicalJson = P.jcs value) {event : OriginEvent}
    (hevent : originEvent P row = .ok event) :
    event.sequence = row.sequence ∧ event.eventId = row.eventId ∧
      event.kind = input.kind ∧
      event.lineageId = input.lineageId ∧ event.delegationId = input.delegationId ∧
      event.createdAt = P.timestamp input.createdAt ∧
      event.receivedAt = P.timestamp receivedAt ∧
      event.canonical = P.canon value := by
  obtain ⟨-, hkind, hlineage, hdelegation, hcreated, hreceived, hjson⟩ := h.columns
  simp only [originEvent, hjson, hvalue, Primitives.parse_jcs', okOr_some, ok_bind,
    pure_eq_ok, Except.ok.injEq] at hevent
  subst hevent
  exact ⟨rfl, rfl, hkind, hlineage, hdelegation, hcreated, hreceived, rfl⟩

theorem Appended.event_kind
    (h : Appended P identity input receivedAt db row accepted next) {event : OriginEvent}
    (hevent : originEvent P row = .ok event) : event.kind = input.kind := by
  simp only [originEvent, bind_eq_ok, okOr_eq_ok, pure_eq_ok, Except.ok.injEq] at hevent
  obtain ⟨canonical, -, rfl⟩ := hevent
  exact h.columns.2.1

theorem Appended.events
    (h : Appended P identity input receivedAt db row accepted next) :
    next.events = db.events ++ [row] := by
  rw [h.next_eq]

end

theorem Logs.appended {identity : NodeIdentity P} {input : EventInput} {appendedAt : ℤ}
    {db : Db} {result : AcceptedObject × Db}
    (h : Logs P identity input appendedAt db result) :
    ∃ row logged, Appended P identity input appendedAt db row result.1 logged ∧
      logged.SameRecords result.2 := by
  obtain ⟨logged, happend, hsame⟩ := h
  obtain ⟨row, hrow⟩ := appendEvent_eq_ok happend
  exact ⟨row, logged, hrow, hsame⟩

/-! ## The log under an import -/

/-- The tables of a node about its own log, without the log. -/
structure Db.SameLocal (first second : Db) : Prop where
  nodeId : second.nodeId = first.nodeId
  authority : second.authority = first.authority
  sources : second.sources = first.sources
  content : second.content = first.content
  work : second.work = first.work

/-- What an import does to the node's own tables. -/
structure ImportFrame (P : Primitives) (identity : NodeIdentity P)
    (bundle : FederationBundle) (observedAt appendedAt : ℤ) (db next : Db) : Prop where
  same : db.SameLocal next
  events : next.events = db.events ∨
    ∃ base accepted logged, base.events = db.events ∧
      appendEvent P identity (witnessInput P bundle
        (makeCheckpointWitness P identity bundle observedAt)) appendedAt base =
          .ok (accepted, logged) ∧
      next.events = logged.events

theorem witnessImport_local (identity : NodeIdentity P) (bundle : FederationBundle)
    (observedAt appendedAt knownCursor currentCursor : ℤ) (db : Db) :
    Ensures (witnessImport P identity bundle
        (makeCheckpointWitness P identity bundle observedAt) appendedAt knownCursor
        currentCursor db)
      fun result => ImportFrame P identity bundle observedAt appendedAt db result.2 := by
  unfold witnessImport
  split
  · exact .pure ⟨⟨rfl, rfl, rfl, rfl, rfl⟩, .inl rfl⟩
  · split
    · exact .pure ⟨⟨rfl, rfl, rfl, rfl, rfl⟩, .inl rfl⟩
    · intro result hresult
      unfold appendWitness at hresult
      simp only [bind_eq_ok, pure_eq_ok, Except.ok.injEq] at hresult
      obtain ⟨_, ⟨⟨accepted, logged⟩, happend, witnesses, -, rfl⟩, rfl⟩ := hresult
      obtain ⟨row, hrow⟩ := appendEvent_eq_ok happend
      have hlogged := hrow.next_eq
      refine ⟨?_, .inr ⟨db, accepted, logged, rfl, happend, rfl⟩⟩
      simp only [recordImport, hlogged]
      exact ⟨rfl, rfl, rfl, rfl, rfl⟩

theorem importFederationBundle_frame (identity : NodeIdentity P)
    (bundle : FederationBundle) (observedAt now appendedAt : ℤ) (db : Db) :
    ImportFrame P identity bundle observedAt appendedAt db
      (importFederationBundle P identity bundle observedAt now appendedAt db).2 := by
  have hidle : ImportFrame P identity bundle observedAt appendedAt db db :=
    ⟨⟨rfl, rfl, rfl, rfl, rfl⟩, .inl rfl⟩
  unfold importFederationBundle
  cases verifyBundle P bundle with
  | error e => exact hidle
  | ok =>
      have houtcome := importTransaction_outcome identity bundle
        (makeCheckpointWitness P identity bundle observedAt) now appendedAt db
      simp only [Db.importFederationBundle]
      generalize importTransaction P identity bundle
        (makeCheckpointWitness P identity bundle observedAt) now appendedAt db = outcome
        at houtcome
      cases houtcome with
      | rolledBack e => exact hidle
      | committed key head message input _ _ _ _ =>
          obtain ⟨rows, heq⟩ := recordEquivocation_onlyEvidence (P := P) input db
          simp only [heq]
          exact ⟨⟨rfl, rfl, rfl, rfl, rfl⟩, .inl rfl⟩
      | done report next key head opened loop fresh state hresult =>
          have hbase : db.SameLocal (advancePeer P bundle (P.timestamp now) loop) ∧
              (advancePeer P bundle (P.timestamp now) loop).events = db.events := by
            have hopens := hresult.opens
            rw [hresult.looped.result]
            cases hopens <;> exact ⟨⟨rfl, rfl, rfl, rfl, rfl⟩, rfl⟩
          obtain ⟨hsame, hevents⟩ := hbase
          obtain ⟨hframe, hlog⟩ := witnessImport_local identity bundle observedAt
            appendedAt _ _ _ _ hresult.witnessed
          refine ⟨⟨hframe.nodeId.trans hsame.nodeId, hframe.authority.trans hsame.authority,
            hframe.sources.trans hsame.sources, hframe.content.trans hsame.content,
            hframe.work.trans hsame.work⟩, ?_⟩
          rcases hlog with hkept | ⟨base, accepted, logged, hevent, happend, hnext⟩
          · exact .inl (hkept.trans hevents)
          · exact .inr ⟨base, accepted, logged, hevent.trans hevents, happend, hnext⟩

end

end Commonwake
