import Commonwake.ImportTransaction

/-!
# Imports are atomic

An import which returns an error leaves the database as it was, except that
a conflict may have added rows of evidence.  An import which succeeds has
applied every event beyond the stored cursor.
-/

namespace Commonwake

open Outcome Table HashChain

section

variable {P : Primitives}

/-! ## Evidence -/

/-- Nothing but rows of evidence was added. -/
def OnlyEvidenceAdded (before after : Db) : Prop :=
  ∃ rows, after =
    { before with equivocationEvidence := before.equivocationEvidence ++ rows }

theorem recordEquivocation_eq (input : EquivocationInput) (db : Db) :
    ∃ rows, recordEquivocation P input db =
        { db with equivocationEvidence := db.equivocationEvidence ++ rows } ∧
      ∀ row ∈ rows, row.originNodeId = input.originNodeId := by
  unfold recordEquivocation
  simp only
  generalize (fun stored : EquivocationRow => _) = clash
  generalize hrow : EquivocationRow.mk _ _ _ _ _ _ _ _ = row
  obtain ⟨rows, hrows, hnew⟩ :=
    insertOrIgnore_eq_append clash row db.equivocationEvidence
  refine ⟨rows, by rw [hrows], ?_⟩
  intro added hadded
  rw [hnew added hadded, ← hrow]

theorem recordEquivocation_onlyEvidence (input : EquivocationInput) (db : Db) :
    OnlyEvidenceAdded db (recordEquivocation P input db) := by
  obtain ⟨rows, heq, -⟩ := recordEquivocation_eq (P := P) input db
  exact ⟨rows, heq⟩

/-! ## The witness of an import -/

/-- Only the log of the node, the witnesses and the imports were written. -/
def OnlyWitnessAdded (before after : Db) : Prop :=
  ∃ events witnesses imports, after = { before with
    events := events
    checkpointWitnesses := witnesses
    federationImports := imports }

theorem appendEvent_frame (identity : NodeIdentity P) (input : EventInput)
    (receivedAt : ℤ) (db : Db) :
    Ensures (appendEvent P identity input receivedAt db)
      fun result => ∃ row, result.2 = { db with events := db.events ++ [row] } := by
  unfold appendEvent
  repeat refine Ensures.bind fun _ => ?_
  exact .pure ⟨_, rfl⟩

theorem appendWitness_frame (identity : NodeIdentity P) (bundle : FederationBundle)
    (witness : CheckpointWitness) (appendedAt : ℤ) (db : Db) :
    Ensures (appendWitness P identity bundle witness appendedAt db)
      fun result => OnlyWitnessAdded db result.2 := by
  unfold appendWitness
  refine (appendEvent_frame identity _ appendedAt db).seq ?_
  rintro ⟨accepted, next⟩ ⟨row, hnext⟩
  simp only at hnext
  subst hnext
  exact Ensures.bind fun _ => .pure ⟨_, _, _, rfl⟩

theorem witnessImport_frame (identity : NodeIdentity P) (bundle : FederationBundle)
    (witness : CheckpointWitness) (appendedAt knownCursor currentCursor : ℤ) (db : Db) :
    Ensures (witnessImport P identity bundle witness appendedAt knownCursor
        currentCursor db)
      fun result => OnlyWitnessAdded db result.2 := by
  unfold witnessImport
  split
  · exact .pure ⟨_, _, _, rfl⟩
  · split
    · exact .pure ⟨_, _, _, rfl⟩
    · refine (appendWitness_frame identity bundle witness appendedAt db).seq ?_
      rintro ⟨witnessed, next⟩ ⟨events, witnesses, imports, hnext⟩
      simp only at hnext
      subst hnext
      exact .pure ⟨_, _, _, rfl⟩

/-! ## The head after an import -/

/-- The peer of a bundle is stored once it was opened. -/
theorem OpensPeer.peer {bundle : FederationBundle} {now : String} {db opened : Db}
    (h : OpensPeer bundle now db opened) :
    ∃ peer, opened.peer? bundle.originNodeId = some peer := by
  cases h with
  | known peer hpeer _ => exact ⟨peer, hpeer⟩
  | first hpeer _ =>
      refine ⟨⟨bundle.originNodeId, bundle.originNodePublicKey, now, now, 0, zeroHash,
        "null"⟩, ?_⟩
      unfold Db.peer? at hpeer ⊢
      rw [List.find?_append, hpeer]
      simp

theorem advancePeer_knownHead {bundle : FederationBundle} {now : String}
    {loop : ImportLoop} {peer : PeerRow}
    (hpeer : loop.db.peer? bundle.originNodeId = some peer) :
    (advancePeer P bundle now loop).knownHead bundle.originNodeId =
      (loop.cursor, loop.hash) := by
  unfold Db.peer? at hpeer
  have hnode : peer.nodeId = bundle.originNodeId := by
    simpa using List.find?_some hpeer
  unfold Db.knownHead Db.peer? advancePeer
  simp only
  rw [find?_updateWhere, hpeer]
  · simp [hnode]
  · intro row _
    rfl

theorem ImportResult.knownHead {identity : NodeIdentity P} {bundle : FederationBundle}
    {witness : CheckpointWitness} {now appendedAt : ℤ} {db next opened : Db}
    {report : FederationImportReport} {key : Bytes} {head : String} {loop : ImportLoop}
    {fresh : List OriginEvent} {state : ImportState}
    (h : ImportResult P identity bundle witness now appendedAt db report next key head
      opened loop fresh state) :
    next.knownHead bundle.originNodeId = (loop.cursor, loop.hash) := by
  obtain ⟨events, witnesses, imports, hnext⟩ :=
    witnessImport_frame _ _ _ _ _ _ _ _ h.witnessed
  obtain ⟨peer, hpeer⟩ := h.opens.peer
  have hloop : loop.db.peer? bundle.originNodeId = some peer := by
    rw [h.looped.result]
    exact hpeer
  simp only at hnext
  rw [← advancePeer_knownHead hloop, hnext]
  rfl

/-- What an import leaves about its origin: the tables after its new events,
and one more checkpoint at most. -/
theorem ImportResult.tables {identity : NodeIdentity P} {bundle : FederationBundle}
    {witness : CheckpointWitness} {now appendedAt : ℤ} {db next opened : Db}
    {report : FederationImportReport} {key : Bytes} {head : String} {loop : ImportLoop}
    {fresh : List OriginEvent} {state : ImportState}
    (h : ImportResult P identity bundle witness now appendedAt db report next key head
      opened loop fresh state) :
    next.origins bundle.originNodeId = { state.tables with
      remoteCheckpoints := (next.origins bundle.originNodeId).remoteCheckpoints } ∧
    next.commons = state.commons := by
  obtain ⟨events, witnesses, imports, hnext⟩ :=
    witnessImport_frame _ _ _ _ _ _ _ _ h.witnessed
  simp only at hnext
  rw [hnext, h.looped.result]
  simp [advancePeer, Db.withImportState, Db.setOrigin]

/-- The new events of an import are those beyond the stored cursor. -/
theorem LoopResult.fresh_eq {origin : String} {known : ℤ × String} {db : Db}
    {events fresh : List OriginEvent} {loop : ImportLoop} {state : ImportState}
    (h : LoopResult P origin known db events loop fresh state) :
    fresh = events.filter fun event => decide (known.1 < event.sequence) := by
  obtain ⟨⟨overlap, hsplit, hoverlap⟩, hnumbered, -, -, -⟩ := h
  have hdropped : (overlap.filter fun event => decide (known.1 < event.sequence)) =
      [] := by
    rw [List.filter_eq_nil_iff]
    intro event hevent
    simpa using (hoverlap event hevent).1
  have hkept : (fresh.filter fun event => decide (known.1 < event.sequence)) =
      fresh := by
    rw [List.filter_eq_self]
    intro event hevent
    simpa using (hnumbered.mem_bounds hevent).1
  rw [hsplit, List.filter_append, hdropped, hkept, List.nil_append]

/-! ## Atomicity -/

/-- The events of a bundle beyond the stored cursor of its origin. -/
def Db.newEvents (db : Db) (bundle : FederationBundle) : List OriginEvent :=
  bundle.events.filter fun event =>
    decide ((db.knownHead bundle.originNodeId).1 < event.sequence)

/-- The result of an import and the database after it, compared with the
database before. -/
def ImportIsAtomic (P : Primitives) (bundle : FederationBundle) (before : Db) :
    Result FederationImportReport × Db → Prop
  | (.error error, after) =>
      after = before ∨
        ((∃ message, error = .conflict message) ∧ OnlyEvidenceAdded before after)
  | (.ok _, after) =>
      (∃ state, projectEvents P bundle.originNodeId
          (before.importState bundle.originNodeId) (before.newEvents bundle) = .ok state ∧
        after.origins bundle.originNodeId = { state.tables with
          remoteCheckpoints := (after.origins bundle.originNodeId).remoteCheckpoints } ∧
        after.commons = state.commons) ∧
      ((before.newEvents bundle ≠ [] ∧
          (after.knownHead bundle.originNodeId).1 = bundle.throughCursor) ∨
        (before.newEvents bundle = [] ∧
          after.knownHead bundle.originNodeId =
            before.knownHead bundle.originNodeId))

/-- Every import is atomic, for every database and every bundle. -/
theorem importFederationBundle_isAtomic (P : Primitives) (identity : NodeIdentity P)
    (bundle : FederationBundle) (observedAt now appendedAt : ℤ) (db : Db) :
    ImportIsAtomic P bundle db
      (importFederationBundle P identity bundle observedAt now appendedAt db) := by
  unfold importFederationBundle
  cases verifyBundle P bundle with
  | error e => exact .inl rfl
  | ok =>
      have houtcome := importTransaction_outcome identity bundle
        (makeCheckpointWitness P identity bundle observedAt) now appendedAt db
      simp only [Db.importFederationBundle]
      generalize importTransaction P identity bundle
        (makeCheckpointWitness P identity bundle observedAt) now appendedAt db = outcome
        at houtcome
      cases houtcome with
      | rolledBack e => exact .inl rfl
      | committed key head message input _ _ _ _ =>
          exact .inr ⟨⟨message, rfl⟩, recordEquivocation_onlyEvidence input db⟩
      | done report next key head opened loop fresh state hresult =>
          have hfresh : db.newEvents bundle = fresh := hresult.looped.fresh_eq.symm
          have hproject := hresult.looped.projected
          rw [hresult.opens.importState] at hproject
          refine ⟨⟨state, by rw [hfresh]; exact hproject, hresult.tables⟩, ?_⟩
          rw [hfresh, hresult.knownHead]
          by_cases hnil : fresh = []
          · subst hnil
            refine .inr ⟨rfl, ?_⟩
            rw [hresult.looped.result]
            simp
          · exact .inl ⟨hnil, cursor_of_fresh hresult.verified hresult.looped hnil⟩

end

end Commonwake
