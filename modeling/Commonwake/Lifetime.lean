import Commonwake.NodeHistory
import Commonwake.OriginChain

/-!
# The lifetime of a node

`History` leaves out what an import did to the tables of other origins.  Here
every import which succeeded is a step of its own, with all that its
transaction did.
-/

namespace Commonwake

open Outcome Table HashChain

/-- A change which concerns neither the log nor the records of any origin: the
bookkeeping of a fetch, or evidence of an equivocation. -/
structure Db.Unrecorded (first second : Db) : Prop where
  nodeId : second.nodeId = first.nodeId
  events : second.events = first.events
  authority : second.authority = first.authority
  content : second.content = first.content
  commons : second.commons = first.commons
  peers : second.peers = first.peers
  origins : second.origins = first.origins
  checkpointWitnesses : second.checkpointWitnesses = first.checkpointWitnesses
  federationImports : second.federationImports = first.federationImports

theorem Db.Unrecorded.refl (db : Db) : db.Unrecorded db :=
  ⟨rfl, rfl, rfl, rfl, rfl, rfl, rfl, rfl, rfl⟩

section

variable (P : Primitives) (identity : NodeIdentity P)

/-- One step of the database of a node. -/
inductive Advance (db : Db) : Db → Prop
  | quiet (next : Db) (hquiet : db.Unrecorded next) : Advance db next
  | commit (next : Db) (call : PendingCall) (appendedAt : ℤ) (row : EventRow)
      (accepted : AcceptedObject) (hsound : call.Sound P db)
      (hcommit : call.admitted.commit P identity appendedAt db = .ok (accepted, next))
      (hcommitted : Committed P identity call.admitted appendedAt db row accepted next) :
      Advance db next
  | observe (next : Db) (observation : IngestedObservation) (appendedAt : ℤ)
      (row : EventRow) (accepted : AcceptedObject)
      (hobserved : Observed P identity observation appendedAt db row accepted next) :
      Advance db next
  | imported (next : Db) (bundle : FederationBundle) (observedAt now appendedAt : ℤ)
      (report : FederationImportReport) (key : Bytes) (head : String) (opened : Db)
      (loop : ImportLoop) (fresh : List OriginEvent) (state : ImportState)
      (hresult : ImportResult P identity bundle
        (makeCheckpointWitness P identity bundle observedAt) now appendedAt db report next
        key head opened loop fresh state) :
      Advance db next

end

section

variable {P : Primitives} {identity : NodeIdentity P}

/-- A step which imports nothing: it logs one event at most, which is no witness. -/
structure Db.OwnStep (P : Primitives) (identity : NodeIdentity P) (first second : Db) :
    Prop where
  peers : second.peers = first.peers
  origins : second.origins = first.origins
  checkpointWitnesses : second.checkpointWitnesses = first.checkpointWitnesses
  federationImports : second.federationImports = first.federationImports
  events : second.events = first.events ∨ ∃ input receivedAt row accepted logged,
    input.kind ≠ "checkpoint_witnessed" ∧
    Appended P identity input receivedAt first row accepted logged ∧
    second.events = first.events ++ [row]

theorem Db.Unrecorded.ownStep {first second : Db} (h : first.Unrecorded second) :
    first.OwnStep P identity second :=
  ⟨h.peers, h.origins, h.checkpointWitnesses, h.federationImports, .inl h.events⟩

/-- An import which did not succeed leaves evidence at most. -/
theorem importFederationBundle_cases (identity : NodeIdentity P) (bundle : FederationBundle)
    (observedAt now appendedAt : ℤ) (db : Db) :
    db.Unrecorded (importFederationBundle P identity bundle observedAt now appendedAt db).2 ∨
      ∃ report key head opened loop fresh state, ImportResult P identity bundle
        (makeCheckpointWitness P identity bundle observedAt) now appendedAt db report
        (importFederationBundle P identity bundle observedAt now appendedAt db).2 key head
        opened loop fresh state := by
  unfold importFederationBundle
  cases verifyBundle P bundle with
  | error e => exact .inl (.refl db)
  | ok =>
      have houtcome := importTransaction_outcome identity bundle
        (makeCheckpointWitness P identity bundle observedAt) now appendedAt db
      simp only [Db.importFederationBundle]
      generalize importTransaction P identity bundle
        (makeCheckpointWitness P identity bundle observedAt) now appendedAt db = outcome
        at houtcome
      cases houtcome with
      | rolledBack e => exact .inl (.refl db)
      | committed key head message input _ _ _ _ =>
          obtain ⟨rows, heq⟩ := recordEquivocation_onlyEvidence (P := P) input db
          simp only [heq]
          exact .inl ⟨rfl, rfl, rfl, rfl, rfl, rfl, rfl, rfl, rfl⟩
      | done report next key head opened loop fresh state hresult =>
          exact .inr ⟨report, key, head, opened, loop, fresh, state, hresult⟩

theorem importFederationBundle_advance (bundle : FederationBundle)
    (observedAt now appendedAt : ℤ) (db : Db) :
    Advance P identity db
      (importFederationBundle P identity bundle observedAt now appendedAt db).2 := by
  rcases importFederationBundle_cases identity bundle observedAt now appendedAt db with
    hquiet | ⟨report, key, head, opened, loop, fresh, state, hresult⟩
  · exact .quiet _ hquiet
  · exact .imported _ bundle observedAt now appendedAt report key head opened loop fresh
      state hresult

theorem Admitted.input_kind_ne_witness (admitted : Admitted) :
    (admitted.input P).kind ≠ "checkpoint_witnessed" := by
  cases admitted with
  | registerLineage => exact (by decide : "lineage_registered" ≠ "checkpoint_witnessed")
  | registerDelegation =>
      exact (by decide : "delegation_registered" ≠ "checkpoint_witnessed")
  | revokeDelegation => exact (by decide : "delegation_revoked" ≠ "checkpoint_witnessed")
  | rotateLineageKey => exact (by decide : "lineage_key_rotated" ≠ "checkpoint_witnessed")
  | appendContribution lineageId contribution =>
      change contribution.kind.asStr ≠ "checkpoint_witnessed"
      cases contribution.kind <;> decide
  | appendAcknowledgement => exact (by decide : "acknowledgement" ≠ "checkpoint_witnessed")

/-- A step either imports a bundle of its action, or is a step of the node's own. -/
theorem NodeState.step_synchronizes (identity : NodeIdentity P) (node : NodeState)
    (action : Action) :
    node.db.OwnStep P identity (node.step P identity action).db ∨
      ∃ bundle observedAt now appendedAt report key head opened loop fresh state,
        action = .importBundle bundle observedAt now appendedAt ∧
        ImportResult P identity bundle (makeCheckpointWitness P identity bundle observedAt)
          now appendedAt node.db report (node.step P identity action).db key head opened
          loop fresh state := by
  have hsteps := node.step_steps identity action
  generalize node.step P identity action = next at hsteps
  cases hsteps with
  | idle => exact .inl (Db.Unrecorded.refl _).ownStep
  | pend => exact .inl (Db.Unrecorded.refl _).ownStep
  | abort => exact .inl (Db.Unrecorded.refl _).ownStep
  | commit index appendedAt call accepted next hcall hcommit =>
      obtain ⟨row, hcommitted⟩ := Admitted.commit_eq_ok hcommit
      obtain ⟨logged, happended, hsame⟩ := hcommitted.appended
      have hlogged := happended.next_eq
      refine .inl ⟨?_, ?_, ?_, ?_, .inr ⟨_, appendedAt, row, accepted, logged,
        Admitted.input_kind_ne_witness call.admitted, happended, hcommitted.events⟩⟩
      · rw [hsame.peers, hlogged]
      · rw [hsame.origins, hlogged]
      · rw [hsame.checkpointWitnesses, hlogged]
      · rw [hsame.federationImports, hlogged]
  | observe sourceId languages feed retrievedAt entry appendedAt canonicalUrl observation
      accepted next hurl hobservation hnew happend =>
      obtain ⟨row, logged, happended, hsame⟩ :=
        (Db.appendObservation_logs identity observation appendedAt hnew _ happend).appended
      have hlogged := happended.next_eq
      refine .inl ⟨?_, ?_, ?_, ?_, .inr ⟨_, appendedAt, row, accepted, logged,
        (by decide : "observation" ≠ "checkpoint_witnessed"), happended, ?_⟩⟩
      · rw [hsame.peers, hlogged]
      · rw [hsame.origins, hlogged]
      · rw [hsame.checkpointWitnesses, hlogged]
      · rw [hsame.federationImports, hlogged]
      · rw [hsame.events, hlogged]
  | markSourceFetch sourceId success =>
      exact .inl ⟨rfl, rfl, rfl, rfl, .inl rfl⟩
  | importBundle bundle observedAt now appendedAt =>
      rcases importFederationBundle_cases identity bundle observedAt now appendedAt node.db
        with hquiet | ⟨report, key, head, opened, loop, fresh, state, hresult⟩
      · exact .inl hquiet.ownStep
      · exact .inr ⟨bundle, observedAt, now, appendedAt, report, key, head, opened, loop,
          fresh, state, rfl, hresult⟩

theorem NodeState.step_advance (node : NodeState) (action : Action)
    (hpending : ∀ call ∈ node.pending, call.Sound P node.db) :
    Advance P identity node.db (node.step P identity action).db := by
  have hsteps := node.step_steps identity action
  generalize node.step P identity action = next at hsteps
  cases hsteps with
  | idle => exact .quiet _ (.refl _)
  | pend => exact .quiet _ (.refl _)
  | abort => exact .quiet _ (.refl _)
  | commit index appendedAt call accepted next hcall hcommit =>
      obtain ⟨row, hcommitted⟩ := Admitted.commit_eq_ok hcommit
      exact .commit next call appendedAt row accepted
        (hpending call (List.mem_of_getElem? hcall)) hcommit hcommitted
  | observe sourceId languages feed retrievedAt entry appendedAt canonicalUrl observation
      accepted next hurl hobservation hnew happend =>
      obtain ⟨row, logged, happended, hsame⟩ :=
        (Db.appendObservation_logs identity observation appendedAt hnew _ happend).appended
      exact .observe next observation appendedAt row accepted
        ⟨hnew, happend, logged, happended, hsame⟩
  | markSourceFetch sourceId success =>
      exact .quiet _ ⟨rfl, rfl, rfl, rfl, rfl, rfl, rfl, rfl, rfl⟩
  | importBundle bundle observedAt now appendedAt =>
      exact importFederationBundle_advance bundle observedAt now appendedAt node.db

/-- The rule for a relation between an earlier and a later database of a run. -/
theorem run_advances {relation : Db → Db → Prop} (hrefl : ∀ db, relation db db)
    (hstep : ∀ first db next, relation first db → Advance P identity db next →
      relation first next) (actions rest : List Action) :
    relation (NodeState.run P identity actions).db
      (NodeState.run P identity (actions ++ rest)).db := by
  induction rest using List.reverseRecOn with
  | nil =>
      rw [List.append_nil]
      exact hrefl _
  | append_singleton rest action ih =>
      rw [← List.append_assoc, NodeState.run_append_singleton]
      exact hstep _ _ _ ih
        (NodeState.step_advance _ action (run_pendingSound P identity (actions ++ rest)))

/-- The rule for an invariant of the database. -/
theorem run_advance_induction (property : Db → Prop)
    (hinit : property (Db.init P identity.nodeId))
    (hstep : ∀ db next, property db → Advance P identity db next → property next)
    (actions : List Action) : property (NodeState.run P identity actions).db := by
  induction actions using List.reverseRecOn with
  | nil => exact hinit
  | append_singleton actions action ih =>
      rw [NodeState.run_append_singleton]
      exact hstep _ _ ih
        (NodeState.step_advance _ action (run_pendingSound P identity actions))

/-! ## What an import did -/

/-- What the last part of an import did to the log of the importer. -/
inductive WitnessOutcome (P : Primitives) (identity : NodeIdentity P)
    (bundle : FederationBundle) (witness : CheckpointWitness)
    (appendedAt knownCursor currentCursor : ℤ) (db : Db) : Db → Prop
  | none (hnone : shouldWitness bundle knownCursor = false) :
      WitnessOutcome P identity bundle witness appendedAt knownCursor currentCursor db db
  | again (witnessed : String × ℤ) (hshould : shouldWitness bundle knownCursor = true)
      (hagain : db.alreadyWitnessed bundle = some witnessed) :
      WitnessOutcome P identity bundle witness appendedAt knownCursor currentCursor db
        (recordImport P bundle knownCursor currentCursor witnessed db)
  | logged (row : EventRow) (accepted : AcceptedObject) (logged : Db)
      (hshould : shouldWitness bundle knownCursor = true)
      (hnew : db.alreadyWitnessed bundle = Option.none)
      (happended : Appended P identity (witnessInput P bundle witness) appendedAt db row
        accepted logged) :
      WitnessOutcome P identity bundle witness appendedAt knownCursor currentCursor db
        (recordImport P bundle knownCursor currentCursor (row.eventId, row.sequence)
          { logged with checkpointWitnesses := db.checkpointWitnesses ++
              [⟨bundle.originNodeId, bundle.checkpoint.cursor, bundle.checkpoint.eventHash,
                row.eventId⟩] })

theorem witnessImport_outcome {bundle : FederationBundle} {witness : CheckpointWitness}
    {appendedAt knownCursor currentCursor : ℤ} {db : Db} {result : Option String × Db}
    (h : witnessImport P identity bundle witness appendedAt knownCursor currentCursor db =
      .ok result) :
    WitnessOutcome P identity bundle witness appendedAt knownCursor currentCursor db
      result.2 := by
  unfold witnessImport at h
  by_cases hshould : shouldWitness bundle knownCursor = false
  · rw [if_pos hshould, pure_eq_ok, Except.ok.injEq] at h
    rw [← h]
    exact .none hshould
  · rw [if_neg hshould] at h
    rw [Bool.not_eq_false] at hshould
    cases hagain : db.alreadyWitnessed bundle with
    | some witnessed =>
        simp only [hagain, pure_eq_ok, Except.ok.injEq] at h
        rw [← h]
        exact .again witnessed hshould hagain
    | none =>
        simp only [hagain, appendWitness, bind_eq_ok, insertNew_eq_ok, pure_eq_ok,
          Except.ok.injEq] at h
        obtain ⟨_, ⟨⟨accepted, logged⟩, happend, witnesses, ⟨-, rfl⟩, rfl⟩, rfl⟩ := h
        obtain ⟨row, hrow⟩ := appendEvent_eq_ok happend
        have hkept : logged.checkpointWitnesses = db.checkpointWitnesses := by
          rw [hrow.next_eq]
        simp only [hkept, hrow.accepted_eq]
        exact .logged row accepted logged hshould hagain hrow

section

variable {bundle : FederationBundle} {witness : CheckpointWitness} {now appendedAt : ℤ}
  {db next opened : Db} {report : FederationImportReport} {key : Bytes} {head : String}
  {loop : ImportLoop} {fresh : List OriginEvent} {state : ImportState}

theorem ImportResult.outcome
    (h : ImportResult P identity bundle witness now appendedAt db report next key head
      opened loop fresh state) :
    WitnessOutcome P identity bundle witness appendedAt
      (db.knownHead bundle.originNodeId).1 loop.cursor
      (advancePeer P bundle (P.timestamp now) loop) next :=
  witnessImport_outcome h.witnessed

/-- The database in which the witness of an import is logged. -/
theorem ImportResult.advanced
    (h : ImportResult P identity bundle witness now appendedAt db report next key head
      opened loop fresh state) :
    (advancePeer P bundle (P.timestamp now) loop).nodeId = db.nodeId ∧
      (advancePeer P bundle (P.timestamp now) loop).events = db.events ∧
      (advancePeer P bundle (P.timestamp now) loop).commons = state.commons ∧
      (advancePeer P bundle (P.timestamp now) loop).checkpointWitnesses =
        db.checkpointWitnesses ∧
      (advancePeer P bundle (P.timestamp now) loop).federationImports =
        db.federationImports := by
  have hopens := h.opens
  rw [h.looped.result]
  cases hopens <;> exact ⟨rfl, rfl, rfl, rfl, rfl⟩

theorem ImportResult.commons
    (h : ImportResult P identity bundle witness now appendedAt db report next key head
      opened loop fresh state) : next.commons = state.commons := by
  obtain ⟨-, -, hcommons, -, -⟩ := h.advanced
  have houtcome := h.outcome
  generalize advancePeer P bundle (P.timestamp now) loop = base at houtcome hcommons
  cases houtcome with
  | none => exact hcommons
  | again => exact hcommons
  | logged row accepted logged _ _ happended =>
      simp only [recordImport, happended.next_eq]
      exact hcommons

/-- The log after an import: a witness at most was added. -/
theorem ImportResult.events
    (h : ImportResult P identity bundle witness now appendedAt db report next key head
      opened loop fresh state) :
    next.events = db.events ∨
      ∃ base row accepted logged, base.events = db.events ∧
        Appended P identity (witnessInput P bundle witness) appendedAt base row accepted
          logged ∧ next.events = db.events ++ [row] := by
  obtain ⟨-, hevents, -, -, -⟩ := h.advanced
  have houtcome := h.outcome
  generalize advancePeer P bundle (P.timestamp now) loop = base at houtcome hevents
  cases houtcome with
  | none => exact .inl hevents
  | again => exact .inl hevents
  | logged row accepted logged _ _ happended =>
      refine .inr ⟨base, row, accepted, logged, hevents, happended, ?_⟩
      simp only [recordImport, happended.next_eq, hevents]

end

/-! ## The log -/

theorem Advance.nodeId {db next : Db} (h : Advance P identity db next) :
    next.nodeId = db.nodeId := by
  cases h with
  | quiet hquiet => exact hquiet.nodeId
  | commit call appendedAt row accepted _ _ hcommitted =>
      obtain ⟨logged, happended, hsame⟩ := hcommitted.appended
      rw [hsame.nodeId, happended.next_eq]
  | observe observation appendedAt row accepted hobserved =>
      obtain ⟨logged, happended, hsame⟩ := hobserved.appended
      rw [hsame.nodeId, happended.next_eq]
  | imported bundle observedAt now appendedAt report key head opened loop fresh state
      hresult =>
      obtain ⟨hnode, -⟩ := hresult.advanced
      have houtcome := hresult.outcome
      generalize advancePeer P bundle (P.timestamp now) loop = base at houtcome hnode
      cases houtcome with
      | none => exact hnode
      | again => exact hnode
      | logged row accepted logged _ _ happended =>
          simp only [recordImport, happended.next_eq]
          exact hnode

/-- A step adds one event at most. -/
theorem Advance.events {db next : Db} (h : Advance P identity db next) :
    next.events = db.events ∨
      ∃ input receivedAt base row accepted logged, base.events = db.events ∧
        Appended P identity input receivedAt base row accepted logged ∧
        next.events = db.events ++ [row] := by
  cases h with
  | quiet hquiet => exact .inl hquiet.events
  | commit call appendedAt row accepted _ _ hcommitted =>
      obtain ⟨logged, happended, -⟩ := hcommitted.appended
      exact .inr ⟨_, _, db, row, accepted, logged, rfl, happended, hcommitted.events⟩
  | observe observation appendedAt row accepted hobserved =>
      obtain ⟨logged, happended, -⟩ := hobserved.appended
      exact .inr ⟨_, _, db, row, accepted, logged, rfl, happended, hobserved.events⟩
  | imported bundle observedAt now appendedAt report key head opened loop fresh state
      hresult =>
      rcases hresult.events with hkept | ⟨base, row, accepted, logged, hbase, happended, hrow⟩
      · exact .inl hkept
      · exact .inr ⟨_, _, base, row, accepted, logged, hbase, happended, hrow⟩

end

end Commonwake
