import Commonwake.Lifetime

/-!
# Synchronization

An import appends a witness to the log of the importer, which other nodes import
in turn.  A witness answers an event of another kind which the node has not seen
before, so that a node never has more witnesses about an origin than it has
events of other kinds from there.
-/

namespace Commonwake

open Outcome Table HashChain

section

variable (P : Primitives)

/-- Does the event witness a checkpoint of the origin? -/
def EventRow.witnesses (origin : String) (row : EventRow) : Bool :=
  row.kind == "checkpoint_witnessed" &&
    row.targetsJson == P.toText (Serde.strings [origin])

/-- The witnesses of the node about an origin. -/
def Db.witnessCount (db : Db) (origin : String) : ℕ :=
  db.events.countP (EventRow.witnesses P origin)

/-- The imported events of an origin which are not witnesses themselves. -/
def Db.importedCount (db : Db) (origin : String) : ℕ :=
  (db.origins origin).remoteEvents.countP fun row => row.kind != "checkpoint_witnessed"

end

section

variable {P : Primitives} {identity : NodeIdentity P} {db next : Db}

theorem Appended.witnesses_of_kind {input : EventInput} {receivedAt : ℤ} {row : EventRow}
    {accepted : AcceptedObject}
    (h : Appended P identity input receivedAt db row accepted next)
    (hkind : input.kind ≠ "checkpoint_witnessed") (origin : String) :
    row.witnesses P origin = false := by
  have hrow : (row.kind == "checkpoint_witnessed") = false := by
    rw [h.columns.2.1, beq_eq_false_iff_ne]
    exact hkind
  unfold EventRow.witnesses
  rw [hrow, Bool.false_and]

theorem toText_strings_inj {first second : List String}
    (h : P.toText (Serde.strings first) = P.toText (Serde.strings second)) :
    first = second := by
  have hparsed := congrArg P.parse h
  rw [P.parse_toText, P.parse_toText, Option.some.injEq] at hparsed
  simp only [Serde.strings, Json.array.injEq] at hparsed
  exact (List.map_injective_iff.mpr fun _ _ heq => Json.string.inj heq) hparsed

/-- A witness event names the origin of its checkpoint. -/
theorem Appended.witnesses {bundle : FederationBundle} {witness : CheckpointWitness}
    {receivedAt : ℤ} {row : EventRow} {accepted : AcceptedObject}
    (h : Appended P identity (witnessInput P bundle witness) receivedAt db row accepted next)
    (origin : String) :
    row.witnesses P origin = true ↔ origin = bundle.originNodeId := by
  obtain ⟨_, _, -, -, -, hrow⟩ := h.row_eq
  have htargets : row.targetsJson = P.toText (Serde.strings [bundle.originNodeId]) := by
    rw [hrow]
    rfl
  have hkind : row.kind = "checkpoint_witnessed" := h.columns.2.1
  unfold EventRow.witnesses
  rw [hkind, htargets, beq_self_eq_true, Bool.true_and, beq_iff_eq]
  constructor
  · intro heq
    exact (List.singleton_inj.mp (toText_strings_inj heq)).symm
  · rintro rfl
    rfl

section

variable {bundle : FederationBundle} {witness : CheckpointWitness} {now appendedAt : ℤ}
  {opened : Db} {report : FederationImportReport} {key : Bytes} {head : String}
  {loop : ImportLoop} {fresh : List OriginEvent} {state : ImportState}

/-- A witness is due when the import brought an event of another kind. -/
theorem ImportResult.witness_due
    (h : ImportResult P identity bundle witness now appendedAt db report next key head
      opened loop fresh state) :
    shouldWitness bundle (db.knownHead bundle.originNodeId).1 =
      fresh.any fun event => event.kind != "checkpoint_witnessed" := by
  rw [h.looped.fresh_eq, List.any_filter]
  rfl

theorem countP_remoteRows {rows : List RemoteEventRow}
    (h : List.Forall₂ (fun event row => ∃ nonce, row = remoteRow P event nonce) fresh rows) :
    (rows.countP fun row => row.kind != "checkpoint_witnessed") =
      fresh.countP fun event => event.kind != "checkpoint_witnessed" := by
  induction h with
  | nil => rfl
  | cons hrow _ ih =>
      obtain ⟨nonce, rfl⟩ := hrow
      rw [List.countP_cons, List.countP_cons, ih]
      rfl

theorem ImportResult.importedCount
    (h : ImportResult P identity bundle witness now appendedAt db report next key head
      opened loop fresh state) :
    next.importedCount bundle.originNodeId = db.importedCount bundle.originNodeId +
      fresh.countP fun event => event.kind != "checkpoint_witnessed" := by
  obtain ⟨rows, hrows, hstored⟩ := h.remoteEvents
  unfold Db.importedCount
  rw [hstored, List.countP_append, countP_remoteRows hrows]

/-- One more witness at most, and only about the origin of the bundle. -/
theorem ImportResult.witnessCount
    (h : ImportResult P identity bundle witness now appendedAt db report next key head
      opened loop fresh state) (origin : String) :
    next.witnessCount P origin = db.witnessCount P origin ∨
      (origin = bundle.originNodeId ∧
        next.witnessCount P origin = db.witnessCount P origin + 1 ∧
        ∃ event ∈ fresh, event.kind ≠ "checkpoint_witnessed") := by
  obtain ⟨-, hevents, -, -, -⟩ := h.advanced
  have houtcome := h.outcome
  have hdue := h.witness_due
  generalize advancePeer P bundle (P.timestamp now) loop = base at houtcome hevents
  unfold Db.witnessCount
  cases houtcome with
  | none =>
      rw [hevents]
      exact .inl rfl
  | again =>
      simp only [recordImport]
      rw [hevents]
      exact .inl rfl
  | logged row accepted logged hshould _ happended =>
      have hnext : logged.events = db.events ++ [row] := by
        rw [happended.events, hevents]
      simp only [recordImport]
      rw [hnext, List.countP_append, List.countP_singleton]
      by_cases horigin : origin = bundle.originNodeId
      · refine .inr ⟨horigin, ?_, ?_⟩
        · rw [if_pos ((happended.witnesses origin).mpr horigin)]
        · rw [hdue, List.any_eq_true] at hshould
          simpa using hshould
      · rw [if_neg fun hwitnesses => horigin ((happended.witnesses origin).mp hwitnesses)]
        exact .inl rfl

end

/-! ## Every run -/

/-- No step adds more witnesses about an origin than events of other kinds. -/
theorem NodeState.step_witnessCount (node : NodeState) (action : Action) (origin : String)
    (h : node.db.witnessCount P origin ≤ node.db.importedCount origin) :
    (node.step P identity action).db.witnessCount P origin ≤
      (node.step P identity action).db.importedCount origin := by
  rcases node.step_synchronizes identity action with hown |
    ⟨bundle, observedAt, now, appendedAt, report, key, head, opened, loop, fresh, state, -,
      hresult⟩
  · have hcount : (node.step P identity action).db.witnessCount P origin =
        node.db.witnessCount P origin := by
      unfold Db.witnessCount
      rcases hown.events with hkept | ⟨input, _, row, _, _, hkind, happended, hrow⟩
      · rw [hkept]
      · rw [hrow, List.countP_append, List.countP_singleton,
          happended.witnesses_of_kind hkind]
        rfl
    unfold Db.importedCount at h ⊢
    rw [hcount, hown.origins]
    exact h
  · have hwitnesses := hresult.witnessCount origin
    by_cases horigin : origin = bundle.originNodeId
    · have himported := hresult.importedCount
      rw [← horigin] at himported
      rcases hwitnesses with hsame | ⟨-, hmore, event, hevent, hkind⟩
      · omega
      · have hpositive : 0 < fresh.countP fun event =>
            event.kind != "checkpoint_witnessed" := by
          rw [List.countP_pos_iff]
          exact ⟨event, hevent, by simpa using hkind⟩
        omega
    · have hother := hresult.other_origins horigin
      unfold Db.importedCount at h ⊢
      rw [hother]
      rcases hwitnesses with hsame | ⟨hsame, -, -⟩
      · rw [hsame]
        exact h
      · exact absurd hsame horigin

theorem run_witnessCount (identity : NodeIdentity P) (actions : List Action)
    (origin : String) :
    (NodeState.run P identity actions).db.witnessCount P origin ≤
      (NodeState.run P identity actions).db.importedCount origin := by
  induction actions using List.reverseRecOn with
  | nil => exact Nat.zero_le _
  | append_singleton actions action ih =>
      rw [NodeState.run_append_singleton]
      exact NodeState.step_witnessCount _ action origin ih

end

end Commonwake
