import Commonwake.Continuity
import Commonwake.ReplaySafety
import Commonwake.SampleNode
import Commonwake.Synchronization

/-!
# The windows of imports

An import which logs a witness remembers which part of the remote log it
brought.  These parts do not overlap and cover every event which was linked to
a story, so that a reader who passes the witness is shown the story.
-/

namespace Commonwake

open Outcome Table HashChain

/-! ## The ids of imports -/

/-- The bytes from which the id of an import is computed. -/
def importIdInput (origin : String) (fromCursor throughCursor : ℤ) (eventHash : String) :
    Bytes :=
  utf8 origin ++ 0 :: (utf8 (toString fromCursor) ++
    0 :: (utf8 (toString throughCursor) ++ 0 :: utf8 eventHash))

/-- The bytes from which the ids of the imports of a run may be computed. -/
def importIdInputs (actions : List Action) : Set Bytes :=
  { bytes | ∃ bundle observedAt now appendedAt fromCursor,
    .importBundle bundle observedAt now appendedAt ∈ actions ∧
    0 ≤ fromCursor ∧ fromCursor < bundle.throughCursor ∧
    bytes = importIdInput bundle.originNodeId fromCursor bundle.throughCursor
      bundle.checkpoint.eventHash }

theorem importIdInputs_append (actions rest : List Action) :
    importIdInputs actions ⊆ importIdInputs (actions ++ rest) := by
  rintro bytes ⟨bundle, observedAt, now, appendedAt, fromCursor, hmem, hbounds⟩
  exact ⟨bundle, observedAt, now, appendedAt, fromCursor, List.mem_append_left _ hmem,
    hbounds⟩

/-! ### Texts without a zero byte -/

theorem zero_notMem_utf8_repr (n : ℕ) : (0 : UInt8) ∉ utf8 (Nat.repr n) := by
  rw [Nat.repr_eq_ofList_toDigits]
  refine zero_notMem_utf8_ofList fun c hc => ?_
  have hdigit : c.isDigit = true :=
    Nat.isDigit_of_mem_toDigits (by norm_num) (by norm_num) hc
  have hbounds : 48 ≤ c.toNat ∧ c.toNat ≤ 57 := by
    simp only [Char.isDigit, Bool.and_eq_true, decide_eq_true_eq] at hdigit
    exact hdigit
  obtain ⟨hlow, hhigh⟩ := hbounds
  have hchar : c = Char.ofNat c.toNat := (Char.ofNat_toNat c).symm
  generalize c.toNat = n at hlow hhigh hchar
  subst hchar
  interval_cases n <;> decide

theorem zero_notMem_nodeId (P : Primitives) (key : Bytes) :
    (0 : UInt8) ∉ utf8 (P.prefixedId "cwnode_" key) := by
  rw [Primitives.prefixedId, utf8_append, List.mem_append]
  rintro (htag | hdigest)
  · revert htag
    decide
  · exact zero_notMem_sha256Hex P key hdigest

theorem repr_inj_nat {m n : ℕ} (h : Nat.repr m = Nat.repr n) : m = n := by
  have hdigits := congrArg String.toList h
  rw [Nat.toList_repr, Nat.toList_repr] at hdigits
  rw [← Nat.ofDigitChars_ten_toDigits (n := m), hdigits, Nat.ofDigitChars_ten_toDigits]

/-- The id input determines the node and the first cursor. -/
theorem importIdInput_inj {origin other : String} {fromCursor throughCursor start stop : ℤ}
    {hash last : String} (horigin : (0 : UInt8) ∉ utf8 origin)
    (hother : (0 : UInt8) ∉ utf8 other) (hfrom : 0 ≤ fromCursor) (hstart : 0 ≤ start)
    (h : importIdInput origin fromCursor throughCursor hash =
      importIdInput other start stop last) :
    origin = other ∧ fromCursor = start := by
  obtain ⟨m, rfl⟩ := Int.eq_ofNat_of_zero_le hfrom
  obtain ⟨n, rfl⟩ := Int.eq_ofNat_of_zero_le hstart
  unfold importIdInput at h
  obtain ⟨hsame, hrest⟩ := append_zero_inj horigin hother h
  obtain ⟨hcursor, -⟩ :=
    append_zero_inj (zero_notMem_utf8_repr m) (zero_notMem_utf8_repr n) hrest
  refine ⟨utf8_injective hsame, ?_⟩
  rw [repr_inj_nat (utf8_injective hcursor)]

/-! ## The links of one import -/

section

variable {P : Primitives} {identity : NodeIdentity P} {origin : String}

/-- A new link names an event which is no witness. -/
theorem projectAndStore_storyEvents {event : OriginEvent} {state next : ImportState}
    (h : projectAndStore P origin event state = .ok next) :
    ∀ link ∈ next.tables.storyEvents, link ∈ state.tables.storyEvents ∨
      (link.originSequence = event.sequence ∧ event.kind ≠ "checkpoint_witnessed") := by
  obtain ⟨nonce, projected, hproject, rfl⟩ := projectAndStore_eq_ok h
  intro link hlink
  by_cases hkind : event.kind = "checkpoint_witnessed"
  · unfold validateAndProjectRemoteEvent at hproject
    simp only [hkind, bind_eq_ok, pure_eq_ok, Except.ok.injEq, Prod.mk.injEq] at hproject
    obtain ⟨-, -, -, rfl⟩ := hproject
    exact .inl hlink
  · have hrecords := validateAndProjectRemoteEvent_records origin event state _ hproject
    exact (hrecords.storyEvents link hlink).imp_right fun hsequence => ⟨hsequence, hkind⟩

theorem projectEvents_storyEvents {events : List OriginEvent} {state next : ImportState}
    (h : projectEvents P origin state events = .ok next) :
    ∀ link ∈ next.tables.storyEvents, link ∈ state.tables.storyEvents ∨
      ∃ event ∈ events, link.originSequence = event.sequence ∧
        event.kind ≠ "checkpoint_witnessed" := by
  unfold projectEvents at h
  induction events generalizing state with
  | nil =>
      simp only [foldState, Except.ok.injEq] at h
      subst h
      exact fun link hlink => .inl hlink
  | cons event rest ih =>
      simp only [foldState, bind_eq_ok] at h
      obtain ⟨middle, hstore, hrest⟩ := h
      intro link hlink
      rcases ih hrest link hlink with hmiddle | ⟨other, hother, hsame⟩
      · rcases projectAndStore_storyEvents hstore link hmiddle with hold | hnew
        · exact .inl hold
        · exact .inr ⟨event, List.mem_cons_self, hnew⟩
      · exact .inr ⟨other, List.mem_cons_of_mem _ hother, hsame⟩

section

variable {bundle : FederationBundle} {witness : CheckpointWitness} {now appendedAt : ℤ}
  {db next opened : Db} {report : FederationImportReport} {key : Bytes} {head : String}
  {loop : ImportLoop} {fresh : List OriginEvent} {state : ImportState}

/-- What an import links: its own new events, so that a witness is due. -/
theorem ImportResult.storyEvents
    (h : ImportResult P identity bundle witness now appendedAt db report next key head
      opened loop fresh state) :
    ∀ link ∈ (next.origins bundle.originNodeId).storyEvents,
      link ∈ (db.origins bundle.originNodeId).storyEvents ∨
      ((db.knownHead bundle.originNodeId).1 < link.originSequence ∧
        link.originSequence ≤ loop.cursor ∧
        shouldWitness bundle (db.knownHead bundle.originNodeId).1 = true) := by
  intro link hlink
  have hproject := h.looped.projected
  rw [h.opens.importState] at hproject
  rw [h.tables.1] at hlink
  rcases projectEvents_storyEvents hproject link hlink with hold |
    ⟨event, hevent, hsequence, hkind⟩
  · exact .inl hold
  · have hbounds := h.looped.numbered.mem_bounds hevent
    have hcursor : loop.cursor = (db.knownHead bundle.originNodeId).1 + fresh.length := by
      rw [h.looped.result]
    refine .inr ⟨by omega, by omega, ?_⟩
    rw [h.witness_due, List.any_eq_true]
    exact ⟨event, hevent, by simpa using hkind⟩

/-- The head of another origin stays where it is. -/
theorem ImportResult.other_knownHead
    (h : ImportResult P identity bundle witness now appendedAt db report next key head
      opened loop fresh state) {origin : String} (hne : origin ≠ bundle.originNodeId) :
    next.knownHead origin = db.knownHead origin := by
  have hpeer : next.peer? origin = db.peer? origin := by
    obtain ⟨events, witnesses, imports, hnext⟩ :=
      witnessImport_frame _ _ _ _ _ _ _ _ h.witnessed
    have hloop : loop.db.peers = opened.peers := by
      rw [h.looped.result]
      rfl
    have htest : ∀ row : PeerRow, (row.nodeId == bundle.originNodeId) = true →
        (row.nodeId == origin) = false := by
      intro row hrow
      rw [beq_iff_eq.mp hrow, beq_eq_false_iff_ne]
      exact hne.symm
    have hopened : opened.peers.find? (fun row => row.nodeId == origin) =
        db.peers.find? fun row => row.nodeId == origin := by
      cases h.opens with
      | known => rfl
      | first =>
          rw [List.find?_append, List.find?_cons_of_neg, List.find?_nil, Option.or_none]
          rw [htest _ (beq_self_eq_true _)]
          exact Bool.false_ne_true
    simp only at hnext
    unfold Db.peer?
    rw [hnext]
    simp only [advancePeer, hloop]
    rw [find?_updateWhere, hopened]
    · cases hfound : db.peers.find? fun row => row.nodeId == origin with
      | none => rfl
      | some row =>
          have hrow : (row.nodeId == bundle.originNodeId) = false := by
            have hnode := List.find?_some hfound
            rw [beq_iff_eq.mp hnode, beq_eq_false_iff_ne]
            exact hne
          rw [Option.map_some, hrow]
          rfl
    · intro row _
      rfl
  unfold Db.knownHead
  rw [hpeer]

theorem ImportResult.cursor_eq
    (h : ImportResult P identity bundle witness now appendedAt db report next key head
      opened loop fresh state) :
    loop.cursor = (db.knownHead bundle.originNodeId).1 + fresh.length := by
  rw [h.looped.result]

theorem ImportResult.knownHead_le
    (h : ImportResult P identity bundle witness now appendedAt db report next key head
      opened loop fresh state) (origin : String) :
    (db.knownHead origin).1 ≤ (next.knownHead origin).1 := by
  by_cases horigin : origin = bundle.originNodeId
  · have hcursor := h.cursor_eq
    rw [horigin, h.knownHead]
    omega
  · rw [h.other_knownHead horigin]

/-- When a witness is due, the window ends at the checkpoint, beyond the old head. -/
theorem ImportResult.cursor_of_due
    (h : ImportResult P identity bundle witness now appendedAt db report next key head
      opened loop fresh state)
    (hdue : Commonwake.shouldWitness bundle (db.knownHead bundle.originNodeId).1 = true) :
    loop.cursor = bundle.throughCursor ∧
      (db.knownHead bundle.originNodeId).1 < bundle.throughCursor := by
  rw [h.witness_due, List.any_eq_true] at hdue
  obtain ⟨event, hevent, -⟩ := hdue
  have hnil : fresh ≠ [] := List.ne_nil_of_mem hevent
  have hlength : 0 < fresh.length := List.length_pos_of_ne_nil hnil
  have hcursor := h.cursor_eq
  have hthrough := cursor_of_fresh h.verified h.looped hnil
  exact ⟨hthrough, by omega⟩

end

/-! ## The windows -/

/-- The part of a remote log which an import brought. -/
def FederationImportRow.Covers (row : FederationImportRow) (origin : String)
    (sequence : ℤ) : Prop :=
  row.originNodeId = origin ∧ row.remoteFromCursor < sequence ∧
    sequence ≤ row.remoteThroughCursor

/-- The windows of an origin follow each other up to its head, they contain
every link of a story, and each has its witness in the log. -/
structure ImportWindows (P : Primitives) (inputs : Set Bytes) (db : Db) : Prop where
  heads : ∀ origin, 0 ≤ (db.knownHead origin).1
  bounds : ∀ row ∈ db.federationImports, 0 ≤ row.remoteFromCursor ∧
    row.remoteFromCursor < row.remoteThroughCursor ∧
    row.remoteThroughCursor ≤ (db.knownHead row.originNodeId).1
  disjoint : db.federationImports.Pairwise fun first second =>
    first.originNodeId = second.originNodeId →
      first.remoteThroughCursor ≤ second.remoteFromCursor
  covered : ∀ origin, ∀ link ∈ (db.origins origin).storyEvents,
    ∃ row ∈ db.federationImports, row.Covers origin link.originSequence
  witnessed : ∀ row ∈ db.federationImports, ∃ event ∈ db.events,
    event.sequence = row.localWitnessSequence ∧
      event.eventId = row.localWitnessEventId ∧ event.witnesses P row.originNodeId = true
  checkpoints : ∀ row ∈ db.checkpointWitnesses, row.cursor ≤ (db.knownHead row.originNodeId).1
  ids : ∀ row ∈ db.federationImports, ∃ key hash,
    row.originNodeId = P.prefixedId "cwnode_" key ∧
    importIdInput row.originNodeId row.remoteFromCursor row.remoteThroughCursor hash ∈
      inputs ∧
    row.importId = P.prefixedId "cwimport_" (importIdInput row.originNodeId
      row.remoteFromCursor row.remoteThroughCursor hash)

theorem ImportWindows.mono {inputs others : Set Bytes} {db : Db}
    (h : ImportWindows P inputs db) (hsub : inputs ⊆ others) : ImportWindows P others db := by
  refine ⟨h.heads, h.bounds, h.disjoint, h.covered, h.witnessed, h.checkpoints, ?_⟩
  intro row hrow
  obtain ⟨key, hash, hnode, hinput, hid⟩ := h.ids row hrow
  exact ⟨key, hash, hnode, hsub hinput, hid⟩

theorem ImportWindows.init (inputs : Set Bytes) (nodeId : String) :
    ImportWindows P inputs (Db.init P nodeId) := by
  refine ⟨fun _ => le_refl _, ?_, .nil, ?_, ?_, ?_, ?_⟩
  · intro row hrow
    cases hrow
  · intro origin link hlink
    cases hlink
  · intro row hrow
    cases hrow
  · intro row hrow
    cases hrow
  · intro row hrow
    cases hrow

/-- A step of the node's own adds an event at most. -/
theorem ImportWindows.ownStep {inputs : Set Bytes} {db next : Db}
    (h : ImportWindows P inputs db) (hown : db.OwnStep P identity next) :
    ImportWindows P inputs next := by
  have hheads : ∀ origin, next.knownHead origin = db.knownHead origin := by
    intro origin
    unfold Db.knownHead Db.peer?
    rw [hown.peers]
  have hevents : db.events ⊆ next.events := by
    rcases hown.events with hkept | ⟨_, _, row, _, _, -, -, hrow⟩
    · rw [hkept]
      exact List.Subset.refl _
    · rw [hrow]
      exact List.subset_append_left _ _
  refine ⟨?_, ?_, ?_, ?_, ?_, ?_, ?_⟩
  · intro origin
    rw [hheads]
    exact h.heads origin
  · rw [hown.federationImports]
    intro row hrow
    rw [hheads]
    exact h.bounds row hrow
  · rw [hown.federationImports]
    exact h.disjoint
  · rw [hown.federationImports, hown.origins]
    exact h.covered
  · rw [hown.federationImports]
    intro row hrow
    obtain ⟨event, hevent, hwitness⟩ := h.witnessed row hrow
    exact ⟨event, hevents hevent, hwitness⟩
  · rw [hown.checkpointWitnesses]
    intro row hrow
    rw [hheads]
    exact h.checkpoints row hrow
  · rw [hown.federationImports]
    exact h.ids

section

variable {inputs : Set Bytes} {bundle : FederationBundle} {witness : CheckpointWitness}
  {now appendedAt : ℤ} {db next opened : Db} {report : FederationImportReport} {key : Bytes}
  {head : String} {loop : ImportLoop} {fresh : List OriginEvent} {state : ImportState}

/-- An import whose window is new appends it. -/
theorem ImportWindows.imports_eq {row : EventRow} (h : ImportWindows P inputs db)
    (hlog : LogSound P db.events) (hcollision : Set.InjOn P.sha256 inputs)
    (hnode : P.prefixedId "cwnode_" key = bundle.originNodeId)
    (hinput : importIdInput bundle.originNodeId (db.knownHead bundle.originNodeId).1
      bundle.throughCursor bundle.checkpoint.eventHash ∈ inputs)
    (hid : ∀ stored ∈ db.events, stored.eventId ≠ row.eventId)
    (hsequence : row.sequence = db.head + 1) (base : Db)
    (himports : base.federationImports = db.federationImports) :
    (recordImport P bundle (db.knownHead bundle.originNodeId).1 bundle.throughCursor
        (row.eventId, row.sequence) base).federationImports =
      db.federationImports ++ [⟨P.prefixedId "cwimport_" (importIdInput bundle.originNodeId
          (db.knownHead bundle.originNodeId).1 bundle.throughCursor
          bundle.checkpoint.eventHash), bundle.originNodeId,
        (db.knownHead bundle.originNodeId).1, bundle.throughCursor, row.eventId,
        row.sequence⟩] := by
  have hzero : (0 : UInt8) ∉ utf8 bundle.originNodeId := by
    rw [← hnode]
    exact zero_notMem_nodeId P key
  have hfresh : ∀ stored ∈ db.federationImports,
      stored.importId ≠ P.prefixedId "cwimport_" (importIdInput bundle.originNodeId
        (db.knownHead bundle.originNodeId).1 bundle.throughCursor
        bundle.checkpoint.eventHash) ∧
      stored.localWitnessEventId ≠ row.eventId ∧
      stored.localWitnessSequence ≠ row.sequence := by
    intro stored hstored
    obtain ⟨hfrom, hless, hthrough⟩ := h.bounds stored hstored
    obtain ⟨event, hevent, heventSequence, heventId, -⟩ := h.witnessed stored hstored
    refine ⟨?_, ?_, ?_⟩
    · -- An older window of the same origin starts before the head.
      intro hsame
      obtain ⟨otherKey, hash, hother, hstoredInput, hstoredId⟩ := h.ids stored hstored
      have hotherZero : (0 : UInt8) ∉ utf8 stored.originNodeId := by
        rw [hother]
        exact zero_notMem_nodeId P otherKey
      have hbytes := hcollision hstoredInput hinput
        (Primitives.sha256_eq_of_prefixedId_eq P (hstoredId.symm.trans hsame))
      obtain ⟨horigin, hcursor⟩ := importIdInput_inj hotherZero hzero hfrom
        (h.heads bundle.originNodeId) hbytes
      rw [horigin] at hthrough
      omega
    · rw [← heventId]
      exact hid event hevent
    · have hbounds := hlog.numbered.mem_bounds hevent
      have hhead := hlog.head_eq
      omega
  simp only [recordImport, himports]
  unfold insertOrIgnore
  rw [if_neg]
  · rfl
  · intro hclash
    obtain ⟨stored, hstored, hsame⟩ := List.any_eq_true.mp hclash
    obtain ⟨hnotId, hnotEvent, hnotSequence⟩ := hfresh stored hstored
    simp only [Bool.or_eq_true, beq_iff_eq] at hsame
    rcases hsame with (hsameId | hsameEvent) | hsameSequence
    · exact hnotId hsameId
    · exact hnotEvent hsameEvent
    · exact hnotSequence hsameSequence

/-- An import without a witness brings no link. -/
theorem ImportWindows.unwitnessed (h : ImportWindows P inputs db)
    (hresult : ImportResult P identity bundle witness now appendedAt db report next key head
      opened loop fresh state)
    (hdue : Commonwake.shouldWitness bundle (db.knownHead bundle.originNodeId).1 = false)
    (hevents : db.events ⊆ next.events)
    (hwitnesses : next.checkpointWitnesses = db.checkpointWitnesses)
    (himports : next.federationImports = db.federationImports) :
    ImportWindows P inputs next := by
  have hheads := hresult.knownHead_le
  refine ⟨fun origin => (h.heads origin).trans (hheads origin), ?_, ?_, ?_, ?_, ?_, ?_⟩
  · rw [himports]
    intro row hrow
    obtain ⟨hfrom, hless, hthrough⟩ := h.bounds row hrow
    exact ⟨hfrom, hless, hthrough.trans (hheads row.originNodeId)⟩
  · rw [himports]
    exact h.disjoint
  · rw [himports]
    intro origin link hlink
    by_cases horigin : origin = bundle.originNodeId
    · subst horigin
      rcases hresult.storyEvents link hlink with hold | ⟨-, -, hwitnessed⟩
      · exact h.covered _ link hold
      · rw [hdue] at hwitnessed
        cases hwitnessed
    · rw [hresult.other_origins horigin] at hlink
      exact h.covered origin link hlink
  · rw [himports]
    intro row hrow
    obtain ⟨event, hevent, hsame⟩ := h.witnessed row hrow
    exact ⟨event, hevents hevent, hsame⟩
  · rw [hwitnesses]
    intro row hrow
    exact (h.checkpoints row hrow).trans (hheads row.originNodeId)
  · rw [himports]
    exact h.ids

/-- An import which logs a witness opens the next window of its origin. -/
theorem ImportWindows.logged {row : EventRow} {accepted : AcceptedObject} {base logged : Db}
    (h : ImportWindows P inputs db) (hlog : LogSound P db.events)
    (hcollision : Set.InjOn P.sha256 inputs)
    (hresult : ImportResult P identity bundle witness now appendedAt db report next key head
      opened loop fresh state)
    (hinput : importIdInput bundle.originNodeId (db.knownHead bundle.originNodeId).1
      bundle.throughCursor bundle.checkpoint.eventHash ∈ inputs)
    (hdue : Commonwake.shouldWitness bundle (db.knownHead bundle.originNodeId).1 = true)
    (hbase : base.events = db.events) (hbaseImports : base.federationImports =
      db.federationImports)
    (happended : Appended P identity (witnessInput P bundle witness) appendedAt base row
      accepted logged)
    (hnext : next = recordImport P bundle (db.knownHead bundle.originNodeId).1 loop.cursor
      (row.eventId, row.sequence) { logged with
        checkpointWitnesses := db.checkpointWitnesses ++ [⟨bundle.originNodeId,
          bundle.checkpoint.cursor, bundle.checkpoint.eventHash, row.eventId⟩] }) :
    ImportWindows P inputs next := by
  obtain ⟨hcursor, hbeyond⟩ := hresult.cursor_of_due hdue
  rw [hcursor] at hnext
  have hsequence : row.sequence = db.head + 1 := by
    rw [happended.columns.1, base.head_eq, db.head_eq, hbase]
  have hids : ∀ stored ∈ db.events, stored.eventId ≠ row.eventId := by
    rw [← hbase]
    exact happended.fresh_id
  have hloggedImports : logged.federationImports = db.federationImports := by
    rw [happended.next_eq]
    exact hbaseImports
  have himports := h.imports_eq hlog hcollision hresult.verified.nodeId hinput hids hsequence
    { logged with
        checkpointWitnesses := db.checkpointWitnesses ++ [⟨bundle.originNodeId,
          bundle.checkpoint.cursor, bundle.checkpoint.eventHash, row.eventId⟩] }
    hloggedImports
  rw [← hnext] at himports
  have hevents : next.events = db.events ++ [row] := by
    rw [hnext, ← hbase]
    exact happended.events
  have hwitnesses : next.checkpointWitnesses = db.checkpointWitnesses ++
      [⟨bundle.originNodeId, bundle.checkpoint.cursor, bundle.checkpoint.eventHash,
        row.eventId⟩] := by
    rw [hnext]
    rfl
  have hheads := hresult.knownHead_le
  have hhead : (next.knownHead bundle.originNodeId).1 = bundle.throughCursor := by
    rw [hresult.knownHead, hcursor]
  refine ⟨fun origin => (h.heads origin).trans (hheads origin), ?_, ?_, ?_, ?_, ?_, ?_⟩
  · rw [himports, List.forall_mem_append, List.forall_mem_singleton]
    refine ⟨?_, h.heads bundle.originNodeId, hbeyond, hhead.ge⟩
    intro stored hstored
    obtain ⟨hfrom, hless, hthrough⟩ := h.bounds stored hstored
    exact ⟨hfrom, hless, hthrough.trans (hheads stored.originNodeId)⟩
  · rw [himports, List.pairwise_append]
    refine ⟨h.disjoint, List.pairwise_singleton _ _, ?_⟩
    intro stored hstored new hnew horigin
    rw [List.mem_singleton.mp hnew] at horigin ⊢
    have hthrough := (h.bounds stored hstored).2.2
    rw [horigin] at hthrough
    exact hthrough
  · rw [himports]
    intro origin link hlink
    by_cases horigin : origin = bundle.originNodeId
    · subst horigin
      rcases hresult.storyEvents link hlink with hold | ⟨hafter, hbefore, -⟩
      · obtain ⟨stored, hstored, hcovers⟩ := h.covered _ link hold
        exact ⟨stored, List.mem_append_left _ hstored, hcovers⟩
      · rw [hcursor] at hbefore
        exact ⟨_, List.mem_append_right _ List.mem_cons_self, rfl, hafter, hbefore⟩
    · rw [hresult.other_origins horigin] at hlink
      obtain ⟨stored, hstored, hcovers⟩ := h.covered origin link hlink
      exact ⟨stored, List.mem_append_left _ hstored, hcovers⟩
  · rw [himports, List.forall_mem_append, List.forall_mem_singleton, hevents]
    refine ⟨?_, row, List.mem_append_right _ List.mem_cons_self, rfl, rfl,
      (happended.witnesses _).mpr rfl⟩
    intro stored hstored
    obtain ⟨event, hevent, hsame⟩ := h.witnessed stored hstored
    exact ⟨event, List.mem_append_left _ hevent, hsame⟩
  · rw [hwitnesses, List.forall_mem_append, List.forall_mem_singleton]
    refine ⟨?_, ?_⟩
    · intro stored hstored
      exact (h.checkpoints stored hstored).trans (hheads stored.originNodeId)
    · simp only
      rw [hresult.verified.checkpointCursor, hhead]
  · rw [himports, List.forall_mem_append, List.forall_mem_singleton]
    exact ⟨h.ids, key, bundle.checkpoint.eventHash, hresult.verified.nodeId.symm, hinput,
      rfl⟩

/-- The witnessed checkpoints are those up to the head, and a bundle with something
new ends beyond it. -/
theorem ImportWindows.alreadyWitnessed_eq_none {base : Db} (h : ImportWindows P inputs db)
    (hresult : ImportResult P identity bundle witness now appendedAt db report next key head
      opened loop fresh state)
    (hdue : Commonwake.shouldWitness bundle (db.knownHead bundle.originNodeId).1 = true)
    (hwitnesses : base.checkpointWitnesses = db.checkpointWitnesses) :
    base.alreadyWitnessed bundle = none := by
  cases hagain : base.alreadyWitnessed bundle with
  | none => rfl
  | some witnessed =>
      exfalso
      obtain ⟨-, hbeyond⟩ := hresult.cursor_of_due hdue
      unfold Db.alreadyWitnessed at hagain
      obtain ⟨stored, hfound, -⟩ := Option.bind_eq_some_iff.mp hagain
      have hstored := List.mem_of_find?_eq_some hfound
      have htest := List.find?_some hfound
      simp only [Bool.and_eq_true, beq_iff_eq] at htest
      rw [hwitnesses] at hstored
      have hbound := h.checkpoints stored hstored
      rw [htest.1.1, htest.1.2, hresult.verified.checkpointCursor] at hbound
      omega

theorem ImportWindows.imported (h : ImportWindows P inputs db) (hlog : LogSound P db.events)
    (hcollision : Set.InjOn P.sha256 inputs)
    (hresult : ImportResult P identity bundle witness now appendedAt db report next key head
      opened loop fresh state)
    (hinput : ∀ fromCursor, 0 ≤ fromCursor → fromCursor < bundle.throughCursor →
      importIdInput bundle.originNodeId fromCursor bundle.throughCursor
        bundle.checkpoint.eventHash ∈ inputs) :
    ImportWindows P inputs next := by
  obtain ⟨-, hevents, -, hwitnesses, himports⟩ := hresult.advanced
  have houtcome := hresult.outcome
  generalize hbase : advancePeer P bundle (P.timestamp now) loop = base
    at houtcome hevents hwitnesses himports
  generalize hnext : next = after at houtcome
  cases houtcome with
  | none hnone =>
      subst hnext
      refine h.unwitnessed hresult hnone ?_ hwitnesses himports
      rw [hevents]
      exact List.Subset.refl _
  | again witnessed hshould hagain =>
      rw [h.alreadyWitnessed_eq_none hresult hshould hwitnesses] at hagain
      cases hagain
  | logged row accepted logged hshould hnew happended =>
      obtain ⟨-, hbeyond⟩ := hresult.cursor_of_due hshould
      rw [← hnext]
      rw [hwitnesses] at hnext
      exact h.logged hlog hcollision hresult
        (hinput _ (h.heads bundle.originNodeId) hbeyond) hshould hevents himports happended
        hnext

end

/-! ## Every run -/

theorem run_importWindows (identity : NodeIdentity P) (actions : List Action)
    (hcollision : Set.InjOn P.sha256 (importIdInputs actions)) :
    ImportWindows P (importIdInputs actions) (NodeState.run P identity actions).db := by
  induction actions using List.reverseRecOn with
  | nil => exact .init _ identity.nodeId
  | append_singleton actions action ih =>
      have hsub := importIdInputs_append actions [action]
      have hbefore := (ih (hcollision.mono hsub)).mono hsub
      have hlog := (run_history_any P identity actions).logSound
      rw [NodeState.run_append_singleton]
      rcases (NodeState.run P identity actions).step_synchronizes
        identity action with hown |
        ⟨bundle, observedAt, now, appendedAt, report, key, head, opened, loop, fresh, state,
          haction, hresult⟩
      · exact hbefore.ownStep hown
      · refine hbefore.imported hlog hcollision hresult ?_
        intro fromCursor hfrom hless
        refine ⟨bundle, observedAt, now, appendedAt, fromCursor, ?_, hfrom, hless, rfl⟩
        rw [haction]
        exact List.mem_append_right _ List.mem_cons_self

/-! ## Later states -/

/-- What was added after the first state lies beyond its heads. -/
structure Db.ImportsExtend (first later : Db) : Prop where
  events : first.events <+: later.events
  heads : ∀ origin, (first.knownHead origin).1 ≤ (later.knownHead origin).1
  links : ∀ origin, ∀ link ∈ (later.origins origin).storyEvents,
    link ∈ (first.origins origin).storyEvents ∨
      (first.knownHead origin).1 < link.originSequence
  windows : ∀ row ∈ later.federationImports, row ∈ first.federationImports ∨
    ∃ event ∈ later.events.drop first.events.length,
      event.sequence = row.localWitnessSequence

theorem Db.ImportsExtend.refl (db : Db) : db.ImportsExtend db :=
  ⟨List.prefix_refl _, fun _ => le_refl _, fun _ _ hlink => .inl hlink,
    fun _ hrow => .inl hrow⟩

theorem Db.ImportsExtend.trans {first second third : Db} (h : first.ImportsExtend second)
    (h' : second.ImportsExtend third) : first.ImportsExtend third := by
  obtain ⟨added, hadded⟩ := h.events
  obtain ⟨more, hmore⟩ := h'.events
  refine ⟨h.events.trans h'.events, fun origin => (h.heads origin).trans (h'.heads origin),
    ?_, ?_⟩
  · intro origin link hlink
    rcases h'.links origin link hlink with hsecond | hbeyond
    · exact h.links origin link hsecond
    · exact .inr ((h.heads origin).trans_lt hbeyond)
  · intro row hrow
    rcases h'.windows row hrow with hsecond | ⟨event, hevent, hsequence⟩
    · refine (h.windows row hsecond).imp_right ?_
      rintro ⟨event, hevent, hsequence⟩
      refine ⟨event, ?_, hsequence⟩
      rw [← hadded, List.drop_left] at hevent
      rw [← hmore, ← hadded, List.append_assoc, List.drop_left]
      exact List.mem_append_left _ hevent
    · refine .inr ⟨event, ?_, hsequence⟩
      rw [← hmore, List.drop_left] at hevent
      rw [← hmore, ← hadded, List.append_assoc, List.drop_left]
      exact List.mem_append_right _ hevent

theorem Db.OwnStep.importsExtend {db next : Db} (h : db.OwnStep P identity next) :
    db.ImportsExtend next := by
  refine ⟨?_, ?_, ?_, ?_⟩
  · rcases h.events with hkept | ⟨_, _, row, _, _, -, -, hrow⟩
    · rw [hkept]
    · rw [hrow]
      exact List.prefix_append _ _
  · intro origin
    unfold Db.knownHead Db.peer?
    rw [h.peers]
  · rw [h.origins]
    exact fun origin link hlink => .inl hlink
  · rw [h.federationImports]
    exact fun row hrow => .inl hrow

theorem ImportResult.importsExtend {inputs : Set Bytes} {bundle : FederationBundle}
    {witness : CheckpointWitness} {now appendedAt : ℤ} {db next opened : Db}
    {report : FederationImportReport} {key : Bytes} {head : String} {loop : ImportLoop}
    {fresh : List OriginEvent} {state : ImportState}
    (h : ImportResult P identity bundle witness now appendedAt db report next key head
      opened loop fresh state) (hwindows : ImportWindows P inputs db) :
    db.ImportsExtend next := by
  obtain ⟨-, hevents, -, hwitnesses, himports⟩ := h.advanced
  have hlinks : ∀ origin, ∀ link ∈ (next.origins origin).storyEvents,
      link ∈ (db.origins origin).storyEvents ∨
        (db.knownHead origin).1 < link.originSequence := by
    intro origin link hlink
    by_cases horigin : origin = bundle.originNodeId
    · subst horigin
      exact (h.storyEvents link hlink).imp_right fun hnew => hnew.1
    · rw [h.other_origins horigin] at hlink
      exact .inl hlink
  have houtcome := h.outcome
  generalize advancePeer P bundle (P.timestamp now) loop = base
    at houtcome hevents hwitnesses himports
  generalize hnext : next = after at houtcome
  rw [← hnext]
  cases houtcome with
  | none =>
      refine ⟨?_, h.knownHead_le, hlinks, ?_⟩
      · rw [hnext, hevents]
      · rw [hnext, himports]
        exact fun row hrow => .inl hrow
  | again witnessed hshould hagain =>
      rw [hwindows.alreadyWitnessed_eq_none h hshould hwitnesses] at hagain
      cases hagain
  | logged row accepted logged hshould hnew happended =>
      have hlog : next.events = db.events ++ [row] := by
        rw [hnext, ← hevents]
        exact happended.events
      refine ⟨?_, h.knownHead_le, hlinks, ?_⟩
      · rw [hlog]
        exact List.prefix_append _ _
      · rw [hlog, List.drop_left]
        intro window hwindow
        rw [hnext] at hwindow
        rcases mem_insertOrIgnore hwindow with hold | rfl
        · left
          rw [← himports]
          rw [happended.next_eq] at hold
          exact hold
        · exact .inr ⟨row, List.mem_cons_self, rfl⟩

theorem run_importsExtend (identity : NodeIdentity P) (actions rest : List Action)
    (hcollision : Set.InjOn P.sha256 (importIdInputs (actions ++ rest))) :
    (NodeState.run P identity actions).db.ImportsExtend
      (NodeState.run P identity (actions ++ rest)).db := by
  induction rest using List.reverseRecOn with
  | nil =>
      rw [List.append_nil]
      exact .refl _
  | append_singleton rest action ih =>
      rw [← List.append_assoc] at hcollision ⊢
      have hbefore := hcollision.mono (importIdInputs_append (actions ++ rest) [action])
      have hwindows := run_importWindows identity (actions ++ rest) hbefore
      have hearlier := ih hbefore
      rw [NodeState.run_append_singleton]
      rcases (NodeState.run P identity (actions ++ rest)).step_synchronizes
        identity action with hown |
        ⟨bundle, observedAt, now, appendedAt, report, key, head, opened, loop, fresh, state,
          -, hresult⟩
      · exact hearlier.trans hown.importsExtend
      · exact hearlier.trans (hresult.importsExtend hwindows)

/-! ## What a reader is shown -/

/-- Is the story shown among the remote changes of an orientation? -/
def OrientationBundle.ShowsStory (bundle : OrientationBundle) (origin storyId : String) :
    Prop :=
  ∃ view ∈ bundle.federatedWorldChanges,
    view.originNodeId = origin ∧ view.storyId = storyId

/-- The pages which a reader has asked for, each from where the one before it
ended: the first cursor, every page with the run of the node at its time, and
the run at the last page. -/
inductive Reads (P : Primitives) (identity : NodeIdentity P) (lineageId : String) :
    ℤ → List (List Action × OrientationBundle) → List Action → OrientationBundle → Prop
  | first (since : Option ℤ) (now : ℤ) (actions : List Action) (bundle : OrientationBundle)
      (horient : orient P identity lineageId since now (NodeState.run P identity actions).db =
        .ok bundle) :
      Reads P identity lineageId bundle.fromCursor [(actions, bundle)] actions bundle
  | next (start : ℤ) (pages : List (List Action × OrientationBundle))
      (actions rest : List Action) (last bundle : OrientationBundle) (now : ℤ)
      (hread : Reads P identity lineageId start pages actions last)
      (horient : orient P identity lineageId (some last.nextCursor) now
        (NodeState.run P identity (actions ++ rest)).db = .ok bundle) :
      Reads P identity lineageId start (pages ++ [(actions ++ rest, bundle)])
        (actions ++ rest) bundle

section

variable {lineageId : String}

theorem federatedStoryView_ids {db : Db} {origin storyId : String} {view : FederatedStoryView}
    (h : db.federatedStoryView P origin storyId = .ok view) :
    view.originNodeId = origin ∧ view.storyId = storyId := by
  simp only [Db.federatedStoryView, storyViewBody, bind_eq_ok, pure_eq_ok,
    Except.ok.injEq] at h
  obtain ⟨body, ⟨_, -, _, -, _, -, _, -, _, -, rfl⟩, _, -, rfl⟩ := h
  exact ⟨rfl, rfl⟩

/-- A page shows the stories of the windows which it passes. -/
theorem orient_showsStory {since : Option ℤ} {now : ℤ} {db : Db}
    {bundle : OrientationBundle} {row : FederationImportRow} {link : StoryEventRow}
    (h : orient P identity lineageId since now db = .ok bundle)
    (hrow : row ∈ db.federationImports)
    (hpage : bundle.fromCursor < row.localWitnessSequence ∧
      row.localWitnessSequence ≤ bundle.nextCursor)
    (hlink : link ∈ (db.origins row.originNodeId).storyEvents)
    (hcovers : row.Covers row.originNodeId link.originSequence)
    (hstory : (db.origins row.originNodeId).content.hasUnmergedStory link.storyId = true) :
    bundle.ShowsStory row.originNodeId link.storyId := by
  unfold orient at h
  simp only [bind_eq_ok, rejectIf_eq_ok, pure_eq_ok, Except.ok.injEq] at h
  obtain ⟨lineage, -, -, -, views, -, worldChanges, -, federated, hfederated, checkpoint, -,
    commitments, -, rfl⟩ := h
  simp only at hpage
  unfold Db.federatedStoriesChangedBetween at hfederated
  rw [traverse_eq_ok] at hfederated
  have hchanged : (row.originNodeId, link.storyId) ∈ db.federatedChangedStoryIds
      (since.getD (db.lastAcknowledgedCursor lineageId))
      (pageEnd (since.getD (db.lastAcknowledgedCursor lineageId))
        (views.take maxOrientationPage)) := by
    unfold Db.federatedChangedStoryIds
    rw [List.mem_mergeSort, List.mem_dedup, List.mem_flatMap]
    refine ⟨row, List.mem_filter.mpr ⟨hrow, ?_⟩, ?_⟩
    · exact decide_eq_true hpage
    · refine List.mem_map.mpr ⟨link, List.mem_filter.mpr ⟨hlink, ?_⟩, rfl⟩
      rw [hstory, Bool.and_true]
      exact decide_eq_true hcovers.2
  have hview := List.mem_map_of_mem
    (f := fun id : String × String => db.federatedStoryView P id.1 id.2) hchanged
  rw [hfederated] at hview
  obtain ⟨view, hmem, hok⟩ := List.mem_map.mp hview
  exact ⟨view, hmem, federatedStoryView_ids hok.symm⟩

/-- The pages leave out no cursor. -/
theorem Reads.exists_page {start : ℤ} {pages : List (List Action × OrientationBundle)}
    {actions : List Action} {bundle : OrientationBundle}
    (h : Reads P identity lineageId start pages actions bundle) {sequence : ℤ}
    (hstart : start < sequence) (hend : sequence ≤ bundle.nextCursor) :
    ∃ page ∈ pages, page.2.fromCursor < sequence ∧ sequence ≤ page.2.nextCursor ∧
      page.1 <+: actions ∧ ∃ since now, orient P identity lineageId since now
        (NodeState.run P identity page.1).db = .ok page.2 := by
  induction h with
  | first since now actions bundle horient =>
      exact ⟨_, List.mem_cons_self, hstart, hend, List.prefix_refl _, since, now, horient⟩
  | next start pages actions rest last bundle now hread horient ih =>
      by_cases hlast : sequence ≤ last.nextCursor
      · obtain ⟨page, hpage, hfrom, hthrough, hprefix, horiented⟩ := ih hstart hlast
        exact ⟨page, List.mem_append_left _ hpage, hfrom, hthrough,
          hprefix.trans (List.prefix_append _ _), horiented⟩
      · have horiented := orient_eq_ok (run_history_any P identity (actions ++ rest)).logSound
          horient
        have hfrom : bundle.fromCursor = last.nextCursor := horiented.fromCursor
        refine ⟨_, List.mem_append_right _ List.mem_cons_self, ?_, hend, List.prefix_refl _,
          _, now, horient⟩
        rw [hfrom]
        exact not_le.mp hlast

/-- A page which passes a later window found it in the tables. -/
theorem Reads.shows {start : ℤ} {pages : List (List Action × OrientationBundle)}
    {actions : List Action} {bundle : OrientationBundle} {row : FederationImportRow}
    {link : StoryEventRow} (h : Reads P identity lineageId start pages actions bundle)
    (hcollision : Set.InjOn P.sha256 (importIdInputs actions))
    (hrow : row ∈ (NodeState.run P identity actions).db.federationImports)
    (hlink : link ∈
      ((NodeState.run P identity actions).db.origins row.originNodeId).storyEvents)
    (hcovers : row.Covers row.originNodeId link.originSequence)
    (hstart : start < row.localWitnessSequence)
    (hend : row.localWitnessSequence ≤ bundle.nextCursor) :
    ∃ page ∈ pages, page.2.fromCursor < row.localWitnessSequence ∧
      row.localWitnessSequence ≤ page.2.nextCursor ∧
      (((NodeState.run P identity page.1).db.origins
          row.originNodeId).content.hasUnmergedStory link.storyId = true →
        page.2.ShowsStory row.originNodeId link.storyId) := by
  obtain ⟨page, hpage, hfrom, hthrough, hprefix, since, now, horient⟩ :=
    h.exists_page hstart hend
  refine ⟨page, hpage, hfrom, hthrough, ?_⟩
  intro hstory
  obtain ⟨rest, hrest⟩ := hprefix
  rw [← hrest] at hcollision hrow hlink
  have hextends := run_importsExtend identity page.1 rest hcollision
  have hbefore := hcollision.mono (importIdInputs_append page.1 rest)
  have hlog := (run_history_any P identity page.1).logSound
  have hlater := (run_history_any P identity (page.1 ++ rest)).logSound
  -- The page ends inside the log of its time.
  have hhead : row.localWitnessSequence ≤
      (NodeState.run P identity page.1).db.events.length := by
    have horiented := orient_eq_ok hlog horient
    have hcursor := horiented.nextCursor
    have hlength := congrArg List.length horiented.page
    rw [List.length_take, List.length_drop] at hlength
    have hnonneg := horiented.nonneg
    omega
  have hwindow : row ∈ (NodeState.run P identity page.1).db.federationImports := by
    rcases hextends.windows row hrow with hold | ⟨event, hevent, hsequence⟩
    · exact hold
    · have hbounds := (hlater.numbered.drop
        (NodeState.run P identity page.1).db.events.length).mem_bounds hevent
      omega
  have hbounds := (run_importWindows identity page.1 hbefore).bounds row hwindow
  rcases hextends.links row.originNodeId link hlink with hold | hbeyond
  · exact orient_showsStory horient hwindow ⟨hfrom, hthrough⟩ hold hcovers hstory
  · have hcovered := hcovers.2.2
    omega

end

/-- Of two windows which overlap neither comes before the other. -/
theorem ImportWindows.eq_of_covers {inputs : Set Bytes} {db : Db}
    (h : ImportWindows P inputs db) {first second : FederationImportRow}
    (hfirst : first ∈ db.federationImports) (hsecond : second ∈ db.federationImports)
    {sequence : ℤ} (hcovers : first.Covers origin sequence)
    (hother : second.Covers origin sequence) : first = second := by
  have hsame : first.originNodeId = second.originNodeId := hcovers.1.trans hother.1.symm
  have hlow : first.remoteFromCursor < sequence ∧ second.remoteFromCursor < sequence :=
    ⟨hcovers.2.1, hother.2.1⟩
  have hhigh : sequence ≤ first.remoteThroughCursor ∧ sequence ≤ second.remoteThroughCursor :=
    ⟨hcovers.2.2, hother.2.2⟩
  by_contra hne
  obtain ⟨i, hi, rfl⟩ := List.mem_iff_getElem.mp hfirst
  obtain ⟨j, hj, rfl⟩ := List.mem_iff_getElem.mp hsecond
  have hpairwise := List.pairwise_iff_getElem.mp h.disjoint
  rcases lt_trichotomy i j with hlt | rfl | hlt
  · have hbefore := hpairwise i j hi hj hlt hsame
    omega
  · exact hne rfl
  · have hbefore := hpairwise j i hj hi hlt hsame.symm
    omega

theorem ImportWindows.existsUnique {inputs : Set Bytes} {db : Db}
    (h : ImportWindows P inputs db) {link : StoryEventRow}
    (hlink : link ∈ (db.origins origin).storyEvents) :
    ∃! row, row ∈ db.federationImports ∧ row.Covers origin link.originSequence := by
  obtain ⟨row, hrow, hcovers⟩ := h.covered origin link hlink
  refine ⟨row, ⟨hrow, hcovers⟩, ?_⟩
  rintro other ⟨hother, hotherCovers⟩
  exact h.eq_of_covers hother hrow hotherCovers hcovers

/-- Remote changes reach the readers of the node. -/
theorem run_remoteChanges (identity : NodeIdentity P) (actions : List Action)
    (hcollision : Set.InjOn P.sha256 (importIdInputs actions)) :
    (∀ origin, ∀ link ∈ ((NodeState.run P identity actions).db.origins origin).storyEvents,
      ∃! row, row ∈ (NodeState.run P identity actions).db.federationImports ∧
        row.Covers origin link.originSequence) ∧
    (∀ row ∈ (NodeState.run P identity actions).db.federationImports,
      ∃ event ∈ (NodeState.run P identity actions).db.events,
        event.sequence = row.localWitnessSequence ∧
        event.witnesses P row.originNodeId = true) ∧
    (∀ lineageId start pages bundle, Reads P identity lineageId start pages actions bundle →
      ∀ row ∈ (NodeState.run P identity actions).db.federationImports,
      ∀ link ∈ ((NodeState.run P identity actions).db.origins row.originNodeId).storyEvents,
        row.Covers row.originNodeId link.originSequence →
        start < row.localWitnessSequence → row.localWitnessSequence ≤ bundle.nextCursor →
        ∃ page ∈ pages, page.2.fromCursor < row.localWitnessSequence ∧
          row.localWitnessSequence ≤ page.2.nextCursor ∧
          (((NodeState.run P identity page.1).db.origins
              row.originNodeId).content.hasUnmergedStory link.storyId = true →
            page.2.ShowsStory row.originNodeId link.storyId)) := by
  have hwindows := run_importWindows identity actions hcollision
  refine ⟨fun origin link hlink => hwindows.existsUnique hlink, ?_, ?_⟩
  · intro row hrow
    obtain ⟨event, hevent, hsequence, -, hwitness⟩ := hwindows.witnessed row hrow
    exact ⟨event, hevent, hsequence, hwitness⟩
  · intro lineageId start pages bundle hreads row hrow link hlink hcovers hstart hend
    exact hreads.shows hcollision hrow hlink hcovers hstart hend

end

namespace Sample

/-- The ids which the import of the merged stories may be given. -/
def mergedInputs : List Bytes :=
  (importLog mergedRun).flatMap fun action =>
    match action with
    | .importBundle bundle _ _ _ =>
        (List.range bundle.throughCursor.toNat).map fun cursor : ℕ =>
          importIdInput bundle.originNodeId cursor bundle.throughCursor
            bundle.checkpoint.eventHash
    | _ => []

instance mergedRun_links : Fact ((mergedInputs.map library.sha256).Nodup ∧
    ∃ link ∈ ((NodeState.run library importer (importLog mergedRun)).db.origins
        origin.nodeId).storyEvents,
      ((NodeState.run library importer (importLog mergedRun)).db.origins
        origin.nodeId).content.hasUnmergedStory link.storyId = true) :=
  ⟨by decide +kernel⟩

theorem mem_mergedInputs {bytes : Bytes} (h : bytes ∈ importIdInputs (importLog mergedRun)) :
    bytes ∈ mergedInputs := by
  obtain ⟨bundle, observedAt, now, appendedAt, fromCursor, haction, hfrom, hless, rfl⟩ := h
  refine List.mem_flatMap.mpr ⟨_, haction, ?_⟩
  have hcast : ((fromCursor.toNat : ℕ) : ℤ) = fromCursor := Int.toNat_of_nonneg hfrom
  have hrange : fromCursor.toNat ∈ List.range bundle.throughCursor.toNat := by
    rw [List.mem_range]
    omega
  have hmem := List.mem_map_of_mem (f := fun cursor : ℕ =>
    importIdInput bundle.originNodeId (cursor : ℤ) bundle.throughCursor
      bundle.checkpoint.eventHash) hrange
  rw [hcast] at hmem
  exact hmem

/-- The merged stories which the importer keeps have their windows. -/
theorem run_remoteChanges_mergedRun :
    ∃ link ∈ ((NodeState.run library importer (importLog mergedRun)).db.origins
        origin.nodeId).storyEvents,
      ((NodeState.run library importer (importLog mergedRun)).db.origins
        origin.nodeId).content.hasUnmergedStory link.storyId = true ∧
      ∃! row, row ∈ (NodeState.run library importer
          (importLog mergedRun)).db.federationImports ∧
        row.Covers origin.nodeId link.originSequence := by
  have hinjective := List.inj_on_of_nodup_map mergedRun_links.out.1
  have hcollision : Set.InjOn library.sha256 (importIdInputs (importLog mergedRun)) := by
    intro first hfirst second hsecond hsame
    exact hinjective (mem_mergedInputs hfirst) (mem_mergedInputs hsecond) hsame
  obtain ⟨link, hlink, hstory⟩ := mergedRun_links.out.2
  exact ⟨link, hlink, hstory,
    (run_remoteChanges importer (importLog mergedRun) hcollision).1 origin.nodeId link hlink⟩

end Sample

end Commonwake
