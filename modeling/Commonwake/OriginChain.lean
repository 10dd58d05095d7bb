import Commonwake.System

/-!
# The stored log of an origin

Whatever bundles a node imports, and in whatever order, what it stores about
an origin is a prefix of one signed chain: the events are numbered from one
without a gap, each carries the hash of its predecessor and a signature of
the origin, and the peer and the checkpoints agree with them.
-/

namespace Commonwake

open Outcome Table HashChain

section

variable (P : Primitives)

/-- The stored rows are the beginning of a chain which was signed with the
given key. -/
structure StoredLog (key : Bytes) (rows : List RemoteEventRow) : Prop where
  numbered : Numbered RemoteEventRow.originSequence 0 rows
  linked : Linked RemoteEventRow.previousHash RemoteEventRow.eventHash zeroHash rows
  authentic : ∀ row ∈ rows, ∃ event, remoteOriginEventFromRow P row = .ok event ∧
    AuthenticEvent P key event

/-- The stored log of a peer, its head, and its checkpoints. -/
structure StoredChain (db : Db) (peer : PeerRow) : Prop where
  log : ∃ key, P.verifyingKeyFromB64 peer.nodePublicKey = .ok key ∧
    P.prefixedId "cwnode_" key = peer.nodeId ∧
    StoredLog P key (db.origins peer.nodeId).remoteEvents
  cursor : peer.cursor = (db.origins peer.nodeId).remoteEvents.length
  eventHash : peer.eventHash = lastHash RemoteEventRow.eventHash zeroHash
    (db.origins peer.nodeId).remoteEvents
  headCheckpoint : ∃ checkpoint ∈ (db.origins peer.nodeId).remoteCheckpoints,
    checkpoint.cursor = peer.cursor ∧ checkpoint.eventHash = peer.eventHash
  checkpoints : ∀ checkpoint ∈ (db.origins peer.nodeId).remoteCheckpoints,
    storedHashAt peer.nodeId checkpoint.cursor db = some checkpoint.eventHash

/-- The federation tables of a node. -/
structure StoredChains (db : Db) : Prop where
  distinct : (db.peers.map PeerRow.nodeId).Nodup
  chain : ∀ peer ∈ db.peers, StoredChain P db peer
  unknown : ∀ origin, db.peer? origin = none →
    (db.origins origin).remoteEvents = [] ∧ (db.origins origin).remoteCheckpoints = []

end

section

variable {P : Primitives}

/-! ## Stored rows -/

/-- The row of an event is read back as the event. -/
theorem remoteOriginEventFromRow_remoteRow (event : OriginEvent) (nonce : Option String) :
    remoteOriginEventFromRow P (remoteRow P event nonce) = .ok event := by
  simp [remoteOriginEventFromRow, remoteRow]

theorem exists_right_of_mem {α β : Type} {relation : α → β → Prop} {first : List α}
    {second : List β} (h : List.Forall₂ relation first second) {a : α} (ha : a ∈ first) :
    ∃ b ∈ second, relation a b := by
  induction h with
  | nil => cases ha
  | @cons c b first second hrelated _ ih =>
      rcases List.mem_cons.mp ha with rfl | hmem
      · exact ⟨b, List.mem_cons_self, hrelated⟩
      · obtain ⟨other, hother, hboth⟩ := ih hmem
        exact ⟨other, List.mem_cons_of_mem _ hother, hboth⟩

theorem exists_left_of_mem {α β : Type} {relation : α → β → Prop} {first : List α}
    {second : List β} (h : List.Forall₂ relation first second) {b : β} (hb : b ∈ second) :
    ∃ a ∈ first, relation a b :=
  exists_right_of_mem (List.Forall₂.flip h) hb

theorem numbered_of_rows {start : ℤ} {events : List OriginEvent}
    {rows : List RemoteEventRow}
    (hrows : List.Forall₂ (fun event row => ∃ nonce, row = remoteRow P event nonce)
      events rows)
    (hnumbered : Numbered OriginEvent.sequence start events) :
    Numbered RemoteEventRow.originSequence start rows := by
  induction hrows generalizing start with
  | nil => exact trivial
  | cons hrow _ ih =>
      obtain ⟨nonce, rfl⟩ := hrow
      exact ⟨hnumbered.1, ih hnumbered.2⟩

theorem linked_of_rows {head : String} {events : List OriginEvent}
    {rows : List RemoteEventRow}
    (hrows : List.Forall₂ (fun event row => ∃ nonce, row = remoteRow P event nonce)
      events rows)
    (hlinked : Linked OriginEvent.previousHash OriginEvent.eventHash head events) :
    Linked RemoteEventRow.previousHash RemoteEventRow.eventHash head rows := by
  induction hrows generalizing head with
  | nil => exact trivial
  | cons hrow _ ih =>
      obtain ⟨nonce, rfl⟩ := hrow
      exact ⟨hlinked.1, ih hlinked.2⟩

theorem lastHash_of_rows {head : String} {events : List OriginEvent}
    {rows : List RemoteEventRow}
    (hrows : List.Forall₂ (fun event row => ∃ nonce, row = remoteRow P event nonce)
      events rows) :
    lastHash RemoteEventRow.eventHash head rows =
      lastHash OriginEvent.eventHash head events := by
  induction hrows generalizing head with
  | nil => rfl
  | cons hrow _ ih =>
      obtain ⟨nonce, rfl⟩ := hrow
      rw [lastHash_cons, lastHash_cons, ih]
      rfl

theorem authentic_of_rows {key : Bytes} {events : List OriginEvent}
    {rows : List RemoteEventRow}
    (hrows : List.Forall₂ (fun event row => ∃ nonce, row = remoteRow P event nonce)
      events rows)
    (hauthentic : ∀ event ∈ events, AuthenticEvent P key event) :
    ∀ row ∈ rows, ∃ event, remoteOriginEventFromRow P row = .ok event ∧
      AuthenticEvent P key event := by
  induction hrows with
  | nil => simp
  | @cons event row events rows hrow _ ih =>
      obtain ⟨nonce, rfl⟩ := hrow
      intro other hother
      rcases List.mem_cons.mp hother with rfl | hmem
      · exact ⟨event, remoteOriginEventFromRow_remoteRow event nonce,
          hauthentic event List.mem_cons_self⟩
      · exact ih (fun e he => hauthentic e (List.mem_cons_of_mem _ he)) other hmem

/-- Recorded events prolong the stored log. -/
theorem StoredLog.append {key : Bytes} {rows added : List RemoteEventRow}
    {fresh : List OriginEvent} (hlog : StoredLog P key rows)
    (hrows : List.Forall₂ (fun event row => ∃ nonce, row = remoteRow P event nonce)
      fresh added)
    (hnumbered : Numbered OriginEvent.sequence rows.length fresh)
    (hlinked : Linked OriginEvent.previousHash OriginEvent.eventHash
      (lastHash RemoteEventRow.eventHash zeroHash rows) fresh)
    (hauthentic : ∀ event ∈ fresh, AuthenticEvent P key event) :
    StoredLog P key (rows ++ added) := by
  refine ⟨Numbered.append.mpr ⟨hlog.numbered, ?_⟩, Linked.append.mpr ⟨hlog.linked,
    linked_of_rows hrows hlinked⟩, ?_⟩
  · rw [zero_add]
    exact numbered_of_rows hrows hnumbered
  · intro row hrow
    rcases List.mem_append.mp hrow with hold | hnew
    · exact hlog.authentic row hold
    · exact authentic_of_rows hrows hauthentic row hnew

/-! ## Looking up hashes -/

theorem storedHashAt_congr {origin : String} {cursor : ℤ} {db next : Db}
    (h : (next.origins origin).remoteEvents = (db.origins origin).remoteEvents) :
    storedHashAt origin cursor next = storedHashAt origin cursor db := by
  unfold storedHashAt
  rw [h]

/-- A hash which is stored stays stored. -/
theorem storedHashAt_append {origin hash : String} {cursor : ℤ} {db next : Db}
    {added : List RemoteEventRow}
    (h : (next.origins origin).remoteEvents =
      (db.origins origin).remoteEvents ++ added)
    (hstored : storedHashAt origin cursor db = some hash) :
    storedHashAt origin cursor next = some hash := by
  unfold storedHashAt at hstored ⊢
  by_cases hzero : cursor = 0
  · rw [if_pos hzero] at hstored ⊢
    exact hstored
  · rw [if_neg hzero, Option.map_eq_some_iff] at hstored
    obtain ⟨row, hrow, hhash⟩ := hstored
    rw [if_neg hzero, h, List.find?_append, hrow]
    simp [hhash]

/-! ## Databases with the same federation tables -/

theorem StoredChain.congr {db next : Db} {peer : PeerRow}
    (h : StoredChain P db peer)
    (hevents : (next.origins peer.nodeId).remoteEvents =
      (db.origins peer.nodeId).remoteEvents)
    (hcheckpoints : (next.origins peer.nodeId).remoteCheckpoints =
      (db.origins peer.nodeId).remoteCheckpoints) :
    StoredChain P next peer := by
  obtain ⟨hlog, hcursor, hhash, hhead, hall⟩ := h
  rw [← hevents] at hlog hcursor hhash
  rw [← hcheckpoints] at hhead hall
  refine ⟨hlog, hcursor, hhash, hhead, ?_⟩
  intro checkpoint hmem
  rw [storedHashAt_congr hevents]
  exact hall checkpoint hmem

theorem StoredChains.congr {db next : Db} (h : StoredChains P db)
    (hpeers : next.peers = db.peers) (horigins : next.origins = db.origins) :
    StoredChains P next := by
  refine ⟨by rw [hpeers]; exact h.distinct, ?_, ?_⟩
  · intro peer hpeer
    rw [hpeers] at hpeer
    exact (h.chain peer hpeer).congr (by rw [horigins]) (by rw [horigins])
  · intro origin horigin
    have hnone : db.peer? origin = none := by
      unfold Db.peer? at horigin ⊢
      rwa [hpeers] at horigin
    rw [horigins]
    exact h.unknown origin hnone

theorem storedChains_init (nodeId : String) : StoredChains P (Db.init P nodeId) where
  distinct := List.nodup_nil
  chain := by
    intro peer hpeer
    cases hpeer
  unknown _ _ := ⟨rfl, rfl⟩

/-! ## One import -/

theorem Db.mem_of_peer? {db : Db} {origin : String} {peer : PeerRow}
    (h : db.peer? origin = some peer) : peer ∈ db.peers ∧ peer.nodeId = origin := by
  refine ⟨List.mem_of_find?_eq_some h, ?_⟩
  simpa using List.find?_some h

/-- What is stored about the origin of a bundle before its import. -/
theorem StoredChains.before_import {db : Db} {bundle : FederationBundle} {key : Bytes}
    {head : String} {now : String} {opened : Db} (h : StoredChains P db)
    (hverified : VerifiedBundle P bundle key head)
    (hopens : OpensPeer bundle now db opened) :
    StoredLog P key (db.origins bundle.originNodeId).remoteEvents ∧
    db.knownHead bundle.originNodeId =
      (((db.origins bundle.originNodeId).remoteEvents.length : ℤ),
        lastHash RemoteEventRow.eventHash zeroHash
          (db.origins bundle.originNodeId).remoteEvents) ∧
    ∀ checkpoint ∈ (db.origins bundle.originNodeId).remoteCheckpoints,
      storedHashAt bundle.originNodeId checkpoint.cursor db =
        some checkpoint.eventHash := by
  cases hopens with
  | known peer hpeer hkey =>
      obtain ⟨hmem, hnode⟩ := Db.mem_of_peer? hpeer
      obtain ⟨⟨key', hkey', -, hlog⟩, hcursor, hhash, -, hcheckpoints⟩ :=
        h.chain peer hmem
      rw [hkey, hverified.publicKey] at hkey'
      cases hkey'
      rw [hnode] at hlog hcursor hhash hcheckpoints
      refine ⟨hlog, ?_, hcheckpoints⟩
      simp [Db.knownHead, hpeer, hcursor, hhash]
  | first hpeer hfrom =>
      obtain ⟨hevents, hnone⟩ := h.unknown bundle.originNodeId hpeer
      rw [hevents, hnone]
      refine ⟨⟨trivial, trivial, by simp⟩, ?_, by simp⟩
      simp [Db.knownHead, hpeer]

section

variable {identity : NodeIdentity P} {bundle : FederationBundle}
  {witness : CheckpointWitness} {now appendedAt : ℤ} {db next opened : Db}
  {report : FederationImportReport} {key : Bytes} {head : String} {loop : ImportLoop}
  {fresh : List OriginEvent} {state : ImportState}

/-- An import stores the checkpoint of the bundle, unless it is stored already. -/
theorem ImportResult.remoteCheckpoints
    (h : ImportResult P identity bundle witness now appendedAt db report next key head
      opened loop fresh state) :
    ∃ row : RemoteCheckpointRow, row.cursor = bundle.checkpoint.cursor ∧
      row.eventHash = bundle.checkpoint.eventHash ∧
      row.checkpointJson = P.toText (bundle.checkpoint.toJson P) ∧
      (next.origins bundle.originNodeId).remoteCheckpoints =
        insertOrIgnore
          (fun stored => stored.cursor == row.cursor && stored.eventHash == row.eventHash) row
          (db.origins bundle.originNodeId).remoteCheckpoints := by
  obtain ⟨events, witnesses, imports, hnext⟩ :=
    witnessImport_frame _ _ _ _ _ _ _ _ h.witnessed
  obtain ⟨rows, -, -, hkept⟩ := projectEvents_log h.looped.projected
  have hbefore : (loop.db.origins bundle.originNodeId).remoteCheckpoints =
      (db.origins bundle.originNodeId).remoteCheckpoints := by
    rw [h.looped.result]
    simp only [Db.withImportState, Db.setOrigin_self]
    rw [hkept, h.opens.importState]
    rfl
  simp only at hnext
  rw [hnext]
  simp only [advancePeer, Db.setOrigin_self, hbefore]
  refine ⟨⟨_, _, P.timestamp bundle.checkpoint.createdAt, bundle.checkpoint.signature, _⟩,
    rfl, rfl, rfl, ?_⟩
  rfl

/-- The checkpoints after an import are those before it and the one of the
bundle. -/
theorem ImportResult.checkpoints
    (h : ImportResult P identity bundle witness now appendedAt db report next key head
      opened loop fresh state) :
    (db.origins bundle.originNodeId).remoteCheckpoints ⊆
        (next.origins bundle.originNodeId).remoteCheckpoints ∧
    (∃ checkpoint ∈ (next.origins bundle.originNodeId).remoteCheckpoints,
      checkpoint.cursor = bundle.checkpoint.cursor ∧
        checkpoint.eventHash = bundle.checkpoint.eventHash) ∧
    ∀ checkpoint ∈ (next.origins bundle.originNodeId).remoteCheckpoints,
      checkpoint ∈ (db.origins bundle.originNodeId).remoteCheckpoints ∨
        (checkpoint.cursor = bundle.checkpoint.cursor ∧
          checkpoint.eventHash = bundle.checkpoint.eventHash) := by
  obtain ⟨row, hcursor, hhash, -, hstored⟩ := h.remoteCheckpoints
  rw [hstored]
  refine ⟨subset_insertOrIgnore _ _ _, ?_, ?_⟩
  · rw [← hcursor, ← hhash]
    exact exists_mem_insertOrIgnore _ _ _ (by simp) (by simp)
  · intro checkpoint hmem
    rcases mem_insertOrIgnore hmem with hold | rfl
    · exact .inl hold
    · exact .inr ⟨hcursor, hhash⟩

/-- The stored events after an import. -/
theorem ImportResult.remoteEvents
    (h : ImportResult P identity bundle witness now appendedAt db report next key head
      opened loop fresh state) :
    ∃ rows, List.Forall₂ (fun event row => ∃ nonce, row = remoteRow P event nonce)
        fresh rows ∧
      (next.origins bundle.originNodeId).remoteEvents =
        (db.origins bundle.originNodeId).remoteEvents ++ rows := by
  obtain ⟨rows, hrows, hevents, -⟩ := projectEvents_log h.looped.projected
  refine ⟨rows, hrows, ?_⟩
  rw [h.tables.1]
  simp only
  rw [hevents, h.opens.importState]
  rfl

/-- What is stored about another origin stays. -/
theorem ImportResult.other_origins
    (h : ImportResult P identity bundle witness now appendedAt db report next key head
      opened loop fresh state) {origin : String} (hne : origin ≠ bundle.originNodeId) :
    next.origins origin = db.origins origin := by
  obtain ⟨events, witnesses, imports, hnext⟩ :=
    witnessImport_frame _ _ _ _ _ _ _ _ h.witnessed
  simp only at hnext
  rw [hnext, h.looped.result]
  simp [advancePeer, Db.withImportState, Db.setOrigin, hne, h.opens.origins]

/-- The peers after an import: those before it, and the origin at its new
head. -/
theorem ImportResult.peers
    (h : ImportResult P identity bundle witness now appendedAt db report next key head
      opened loop fresh state) :
    next.peers.map PeerRow.nodeId = opened.peers.map PeerRow.nodeId ∧
    ∀ peer ∈ next.peers,
      (peer.nodeId ≠ bundle.originNodeId ∧ peer ∈ db.peers) ∨
      (peer.nodeId = bundle.originNodeId ∧ peer.cursor = loop.cursor ∧
        peer.eventHash = loop.hash ∧
        ∃ old ∈ opened.peers, old.nodeId = bundle.originNodeId ∧
          peer.nodePublicKey = old.nodePublicKey) := by
  obtain ⟨events, witnesses, imports, hnext⟩ :=
    witnessImport_frame _ _ _ _ _ _ _ _ h.witnessed
  have hloop : loop.db.peers = opened.peers := by
    rw [h.looped.result]
    rfl
  simp only at hnext
  rw [hnext]
  simp only [advancePeer, hloop]
  refine ⟨?_, ?_⟩
  · rw [map_updateWhere]
    intro _ _
    rfl
  intro peer hpeer
  obtain ⟨old, hold, rfl⟩ := mem_updateWhere.mp hpeer
  by_cases hnode : old.nodeId = bundle.originNodeId
  · simp only [hnode, beq_self_eq_true, if_true]
    exact .inr ⟨trivial, trivial, trivial, old, hold, hnode, rfl⟩
  · have hfalse : (old.nodeId == bundle.originNodeId) = false := by simpa using hnode
    simp only [hfalse, Bool.false_eq_true, if_false]
    refine .inl ⟨hnode, ?_⟩
    have hopens := h.opens
    cases hopens with
    | known => exact hold
    | first =>
        rcases List.mem_append.mp hold with hmem | hnew
        · exact hmem
        · rw [List.mem_singleton] at hnew
          subst hnew
          exact absurd rfl hnode

/-- The key of the origin of a bundle is the one its peer is stored with. -/
theorem OpensPeer.publicKey_eq {now : String} (h : OpensPeer bundle now db opened)
    (hdistinct : (opened.peers.map PeerRow.nodeId).Nodup) {peer : PeerRow}
    (hpeer : peer ∈ opened.peers) (hnode : peer.nodeId = bundle.originNodeId) :
    peer.nodePublicKey = bundle.originNodePublicKey := by
  have hunique : ∀ other ∈ opened.peers, other.nodeId = bundle.originNodeId →
      peer = other := fun other hother hid =>
    List.inj_on_of_nodup_map hdistinct hpeer hother (hnode.trans hid.symm)
  cases h with
  | known known hknown hkey =>
      obtain ⟨hmem, hid⟩ := Db.mem_of_peer? hknown
      rw [hunique known hmem hid, hkey]
  | first hnone hfrom =>
      have heq := hunique ⟨bundle.originNodeId, bundle.originNodePublicKey, now, now, 0,
        zeroHash, "null"⟩ (by simp) rfl
      rw [heq]

theorem OpensPeer.nodup {now : String} (h : OpensPeer bundle now db opened)
    (hdistinct : (db.peers.map PeerRow.nodeId).Nodup) :
    (opened.peers.map PeerRow.nodeId).Nodup := by
  cases h with
  | known => exact hdistinct
  | first hpeer hfrom =>
      rw [List.map_append, List.nodup_append]
      refine ⟨hdistinct, by simp, ?_⟩
      intro first hfirst second hsecond heq
      obtain ⟨old, hold, rfl⟩ := List.mem_map.mp hfirst
      simp only [List.map_cons, List.map_nil, List.mem_singleton] at hsecond
      unfold Db.peer? at hpeer
      rw [List.find?_eq_none] at hpeer
      apply hpeer old hold
      rw [beq_iff_eq, heq, hsecond]

/-- The head checkpoint of the origin of a bundle before its import. -/
theorem OpensPeer.headCheckpoint {now : String} (h : OpensPeer bundle now db opened)
    (hchains : StoredChains P db) :
    (∃ checkpoint ∈ (db.origins bundle.originNodeId).remoteCheckpoints,
      checkpoint.cursor = (db.knownHead bundle.originNodeId).1 ∧
        checkpoint.eventHash = (db.knownHead bundle.originNodeId).2) ∨
    (bundle.fromCursor = 0 ∧ db.knownHead bundle.originNodeId = (0, zeroHash)) := by
  cases h with
  | known peer hpeer hkey =>
      obtain ⟨hmem, hnode⟩ := Db.mem_of_peer? hpeer
      obtain ⟨checkpoint, hcheckpoint, hcursor, hhash⟩ :=
        (hchains.chain peer hmem).headCheckpoint
      rw [hnode] at hcheckpoint
      refine .inl ⟨checkpoint, hcheckpoint, ?_⟩
      simp [Db.knownHead, hpeer, hcursor, hhash]
  | first hpeer hfrom =>
      refine .inr ⟨hfrom, ?_⟩
      simp [Db.knownHead, hpeer]

/-- A checkpoint of the new head is stored by an import. -/
theorem ImportResult.headCheckpoint
    (h : ImportResult P identity bundle witness now appendedAt db report next key head
      opened loop fresh state) (hchains : StoredChains P db) :
    ∃ checkpoint ∈ (next.origins bundle.originNodeId).remoteCheckpoints,
      checkpoint.cursor = loop.cursor ∧ checkpoint.eventHash = loop.hash := by
  obtain ⟨hkept, ⟨signed, hsigned, hcursor, hhash⟩, -⟩ := h.checkpoints
  have hloop := h.looped
  have hresult := h.looped.result
  by_cases hfresh : fresh = []
  · -- Nothing is new: the head checkpoint is the one from before.
    subst hfresh
    have hheadCursor : loop.cursor = (db.knownHead bundle.originNodeId).1 := by
      rw [hresult]
      simp
    have hheadHash : loop.hash = (db.knownHead bundle.originNodeId).2 := by
      rw [hresult]
      simp
    rcases h.opens.headCheckpoint hchains with ⟨checkpoint, hmem, hc, hh⟩ |
      ⟨hfrom, hknown⟩
    · exact ⟨checkpoint, hkept hmem, hc.trans hheadCursor.symm, hh.trans hheadHash.symm⟩
    · have hthrough := throughCursor_le_of_nil h.verified h.start hloop
      have hlength := h.verified.throughCursor
      rw [hknown] at hthrough
      simp only at hthrough
      have hzero : bundle.throughCursor = 0 := by omega
      have hevents : bundle.events = [] := by
        rw [← List.length_eq_zero_iff]
        omega
      have hgenesis : bundle.checkpoint.eventHash = zeroHash := by
        rw [h.verified.checkpointHash (.inr hzero), hevents, lastHash_nil,
          h.verified.genesis hfrom]
      refine ⟨signed, hsigned, ?_, ?_⟩
      · rw [hcursor, h.verified.checkpointCursor, hzero, hheadCursor, hknown]
      · rw [hhash, hgenesis, hheadHash, hknown]
  · -- The bundle ends at the new head.
    obtain ⟨overlap, hsplit, -⟩ := hloop.split
    have hevents : bundle.events ≠ [] := by
      rw [hsplit]
      simp [hfresh]
    refine ⟨signed, hsigned, ?_, ?_⟩
    · rw [hcursor, h.verified.checkpointCursor, cursor_of_fresh h.verified hloop hfresh]
    · rw [hhash, h.verified.checkpointHash (.inl hevents), hresult, hsplit,
        lastHash_append]
      exact lastHash_of_ne_nil _ _ _ hfresh

/-- The chain of the origin of a bundle after its import. -/
theorem ImportResult.storedChain
    (h : ImportResult P identity bundle witness now appendedAt db report next key head
      opened loop fresh state) (hchains : StoredChains P db) {peer : PeerRow}
    (hnode : peer.nodeId = bundle.originNodeId)
    (hkey : peer.nodePublicKey = bundle.originNodePublicKey)
    (hcursor : peer.cursor = loop.cursor) (hhash : peer.eventHash = loop.hash) :
    StoredChain P next peer := by
  obtain ⟨hlog, hknown, hcheckpoints⟩ := hchains.before_import h.verified h.opens
  obtain ⟨rows, hrows, hevents⟩ := h.remoteEvents
  obtain ⟨-, -, hadded⟩ := h.checkpoints
  obtain ⟨⟨overlap, hsplit, -⟩, hnumbered, hlinked, -, hresult⟩ := h.looped
  rw [hknown] at hnumbered hlinked hresult
  have hauthentic : ∀ event ∈ fresh, AuthenticEvent P key event := fun event hmem =>
    h.verified.chain.authentic event (by simp [hsplit, hmem])
  have hnext := hlog.append hrows hnumbered hlinked hauthentic
  have hlength : (loop.cursor : ℤ) =
      ((next.origins bundle.originNodeId).remoteEvents.length : ℤ) := by
    rw [hevents, hresult, List.length_append, ← hrows.length_eq]
    push_cast
    rfl
  have hlast : loop.hash = lastHash RemoteEventRow.eventHash zeroHash
      (next.origins bundle.originNodeId).remoteEvents := by
    rw [hevents, hresult, lastHash_append, lastHash_of_rows hrows]
  have hstored : storedHashAt bundle.originNodeId bundle.checkpoint.cursor next =
      some bundle.checkpoint.eventHash := by
    rw [← h.checkpoint]
    apply storedHashAt_congr
    rw [h.tables.1, hresult]
    simp [Db.withImportState]
  refine ⟨⟨key, by rw [hkey, h.verified.publicKey], by rw [hnode, h.verified.nodeId],
    ?_⟩, ?_, ?_, ?_, ?_⟩
  · rw [hnode, hevents]
    exact hnext
  · rw [hcursor, hnode, hlength]
  · rw [hhash, hnode, hlast]
  · rw [hnode, hcursor, hhash]
    exact h.headCheckpoint hchains
  · rw [hnode]
    intro checkpoint hmem
    rcases hadded checkpoint hmem with hold | ⟨hc, hh⟩
    · exact storedHashAt_append hevents (hcheckpoints checkpoint hold)
    · rw [hc, hh]
      exact hstored

/-- An import keeps the stored chains of all origins. -/
theorem ImportResult.storedChains
    (h : ImportResult P identity bundle witness now appendedAt db report next key head
      opened loop fresh state) (hchains : StoredChains P db) :
    StoredChains P next := by
  obtain ⟨hids, hpeers⟩ := h.peers
  have hdistinct := h.opens.nodup hchains.distinct
  refine ⟨by rw [hids]; exact hdistinct, ?_, ?_⟩
  · intro peer hpeer
    rcases hpeers peer hpeer with ⟨hne, hmem⟩ |
      ⟨hnode, hcursor, hhash, old, hold, holdNode, hkey⟩
    · have hother := h.other_origins hne
      exact (hchains.chain peer hmem).congr (by rw [hother]) (by rw [hother])
    · refine h.storedChain hchains hnode ?_ hcursor hhash
      rw [hkey, h.opens.publicKey_eq hdistinct hold holdNode]
  · intro origin hnone
    have hnotMem : origin ∉ next.peers.map PeerRow.nodeId := by
      unfold Db.peer? at hnone
      rw [List.find?_eq_none] at hnone
      intro hmem
      obtain ⟨peer, hpeer, rfl⟩ := List.mem_map.mp hmem
      exact hnone peer hpeer (by simp)
    rw [hids] at hnotMem
    have hne : origin ≠ bundle.originNodeId := by
      rintro rfl
      obtain ⟨peer, hpeer⟩ := h.opens.peer
      obtain ⟨hmem, hnode⟩ := Db.mem_of_peer? hpeer
      exact hnotMem (List.mem_map.mpr ⟨peer, hmem, hnode⟩)
    rw [h.other_origins hne]
    apply hchains.unknown
    unfold Db.peer?
    rw [List.find?_eq_none]
    intro peer hpeer hid
    apply hnotMem
    refine List.mem_map.mpr ⟨peer, ?_, by simpa using hid⟩
    have hopens := h.opens
    cases hopens with
    | known => exact hpeer
    | first => exact List.mem_append_left _ hpeer

end

/-! ## Every run -/

theorem OnlyEvidenceAdded.storedChains {db next : Db} (h : OnlyEvidenceAdded db next)
    (hchains : StoredChains P db) : StoredChains P next := by
  obtain ⟨rows, rfl⟩ := h
  exact hchains.congr rfl rfl

theorem importFederationBundle_storedChains (identity : NodeIdentity P)
    (bundle : FederationBundle) (observedAt now appendedAt : ℤ) {db : Db}
    (hchains : StoredChains P db) :
    StoredChains P
      (importFederationBundle P identity bundle observedAt now appendedAt db).2 := by
  unfold importFederationBundle
  cases verifyBundle P bundle with
  | error e => exact hchains
  | ok =>
      have houtcome := importTransaction_outcome identity bundle
        (makeCheckpointWitness P identity bundle observedAt) now appendedAt db
      simp only [Db.importFederationBundle]
      generalize importTransaction P identity bundle
        (makeCheckpointWitness P identity bundle observedAt) now appendedAt db = outcome
        at houtcome
      cases houtcome with
      | rolledBack e => exact hchains
      | committed key head message input _ _ _ _ =>
          exact (recordEquivocation_onlyEvidence input db).storedChains hchains
      | done report next key head opened loop fresh state hresult =>
          exact hresult.storedChains hchains

/-- Logging an event leaves the federation tables alone. -/
theorem Logs.federation {identity : NodeIdentity P} {input : EventInput}
    {appendedAt : ℤ} {db : Db} {result : AcceptedObject × Db}
    (h : Logs P identity input appendedAt db result) :
    result.2.peers = db.peers ∧ result.2.origins = db.origins := by
  obtain ⟨logged, happend, hsame⟩ := h
  obtain ⟨row, hrow⟩ := appendEvent_frame identity input appendedAt db _ happend
  simp only at hrow
  rw [hsame.peers, hsame.origins, hrow]
  exact ⟨rfl, rfl⟩

theorem NodeState.step_storedChains {identity : NodeIdentity P} (node : NodeState)
    (action : Action) (hchains : StoredChains P node.db) :
    StoredChains P (node.step P identity action).db := by
  have hmoves := node.step_moves identity action
  generalize (node.step P identity action).db = next at hmoves
  cases hmoves with
  | stay => exact hchains
  | log _ input appendedAt accepted next hlogs =>
      obtain ⟨hpeers, horigins⟩ := hlogs.federation
      exact hchains.congr hpeers horigins
  | derive _ next hsame => exact hchains.congr hsame.peers hsame.origins
  | importBundle bundle observedAt now appendedAt =>
      exact importFederationBundle_storedChains identity bundle observedAt now appendedAt
        hchains

/-- After every run, what is stored about every origin is one signed chain. -/
theorem run_storedChains (P : Primitives) (identity : NodeIdentity P)
    (actions : List Action) :
    StoredChains P (NodeState.run P identity actions).db :=
  NodeState.run_induction (storedChains_init identity.nodeId)
    (fun node action hchains => node.step_storedChains action hchains) actions

end

end Commonwake
