import Commonwake.Lifetime
import Commonwake.ImportHistory
import Commonwake.SampleNode

/-!
# Relaying the log of an origin

A node which has imported from an origin serves the stored events on.  It has
the checkpoints which its own imports ended in, and every page must end at one
of them: the last one in reach, or the next one when none is in reach.  No import
brings more events than a page may hold, so that the next checkpoint is never too
far.
-/

namespace Commonwake

open Outcome Table HashChain

section

variable (P : Primitives)

/-! ## Serving a page -/

/-- The last stored checkpoint in reach, or else the next one. -/
def OriginTables.pageEnd (tables : OriginTables) (after requestedEnd : ℤ) : Option ℤ :=
  let cursors := tables.remoteCheckpoints.map (·.cursor)
  ((cursors.filter fun cursor => decide (after < cursor ∧ cursor ≤ requestedEnd)).max?).or
    (cursors.filter fun cursor => decide (after < cursor)).min?

/-- The cursor at which a page after the cursor ends. -/
def OriginTables.throughCursor (tables : OriginTables) (after : ℤ) (limit : ℕ) (head : ℤ) :
    Result ℤ :=
  let requestedEnd := min (after + (max 1 (min limit maxFederationEvents) : ℕ)) head
  if after = head then pure head
  else
    okOr (tables.pageEnd after requestedEnd)
      (.internal "retained origin has no checkpoint beyond its stored cursor")

def relayedFederationBundle (origin : String) (after : ℤ) (limit : ℕ) (db : Db) :
    Result FederationBundle := do
  rejectIf (after < 0) (.validation "federation cursor cannot be negative")
  let peer ← okOr (db.peer? origin) (.notFound s!"federated origin {origin}")
  rejectIf (after > peer.cursor)
    (.validation s!"federation cursor {after} is beyond retained origin head {peer.cursor}")
  let tables := db.origins origin
  let throughCursor ← tables.throughCursor after limit peer.cursor
  -- The latest one of the cursor; there is one at most.
  let row ← okOr (tables.remoteCheckpoints.find? fun row => row.cursor == throughCursor)
    (.internal s!"retained origin checkpoint {origin}/{throughCursor} is missing")
  let checkpoint ← okOr ((P.parse row.checkpointJson).bind (Checkpoint.ofJson P)) .json
  let events ← Outcome.traverse (remoteOriginEventFromRow P)
    (tables.remoteEvents.filter fun row =>
      decide (after < row.originSequence ∧ row.originSequence ≤ throughCursor))
  let bundle : FederationBundle := ⟨protocolVersion, origin, peer.nodePublicKey, after,
    throughCursor, events, checkpoint⟩
  verifyBundle P bundle
  pure bundle

/-- Follow the pages of a relay from the cursor, with one limit for each. -/
def followPages (origin : String) (db : Db) : List ℕ → ℤ → Result (ℤ × List OriginEvent)
  | [], cursor => pure (cursor, [])
  | limit :: limits, cursor => do
      let bundle ← relayedFederationBundle P origin cursor limit db
      let (reached, rest) ← followPages origin db limits bundle.throughCursor
      pure (reached, bundle.events ++ rest)

/-! ## What a relay holds -/

/-- A checkpoint of the origin, as it was signed, which the stored row holds. -/
structure RemoteCheckpointRow.Signed (peer : PeerRow) (row : RemoteCheckpointRow)
    (checkpoint : Checkpoint) : Prop where
  stored : (P.parse row.checkpointJson).bind (Checkpoint.ofJson P) = some checkpoint
  verified : verifyCheckpoint P checkpoint = .ok ()
  nodeId : checkpoint.nodeId = peer.nodeId
  publicKey : checkpoint.nodePublicKey = peer.nodePublicKey
  cursor : checkpoint.cursor = row.cursor
  eventHash : checkpoint.eventHash = row.eventHash

/-- A page of the stored events, which a relay serves after the cursor. -/
structure RelayedPage (peer : PeerRow) (events : List OriginEvent) (after : ℕ)
    (bundle : FederationBundle) : Prop where
  verified : verifyBundle P bundle = .ok ()
  fromCursor : bundle.fromCursor = after
  events_eq : bundle.events =
    (events.drop after).take (bundle.throughCursor - after).toNat
  atMost : bundle.throughCursor ≤ peer.cursor
  limit : bundle.throughCursor ≤ after + maxFederationEvents
  progress : if after = peer.cursor then bundle.throughCursor = after
    else after < bundle.throughCursor

/-- The stored log of the origin can be served in pages. -/
structure Relayable (db : Db) (peer : PeerRow) : Prop where
  signed : ∀ row ∈ (db.origins peer.nodeId).remoteCheckpoints,
    ∃ checkpoint, row.Signed P peer checkpoint
  distinct : ((db.origins peer.nodeId).remoteCheckpoints.map (·.cursor)).Nodup
  inReach : ∀ after, 0 ≤ after → after < peer.cursor →
    ∃ row ∈ (db.origins peer.nodeId).remoteCheckpoints,
      after < row.cursor ∧ row.cursor ≤ after + maxFederationEvents
  size : ∀ row ∈ (db.origins peer.nodeId).remoteEvents,
    byteLen row.canonicalJson ≤ maxCanonicalObjectBytes

end

section

variable {P : Primitives}

/-! ## Verifying what was verified -/

theorem verifyBundle_limits {bundle : FederationBundle} (h : verifyBundle P bundle = .ok ()) :
    bundle.events.length ≤ maxFederationEvents ∧
      ∀ event ∈ bundle.events, byteLen (P.toText event.canonical) ≤ maxCanonicalObjectBytes := by
  unfold verifyBundle at h
  simp only [bind_eq_ok, rejectIf_eq_ok, not_lt] at h
  obtain ⟨-, -, -, -, -, hlength, key, -, -, -, -, -, -, -, -, -, ⟨⟩, hevents, -⟩ := h
  refine ⟨by omega, ?_⟩
  have hsizes : ∀ (events : List OriginEvent) (expected : ℤ) (previous : Option String),
      verifyBundleEvents P key bundle.fromCursor expected previous events = .ok () →
      ∀ event ∈ events, byteLen (P.toText event.canonical) ≤ maxCanonicalObjectBytes := by
    intro events
    induction events with
    | nil => simp
    | cons first rest ih =>
        intro expected previous hverified
        simp only [verifyBundleEvents, bind_eq_ok] at hverified
        obtain ⟨⟨⟩, hfirst, hrest⟩ := hverified
        have hsize : byteLen (P.toText first.canonical) ≤ maxCanonicalObjectBytes := by
          unfold verifyBundleEvent at hfirst
          simp only [bind_eq_ok, rejectIf_eq_ok] at hfirst
          obtain ⟨⟨⟩, hsize, -⟩ := hfirst
          omega
        intro event hevent
        rcases List.mem_cons.mp hevent with rfl | hmem
        · exact hsize
        · exact ih _ _ hrest event hmem
  exact hsizes _ _ _ hevents

theorem verifyBundleEvent_of_authentic {key : Bytes} {fromCursor : ℤ}
    {previousHash : Option String} {event : OriginEvent} (h : AuthenticEvent P key event)
    (hsize : byteLen (P.toText event.canonical) ≤ maxCanonicalObjectBytes)
    (hlink : verifyLink fromCursor previousHash event = .ok ()) :
    verifyBundleEvent P key fromCursor event.sequence previousHash event = .ok () := by
  obtain ⟨⟨previous, hprevious, hlength, hhash, signature, hsignature, hverify⟩, hid⟩ := h
  unfold verifyBundleEvent
  rw [rejectIf_of_not (by omega), rejectIf_of_not (by simp), hlink,
    decodeHash_eq_ok.mpr ⟨hprevious, hlength⟩]
  simp only [ok_bind]
  rw [rejectIf_of_not (by simpa using hhash), rejectIf_of_not (by simpa using hid), hsignature]
  simp only [ok_bind]
  rw [rejectIf_of_not (by simpa using hverify)]

/-- A chain is accepted again, from every cursor which it may be cut at. -/
theorem verifyBundleEvents_of_chain {key : Bytes} {fromCursor start : ℤ} {head : String}
    {previousHash : Option String} {events : List OriginEvent}
    (h : AuthenticChain P key start head events)
    (hsize : ∀ event ∈ events, byteLen (P.toText event.canonical) ≤ maxCanonicalObjectBytes)
    (hsome : ∀ previous, previousHash = some previous → head = previous)
    (hnone : previousHash = none → fromCursor = 0 → head = zeroHash) :
    verifyBundleEvents P key fromCursor (start + 1) previousHash events = .ok () := by
  induction events generalizing start head previousHash with
  | nil => rfl
  | cons first rest ih =>
      obtain ⟨⟨hsequence, hnumbered⟩, ⟨hfirst, hlinked⟩, hauthentic⟩ := h
      have hlink : verifyLink fromCursor previousHash first = .ok () := by
        cases previousHash with
        | some previous =>
            simp only [verifyLink, rejectIf_eq_ok, not_not]
            rw [hfirst, hsome previous rfl]
        | none =>
            simp only [verifyLink, rejectIf_eq_ok, not_and, not_not]
            intro hzero
            rw [hfirst, hnone rfl hzero]
      have hevent := verifyBundleEvent_of_authentic (hauthentic first List.mem_cons_self)
        (hsize first List.mem_cons_self) hlink
      rw [hsequence] at hevent
      simp only [verifyBundleEvents, hevent, ok_bind]
      exact ih ⟨hnumbered, hlinked, fun event hmem =>
          hauthentic event (List.mem_cons_of_mem _ hmem)⟩
        (fun event hmem => hsize event (List.mem_cons_of_mem _ hmem))
        (fun previous hprevious => Option.some.inj hprevious) (fun hcontra => by cases hcontra)

/-! ## What an import leaves to be served -/

theorem RemoteCheckpointRow.Signed.congr {peer other : PeerRow} {row : RemoteCheckpointRow}
    {checkpoint : Checkpoint} (h : row.Signed P peer checkpoint)
    (hnode : other.nodeId = peer.nodeId) (hkey : other.nodePublicKey = peer.nodePublicKey) :
    row.Signed P other checkpoint := by
  obtain ⟨hstored, hverified, hid, hpublic, hcursor, hhash⟩ := h
  exact ⟨hstored, hverified, hid.trans hnode.symm, hpublic.trans hkey.symm, hcursor, hhash⟩

theorem Relayable.congr {db next : Db} {peer : PeerRow} (h : Relayable P db peer)
    (hsame : next.origins peer.nodeId = db.origins peer.nodeId) : Relayable P next peer := by
  obtain ⟨hsigned, hdistinct, hreach, hsize⟩ := h
  constructor <;> rw [hsame] <;> assumption

section

variable {identity : NodeIdentity P} {bundle : FederationBundle}
  {witness : CheckpointWitness} {now appendedAt : ℤ} {db next opened : Db}
  {report : FederationImportReport} {key : Bytes} {head : String} {loop : ImportLoop}
  {fresh : List OriginEvent} {state : ImportState}

/-- The peer of a bundle as it is before the import, or as it is created. -/
theorem OpensPeer.relayable {now : String} (h : OpensPeer bundle now db opened)
    (hchains : StoredChains P db) (hbefore : ∀ peer ∈ db.peers, Relayable P db peer) :
    ∃ peer : PeerRow, peer.nodeId = bundle.originNodeId ∧
      peer.nodePublicKey = bundle.originNodePublicKey ∧
      peer.cursor = (db.knownHead bundle.originNodeId).1 ∧ Relayable P db peer := by
  unfold Db.knownHead
  cases h with
  | known peer hpeer hkey =>
      obtain ⟨hmem, hnode⟩ := Db.mem_of_peer? hpeer
      rw [hpeer]
      exact ⟨peer, hnode, hkey, rfl, hbefore peer hmem⟩
  | first hpeer =>
      obtain ⟨hevents, hcheckpoints⟩ := hchains.unknown bundle.originNodeId hpeer
      rw [hpeer]
      refine ⟨⟨bundle.originNodeId, bundle.originNodePublicKey, now, now, 0, zeroHash, "null"⟩,
        rfl, rfl, rfl, ?_, ?_, ?_, ?_⟩
      · rw [hcheckpoints]
        intro row hrow
        cases hrow
      · rw [hcheckpoints]
        exact List.nodup_nil
      · intro after hafter hless
        exact absurd hless (by simpa using hafter)
      · rw [hevents]
        intro row hrow
        cases hrow

/-- Two stored checkpoints of one cursor are the same row. -/
theorem ImportResult.distinct_checkpoints
    (h : ImportResult P identity bundle witness now appendedAt db report next key head
      opened loop fresh state) (hchains : StoredChains P db)
    (hdistinct : ((db.origins bundle.originNodeId).remoteCheckpoints.map (·.cursor)).Nodup) :
    ((next.origins bundle.originNodeId).remoteCheckpoints.map (·.cursor)).Nodup := by
  obtain ⟨row, hcursor, hhash, -, hstored⟩ := h.remoteCheckpoints
  obtain ⟨-, -, hagree⟩ := hchains.before_import h.verified h.opens
  obtain ⟨rows, -, hevents⟩ := h.remoteEvents
  rw [hstored]
  unfold insertOrIgnore
  split
  · exact hdistinct
  · rename_i hnew
    rw [List.map_append, List.map_singleton, List.nodup_append]
    refine ⟨hdistinct, List.nodup_singleton _, ?_⟩
    intro cursor hold other hother
    obtain ⟨stored, hmem, rfl⟩ := List.mem_map.mp hold
    rw [List.mem_singleton.mp hother]
    intro hsame
    -- The stored row is the one for the hash which the checkpoint commits to.
    have hbefore := storedHashAt_append hevents (hagree stored hmem)
    have hafter : storedHashAt bundle.originNodeId bundle.checkpoint.cursor next =
        some bundle.checkpoint.eventHash := by
      rw [← h.checkpoint]
      apply storedHashAt_congr
      rw [h.tables.1, h.looped.result]
      simp [Db.withImportState]
    rw [hsame, hcursor, hafter] at hbefore
    apply hnew
    rw [List.any_eq_true]
    exact ⟨stored, hmem, by simp [hsame, hhash, Option.some.inj hbefore]⟩

theorem ImportResult.relayable
    (h : ImportResult P identity bundle witness now appendedAt db report next key head
      opened loop fresh state) (hverify : verifyBundle P bundle = .ok ())
    (hrange : IsI64 bundle.checkpoint.cursor) (hchains : StoredChains P db)
    (hbefore : ∀ peer ∈ db.peers, Relayable P db peer) :
    ∀ peer ∈ next.peers, Relayable P next peer := by
  intro peer hpeer
  obtain ⟨-, hpeers⟩ := h.peers
  rcases hpeers peer hpeer with ⟨hne, hmem⟩ | ⟨hnode, hcursor, -, old, hold, holdNode, hkey⟩
  · exact (hbefore peer hmem).congr (h.other_origins hne)
  · have hpublic : peer.nodePublicKey = bundle.originNodePublicKey := by
      rw [hkey, h.opens.publicKey_eq (h.opens.nodup hchains.distinct) hold holdNode]
    obtain ⟨before, hbeforeNode, hbeforeKey, hbeforeCursor, hrelayable⟩ :=
      h.opens.relayable hchains hbefore
    obtain ⟨hsigned, hdistinct, hreach, hsize⟩ := hrelayable
    rw [hbeforeNode] at hsigned hdistinct hreach hsize
    obtain ⟨hlimit, hsizes⟩ := verifyBundle_limits hverify
    obtain ⟨hkept, ⟨last, hlast, hlastCursor, -⟩, -⟩ := h.checkpoints
    constructor <;> rw [hnode]
    · intro row hrow
      obtain ⟨new, hnewCursor, hnewHash, hnewJson, hstored⟩ := h.remoteCheckpoints
      rw [hstored] at hrow
      rcases mem_insertOrIgnore hrow with hmem | rfl
      · obtain ⟨checkpoint, hcheckpoint⟩ := hsigned row hmem
        exact ⟨checkpoint, hcheckpoint.congr (hnode.trans hbeforeNode.symm)
          (hpublic.trans hbeforeKey.symm)⟩
      · refine ⟨bundle.checkpoint, ?_, h.verified.checkpointVerified, ?_, ?_,
          hnewCursor.symm, hnewHash.symm⟩
        · rw [hnewJson, P.parse_toText, Option.bind_some, Checkpoint.ofJson_toJson hrange]
        · rw [h.verified.checkpointNode, hnode]
        · rw [h.verified.checkpointKey, hpublic]
    · exact h.distinct_checkpoints hchains hdistinct
    · intro after hafter hless
      by_cases hknown : after < before.cursor
      · obtain ⟨row, hrow, hbounds⟩ := hreach after hafter hknown
        exact ⟨row, hkept hrow, hbounds⟩
      · -- The page of the bundle reaches from the old head to the new one.
        have hresult := h.looped.result
        have hfresh : fresh ≠ [] := by
          rintro rfl
          rw [hcursor, hresult] at hless
          simp only [List.length_nil, Nat.cast_zero, add_zero] at hless
          omega
        have hend := cursor_of_fresh h.verified h.looped hfresh
        have hthrough := h.verified.throughCursor
        have hstart := h.start
        refine ⟨last, hlast, ?_, ?_⟩
        · rw [hlastCursor, h.verified.checkpointCursor, ← hend, ← hcursor]
          exact hless
        · rw [hlastCursor, h.verified.checkpointCursor, hthrough]
          omega
    · obtain ⟨rows, hrows, hevents⟩ := h.remoteEvents
      obtain ⟨overlap, hsplit, -⟩ := h.looped.split
      rw [hevents]
      intro row hrow
      rcases List.mem_append.mp hrow with hmem | hmem
      · exact hsize row hmem
      · obtain ⟨event, hevent, nonce, rfl⟩ := exists_left_of_mem hrows hmem
        exact hsizes event (by rw [hsplit]; exact List.mem_append_right _ hevent)

end

/-! ## Serving a page of what is stored -/

section

variable {db : Db} {peer : PeerRow} {origin : String} {events : List OriginEvent}

/-- The events which were stored as these rows form the chain of the rows. -/
theorem StoredLog.chain {key : Bytes} {rows : List RemoteEventRow}
    (hrows : List.Forall₂ (fun event row => ∃ nonce, row = remoteRow P event nonce)
      events rows) (h : StoredLog P key rows) : AuthenticChain P key 0 zeroHash events := by
  obtain ⟨hnumbered, hlinked, hauthentic⟩ := h
  generalize (0 : ℤ) = start at hnumbered ⊢
  generalize zeroHash = head at hlinked ⊢
  induction hrows generalizing start head with
  | nil => exact ⟨trivial, trivial, fun event hevent => by cases hevent⟩
  | @cons event row events rows hrow _ ih =>
      obtain ⟨nonce, rfl⟩ := hrow
      obtain ⟨hrest, hrestLinked, hrestAuthentic⟩ := ih
        (fun row hmem => hauthentic row (List.mem_cons_of_mem _ hmem)) _ hnumbered.2 _ hlinked.2
      refine ⟨⟨hnumbered.1, hrest⟩, ⟨hlinked.1, hrestLinked⟩, ?_⟩
      intro other hother
      rcases List.mem_cons.mp hother with rfl | hmem
      · obtain ⟨read, hread, hauthentic⟩ := hauthentic _ List.mem_cons_self
        rw [remoteOriginEventFromRow_remoteRow] at hread
        cases hread
        exact hauthentic
      · exact hrestAuthentic other hmem

/-- A piece of a chain is a chain. -/
theorem AuthenticChain.slice {key : Bytes} (h : AuthenticChain P key 0 zeroHash events)
    (skipped count : ℕ) :
    AuthenticChain P key skipped
      (lastHash OriginEvent.eventHash zeroHash (events.take skipped))
      ((events.drop skipped).take count) := by
  obtain ⟨hnumbered, hlinked, hauthentic⟩ := h
  have hdropped := hnumbered.drop skipped
  rw [zero_add] at hdropped
  have htail : Linked OriginEvent.previousHash OriginEvent.eventHash
      (lastHash OriginEvent.eventHash zeroHash (events.take skipped)) (events.drop skipped) := by
    rw [← List.take_append_drop skipped events, Linked.append] at hlinked
    exact hlinked.2
  refine ⟨hdropped.take count, ?_, ?_⟩
  · rw [← List.take_append_drop count (events.drop skipped), Linked.append] at htail
    exact htail.1
  · intro event hevent
    exact hauthentic event (List.mem_of_mem_drop (List.mem_of_mem_take hevent))

/-- A page ends beyond the cursor and within the limit of the protocol. -/
theorem Relayable.pageEnd (h : Relayable P db peer) {after : ℤ} (requestedEnd : ℤ)
    (hafter : 0 ≤ after) (hless : after < peer.cursor)
    (hrequested : requestedEnd ≤ after + maxFederationEvents) :
    ∃ row ∈ (db.origins peer.nodeId).remoteCheckpoints,
      (db.origins peer.nodeId).pageEnd after requestedEnd = some row.cursor ∧
        after < row.cursor ∧ row.cursor ≤ after + maxFederationEvents := by
  obtain ⟨near, hnear, hbeyond, hwithin⟩ := h.inReach after hafter hless
  unfold OriginTables.pageEnd
  simp only
  generalize (db.origins peer.nodeId).remoteCheckpoints = rows at hnear ⊢
  have hmem : ∀ {test : ℤ → Bool} {cursor : ℤ}, cursor ∈ (rows.map (·.cursor)).filter test →
      ∃ row ∈ rows, row.cursor = cursor ∧ test cursor = true := by
    intro test cursor hcursor
    obtain ⟨hcursor, htest⟩ := List.mem_filter.mp hcursor
    obtain ⟨row, hrow, rfl⟩ := List.mem_map.mp hcursor
    exact ⟨row, hrow, rfl, htest⟩
  cases hmax : ((rows.map (·.cursor)).filter fun cursor =>
      decide (after < cursor ∧ cursor ≤ requestedEnd)).max? with
  | some last =>
      obtain ⟨row, hrow, rfl, htest⟩ := hmem (List.max?_mem hmax)
      simp only [decide_eq_true_eq] at htest
      exact ⟨row, hrow, rfl, htest.1, by omega⟩
  | none =>
      -- No checkpoint is in reach of the request: the next one is taken.
      have hcandidate : near.cursor ∈ (rows.map (·.cursor)).filter fun cursor =>
          decide (after < cursor) := by
        rw [List.mem_filter]
        exact ⟨List.mem_map.mpr ⟨near, hnear, rfl⟩, by simpa using hbeyond⟩
      obtain ⟨next, hnext⟩ := Option.isSome_iff_exists.mp (List.isSome_min?_of_mem hcandidate)
      obtain ⟨row, hrow, rfl, htest⟩ := hmem (List.min?_mem hnext)
      simp only [decide_eq_true_eq] at htest
      have hle := (List.min?_eq_some_iff.mp hnext).2 near.cursor hcandidate
      exact ⟨row, hrow, by rw [Option.none_or, hnext], htest, by omega⟩

theorem StoredChain.checkpoint_cursor (h : StoredChain P db peer) {row : RemoteCheckpointRow}
    (hrow : row ∈ (db.origins peer.nodeId).remoteCheckpoints) :
    row.cursor = 0 ∧ row.eventHash = zeroHash ∨
      ∃ stored ∈ (db.origins peer.nodeId).remoteEvents,
        stored.originSequence = row.cursor ∧ stored.eventHash = row.eventHash := by
  have hhash := h.checkpoints row hrow
  unfold storedHashAt at hhash
  by_cases hzero : row.cursor = 0
  · rw [if_pos hzero] at hhash
    exact .inl ⟨hzero, (Option.some.inj hhash).symm⟩
  · rw [if_neg hzero, Option.map_eq_some_iff] at hhash
    obtain ⟨stored, hfind, hsame⟩ := hhash
    exact .inr ⟨stored, List.mem_of_find?_eq_some hfind, by simpa using List.find?_some hfind,
      hsame⟩

/-- A page of the stored log which ends at a stored checkpoint is accepted. -/
theorem Relayable.verifyBundle (h : Relayable P db peer) (hchain : StoredChain P db peer)
    (hrows : List.Forall₂ (fun event row => ∃ nonce, row = remoteRow P event nonce)
      events (db.origins peer.nodeId).remoteEvents)
    {row : RemoteCheckpointRow} (hrow : row ∈ (db.origins peer.nodeId).remoteCheckpoints)
    {checkpoint : Checkpoint} (hsigned : row.Signed P peer checkpoint) {after : ℕ}
    (hafter : (after : ℤ) ≤ row.cursor) (hhead : row.cursor ≤ peer.cursor)
    (hlimit : row.cursor ≤ after + maxFederationEvents) :
    Commonwake.verifyBundle P ⟨protocolVersion, peer.nodeId, peer.nodePublicKey, after,
      row.cursor, (events.drop after).take (row.cursor - after).toNat, checkpoint⟩ =
        .ok () := by
  obtain ⟨key, hkey, hnode, hlog⟩ := hchain.log
  have hwhole := hlog.chain hrows
  have hpage := hwhole.slice after (row.cursor - after).toNat
  have hcount : events.length = peer.cursor := by
    rw [hchain.cursor, hrows.length_eq]
  have hlength : (((events.drop after).take (row.cursor - after).toNat).length : ℤ) =
      row.cursor - after := by
    rw [List.length_take, List.length_drop]
    omega
  have hsize : ∀ event ∈ (events.drop after).take (row.cursor - after).toNat,
      byteLen (P.toText event.canonical) ≤ maxCanonicalObjectBytes := by
    intro event hevent
    have hmem := List.mem_of_mem_drop (List.mem_of_mem_take hevent)
    obtain ⟨stored, hstored, nonce, rfl⟩ := exists_right_of_mem hrows hmem
    exact h.size _ hstored
  have hverified : verifyBundleEvents P key after (after + 1) none
      ((events.drop after).take (row.cursor - after).toNat) = .ok () := by
    apply verifyBundleEvents_of_chain hpage hsize
    · intro previous hprevious
      cases hprevious
    · intro _ hzero
      rw [Nat.cast_eq_zero.mp hzero]
      rfl
  have hlast : ((events.drop after).take (row.cursor - after).toNat) ≠ [] ∨ row.cursor = 0 →
      row.eventHash = lastHash OriginEvent.eventHash
        (lastHash OriginEvent.eventHash zeroHash (events.take after))
        ((events.drop after).take (row.cursor - after).toNat) := by
    intro hcase
    rw [← lastHash_append, ← List.take_add,
      show after + (row.cursor - after).toNat = row.cursor.toNat by omega]
    rcases hchain.checkpoint_cursor hrow with ⟨hzero, hhash⟩ | ⟨stored, hstored, hnumber, hhash⟩
    · rw [hzero, hhash]
      rfl
    · obtain ⟨event, hevent, nonce, rfl⟩ := exists_left_of_mem hrows hstored
      have hhashed := hwhole.numbered.lastHash_take hevent OriginEvent.eventHash zeroHash
      rw [sub_zero, show event.sequence = row.cursor from hnumber] at hhashed
      rw [hhashed]
      exact hhash.symm
  obtain ⟨-, hverifiedCheckpoint, hcheckpointNode, hcheckpointKey, hcursor, hhash⟩ := hsigned
  unfold Commonwake.verifyBundle
  simp only
  rw [rejectIf_of_not (by simp), rejectIf_of_not (by omega), rejectIf_of_not (by omega), hkey]
  simp only [ok_bind]
  rw [rejectIf_of_not (by simpa using hnode), hverifiedCheckpoint]
  simp only [ok_bind]
  rw [rejectIf_of_not (by simp [hcheckpointNode, hcheckpointKey, hcursor]),
    rejectIf_of_not (by rw [hlength]; simp), hverified]
  simp only [ok_bind]
  rw [← hhash] at hlast
  have hgenesis : ¬ (row.cursor = 0 ∧ checkpoint.eventHash ≠ zeroHash) := by
    rintro ⟨hzero, hne⟩
    apply hne
    rw [hlast (.inr hzero), show after = 0 by omega, hzero]
    rfl
  rw [rejectIf_of_not hgenesis]
  cases hpageLast : ((events.drop after).take (row.cursor - after).toNat).getLast? with
  | none => rfl
  | some event =>
      have hne : (events.drop after).take (row.cursor - after).toNat ≠ [] := by
        intro hnil
        rw [hnil] at hpageLast
        cases hpageLast
      have hcommits : checkpoint.eventHash = event.eventHash := by
        rw [hlast (.inl hne)]
        unfold lastHash
        rw [hpageLast]
      simp only
      rw [rejectIf_of_not (by simpa using hcommits)]
      rfl

/-- Every page of the stored log is served. -/
theorem Relayable.serves (h : Relayable P db peer) (hchain : StoredChain P db peer)
    (hpeer : db.peer? origin = some peer)
    (himported : Imported P origin events (db.origins origin)) {after : ℕ}
    (hafter : (after : ℤ) ≤ peer.cursor) (limit : ℕ) :
    ∃ bundle, relayedFederationBundle P origin after limit db = .ok bundle ∧
      RelayedPage P peer events after bundle := by
  obtain ⟨-, hnode⟩ := Db.mem_of_peer? hpeer
  subst hnode
  have hrows := himported.rows
  -- The checkpoint at which the page ends.
  obtain ⟨last, hlast, hthrough, hprogress, hreach⟩ :
      ∃ last ∈ (db.origins peer.nodeId).remoteCheckpoints,
        (db.origins peer.nodeId).throughCursor after limit peer.cursor = .ok last.cursor ∧
        (if (after : ℤ) = peer.cursor then last.cursor = after else after < last.cursor) ∧
        last.cursor ≤ after + maxFederationEvents := by
    unfold OriginTables.throughCursor
    by_cases hend : (after : ℤ) = peer.cursor
    · obtain ⟨row, hrow, hcursor, -⟩ := hchain.headCheckpoint
      refine ⟨row, hrow, ?_, ?_, ?_⟩
      · rw [if_pos hend, hcursor]
        rfl
      · rw [if_pos hend, hcursor, hend]
      · omega
    · obtain ⟨row, hrow, hpage, hbeyond, hwithin⟩ := h.pageEnd
        (min (after + (max 1 (min limit maxFederationEvents) : ℕ)) peer.cursor)
        (Int.natCast_nonneg after) (by omega) (by unfold maxFederationEvents; omega)
      refine ⟨row, hrow, ?_, ?_, hwithin⟩
      · rw [if_neg hend, hpage, okOr_some]
      · rw [if_neg hend]
        exact hbeyond
  have hstart : (after : ℤ) ≤ last.cursor := by
    split at hprogress <;> omega
  have hhead : last.cursor ≤ peer.cursor := by
    rcases hchain.checkpoint_cursor hlast with ⟨hzero, -⟩ | ⟨stored, hstored, hnumber, -⟩
    · omega
    · obtain ⟨key, -, -, hlog⟩ := hchain.log
      have hbounds := hlog.numbered.mem_bounds hstored
      rw [hchain.cursor, ← hnumber]
      omega
  obtain ⟨row, hfind⟩ := Option.isSome_iff_exists.mp 
    ((List.find?_isSome (p := fun row => row.cursor == last.cursor)).mpr
      ⟨last, hlast, beq_self_eq_true last.cursor⟩)
  have hrow := List.mem_of_find?_eq_some hfind
  have hsame : row.cursor = last.cursor := by simpa using List.find?_some hfind
  obtain ⟨checkpoint, hsigned⟩ := h.signed row hrow
  rw [← hsame] at hstart hhead hreach
  have haccepted := h.verifyBundle hchain hrows hrow hsigned hstart hhead hreach
  rw [hsame] at haccepted hstart hhead hreach
  have htraverse : Outcome.traverse (remoteOriginEventFromRow P)
      ((db.origins peer.nodeId).remoteEvents.filter fun stored =>
        decide ((after : ℤ) < stored.originSequence ∧ stored.originSequence ≤ last.cursor)) =
      .ok ((events.drop after).take (last.cursor - after).toNat) := by
    obtain ⟨key, -, -, hlog⟩ := hchain.log
    have hwindow := hlog.numbered.filter_window after (last.cursor - after).toNat
    rw [zero_add, show (after : ℤ) + (last.cursor - after).toNat = last.cursor by omega]
      at hwindow
    rw [hwindow, traverse_eq_ok, List.map_take, List.map_drop, himported.map_rows,
      List.map_take, List.map_drop]
  refine ⟨_, ?_, haccepted, rfl, rfl, hhead, hreach, hprogress⟩
  unfold relayedFederationBundle
  rw [rejectIf_of_not (by omega), hpeer]
  simp only [okOr_some, ok_bind]
  rw [rejectIf_of_not (by omega)]
  simp only [ok_bind]
  rw [hthrough]
  simp only [ok_bind]
  rw [hfind]
  simp only [okOr_some, ok_bind]
  rw [hsigned.stored]
  simp only [okOr_some, ok_bind]
  rw [htraverse]
  simp only [ok_bind]
  rw [haccepted]
  rfl

/-- A peer which follows the pages gets ahead with every one, up to the head. -/
theorem Relayable.followPages (h : Relayable P db peer) (hchain : StoredChain P db peer)
    (hpeer : db.peer? origin = some peer)
    (himported : Imported P origin events (db.origins origin)) (limits : List ℕ) {after : ℕ}
    (hafter : (after : ℤ) ≤ peer.cursor) :
    ∃ reached : ℕ, Commonwake.followPages P origin db limits after =
        .ok ((reached : ℤ), (events.drop after).take (reached - after)) ∧
      after ≤ reached ∧ (reached : ℤ) ≤ peer.cursor ∧
      min peer.cursor (after + limits.length) ≤ reached := by
  induction limits generalizing after with
  | nil =>
      refine ⟨after, ?_, le_rfl, hafter, ?_⟩
      · rw [Nat.sub_self, List.take_zero]
        rfl
      · rw [List.length_nil]
        omega
  | cons limit limits ih =>
      obtain ⟨bundle, hserved, -, -, hevents, hatMost, -, hprogress⟩ :=
        h.serves hchain hpeer himported hafter limit
      have hstart : (after : ℤ) ≤ bundle.throughCursor := by
        split at hprogress <;> omega
      obtain ⟨middle, hmiddle⟩ := Int.eq_ofNat_of_zero_le
        (le_trans (Int.natCast_nonneg after) hstart)
      rw [hmiddle] at hevents hatMost hprogress hstart
      obtain ⟨reached, hrest, hless, hhead, hfar⟩ := ih hatMost
      refine ⟨reached, ?_, by omega, hhead, ?_⟩
      · simp only [Commonwake.followPages, hserved, ok_bind]
        rw [hmiddle, hrest]
        have hmore : reached - after = (middle - after) + (reached - middle) := by
          omega
        have hjoin : after + (middle - after) = middle := by
          omega
        have hpage : ((middle : ℤ) - after).toNat = middle - after := by
          omega
        simp only [ok_bind, pure_eq_ok, hevents]
        rw [hmore, List.take_add, List.drop_drop, hjoin, hpage]
      · rw [List.length_cons]
        split at hprogress <;> push_cast <;> omega

end

/-! ## Every run -/

/-- The numbers of the bundle have the type which the wire format gives them. -/
def Action.InRange : Action → Prop
  | .importBundle bundle _ _ _ => IsI64 bundle.checkpoint.cursor
  | _ => True

instance decidableInRange : DecidablePred Action.InRange
  | .importBundle bundle _ _ _ =>
      inferInstanceAs (Decidable (-2 ^ 63 ≤ bundle.checkpoint.cursor ∧
        bundle.checkpoint.cursor < 2 ^ 63))
  | .check _ _ | .commit _ _ | .observe _ _ _ _ _ _ | .markSourceFetch _ _ =>
      inferInstanceAs (Decidable True)

theorem NodeState.step_relayable {identity : NodeIdentity P} (node : NodeState)
    (action : Action) (hrange : action.InRange) (hchains : StoredChains P node.db)
    (h : ∀ peer ∈ node.db.peers, Relayable P node.db peer) :
    ∀ peer ∈ (node.step P identity action).db.peers,
      Relayable P (node.step P identity action).db peer := by
  rcases node.step_synchronizes identity action with hown |
    ⟨bundle, observedAt, now, appendedAt, report, key, head, opened, loop, fresh, state,
      haction, hresult⟩
  · intro peer hpeer
    rw [hown.peers] at hpeer
    exact (h peer hpeer).congr (congrFun hown.origins _)
  · cases hverify : Commonwake.verifyBundle P bundle with
    | ok =>
        rw [haction] at hrange
        exact hresult.relayable hverify hrange hchains h
    | error e =>
        have hkept : node.step P identity action = node := by
          rw [haction]
          unfold NodeState.step Commonwake.importFederationBundle
          simp only
          rw [hverify]
        rw [hkept]
        exact h

theorem run_relayable (identity : NodeIdentity P) (actions : List Action)
    (hrange : ∀ action ∈ actions, action.InRange) :
    ∀ peer ∈ (NodeState.run P identity actions).db.peers,
      Relayable P (NodeState.run P identity actions).db peer := by
  induction actions using List.reverseRecOn with
  | nil =>
      intro peer hpeer
      cases hpeer
  | append_singleton actions action ih =>
      rw [NodeState.run_append_singleton]
      apply NodeState.step_relayable
      · exact hrange action (by simp)
      · exact run_storedChains P identity actions
      · exact ih fun earlier hmem => hrange earlier (List.mem_append_left _ hmem)

/-- A relay serves every page of what it has stored, and a peer which follows
the pages ends with exactly the stored events. -/
theorem run_relays (identity : NodeIdentity P) (actions : List Action)
    (hrange : ∀ action ∈ actions, action.InRange) {origin : String} {peer : PeerRow}
    (hpeer : (NodeState.run P identity actions).db.peer? origin = some peer) :
    (∀ after limit, 0 ≤ after → after ≤ peer.cursor →
      ∃ bundle, relayedFederationBundle P origin after limit
          (NodeState.run P identity actions).db = .ok bundle ∧
        verifyBundle P bundle = .ok () ∧ bundle.fromCursor = after ∧
        bundle.events.length ≤ maxFederationEvents ∧
        (after < peer.cursor → after < bundle.throughCursor)) ∧
    ∃ events, ((NodeState.run P identity actions).db.origins origin).remoteEvents.map
        (remoteOriginEventFromRow P) = events.map .ok ∧
      ∀ limits : List ℕ, peer.cursor ≤ limits.length →
        followPages P origin (NodeState.run P identity actions).db limits 0 =
          .ok (peer.cursor, events) := by
  obtain ⟨hmem, hnode⟩ := Db.mem_of_peer? hpeer
  have hchain := (run_storedChains P identity actions).chain peer hmem
  have hrelayable := run_relayable identity actions hrange peer hmem
  obtain ⟨events, himported⟩ := run_recorded P identity actions origin
  have hcount : peer.cursor = events.length := by
    rw [hchain.cursor, hnode, himported.rows.length_eq]
  refine ⟨?_, events, himported.map_rows, ?_⟩
  · intro after limit hafter hhead
    obtain ⟨cursor, rfl⟩ := Int.eq_ofNat_of_zero_le hafter
    obtain ⟨bundle, hserved, hverified, hfrom, hevents, -, hlimit, hprogress⟩ :=
      hrelayable.serves hchain hpeer himported hhead limit
    refine ⟨bundle, hserved, hverified, hfrom, ?_, ?_⟩
    · rw [hevents, List.length_take]
      omega
    · intro hless
      rw [if_neg (by omega)] at hprogress
      exact hprogress
  · intro limits hlimits
    have hzero : ((0 : ℕ) : ℤ) ≤ peer.cursor := by
      omega
    obtain ⟨reached, hfollowed, -, hatMost, hfar⟩ :=
      hrelayable.followPages hchain hpeer himported limits hzero
    have hreached : (reached : ℤ) = peer.cursor := by omega
    rw [hreached, List.drop_zero, Nat.sub_zero, List.take_of_length_le (by omega)] at hfollowed
    exact hfollowed

end

namespace Sample

instance commitmentLog_relayed : Fact (
    (∃ peer ∈ (NodeState.run library importer
      (importLog (commitmentRun oneHour))).db.peer? origin.nodeId, 0 < peer.cursor) ∧
    ∀ action ∈ importLog (commitmentRun oneHour), action.InRange) :=
  ⟨by decide +kernel⟩

/-- The importer serves the log which it has imported. -/
theorem run_relays_commitmentLog :
    ∃ peer, (NodeState.run library importer
          (importLog (commitmentRun oneHour))).db.peer? origin.nodeId = some peer ∧
      0 < peer.cursor ∧
      ∃ bundle, relayedFederationBundle library origin.nodeId 0 1
          (NodeState.run library importer (importLog (commitmentRun oneHour))).db = .ok bundle ∧
        0 < bundle.throughCursor := by
  obtain ⟨⟨peer, hpeer, hcursor⟩, hrange⟩ := commitmentLog_relayed.out
  obtain ⟨bundle, hserved, -, -, -, hprogress⟩ :=
    (run_relays importer (importLog (commitmentRun oneHour)) hrange
      hpeer).1 0 1 le_rfl hcursor.le
  exact ⟨peer, hpeer, hcursor, bundle, hserved, hprogress hcursor⟩

end Sample

end Commonwake
