import Commonwake.CatchingUp
import Commonwake.Relay

/-!
# A log which spreads over relays

A relay keeps the pages of an origin which it has imported, with the checkpoints
of the origin, and serves them to others.  Who asks the relay for the origin gets
as far as the relay is.
-/

namespace Commonwake

open Outcome Table HashChain

section

variable {P : Primitives} {identity : NodeIdentity P} {origin : String} {db : Db}
  {peer : PeerRow} {log : List OriginEvent}

theorem relayedFederationBundle_eq_ok {after : ℤ} {limit : ℕ} {bundle : FederationBundle}
    (h : relayedFederationBundle P origin after limit db = .ok bundle)
    (hpeer : db.peer? origin = some peer) :
    ∃ row ∈ (db.origins origin).remoteCheckpoints, row.cursor = bundle.throughCursor ∧
      (P.parse row.checkpointJson).bind (Checkpoint.ofJson P) = some bundle.checkpoint ∧
      bundle.originNodeId = origin ∧ bundle.originNodePublicKey = peer.nodePublicKey := by
  unfold relayedFederationBundle at h
  simp only [hpeer, okOr_some, ok_bind, bind_eq_ok, okOr_eq_ok, pure_eq_ok, Except.ok.injEq] at h
  obtain ⟨-, -, -, -, throughCursor, -, row, hrow, checkpoint, hcheckpoint, events, -, -, -,
    rfl⟩ := h
  exact ⟨row, List.mem_of_find?_eq_some hrow, by simpa using List.find?_some hrow, hcheckpoint,
    rfl, rfl⟩

/-- The stored log of an origin is served by its relay as by the origin. -/
theorem Relayable.servesLog (h : Relayable P db peer) (hchain : StoredChain P db peer)
    (hpeer : db.peer? identity.nodeId = some peer)
    (hkey : peer.nodePublicKey = identity.publicKey)
    (himported : Imported P identity.nodeId log (db.origins identity.nodeId)) :
    ServesLog P identity log fun after limit =>
      relayedFederationBundle P identity.nodeId after limit db := by
  intro after limit hafter
  obtain ⟨-, hnode⟩ := Db.mem_of_peer? hpeer
  have hrows := himported.rows
  have hhead : peer.cursor = log.length := by
    rw [hchain.cursor, hnode, hrows.length_eq]
  obtain ⟨bundle, hserved, hpage⟩ := h.serves hchain hpeer himported
    (by rw [hhead]; exact_mod_cast hafter : (after : ℤ) ≤ peer.cursor) limit
  obtain ⟨row, hrow, hcursor, hstored, horigin, hpublic⟩ :=
    relayedFederationBundle_eq_ok hserved hpeer
  have hatMost := hpage.atMost
  have hprogress := hpage.progress
  have hstart : (after : ℤ) ≤ bundle.throughCursor := by
    split at hprogress <;> omega
  obtain ⟨through, hthrough⟩ : ∃ through : ℕ, bundle.throughCursor = through :=
    ⟨_, (Int.toNat_of_nonneg ((Int.natCast_nonneg after).trans hstart)).symm⟩
  rw [hthrough] at hatMost hprogress hstart hcursor
  have hwithin : through ≤ log.length := by
    rw [hhead] at hatMost
    exact_mod_cast hatMost
  have hevents : bundle.events = (log.drop after).take (through - after) := by
    rw [hpage.events_eq, hthrough]
    congr 1
    omega
  have hend : after + bundle.events.length = through := by
    rw [hevents, List.length_take, List.length_drop]
    omega
  refine ⟨bundle, hserved, hpage.verified, horigin, by rw [hpublic, hkey], hpage.fromCursor, ?_,
    ?_, ?_⟩
  · rw [hevents]
    exact List.take_prefix _ _
  · intro hless hnil
    rw [hnil, List.length_nil] at hend
    rw [if_neg (by omega)] at hprogress
    omega
  · -- The checkpoint is the one which the origin has signed for this cursor.
    rw [← hnode] at hrow hrows
    obtain ⟨checkpoint, hsigned⟩ := h.signed row hrow
    have hsame : bundle.checkpoint = checkpoint :=
      Option.some.inj (hstored.symm.trans hsigned.stored)
    have hhash := hchain.checkpoints row hrow
    obtain ⟨key, -, -, hlog⟩ := hchain.log
    rw [hcursor, storedHashAt_eq_lastHash hlog.numbered
      (by rw [← hrows.length_eq]; exact hwithin), Option.some.injEq] at hhash
    rw [hsame, hsigned.eventHash, ← hhash, hend]
    exact lastHash_of_rows (List.forall₂_take through hrows)

end

/-- A relay which answers for an origin. -/
def relayPeer (P : Primitives) (relay : NodeIdentity P) (relayed : List Action)
    (origin : String) (after : ℤ) (limit : ℕ) : Result FederationBundle :=
  relayedFederationBundle P origin after limit (NodeState.run P relay relayed).db

/-- A synchronization through a relay, which has stored a part of the log of an origin,
reaches what the relay has stored, unless the node cannot log a witness. -/
theorem run_catchesUp_relay (P : Primitives) (identity relay importer : NodeIdentity P)
    (actions relayed : List Action) (before : List SyncAction) (retained held : ℕ)
    (name : String) (batchSize : ℕ) (turns : List SyncTurn)
    (hstays : StaysImportable P identity actions) (hother : importer.nodeId ≠ identity.nodeId)
    (hrange : ∀ action ∈ relayed, action.InRange) (hsome : 0 < retained)
    (hwithin : retained ≤ (NodeState.run P identity actions).db.events.length)
    (hretained : (NodeState.run P relay relayed).db.Holds P identity.nodeId
      ((NodeState.run P identity actions).db.events.take retained))
    (hkeys : ∀ known ∈ (NodeState.run P relay relayed).db.peers ++
      (Synchronizer.run P importer before).node.db.peers, known.nodeId = identity.nodeId →
        known.nodePublicKey = identity.publicKey)
    (hless : held ≤ retained)
    (hheld : (Synchronizer.run P importer before).node.db.Holds P identity.nodeId
      ((NodeState.run P identity actions).db.events.take held))
    (hpeers : (Synchronizer.run P importer before).node.db.PeersReadable P)
    (hapart : ∀ action, .other action ∈ turns →
      action.Apart identity.nodeId (Synchronizer.run P importer before).runs.length)
    (hcollision : Set.InjOn P.sha256
      ((NodeState.run P identity actions).db.idInputs P identity.nodeId ∪
        ((Synchronizer.run P importer before).synchronizeWith P importer
          (relayPeer P relay relayed identity.nodeId) name (some identity.nodeId) batchSize
          turns).node.db.idInputs P importer.nodeId))
    (henough : retained - held + 3 ≤ turns.countP SyncTurn.isProceed) :
    (Synchronizer.run P importer before).Reaches P importer
      (relayPeer P relay relayed identity.nodeId) identity.nodeId name (some identity.nodeId)
      batchSize turns held ((NodeState.run P identity actions).db.events.take retained) := by
  obtain ⟨log, hlog⟩ := run_ownLog P identity actions
  have hlength : (NodeState.run P identity actions).db.events.length = log.length := by
    rw [← List.length_map (f := originEvent P), hlog.read, List.length_map]
  have hserved : (log.take retained).length = retained := by
    rw [List.length_take]
    omega
  obtain ⟨stored, hstored, himported⟩ := hretained.imported
  rw [List.map_take, hlog.read, ← List.map_take] at hstored
  rw [← List.map_injective_iff.mpr (fun _ _ => Except.ok.inj) hstored] at himported
  have hchains := run_storedChains P relay relayed
  -- The relay knows the origin, as it has stored events of it.
  obtain ⟨known, hknown⟩ : ∃ known,
      (NodeState.run P relay relayed).db.peer? identity.nodeId = some known := by
    refine Option.ne_none_iff_exists'.mp fun hnone => ?_
    have hrows := himported.rows.length_eq
    rw [(hchains.unknown identity.nodeId hnone).1, hserved, List.length_nil] at hrows
    omega
  obtain ⟨hmem, hnode⟩ := Db.mem_of_peer? hknown
  have hserves : ServesLog P identity (log.take retained)
      (relayPeer P relay relayed identity.nodeId) :=
    (run_relayable relay relayed hrange known hmem).servesLog (hchains.chain known hmem) hknown
      (hkeys known (List.mem_append_left _ hmem) hnode) himported
  have hreaches := Synchronizer.synchronizeWith_reaches hlog (List.take_prefix _ _) hserves
    hstays hother (fun _ horigin => (Option.some.inj horigin).symm)
    (Synchronizer.run_sound importer before) (by rw [hserved]; exact hless) hheld
    (fun peer hpeer => hkeys peer (List.mem_append_right _ hpeer)) hpeers hapart hcollision
    (by rw [hserved]; exact henough)
  rwa [hserved] at hreaches

namespace Sample

/-- A node which knows neither the origin nor its relay. -/
def reader : NodeIdentity library := .ofSecret library [5]

/-- It asks the relay for the origin.  The relay has imported one event. -/
def commitmentReader : Synchronizer :=
  (Synchronizer.run library reader []).synchronizeWith library reader
    (relayPeer library importer (importFirst 1 (commitmentRun oneHour)) origin.nodeId) "relay"
    (some origin.nodeId) maxFederationEvents sixTurns

instance commitmentReader_reports : Fact (
    ((∀ action ∈ importFirst 1 (commitmentRun oneHour), action.InRange) ∧
      1 ≤ (NodeState.run library origin (commitmentRun oneHour)).db.events.length ∧
      (∀ known ∈ (NodeState.run library importer
        (importFirst 1 (commitmentRun oneHour))).db.peers,
          known.nodeId = origin.nodeId → known.nodePublicKey = origin.publicKey) ∧
      reader.nodeId ≠ origin.nodeId) ∧
    ((runInputs library origin (commitmentRun oneHour) ++
      commitmentReader.node.db.hashedInputs library reader.nodeId).dedup.map
        library.sha256).Nodup ∧
    commitmentReader.reports 0 = true) :=
  ⟨by decide +kernel⟩

/-- The reader gets the event from the relay. -/
theorem run_catchesUp_relay_commitmentRun :
    ∃ run report, commitmentReader.runs[0]? = some run ∧ run.phase = .done (.ok report) ∧
      report.caughtUp = true ∧ report.cursor = 1 ∧
      commitmentReader.node.db.Holds library origin.nodeId
        ((NodeState.run library origin (commitmentRun oneHour)).db.events.take 1) := by
  obtain ⟨⟨hrange, hwithin, hkeys, hother⟩, hdistinct, hreports⟩ := commitmentReader_reports.out
  have hnothing : (Synchronizer.run library reader []).node.db.Holds library origin.nodeId
      ((NodeState.run library origin (commitmentRun oneHour)).db.events.take 0) := by
    unfold Db.Holds
    rw [List.take_zero, List.map_nil, List.map_eq_nil_iff]
    rfl
  have hknown : ∀ known ∈ (NodeState.run library importer
      (importFirst 1 (commitmentRun oneHour))).db.peers ++
        (Synchronizer.run library reader []).node.db.peers, known.nodeId = origin.nodeId →
          known.nodePublicKey = origin.publicKey := by
    intro known hmem
    rcases List.mem_append.mp hmem with hrelay | hnone
    · exact hkeys known hrelay
    · cases hnone
  have hsound : commitmentReader.Sound library reader :=
    ((Synchronizer.run_sound reader []).step _).follow _ _ _
  have hcollision := hsound.injOn_of_hashedInputs hdistinct
  unfold commitmentReader at hcollision
  have hreaches := run_catchesUp_relay library origin importer reader (commitmentRun oneHour)
    (importFirst 1 (commitmentRun oneHour)) [] 1 0 "relay" maxFederationEvents sixTurns
    staysImportable_commitmentRun hother hrange (by decide) hwithin
    commitmentRun_importable.out.2.1 hknown (Nat.zero_le _) hnothing
    (by intro peer hpeer; cases hpeer)
    (by intro action haction; simp [sixTurns] at haction; subst haction; trivial) hcollision
    (by decide)
  obtain ⟨run, report, hrun, hphase, hcaught, hcursor, hholds⟩ :=
    hreaches.report (rfl : commitmentReader = _) (rfl : 0 = _) hreports
  refine ⟨run, report, hrun, hphase, hcaught, ?_, hholds⟩
  rw [hcursor, List.length_take]
  omega

end Sample

end Commonwake
