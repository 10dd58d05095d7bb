import Commonwake.PeerSynchronization

/-!
# Catching up with an origin

A peer which serves the log of an origin answers every request with a page of
it.  A synchronization which asks nobody else imports page after page and stops
at the head of the origin, unless the node cannot log a witness.
-/

namespace Commonwake

open Outcome Table HashChain

/-- A page of the log after the cursor, with a checkpoint of its end. -/
structure LogPage (P : Primitives) (identity : NodeIdentity P) (log : List OriginEvent)
    (after : ℕ) (bundle : FederationBundle) : Prop where
  verified : verifyBundle P bundle = .ok ()
  origin : bundle.originNodeId = identity.nodeId
  publicKey : bundle.originNodePublicKey = identity.publicKey
  fromCursor : bundle.fromCursor = after
  events : bundle.events <+: log.drop after
  progress : after < log.length → bundle.events ≠ []
  eventHash : bundle.checkpoint.eventHash =
    lastHash OriginEvent.eventHash zeroHash (log.take (after + bundle.events.length))

/-- The peer answers every request up to the head with a page of the log. -/
def ServesLog (P : Primitives) (identity : NodeIdentity P) (log : List OriginEvent)
    (peer : ℤ → ℕ → Result FederationBundle) : Prop :=
  ∀ (after limit : ℕ), after ≤ log.length →
    ∃ bundle, peer after limit = .ok bundle ∧ LogPage P identity log after bundle

section

variable {P : Primitives} {identity importer : NodeIdentity P} {log : List OriginEvent}

/-! ## Who serves the log -/

/-- The origin itself does, when the ordinary texts of its events are within the
limit. -/
theorem OwnLog.serves {db : Db} (h : OwnLog P identity db log)
    (hfits : ∀ event ∈ log, byteLen (P.toText event.canonical) ≤ maxCanonicalObjectBytes)
    (now : ℤ) :
    ServesLog P identity log fun after limit => federationBundle P identity after limit now db := by
  intro after limit hafter
  refine ⟨_, h.federationBundle_eq hafter limit now, ?_, rfl, rfl, rfl, List.take_prefix _ _,
    ?_, rfl⟩
  · rw [h.verifyBundle_iff]
    intro event hevent
    exact hfits event (List.mem_of_mem_drop (List.mem_of_mem_take hevent))
  · intro hless hnil
    have hlength := congrArg List.length hnil
    simp only [ownPage, List.length_take, List.length_drop, List.length_nil] at hlength
    omega

/-! ## Importing a page -/

variable {db : Db} {held : ℕ} {bundle : FederationBundle}

theorem isOk_projectEvents_of_prefix {origin : String} {state : ImportState}
    {fresh all : List OriginEvent} (hfresh : fresh <+: all)
    (h : isOk (projectEvents P origin state all)) : isOk (projectEvents P origin state fresh) := by
  obtain ⟨rest, rfl⟩ := hfresh
  obtain ⟨final, hfinal⟩ := h
  unfold projectEvents at hfinal ⊢
  rw [foldState_append] at hfinal
  obtain ⟨middle, hmiddle, -⟩ := bind_eq_ok.mp hfinal
  exact ⟨middle, hmiddle⟩

theorem AuthenticChain.of_prefix {key : Bytes} {served : List OriginEvent}
    (h : AuthenticChain P key 0 zeroHash log) (hserved : served <+: log) :
    AuthenticChain P key 0 zeroHash served := by
  have hslice := h.slice 0 served.length
  rw [List.drop_zero, ← List.prefix_iff_eq_take.mp hserved] at hslice
  exact hslice

theorem LogPage.take_append (h : LogPage P identity log held bundle) :
    log.take held ++ bundle.events = log.take (held + bundle.events.length) := by
  have hevents : bundle.events = (log.drop held).take bundle.events.length :=
    List.prefix_iff_eq_take.mp h.events
  rw [List.take_add, ← hevents]

theorem LogPage.length_le (h : LogPage P identity log held bundle) (hheld : held ≤ log.length) :
    held + bundle.events.length ≤ log.length := by
  have hlength := h.events.length_le
  rw [List.length_drop] at hlength
  omega

/-- What a node holds of the log of the origin, of which it knows the key. -/
structure HoldsPrefix (P : Primitives) (identity : NodeIdentity P) (log : List OriginEvent)
    (held : ℕ) (db : Db) : Prop where
  chains : StoredChains P db
  within : held ≤ log.length
  stored : Imported P identity.nodeId (log.take held) (db.origins identity.nodeId)
  publicKey : ∀ peer ∈ db.peers, peer.nodeId = identity.nodeId →
    peer.nodePublicKey = identity.publicKey

theorem HoldsPrefix.knownHead (h : HoldsPrefix P identity log held db) :
    db.knownHead identity.nodeId =
      ((held : ℤ), lastHash OriginEvent.eventHash zeroHash (log.take held)) := by
  have hrows := h.stored.rows
  have hlength : (db.origins identity.nodeId).remoteEvents.length = held := by
    rw [← hrows.length_eq, List.length_take]
    exact min_eq_left h.within
  rw [(h.chains.stored_head identity.nodeId).2, hlength, lastHash_of_rows hrows]

theorem checkCheckpoint_of_stored
    (h : storedHashAt bundle.originNodeId bundle.checkpoint.cursor db =
      some bundle.checkpoint.eventHash) : checkCheckpoint P bundle db = .ok () := by
  unfold storedHashAt at h
  unfold checkCheckpoint
  by_cases hzero : bundle.checkpoint.cursor = 0
  · rw [if_pos hzero, Option.some.injEq] at h
    simp only [if_pos hzero, pure_eq_ok, ok_bind, if_pos h]
  · rw [if_neg hzero, Option.map_eq_some_iff] at h
    obtain ⟨row, hrow, hhash⟩ := h
    simp only [if_neg hzero, hrow, okOr_some, Except.map, orRollBack, ok_bind, if_pos hhash,
      pure_eq_ok]

/-- The peer of a page is the stored one, or the page is the first contact. -/
theorem HoldsPrefix.openPeer_eq (h : HoldsPrefix P identity log held db)
    (hpage : LogPage P identity log held bundle) (now : String) :
    ∃ opened, OpensPeer bundle now db opened ∧ openPeer bundle now db =
      .ok ((held : ℤ), ⟨opened, held, lastHash OriginEvent.eventHash zeroHash (log.take held),
        0⟩) := by
  have hknown := h.knownHead
  unfold Db.knownHead at hknown
  unfold openPeer
  rw [hpage.origin]
  cases hpeer : db.peer? identity.nodeId with
  | some peer =>
      have hkey := h.publicKey peer (List.mem_of_find?_eq_some hpeer)
        (by simpa using List.find?_some hpeer)
      rw [hpeer] at hknown
      simp only [Prod.mk.injEq] at hknown
      obtain ⟨hcursor, hhash⟩ := hknown
      refine ⟨db, .known peer (by rw [hpage.origin]; exact hpeer) ?_, ?_⟩
      · rw [hkey, hpage.publicKey]
      · simp only
        rw [rejectIf_of_not (by rw [hkey, hpage.publicKey]; exact not_not.mpr rfl), hcursor, hhash]
        rfl
  | none =>
      rw [hpeer] at hknown
      simp only [Prod.mk.injEq] at hknown
      obtain ⟨hcursor, hhash⟩ := hknown
      have hfrom : bundle.fromCursor = 0 := by rw [hpage.fromCursor, ← hcursor]
      refine ⟨_, .first (by rw [hpage.origin]; exact hpeer) hfrom, ?_⟩
      simp only
      rw [rejectIf_of_not (not_not.mpr hfrom), ← hcursor, ← hhash, hpage.origin]
      rfl

/-- The database after a page, before the witness is logged. -/
def Db.BeforeWitness (db base : Db) : Prop :=
  ∃ peers origins commons,
    base = { db with peers := peers, origins := origins, commons := commons }

/-- The transaction of a page fails only where the node logs its witness. -/
theorem HoldsPrefix.importTransaction_eq (h : HoldsPrefix P identity log held db)
    (hchain : AuthenticChain P (P.publicKey identity.secret) 0 zeroHash log)
    (hpage : LogPage P identity log held bundle) (hother : importer.nodeId ≠ identity.nodeId)
    (hproject : isOk (projectEvents P identity.nodeId (db.importState identity.nodeId)
      bundle.events)) (witness : CheckpointWitness) (now appendedAt : ℤ) :
    ∃ (hash : String) (base : Db), db.BeforeWitness base ∧
      importTransaction P importer bundle witness now appendedAt db = (do
        let (witnessEventId, next) ← orRollBack (witnessImport P importer bundle witness
          appendedAt held (held + bundle.events.length) base)
        pure ({
          originNodeId := bundle.originNodeId
          previouslyKnownCursor := held
          importedEvents := bundle.events.length
          currentCursor := held + bundle.events.length
          currentEventHash := hash
          witnessEventId := witnessEventId }, next)) := by
  obtain ⟨state, hproject⟩ := hproject
  obtain ⟨key, head, hverified⟩ := verifyBundle_eq_ok hpage.verified
  obtain ⟨opened, hopens, hopen⟩ := h.openPeer_eq hpage (P.timestamp now)
  have hwhole := hpage.take_append
  have hcount := hpage.length_le h.within
  have hevents : bundle.events = (log.drop held).take bundle.events.length :=
    List.prefix_iff_eq_take.mp hpage.events
  -- The page continues what is stored.
  have hslice := hchain.slice held bundle.events.length
  rw [← hevents] at hslice
  have hfold := foldState_importEvent_fresh P identity.nodeId
    ⟨opened, held, lastHash OriginEvent.eventHash zeroHash (log.take held), 0⟩ le_rfl
    hslice.numbered hslice.linked
  rw [show opened.importState identity.nodeId = db.importState identity.nodeId from
    hopens.importState identity.nodeId, hproject] at hfold
  simp only [Nat.zero_add] at hfold
  -- The stored events are then those up to the end of the page.
  have himported := Imported.projectEvents
    (h.stored : Imported P _ _ (db.importState identity.nodeId).tables) hproject
  have hrows := himported.rows
  have hstored : storedHashAt bundle.originNodeId bundle.checkpoint.cursor
      (opened.withImportState identity.nodeId state) = some bundle.checkpoint.eventHash := by
    have hnumbered : Numbered RemoteEventRow.originSequence 0 state.tables.remoteEvents := by
      refine numbered_of_rows hrows ?_
      rw [hwhole]
      exact hchain.numbered.take _
    have hlength : state.tables.remoteEvents.length = held + bundle.events.length := by
      rw [← hrows.length_eq, hwhole, List.length_take]
      exact min_eq_left hcount
    have htables : ((opened.withImportState identity.nodeId state).origins
        identity.nodeId).remoteEvents = state.tables.remoteEvents := by
      simp [Db.withImportState]
    have hcursor : bundle.checkpoint.cursor = ((held + bundle.events.length : ℕ) : ℤ) := by
      rw [hverified.checkpointCursor, hverified.throughCursor, hpage.fromCursor]
      push_cast
      ring
    rw [hpage.origin, hcursor, storedHashAt_eq_lastHash (by rw [htables]; exact hnumbered)
      (by rw [htables, hlength]), htables, ← hlength, List.take_length,
      lastHash_of_rows hrows, hwhole, hpage.eventHash]
  refine ⟨lastHash OriginEvent.eventHash (lastHash OriginEvent.eventHash zeroHash
    (log.take held)) bundle.events, advancePeer P bundle (P.timestamp now)
    ⟨opened.withImportState identity.nodeId state, held + bundle.events.length,
      lastHash OriginEvent.eventHash (lastHash OriginEvent.eventHash zeroHash (log.take held))
        bundle.events, bundle.events.length⟩, ?_, ?_⟩
  · cases hopens <;> exact ⟨_, _, _, rfl⟩
  · unfold importTransaction
    rw [hpage.verified, hpage.origin, rejectIf_of_not hother.symm, hopen, hpage.fromCursor]
    simp only [orRollBack, ok_bind]
    rw [rejectIf_of_not (lt_irrefl _), hfold]
    simp only [ok_bind]
    rw [checkCheckpoint_of_stored hstored]
    rfl

theorem witnessImport_eq_error {witness : CheckpointWitness}
    {appendedAt knownCursor currentCursor : ℤ} {error : CommonwakeError}
    (h : witnessImport P importer bundle witness appendedAt knownCursor currentCursor db =
      .error error) :
    appendWitness P importer bundle witness appendedAt db = .error error := by
  unfold witnessImport at h
  split at h
  · cases h
  · split at h
    · cases h
    · cases happend : appendWitness P importer bundle witness appendedAt db with
      | error other =>
          rw [happend] at h
          cases h
          rfl
      | ok =>
          rw [happend] at h
          cases h

/-- The node cannot log the witness of a page. -/
def WitnessRefused (P : Primitives) (importer : NodeIdentity P) (db : Db)
    (readings : Readings) (error : CommonwakeError) : Prop :=
  ∃ (bundle : FederationBundle) (base : Db), db.BeforeWitness base ∧
    appendWitness P importer bundle (makeCheckpointWitness P importer bundle
      readings.observedAt) readings.appendedAt base = .error error

/-- A page is imported, or the node cannot log its witness. -/
theorem HoldsPrefix.import_page (h : HoldsPrefix P identity log held db)
    (hchain : AuthenticChain P (P.publicKey identity.secret) 0 zeroHash log)
    (hpage : LogPage P identity log held bundle) (hother : importer.nodeId ≠ identity.nodeId)
    (hproject : isOk (projectEvents P identity.nodeId (db.importState identity.nodeId)
      bundle.events)) (readings : Readings) :
    (∃ error, WitnessRefused P importer db readings error ∧
      importFederationBundle P importer bundle readings.observedAt readings.now
        readings.appendedAt db = (.error error, db)) ∨
    ∃ report next,
      importFederationBundle P importer bundle readings.observedAt readings.now
        readings.appendedAt db = (.ok report, next) ∧
      report.currentCursor = (held + bundle.events.length : ℕ) ∧
      report.importedEvents = bundle.events.length ∧
      HoldsPrefix P identity log (held + bundle.events.length) next := by
  obtain ⟨hash, base, hbase, htransaction⟩ := h.importTransaction_eq hchain hpage hother hproject
    (makeCheckpointWitness P importer bundle readings.observedAt) readings.now
    readings.appendedAt
  have himport : importFederationBundle P importer bundle readings.observedAt readings.now
      readings.appendedAt db = db.importFederationBundle P importer bundle
        (makeCheckpointWitness P importer bundle readings.observedAt) readings.now
        readings.appendedAt := by
    unfold importFederationBundle
    rw [hpage.verified]
  have houtcome := importFederationBundle_outcome importer bundle readings.observedAt
    readings.now readings.appendedAt db
  rw [himport] at houtcome ⊢
  unfold Db.importFederationBundle at houtcome ⊢
  rw [htransaction] at houtcome ⊢
  cases hwitness : witnessImport P importer bundle (makeCheckpointWitness P importer bundle
      readings.observedAt) readings.appendedAt held (held + bundle.events.length) base with
  | error error =>
      exact .inl ⟨error, ⟨bundle, base, hbase, witnessImport_eq_error hwitness⟩, rfl⟩
  | ok result =>
      obtain ⟨witnessEventId, next⟩ := result
      rw [hwitness] at houtcome
      refine .inr ⟨_, next, rfl, by push_cast; rfl, rfl, ?_⟩
      rcases houtcome with ⟨error, other, herror, -⟩ |
        ⟨report, other, key, head, opened, loop, fresh, state, hdone, hresult⟩
      · cases herror
      simp only [orRollBack, ok_bind, pure_eq_ok, Prod.mk.injEq, Except.ok.injEq] at hdone
      obtain ⟨hreport, rfl⟩ := hdone
      -- Every event of the page is new.
      obtain ⟨overlap, hsplit, -⟩ := hresult.looped.split
      have hall : fresh = bundle.events := by
        have hcount := congrArg FederationImportReport.importedEvents
          (hreport.trans hresult.reported)
        simp only [hresult.looped.result] at hcount
        have hlength := congrArg List.length hsplit
        rw [List.length_append] at hlength
        have hempty : overlap = [] := List.length_eq_zero_iff.mp (by omega)
        rw [hsplit, hempty, List.nil_append]
      have hstored := h.stored
      rw [← hpage.origin] at hstored
      have himported := hresult.imported hstored
      rw [hall, hpage.origin, hpage.take_append] at himported
      refine ⟨hresult.storedChains h.chains, hpage.length_le h.within, himported, ?_⟩
      intro peer hpeer hnode
      rcases hresult.peers.2 peer hpeer with ⟨hne, hmem⟩ | ⟨-, -, -, old, hold, hid, hkey⟩
      · exact h.publicKey peer hmem hnode
      · rw [hkey]
        have hopens := hresult.opens
        cases hopens with
        | known => exact h.publicKey old hold (hid.trans hpage.origin)
        | first hunknown hfrom =>
            rcases List.mem_append.mp hold with hbefore | hnew
            · exact h.publicKey old hbefore (hid.trans hpage.origin)
            · rw [List.mem_singleton.mp hnew]
              exact hpage.publicKey

end

/-! ## What comes in between -/

section

variable (P : Primitives)

/-- The instants of a peer can be read. -/
structure PeerRow.Readable (peer : PeerRow) : Prop where
  firstSeenAt : isOk (P.parseTimestamp peer.firstSeenAt)
  lastSeenAt : isOk (P.parseTimestamp peer.lastSeenAt)

def Db.PeersReadable (db : Db) : Prop :=
  ∀ peer ∈ db.peers, peer.Readable P

/-- Nothing about the origin has changed. -/
structure Db.KeepsOrigin (origin : String) (db next : Db) : Prop where
  tables : next.origins origin = db.origins origin
  peers : ∀ peer ∈ next.peers, peer.nodeId = origin → peer ∈ db.peers
  readable : db.PeersReadable P → next.PeersReadable P

end

/-- The action imports nothing from the origin. -/
def Action.Apart (origin : String) : Action → Prop
  | .importBundle bundle _ now _ => bundle.originNodeId ≠ origin ∧ FourDigitYear now
  | _ => True

/-- The action does not belong to the synchronization, and imports nothing from the
origin. -/
def SyncAction.Apart (origin : String) (index : ℕ) : SyncAction → Prop
  | .node action => action.Apart origin
  | .synchronize .. => True
  | .proceed other answer readings => other ≠ index ∧ FourDigitYear readings.now ∧
      ∀ bundle, answer = .ok bundle → bundle.originNodeId ≠ origin

section

variable {P : Primitives} {identity : NodeIdentity P} {origin : String}

theorem isOk_federationPeers {db : Db} (h : db.PeersReadable P) :
    isOk (federationPeers P db) := by
  unfold federationPeers
  rw [isOk_traverse]
  intro row hrow
  obtain ⟨hfirst, hlast⟩ := h row (List.mem_mergeSort.mp hrow)
  unfold federationPeerView
  simp only [isOk_bind]
  obtain ⟨firstSeenAt, hfirst⟩ := hfirst
  obtain ⟨lastSeenAt, hlast⟩ := hlast
  exact ⟨firstSeenAt, hfirst, lastSeenAt, hlast, isOk_ok _⟩

theorem ImportResult.peersReadable {bundle : FederationBundle} {witness : CheckpointWitness}
    {now appendedAt : ℤ} {db next opened : Db} {report : FederationImportReport} {key : Bytes}
    {head : String} {loop : ImportLoop} {fresh : List OriginEvent} {state : ImportState}
    (h : ImportResult P identity bundle witness now appendedAt db report next key head
      opened loop fresh state) (hyear : FourDigitYear now) (hpeers : db.PeersReadable P) :
    next.PeersReadable P := by
  have hnow := (P.isOk_parseTimestamp_timestamp now).mpr hyear
  obtain ⟨events, witnesses, imports, hnext⟩ :=
    witnessImport_frame _ _ _ _ _ _ _ _ h.witnessed
  have hopened : opened.PeersReadable P := by
    have hopens := h.opens
    cases hopens with
    | known => exact hpeers
    | first =>
        intro peer hpeer
        rcases List.mem_append.mp hpeer with hold | hnew
        · exact hpeers peer hold
        · rw [List.mem_singleton.mp hnew]
          exact ⟨hnow, hnow⟩
  have hloop : loop.db.peers = opened.peers := by
    rw [h.looped.result]
    rfl
  simp only at hnext
  rw [hnext]
  intro peer hpeer
  simp only [advancePeer, hloop] at hpeer
  obtain ⟨old, hold, rfl⟩ := mem_updateWhere.mp hpeer
  have hreadable := hopened old hold
  split
  · exact ⟨hreadable.firstSeenAt, hnow⟩
  · exact hreadable

theorem NodeState.step_apart (identity : NodeIdentity P) (node : NodeState) {action : Action}
    (hapart : action.Apart origin) :
    node.db.KeepsOrigin P origin (node.step P identity action).db := by
  rcases node.step_synchronizes identity action with hown |
    ⟨bundle, observedAt, now, appendedAt, report, key, head, opened, loop, fresh, state, rfl,
      hresult⟩
  · refine ⟨by rw [hown.origins], ?_, ?_⟩
    · intro peer hpeer _
      rwa [hown.peers] at hpeer
    · intro hpeers peer hpeer
      rw [hown.peers] at hpeer
      exact hpeers peer hpeer
  · obtain ⟨hne, hyear⟩ := hapart
    refine ⟨hresult.other_origins hne.symm, ?_, hresult.peersReadable hyear⟩
    intro peer hpeer hnode
    rcases hresult.peers.2 peer hpeer with ⟨-, hmem⟩ | ⟨hid, -⟩
    · exact hmem
    · exact absurd (hid.symm.trans hnode) hne

theorem Synchronizer.step_apart (identity : NodeIdentity P) (synchronizer : Synchronizer)
    {index : ℕ} {action : SyncAction} {run : SyncRun} (hrun : synchronizer.runs[index]? = some run)
    (hapart : action.Apart origin index) :
    (synchronizer.step P identity action).runs[index]? = some run ∧
      synchronizer.node.db.KeepsOrigin P origin
        (synchronizer.step P identity action).node.db := by
  have hkept : synchronizer.node.db.KeepsOrigin P origin synchronizer.node.db :=
    ⟨rfl, fun _ hpeer _ => hpeer, id⟩
  cases action with
  | node action => exact ⟨hrun, synchronizer.node.step_apart identity hapart⟩
  | synchronize peer originNodeId batchSize maxPages =>
      refine ⟨?_, hkept⟩
      simp only [Synchronizer.step]
      rw [List.getElem?_append_left (List.getElem?_eq_some_iff.mp hrun).1]
      exact hrun
  | proceed other answer readings =>
      obtain ⟨hother, hyear, hbundle⟩ := hapart
      cases hindex : synchronizer.runs[other]? with
      | none =>
          simp only [Synchronizer.step, hindex]
          exact ⟨hrun, hkept⟩
      | some stranger =>
          rw [Synchronizer.step_proceed hindex]
          refine ⟨?_, ?_⟩
          · simp only [List.getElem?_set_ne hother]
            exact hrun
          · rcases stranger.proceed_node identity answer readings synchronizer.node with hsame |
              ⟨bundle, hanswer, himported⟩
            · rw [hsame]
              exact hkept
            · rw [himported]
              exact synchronizer.node.step_apart identity ⟨hbundle bundle hanswer, hyear⟩

theorem Synchronizer.step_idInputs (synchronizer : Synchronizer) (action : SyncAction) :
    synchronizer.node.db.idInputs P identity.nodeId ⊆
      (synchronizer.step P identity action).node.db.idInputs P identity.nodeId := by
  cases action with
  | node action => exact synchronizer.node.step_idInputs action
  | synchronize => exact subset_rfl
  | proceed index answer readings =>
      cases hindex : synchronizer.runs[index]? with
      | none =>
          simp only [Synchronizer.step, hindex]
          exact subset_rfl
      | some run =>
          rw [Synchronizer.step_proceed hindex]
          rcases run.proceed_node identity answer readings synchronizer.node with hsame |
            ⟨bundle, -, himported⟩
          · rw [hsame]
          · rw [himported]
            exact synchronizer.node.step_idInputs _

end

/-! ## One turn -/

/-- A synchronization goes on with what the peer answers, or something else happens. -/
inductive SyncTurn
  | other (action : SyncAction)
  | proceed (readings : Readings)

def SyncTurn.isProceed : SyncTurn → Bool
  | .other _ => false
  | .proceed _ => true

/-- The answer to the request which is under way; without one, it is not read. -/
def Synchronizer.answer (peer : ℤ → ℕ → Result FederationBundle) (index : ℕ)
    (synchronizer : Synchronizer) : Result FederationBundle :=
  match synchronizer.runs[index]?.bind SyncRun.request? with
  | some (cursor, limit) => peer cursor limit
  | none => peer 0 1

section

variable (P : Primitives) (identity : NodeIdentity P)
  (peer : ℤ → ℕ → Result FederationBundle) (index : ℕ)

def Synchronizer.takeTurn (synchronizer : Synchronizer) : SyncTurn → Synchronizer
  | .other action => synchronizer.step P identity action
  | .proceed readings => synchronizer.step P identity
      (.proceed index (synchronizer.answer peer index) readings)

def Synchronizer.follow (synchronizer : Synchronizer) (turns : List SyncTurn) : Synchronizer :=
  turns.foldl (Synchronizer.takeTurn P identity peer index) synchronizer

end

section

variable (P : Primitives) (identity : NodeIdentity P) (log : List OriginEvent) (held : ℕ)
  (refused : CommonwakeError → Prop) (db : Db)

/-- How far a synchronization is on its way to the head of the log, and how often it
still goes on. -/
inductive SyncPhase.CatchesUp : ℕ → SyncPhase → Prop
  | probing (hholds : HoldsPrefix P identity log held db) (hpeers : db.PeersReadable P) :
      CatchesUp (log.length - held + 3) .probing
  | locating (probe : FederationBundle) (horigin : probe.originNodeId = identity.nodeId)
      (hkey : probe.originNodePublicKey = identity.publicKey)
      (hholds : HoldsPrefix P identity log held db) (hpeers : db.PeersReadable P) :
      CatchesUp (log.length - held + 2) (.locating probe)
  | following (probe : FederationBundle) (horigin : probe.originNodeId = identity.nodeId)
      (hkey : probe.originNodePublicKey = identity.publicKey) (progress : SyncProgress)
      (current : ℕ) (hcursor : progress.cursor = current)
      (himported : held + progress.importedEvents = current)
      (hholds : HoldsPrefix P identity log current db) :
      CatchesUp (log.length - current + 1) (.following probe progress)
  | caughtUp (report : SyncReport) (hcaught : report.caughtUp = true)
      (horigin : report.originNodeId = identity.nodeId) (hcursor : report.cursor = log.length)
      (himported : held + report.importedEvents = log.length)
      (hholds : HoldsPrefix P identity log log.length db) :
      CatchesUp 0 (.done (.ok report))
  | refused (error : CommonwakeError) (hrefused : refused error) :
      CatchesUp 0 (.done (.error (.failed error)))

end

section

variable {P : Primitives} {identity importer : NodeIdentity P} {log : List OriginEvent}
  {held : ℕ} {db next : Db}

theorem HoldsPrefix.keep (h : HoldsPrefix P identity log held db)
    (hkeeps : db.KeepsOrigin P identity.nodeId next) (hchains : StoredChains P next) :
    HoldsPrefix P identity log held next where
  chains := hchains
  within := h.within
  stored := by rw [hkeeps.tables]; exact h.stored
  publicKey := fun peer hpeer hnode => h.publicKey peer (hkeeps.peers peer hpeer hnode) hnode

variable {refused later : CommonwakeError → Prop} {rank : ℕ} {phase : SyncPhase}

theorem SyncPhase.CatchesUp.keep (h : phase.CatchesUp P identity log held refused db rank)
    (hkeeps : db.KeepsOrigin P identity.nodeId next) (hchains : StoredChains P next)
    (hlater : ∀ error, refused error → later error) :
    phase.CatchesUp P identity log held later next rank := by
  cases h with
  | probing hholds hpeers => exact .probing (hholds.keep hkeeps hchains) (hkeeps.readable hpeers)
  | locating probe horigin hkey hholds hpeers =>
      exact .locating probe horigin hkey (hholds.keep hkeeps hchains) (hkeeps.readable hpeers)
  | following probe horigin hkey progress current hcursor himported hholds =>
      exact .following probe horigin hkey progress current hcursor himported
        (hholds.keep hkeeps hchains)
  | caughtUp report hcaught horigin hcursor himported hholds =>
      exact .caughtUp report hcaught horigin hcursor himported (hholds.keep hkeeps hchains)
  | refused error hrefused => exact .refused error (hlater error hrefused)

/-- A turn of the synchronization brings it nearer to the head. -/
theorem SyncPhase.CatchesUp.proceed (run : SyncRun) (readings : Readings)
    {answer : Result FederationBundle} {peer : ℤ → ℕ → Result FederationBundle}
    (h : run.phase.CatchesUp P identity log held refused db rank)
    (hchain : AuthenticChain P (P.publicKey identity.secret) 0 zeroHash log)
    (hserves : ServesLog P identity log peer) (hother : importer.nodeId ≠ identity.nodeId)
    (hrequested : ∀ requested, run.originNodeId = some requested → requested = identity.nodeId)
    (hmaximum : run.maxPages = none)
    (hanswer : ∀ cursor limit, run.request? = some (cursor, limit) → answer = peer cursor limit)
    (hproject : ∀ current, HoldsPrefix P identity log current db →
      isOk (projectEvents P identity.nodeId (db.importState identity.nodeId)
        (log.drop current)))
    (hlater : ∀ error, refused error ∨ WitnessRefused P importer db readings error →
      later error) :
    ∃ lower ≤ rank - 1, (run.proceed P importer answer readings db).1.CatchesUp P identity log
      held later (run.proceed P importer answer readings db).2 lower := by
  unfold SyncRun.request? at hanswer
  unfold SyncRun.proceed
  generalize run.phase = phase at h hanswer
  cases h with
  | probing hholds hpeers =>
      obtain ⟨probe, hprobe, hpage⟩ := hserves 0 1 (Nat.zero_le _)
      rw [hanswer 0 1 rfl]
      have hchecked : checkProbe P importer run (peer 0 1) = .ok probe := by
        unfold checkProbe
        simp only [Nat.cast_zero] at hprobe
        simp only [bind_eq_ok, orFailed_eq_ok, rejectIf_eq_ok, pure_eq_ok]
        refine ⟨probe, hprobe, (), hpage.verified, (), ?_, (), ?_, rfl⟩
        · cases hsome : run.originNodeId with
          | none => simp
          | some requested => simp [hrequested requested hsome, hpage.origin]
        · rw [hpage.origin]
          exact hother.symm
      simp only [hchecked, ok_bind, pure_eq_ok, SyncPhase.ofResult]
      exact ⟨_, by omega, .locating probe hpage.origin hpage.publicKey hholds hpeers⟩
  | locating probe horigin hkey hholds hpeers =>
      obtain ⟨views, hviews⟩ := isOk_federationPeers hpeers
      have hcursor := federationPeers_cursor hholds.chains.distinct hviews probe.originNodeId
      rw [horigin, hholds.knownHead] at hcursor
      simp only [hviews, orFailed, Except.mapError, ok_bind, pure_eq_ok, SyncPhase.ofResult,
        horigin, hcursor]
      exact ⟨_, by omega, .following probe horigin hkey ⟨held, 0, 0, []⟩ held rfl rfl hholds⟩
  | following probe horigin hkey progress current hcursor himported hholds =>
      obtain ⟨bundle, hbundle, hpage⟩ := hserves current run.batchSize hholds.within
      have hasked := hanswer progress.cursor run.batchSize rfl
      rw [hcursor, hbundle] at hasked
      have hchecked : checkSyncPage probe progress answer = .ok bundle := by
        rw [checkSyncPage_eq_ok]
        exact ⟨hasked, ⟨hpage.origin.trans horigin.symm, hpage.publicKey.trans hkey.symm⟩,
          hpage.fromCursor.trans hcursor.symm⟩
      have hprojects : isOk (projectEvents P identity.nodeId (db.importState identity.nodeId)
          bundle.events) :=
        isOk_projectEvents_of_prefix hpage.events (hproject current hholds)
      have hwithin := hpage.length_le hholds.within
      simp only [hchecked]
      rcases hholds.import_page hchain hpage hother hprojects readings with
        ⟨error, hrefused, himport⟩ | ⟨report, next, himport, hreached, hcounted, hnext⟩
      · simp only [himport]
        exact ⟨0, Nat.zero_le _, .refused error (hlater error (.inr hrefused))⟩
      · have hadvanced : held + (progress.advance report).importedEvents =
            current + bundle.events.length := by
          simp only [SyncProgress.advance, hcounted]
          omega
        simp only [himport]
        by_cases hempty : bundle.events.length = 0
        · -- A page without events ends at the head.
          have hall : current + bundle.events.length = log.length := by
            have hhead : ¬ current < log.length := fun hless =>
              hpage.progress hless (List.length_eq_zero_iff.mp hempty)
            omega
          rw [if_pos hempty]
          rw [hall] at hreached hadvanced hnext
          exact ⟨0, Nat.zero_le _, .caughtUp _ rfl horigin hreached hadvanced hnext⟩
        · have hmore : run.exhausted (progress.advance report).pages = false := by
            simp [SyncRun.exhausted, hmaximum]
          rw [if_neg hempty, hmore]
          exact ⟨_, by omega, .following probe horigin hkey _ _ hreached hadvanced hnext⟩
  | caughtUp report hcaught horigin hcursor himported hholds =>
      exact ⟨0, Nat.zero_le _, .caughtUp report hcaught horigin hcursor himported hholds⟩
  | refused error hrefused =>
      exact ⟨0, Nat.zero_le _, .refused error (hlater error (.inl hrefused))⟩

end

/-! ## Every turn -/

section

variable (P : Primitives) (importer : NodeIdentity P)
  (peer : ℤ → ℕ → Result FederationBundle)

/-- A synchronization without a limit of pages, and its turns. -/
def Synchronizer.synchronizeWith (name : String) (requested : Option String) (batchSize : ℕ)
    (turns : List SyncTurn) (synchronizer : Synchronizer) : Synchronizer :=
  (synchronizer.step P importer (.synchronize name requested batchSize none)).follow P importer
    peer synchronizer.runs.length turns

/-- In one of the turns the node could not log a witness. -/
def RefusedIn (index : ℕ) (started : Synchronizer) (turns : List SyncTurn)
    (error : CommonwakeError) : Prop :=
  ∃ earlier readings later, turns = earlier ++ .proceed readings :: later ∧
    WitnessRefused P importer (started.follow P importer peer index earlier).node.db readings
      error

/-- A synchronization of a node which holds the first rows of an origin is done: it has
imported the others and stored them all, or the node could not log a witness. -/
def Synchronizer.Reaches (origin : String) (name : String) (requested : Option String)
    (batchSize : ℕ) (turns : List SyncTurn) (synchronizer : Synchronizer) (held : ℕ)
    (rows : List EventRow) : Prop :=
  let finished := synchronizer.synchronizeWith P importer peer name requested batchSize turns
  ∃ run, finished.runs[synchronizer.runs.length]? = some run ∧
    ((∃ report, run.phase = .done (.ok report) ∧ report.caughtUp = true ∧
        report.originNodeId = origin ∧ report.cursor = rows.length ∧
        held + report.importedEvents = rows.length ∧
        finished.node.db.Holds P origin rows) ∨
      ∃ error, run.phase = .done (.error (.failed error)) ∧
        RefusedIn P importer peer synchronizer.runs.length
          (synchronizer.step P importer (.synchronize name requested batchSize none)) turns
          error)

end

section

variable {P : Primitives} {identity importer : NodeIdentity P} {log served : List OriginEvent}
  {peer : ℤ → ℕ → Result FederationBundle} {index : ℕ} {started : Synchronizer}

theorem RefusedIn.append {turns : List SyncTurn} {error : CommonwakeError}
    (h : RefusedIn P importer peer index started turns error) (turn : SyncTurn) :
    RefusedIn P importer peer index started (turns ++ [turn]) error := by
  obtain ⟨earlier, readings, later, rfl, hrefused⟩ := h
  exact ⟨earlier, readings, later ++ [turn], by simp, hrefused⟩

theorem Synchronizer.follow_append_singleton (turns : List SyncTurn) (turn : SyncTurn) :
    started.follow P importer peer index (turns ++ [turn]) =
      (started.follow P importer peer index turns).takeTurn P importer peer index turn := by
  unfold Synchronizer.follow
  rw [List.foldl_append]
  rfl

theorem Synchronizer.takeTurn_idInputs (synchronizer : Synchronizer) (turn : SyncTurn) :
    synchronizer.node.db.idInputs P importer.nodeId ⊆
      (synchronizer.takeTurn P importer peer index turn).node.db.idInputs P importer.nodeId := by
  cases turn with
  | other action => exact synchronizer.step_idInputs action
  | proceed readings => exact synchronizer.step_idInputs _

theorem Synchronizer.Sound.follow (h : started.Sound P importer)
    (peer : ℤ → ℕ → Result FederationBundle) (index : ℕ) (turns : List SyncTurn) :
    (started.follow P importer peer index turns).Sound P importer := by
  induction turns using List.reverseRecOn with
  | nil => exact h
  | append_singleton turns turn ih =>
      rw [Synchronizer.follow_append_singleton]
      cases turn with
      | other action => exact ih.step action
      | proceed readings =>
          simp only [Synchronizer.takeTurn]
          exact ih.step _

theorem Synchronizer.Sound.storedChains {synchronizer : Synchronizer}
    (h : synchronizer.Sound P importer) : StoredChains P synchronizer.node.db := by
  obtain ⟨steps, hnode⟩ := h.node
  rw [hnode]
  exact run_storedChains P importer steps

/-- What a node which holds a part of the log does not hold can be recorded. -/
theorem StaysImportable.isOk_projectEvents {actions : List Action} {synchronizer : Synchronizer}
    (hstays : StaysImportable P identity actions)
    (hlog : OwnLog P identity (NodeState.run P identity actions).db log)
    (hserved : served <+: log) (hother : importer.nodeId ≠ identity.nodeId)
    (hsound : synchronizer.Sound P importer)
    (hcollision : Set.InjOn P.sha256
      ((NodeState.run P identity actions).db.idInputs P identity.nodeId ∪
        synchronizer.node.db.idInputs P importer.nodeId))
    {current : ℕ} (hholds : HoldsPrefix P identity served current synchronizer.node.db) :
    isOk (projectEvents P identity.nodeId
      (synchronizer.node.db.importState identity.nodeId) (served.drop current)) := by
  obtain ⟨steps, hnode⟩ := hsound.node
  obtain ⟨rest, rfl⟩ := hserved
  have hstored := hholds.stored
  rw [hnode] at hstored hcollision ⊢
  refine isOk_projectEvents_of_prefix (List.prefix_append _ rest)
    (hstays.followable hother hcollision hstored _ ?_)
  rw [← List.append_assoc, List.take_append_drop, hlog.read]

theorem Synchronizer.follow_catchesUp {actions : List Action} {held : ℕ} {run : SyncRun}
    (hlog : OwnLog P identity (NodeState.run P identity actions).db log)
    (hserved : served <+: log) (hserves : ServesLog P identity served peer)
    (hstays : StaysImportable P identity actions)
    (hother : importer.nodeId ≠ identity.nodeId) (hsound : started.Sound P importer)
    (hrun : started.runs[index]? = some run) (hprobing : run.phase = .probing)
    (hrequested : ∀ requested, run.originNodeId = some requested → requested = identity.nodeId)
    (hmaximum : run.maxPages = none)
    (hholds : HoldsPrefix P identity served held started.node.db)
    (hpeers : started.node.db.PeersReadable P) (turns : List SyncTurn)
    (hapart : ∀ action, .other action ∈ turns → action.Apart identity.nodeId index)
    (hcollision : Set.InjOn P.sha256
      ((NodeState.run P identity actions).db.idInputs P identity.nodeId ∪
        (started.follow P importer peer index turns).node.db.idInputs P importer.nodeId)) :
    ∃ phase rank, rank ≤ served.length - held + 3 - turns.countP SyncTurn.isProceed ∧
      (started.follow P importer peer index turns).runs[index]? =
        some { run with phase := phase } ∧
      phase.CatchesUp P identity served held (RefusedIn P importer peer index started turns)
        (started.follow P importer peer index turns).node.db rank := by
  induction turns using List.reverseRecOn with
  | nil =>
      refine ⟨.probing, _, le_rfl, ?_, .probing hholds hpeers⟩
      rw [← hprobing]
      exact hrun
  | append_singleton turns turn ih =>
      have hearlier : Set.InjOn P.sha256
          ((NodeState.run P identity actions).db.idInputs P identity.nodeId ∪
            (started.follow P importer peer index turns).node.db.idInputs P
              importer.nodeId) := by
        refine hcollision.mono (Set.union_subset_union_right _ ?_)
        rw [Synchronizer.follow_append_singleton]
        exact Synchronizer.takeTurn_idInputs _ turn
      obtain ⟨phase, rank, hrank, hphase, hcatches⟩ :=
        ih (fun action haction => hapart action (List.mem_append_left _ haction)) hearlier
      have hreached := hsound.follow peer index turns
      have hnext := hsound.follow peer index (turns ++ [turn])
      have hproject := fun current
          (hcurrent : HoldsPrefix P identity served current
            (started.follow P importer peer index turns).node.db) =>
        hstays.isOk_projectEvents hlog hserved hother hreached hearlier hcurrent
      have hearliest : ∀ error, RefusedIn P importer peer index started turns error →
          RefusedIn P importer peer index started (turns ++ [turn]) error :=
        fun error hrefused => hrefused.append turn
      have hrefuses : ∀ readings error, turn = .proceed readings →
          WitnessRefused P importer (started.follow P importer peer index turns).node.db
            readings error → RefusedIn P importer peer index started (turns ++ [turn]) error :=
        fun readings error hturn hrefused => ⟨turns, readings, [], by rw [hturn], hrefused⟩
      rw [Synchronizer.follow_append_singleton] at hnext ⊢
      generalize started.follow P importer peer index turns = reached at *
      rw [List.countP_append]
      cases turn with
      | other action =>
          have haction := hapart action (List.mem_append_right _ List.mem_cons_self)
          obtain ⟨hkept, hkeeps⟩ := reached.step_apart importer hphase haction
          exact ⟨phase, rank, hrank, hkept, hcatches.keep hkeeps hnext.storedChains hearliest⟩
      | proceed readings =>
          have hanswer : ∀ cursor limit,
              SyncRun.request? { run with phase := phase } = some (cursor, limit) →
                reached.answer peer index = peer cursor limit := by
            intro cursor limit hasked
            simp only [Synchronizer.answer, hphase, Option.bind_some, hasked]
          obtain ⟨lower, hlower, hnearer⟩ := SyncPhase.CatchesUp.proceed
            { run with phase := phase } readings hcatches (hlog.chain.of_prefix hserved)
            hserves hother hrequested hmaximum hanswer hproject fun error hrefused =>
              hrefused.elim (hearliest error) (hrefuses readings error rfl)
          simp only [Synchronizer.takeTurn]
          rw [Synchronizer.step_proceed hphase]
          refine ⟨_, lower, ?_, ?_, hnearer⟩
          · simp only [List.countP_singleton, SyncTurn.isProceed, if_true]
            omega
          · exact List.getElem?_set_self (List.getElem?_eq_some_iff.mp hphase).1

/-- A synchronization which has had enough turns is done. -/
theorem Synchronizer.synchronizeWith_reaches {actions : List Action} {synchronizer : Synchronizer}
    {held : ℕ} {name : String} {requested : Option String} {batchSize : ℕ}
    {turns : List SyncTurn} (hlog : OwnLog P identity (NodeState.run P identity actions).db log)
    (hserved : served <+: log) (hserves : ServesLog P identity served peer)
    (hstays : StaysImportable P identity actions) (hother : importer.nodeId ≠ identity.nodeId)
    (hrequested : ∀ origin, requested = some origin → origin = identity.nodeId)
    (hsound : synchronizer.Sound P importer) (hwithin : held ≤ served.length)
    (hheld : synchronizer.node.db.Holds P identity.nodeId
      ((NodeState.run P identity actions).db.events.take held))
    (hkey : ∀ known ∈ synchronizer.node.db.peers, known.nodeId = identity.nodeId →
      known.nodePublicKey = identity.publicKey)
    (hpeers : synchronizer.node.db.PeersReadable P)
    (hapart : ∀ action, .other action ∈ turns →
      action.Apart identity.nodeId synchronizer.runs.length)
    (hcollision : Set.InjOn P.sha256
      ((NodeState.run P identity actions).db.idInputs P identity.nodeId ∪
        (synchronizer.synchronizeWith P importer peer name requested batchSize
          turns).node.db.idInputs P importer.nodeId))
    (henough : served.length - held + 3 ≤ turns.countP SyncTurn.isProceed) :
    synchronizer.Reaches P importer peer identity.nodeId name requested batchSize turns held
      ((NodeState.run P identity actions).db.events.take served.length) := by
  have hlength : (NodeState.run P identity actions).db.events.length = log.length := by
    rw [← List.length_map (f := originEvent P), hlog.read, List.length_map]
  have hrows : ((NodeState.run P identity actions).db.events.take served.length).length =
      served.length := by
    rw [List.length_take, hlength]
    exact min_eq_left hserved.length_le
  have hholds : HoldsPrefix P identity served held synchronizer.node.db := by
    refine ⟨hsound.storedChains, hwithin, ?_, hkey⟩
    obtain ⟨steps, hnode⟩ := hsound.node
    rw [hnode] at hheld ⊢
    obtain ⟨stored, hstored, himported⟩ := hheld.imported
    obtain ⟨rest, rfl⟩ := hserved
    rw [List.map_take, hlog.read, ← List.map_take, List.take_append_of_le_length hwithin]
      at hstored
    rwa [List.map_injective_iff.mpr (fun _ _ => Except.ok.inj) hstored]
  have hrun : (synchronizer.step P importer
      (.synchronize name requested batchSize none)).runs[synchronizer.runs.length]? =
        some (.start name requested batchSize none) :=
    List.getElem?_concat_length
  obtain ⟨phase, rank, hrank, hphase, hcatches⟩ := Synchronizer.follow_catchesUp hlog hserved
    hserves hstays hother (hsound.step _) hrun rfl hrequested rfl hholds hpeers turns hapart
    hcollision
  have hfinished : rank = 0 := by omega
  rw [hfinished] at hcatches
  refine ⟨_, hphase, ?_⟩
  rw [hrows]
  cases hcatches with
  | caughtUp report hcaught horigin hcursor himported hreached =>
      refine .inl ⟨report, rfl, hcaught, horigin, hcursor, himported, ?_⟩
      have hstored := hreached.stored.map_rows
      obtain ⟨rest, rfl⟩ := hserved
      rw [List.take_length] at hstored
      refine hstored.trans ?_
      rw [List.map_take, hlog.read, ← List.map_take, List.take_left]
  | refused error hrefused => exact .inr ⟨error, rfl, hrefused⟩

/-- However far a node has followed the log of an origin, a synchronization which is
answered with pages of that log reaches its head, unless the node cannot log a witness.
In between the node may do anything but import from the origin. -/
theorem run_catchesUp (P : Primitives) (identity importer : NodeIdentity P)
    (actions : List Action) (before : List SyncAction) (log : List OriginEvent) (held : ℕ)
    (peer : ℤ → ℕ → Result FederationBundle) (name : String) (requested : Option String)
    (batchSize : ℕ) (turns : List SyncTurn)
    (hlog : (NodeState.run P identity actions).db.events.map (originEvent P) = log.map .ok)
    (hserves : ServesLog P identity log peer) (hstays : StaysImportable P identity actions)
    (hother : importer.nodeId ≠ identity.nodeId)
    (hrequested : ∀ origin, requested = some origin → origin = identity.nodeId)
    (hwithin : held ≤ log.length)
    (hheld : (Synchronizer.run P importer before).node.db.Holds P identity.nodeId
      ((NodeState.run P identity actions).db.events.take held))
    (hkey : ∀ known ∈ (Synchronizer.run P importer before).node.db.peers,
      known.nodeId = identity.nodeId → known.nodePublicKey = identity.publicKey)
    (hpeers : (Synchronizer.run P importer before).node.db.PeersReadable P)
    (hapart : ∀ action, .other action ∈ turns →
      action.Apart identity.nodeId (Synchronizer.run P importer before).runs.length)
    (hcollision : Set.InjOn P.sha256
      ((NodeState.run P identity actions).db.idInputs P identity.nodeId ∪
        ((Synchronizer.run P importer before).synchronizeWith P importer peer name requested
          batchSize turns).node.db.idInputs P importer.nodeId))
    (henough : log.length - held + 3 ≤ turns.countP SyncTurn.isProceed) :
    (Synchronizer.run P importer before).Reaches P importer peer identity.nodeId name requested
      batchSize turns held (NodeState.run P identity actions).db.events := by
  obtain ⟨own, hown⟩ := run_ownLog P identity actions
  have hsame : own = log :=
    List.map_injective_iff.mpr (fun _ _ => Except.ok.inj) (hown.read.symm.trans hlog)
  rw [hsame] at hown
  have hlength : (NodeState.run P identity actions).db.events.length = log.length := by
    rw [← List.length_map (f := originEvent P), hlog, List.length_map]
  have hreaches := Synchronizer.synchronizeWith_reaches hown List.prefix_rfl hserves hstays hother
    hrequested (Synchronizer.run_sound importer before) hwithin hheld hkey hpeers hapart
    hcollision henough
  rwa [← hlength, List.take_length] at hreaches

end

section

variable {P : Primitives} {identity importer : NodeIdentity P}

/-- The bytes which a database hashes for the ids in the logs which it knows. -/
def Db.hashedInputs (P : Primitives) (db : Db) (own : String) : List Bytes :=
  idInputsOf P ((own :: db.peers.map PeerRow.nodeId).flatMap (db.knownEvents P own))

theorem Synchronizer.Sound.injOn_of_hashedInputs {synchronizer : Synchronizer}
    (h : synchronizer.Sound P importer) {actions : List Action}
    (hdistinct : ((runInputs P identity actions ++
      synchronizer.node.db.hashedInputs P importer.nodeId).dedup.map P.sha256).Nodup) :
    Set.InjOn P.sha256 ((NodeState.run P identity actions).db.idInputs P identity.nodeId ∪
      synchronizer.node.db.idInputs P importer.nodeId) := by
  obtain ⟨steps, hnode⟩ := h.node
  rw [hnode] at hdistinct ⊢
  exact injOn_of_runInputs hdistinct

/-- Has the synchronization ended with a report? -/
def Synchronizer.reports (synchronizer : Synchronizer) (index : ℕ) : Bool :=
  synchronizer.runs[index]?.any fun run =>
    match run.phase with
    | .done (.ok _) => true
    | _ => false

theorem Synchronizer.Reaches.report {peer : ℤ → ℕ → Result FederationBundle}
    {synchronizer finished : Synchronizer} {origin name : String} {requested : Option String}
    {batchSize : ℕ} {turns : List SyncTurn} {held index : ℕ} {rows : List EventRow}
    (h : synchronizer.Reaches P importer peer origin name requested batchSize turns held rows)
    (hfinished : finished =
      synchronizer.synchronizeWith P importer peer name requested batchSize turns)
    (hindex : index = synchronizer.runs.length) (hreports : finished.reports index = true) :
    ∃ run report, finished.runs[index]? = some run ∧
      run.phase = .done (.ok report) ∧ report.caughtUp = true ∧ report.cursor = rows.length ∧
      finished.node.db.Holds P origin rows := by
  obtain ⟨run, hrun, hdone⟩ := h
  rw [← hfinished, ← hindex] at hrun
  rw [← hfinished] at hdone
  rcases hdone with ⟨report, hphase, hcaught, -, hcursor, -, hholds⟩ | ⟨error, hphase, -⟩
  · exact ⟨run, report, hrun, hphase, hcaught, hcursor, hholds⟩
  · unfold Synchronizer.reports at hreports
    rw [hrun] at hreports
    simp [hphase] at hreports

end

namespace Sample

/-- The origin of a run answers. -/
def originPeer (actions : List Action) (after : ℤ) (limit : ℕ) : Result FederationBundle :=
  federationBundle library origin after limit 0 (NodeState.run library origin actions).db

/-- Six turns, and another synchronization which is started among them. -/
def sixTurns : List SyncTurn :=
  [.proceed ⟨0, 0, 0⟩, .proceed ⟨0, 0, 0⟩, .proceed ⟨0, 0, 0⟩,
    .other (.synchronize "elsewhere" none 1 none), .proceed ⟨0, 0, 0⟩, .proceed ⟨0, 0, 0⟩,
    .proceed ⟨0, 0, 0⟩]

/-- The node which asks the origin of the sample run. -/
def commitmentFollower : Synchronizer :=
  (Synchronizer.run library importer []).synchronizeWith library importer
    (originPeer (commitmentRun oneHour)) "origin" none maxFederationEvents sixTurns

instance commitmentFollower_reports : Fact (
    (((NodeState.run library origin (commitmentRun oneHour)).db.events.all fun row =>
      (originEvent library row).toOption.any fun event =>
        decide (byteLen (library.toText event.canonical) ≤ maxCanonicalObjectBytes)) = true) ∧
    ((runInputs library origin (commitmentRun oneHour) ++
      commitmentFollower.node.db.hashedInputs library importer.nodeId).dedup.map
        library.sha256).Nodup ∧
    commitmentFollower.reports 0 = true) :=
  ⟨by decide +kernel⟩

/-- The follower reaches the head of the sample run. -/
theorem run_catchesUp_commitmentRun :
    ∃ run report, commitmentFollower.runs[0]? = some run ∧ run.phase = .done (.ok report) ∧
      report.caughtUp = true ∧ report.cursor = 3 ∧
      commitmentFollower.node.db.Holds library origin.nodeId
        (NodeState.run library origin (commitmentRun oneHour)).db.events := by
  obtain ⟨log, hlog⟩ := run_ownLog library origin (commitmentRun oneHour)
  have hlength : log.length = 3 := by
    have hhead := (run_history_any library origin (commitmentRun oneHour)).logSound.head_eq
    rw [head_oneHour.out, ← List.length_map (f := originEvent library), hlog.read,
      List.length_map] at hhead
    exact_mod_cast hhead.symm
  have hfits : ∀ event ∈ log,
      byteLen (library.toText event.canonical) ≤ maxCanonicalObjectBytes := by
    intro event hevent
    have hread : Except.ok event ∈ (NodeState.run library origin
        (commitmentRun oneHour)).db.events.map (originEvent library) := by
      rw [hlog.read]
      exact List.mem_map_of_mem hevent
    obtain ⟨row, hrow, hevent⟩ := List.mem_map.mp hread
    have hfit := List.all_eq_true.mp commitmentFollower_reports.out.1 row hrow
    rw [hevent] at hfit
    simpa [Except.toOption] using hfit
  have hnothing : (Synchronizer.run library importer []).node.db.Holds library origin.nodeId
      ((NodeState.run library origin (commitmentRun oneHour)).db.events.take 0) := by
    unfold Db.Holds
    rw [List.take_zero, List.map_nil, List.map_eq_nil_iff]
    rfl
  have hsound : commitmentFollower.Sound library importer :=
    ((Synchronizer.run_sound importer []).step _).follow _ _ _
  have hcollision := hsound.injOn_of_hashedInputs commitmentFollower_reports.out.2.1
  unfold commitmentFollower at hcollision
  have hreaches := run_catchesUp library origin importer (commitmentRun oneHour)
    [] log 0 (originPeer (commitmentRun oneHour)) "origin" none maxFederationEvents sixTurns
    hlog.read (hlog.serves hfits 0) staysImportable_commitmentRun
    commitmentRun_importable.out.2.2
    (by simp) (Nat.zero_le _) hnothing (by intro peer hpeer; cases hpeer)
    (by intro peer hpeer; cases hpeer)
    (by intro action haction; simp [sixTurns] at haction; subst haction; trivial)
    hcollision
    (by rw [hlength]; decide)
  obtain ⟨run, report, hrun, hphase, hcaught, hcursor, hholds⟩ :=
    hreaches.report (rfl : commitmentFollower = _) (rfl : 0 = _)
      commitmentFollower_reports.out.2.2
  refine ⟨run, report, hrun, hphase, hcaught, ?_, hholds⟩
  rw [hcursor, ← List.length_map (f := originEvent library), hlog.read, List.length_map, hlength]
  rfl

end Sample

end Commonwake
