import Commonwake.CommonsAuthors
import Commonwake.LogVerification
import Commonwake.Relay

/-!
# Serving the own log

`append_event` hashes and signs an event, `federation_bundle` puts it into a
page, and `verify_bundle` of another node hashes it again.  The three agree on
every event of every run.  Only the size of an event is measured twice: in its
canonical text when it is logged, and in its ordinary text when a page is
verified.
-/

namespace Commonwake

open Outcome Table HashChain

/-- The events of the page have ordinary texts which an importer takes. -/
def FederationBundle.Fits (P : Primitives) (bundle : FederationBundle) : Prop :=
  ∀ event ∈ bundle.events, byteLen (P.toText event.canonical) ≤ maxCanonicalObjectBytes

instance (P : Primitives) (bundle : FederationBundle) : Decidable (bundle.Fits P) :=
  inferInstanceAs (Decidable (∀ event ∈ bundle.events, _))

section

variable (P : Primitives) (identity : NodeIdentity P)

/-- The log of a node, read as the events which it serves. -/
structure OwnLog (db : Db) (log : List OriginEvent) : Prop where
  read : db.events.map (originEvent P) = log.map .ok
  chain : AuthenticChain P (P.publicKey identity.secret) 0 zeroHash log

/-- The checkpoint which the node signs. -/
def signedCheckpoint (cursor : ℤ) (eventHash : String) (now : ℤ) : Checkpoint :=
  let checkpoint := unsignedCheckpoint P identity cursor eventHash now
  { checkpoint with
    signature := P.signObject identity.secret checkpointDomain (checkpoint.toJson P) }

/-- The page of the log after a cursor, with a checkpoint of its end. -/
def ownPage (log : List OriginEvent) (after limit : ℕ) (now : ℤ) : FederationBundle :=
  let events := (log.drop after).take (max 1 (min limit maxFederationEvents))
  ⟨protocolVersion, identity.nodeId, identity.publicKey, after, (after + events.length : ℕ),
    events, signedCheckpoint P identity (after + events.length : ℕ)
      (lastHash OriginEvent.eventHash zeroHash (log.take (after + events.length))) now⟩

end

section

variable {P : Primitives} {identity : NodeIdentity P}

/-! ## The chain of the log -/

/-- A column which an event keeps is the same in the rows and in the events. -/
theorem map_column_of_read {β : Type} {rows : List EventRow} {log : List OriginEvent}
    {column : EventRow → β} {field : OriginEvent → β}
    (hcolumn : ∀ row event, originEvent P row = .ok event → column row = field event)
    (hread : rows.map (originEvent P) = log.map .ok) : rows.map column = log.map field := by
  induction rows generalizing log with
  | nil =>
      rw [List.map_nil, eq_comm, List.map_eq_nil_iff] at hread
      rw [hread]
      rfl
  | cons row rows ih =>
      cases log with
      | nil => cases hread
      | cons event log =>
          rw [List.map_cons, List.map_cons, List.cons.injEq] at hread
          rw [List.map_cons, List.map_cons, hcolumn row event hread.1, ih hread.2]

theorem originEvent_columns {row : EventRow} {event : OriginEvent}
    (h : originEvent P row = .ok event) :
    (row.sequence, row.eventHash) = (event.sequence, event.eventHash) := by
  simp only [originEvent, bind_eq_ok, okOr_eq_ok, pure_eq_ok, Except.ok.injEq] at h
  obtain ⟨canonical, -, rfl⟩ := h
  rfl

namespace OwnLog

variable {db : Db} {log : List OriginEvent}

theorem columns (h : OwnLog P identity db log) :
    db.events.map (fun row => (row.sequence, row.eventHash)) =
      log.map fun event => (event.sequence, event.eventHash) :=
  map_column_of_read (fun _ _ => originEvent_columns) h.read

theorem head_eq (h : OwnLog P identity db log) : db.head = log.length := by
  have hsequences := congrArg (List.map Prod.fst) h.columns
  rw [List.map_map, List.map_map] at hsequences
  rw [db.head_eq, lastHash_eq_map]
  refine Eq.trans (congrArg (lastHash id 0) hsequences) ?_
  refine (lastHash_eq_map OriginEvent.sequence 0 log).symm.trans ?_
  rw [h.chain.numbered.lastHash_eq, zero_add]

theorem headHash_eq (h : OwnLog P identity db log) :
    db.headHash = lastHash OriginEvent.eventHash zeroHash log := by
  have hhashes := congrArg (List.map Prod.snd) h.columns
  rw [List.map_map, List.map_map] at hhashes
  rw [db.headHash_eq, lastHash_eq_map]
  exact (congrArg (lastHash id zeroHash) hhashes).trans
    (lastHash_eq_map OriginEvent.eventHash zeroHash log).symm

theorem congr {next : Db} (h : OwnLog P identity db log) (hevents : next.events = db.events) :
    OwnLog P identity next log :=
  ⟨by rw [hevents]; exact h.read, h.chain⟩

/-- An event which was appended is authentic, and extends the chain. -/
theorem append {input : EventInput} {appendedAt : ℤ} {base logged next : Db}
    {row : EventRow} {accepted : AcceptedObject} {value : Json}
    (h : OwnLog P identity db log) (hbase : base.events = db.events)
    (happended : Appended P identity input appendedAt base row accepted logged)
    (hvalue : input.canonicalJson = P.jcs value) (hnext : next.events = db.events ++ [row]) :
    ∃ event, OwnLog P identity next (log ++ [event]) := by
  have hown := h.congr hbase
  obtain ⟨event, hevent, -⟩ := happended.envelope value hvalue
  have hid := happended.event_contentId hvalue hevent
  obtain ⟨previous, canonical, hprevious, hlength, hparse, hrow⟩ := happended.row_eq
  have hfields : event.sequence = base.head + 1 ∧ event.previousHash = base.headHash ∧
      event.eventHash = HexText.encode (P.eventHash previous (canonicalOriginRecord P event)) ∧
      event.nodeSignature = identity.signHash
        (P.eventHash previous (canonicalOriginRecord P event)) := by
    have hread := hevent
    simp only [originEvent, hrow, Db.newRow, hparse, okOr_some, ok_bind, pure_eq_ok,
      Except.ok.injEq] at hread
    subst hread
    exact ⟨rfl, rfl, rfl, rfl⟩
  obtain ⟨hsequence, hlink, hhash, hsignature⟩ := hfields
  rw [hown.head_eq] at hsequence
  refine ⟨event, ?_, ?_, ?_, ?_⟩
  · rw [hnext, List.map_append, List.map_append, h.read, List.map_singleton,
      List.map_singleton, hevent]
  · rw [Numbered.append, zero_add]
    exact ⟨h.chain.numbered, hsequence, trivial⟩
  · rw [Linked.append]
    exact ⟨h.chain.linked, hlink.trans hown.headHash_eq, trivial⟩
  · intro other hother
    rcases List.mem_append.mp hother with hold | hnew
    · exact h.chain.authentic other hold
    · rw [List.mem_singleton.mp hnew]
      refine ⟨⟨previous, ?_, hlength, hhash, P.sign identity.secret
        (P.eventHash previous (canonicalOriginRecord P event)), ?_, P.verify_sign _ _⟩, hid⟩
      · rw [hlink]
        exact hprevious
      · rw [hsignature]
        exact P.signatureFromB64_sign _ _

end OwnLog

/-- The log of a node is a chain of authentic events. -/
theorem History.ownLog {commits : PendingCall → Db → ℤ → Prop} {entries : FeedEntry → Prop}
    {db : Db} (h : History P identity commits entries db) :
    ∃ log, OwnLog P identity db log := by
  induction h with
  | init => exact ⟨[], rfl, trivial, trivial, fun event hevent => by cases hevent⟩
  | quiet db next _ hquiet ih =>
      obtain ⟨log, hlog⟩ := ih
      exact ⟨log, hlog.congr hquiet.events⟩
  | commit db next call appendedAt row accepted _ _ _ _ hcommitted ih =>
      obtain ⟨log, hlog⟩ := ih
      obtain ⟨logged, happended, -⟩ := hcommitted.appended
      obtain ⟨value, hvalue⟩ := call.admitted.canonicalJson_eq (P := P)
      obtain ⟨event, hevent⟩ := hlog.append rfl happended hvalue hcommitted.events
      exact ⟨_, hevent⟩
  | observe db next sourceId languages feed retrievedAt entry canonicalUrl appendedAt row
      accepted _ _ hobserved ih =>
      obtain ⟨log, hlog⟩ := ih
      obtain ⟨logged, happended, -⟩ := hobserved.appended
      obtain ⟨event, hevent⟩ := hlog.append rfl happended rfl hobserved.events
      exact ⟨_, hevent⟩
  | witness db next bundle observedAt appendedAt row _ hwitnessed ih =>
      obtain ⟨log, hlog⟩ := ih
      obtain ⟨base, accepted, logged, hbase, happended⟩ := hwitnessed.appended
      obtain ⟨event, hevent⟩ := hlog.append hbase happended rfl hwitnessed.events
      exact ⟨_, hevent⟩

theorem run_ownLog (P : Primitives) (identity : NodeIdentity P) (actions : List Action) :
    ∃ log, OwnLog P identity (NodeState.run P identity actions).db log :=
  (run_history_any P identity actions).ownLog

/-! ## A page of the log -/

section

variable {db : Db} {log : List OriginEvent} {after limit : ℕ} {now : ℤ}

theorem OwnLog.eventHashAt (h : OwnLog P identity db log) {cursor : ℕ}
    (hcursor : cursor ≤ log.length) :
    db.eventHashAt cursor =
      .ok (lastHash OriginEvent.eventHash zeroHash (log.take cursor)) := by
  unfold Db.eventHashAt
  rw [rejectIf_of_not (by omega)]
  simp only [ok_bind, Nat.cast_eq_zero]
  cases cursor with
  | zero => rfl
  | succ index =>
      have hindex : index < log.length := by omega
      have hlogged : log.find? (fun event => event.sequence == ((index + 1 : ℕ) : ℤ)) =
          some log[index] := by
        rw [h.chain.numbered.find?_eq (k := index) (by push_cast; ring)]
        exact List.getElem?_eq_getElem hindex
      -- The rows and the events have the same numbers and hashes.
      have hfind := congrArg (List.find? fun pair : ℤ × String =>
        pair.1 == ((index + 1 : ℕ) : ℤ)) h.columns
      rw [List.find?_map, List.find?_map] at hfind
      have hlast : lastHash OriginEvent.eventHash zeroHash (log.take (index + 1)) =
          log[index].eventHash := by
        rw [List.take_add_one, List.getElem?_eq_getElem hindex]
        exact lastHash_append_singleton _ _ _ _
      change _ = (log.find? fun event => event.sequence == ((index + 1 : ℕ) : ℤ)).map
        (fun event => (event.sequence, event.eventHash)) at hfind
      rw [hlogged, Option.map_some, Option.map_eq_some_iff] at hfind
      obtain ⟨row, hrow, hpair⟩ := hfind
      have hhash : row.eventHash = log[index].eventHash := congrArg Prod.snd hpair
      rw [if_neg (by omega), hlast, ← hhash]
      have hrow' : (db.events.find? fun row => row.sequence == ((index + 1 : ℕ) : ℤ)) =
          some row := hrow
      rw [hrow']
      rfl

theorem OwnLog.numbered (h : OwnLog P identity db log) :
    Numbered EventRow.sequence 0 db.events := by
  have hsequences := congrArg (List.map Prod.fst) h.columns
  rw [List.map_map, List.map_map] at hsequences
  exact h.chain.numbered.of_map_eq hsequences

/-- The page which is served after a cursor. -/
theorem OwnLog.federationBundle_eq (h : OwnLog P identity db log)
    (hafter : after ≤ log.length) (limit : ℕ) (now : ℤ) :
    federationBundle P identity after limit now db =
      .ok (ownPage P identity log after limit now) := by
  have hwindow := h.numbered.filter_gt after
  rw [zero_add] at hwindow
  have hevents : db.originEventsAfter P after (max 1 (min limit maxFederationEvents)) =
      .ok ((log.drop after).take (max 1 (min limit maxFederationEvents))) := by
    unfold Db.originEventsAfter
    rw [hwindow, traverse_eq_ok, List.map_take, List.map_drop, h.read, List.map_take,
      List.map_drop]
  unfold ownPage
  generalize hpage : (log.drop after).take (max 1 (min limit maxFederationEvents)) = page
    at hevents
  have hcount : after + page.length ≤ log.length := by
    rw [← hpage, List.length_take, List.length_drop]
    omega
  have hnumbered : Numbered OriginEvent.sequence after page := by
    have hdropped := h.chain.numbered.drop after
    rw [zero_add] at hdropped
    rw [← hpage]
    exact hdropped.take _
  have hserved : ∀ through : ℤ, through = (after + page.length : ℕ) →
      (do
        let checkpoint ← checkpointAt P identity through now db
        pure ⟨protocolVersion, identity.nodeId, identity.publicKey, (after : ℤ), through, page,
          checkpoint⟩ : Result FederationBundle) =
        .ok ⟨protocolVersion, identity.nodeId, identity.publicKey, after,
          (after + page.length : ℕ), page, signedCheckpoint P identity (after + page.length : ℕ)
            (lastHash OriginEvent.eventHash zeroHash (log.take (after + page.length))) now⟩ := by
    rintro _ rfl
    unfold checkpointAt
    rw [h.eventHashAt hcount]
    rfl
  have hlast := hnumbered.lastHash_eq
  unfold lastHash at hlast
  unfold federationBundle
  rw [rejectIf_of_not (by omega), rejectIf_of_not (by rw [h.head_eq]; omega), hevents]
  simp only [ok_bind]
  cases hcase : page.getLast? with
  | none =>
      rw [hcase] at hlast
      exact hserved after (by rw [Nat.cast_add]; exact hlast)
  | some event =>
      rw [hcase] at hlast
      exact hserved event.sequence (by rw [Nat.cast_add]; exact hlast)

/-! ## Verifying the page -/

theorem verifyCheckpoint_signed (cursor : ℤ) (eventHash : String) (now : ℤ) :
    verifyCheckpoint P (signedCheckpoint P identity cursor eventHash now) = .ok () := by
  have hsignature := P.verifyObject_signObject identity.secret checkpointDomain
    ((unsignedCheckpoint P identity cursor eventHash now).toJson P)
  have hkey : P.verifyingKeyFromB64 identity.publicKey = .ok (P.publicKey identity.secret) := by
    rw [identity.publicKey_eq, P.verifyingKeyFromB64_publicKey]
  refine bind_eq_ok.mpr ⟨_, hkey, bind_eq_ok.mpr ⟨(), rejectIf_of_not ?_, hsignature⟩⟩
  exact not_not.mpr identity.nodeId_eq.symm

/-- An importer takes the page exactly when the texts of its events fit. -/
theorem OwnLog.verifyBundle_iff (h : OwnLog P identity db log) (after limit : ℕ) (now : ℤ) :
    verifyBundle P (ownPage P identity log after limit now) = .ok () ↔
      (ownPage P identity log after limit now).Fits P := by
  refine ⟨fun hverified => (verifyBundle_limits hverified).2, fun hfits => ?_⟩
  have hslice := h.chain.slice after (max 1 (min limit maxFederationEvents))
  unfold FederationBundle.Fits at hfits
  unfold ownPage at hfits ⊢
  generalize hpage : (log.drop after).take (max 1 (min limit maxFederationEvents)) = page
    at hfits hslice
  simp only at hfits
  have hlimit : page.length ≤ maxFederationEvents := by
    rw [← hpage, List.length_take]
    unfold maxFederationEvents
    omega
  have hwhole : log.take (after + page.length) = log.take after ++ page := by
    rw [List.take_add, ← hpage, List.length_take, ← List.take_eq_take_min]
  have hkey : P.verifyingKeyFromB64 identity.publicKey = .ok (P.publicKey identity.secret) := by
    rw [identity.publicKey_eq, P.verifyingKeyFromB64_publicKey]
  have hverified : verifyBundleEvents P (P.publicKey identity.secret) after (after + 1) none
      page = .ok () := by
    refine verifyBundleEvents_of_chain hslice hfits ?_ ?_
    · intro previous hprevious
      cases hprevious
    · intro _ hzero
      rw [Nat.cast_eq_zero.mp hzero]
      rfl
  unfold verifyBundle
  simp only
  rw [rejectIf_of_not (by simp), rejectIf_of_not (by omega), rejectIf_of_not (by omega), hkey]
  simp only [ok_bind]
  rw [rejectIf_of_not (by simp [identity.nodeId_eq]), verifyCheckpoint_signed]
  simp only [ok_bind]
  rw [rejectIf_of_not (by simp [signedCheckpoint, unsignedCheckpoint]),
    rejectIf_of_not (by push_cast; omega), hverified]
  simp only [ok_bind]
  have hgenesis : ¬ (((after + page.length : ℕ) : ℤ) = 0 ∧ (signedCheckpoint P identity
      (after + page.length : ℕ) (lastHash OriginEvent.eventHash zeroHash
        (log.take (after + page.length))) now).eventHash ≠ zeroHash) := by
    rintro ⟨hzero, hne⟩
    rw [Nat.cast_eq_zero.mp hzero] at hne
    exact hne rfl
  rw [rejectIf_of_not hgenesis]
  cases hlast : page.getLast? with
  | none => rfl
  | some event =>
      have hcommits : (signedCheckpoint P identity (after + page.length : ℕ)
          (lastHash OriginEvent.eventHash zeroHash (log.take (after + page.length)))
            now).eventHash = event.eventHash := by
        change lastHash OriginEvent.eventHash zeroHash (log.take (after + page.length)) = _
        rw [hwhole, lastHash_append]
        unfold lastHash
        rw [hlast]
      simp only
      rw [rejectIf_of_not (by simpa using hcommits)]
      rfl

end

/-! ## Every run -/

/-- Every page which a node serves continues its log after the cursor.  Another
node takes the page exactly when the ordinary texts of its events are within the
limit which the node applied to their canonical texts. -/
theorem run_ownPages (P : Primitives) (identity : NodeIdentity P) (actions : List Action) :
    ∃ log : List OriginEvent,
      (NodeState.run P identity actions).db.events.map (originEvent P) = log.map .ok ∧
      ∀ (after : ℤ) (limit : ℕ) (now : ℤ), 0 ≤ after →
        after ≤ (NodeState.run P identity actions).db.head →
        ∃ bundle, federationBundle P identity after limit now
            (NodeState.run P identity actions).db = .ok bundle ∧
          bundle.fromCursor = after ∧
          bundle.events = (log.drop after.toNat).take (max 1 (min limit maxFederationEvents)) ∧
          (after < (NodeState.run P identity actions).db.head → after < bundle.throughCursor) ∧
          (verifyBundle P bundle = .ok () ↔ bundle.Fits P) := by
  obtain ⟨log, hlog⟩ := run_ownLog P identity actions
  refine ⟨log, hlog.read, ?_⟩
  intro after limit now hafter hhead
  obtain ⟨cursor, rfl⟩ := Int.eq_ofNat_of_zero_le hafter
  rw [hlog.head_eq] at hhead ⊢
  refine ⟨_, hlog.federationBundle_eq (by omega) limit now, rfl, rfl, ?_,
    hlog.verifyBundle_iff cursor limit now⟩
  intro hless
  simp only [ownPage, List.length_take, List.length_drop]
  push_cast
  omega

end

namespace Sample

instance ownPage_fits : Fact (
    (federationBundle library origin 1 2 0
      (NodeState.run library origin (commitmentRun oneHour)).db).toOption.any
        (fun bundle => decide (bundle.Fits library)) = true) :=
  ⟨by decide +kernel⟩

/-- The page after the first event of the sample log holds the other two. -/
theorem run_ownPages_commitment :
    ∃ bundle, federationBundle library origin 1 2 0
        (NodeState.run library origin (commitmentRun oneHour)).db = .ok bundle ∧
      1 < bundle.throughCursor ∧ verifyBundle library bundle = .ok () := by
  obtain ⟨log, -, hpages⟩ := run_ownPages library origin (commitmentRun oneHour)
  obtain ⟨bundle, hserved, -, -, hprogress, hverified⟩ := hpages 1 2 0 (by decide)
    (by rw [head_oneHour.out]; decide)
  have hfits := ownPage_fits.out
  rw [hserved] at hfits
  refine ⟨bundle, hserved, hprogress (by rw [head_oneHour.out]; decide), hverified.mpr ?_⟩
  simpa [Except.toOption] using hfits

end Sample

end Commonwake
