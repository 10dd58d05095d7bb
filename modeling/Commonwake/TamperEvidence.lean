import Commonwake.BundleAuthenticity
import Commonwake.LogVerification

/-!
# The head commits to the log

Once the head of a log is known, `verify_log` accepts one log only.  The hash
of a row covers its kind, its author, its instants and its canonical text, and
through the link the row before it.  The other columns are not hashed.  They are
compared with what the canonical text says they are, which no row decides for
itself: the rule is chosen by the kind, and only an acknowledgement reads
another column, its lineage.
-/

namespace Commonwake

open Outcome HashChain

section

variable (P : Primitives)

/-- The rows agree, but for the signature of the node and the spelling of the
three columns which are read as JSON. -/
structure SameRow (row other : EventRow) : Prop where
  sequence : row.sequence = other.sequence
  eventId : row.eventId = other.eventId
  kind : row.kind = other.kind
  lineageId : row.lineageId = other.lineageId
  delegationId : row.delegationId = other.delegationId
  createdAt : row.createdAt = other.createdAt
  receivedAt : row.receivedAt = other.receivedAt
  canonicalJson : row.canonicalJson = other.canonicalJson
  authorSignature : row.authorSignature = other.authorSignature
  authorNonce : row.authorNonce = other.authorNonce
  previousHash : row.previousHash = other.previousHash
  eventHash : row.eventHash = other.eventHash
  targets : ∃ value, P.parse row.targetsJson = some value ∧
    P.parse other.targetsJson = some value
  supersedes : ∃ value, P.parse row.supersedesJson = some value ∧
    P.parse other.supersedesJson = some value
  payload : ∃ value, P.parse row.payloadJson = some value ∧
    P.parse other.payloadJson = some value

/-- The texts which are hashed for the rows of a log. -/
def hashedTexts (events : List EventRow) : List Bytes :=
  (events.filterMap fun row => (originEvent P row).toOption).map (eventHashInput P)

/-- A row which `verify_log` accepts. -/
structure VerifiedRow (key : Bytes) (row : EventRow) : Prop where
  event : ∃ event, originEvent P row = .ok event ∧ AuthenticEvent P key event
  previousHash : ∃ previous, row.previousHash = HexText.encode previous
  projection : validateRawEventProjection P row = .ok ()

end

section

variable {P : Primitives} {key : Bytes} {row other : EventRow}

/-! ## The columns of one row -/

theorem items_string_eq_some {values : List Json} {texts : List String}
    (h : Serde.items Serde.string values = some texts) : values = texts.map .string := by
  induction values generalizing texts with
  | nil =>
      cases h
      rfl
  | cons value rest ih =>
      simp only [Serde.items, Option.bind_eq_bind, Option.pure_def,
        Option.bind_eq_some_iff, Option.some.injEq] at h
      obtain ⟨text, htext, others, hothers, rfl⟩ := h
      have hvalue : value = .string text := by
        cases value <;> simp_all [Serde.string]
      rw [hvalue, ih hothers, List.map_cons]

/-- A stored list of texts has one value. -/
theorem storedStrings_eq_ok {text : String} {values : List String}
    (h : storedStrings P text = .ok values) : P.parse text = some (Serde.strings values) := by
  simp only [storedStrings, bind_eq_ok, okOr_eq_ok] at h
  obtain ⟨value, hparse, hlist⟩ := h
  cases value with
  | array items => rw [hparse, Serde.strings, items_string_eq_some hlist]
  | null | bool _ | number _ | string _ | object _ => cases hlist

/-- What the checks on the columns of a row establish. -/
structure ColumnsAgree (P : Primitives) (row : EventRow) (canonical : Json)
    (expected : AuthenticatedProjection) : Prop where
  parse : P.parse row.canonicalJson = some canonical
  canonicalJson : P.jcs canonical = row.canonicalJson
  projection : expectedProjection P row canonical = .ok expected
  targets : P.parse row.targetsJson = some (Serde.strings expected.targets)
  supersedes : P.parse row.supersedesJson = some (Serde.strings expected.supersedes)
  payload : P.parse row.payloadJson = some expected.payload
  authorSignature : row.authorSignature = expected.authorSignature
  authorNonce : row.authorNonce = expected.authorNonce

theorem validateRawEventProjection_eq_ok (h : validateRawEventProjection P row = .ok ()) :
    ∃ canonical expected, row.eventId = P.prefixedId "cwevt_" (utf8 (P.jcs canonical)) ∧
      ColumnsAgree P row canonical expected := by
  simp only [validateRawEventProjection, bind_eq_ok, okOr_eq_ok, rejectIf_eq_ok, not_or,
    not_not] at h
  obtain ⟨canonical, hparse, _, hjcs, _, hid, expected, hexpected, targets, htargets,
    supersedes, hsupersedes, payload, hpayload, rfl, rfl, rfl, hsignature, hnonce⟩ := h
  exact ⟨canonical, expected, hid.symm, hparse, hjcs, hexpected,
    storedStrings_eq_ok htargets, storedStrings_eq_ok hsupersedes, hpayload, hsignature,
    hnonce⟩

/-- The rule for the columns reads the number, the kind and the lineage of a row. -/
theorem expectedProjection_congr (hsequence : row.sequence = other.sequence)
    (hkind : row.kind = other.kind) (hlineage : row.lineageId = other.lineageId)
    (canonical : Json) :
    expectedProjection P row canonical = expectedProjection P other canonical := by
  unfold expectedProjection
  rw [hkind, hlineage, hsequence]

/-- The columns of accepted rows with the same content agree. -/
theorem ColumnsAgree.sameRow {canonical canonical' : Json}
    {expected expected' : AuthenticatedProjection}
    (hrow : ColumnsAgree P row canonical expected)
    (hother : ColumnsAgree P other canonical' expected')
    {event logged : OriginEvent} (hevent : originEvent P row = .ok event)
    (hlogged : originEvent P other = .ok logged) (hsame : SameEvent P event logged)
    (hprevious : row.previousHash = other.previousHash) : SameRow P row other := by
  simp only [originEvent, bind_eq_ok, okOr_eq_ok, pure_eq_ok, Except.ok.injEq] at hevent hlogged
  obtain ⟨value, hvalue, rfl⟩ := hevent
  obtain ⟨value', hvalue', rfl⟩ := hlogged
  rw [hrow.parse, Option.some.injEq] at hvalue
  rw [hother.parse, Option.some.injEq] at hvalue'
  subst hvalue hvalue'
  have htext : row.canonicalJson = other.canonicalJson := by
    rw [← hrow.canonicalJson, ← hother.canonicalJson]
    exact P.jcs_eq_iff.mpr hsame.canonical
  have hvalues : canonical = canonical' := by
    have hparse := hrow.parse
    rw [htext, hother.parse, Option.some.injEq] at hparse
    exact hparse.symm
  subst hvalues
  have hexpected : expected = expected' := by
    have hprojection := hrow.projection
    rw [expectedProjection_congr hsame.sequence hsame.kind hsame.lineageId,
      hother.projection, Except.ok.injEq] at hprojection
    exact hprojection.symm
  subst hexpected
  exact {
    sequence := hsame.sequence
    eventId := hsame.eventId
    kind := hsame.kind
    lineageId := hsame.lineageId
    delegationId := hsame.delegationId
    createdAt := hsame.createdAt
    receivedAt := hsame.receivedAt
    canonicalJson := htext
    authorSignature := hrow.authorSignature.trans hother.authorSignature.symm
    authorNonce := hrow.authorNonce.trans hother.authorNonce.symm
    previousHash := hprevious
    eventHash := hsame.eventHash
    targets := ⟨_, hrow.targets, hother.targets⟩
    supersedes := ⟨_, hrow.supersedes, hother.supersedes⟩
    payload := ⟨_, hrow.payload, hother.payload⟩ }

theorem originEvent_fields {event : OriginEvent} (h : originEvent P row = .ok event) :
    event.sequence = row.sequence ∧ event.previousHash = row.previousHash ∧
      event.eventHash = row.eventHash := by
  simp only [originEvent, bind_eq_ok, okOr_eq_ok, pure_eq_ok, Except.ok.injEq] at h
  obtain ⟨value, -, rfl⟩ := h
  exact ⟨rfl, rfl, rfl⟩

theorem mem_hashedTexts {events : List EventRow} {event : OriginEvent} (hrow : row ∈ events)
    (hevent : originEvent P row = .ok event) :
    eventHashInput P event ∈ hashedTexts P events := by
  refine List.mem_map_of_mem (List.mem_filterMap.mpr ⟨row, hrow, ?_⟩)
  rw [hevent]
  rfl

/-- Accepted rows with the same hash have the same link, and are the same when they
have the same number. -/
theorem VerifiedRow.eq_of_eventHash (hrow : VerifiedRow P key row)
    (hother : VerifiedRow P key other) {texts : Set Bytes} (hfree : Set.InjOn P.sha256 texts)
    (htexts : ∀ event, originEvent P row = .ok event → eventHashInput P event ∈ texts)
    (htexts' : ∀ event, originEvent P other = .ok event → eventHashInput P event ∈ texts)
    (hhash : row.eventHash = other.eventHash) :
    (row.sequence = other.sequence → SameRow P row other) ∧
      row.previousHash = other.previousHash := by
  obtain ⟨event, hevent, hauthentic⟩ := hrow.event
  obtain ⟨logged, hlogged, hauthentic'⟩ := hother.event
  obtain ⟨canonical, expected, -, hcolumns⟩ := validateRawEventProjection_eq_ok hrow.projection
  obtain ⟨canonical', expected', -, hcolumns'⟩ :=
    validateRawEventProjection_eq_ok hother.projection
  obtain ⟨hnumber, hlink, heventHash⟩ := originEvent_fields hevent
  obtain ⟨hnumber', hlink', heventHash'⟩ := originEvent_fields hlogged
  have hdigest : HexText.decode event.eventHash = HexText.decode logged.eventHash := by
    rw [heventHash, heventHash', hhash]
  obtain ⟨hsame, hdecode⟩ := hauthentic.eq_of_digest hauthentic'
    (hfree (htexts event hevent) (htexts' logged hlogged)) hdigest
  have hprevious : row.previousHash = other.previousHash := by
    obtain ⟨previous, hencode⟩ := hrow.previousHash
    obtain ⟨previous', hencode'⟩ := hother.previousHash
    rw [hlink, hlink', hencode, hencode', HexText.decode_encode,
      HexText.decode_encode, Option.some.injEq] at hdecode
    rw [hencode, hencode', hdecode]
  refine ⟨fun hsequence => ?_, hprevious⟩
  refine hcolumns.sameRow hcolumns' hevent hlogged (hsame ?_) hprevious
  rw [hnumber, hnumber', hsequence]

/-! ## The rows of a log -/

theorem verifyRow_eq_ok {state next : LogCursor} (hlength : state.previous.length = 32)
    (h : verifyRow P key state row = .ok next) :
    row.sequence = state.cursor + 1 ∧ row.previousHash = HexText.encode state.previous ∧
      VerifiedRow P key row ∧ next.previous.length = 32 ∧ next.cursor = row.sequence ∧
      next.head = row.eventHash ∧ next.head = HexText.encode next.previous := by
  simp only [verifyRow, canonicalLogRecord, bind_eq_ok, okOr_eq_ok, pure_eq_ok,
    rejectIf_eq_ok, Except.ok.injEq, not_not, Bool.not_eq_false] at h
  obtain ⟨_, hsequence, _, hprevious, _, ⟨canonical, hparse, rfl⟩, _, hhash, signature,
    hsignature, _, hverify, _, hprojection, rfl⟩ := h
  have hevent : ∃ event, originEvent P row = .ok event ∧ AuthenticEvent P key event := by
    refine ⟨_, by simp [originEvent, hparse]; rfl, ?_, ?_⟩
    · exact ⟨state.previous, by rw [hprevious, HexText.decode_encode], hlength, hhash,
        signature, hsignature, hverify⟩
    · obtain ⟨value, expected, hid, hcolumns⟩ := validateRawEventProjection_eq_ok hprojection
      have hvalue := hcolumns.parse
      rw [hparse, Option.some.injEq] at hvalue
      rw [hvalue]
      exact hid
  exact ⟨hsequence, hprevious, ⟨hevent, ⟨_, hprevious⟩, hprojection⟩, P.eventHash_length _ _,
    rfl, rfl, hhash⟩

/-- The rows of an accepted log are numbered and linked, and each one is accepted. -/
theorem verifyRows_eq_ok {events : List EventRow} {state final : LogCursor}
    (hlength : state.previous.length = 32) (hhead : state.head = HexText.encode state.previous)
    (h : foldState (verifyRow P key) state events = .ok final) :
    Numbered EventRow.sequence state.cursor events ∧
      Linked EventRow.previousHash EventRow.eventHash state.head events ∧
      (∀ row ∈ events, VerifiedRow P key row) ∧
      final.cursor = lastHash EventRow.sequence state.cursor events ∧
      final.head = lastHash EventRow.eventHash state.head events := by
  induction events generalizing state with
  | nil =>
      cases h
      exact ⟨trivial, trivial, by simp, rfl, rfl⟩
  | cons row rest ih =>
      simp only [foldState, bind_eq_ok] at h
      obtain ⟨next, hnext, hrest⟩ := h
      obtain ⟨hsequence, hprevious, hrow, hlength', hcursor, hhash, hencode⟩ :=
        verifyRow_eq_ok hlength hnext
      obtain ⟨hnumbered, hlinked, hrows, hfinal, hfinalHead⟩ := ih hlength' hencode hrest
      rw [hcursor] at hnumbered hfinal
      rw [hhash] at hlinked hfinalHead
      refine ⟨⟨hsequence, hsequence ▸ hnumbered⟩, ⟨hprevious.trans hhead.symm, hlinked⟩, ?_,
        by rw [hfinal, lastHash_cons], by rw [hfinalHead, lastHash_cons]⟩
      intro other hother
      rcases List.mem_cons.mp hother with rfl | hmem
      · exact hrow
      · exact hrows other hmem

/-- What `verify_log` has established when it returns a head. -/
theorem verifyLog_eq_ok {identity : NodeIdentity P} {db : Db} {cursor : ℤ} {head : String}
    (h : verifyLog P identity db = .ok (cursor, head)) :
    ∃ key, Numbered EventRow.sequence 0 db.events ∧
      Linked EventRow.previousHash EventRow.eventHash zeroHash db.events ∧
      (∀ row ∈ db.events, VerifiedRow P key row) ∧
      cursor = lastHash EventRow.sequence 0 db.events ∧
      head = lastHash EventRow.eventHash zeroHash db.events ∧
      P.verifyingKeyFromB64 identity.publicKey = .ok key := by
  simp only [verifyLog, bind_eq_ok, pure_eq_ok, Except.ok.injEq, Prod.mk.injEq] at h
  obtain ⟨key, hkey, final, hfold, rfl, rfl⟩ := h
  obtain ⟨hnumbered, hlinked, hrows, hcursor, hhead⟩ :=
    verifyRows_eq_ok (by decide) encode_zeroBytes.symm hfold
  exact ⟨key, hnumbered, hlinked, hrows, hcursor, hhead, hkey⟩

/-- Two logs which `verify_log` accepts and ends at the same head are the same log, when
the texts which are hashed for their rows do not collide. -/
theorem verifyLog_tamperEvident (P : Primitives) (identity : NodeIdentity P) {first second : Db}
    {cursor : ℤ} {head : String}
    (hfree : Set.InjOn P.sha256
      {text | text ∈ hashedTexts P first.events ++ hashedTexts P second.events})
    (hfirst : verifyLog P identity first = .ok (cursor, head))
    (hsecond : verifyLog P identity second = .ok (cursor, head)) :
    List.Forall₂ (SameRow P) first.events second.events := by
  obtain ⟨key, hnumbered, hlinked, hrows, hcursor, hhead, hkey⟩ := verifyLog_eq_ok hfirst
  obtain ⟨key', hnumbered', hlinked', hrows', hcursor', hhead', hkey'⟩ :=
    verifyLog_eq_ok hsecond
  obtain rfl : key = key' := by
    rw [hkey, Except.ok.injEq] at hkey'
    exact hkey'
  have hlength : first.events.length = second.events.length := by
    rw [hnumbered.lastHash_eq] at hcursor
    rw [hnumbered'.lastHash_eq] at hcursor'
    omega
  refine Numbered.forall₂ ?_ hnumbered hnumbered'
  refine hlinked.forall₂_of_lastHash_eq hlinked' ?_ hlength (hhead.symm.trans hhead')
  intro row hrow other hother hhash
  refine (hrows row hrow).eq_of_eventHash (hrows' other hother) hfree ?_ ?_ hhash
  · intro event hevent
    exact List.mem_append_left _ (mem_hashedTexts hrow hevent)
  · intro event hevent
    exact List.mem_append_right _ (mem_hashedTexts hother hevent)

end

/-! ## Another spelling -/

namespace Sample

/-- The text with a leading zero in its first number; the sample library writes the
digits of a number from the last to the first. -/
def respell (text : String) : String :=
  ofBytes ((utf8 text).takeWhile (· ≠ 59) ++ 48 :: (utf8 text).dropWhile (· ≠ 59))

/-- The log of a commitment. -/
def commitmentLog : Db := (NodeState.run library origin (commitmentRun oneHour)).db

/-- The same log, with other texts for the payloads. -/
def respelledLog : Db :=
  { commitmentLog with events := commitmentLog.events.map fun row =>
      { row with payloadJson := respell row.payloadJson } }

instance accepts_respelledLog : Fact (
    (commitmentLog.events.map EventRow.payloadJson ≠
      respelledLog.events.map EventRow.payloadJson ∧
    verifyLog library origin commitmentLog = .ok (3, commitmentLog.headHash) ∧
    verifyLog library origin respelledLog = .ok (3, commitmentLog.headHash)) ∧
    ∀ first ∈ hashedTexts library commitmentLog.events,
      ∀ second ∈ hashedTexts library commitmentLog.events,
        library.sha256 first = library.sha256 second → first = second) :=
  ⟨by decide +kernel⟩

/-- The payloads are not hashed, so that their texts differ below one head; their values
do not. -/
theorem verifyLog_tamperEvident_respelledLog :
    commitmentLog.events.map EventRow.payloadJson ≠
        respelledLog.events.map EventRow.payloadJson ∧
      List.Forall₂ (SameRow library) commitmentLog.events respelledLog.events := by
  obtain ⟨⟨hspelling, hfirst, hsecond⟩, hcollisions⟩ := accepts_respelledLog.out
  refine ⟨hspelling, verifyLog_tamperEvident library origin ?_ hfirst hsecond⟩
  have hsame : hashedTexts library respelledLog.events =
      hashedTexts library commitmentLog.events := by
    simp only [hashedTexts, respelledLog, List.filterMap_map]
    rfl
  intro first hmem second hmem' hdigest
  rw [hsame, Set.mem_ofPred_eq, List.mem_append, or_self] at hmem hmem'
  exact hcollisions first hmem second hmem' hdigest

end Sample

end Commonwake
