import Commonwake.BundleVerification
import Commonwake.SampleNode

/-!
# Verifying an export

An export is a text with one bundle in each line.  `verify_export` checks it
without the node which wrote it: every page on its own, and between two pages
the cursor and the hash which the second one continues.
-/

namespace Commonwake

open Outcome Serde HashChain

/-! ## Pages -/

def OriginEvent.ofJson (value : Json) : Option OriginEvent := do
  let m ← fields ["sequence", "event_id", "kind", "lineage_id", "delegation_id",
    "created_at", "received_at", "canonical", "previous_hash", "event_hash",
    "node_signature"] value
  pure {
    sequence := ← required i64 m "sequence"
    eventId := ← required string m "event_id"
    kind := ← required string m "kind"
    lineageId := ← optional string m "lineage_id"
    delegationId := ← optional string m "delegation_id"
    createdAt := ← required string m "created_at"
    receivedAt := ← required string m "received_at"
    canonical := ← required Serde.value m "canonical"
    previousHash := ← required string m "previous_hash"
    eventHash := ← required string m "event_hash"
    nodeSignature := ← required string m "node_signature" }

section

variable (P : Primitives)

def FederationBundle.ofJson (value : Json) : Option FederationBundle := do
  let m ← fields ["protocol", "origin_node_id", "origin_node_public_key",
    "from_cursor", "through_cursor", "events", "checkpoint"] value
  pure {
    protocol := ← required string m "protocol"
    originNodeId := ← required string m "origin_node_id"
    originNodePublicKey := ← required string m "origin_node_public_key"
    fromCursor := ← required i64 m "from_cursor"
    throughCursor := ← required i64 m "through_cursor"
    events := ← required (list OriginEvent.ofJson) m "events"
    checkpoint := ← required (Checkpoint.ofJson P) m "checkpoint" }

def FederationBundle.toJson (x : FederationBundle) : Json :=
  .object [
    ("protocol", .string x.protocol),
    ("origin_node_id", .string x.originNodeId),
    ("origin_node_public_key", .string x.originNodePublicKey),
    ("from_cursor", Serde.int x.fromCursor),
    ("through_cursor", Serde.int x.throughCursor),
    ("events", .array (x.events.map OriginEvent.toJson)),
    ("checkpoint", x.checkpoint.toJson P)]

/-! ## Lines -/

/-- A line without the carriage return before its newline. -/
def stripCarriageReturn (line : List Char) : List Char :=
  if line.getLast? = some '\r' then line.dropLast else line

/-- `BufRead::lines`. -/
def bufferedLines (text : String) : List String :=
  let parts := (chars text).splitOn '\n'
  let complete := parts.dropLast.map stripCarriageReturn
  let rest := (parts.getLast?.getD [])
  (if rest = [] then complete else complete ++ [rest]).map TextBytes.ofChars

/-- The page in a line. -/
def readPage (line : String) : Option FederationBundle :=
  (P.parse line).bind (FederationBundle.ofJson P)

/-- The pages of an export: a blank line is skipped. -/
def exportPages (text : String) : List FederationBundle :=
  ((bufferedLines text).filter fun line => trim line ≠ "").filterMap (readPage P)

/-! ## The loop -/

/-- The variables of `verify_export`. -/
structure ExportProgress where
  originNodeId : Option String
  originNodePublicKey : Option String
  firstCursor : Option ℤ
  cursor : Option ℤ
  eventHash : Option String
  pages : ℕ
  events : ℕ
  sawEmptyPage : Bool

def ExportProgress.start : ExportProgress := ⟨none, none, none, none, none, 0, 0, false⟩

/-- The end of an iteration. -/
def ExportProgress.advance (progress : ExportProgress) (bundle : FederationBundle) :
    ExportProgress :=
  { progress with
    pages := progress.pages + 1
    events := progress.events + bundle.events.length
    sawEmptyPage := bundle.events.isEmpty
    cursor := some bundle.throughCursor
    eventHash := some bundle.checkpoint.eventHash }

/-- What is compared with the pages before. -/
def verifyContinuation (number : ℕ) (bundle : FederationBundle) (progress : ExportProgress) :
    Except String ExportProgress :=
  match progress.originNodeId with
  | some expected => do
      rejectIf (expected ≠ bundle.originNodeId ∨
          progress.originNodePublicKey ≠ some bundle.originNodePublicKey)
        s!"export changes origin identity at line {number}"
      let expectedCursor ← okOr progress.cursor "export verifier lost its prior cursor"
      rejectIf (bundle.fromCursor ≠ expectedCursor)
        s!"export line {number} begins at cursor {bundle.fromCursor} instead of {expectedCursor}"
      match bundle.events.head? with
      | some first =>
          rejectIf (some first.previousHash ≠ progress.eventHash)
            s!"export line {number} does not extend the preceding signed checkpoint"
      | none => pure ()
      pure progress
  | none => pure { progress with
      firstCursor := some bundle.fromCursor
      originNodeId := some bundle.originNodeId
      originNodePublicKey := some bundle.originNodePublicKey }

/-- One iteration of the loop; the lines are numbered from one. -/
def verifyExportLine (progress : ExportProgress) (numbered : ℕ × String) :
    Except String ExportProgress := do
  let (number, line) := numbered
  if trim line = "" then pure progress
  else
    rejectIf (progress.sawEmptyPage = true) "export contains data after an empty terminal page"
    let bundle ← okOr (readPage P line) s!"export line {number} is not a federation bundle"
    okOr (verifyBundle P bundle).toOption
      s!"export line {number} failed cryptographic verification"
    let progress ← verifyContinuation number bundle progress
    pure (progress.advance bundle)

structure ExportVerificationReport where
  status : String
  originNodeId : String
  originNodePublicKey : String
  fromCursor : ℤ
  throughCursor : ℤ
  finalEventHash : String
  pages : ℕ
  events : ℕ
  completeFromGenesis : Bool
  deriving DecidableEq

def exportReport (progress : ExportProgress) : Except String ExportVerificationReport := do
  let originNodeId ← okOr progress.originNodeId "export is empty"
  let fromCursor ← okOr progress.firstCursor "export is missing its initial cursor"
  let publicKey ← okOr progress.originNodePublicKey "export is missing its origin public key"
  let throughCursor ← okOr progress.cursor "export is missing its cursor"
  let finalEventHash ← okOr progress.eventHash "export is missing its checkpoint hash"
  pure ⟨"verified", originNodeId, publicKey, fromCursor, throughCursor, finalEventHash,
    progress.pages, progress.events, fromCursor == 0⟩

/-- The lines from the given number on. -/
def numberLines (number : ℕ) : List String → List (ℕ × String)
  | [] => []
  | line :: rest => (number, line) :: numberLines (number + 1) rest

def verifyExport (text : String) : Except String ExportVerificationReport := do
  let progress ← foldState (verifyExportLine P) .start (numberLines 1 (bufferedLines text))
  exportReport progress

/-! ## Soundness -/

def eventsOf (pages : List FederationBundle) : List OriginEvent :=
  pages.flatMap (·.events)

/-- What a report claims of the pages of an export. -/
structure ExportSound (pages : List FederationBundle) (report : ExportVerificationReport) :
    Prop where
  origin : ∀ page ∈ pages, verifyBundle P page = .ok () ∧
    page.originNodeId = report.originNodeId ∧
    page.originNodePublicKey = report.originNodePublicKey
  numbered : Numbered OriginEvent.sequence report.fromCursor (eventsOf pages)
  linked : ∃ head, Linked OriginEvent.previousHash OriginEvent.eventHash head (eventsOf pages)
  count : ((eventsOf pages).length : ℤ) = report.throughCursor - report.fromCursor
  counted : report.pages = pages.length ∧ report.events = (eventsOf pages).length
  final : ∀ event, (eventsOf pages).getLast? = some event →
    report.finalEventHash = event.eventHash

/-- An empty last page is signed over the hash of the page before it. -/
def TerminalAgrees (pages : List FederationBundle) : Prop :=
  ∀ front before last, pages = front ++ [before, last] → last.events = [] →
    last.checkpoint.eventHash = before.checkpoint.eventHash

end

section

variable {P : Primitives} {pages front : List FederationBundle} {last bundle : FederationBundle}
  {progress next : ExportProgress}

theorem eventsOf_append (pages : List FederationBundle) (bundle : FederationBundle) :
    eventsOf (pages ++ [bundle]) = eventsOf pages ++ bundle.events := by
  simp [eventsOf]

variable (P) in
/-- The variables of the loop after the given pages. -/
structure ExportProgress.Covers (progress : ExportProgress) (front : List FederationBundle)
    (last : FederationBundle) : Prop where
  originNodeId : progress.originNodeId = some last.originNodeId
  publicKey : progress.originNodePublicKey = some last.originNodePublicKey
  origin : ∀ page ∈ front ++ [last], verifyBundle P page = .ok () ∧
    page.originNodeId = last.originNodeId ∧
    page.originNodePublicKey = last.originNodePublicKey
  numbered : ∃ first, progress.firstCursor = some first ∧
    Numbered OriginEvent.sequence first (eventsOf (front ++ [last])) ∧
    last.throughCursor = first + (eventsOf (front ++ [last])).length
  linked : ∃ head, Linked OriginEvent.previousHash OriginEvent.eventHash head
    (eventsOf (front ++ [last]))
  final : last.events ≠ [] → ∀ head, last.checkpoint.eventHash =
    lastHash OriginEvent.eventHash head (eventsOf (front ++ [last]))
  cursor : progress.cursor = some last.throughCursor
  eventHash : progress.eventHash = some last.checkpoint.eventHash
  pages : progress.pages = (front ++ [last]).length
  events : progress.events = (eventsOf (front ++ [last])).length
  sawEmptyPage : progress.sawEmptyPage = last.events.isEmpty
  nonempty : ∀ page ∈ front, page.events ≠ []

/-- The last hash of a page which has events. -/
theorem VerifiedBundle.final {key : Bytes} {head : String}
    (h : VerifiedBundle P bundle key head) (hevents : bundle.events ≠ [])
    (before : List OriginEvent) (start : String) :
    bundle.checkpoint.eventHash =
      lastHash OriginEvent.eventHash start (before ++ bundle.events) := by
  rw [h.checkpointHash (.inl hevents), lastHash_append]
  exact lastHash_of_ne_nil _ _ _ hevents

/-- The first page of an export. -/
theorem covers_first {key : Bytes} {head : String} (hbundle : verifyBundle P bundle = .ok ())
    (h : VerifiedBundle P bundle key head) :
    (ExportProgress.advance { ExportProgress.start with
      firstCursor := some bundle.fromCursor
      originNodeId := some bundle.originNodeId
      originNodePublicKey := some bundle.originNodePublicKey } bundle).Covers P [] bundle := by
  have hevents : eventsOf ([] ++ [bundle]) = bundle.events := by
    rw [eventsOf_append]
    rfl
  refine ⟨rfl, rfl, ?_, ⟨bundle.fromCursor, rfl, ?_, ?_⟩, ⟨head, ?_⟩, ?_, rfl, rfl, rfl, ?_,
    rfl, ?_⟩
  · intro page hpage
    rw [List.nil_append, List.mem_singleton] at hpage
    rw [hpage]
    exact ⟨hbundle, rfl, rfl⟩
  · rw [hevents]
    exact h.chain.numbered
  · rw [hevents]
    exact h.throughCursor
  · rw [hevents]
    exact h.chain.linked
  · intro hne start
    rw [hevents]
    exact h.final hne [] start
  · rw [hevents]
    exact Nat.zero_add _
  · intro page hpage
    cases hpage

/-- A page which continues the pages before it. -/
theorem ExportProgress.Covers.advance {key : Bytes} {head : String}
    (h : progress.Covers P front last) (hbundle : verifyBundle P bundle = .ok ())
    (hverified : VerifiedBundle P bundle key head)
    (hempty : ¬ progress.sawEmptyPage = true)
    (horigin : last.originNodeId = bundle.originNodeId ∧
      last.originNodePublicKey = bundle.originNodePublicKey)
    (hcursor : bundle.fromCursor = last.throughCursor)
    (hfirst : ∀ event, bundle.events.head? = some event →
      event.previousHash = last.checkpoint.eventHash) :
    (progress.advance bundle).Covers P (front ++ [last]) bundle := by
  have hlast : last.events ≠ [] := by
    intro hnil
    rw [h.sawEmptyPage, hnil] at hempty
    exact hempty rfl
  have hevents := eventsOf_append (front ++ [last]) bundle
  obtain ⟨first, hfirstCursor, hnumbered, hthrough⟩ := h.numbered
  refine ⟨?_, ?_, ?_, ⟨first, hfirstCursor, ?_, ?_⟩, ?_, ?_, rfl, rfl, ?_, ?_, rfl, ?_⟩
  · exact h.originNodeId.trans (congrArg some horigin.1)
  · exact h.publicKey.trans (congrArg some horigin.2)
  · intro page hpage
    rcases List.mem_append.mp hpage with hold | hnew
    · obtain ⟨hpageVerified, hnode, hkey⟩ := h.origin page hold
      exact ⟨hpageVerified, hnode.trans horigin.1, hkey.trans horigin.2⟩
    · rw [List.mem_singleton.mp hnew]
      exact ⟨hbundle, rfl, rfl⟩
  · rw [hevents, Numbered.append]
    refine ⟨hnumbered, ?_⟩
    rw [← hthrough, ← hcursor]
    exact hverified.chain.numbered
  · have hpage := hverified.throughCursor
    rw [hevents, List.length_append]
    push_cast
    omega
  · obtain ⟨start, hlinked⟩ := h.linked
    refine ⟨start, ?_⟩
    rw [hevents, Linked.append]
    refine ⟨hlinked, ?_⟩
    rw [← h.final hlast start]
    cases hcase : bundle.events with
    | nil => trivial
    | cons event rest =>
        -- The chain of the page starts with the hash of the page before.
        have hchain := hverified.chain.linked
        rw [hcase] at hchain hfirst
        exact ⟨hfirst event rfl, hchain.2⟩
  · intro hne start
    rw [hevents]
    exact hverified.final hne _ start
  · change progress.pages + 1 = _
    rw [h.pages, List.length_append, List.length_append, List.length_append]
    rfl
  · change progress.events + bundle.events.length = _
    rw [h.events, hevents, List.length_append]
  · intro page hpage
    rcases List.mem_append.mp hpage with hold | hnew
    · exact h.nonempty page hold
    · rw [List.mem_singleton.mp hnew]
      exact hlast

/-- The variables of the loop fit the pages so far. -/
def ExportProgress.Fits (P : Primitives) (progress : ExportProgress)
    (pages : List FederationBundle) : Prop :=
  (pages = [] ∧ progress = .start) ∨
    ∃ front last, pages = front ++ [last] ∧ progress.Covers P front last

/-- One line of an export. -/
theorem verifyExportLine_fits {numbered : ℕ × String} (h : progress.Fits P pages)
    (hline : verifyExportLine P progress numbered = .ok next) :
    next.Fits P (pages ++
      ([numbered.2].filter fun line => trim line ≠ "").filterMap (readPage P)) := by
  unfold verifyExportLine at hline
  by_cases hblank : trim numbered.2 = ""
  · simp only [hblank, if_true, pure_eq_ok, Except.ok.injEq] at hline
    simpa [hblank, ← hline] using h
  · simp only [hblank, if_false, bind_eq_ok, rejectIf_eq_ok, okOr_eq_ok, pure_eq_ok,
      Except.ok.injEq] at hline
    obtain ⟨⟨⟩, hempty, bundle, hread, ⟨⟩, hoption, continued, hcontinued, rfl⟩ := hline
    have hpages : ([numbered.2].filter fun line => trim line ≠ "").filterMap (readPage P) =
        [bundle] := by
      simp [hblank, hread]
    have hbundle : verifyBundle P bundle = .ok () := by
      cases hresult : verifyBundle P bundle with
      | ok => rfl
      | error e =>
          rw [hresult] at hoption
          cases hoption
    obtain ⟨key, head, hverified⟩ := verifyBundle_eq_ok hbundle
    rw [hpages]
    refine .inr ⟨pages, bundle, rfl, ?_⟩
    rcases h with ⟨rfl, rfl⟩ | ⟨front, last, rfl, hcovers⟩
    · have hstart : continued = { ExportProgress.start with
          firstCursor := some bundle.fromCursor
          originNodeId := some bundle.originNodeId
          originNodePublicKey := some bundle.originNodePublicKey } := by
        simpa [verifyContinuation, ExportProgress.start] using hcontinued.symm
      rw [hstart]
      exact covers_first hbundle hverified
    · simp only [verifyContinuation, hcovers.originNodeId, hcovers.publicKey, hcovers.cursor,
        hcovers.eventHash, okOr_some, ok_bind, bind_eq_ok, rejectIf_eq_ok, not_or, not_not,
        Option.some.injEq, pure_eq_ok] at hcontinued
      obtain ⟨⟨⟩, horigin, ⟨⟩, hcursor, hcontinued⟩ := hcontinued
      cases hfirst : bundle.events.head? with
      | none =>
          simp only [hfirst, Except.ok.injEq] at hcontinued
          rw [← hcontinued]
          refine hcovers.advance hbundle hverified hempty horigin hcursor ?_
          rw [hfirst]
          rintro event ⟨⟩
      | some first =>
          simp only [hfirst, bind_eq_ok, rejectIf_eq_ok, not_not, Option.some.injEq,
            Except.ok.injEq] at hcontinued
          obtain ⟨⟨⟩, hlinked, rfl⟩ := hcontinued
          refine hcovers.advance hbundle hverified hempty horigin hcursor ?_
          rw [hfirst]
          rintro event ⟨⟩
          exact hlinked

theorem verifyExportLines_fits {lines : List String} {number : ℕ} (h : progress.Fits P pages)
    (hlines : foldState (verifyExportLine P) progress (numberLines number lines) = .ok next) :
    next.Fits P (pages ++ (lines.filter fun line => trim line ≠ "").filterMap (readPage P)) := by
  induction lines generalizing progress pages number with
  | nil =>
      simp only [numberLines, foldState, Except.ok.injEq] at hlines
      rw [← hlines, List.filter_nil, List.filterMap_nil, List.append_nil]
      exact h
  | cons line rest ih =>
      simp only [numberLines, foldState, bind_eq_ok] at hlines
      obtain ⟨middle, hline, hrest⟩ := hlines
      have hall := ih (verifyExportLine_fits h hline) hrest
      rw [List.append_assoc, ← List.filterMap_append, ← List.filter_append] at hall
      exact hall

/-- The hash of a report is that of the last event, unless an empty last page
claims another. -/
theorem ExportProgress.Covers.final_iff (h : progress.Covers P front last) :
    (∀ event, (eventsOf (front ++ [last])).getLast? = some event →
      last.checkpoint.eventHash = event.eventHash) ↔ TerminalAgrees (front ++ [last]) := by
  have hlastHash : ∀ {events : List OriginEvent} {event : OriginEvent} {hash : String},
      events.getLast? = some event →
      (∀ head, hash = lastHash OriginEvent.eventHash head events) → hash = event.eventHash := by
    intro events event hash hlast hhash
    rw [hhash "", lastHash, hlast]
  by_cases hempty : last.events = []
  · have hevents : eventsOf (front ++ [last]) = eventsOf front := by
      rw [eventsOf_append, hempty, List.append_nil]
    rcases List.eq_nil_or_concat front with rfl | ⟨rest, before, rfl⟩
    · constructor
      · intro _ others before other hsplit
        have hlength := congrArg List.length hsplit
        simp at hlength
      · intro _ event hevent
        rw [hevents] at hevent
        cases hevent
    · rw [List.concat_eq_append] at *
      have hbefore : before.events ≠ [] :=
        h.nonempty before (List.mem_append_right _ List.mem_cons_self)
      obtain ⟨hbundle, -, -⟩ := h.origin before
        (List.mem_append_left _ (List.mem_append_right _ List.mem_cons_self))
      obtain ⟨key, head, hverified⟩ := verifyBundle_eq_ok hbundle
      have hhash := fun start => hverified.final hbefore (eventsOf rest) start
      rw [← eventsOf_append] at hhash
      obtain ⟨event, hevent⟩ : ∃ event, (eventsOf (rest ++ [before])).getLast? = some event := by
        rw [← Option.isSome_iff_exists, List.getLast?_isSome, eventsOf_append]
        exact List.append_ne_nil_of_right_ne_nil _ hbefore
      have hsame := hlastHash hevent hhash
      constructor
      · intro hfinal others other final hsplit _
        have hparts : (rest ++ [before]) ++ [last] = (others ++ [other]) ++ [final] := by
          rw [hsplit, List.append_assoc]
          rfl
        obtain ⟨hfront, hfinalPage⟩ := List.append_inj' hparts rfl
        obtain ⟨-, hother⟩ := List.append_inj' hfront rfl
        cases hfinalPage
        cases hother
        rw [hsame]
        exact hfinal event (hevents ▸ hevent)
      · intro hagrees other hother
        rw [hevents, hevent, Option.some.injEq] at hother
        rw [← hother, ← hsame]
        exact hagrees rest before last (by rw [List.append_assoc]; rfl) hempty
  · constructor
    · intro _ others before final hsplit hnil
      have hparts : front ++ [last] = (others ++ [before]) ++ [final] := by
        rw [hsplit, List.append_assoc]
        rfl
      obtain ⟨-, hfinal⟩ := List.append_inj' hparts rfl
      cases hfinal
      exact absurd hnil hempty
    · intro _ event hevent
      exact hlastHash hevent (h.final hempty)

/-- A verified export is one chain of the reported origin.  Its reported hash is
that of the last event exactly when an empty last page does not claim another. -/
theorem verifyExport_sound (P : Primitives) (text : String)
    (report : ExportVerificationReport) (h : verifyExport P text = .ok report) :
    ExportSound P (exportPages P text) report ↔ TerminalAgrees (exportPages P text) := by
  unfold verifyExport at h
  obtain ⟨progress, hlines, hreport⟩ := bind_eq_ok.mp h
  have hfits := @verifyExportLines_fits P [] _ _ _ _ (.inl ⟨rfl, rfl⟩) hlines
  rw [List.nil_append] at hfits
  change progress.Fits P (exportPages P text) at hfits
  simp only [exportReport, bind_eq_ok, okOr_eq_ok, pure_eq_ok, Except.ok.injEq] at hreport
  obtain ⟨origin, horigin, first, hfirst, publicKey, hkey, cursor, hcursor, hash, hhash,
    rfl⟩ := hreport
  rcases hfits with ⟨-, rfl⟩ | ⟨front, last, hpages, hcovers⟩
  · cases horigin
  · rw [hpages, ← hcovers.final_iff]
    rw [hcovers.originNodeId, Option.some.injEq] at horigin
    rw [hcovers.publicKey, Option.some.injEq] at hkey
    rw [hcovers.cursor, Option.some.injEq] at hcursor
    rw [hcovers.eventHash, Option.some.injEq] at hhash
    obtain ⟨start, hstart, hnumbered, hthrough⟩ := hcovers.numbered
    rw [hfirst, Option.some.injEq] at hstart
    constructor
    · intro hsound event hevent
      rw [hhash]
      exact hsound.final event hevent
    · intro hfinal
      refine ⟨?_, ?_, hcovers.linked, ?_, ⟨hcovers.pages, hcovers.events⟩, ?_⟩
      · rw [← horigin, ← hkey]
        exact hcovers.origin
      · rw [hstart]
        exact hnumbered
      · rw [← hcursor, hthrough, ← hstart]
        exact (add_sub_cancel_left first _).symm
      · rw [← hhash]
        exact hfinal

end

namespace Sample

/-! ## Two histories of one origin -/

/-- An empty page at the cursor, signed over the hash. -/
def emptyPage (cursor : ℤ) (eventHash : String) : FederationBundle :=
  let draft := unsignedCheckpoint library origin cursor eventHash 0
  ⟨protocolVersion, origin.nodeId, origin.publicKey, cursor, cursor, [], { draft with
    signature := library.signObject origin.secret checkpointDomain (draft.toJson library) }⟩

/-- The page with the registration of a lineage. -/
def registeredPage : FederationBundle :=
  match federationBundle library origin 0 maxFederationEvents 0
    (NodeState.run library origin (atOnce (.registerLineage
      (registration [3] "Eve" "0123456789abcdef" 0)) 0)).db with
  | .ok bundle => bundle
  | .error _ => emptyPage 0 zeroHash

/-- An export which ends with an empty page over the given hash. -/
def exportWith (eventHash : String) : String :=
  library.toText (registeredPage.toJson library) ++ "\n" ++
    library.toText ((emptyPage 1 eventHash).toJson library) ++ "\n"

/-- What the report on such an export says, and the hashes of its pages and events. -/
def ReportsHash (eventHash : String) : Prop :=
  (verifyExport library (exportWith eventHash)).toOption.map (·.finalEventHash) =
    some eventHash ∧
  (exportPages library (exportWith eventHash)).map (·.checkpoint.eventHash) =
    [registeredPage.checkpoint.eventHash, eventHash] ∧
  (eventsOf (exportPages library (exportWith eventHash))).map (·.eventHash) =
    [registeredPage.checkpoint.eventHash]

instance (eventHash : String) : Decidable (ReportsHash eventHash) :=
  inferInstanceAs (Decidable (_ ∧ _ ∧ _))

instance exportWith_same : Fact (ReportsHash registeredPage.checkpoint.eventHash) :=
  ⟨by decide +kernel⟩

instance exportWith_zero : Fact (ReportsHash zeroHash ∧
    registeredPage.checkpoint.eventHash ≠ zeroHash) :=
  ⟨by decide +kernel⟩

theorem ReportsHash.exists_report {eventHash : String} (h : ReportsHash eventHash) :
    ∃ report, verifyExport library (exportWith eventHash) = .ok report ∧
      report.finalEventHash = eventHash := by
  obtain ⟨hreport, -⟩ := h
  cases hresult : verifyExport library (exportWith eventHash) with
  | error e =>
      rw [hresult] at hreport
      cases hreport
  | ok report =>
      rw [hresult] at hreport
      exact ⟨report, rfl, Option.some.inj hreport⟩

/-- The export whose last page repeats the hash is sound. -/
theorem verifyExport_sound_same : ∃ report,
    verifyExport library (exportWith registeredPage.checkpoint.eventHash) = .ok report ∧
    ExportSound library (exportPages library (exportWith registeredPage.checkpoint.eventHash))
      report := by
  obtain ⟨report, hreport, -⟩ := exportWith_same.out.exists_report
  refine ⟨report, hreport, (verifyExport_sound library _ report hreport).mpr ?_⟩
  obtain ⟨-, hhashes, -⟩ := exportWith_same.out
  intro front before last hpages _
  rw [hpages, List.map_append, ← List.nil_append [registeredPage.checkpoint.eventHash, _]]
    at hhashes
  obtain ⟨-, htwo⟩ := List.append_inj' hhashes (by
    simp only [List.length_map, List.length_cons, List.length_nil])
  simp only [List.map_cons, List.map_nil, List.cons.injEq, and_true] at htwo
  rw [htwo.1, htwo.2]

/-- The origin has signed an empty page over another hash, and the report
carries that hash. -/
theorem verifyExport_forked : ∃ report,
    verifyExport library (exportWith zeroHash) = .ok report ∧
    ¬ ExportSound library (exportPages library (exportWith zeroHash)) report := by
  obtain ⟨hreports, hother⟩ := exportWith_zero.out
  obtain ⟨report, hreport, hfinal⟩ := hreports.exists_report
  obtain ⟨-, -, hevents⟩ := hreports
  refine ⟨report, hreport, ?_⟩
  intro hsound
  obtain ⟨event, hevent, hhash⟩ := List.map_eq_singleton_iff.mp hevents
  have hlast := hsound.final event (by rw [hevent]; rfl)
  rw [hfinal, hhash] at hlast
  exact hother hlast.symm

end Sample

end Commonwake
