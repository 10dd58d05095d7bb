import Commonwake.CursorText
import Commonwake.KeysetPaging
import Commonwake.SampleNode
import Commonwake.WorkItems
import Mathlib.Data.Prod.Lex
import Mathlib.Data.String.Basic

/-!
# Reading the work page by page

A client asks for the open work in the order of its creation and follows the
cursor of every page.  Each request first moves the item which asks for relays
to the head of the log, and the node goes on between the requests.
-/

namespace Commonwake

open Outcome Table CursorText KeysetPaging

/-! ## Cursors -/

def formatWorkCursor (createdSequence : ℤ) (workId : String) : String :=
  toString createdSequence ++ ":" ++ workId

def parseWorkCursor (cursor : String) : Result (ℤ × String) := do
  rejectIf (byteLen cursor > 96) (.validation "work cursor exceeds 96 characters")
  let (sequence, workId) ← okOr (splitOnce ':' cursor)
    (.validation "work cursor must be sequence:work_id")
  let sequence ← okOr (parseI64 sequence)
    (.validation "work cursor sequence must be an integer")
  rejectIf (sequence < 0) (.validation "work cursor sequence cannot be negative")
  let digest ← okOr (stripTag "cwwork_" workId)
    (.validation "work cursor must contain a work identifier")
  rejectIf (byteLen digest ≠ 64 ∨ isHex digest = false)
    (.validation "work cursor contains an invalid work identifier")
  pure (sequence, workId)

/-! ## Pages -/

/-- An item as it is shown, without its instructions, which the table leaves out. -/
structure WorkItemView where
  workId : String
  kind : String
  subjectType : String
  subjectId : String
  requiredResults : ℤ
  receivedResults : ℕ
  activeClaims : ℕ
  createdSequence : ℤ
  deriving DecidableEq

structure WorkPage where
  items : List WorkItemView
  after : Option String
  nextCursor : Option String
  hasMore : Bool
  kind : Option String
  reportingNotice : String
  deriving DecidableEq

def workReportingNotice : String :=
  "received_results counts only signed reports that reference prior verification-trace events; anonymous volunteer submissions remain probationary and untraced until independently promoted."

/-- The order of the query. -/
def WorkItemRow.Precedes (row later : WorkItemRow) : Prop :=
  row.createdSequence < later.createdSequence ∨
    (row.createdSequence = later.createdSequence ∧ row.workId ≤ later.workId)

instance : DecidableRel WorkItemRow.Precedes := fun row later =>
  inferInstanceAs (Decidable (row.createdSequence < later.createdSequence ∨
    (row.createdSequence = later.createdSequence ∧ row.workId ≤ later.workId)))

/-- A request of a client. -/
structure WorkRequest where
  after : Option String
  limit : ℕ
  kind : Option String
  now : ℤ

/-- The greatest number of rows which a query can ask for. -/
def maxQueryRows : ℕ := 2 ^ 63 - 1

section

variable (P : Primitives)

def Db.countTraceable {α : Type} (eventId : α → String) (rows : List α) (db : Db) :
    Result ℕ := do
  let traceable ← filterOk (fun row => joinsTraceable P db.canonicalText? (eventId row)) rows
  pure traceable.length

def Db.workResultCount (kind subjectId : String) (db : Db) : Result ℕ :=
  if kind = "review_source" then
    db.countTraceable P SourceReviewRow.eventId
      (db.content.reviews.filter fun row => row.sourceId == subjectId)
  else if kind = "verify_observation" then
    db.countTraceable P VerificationRow.eventId
      (db.content.verifications.filter fun row => row.observationId == subjectId)
  else if kind = "assess_story" then
    db.countTraceable P AssessmentRow.eventId
      (db.content.assessments.filter fun row => row.storyId == subjectId)
  else
    db.countTraceable P WorkResultRow.eventId
      (db.work.results.filter fun row => row.workId == workIdOf P kind subjectId &&
        (row.outcome == .completed || row.outcome == .noMatch))

def Db.workItemView (now : ℤ) (db : Db) (row : WorkItemRow) : Result WorkItemView := do
  let receivedResults ← db.workResultCount P row.kind row.subjectId
  let activeClaims := db.work.claims.countP fun claim =>
    claim.workId == row.workId && decide (P.timestamp now < claim.expiresAt)
  pure ⟨row.workId, row.kind, row.subjectType, row.subjectId, row.requiredResults,
    receivedResults, activeClaims, row.createdSequence⟩

/-- The open items of a kind. -/
def WorkTables.openItems (kind : Option String) (work : WorkTables) : List WorkItemRow :=
  work.items.filter fun row => row.status == .isOpen && kind.all fun kind => row.kind == kind

/-- The rows of the query. -/
def WorkTables.selectPage (afterSequence : ℤ) (afterWorkId : String) (kind : Option String)
    (limit : ℕ) (work : WorkTables) : List WorkItemRow :=
  (((work.openItems kind).filter fun row => decide (afterSequence < row.createdSequence ∨
      (row.createdSequence = afterSequence ∧ afterWorkId < row.workId))).insertionSort
    WorkItemRow.Precedes).take (min (limit + 1) maxQueryRows)

/-- `work_page`, and the database which it leaves. -/
def workPage (request : WorkRequest) (tables : PublicationTables) (db : Db) :
    Result WorkPage × Db :=
  match request.after.elim (.ok (-1, "")) parseWorkCursor with
  | .error error => (.error error, db)
  | .ok (afterSequence, afterWorkId) =>
      let db := refreshReplicationWork P request.now tables db
      (do
        let work ← Outcome.traverse (db.workItemView P request.now)
          (db.work.selectPage afterSequence afterWorkId request.kind request.limit)
        let items := work.take request.limit
        pure {
          items := items
          after := request.after
          nextCursor := items.getLast?.map fun item =>
            formatWorkCursor item.createdSequence item.workId
          hasMore := decide (request.limit < work.length)
          kind := request.kind
          reportingNotice := workReportingNotice }, db)

end

/-! ## A traversal -/

/-- What happens to a node whose work is read. -/
inductive WorkEvent where
  /-- A statement of the node. -/
  | publisher (action : PublicationAction)
  /-- A request of some client. -/
  | page (request : WorkRequest)

/-- An answer of the node: the database which was read, and the page. -/
structure WorkRead where
  request : WorkRequest
  db : Db
  page : WorkPage

/-- A client which follows the cursors, and the node. -/
structure WorkTraversal where
  publisher : Publisher
  after : Option String
  reads : List WorkRead

inductive TraversalAction where
  /-- Something else than the next request of the client. -/
  | event (event : WorkEvent)
  /-- The client asks for the next page, unless there was no more. -/
  | request (limit : ℕ) (now : ℤ)

section

variable (P : Primitives) (identity : NodeIdentity P)

def Publisher.workStep (publisher : Publisher) : WorkEvent → Publisher
  | .publisher action => publisher.step P identity action
  | .page request =>
      let (_, db) := workPage P request publisher.tables publisher.node.db
      { publisher with node := { publisher.node with db := db } }

def Publisher.workRun (events : List WorkEvent) : Publisher :=
  events.foldl (Publisher.workStep P identity) (.init P identity)

namespace WorkTraversal

/-- Did the client get a page with nothing behind it? -/
def finished (traversal : WorkTraversal) : Bool :=
  traversal.reads.getLast?.any fun read => !read.page.hasMore

def step (kind : Option String) (traversal : WorkTraversal) : TraversalAction → WorkTraversal
  | .event event =>
      { traversal with
        publisher := traversal.publisher.workStep P identity event }
  | .request limit now =>
      if traversal.finished then traversal
      else
        let request : WorkRequest := ⟨traversal.after, limit, kind, now⟩
        let (answer, db) := workPage P request traversal.publisher.tables
          traversal.publisher.node.db
        let publisher := { traversal.publisher with
          node := { traversal.publisher.node with db := db } }
        match answer with
        | .ok page => ⟨publisher, page.nextCursor, traversal.reads ++ [⟨request, db, page⟩]⟩
        | .error _ => { traversal with publisher := publisher }

/-- A traversal which begins in the state after some events. -/
def run (kind : Option String) (events : List WorkEvent) (actions : List TraversalAction) :
    WorkTraversal :=
  actions.foldl (step P identity kind)
    ⟨.workRun P identity events, none, []⟩

end WorkTraversal

end

section

variable {P : Primitives} {identity : NodeIdentity P} {row : WorkItemRow} {db : Db}

/-! ## Cursors are read back -/

theorem parseWorkCursor_format (h : row.WellFormed P) (hfits : row.createdSequence < 2 ^ 63) :
    parseWorkCursor (formatWorkCursor row.createdSequence row.workId) =
      .ok (row.createdSequence, row.workId) := by
  obtain ⟨hid, hnonneg⟩ := h
  generalize row.createdSequence = sequence at hnonneg hfits
  have hdigest : ∃ bytes : Bytes, bytes.length = 32 ∧
      row.workId = "cwwork_" ++ HexText.encode bytes := ⟨_, P.sha256_length _, hid⟩
  obtain ⟨bytes, hbytes, hid⟩ := hdigest
  rw [hid]
  have hlength : byteLen (HexText.encode bytes) = 64 := by
    rw [byteLen, length_utf8_encode, hbytes]
  have hshort : ¬byteLen (formatWorkCursor sequence ("cwwork_" ++ HexText.encode bytes)) > 96 := by
    have hdecimal := length_utf8_toString hnonneg hfits
    have hcolon : (utf8 ":").length = 1 := by decide
    have htag : (utf8 "cwwork_").length = 7 := by decide
    unfold byteLen at hlength
    unfold byteLen formatWorkCursor
    rw [utf8_append, utf8_append, utf8_append, List.length_append, List.length_append,
      List.length_append, hlength, hcolon, htag]
    omega
  have hcolon : ':' ∉ chars (toString sequence) := by
    obtain ⟨m, rfl⟩ := Int.eq_ofNat_of_zero_le hnonneg
    rw [chars_toString_natCast]
    intro hmem
    have hdigit := Nat.isDigit_of_mem_toDigits (by norm_num) (by norm_num) hmem
    exact absurd hdigit (by decide)
  have hsplit := splitOnce_append ("cwwork_" ++ HexText.encode bytes) hcolon
  have hseparator : (':' : Char).toString = ":" := by decide
  rw [hseparator] at hsplit
  unfold parseWorkCursor
  rw [rejectIf_of_not hshort, ok_bind, formatWorkCursor, hsplit, okOr_some, ok_bind]
  simp only
  rw [parseI64_toString hnonneg hfits, okOr_some, ok_bind, rejectIf_of_not (by omega), ok_bind,
    stripTag_append, okOr_some, ok_bind, rejectIf_of_not, ok_bind]
  · rfl
  · rw [hlength, isHex_encode]
    simp

/-! ## One request -/

/-- The place of an item in the order of the query. -/
def WorkItemRow.key (row : WorkItemRow) : ℤ ×ₗ String :=
  toLex (row.createdSequence, row.workId)

def WorkItemView.key (view : WorkItemView) : ℤ ×ₗ String :=
  toLex (view.createdSequence, view.workId)

/-- The integers of the work items are those of SQLite. -/
structure WorkTables.Fits (work : WorkTables) : Prop where
  rows : work.items.length ≤ maxQueryRows
  sequences : ∀ row ∈ work.items, row.createdSequence < 2 ^ 63

/-- The position at which a request starts. -/
def WorkRequest.position (request : WorkRequest) : WithBot (ℤ ×ₗ String) :=
  match request.after.elim (.ok (-1, "")) parseWorkCursor with
  | .ok position => (toLex position : ℤ ×ₗ String)
  | .error _ => ⊥

/-- The request as one for rows after a position. -/
def WorkRead.keyset (read : WorkRead) : KeysetPaging.Request WorkItemRow (ℤ ×ₗ String) :=
  ⟨read.request.position, read.db.work.openItems read.request.kind, read.request.limit⟩

/-- The page is the answer to the request. -/
structure WorkRead.Answers (P : Primitives) (read : WorkRead) : Prop where
  cursor : ∃ afterSequence afterWorkId,
    read.request.after.elim (.ok (-1, "")) parseWorkCursor = .ok (afterSequence, afterWorkId)
  page : ∃ work, Outcome.traverse (read.db.workItemView P read.request.now)
      ((read.keyset.following WorkItemRow.key).take
        (min (read.request.limit + 1) maxQueryRows)) = .ok work ∧
    read.page.items = work.take read.request.limit ∧
    read.page.hasMore = decide (read.request.limit < work.length) ∧
    read.page.nextCursor = (work.take read.request.limit).getLast?.map fun item =>
      formatWorkCursor item.createdSequence item.workId

theorem WorkItemRow.precedes_iff (row later : WorkItemRow) :
    row.Precedes later ↔ row.key ≤ later.key := by
  unfold WorkItemRow.Precedes WorkItemRow.key
  rw [Prod.Lex.toLex_le_toLex]

theorem WorkItemRow.lt_key_iff (sequence : ℤ) (workId : String) (row : WorkItemRow) :
    toLex (sequence, workId) < row.key ↔ sequence < row.createdSequence ∨
      (row.createdSequence = sequence ∧ workId < row.workId) := by
  unfold WorkItemRow.key
  rw [Prod.Lex.toLex_lt_toLex, eq_comm (a := sequence)]

/-- The query reads the rows after the position. -/
theorem selectPage_eq (read : WorkRead) {afterSequence : ℤ} {afterWorkId : String}
    (h : read.request.after.elim (.ok (-1, "")) parseWorkCursor =
      .ok (afterSequence, afterWorkId)) :
    read.db.work.selectPage afterSequence afterWorkId read.request.kind read.request.limit =
      (read.keyset.following WorkItemRow.key).take
        (min (read.request.limit + 1) maxQueryRows) := by
  have hposition : read.request.position =
      ((toLex (afterSequence, afterWorkId) : ℤ ×ₗ String) : WithBot (ℤ ×ₗ String)) := by
    unfold WorkRequest.position
    rw [h]
  have hfilter : ∀ row : WorkItemRow, decide (afterSequence < row.createdSequence ∨
        (row.createdSequence = afterSequence ∧ afterWorkId < row.workId)) =
      decide (read.request.position < (row.key : WithBot (ℤ ×ₗ String))) := by
    intro row
    rw [decide_eq_decide, hposition, WithBot.coe_lt_coe, WorkItemRow.lt_key_iff]
  unfold WorkTables.selectPage KeysetPaging.Request.following WorkRead.keyset
  simp only [hfilter]
  congr 1
  have hrelation : WorkItemRow.Precedes = fun a b => a.key ≤ b.key := by
    funext a b
    exact propext (WorkItemRow.precedes_iff a b)
  congr 1

theorem workPage_answers {request : WorkRequest} {tables : PublicationTables} {page : WorkPage}
    (h : (workPage P request tables db).1 = .ok page) :
    (⟨request, (workPage P request tables db).2, page⟩ : WorkRead).Answers P := by
  unfold workPage at h ⊢
  cases hcursor : request.after.elim (.ok (-1, "")) parseWorkCursor with
  | error error =>
      rw [hcursor] at h
      cases h
  | ok position =>
      obtain ⟨afterSequence, afterWorkId⟩ := position
      rw [hcursor] at h
      simp only [bind_eq_ok, pure_eq_ok, Except.ok.injEq] at h
      obtain ⟨work, hwork, rfl⟩ := h
      refine ⟨⟨afterSequence, afterWorkId, hcursor⟩, work, ?_, rfl, rfl, rfl⟩
      rw [← selectPage_eq ⟨request, _, _⟩ hcursor]
      exact hwork

/-! ## The page of an answer -/

theorem Db.workItemView_key {now : ℤ} {view : WorkItemView}
    (h : db.workItemView P now row = .ok view) : view.key = row.key := by
  simp only [Db.workItemView, bind_eq_ok, pure_eq_ok, Except.ok.injEq] at h
  obtain ⟨_, -, rfl⟩ := h
  rfl

variable {read later : WorkRead}

theorem WorkRead.distinct (hsound : read.db.work.Sound P) :
    (read.keyset.rows.map WorkItemRow.key).Nodup := by
  have hids : (read.keyset.rows.map WorkItemRow.workId).Nodup :=
    hsound.distinct.sublist (List.filter_sublist.map _)
  have hmap : read.keyset.rows.map WorkItemRow.workId =
      (read.keyset.rows.map WorkItemRow.key).map fun key => (ofLex key).2 := by
    rw [List.map_map]
    rfl
  rw [hmap] at hids
  exact hids.of_map _

/-- The page is the one of the rows after the position. -/
theorem WorkRead.Answers.page_eq (h : read.Answers P) (hfits : read.db.work.Fits) :
    read.page.items.map WorkItemView.key =
        (read.keyset.page WorkItemRow.key).map WorkItemRow.key ∧
      (read.page.hasMore = true ↔ read.keyset.HasMore WorkItemRow.key) := by
  obtain ⟨work, hwork, hitems, hmore, -⟩ := h.page
  have hkeys := map_traverse (fun _ _ => Db.workItemView_key) hwork
  have hlength : (read.keyset.following WorkItemRow.key).length ≤ maxQueryRows := by
    unfold KeysetPaging.Request.following
    rw [List.length_insertionSort]
    refine (List.length_filter_le _ _).trans ?_
    exact (List.length_filter_le _ _).trans hfits.rows
  have hcount := congrArg List.length hkeys
  rw [List.length_map, List.length_map, List.length_take] at hcount
  constructor
  · rw [hitems, List.map_take, hkeys, List.map_take, List.take_take,
      KeysetPaging.Request.page, List.map_take]
    change _ = List.take read.request.limit _
    by_cases hlimit : read.request.limit ≤ maxQueryRows
    · congr 1
      omega
    · rw [List.take_of_length_le (by rw [List.length_map]; omega),
        List.take_of_length_le (by rw [List.length_map]; omega)]
  · rw [hmore, decide_eq_true_eq, KeysetPaging.Request.HasMore]
    change _ ↔ read.request.limit < _
    omega

/-- The cursor of a page leads to the position behind it. -/
theorem WorkRead.Answers.nextCursor (h : read.Answers P) (hsound : read.db.work.Sound P)
    (hfits : read.db.work.Fits) :
    match read.page.nextCursor with
    | some cursor => ∃ view ∈ read.page.items.getLast?,
        cursor = formatWorkCursor view.createdSequence view.workId ∧
        parseWorkCursor cursor = .ok (view.createdSequence, view.workId) ∧
        read.keyset.next WorkItemRow.key = (view.key : WithBot (ℤ ×ₗ String))
    | none => read.keyset.page WorkItemRow.key = [] := by
  obtain ⟨work, hwork, hitems, -, hnext⟩ := h.page
  have hkeys := (h.page_eq hfits).1
  rw [← hitems] at hnext
  cases hlast : read.page.items.getLast? with
  | none =>
      rw [hnext, hlast]
      simp only [Option.map_none]
      rw [List.getLast?_eq_none_iff] at hlast
      rw [hlast, List.map_nil, eq_comm, List.map_eq_nil_iff] at hkeys
      exact hkeys
  | some view =>
      rw [hnext, hlast]
      simp only [Option.map_some]
      have hkey : (read.keyset.page WorkItemRow.key).getLast?.map WorkItemRow.key =
          some view.key := by
        rw [← List.getLast?_map, ← hkeys, List.getLast?_map, hlast]
        rfl
      obtain ⟨row, hrow, hsame⟩ := Option.map_eq_some_iff.mp hkey
      have hmem : row ∈ read.db.work.items :=
        List.mem_of_mem_filter
          (KeysetPaging.Request.mem_rows_of_mem_page (List.mem_of_getLast? hrow))
      have hsequence : row.createdSequence = view.createdSequence :=
        congrArg (fun key : ℤ ×ₗ String => (ofLex key).1) hsame
      have hid : row.workId = view.workId :=
        congrArg (fun key : ℤ ×ₗ String => (ofLex key).2) hsame
      refine ⟨view, rfl, rfl, ?_, hkey⟩
      rw [← hsequence, ← hid]
      exact parseWorkCursor_format (hsound.wellFormed row hmem) (hfits.sequences row hmem)

end

/-! ## The invariant of a traversal -/

section

variable (P : Primitives) (identity : NodeIdentity P)

structure WorkRead.Sound (kind : Option String) (read : WorkRead) : Prop where
  answers : read.Answers P
  keeps : read.db.KeepsWork P identity
  origin : ∀ row ∈ read.db.work.items, row.workId = originWorkId P identity →
    row.status = .isOpen → row.createdSequence = read.db.head
  kind : read.request.kind = kind
  limit : 0 < read.request.limit

structure WorkTraversal.Sound (kind : Option String) (traversal : WorkTraversal) : Prop where
  keeps : traversal.publisher.node.db.KeepsWork P identity
  reads : ∀ read ∈ traversal.reads, read.Sound P identity kind
  grows : traversal.reads.Pairwise fun read later =>
    read.db.Grows P (originWorkId P identity) later.db
  current : ∀ read ∈ traversal.reads,
    read.db.Grows P (originWorkId P identity) traversal.publisher.node.db
  chain : traversal.reads.IsChain fun read later =>
    read.page.hasMore = true ∧ later.request.after = read.page.nextCursor
  first : ∀ read ∈ traversal.reads.head?, read.request.after = none
  after : traversal.after = traversal.reads.getLast?.bind (·.page.nextCursor)

end

section

variable {P : Primitives} {identity : NodeIdentity P} {kind : Option String}
variable {traversal : WorkTraversal}

theorem workPage_db (request : WorkRequest) (tables : PublicationTables) (db : Db) :
    (workPage P request tables db).2 = db ∨
      (workPage P request tables db).2 = refreshReplicationWork P request.now tables db := by
  unfold workPage
  cases request.after.elim (.ok (-1, "")) parseWorkCursor with
  | error error => exact .inl rfl
  | ok position => exact .inr rfl

theorem workPage_db_of_ok {request : WorkRequest} {tables : PublicationTables} {db : Db}
    {page : WorkPage} (h : (workPage P request tables db).1 = .ok page) :
    (workPage P request tables db).2 = refreshReplicationWork P request.now tables db := by
  unfold workPage at h ⊢
  cases hcursor : request.after.elim (.ok (-1, "")) parseWorkCursor with
  | error error =>
      rw [hcursor] at h
      cases h
  | ok position => rfl

theorem workPage_grows (request : WorkRequest) (tables : PublicationTables) {db : Db}
    (h : db.KeepsWork P identity) :
    db.Grows P (originWorkId P identity) (workPage P request tables db).2 := by
  rcases workPage_db (P := P) request tables db with hsame | hrefresh
  · rw [hsame]
    exact .refl db
  · rw [hrefresh]
    exact refreshReplicationWork_grows request.now tables h

theorem Publisher.workStep_grows (publisher : Publisher) (event : WorkEvent)
    (h : publisher.node.db.KeepsWork P identity) :
    publisher.node.db.Grows P (originWorkId P identity)
      (publisher.workStep P identity event).node.db := by
  cases event with
  | publisher action => exact publisher.step_grows action h
  | page request => exact workPage_grows request publisher.tables h

theorem Publisher.workRun_keeps (identity : NodeIdentity P) (events : List WorkEvent) :
    (Publisher.workRun P identity events).node.db.KeepsWork P identity := by
  induction events using List.reverseRecOn with
  | nil => exact Db.init_keepsWork identity
  | append_singleton events event ih =>
      unfold Publisher.workRun at ih ⊢
      rw [List.foldl_append]
      exact ih.grows (Publisher.workStep_grows _ event ih)

/-- The node goes on, and the client waits. -/
theorem WorkTraversal.Sound.wait (h : traversal.Sound P identity kind) {publisher : Publisher}
    (hgrows : traversal.publisher.node.db.Grows P (originWorkId P identity)
      publisher.node.db) :
    ({ traversal with publisher := publisher } : WorkTraversal).Sound P identity kind :=
  ⟨h.keeps.grows hgrows, h.reads, h.grows, fun read hread => (h.current read hread).trans hgrows,
    h.chain, h.first, h.after⟩

theorem WorkTraversal.Sound.getLast_hasMore (hfinished : traversal.finished = false)
    {last : WorkRead} (hlast : last ∈ traversal.reads.getLast?) : last.page.hasMore = true := by
  unfold WorkTraversal.finished at hfinished
  rw [Option.mem_def.mp hlast] at hfinished
  simpa using hfinished

/-- The client gets its next page. -/
theorem WorkTraversal.Sound.answer (h : traversal.Sound P identity kind)
    (hfinished : traversal.finished = false) {limit : ℕ} {now : ℤ} (hlimit : 0 < limit)
    {page : WorkPage}
    (hpage : (workPage P ⟨traversal.after, limit, kind, now⟩ traversal.publisher.tables
      traversal.publisher.node.db).1 = .ok page) {publisher : Publisher}
    (hnode : publisher.node.db = (workPage P ⟨traversal.after, limit, kind, now⟩
      traversal.publisher.tables traversal.publisher.node.db).2) :
    (⟨publisher, page.nextCursor, traversal.reads ++
      [⟨⟨traversal.after, limit, kind, now⟩, publisher.node.db, page⟩]⟩ :
        WorkTraversal).Sound P identity kind := by
  have hgrows : traversal.publisher.node.db.Grows P (originWorkId P identity)
      publisher.node.db := by
    rw [hnode]
    exact workPage_grows _ _ h.keeps
  have hkeeps := h.keeps.grows hgrows
  have hanswers := workPage_answers hpage
  rw [← hnode] at hanswers
  have hrefresh := workPage_db_of_ok hpage
  rw [← hnode] at hrefresh
  refine ⟨hkeeps, ?_, ?_, ?_, ?_, ?_, ?_⟩
  · intro read hread
    rcases List.mem_append.mp hread with hold | hnew
    · exact h.reads read hold
    · rw [List.mem_singleton.mp hnew]
      refine ⟨hanswers, hkeeps, ?_, rfl, hlimit⟩
      intro row hrow hid hopen
      simp only at hrow ⊢
      rw [hrefresh] at hrow ⊢
      rw [refreshReplicationWork_head]
      exact refreshReplicationWork_origin h.keeps.nodeId hrow hid hopen
  · rw [List.pairwise_append]
    refine ⟨h.grows, List.pairwise_singleton _ _, ?_⟩
    intro read hread later hlater
    rw [List.mem_singleton.mp hlater]
    exact (h.current read hread).trans hgrows
  · intro read hread
    rcases List.mem_append.mp hread with hold | hnew
    · exact (h.current read hold).trans hgrows
    · rw [List.mem_singleton.mp hnew]
      exact .refl _
  · rw [List.isChain_append]
    refine ⟨h.chain, List.isChain_singleton _, ?_⟩
    rintro last hlast later ⟨⟩
    refine ⟨WorkTraversal.Sound.getLast_hasMore hfinished hlast, ?_⟩
    change traversal.after = last.page.nextCursor
    rw [h.after, Option.mem_def.mp hlast]
    rfl
  · intro read hread
    cases hreads : traversal.reads with
    | nil =>
        rw [hreads] at hread
        cases hread
        change traversal.after = none
        rw [h.after, hreads]
        rfl
    | cons first rest =>
        rw [hreads] at hread
        have hfirst := h.first read (by
          rw [hreads]
          exact hread)
        exact hfirst
  · rw [List.getLast?_append_of_ne_nil _ (List.cons_ne_nil _ _)]
    rfl

theorem WorkTraversal.Sound.step (h : traversal.Sound P identity kind)
    {action : TraversalAction}
    (hlimit : ∀ limit now, action = .request limit now → 0 < limit) :
    (traversal.step P identity kind action).Sound P identity kind := by
  cases action with
  | event event => exact h.wait (Publisher.workStep_grows _ event h.keeps)
  | request limit now =>
      unfold WorkTraversal.step
      cases hfinished : traversal.finished with
      | true =>
          simp only [if_true]
          exact h
      | false =>
          simp only [Bool.false_eq_true, if_false]
          cases hpage : (workPage P ⟨traversal.after, limit, kind, now⟩
              traversal.publisher.tables traversal.publisher.node.db).1 with
          | error error => exact h.wait (workPage_grows _ _ h.keeps)
          | ok page => exact h.answer hfinished (hlimit limit now rfl) hpage rfl

theorem WorkTraversal.run_sound (identity : NodeIdentity P) (kind : Option String)
    (events : List WorkEvent) (actions : List TraversalAction)
    (hlimits : ∀ limit now, TraversalAction.request limit now ∈ actions → 0 < limit) :
    (WorkTraversal.run P identity kind events actions).Sound P identity kind := by
  induction actions using List.reverseRecOn with
  | nil =>
      refine ⟨Publisher.workRun_keeps identity events, ?_, .nil, ?_, .nil, ?_, rfl⟩
      · exact fun read hread => absurd hread List.not_mem_nil
      · exact fun read hread => absurd hread List.not_mem_nil
      · exact fun read hread => absurd hread (Option.not_mem_none read)
  | append_singleton actions action ih =>
      unfold WorkTraversal.run at ih ⊢
      rw [List.foldl_append]
      refine WorkTraversal.Sound.step (ih fun limit now hmem =>
        hlimits limit now (List.mem_append_left _ hmem)) ?_
      rintro limit now rfl
      exact hlimits limit now (List.mem_append_right _ (List.mem_singleton_self _))

/-! ## What the client has seen -/

/-- The items on the pages of the client. -/
def WorkTraversal.returned (traversal : WorkTraversal) : List WorkItemView :=
  traversal.reads.flatMap fun read => read.page.items

/-- The item is open and of the kind whenever the client reads. -/
def WorkTraversal.OpenThroughout (kind : Option String) (workId : String)
    (traversal : WorkTraversal) : Prop :=
  ∀ read ∈ traversal.reads, ∃ row ∈ read.db.work.openItems kind, row.workId = workId

/-- Both cursors can be read, and the first one points before the second. -/
def CursorBefore (cursor later : String) : Prop :=
  ∃ position next, parseWorkCursor cursor = .ok position ∧ parseWorkCursor later = .ok next ∧
    toLex position < toLex next

variable {read later : WorkRead}

theorem WorkRead.Sound.next_eq_position (h : read.Sound P identity kind)
    (hfits : read.db.work.Fits) (hmore : read.keyset.HasMore WorkItemRow.key)
    (hafter : later.request.after = read.page.nextCursor) :
    later.keyset.position = read.keyset.next WorkItemRow.key := by
  have hnext := h.answers.nextCursor h.keeps.work hfits
  cases hcursor : read.page.nextCursor with
  | none =>
      rw [hcursor] at hnext
      exact absurd hnext (hmore.page_ne_nil h.limit)
  | some cursor =>
      rw [hcursor] at hnext
      obtain ⟨view, -, -, hparse, hposition⟩ := hnext
      change later.request.position = _
      unfold WorkRequest.position
      rw [hafter, hcursor, hposition, Option.elim_some, hparse]
      rfl

theorem WorkTraversal.Sound.follows (h : traversal.Sound P identity kind)
    (hfits : ∀ read ∈ traversal.reads, read.db.work.Fits) :
    KeysetPaging.Follows WorkItemRow.key (traversal.reads.map WorkRead.keyset) := by
  unfold KeysetPaging.Follows
  rw [List.isChain_map]
  refine h.chain.imp_of_mem_imp ?_
  rintro read later hread hlater ⟨hmore, hafter⟩
  have hsound := h.reads read hread
  have hmore := (hsound.answers.page_eq (hfits read hread)).2.mp hmore
  exact ⟨hsound.limit, hmore, hsound.next_eq_position (hfits read hread) hmore hafter⟩

theorem WorkTraversal.Sound.returned_keys (h : traversal.Sound P identity kind)
    (hfits : ∀ read ∈ traversal.reads, read.db.work.Fits) :
    traversal.returned.map WorkItemView.key =
      ((traversal.reads.map WorkRead.keyset).flatMap
        (KeysetPaging.Request.page WorkItemRow.key)).map WorkItemRow.key := by
  unfold WorkTraversal.returned
  rw [List.flatMap_map, List.map_flatMap, List.map_flatMap]
  refine List.flatMap_congr fun read hread => ?_
  exact ((h.reads read hread).answers.page_eq (hfits read hread)).1

/-- The key of an open item does not fall, and only that of one item rises. -/
theorem WorkRead.Sound.key_le (h : read.Sound P identity kind)
    (hlater : later.Sound P identity kind)
    (hgrows : read.db.Grows P (originWorkId P identity) later.db) {row other : WorkItemRow}
    (hrow : row ∈ read.keyset.rows) (hother : other ∈ later.keyset.rows)
    (hid : row.workId = other.workId) :
    row.key ≤ other.key ∧
      (row.workId ≠ originWorkId P identity → row.key = other.key) := by
  have hrowOpen : row ∈ read.db.work.items ∧ row.status = .isOpen := by
    have hfilter := (List.mem_filter.mp hrow).2
    rw [Bool.and_eq_true, beq_iff_eq] at hfilter
    exact ⟨List.mem_of_mem_filter hrow, hfilter.1⟩
  have hotherOpen : other ∈ later.db.work.items ∧ other.status = .isOpen := by
    have hfilter := (List.mem_filter.mp hother).2
    rw [Bool.and_eq_true, beq_iff_eq] at hfilter
    exact ⟨List.mem_of_mem_filter hother, hfilter.1⟩
  have hsame : row.workId ≠ originWorkId P identity → row.key = other.key := by
    intro hne
    obtain ⟨kept, hkept, hkeeps⟩ := hgrows.work.keeps hrowOpen.1
    have heq : kept = other := List.inj_on_of_nodup_map hlater.keeps.work.distinct hkept
      hotherOpen.1 (hkeeps.workId.trans hid)
    unfold WorkItemRow.key
    rw [← hid, ← heq, hkeeps.createdSequence hne]
  refine ⟨?_, hsame⟩
  by_cases horigin : row.workId = originWorkId P identity
  · have hfirst := h.origin row hrowOpen.1 horigin hrowOpen.2
    have hsecond := hlater.origin other hotherOpen.1 (hid ▸ horigin) hotherOpen.2
    unfold WorkItemRow.key
    rw [hfirst, hsecond, hid, Prod.Lex.toLex_le_toLex]
    rcases lt_or_eq_of_le hgrows.head with hlt | heq
    · exact .inl hlt
    · exact .inr ⟨heq, le_refl _⟩
  · exact (hsame horigin).le

theorem WorkTraversal.Sound.exists_mem_returned (h : traversal.Sound P identity kind)
    (hfits : ∀ read ∈ traversal.reads, read.db.work.Fits)
    (hfinished : traversal.finished = true) {workId : String}
    (hopen : traversal.OpenThroughout kind workId) :
    ∃ view ∈ traversal.returned, view.workId = workId := by
  have hlast : Finished WorkItemRow.key (traversal.reads.map WorkRead.keyset) := by
    unfold WorkTraversal.finished at hfinished
    obtain ⟨last, hlast, hend⟩ := (Option.any_eq_true _ _).mp hfinished
    have hmem : last ∈ traversal.reads := List.mem_of_getLast? hlast
    refine ⟨last.keyset, ?_, ?_⟩
    · rw [List.getLast?_map, hlast]
      exact rfl
    · rw [← ((h.reads last hmem).answers.page_eq (hfits last hmem)).2]
      simpa using hend
  have hpresent : ∀ read ∈ traversal.reads,
      ∃ row ∈ read.keyset.rows, row.workId = workId := by
    intro read hread
    have hkind := (h.reads read hread).kind
    obtain ⟨row, hrow, hid⟩ := hopen read hread
    rw [← hkind] at hrow
    exact ⟨row, hrow, hid⟩
  have hrises : traversal.reads.Pairwise fun read later => ∀ row ∈ read.keyset.rows,
      ∀ other ∈ later.keyset.rows, row.workId = workId → other.workId = workId →
        row.key ≤ other.key := by
    refine h.grows.imp_of_mem ?_
    intro read later hread hlater hgrows row hrow other hother hid hid'
    exact ((h.reads read hread).key_le (h.reads later hlater) hgrows hrow hother
      (hid.trans hid'.symm)).1
  have hfound : ∃ request ∈ traversal.reads.map WorkRead.keyset,
      ∃ row ∈ request.page WorkItemRow.key, row.workId = workId :=
    (h.follows hfits).exists_mem_page hlast
    (by
      rintro _ hrequest
      obtain ⟨read, hread, rfl⟩ := List.mem_map.mp hrequest
      exact (h.reads read hread).limit)
    (by
      rintro _ hrequest
      obtain ⟨read, hread, rfl⟩ := List.mem_map.mp hrequest
      exact WorkRead.distinct (h.reads read hread).keeps.work)
    (by
      rintro _ hrequest
      obtain ⟨read, hread, rfl⟩ := List.mem_map.mp hrequest
      exact hpresent read hread)
    (List.pairwise_map.mpr hrises)
    (by
      intro first hfirst row hrow _
      rw [List.head?_map, Option.mem_map] at hfirst
      obtain ⟨read, hread, rfl⟩ := hfirst
      have hafter := h.first read hread
      have hmem : read ∈ traversal.reads := List.mem_of_head? hread
      have hformed := (h.reads read hmem).keeps.work.wellFormed row (List.mem_of_mem_filter hrow)
      change read.request.position < _
      unfold WorkRequest.position
      rw [hafter]
      change ((toLex ((-1 : ℤ), "") : ℤ ×ₗ String) : WithBot (ℤ ×ₗ String)) < _
      rw [WithBot.coe_lt_coe, WorkItemRow.lt_key_iff]
      have hnonneg := hformed.createdSequence
      exact .inl (by omega))
  obtain ⟨request, hrequest, row, hrow, hid⟩ := hfound
  have hmem : row.key ∈ traversal.returned.map WorkItemView.key := by
    rw [h.returned_keys hfits]
    exact List.mem_map_of_mem (List.mem_flatMap.mpr ⟨request, hrequest, hrow⟩)
  obtain ⟨view, hview, hkey⟩ := List.mem_map.mp hmem
  refine ⟨view, hview, ?_⟩
  rw [← hid]
  exact congrArg (fun key : ℤ ×ₗ String => (ofLex key).2) hkey

theorem WorkTraversal.Sound.returned_nodup (h : traversal.Sound P identity kind)
    (hfits : ∀ read ∈ traversal.reads, read.db.work.Fits) :
    (traversal.returned.map WorkItemView.key).Nodup := by
  rw [h.returned_keys hfits]
  apply (h.follows hfits).keys_nodup
  intro request hrequest
  obtain ⟨read, hread, rfl⟩ := List.mem_map.mp hrequest
  exact WorkRead.distinct (h.reads read hread).keeps.work

/-- Every view on a page is one of an open item. -/
theorem WorkRead.Sound.exists_row (h : read.Sound P identity kind)
    (hfits : read.db.work.Fits) {view : WorkItemView} (hview : view ∈ read.page.items) :
    ∃ row ∈ read.keyset.rows, row.key = view.key := by
  have hmem := List.mem_map_of_mem (f := WorkItemView.key) hview
  rw [(h.answers.page_eq hfits).1] at hmem
  obtain ⟨row, hrow, hkey⟩ := List.mem_map.mp hmem
  exact ⟨row, KeysetPaging.Request.mem_rows_of_mem_page hrow, hkey⟩

/-- An item which is not moved has one key on all the pages. -/
theorem WorkTraversal.Sound.key_eq (h : traversal.Sound P identity kind)
    (hfits : ∀ read ∈ traversal.reads, read.db.work.Fits) {view other : WorkItemView}
    (hview : view ∈ traversal.returned) (hother : other ∈ traversal.returned)
    (hid : view.workId = other.workId) (hne : view.workId ≠ originWorkId P identity) :
    view.key = other.key := by
  obtain ⟨read, hread, hview⟩ := List.mem_flatMap.mp hview
  obtain ⟨later, hlater, hother⟩ := List.mem_flatMap.mp hother
  obtain ⟨row, hrow, hrowKey⟩ := (h.reads read hread).exists_row (hfits read hread) hview
  obtain ⟨otherRow, hotherRow, hotherKey⟩ :=
    (h.reads later hlater).exists_row (hfits later hlater) hother
  have hrowId : row.workId = view.workId :=
    congrArg (fun key : ℤ ×ₗ String => (ofLex key).2) hrowKey
  have hotherId : otherRow.workId = other.workId :=
    congrArg (fun key : ℤ ×ₗ String => (ofLex key).2) hotherKey
  have hids : row.workId = otherRow.workId := hrowId.trans (hid.trans hotherId.symm)
  have hrowNe : row.workId ≠ originWorkId P identity := hrowId ▸ hne
  rw [← hrowKey, ← hotherKey]
  -- The two pages are the same, or one was read before the other.
  have hgrows : ∀ first ∈ traversal.reads, ∀ second ∈ traversal.reads,
      first.db.Grows P (originWorkId P identity) second.db ∨
        second.db.Grows P (originWorkId P identity) first.db := by
    refine List.Pairwise.forall_of_forall_of_flip (fun first _ => .inl (.refl _)) ?_ ?_
    · exact h.grows.imp .inl
    · exact h.grows.imp .inr
  rcases hgrows read hread later hlater with hfirst | hsecond
  · exact ((h.reads read hread).key_le (h.reads later hlater) hfirst hrow hotherRow hids).2
      hrowNe
  · exact (((h.reads later hlater).key_le (h.reads read hread) hsecond hotherRow hrow
      hids.symm).2 (hids ▸ hrowNe)).symm

/-- The cursors lead forward. -/
theorem WorkTraversal.Sound.cursors_pairwise (h : traversal.Sound P identity kind)
    (hfits : ∀ read ∈ traversal.reads, read.db.work.Fits) :
    (traversal.reads.filterMap (·.page.nextCursor)).Pairwise CursorBefore := by
  rw [List.pairwise_filterMap]
  have hfollows := (h.follows hfits).pairwise
  rw [List.pairwise_map] at hfollows
  refine hfollows.imp_of_mem ?_
  intro read later hread hlater hle cursor hcursor next hnext
  have hread := (h.reads read hread).answers.nextCursor (h.reads read hread).keeps.work
    (hfits read hread)
  rw [hcursor] at hread
  obtain ⟨view, -, -, hparse, hposition⟩ := hread
  have hlaterPage := (h.reads later hlater).answers.nextCursor (h.reads later hlater).keeps.work
    (hfits later hlater)
  rw [hnext] at hlaterPage
  obtain ⟨other, hother, -, hparseNext, hend⟩ := hlaterPage
  refine ⟨_, _, hparse, hparseNext, ?_⟩
  have hpage : later.keyset.page WorkItemRow.key ≠ [] := by
    intro hnil
    rw [KeysetPaging.Request.next, hnil] at hend
    cases hend
  have hforward := KeysetPaging.Request.position_lt_next hpage
  rw [hposition] at hle
  rw [hend] at hforward
  exact WithBot.coe_lt_coe.mp (lt_of_le_of_lt hle hforward)

/-- A traversal of the open work loses nothing while the log moves.  It shows
every item which stays open, and shows it once, unless it is the one which is moved. -/
theorem run_workTraversal (identity : NodeIdentity P) (kind : Option String)
    (events : List WorkEvent) (actions : List TraversalAction)
    (hlimits : ∀ limit now, TraversalAction.request limit now ∈ actions → 1 ≤ limit)
    (hfits : ∀ read ∈ (WorkTraversal.run P identity kind events actions).reads,
      read.db.work.Fits) :
    ((WorkTraversal.run P identity kind events actions).finished = true →
      ∀ workId, (WorkTraversal.run P identity kind events actions).OpenThroughout kind workId →
        1 ≤ (WorkTraversal.run P identity kind events actions).returned.countP
            (fun view => view.workId == workId) ∧
          (workId ≠ originWorkId P identity →
            (WorkTraversal.run P identity kind events actions).returned.countP
              (fun view => view.workId == workId) = 1)) ∧
      (((WorkTraversal.run P identity kind events actions).reads.filterMap
        (·.page.nextCursor)).Pairwise CursorBefore) ∧
      ∀ read ∈ (WorkTraversal.run P identity kind events actions).reads, ∀ cursor,
        read.page.nextCursor = some cursor → ∃ view ∈ read.page.items.getLast?,
          cursor = formatWorkCursor view.createdSequence view.workId ∧
          parseWorkCursor cursor = .ok (view.createdSequence, view.workId) := by
  have hsound := WorkTraversal.run_sound identity kind events actions hlimits
  refine ⟨?_, hsound.cursors_pairwise hfits, ?_⟩
  · intro hfinished workId hopen
    obtain ⟨view, hview, hid⟩ := hsound.exists_mem_returned hfits hfinished hopen
    refine ⟨List.one_le_countP_iff.mpr ⟨view, hview, beq_iff_eq.mpr hid⟩, fun hne => ?_⟩
    refine Table.countP_eq_one (hsound.returned_nodup hfits) hview (beq_iff_eq.mpr hid :
      (fun view : WorkItemView => view.workId == workId) view = true) ?_
    intro other hother hother'
    have hotherId : other.workId = workId := beq_iff_eq.mp hother'
    exact hsound.key_eq hfits hother hview (hotherId.trans hid.symm) (hotherId ▸ hne)
  · intro read hread cursor hcursor
    have hnext := (hsound.reads read hread).answers.nextCursor
      (hsound.reads read hread).keeps.work (hfits read hread)
    rw [hcursor] at hnext
    obtain ⟨view, hview, hformat, hparse, -⟩ := hnext
    exact ⟨view, hview, hformat, hparse⟩

end

namespace Sample

/-- A client reads the work of a node which takes an event between the pages. -/
def interruptedReading : List TraversalAction :=
  .request 10 0 :: (atOnce (.registerLineage firstRegistration) 0).map
    (fun action => .event (.publisher (.node action))) ++ [.request 10 0]

def europeId : String := workIdOf library "discover_sources" "europe"

def finishedTraversal : WorkTraversal :=
  .run library origin none [] interruptedReading

instance finishedTraversal_reads : Fact (finishedTraversal.finished = true ∧
    finishedTraversal.reads.length = 2 ∧
    (finishedTraversal.reads.all fun read =>
      (read.db.work.openItems none).any (fun row => row.workId == europeId) &&
      decide (read.db.work.items.length ≤ maxQueryRows) &&
      read.db.work.items.all fun row => decide (row.createdSequence < 2 ^ 63)) = true ∧
    europeId ≠ originWorkId library origin) :=
  ⟨by decide +kernel⟩

/-- The task for one of the regions is shown once. -/
theorem run_workTraversal_interruptedReading :
    finishedTraversal.finished = true ∧ finishedTraversal.reads.length = 2 ∧
      finishedTraversal.returned.countP (fun view => view.workId == europeId) = 1 := by
  obtain ⟨hfinished, htwo, hreads, hne⟩ := finishedTraversal_reads.out
  rw [List.all_eq_true] at hreads
  have hlimits : ∀ limit now, TraversalAction.request limit now ∈ interruptedReading →
      1 ≤ limit := by
    intro limit now hmem
    rcases List.mem_append.mp hmem with hfirst | hlast
    · rcases List.mem_cons.mp hfirst with heq | hevent
      · cases heq
        decide
      · obtain ⟨action, -, hevent⟩ := List.mem_map.mp hevent
        cases hevent
    · cases List.mem_singleton.mp hlast
      decide
  have hfits : ∀ read ∈ finishedTraversal.reads, read.db.work.Fits := by
    intro read hread
    have hread := hreads read hread
    rw [Bool.and_eq_true, Bool.and_eq_true, decide_eq_true_eq, List.all_eq_true] at hread
    exact ⟨hread.1.2, fun row hrow => of_decide_eq_true (hread.2 row hrow)⟩
  have hopen : finishedTraversal.OpenThroughout none europeId := by
    intro read hread
    have hread := hreads read hread
    rw [Bool.and_eq_true, Bool.and_eq_true, List.any_eq_true] at hread
    obtain ⟨row, hrow, hid⟩ := hread.1.1
    exact ⟨row, hrow, beq_iff_eq.mp hid⟩
  have hresult := run_workTraversal origin none [] interruptedReading hlimits hfits
  exact ⟨hfinished, htwo, (hresult.1 hfinished europeId hopen).2 hne⟩

end Sample

end Commonwake
