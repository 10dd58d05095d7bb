import Commonwake.CommonsDates
import Commonwake.SampleCalendar
import Commonwake.WorkPaging
import Mathlib.Data.Prod.Lex
import Mathlib.Data.String.Basic

/-!
# Reading the topics page by page

The topics are scanned in batches, the newest first, and those which pass the
filters are collected until there is one more than the page can hold.  Every
scanned topic is read in full, also when it is filtered out.
-/

namespace Commonwake

open Outcome Table CursorText KeysetPaging

structure TopicPage where
  topics : List TopicView
  after : Option String
  nextCursor : Option String
  hasMore : Bool
  selectionNotice : String

def topicSelectionNotice : String :=
  "This stable cursor orders topic creation at this peer. Approval and dormancy are computed from the peer's current received events, so a vote or new post can change which topics match a filter between pages."

/-- What a client asks for, apart from the cursor. -/
structure TopicQuery where
  includeProposed : Bool
  includeDormant : Bool
  limit : ℕ
  now : ℤ

/-- Is the topic left out? -/
def TopicQuery.skips (query : TopicQuery) (topic : TopicView) : Bool :=
  (!query.includeProposed && topic.status == "proposed") ||
    (!query.includeDormant && topic.status == "dormant")

/-- The variables of the scan. -/
structure TopicScan where
  createdAt : Option String
  topicId : String
  topics : List TopicView

def topicBatchSize : ℕ := 200

/-- The order of the query. -/
def ForumTopicRow.Precedes (row later : ForumTopicRow) : Prop :=
  later.createdAt < row.createdAt ∨
    (row.createdAt = later.createdAt ∧ row.topicId ≤ later.topicId)

instance : DecidableRel ForumTopicRow.Precedes := fun row later =>
  inferInstanceAs (Decidable (later.createdAt < row.createdAt ∨
    (row.createdAt = later.createdAt ∧ row.topicId ≤ later.topicId)))

namespace CommonsTables

/-- The topics behind a position, in the order of the query. -/
def topicsAfter (tables : CommonsTables) (createdAt : Option String) (topicId : String) :
    List ForumTopicRow :=
  (tables.topics.filter fun row => createdAt.all fun createdAt =>
      decide (row.createdAt < createdAt ∨
        (row.createdAt = createdAt ∧ topicId < row.topicId))).insertionSort
    ForumTopicRow.Precedes

end CommonsTables

section

variable (P : Primitives)

def formatTopicCursor (createdAt : ℤ) (topicId : String) : String :=
  P.timestamp createdAt ++ "|" ++ topicId

def parseTopicCursor (cursor : String) : Result (ℤ × String) := do
  rejectIf (byteLen cursor > 192) (.validation "topic cursor exceeds 192 characters")
  let (createdAt, topicId) ← okOr (splitOnce '|' cursor)
    (.validation "topic cursor must be created_at|topic_id")
  validatePrefixedIdentifier topicId "cwtopic_" "topic cursor"
  let createdAt ← okOr (P.parseRfc3339 createdAt)
    (.validation "topic cursor timestamp is invalid")
  pure (createdAt, topicId)

/-- Where the scan begins. -/
def topicStart (after : Option String) : Result TopicScan :=
  match after with
  | some cursor => do
      let (createdAt, topicId) ← parseTopicCursor P cursor
      pure ⟨some (P.timestamp createdAt), topicId, []⟩
  | none => pure ⟨none, "", []⟩

namespace CommonsTables

variable (tables : CommonsTables) (query : TopicQuery)

/-- The loop over a batch, and whether the page is full. -/
def scanTopics (scan : TopicScan) : List ForumTopicRow → Result (TopicScan × Bool)
  | [] => .ok (scan, false)
  | row :: rest => do
      let topic ← tables.topicView P row.topicId query.now
      let scan := { scan with createdAt := some row.createdAt, topicId := row.topicId }
      if query.skips topic then scanTopics scan rest
      else
        let scan := { scan with topics := scan.topics ++ [topic] }
        if query.limit < scan.topics.length then pure (scan, true)
        else scanTopics scan rest

/-- The loop over the batches. -/
def scanBatches : ℕ → TopicScan → Result (List TopicView)
  | 0, scan => .ok scan.topics
  | fuel + 1, scan => do
      let candidates := (tables.topicsAfter scan.createdAt scan.topicId).take topicBatchSize
      if candidates = [] then pure scan.topics
      else
        let (next, full) ← tables.scanTopics P query scan candidates
        if full ∨ candidates.length ≠ topicBatchSize then pure next.topics
        else scanBatches fuel next

/-- There are at most as many batches as topics, and the one which finds none. -/
def forumTopics (after : Option String) : Result TopicPage := do
  let start ← topicStart P after
  let found ← tables.scanBatches P query (tables.topics.length + 1) start
  let topics := found.take query.limit
  pure {
    topics := topics
    after := after
    nextCursor := topics.getLast?.map fun topic => formatTopicCursor P topic.createdAt topic.topicId
    hasMore := decide (query.limit < found.length)
    selectionNotice := topicSelectionNotice }

/-- The pages which a client gets that follows the cursors until there is no more. -/
inductive TopicTraversal : Option String → List TopicPage → Prop
  | last (after : Option String) (page : TopicPage)
      (hpage : tables.forumTopics P query after = .ok page) (hlast : page.hasMore = false) :
      TopicTraversal after [page]
  | more (after : Option String) (page : TopicPage) (rest : List TopicPage)
      (hpage : tables.forumTopics P query after = .ok page) (hmore : page.hasMore = true)
      (hrest : TopicTraversal page.nextCursor rest) :
      TopicTraversal after (page :: rest)

end CommonsTables

end

/-! ## The scan -/

/-- The place of a topic in the order of the query. -/
def ForumTopicRow.key (row : ForumTopicRow) : (String)ᵒᵈ ×ₗ String :=
  toLex (OrderDual.toDual row.createdAt, row.topicId)

section

variable (P : Primitives)

/-- The view of a topic which is read and passes the filters. -/
def CommonsTables.matching (tables : CommonsTables) (query : TopicQuery) (row : ForumTopicRow) :
    Option TopicView :=
  (tables.topicView P row.topicId query.now).toOption.filter fun topic => !query.skips topic

/-- Where a scan is after it has read the row. -/
def ForumTopicRow.position (row : ForumTopicRow) : Option String × String :=
  (some row.createdAt, row.topicId)

def TopicScan.position (scan : TopicScan) : Option String × String :=
  (scan.createdAt, scan.topicId)

/-- Can the topic be read in full? -/
def CommonsTables.Shows (tables : CommonsTables) (now : ℤ) (row : ForumTopicRow) : Prop :=
  isOk (tables.topicView P row.topicId now)

/-- A part of the rows was scanned, up to the one which fills the page. -/
structure CommonsTables.Scanned (tables : CommonsTables) (query : TopicQuery)
    (before : List TopicView) (rows scanned rest : List ForumTopicRow)
    (found : List TopicView) : Prop where
  split : rows = scanned ++ rest
  shows : ∀ row ∈ scanned, tables.Shows P query.now row
  collects : found = before ++ scanned.filterMap (tables.matching P query)
  ends : found.length = query.limit + 1 ∨ (found.length ≤ query.limit ∧ rest = [])

end

section

variable {P : Primitives} {tables : CommonsTables} {query : TopicQuery}
variable {row : ForumTopicRow} {rows : List ForumTopicRow} {scan next : TopicScan}

theorem ForumTopicRow.precedes_iff (row later : ForumTopicRow) :
    row.Precedes later ↔ row.key ≤ later.key := by
  unfold ForumTopicRow.Precedes ForumTopicRow.key
  rw [Prod.Lex.toLex_le_toLex, OrderDual.toDual_lt_toDual, OrderDual.toDual_inj]

theorem ForumTopicRow.lt_key_iff (createdAt topicId : String) (row : ForumTopicRow) :
    toLex (OrderDual.toDual createdAt, topicId) < row.key ↔ row.createdAt < createdAt ∨
      (row.createdAt = createdAt ∧ topicId < row.topicId) := by
  unfold ForumTopicRow.key
  rw [Prod.Lex.toLex_lt_toLex, OrderDual.toDual_lt_toDual, OrderDual.toDual_inj,
    eq_comm (a := createdAt)]

/-- The position of the scan. -/
def topicPosition (createdAt : Option String) (topicId : String) :
    WithBot ((String)ᵒᵈ ×ₗ String) :=
  createdAt.map fun createdAt => toLex (OrderDual.toDual createdAt, topicId)

theorem topicsAfter_eq (tables : CommonsTables) (createdAt : Option String) (topicId : String) :
    tables.topicsAfter createdAt topicId =
      (⟨topicPosition createdAt topicId, tables.topics, 0⟩ :
        KeysetPaging.Request ForumTopicRow ((String)ᵒᵈ ×ₗ String)).following
          ForumTopicRow.key := by
  have hfilter : ∀ row : ForumTopicRow, (createdAt.all fun createdAt =>
        decide (row.createdAt < createdAt ∨
          (row.createdAt = createdAt ∧ topicId < row.topicId))) =
      decide (topicPosition createdAt topicId < (row.key : WithBot ((String)ᵒᵈ ×ₗ String))) := by
    intro row
    unfold topicPosition
    cases createdAt with
    | none =>
        exact (decide_eq_true (WithBot.bot_lt_coe row.key)).symm
    | some createdAt =>
        rw [Option.all_some, decide_eq_decide, Option.map_some]
        exact (ForumTopicRow.lt_key_iff createdAt topicId row).symm.trans
          WithBot.coe_lt_coe.symm
  unfold CommonsTables.topicsAfter KeysetPaging.Request.following
  simp only [hfilter]
  have hrelation : ForumTopicRow.Precedes = fun a b => a.key ≤ b.key := by
    funext a b
    exact propext (ForumTopicRow.precedes_iff a b)
  congr 1

theorem ForumTopicRow.keys_nodup (h : (tables.topics.map ForumTopicRow.topicId).Nodup) :
    (tables.topics.map ForumTopicRow.key).Nodup := by
  have hmap : tables.topics.map ForumTopicRow.topicId =
      (tables.topics.map ForumTopicRow.key).map fun key => (ofLex key).2 := by
    rw [List.map_map]
    rfl
  rw [hmap] at h
  exact h.of_map _

/-- The scan goes on behind the row which it has read last. -/
theorem topicsAfter_append (hdistinct : (tables.topics.map ForumTopicRow.topicId).Nodup)
    {createdAt : Option String} {topicId : String} {first last : List ForumTopicRow}
    (h : tables.topicsAfter createdAt topicId = first ++ row :: last) :
    tables.topicsAfter (some row.createdAt) row.topicId = last := by
  rw [topicsAfter_eq] at h ⊢
  exact KeysetPaging.Request.following_of_append (ForumTopicRow.keys_nodup hdistinct) h

theorem matching_of_skips {topic : TopicView}
    (htopic : tables.topicView P row.topicId query.now = .ok topic)
    (hskips : query.skips topic = true) : tables.matching P query row = none := by
  unfold CommonsTables.matching
  rw [htopic]
  simp [Except.toOption, hskips]

theorem matching_of_not_skips {topic : TopicView}
    (htopic : tables.topicView P row.topicId query.now = .ok topic)
    (hskips : query.skips topic = false) : tables.matching P query row = some topic := by
  unfold CommonsTables.matching
  rw [htopic]
  simp [Except.toOption, hskips]

/-- The scan of a batch either fills the page, or reaches the end of the batch. -/
theorem scanTopics_eq_ok {full : Bool} (hroom : scan.topics.length ≤ query.limit)
    (h : tables.scanTopics P query scan rows = .ok (next, full)) :
    ∃ scanned rest, tables.Scanned P query scan.topics rows scanned rest next.topics ∧
      (full = true ↔ next.topics.length = query.limit + 1) ∧
      next.position = (scanned.getLast?.map ForumTopicRow.position).getD scan.position := by
  induction rows generalizing scan with
  | nil =>
      cases h
      refine ⟨[], [], ⟨rfl, ?_, ?_, .inr ⟨hroom, rfl⟩⟩, ?_, rfl⟩
      · exact fun row hrow => absurd hrow List.not_mem_nil
      · rw [List.filterMap_nil, List.append_nil]
      · constructor
        · intro hfull
          cases hfull
        · intro hlength
          omega
  | cons row rows ih =>
      simp only [CommonsTables.scanTopics, bind_eq_ok] at h
      obtain ⟨topic, htopic, h⟩ := h
      have hshows : tables.Shows P query.now row := ⟨topic, htopic⟩
      -- What is read after this row is read with this row.
      have hprepend : ∀ start : TopicScan,
          start.topics = scan.topics ++ (tables.matching P query row).toList →
          start.position = row.position → start.topics.length ≤ query.limit →
          tables.scanTopics P query start rows = .ok (next, full) →
          ∃ scanned rest, tables.Scanned P query scan.topics (row :: rows) scanned rest
              next.topics ∧ (full = true ↔ next.topics.length = query.limit + 1) ∧
            next.position = (scanned.getLast?.map ForumTopicRow.position).getD
              scan.position := by
        intro start htopics hposition hlength hrest
        obtain ⟨scanned, rest, hscanned, hfull, hlast⟩ := ih hlength hrest
        refine ⟨row :: scanned, rest, ⟨?_, ?_, ?_, hscanned.ends⟩, hfull, ?_⟩
        · rw [hscanned.split, List.cons_append]
        · exact List.forall_mem_cons.mpr ⟨hshows, hscanned.shows⟩
        · rw [hscanned.collects, htopics, List.append_assoc]
          cases hmatching : tables.matching P query row with
          | none =>
              rw [List.filterMap_cons_none hmatching]
              rfl
          | some view =>
              rw [List.filterMap_cons_some hmatching]
              rfl
        · rw [hlast, List.getLast?_cons]
          cases scanned.getLast? with
          | none => exact hposition
          | some last => rfl
      by_cases hskips : query.skips topic = true
      · rw [if_pos hskips] at h
        refine hprepend ⟨some row.createdAt, row.topicId, scan.topics⟩ ?_ rfl hroom h
        rw [matching_of_skips htopic hskips]
        exact (List.append_nil _).symm
      · rw [if_neg hskips] at h
        have hmatching := matching_of_not_skips htopic (Bool.not_eq_true _ ▸ hskips)
        by_cases hfull : query.limit < (scan.topics ++ [topic]).length
        · rw [if_pos hfull] at h
          cases h
          have hlength : (scan.topics ++ [topic]).length = query.limit + 1 := by
            rw [List.length_append, List.length_singleton] at hfull ⊢
            omega
          refine ⟨[row], rows, ⟨rfl, ?_, ?_, .inl hlength⟩, ?_, rfl⟩
          · exact List.forall_mem_singleton.mpr hshows
          · rw [List.filterMap_cons_some hmatching]
            rfl
          · exact ⟨fun _ => hlength, fun _ => rfl⟩
        · rw [if_neg hfull] at h
          refine hprepend ⟨some row.createdAt, row.topicId, scan.topics ++ [topic]⟩ ?_ rfl
            (not_lt.mp hfull) h
          rw [hmatching]
          rfl

/-- A scan of topics which can be read does not fail. -/
theorem isOk_scanTopics (scan : TopicScan)
    (hshows : ∀ row ∈ rows, tables.Shows P query.now row) :
    isOk (tables.scanTopics P query scan rows) := by
  induction rows generalizing scan with
  | nil => exact ⟨_, rfl⟩
  | cons row rows ih =>
      obtain ⟨hrow, hrows⟩ := List.forall_mem_cons.mp hshows
      obtain ⟨topic, htopic⟩ := hrow
      unfold CommonsTables.scanTopics
      rw [htopic, ok_bind]
      simp only
      split
      · exact ih _ hrows
      · split
        · exact ⟨_, rfl⟩
        · exact ih _ hrows

/-! ## The batches -/

/-- The batches read the topics behind the position as one list. -/
theorem scanBatches_eq_ok (hdistinct : (tables.topics.map ForumTopicRow.topicId).Nodup)
    {fuel : ℕ} (hroom : scan.topics.length ≤ query.limit)
    (hfuel : (tables.topicsAfter scan.createdAt scan.topicId).length < fuel)
    {found : List TopicView} (h : tables.scanBatches P query fuel scan = .ok found) :
    ∃ scanned rest, tables.Scanned P query scan.topics
      (tables.topicsAfter scan.createdAt scan.topicId) scanned rest found := by
  induction fuel generalizing scan with
  | zero => exact absurd hfuel (Nat.not_lt_zero _)
  | succ fuel ih =>
      generalize hrows : tables.topicsAfter scan.createdAt scan.topicId = rows at hfuel
      simp only [CommonsTables.scanBatches, hrows] at h
      by_cases hempty : rows.take topicBatchSize = []
      · rw [if_pos hempty] at h
        cases h
        have hnone : rows = [] := by
          cases rows with
          | nil => rfl
          | cons row rest => cases hempty
        refine ⟨[], [], ⟨hnone, ?_, ?_, .inr ⟨hroom, rfl⟩⟩⟩
        · exact fun row hrow => absurd hrow List.not_mem_nil
        · rw [List.filterMap_nil, List.append_nil]
      · rw [if_neg hempty, bind_eq_ok] at h
        obtain ⟨⟨next, full⟩, hscan, h⟩ := h
        obtain ⟨scanned, rest, hscanned, hfull, hposition⟩ := scanTopics_eq_ok hroom hscan
        have hall : rows = scanned ++ (rest ++ rows.drop topicBatchSize) := by
          rw [← List.append_assoc, ← hscanned.split, List.take_append_drop]
        by_cases hstop : full = true ∨ (rows.take topicBatchSize).length ≠ topicBatchSize
        · rw [if_pos hstop] at h
          cases h
          refine ⟨scanned, rest ++ rows.drop topicBatchSize, hall, hscanned.shows,
            hscanned.collects, ?_⟩
          rcases hscanned.ends with hends | ⟨hlength, hrest⟩
          · exact .inl hends
          · refine .inr ⟨hlength, ?_⟩
            have hshort : (rows.take topicBatchSize).length ≠ topicBatchSize := by
              refine hstop.resolve_left fun hstop => ?_
              have := hfull.mp hstop
              omega
            rw [List.length_take] at hshort
            rw [hrest, List.nil_append, List.drop_eq_nil_of_le (by omega)]
        · rw [if_neg hstop] at h
          rw [not_or, not_not] at hstop
          obtain ⟨hnotFull, hcomplete⟩ := hstop
          obtain ⟨hlength, hrest⟩ : next.topics.length ≤ query.limit ∧ rest = [] :=
            hscanned.ends.resolve_left fun hends => hnotFull (hfull.mpr hends)
          -- The next batch begins behind the last row of this one.
          have hbatch : rows.take topicBatchSize = scanned := by
            rw [hscanned.split, hrest, List.append_nil]
          rw [hrest, List.nil_append] at hall
          have hne : scanned ≠ [] := hbatch ▸ hempty
          have hlast := List.dropLast_append_getLast hne
          rw [List.getLast?_eq_some_getLast hne] at hposition
          have hcreated : next.createdAt = some (scanned.getLast hne).createdAt :=
            congrArg Prod.fst hposition
          have hid : next.topicId = (scanned.getLast hne).topicId :=
            congrArg Prod.snd hposition
          have hbehind : tables.topicsAfter next.createdAt next.topicId =
              rows.drop topicBatchSize := by
            rw [hcreated, hid]
            have hsplit : tables.topicsAfter scan.createdAt scan.topicId =
                scanned.dropLast ++ scanned.getLast hne :: rows.drop topicBatchSize := by
              rw [hrows]
              conv_lhs => rw [hall, ← hlast]
              rw [List.append_assoc]
              rfl
            exact topicsAfter_append hdistinct hsplit
          have hshorter : (tables.topicsAfter next.createdAt next.topicId).length < fuel := by
            rw [List.length_take] at hcomplete
            rw [hbehind, List.length_drop]
            unfold topicBatchSize at hcomplete ⊢
            omega
          obtain ⟨more, behind, hmore⟩ := ih hlength hshorter h
          refine ⟨scanned ++ more, behind, ?_, ?_, ?_, hmore.ends⟩
          · rw [hall, ← hbehind, hmore.split, List.append_assoc]
          · exact List.forall_mem_append.mpr ⟨hscanned.shows, hmore.shows⟩
          · rw [hmore.collects, hscanned.collects, List.filterMap_append, List.append_assoc]

theorem isOk_scanBatches (hshows : ∀ row ∈ tables.topics, tables.Shows P query.now row)
    (fuel : ℕ) (scan : TopicScan) : isOk (tables.scanBatches P query fuel scan) := by
  induction fuel generalizing scan with
  | zero => exact ⟨_, rfl⟩
  | succ fuel ih =>
      unfold CommonsTables.scanBatches
      simp only
      split
      · exact ⟨_, rfl⟩
      · have hbatch : ∀ row ∈ (tables.topicsAfter scan.createdAt scan.topicId).take
            topicBatchSize, tables.Shows P query.now row := by
          intro row hrow
          have hmem := List.mem_of_mem_take hrow
          unfold CommonsTables.topicsAfter at hmem
          rw [List.mem_insertionSort] at hmem
          exact hshows row (List.mem_of_mem_filter hmem)
        obtain ⟨⟨next, full⟩, hscan⟩ := isOk_scanTopics scan hbatch
        rw [hscan, ok_bind]
        simp only
        split
        · exact ⟨_, rfl⟩
        · exact ih next

end

/-! ## The stored topics -/

section

variable (P : Primitives)

/-- How instants are printed: down to the milliseconds, and those of four-digit years in
a fixed format, the later ones behind the earlier ones. -/
structure Primitives.FormatsMillis : Prop where
  truncates : ∀ t, P.timestamp (truncateToMillis t) = P.timestamp t
  length : ∀ t, FourDigitYear t → byteLen (P.timestamp t) = 24
  separator : ∀ t, FourDigitYear t → '|' ∉ chars (P.timestamp t)
  ordered : ∀ s t, FourDigitYear s → FourDigitYear t →
    (P.timestamp s < P.timestamp t ↔ truncateToMillis s < truncateToMillis t)

/-- A topic as it is written. -/
structure ForumTopicRow.Stored (row : ForumTopicRow) : Prop where
  topicId : ∃ bytes, row.topicId = P.prefixedId "cwtopic_" bytes
  createdAt : ∃ t, FourDigitYear t ∧ row.createdAt = P.timestamp t
  tags : isOk (storedStrings P row.tagsJson)
  languages : isOk (storedStrings P row.languagesJson)
  dormancy : 0 ≤ row.archiveAfterDays ∧ row.archiveAfterDays < 2 ^ 32

/-- Commons in which every topic can be shown. -/
structure CommonsTables.Listable (tables : CommonsTables) : Prop where
  distinct : (tables.topics.map ForumTopicRow.topicId).Nodup
  stored : ∀ row ∈ tables.topics, row.Stored P
  readable : tables.Readable P

end

section

variable {P : Primitives} {tables : CommonsTables} {row : ForumTopicRow}

theorem TopicProposalPayload.archiveAfterDays_bounds {value : Json}
    {payload : TopicProposalPayload} (h : TopicProposalPayload.ofJson value = some payload) :
    0 ≤ payload.archiveAfterDays ∧ payload.archiveAfterDays < 2 ^ 32 := by
  simp only [TopicProposalPayload.ofJson, Option.bind_eq_bind, Option.bind_eq_some_iff,
    Option.pure_def, Option.some.injEq] at h
  obtain ⟨m, -, _, -, _, -, _, -, _, -, _, -, _, -, _, -, days, hdays, rfl⟩ := h
  unfold Serde.defaulted at hdays
  split at hdays
  · rename_i value _
    unfold Serde.u32 Serde.bounded at hdays
    split at hdays
    · rw [Option.ite_none_right_eq_some, Option.some.injEq] at hdays
      rw [← hdays.2]
      exact hdays.1
    · cases hdays
  · rw [← Option.some.inj hdays]
    norm_num

/-- The topics of a node are the ones which its logs have proposed. -/
theorem run_listable (identity : NodeIdentity P) (actions : List Action) :
    (NodeState.run P identity actions).db.commons.Listable P := by
  have hreadable := run_commons_readable identity actions
  obtain ⟨records, hreplay, -⟩ := run_replayOf (P := P) identity actions
  refine ⟨hreplay.topics.nodup, ?_, hreadable⟩
  intro row hrow
  have hcreated := hreadable.topics row hrow
  obtain ⟨hwritten, -⟩ := LastWriter.mem_of_firstOf ((hreplay.topics.mem row).mp hrow)
  obtain ⟨record, -, hrecord⟩ := List.mem_filterMap.mp hwritten
  obtain ⟨-, payload, hpayload, rfl⟩ := CommonsRecord.writes_eq_some.mp hrecord
  refine ⟨⟨_, rfl⟩, ⟨_, ?_, rfl⟩, ⟨_, storedStrings_toText payload.tags⟩,
    ⟨_, storedStrings_toText payload.languages⟩, payload.archiveAfterDays_bounds hpayload⟩
  exact (P.isOk_parseTimestamp_timestamp _).mp hcreated

theorem topic?_of_mem (hdistinct : (tables.topics.map ForumTopicRow.topicId).Nodup)
    (hrow : row ∈ tables.topics) : tables.topic? row.topicId = some row := by
  unfold CommonsTables.topic?
  cases hfind : tables.topics.find? fun stored => stored.topicId == row.topicId with
  | none =>
      have habsent := List.find?_eq_none.mp hfind row hrow
      exact absurd (beq_self_eq_true row.topicId) habsent
  | some found =>
      have hid : found.topicId = row.topicId := by
        simpa using List.find?_some hfind
      rw [List.inj_on_of_nodup_map hdistinct (List.mem_of_find?_eq_some hfind) hrow hid]

/-- Every topic can be shown. -/
theorem CommonsTables.Listable.shows (h : tables.Listable P) (hrow : row ∈ tables.topics)
    (now : ℤ) : tables.Shows P now row := by
  have hstored := h.stored row hrow
  obtain ⟨createdAt, hcreatedAt⟩ := h.readable.topics row hrow
  obtain ⟨tags, htags⟩ := hstored.tags
  obtain ⟨languages, hlanguages⟩ := hstored.languages
  have hlast : ∀ text, maxText ((tables.posts.filter fun post =>
      post.topicId == row.topicId).map (·.createdAt)) = some text →
      isOk (P.parseTimestamp text) := by
    intro text htext
    obtain ⟨post, hpost, rfl⟩ := List.mem_map.mp (maxText_mem htext)
    exact h.readable.posts post (List.mem_filter.mp hpost).1
  have hvotes : isOk (tables.topicVoteViews P row.topicId) := by
    apply isOk_traverse.mpr
    intro vote hvote
    rw [List.mem_mergeSort, List.mem_filter] at hvote
    obtain ⟨votedAt, hvotedAt⟩ := h.readable.votes vote hvote.1
    rw [hvotedAt]
    exact ⟨_, rfl⟩
  obtain ⟨votes, hvotes⟩ := hvotes
  have hdormancy : ¬(row.archiveAfterDays < 0 ∨ 2 ^ 32 ≤ row.archiveAfterDays) := by
    have := hstored.dormancy
    omega
  unfold CommonsTables.Shows CommonsTables.topicView
  rw [topic?_of_mem h.distinct hrow, okOr_some, ok_bind]
  dsimp only
  generalize maxText ((tables.posts.filter fun post =>
    post.topicId == row.topicId).map (·.createdAt)) = latest at hlast ⊢
  cases latest with
  | none =>
      simp only [hcreatedAt, ok_bind, pure_eq_ok, rejectIf_of_not hdormancy, hvotes, htags,
        hlanguages]
      exact ⟨_, rfl⟩
  | some text =>
      obtain ⟨lastActivityAt, hlast⟩ := hlast text rfl
      simp only [hcreatedAt, ok_bind, hlast, rejectIf_of_not hdormancy, hvotes, htags,
        hlanguages]
      exact ⟨_, rfl⟩

theorem topicView_eq_ok {topicId : String} {now : ℤ} {topic : TopicView}
    (h : tables.topicView P topicId now = .ok topic) :
    ∃ row, tables.topic? topicId = some row ∧ topic.topicId = row.topicId ∧
      P.parseTimestamp row.createdAt = .ok topic.createdAt := by
  unfold CommonsTables.topicView at h
  dsimp only at h
  generalize maxText ((tables.posts.filter fun post =>
    post.topicId == topicId).map (·.createdAt)) = latest at h
  cases latest with
  | none =>
      simp only [bind_eq_ok, okOr_eq_ok, pure_eq_ok, Except.ok.injEq] at h
      obtain ⟨row, hrow, createdAt, hcreatedAt, _, -, _, -, _, -, _, -, _, -, rfl⟩ := h
      exact ⟨row, hrow, rfl, hcreatedAt⟩
  | some text =>
      simp only [bind_eq_ok, okOr_eq_ok, pure_eq_ok, Except.ok.injEq] at h
      obtain ⟨row, hrow, createdAt, hcreatedAt, _, -, _, -, _, -, _, -, _, -, rfl⟩ := h
      exact ⟨row, hrow, rfl, hcreatedAt⟩

/-- What a view tells about the row of its topic. -/
theorem CommonsTables.Listable.view (h : tables.Listable P) (hrow : row ∈ tables.topics)
    {now : ℤ} {topic : TopicView} (htopic : tables.topicView P row.topicId now = .ok topic) :
    topic.topicId = row.topicId ∧
      ∃ t, FourDigitYear t ∧ row.createdAt = P.timestamp t ∧
        topic.createdAt = truncateToMillis t := by
  obtain ⟨found, hfound, hid, hcreatedAt⟩ := topicView_eq_ok htopic
  rw [topic?_of_mem h.distinct hrow, Option.some.injEq] at hfound
  subst hfound
  obtain ⟨t, hyear, htext⟩ := (h.stored row hrow).createdAt
  rw [htext, P.parseTimestamp_timestamp hyear, Except.ok.injEq] at hcreatedAt
  exact ⟨hid, t, hyear, htext, hcreatedAt.symm⟩

/-! ## The cursor -/

/-- The cursor behind a topic names the place of its row. -/
theorem CommonsTables.Listable.parseTopicCursor_format (h : tables.Listable P)
    (hformats : P.FormatsMillis) (hrow : row ∈ tables.topics) {now : ℤ} {topic : TopicView}
    (htopic : tables.topicView P row.topicId now = .ok topic) :
    parseTopicCursor P (formatTopicCursor P topic.createdAt topic.topicId) =
        .ok (topic.createdAt, topic.topicId) ∧
      P.timestamp topic.createdAt = row.createdAt := by
  obtain ⟨hid, t, hyear, htext, hcreatedAt⟩ := h.view hrow htopic
  obtain ⟨bytes, hdigest⟩ := (h.stored row hrow).topicId
  have hsame : P.timestamp topic.createdAt = P.timestamp t := by
    rw [hcreatedAt, hformats.truncates]
  refine ⟨?_, hsame.trans htext.symm⟩
  have hhex := byteLen_sha256Hex P bytes
  have hbar : (utf8 "|").length = 1 := by decide
  have htag : (utf8 "cwtopic_").length = 8 := by decide
  have hshort : ¬byteLen (formatTopicCursor P topic.createdAt topic.topicId) > 192 := by
    have hlength := hformats.length t hyear
    unfold byteLen at hlength hhex
    rw [formatTopicCursor, hsame, hid, hdigest]
    unfold byteLen Primitives.prefixedId
    rw [utf8_append, utf8_append, utf8_append, List.length_append, List.length_append,
      List.length_append, hlength, hhex, hbar, htag]
    omega
  have hsplit : splitOnce '|' (formatTopicCursor P topic.createdAt topic.topicId) =
      some (P.timestamp t, P.prefixedId "cwtopic_" bytes) := by
    have hseparator : ('|' : Char).toString = "|" := by decide
    rw [formatTopicCursor, hsame, hid, hdigest, ← hseparator]
    exact splitOnce_append _ (hformats.separator t hyear)
  have hvalid : validatePrefixedIdentifier (P.prefixedId "cwtopic_" bytes) "cwtopic_"
      "topic cursor" = .ok () := by
    unfold validatePrefixedIdentifier Primitives.prefixedId
    rw [stripTag_append, okOr_some, ok_bind, rejectIf_of_not]
    rw [isSha256Hex_sha256Hex]
    decide
  unfold parseTopicCursor
  rw [rejectIf_of_not hshort, ok_bind, hsplit, okOr_some, ok_bind]
  simp only
  rw [hvalid, ok_bind, P.parseRfc3339_timestamp t hyear, okOr_some, ok_bind, hid, hdigest,
    hcreatedAt]
  rfl

end

/-! ## The pages -/

section

variable (P : Primitives) (tables : CommonsTables) (query : TopicQuery)

/-- The topics behind a position which pass the filters. -/
def CommonsTables.viewsAfter (scan : TopicScan) : List TopicView :=
  (tables.topicsAfter scan.createdAt scan.topicId).filterMap (tables.matching P query)

end

/-- The topics are handed out in pages which are full, but for the last one. -/
inductive HandedOut (limit : ℕ) : List TopicView → List TopicPage → Prop
  | last (topics : List TopicView) (page : TopicPage) (htopics : page.topics = topics)
      (hlength : topics.length ≤ limit) (hlast : page.hasMore = false) :
      HandedOut limit topics [page]
  | more (topics : List TopicView) (page : TopicPage) (rest : List TopicPage)
      (htopics : page.topics = topics.take limit) (hlength : limit < topics.length)
      (hmore : page.hasMore = true) (hrest : HandedOut limit (topics.drop limit) rest) :
      HandedOut limit topics (page :: rest)

section

variable {P : Primitives} {tables : CommonsTables} {query : TopicQuery} {scan : TopicScan}
  {row : ForumTopicRow} {topic : TopicView} {after : Option String}

theorem matching_eq_some : tables.matching P query row = some topic ↔
    tables.topicView P row.topicId query.now = .ok topic ∧ query.skips topic = false := by
  unfold CommonsTables.matching
  rw [Option.filter_eq_some_iff, Bool.not_eq_true']
  cases tables.topicView P row.topicId query.now with
  | error e => simp [Except.toOption]
  | ok view => simp [Except.toOption]

theorem mem_topicsAfter {createdAt : Option String} {topicId : String}
    (h : row ∈ tables.topicsAfter createdAt topicId) : row ∈ tables.topics := by
  unfold CommonsTables.topicsAfter at h
  rw [List.mem_insertionSort] at h
  exact List.mem_of_mem_filter h

theorem length_topicsAfter_lt (createdAt : Option String) (topicId : String) :
    (tables.topicsAfter createdAt topicId).length < tables.topics.length + 1 := by
  unfold CommonsTables.topicsAfter
  rw [List.length_insertionSort]
  exact Nat.lt_succ_of_le (List.length_filter_le _ _)

theorem topics_of_topicStart (h : topicStart P after = .ok scan) : scan.topics = [] := by
  unfold topicStart at h
  cases after with
  | none =>
      rw [← Except.ok.inj h]
  | some cursor =>
      simp only [bind_eq_ok, pure_eq_ok, Except.ok.injEq] at h
      obtain ⟨_, -, rfl⟩ := h
      rfl

/-- What has been found decides the page, whether the scan went to the end or not. -/
theorem CommonsTables.Scanned.page {rows scanned rest : List ForumTopicRow}
    {found : List TopicView} (h : tables.Scanned P query [] rows scanned rest found) :
    found.take query.limit = (rows.filterMap (tables.matching P query)).take query.limit ∧
      (query.limit < found.length ↔
        query.limit < (rows.filterMap (tables.matching P query)).length) := by
  have hfound : found = scanned.filterMap (tables.matching P query) := h.collects
  rw [h.split, List.filterMap_append, ← hfound, List.length_append]
  rcases h.ends with hfull | ⟨hlength, hrest⟩
  · constructor
    · rw [List.take_append_of_le_length (by omega)]
    · omega
  · rw [hrest, List.filterMap_nil, List.append_nil]
    exact ⟨rfl, Iff.rfl⟩

variable (query) in
/-- Every page can be read, and holds the next topics which pass the filters. -/
theorem CommonsTables.Listable.page (h : tables.Listable P)
    (hstart : topicStart P after = .ok scan) :
    ∃ page, tables.forumTopics P query after = .ok page ∧
      page.topics = (tables.viewsAfter P query scan).take query.limit ∧
      page.hasMore = decide (query.limit < (tables.viewsAfter P query scan).length) ∧
      page.nextCursor = page.topics.getLast?.map fun topic =>
        formatTopicCursor P topic.createdAt topic.topicId := by
  have hempty := topics_of_topicStart hstart
  have hscan : isOk (tables.scanBatches P query (tables.topics.length + 1) scan) :=
    isOk_scanBatches (fun row hrow => h.shows hrow query.now) _ scan
  obtain ⟨found, hfound⟩ := hscan
  have hroom : scan.topics.length ≤ query.limit := by
    rw [hempty]
    exact Nat.zero_le _
  obtain ⟨scanned, rest, hscanned⟩ := scanBatches_eq_ok h.distinct hroom
    (length_topicsAfter_lt scan.createdAt scan.topicId) hfound
  rw [hempty] at hscanned
  obtain ⟨htake, hmore⟩ := hscanned.page
  refine ⟨_, by rw [CommonsTables.forumTopics, hstart, ok_bind, hfound, ok_bind]; rfl, htake,
    ?_, rfl⟩
  simp only [decide_eq_decide]
  exact hmore

/-- Behind a page which is not the last the scan goes on with the topics which are left. -/
theorem CommonsTables.Listable.next (h : tables.Listable P) (hformats : P.FormatsMillis)
    (hlimit : 0 < query.limit)
    (hmore : query.limit < (tables.viewsAfter P query scan).length) :
    ∃ topic next, ((tables.viewsAfter P query scan).take query.limit).getLast? = some topic ∧
      topicStart P (some (formatTopicCursor P topic.createdAt topic.topicId)) = .ok next ∧
      tables.viewsAfter P query next = (tables.viewsAfter P query scan).drop query.limit ∧
      (tables.topicsAfter next.createdAt next.topicId).length <
        (tables.topicsAfter scan.createdAt scan.topicId).length := by
  generalize hviews : tables.viewsAfter P query scan = views at hmore ⊢
  have hne : views.take query.limit ≠ [] := by
    rw [ne_eq, List.take_eq_nil_iff]
    rintro (hzero | hnil)
    · omega
    · rw [hnil] at hmore
      exact absurd hmore (Nat.not_lt_zero _)
  have hsplit : (views.take query.limit).dropLast ++
      (views.take query.limit).getLast hne :: views.drop query.limit = views := by
    rw [← List.singleton_append, ← List.append_assoc, List.dropLast_append_getLast,
      List.take_append_drop]
  unfold CommonsTables.viewsAfter at hviews
  rw [← hsplit, List.filterMap_eq_append_iff] at hviews
  obtain ⟨first, others, hrows, -, hothers⟩ := hviews
  rw [List.filterMap_eq_cons_iff] at hothers
  obtain ⟨skipped, row, rest, hrest, -, hrow, hleft⟩ := hothers
  have hplace : tables.topicsAfter scan.createdAt scan.topicId =
      (first ++ skipped) ++ row :: rest := by
    rw [hrows, hrest, List.append_assoc]
  have hlisted : row ∈ tables.topicsAfter scan.createdAt scan.topicId := by
    rw [hplace]
    exact List.mem_append_right _ List.mem_cons_self
  have hmem := mem_topicsAfter hlisted
  have hlast := List.getLast?_eq_some_getLast hne
  generalize (views.take query.limit).getLast hne = topic at hrow hlast
  obtain ⟨htopic, -⟩ := matching_eq_some.mp hrow
  obtain ⟨hid, -⟩ := h.view hmem htopic
  obtain ⟨hparse, hcreated⟩ := h.parseTopicCursor_format hformats hmem htopic
  have hbehind := topicsAfter_append h.distinct hplace
  refine ⟨topic, ⟨some row.createdAt, row.topicId, []⟩, hlast, ?_, ?_, ?_⟩
  · unfold topicStart
    simp only
    rw [hparse, ok_bind, hcreated, hid]
    rfl
  · unfold CommonsTables.viewsAfter
    simp only
    rw [hbehind]
    exact hleft
  · simp only
    rw [hbehind, hplace, List.length_append, List.length_cons]
    omega

variable (query) in
/-- A client which follows the cursors comes to the end, with every topic behind the start
which passes the filters. -/
theorem CommonsTables.Listable.traversal (h : tables.Listable P) (hformats : P.FormatsMillis)
    (hlimit : 0 < query.limit) (hstart : topicStart P after = .ok scan) :
    ∃ pages, tables.TopicTraversal P query after pages ∧
      HandedOut query.limit (tables.viewsAfter P query scan) pages := by
  -- Every page reads at least one more row.
  generalize hlength : (tables.topicsAfter scan.createdAt scan.topicId).length = n
  induction n using Nat.strong_induction_on generalizing after scan with
  | _ n ih =>
      obtain ⟨page, hpage, htopics, hhasMore, hcursor⟩ := h.page query hstart
      by_cases hmore : query.limit < (tables.viewsAfter P query scan).length
      · have htrue : page.hasMore = true := by
          rw [hhasMore, decide_eq_true_eq]
          exact hmore
        obtain ⟨topic, next, hlast, hnext, hviews, hshorter⟩ := h.next hformats hlimit hmore
        rw [htopics, hlast, Option.map_some] at hcursor
        rw [hlength] at hshorter
        obtain ⟨rest, htraversal, hhanded⟩ := ih _ hshorter hnext rfl
        rw [hviews] at hhanded
        refine ⟨page :: rest, .more after page rest hpage htrue ?_,
          .more _ page rest htopics hmore htrue hhanded⟩
        rw [hcursor]
        exact htraversal
      · have hfalse : page.hasMore = false := by
          rw [hhasMore, decide_eq_false_iff_not]
          exact hmore
        have hall : (tables.viewsAfter P query scan).length ≤ query.limit := not_lt.mp hmore
        rw [List.take_of_length_le hall] at htopics
        exact ⟨[page], .last after page hpage hfalse, .last _ page htopics hall hfalse⟩

/-- The database decides what a client gets. -/
theorem CommonsTables.TopicTraversal.unique {pages others : List TopicPage}
    (h : tables.TopicTraversal P query after pages)
    (hothers : tables.TopicTraversal P query after others) : others = pages := by
  induction h generalizing others with
  | last after page hpage hlast =>
      cases hothers with
      | last _ other hother =>
          rw [hpage, Except.ok.injEq] at hother
          rw [hother]
      | more _ other rest hother hmore =>
          rw [hpage, Except.ok.injEq] at hother
          rw [← hother, hlast] at hmore
          cases hmore
  | more after page rest hpage hmore hrest ih =>
      cases hothers with
      | last _ other hother hlast =>
          rw [hpage, Except.ok.injEq] at hother
          rw [← hother, hmore] at hlast
          cases hlast
      | more _ other others hother _ hothers =>
          rw [hpage, Except.ok.injEq] at hother
          subst hother
          rw [ih hothers]

end

/-! ## What is handed out -/

section

variable {limit : ℕ} {topics : List TopicView} {pages : List TopicPage}

theorem HandedOut.flatMap (h : HandedOut limit topics pages) :
    pages.flatMap TopicPage.topics = topics := by
  induction h with
  | last topics page htopics =>
      rw [List.flatMap_singleton, htopics]
  | more topics page rest htopics _ _ _ ih =>
      rw [List.flatMap_cons, ih, htopics, List.take_append_drop]

theorem HandedOut.length_le (h : HandedOut limit topics pages) :
    ∀ page ∈ pages, page.topics.length ≤ limit := by
  induction h with
  | last topics page htopics hlength =>
      rw [List.forall_mem_singleton, htopics]
      exact hlength
  | more topics page rest htopics _ _ _ ih =>
      refine List.forall_mem_cons.mpr ⟨?_, ih⟩
      rw [htopics]
      exact List.length_take_le _ _

/-- A page says that there are more topics exactly if later pages hold some. -/
theorem HandedOut.hasMore_iff (h : HandedOut limit topics pages) {before rest : List TopicPage}
    {page : TopicPage} (hpages : pages = before ++ page :: rest) :
    page.hasMore = true ↔ rest.flatMap TopicPage.topics ≠ [] := by
  induction h generalizing before with
  | last topics only htopics _ hlast =>
      cases before with
      | nil =>
          obtain ⟨rfl, rfl⟩ := List.cons.inj hpages
          simp [hlast]
      | cons first before =>
          have hlength := congrArg List.length hpages
          simp at hlength
  | more topics first others htopics hlength hmore hrest ih =>
      cases before with
      | nil =>
          obtain ⟨rfl, rfl⟩ := List.cons.inj hpages
          rw [hrest.flatMap, ne_eq, List.drop_eq_nil_iff, not_le]
          exact ⟨fun _ => hlength, fun _ => hmore⟩
      | cons first before =>
          obtain ⟨rfl, htail⟩ := List.cons.inj hpages
          exact ih htail

end

/-- The newest topics come first, and those of one instant in the order of their ids. -/
def TopicView.Before (topic later : TopicView) : Prop :=
  later.createdAt < topic.createdAt ∨
    (topic.createdAt = later.createdAt ∧ topic.topicId < later.topicId)

section

variable (P : Primitives) (tables : CommonsTables) (query : TopicQuery)

/-- The topic passes the filters. -/
def CommonsTables.Matches (topic : TopicView) : Prop :=
  ∃ row ∈ tables.topics, tables.topicView P row.topicId query.now = .ok topic ∧
    query.skips topic = false

/-- The pages hold the topics which pass the filters, every one once. -/
structure CommonsTables.ExactPages (pages : List TopicPage) : Prop where
  reads : ∀ row ∈ tables.topics, isOk (tables.topicView P row.topicId query.now)
  complete : ∀ topic, topic ∈ pages.flatMap TopicPage.topics ↔ tables.Matches P query topic
  once : ((pages.flatMap TopicPage.topics).map TopicView.topicId).Nodup
  ordered : (pages.flatMap TopicPage.topics).Pairwise TopicView.Before
  bounded : ∀ page ∈ pages, page.topics.length ≤ query.limit
  hasMore : ∀ before page rest, pages = before ++ page :: rest →
    (page.hasMore = true ↔ ∃ topic, tables.Matches P query topic ∧
      topic ∉ (before ++ [page]).flatMap TopicPage.topics)

/-- The cursor of every page is read back as the place of its last topic. -/
def CommonsTables.CursorsRead : Prop :=
  ∀ after page cursor, tables.forumTopics P query after = .ok page →
    page.nextCursor = some cursor → ∃ last ∈ page.topics.getLast?,
      cursor = formatTopicCursor P last.createdAt last.topicId ∧
      parseTopicCursor P cursor = .ok (last.createdAt, last.topicId)

end

section

variable {P : Primitives} {tables : CommonsTables} {query : TopicQuery}
  {pages : List TopicPage}

theorem mem_viewsAfter_start {topic : TopicView} :
    topic ∈ tables.viewsAfter P query ⟨none, "", []⟩ ↔ tables.Matches P query topic := by
  have hall : ∀ row, row ∈ tables.topicsAfter none "" ↔ row ∈ tables.topics := by
    intro row
    unfold CommonsTables.topicsAfter
    rw [List.mem_insertionSort, List.mem_filter]
    simp
  unfold CommonsTables.viewsAfter CommonsTables.Matches
  rw [List.mem_filterMap]
  simp only [hall, matching_eq_some]

theorem topicsAfter_pairwise (hdistinct : (tables.topics.map ForumTopicRow.topicId).Nodup)
    (createdAt : Option String) (topicId : String) :
    (tables.topicsAfter createdAt topicId).Pairwise fun first second =>
      first ∈ tables.topics ∧ second ∈ tables.topics ∧ first.key < second.key := by
  have hpairwise := topicsAfter_eq tables createdAt topicId ▸
    KeysetPaging.Request.following_pairwise (ForumTopicRow.keys_nodup hdistinct)
  refine hpairwise.imp_of_mem ?_
  intro first second hfirst hsecond hless
  exact ⟨mem_topicsAfter hfirst, mem_topicsAfter hsecond, hless⟩

/-- The views are in the order of their rows. -/
theorem CommonsTables.Listable.before (h : tables.Listable P) (hformats : P.FormatsMillis)
    {row later : ForumTopicRow} (hrow : row ∈ tables.topics) (hlater : later ∈ tables.topics)
    (hless : row.key < later.key) {topic other : TopicView} {now : ℤ}
    (htopic : tables.topicView P row.topicId now = .ok topic)
    (hother : tables.topicView P later.topicId now = .ok other) : topic.Before other := by
  obtain ⟨hid, s, hyear, htext, hcreated⟩ := h.view hrow htopic
  obtain ⟨hotherId, t, hotherYear, hotherText, hotherCreated⟩ := h.view hlater hother
  unfold ForumTopicRow.key at hless
  rw [Prod.Lex.toLex_lt_toLex, OrderDual.toDual_lt_toDual, OrderDual.toDual_inj, htext,
    hotherText] at hless
  unfold TopicView.Before
  rw [hid, hotherId, hcreated, hotherCreated]
  rcases hless with hearlier | ⟨hsame, hids⟩
  · exact .inl ((hformats.ordered t s hotherYear hyear).mp hearlier)
  · have hparse := P.parseRfc3339_timestamp s hyear
    rw [hsame, P.parseRfc3339_timestamp t hotherYear, Option.some.injEq] at hparse
    exact .inr ⟨hparse.symm, hids⟩

variable (query) in
theorem CommonsTables.Listable.viewsAfter_pairwise (h : tables.Listable P)
    (hformats : P.FormatsMillis) (scan : TopicScan) :
    (tables.viewsAfter P query scan).Pairwise fun topic later =>
      topic.Before later ∧ topic.topicId ≠ later.topicId := by
  have hrows := topicsAfter_pairwise h.distinct scan.createdAt scan.topicId
  refine hrows.filterMap _ ?_
  intro row later ⟨hrow, hlater, hless⟩ topic htopic other hother
  obtain ⟨htopic, -⟩ := matching_eq_some.mp htopic
  obtain ⟨hother, -⟩ := matching_eq_some.mp hother
  refine ⟨h.before hformats hrow hlater hless htopic hother, ?_⟩
  rw [(h.view hrow htopic).1, (h.view hlater hother).1]
  intro hsame
  rw [List.inj_on_of_nodup_map h.distinct hrow hlater hsame] at hless
  exact lt_irrefl _ hless

/-- Pages which hand out the topics from the start are exact. -/
theorem CommonsTables.Listable.exactPages (h : tables.Listable P) (hformats : P.FormatsMillis)
    (hpages : HandedOut query.limit (tables.viewsAfter P query ⟨none, "", []⟩) pages) :
    tables.ExactPages P query pages := by
  have hall := hpages.flatMap
  have hpairwise := h.viewsAfter_pairwise query hformats ⟨none, "", []⟩
  rw [← hall] at hpairwise
  have honce : ((pages.flatMap TopicPage.topics).map TopicView.topicId).Nodup := by
    rw [List.Nodup, List.pairwise_map]
    exact hpairwise.imp fun hboth => hboth.2
  have hcomplete : ∀ topic, topic ∈ pages.flatMap TopicPage.topics ↔
      tables.Matches P query topic := by
    intro topic
    rw [hall]
    exact mem_viewsAfter_start
  refine ⟨fun row hrow => h.shows hrow query.now, hcomplete, honce,
    hpairwise.imp fun hboth => hboth.1, hpages.length_le, ?_⟩
  intro before page rest hsplit
  rw [hpages.hasMore_iff hsplit]
  have hparts : pages.flatMap TopicPage.topics =
      (before ++ [page]).flatMap TopicPage.topics ++ rest.flatMap TopicPage.topics := by
    rw [hsplit, ← List.flatMap_append, List.append_assoc]
    rfl
  constructor
  · intro hmore
    obtain ⟨topic, htopic⟩ := List.exists_mem_of_ne_nil _ hmore
    refine ⟨topic, (hcomplete topic).mp ?_, ?_⟩
    · rw [hparts]
      exact List.mem_append_right _ htopic
    · intro hearlier
      have hnodup := honce.of_map
      rw [hparts] at hnodup
      exact List.disjoint_of_nodup_append hnodup hearlier htopic
  · rintro ⟨topic, hmatches, hnot⟩ hnil
    have hmem := (hcomplete topic).mpr hmatches
    rw [hparts, hnil, List.append_nil] at hmem
    exact hnot hmem

theorem CommonsTables.Listable.cursorsRead (h : tables.Listable P)
    (hformats : P.FormatsMillis) : tables.CursorsRead P query := by
  intro after page cursor hpage hcursor
  have hstart : isOk (topicStart P after) := by
    rw [CommonsTables.forumTopics, bind_eq_ok] at hpage
    obtain ⟨scan, hstart, -⟩ := hpage
    exact ⟨scan, hstart⟩
  obtain ⟨scan, hstart⟩ := hstart
  obtain ⟨found, hfound, htopics, -, hnext⟩ := h.page query hstart
  rw [hpage, Except.ok.injEq] at hfound
  subst hfound
  rw [hnext, Option.map_eq_some_iff] at hcursor
  obtain ⟨last, hlast, rfl⟩ := hcursor
  refine ⟨last, hlast, rfl, ?_⟩
  have hmem := List.mem_of_getLast? hlast
  rw [htopics] at hmem
  obtain ⟨row, hrow, hmatching⟩ := List.mem_filterMap.mp (List.mem_of_mem_take hmem)
  obtain ⟨htopic, -⟩ := matching_eq_some.mp hmatching
  exact (h.parseTopicCursor_format hformats (mem_topicsAfter hrow) htopic).1

/-- In every state a client that follows the cursors gets to the last page, and has then
every topic which passes the filters once. -/
theorem run_topicPages (identity : NodeIdentity P) (actions : List Action) (query : TopicQuery)
    (hformats : P.FormatsMillis) (hlimit : 1 ≤ query.limit) :
    ∃ pages,
      (NodeState.run P identity actions).db.commons.TopicTraversal P query none pages ∧
      (∀ others, (NodeState.run P identity actions).db.commons.TopicTraversal P query none
        others → others = pages) ∧
      (NodeState.run P identity actions).db.commons.ExactPages P query pages ∧
      (NodeState.run P identity actions).db.commons.CursorsRead P query := by
  have hlistable := run_listable identity actions
  obtain ⟨pages, htraversal, hhanded⟩ := hlistable.traversal query hformats hlimit
    (rfl : topicStart P none = .ok ⟨none, "", []⟩)
  exact ⟨pages, htraversal, fun others hothers => htraversal.unique hothers,
    hlistable.exactPages hformats hhanded, hlistable.cursorsRead hformats⟩

end

namespace Sample

theorem four_digit_year_truncate (t : ℤ) :
    FourDigitYear (truncateToMillis t) ↔ FourDigitYear t := by
  unfold FourDigitYear truncateToMillis nanosPerMilli
  omega

theorem calendar_formatsMillis : calendar.FormatsMillis := by
  have htext : ∀ t, FourDigitYear t → calendar.timestamp t =
      String.ofList (fill instantLayout (instantNumber t)) := by
    intro t hyear
    change instantText t = _
    rw [instantText, if_pos hyear, TextBytes.ofChars_eq]
  have hchars : ∀ t, FourDigitYear t → ∀ c ∈ chars (calendar.timestamp t), c.toNat < 124 := by
    intro t hyear c hc
    rw [htext t hyear, TextBytes.chars_eq, String.toList_ofList] at hc
    rcases mem_fill hc with hplace | hdigit
    · exact (separators_instantLayout hplace).2
    · have hupper := (Bool.and_eq_true_iff.mp hdigit).2
      rw [decide_eq_true_eq] at hupper
      have hbound : c.toNat ≤ 57 := hupper
      omega
  refine ⟨?_, ?_, ?_, ?_⟩
  · intro t
    have hnumber : instantNumber (truncateToMillis t) = instantNumber t := by
      unfold instantNumber firstInstant truncateToMillis nanosPerMilli
      omega
    change instantText (truncateToMillis t) = instantText t
    unfold instantText
    simp only [four_digit_year_truncate, hnumber]
  · intro t hyear
    unfold byteLen
    rw [length_utf8_of_ascii, htext t hyear, TextBytes.chars_eq, String.toList_ofList,
      length_fill]
    · rfl
    · intro c hc
      exact (hchars t hyear c hc).trans (by decide)
  · intro t hyear hbar
    exact absurd (hchars t hyear '|' hbar) (by decide)
  · intro s t hs ht
    rw [htext s hs, htext t ht, String.lt_iff_toList_lt, String.toList_ofList,
      String.toList_ofList, fill_lt_fill]
    have hslots : 10 ^ slots instantLayout = 10 ^ 17 := rfl
    rw [hslots, Nat.mod_eq_of_lt (instantNumber_lt hs), Nat.mod_eq_of_lt (instantNumber_lt ht)]
    have hfirst := instantNumber_cast hs
    have hsecond := instantNumber_cast ht
    unfold truncateToMillis nanosPerMilli at *
    omega

def calendarOrigin : NodeIdentity calendar := .ofSecret calendar [1]

def seconds (n : ℤ) : ℤ := n * 1000000000

/-- A delegation which ends within the first minute. -/
def shortDelegation : SessionDelegation :=
  delegation [2] [12] [.forum] 0 (seconds 50) "0123456789abcdef"

def shortProposal (slug title : String) (nonce : String) (createdAt : ℤ) : SignedContribution :=
  contribution [12] shortDelegation .topicProposal nonce [] .default createdAt
    (.object [("slug", .string slug), ("title", .string title),
      ("summary", .string "What the tides do to us."),
      ("charter", .string "Everything about the tides."), ("tags", Serde.strings ["sea"]),
      ("languages", Serde.strings ["en"])])

/-- A lineage proposes two topics, the second one three seconds after the first. -/
def twoTopicsRun : List Action :=
  atOnce (.registerLineage firstRegistration) 0 ++
    atOnce (.registerDelegation shortDelegation) 0 ++
    accept (shortProposal "tides" "Tides" "0123456789abcdef" 0) ++
    accept (shortProposal "currents" "Currents" "fedcba9876543210" (seconds 3))

instance twoTopicsRun_topics : Fact
    (((NodeState.run calendar calendarOrigin twoTopicsRun).db.commons.topics.map
      (·.createdAt)) = ["1970-01-01T00:00:00.000Z", "1970-01-01T00:00:03.000Z"]) :=
  ⟨by decide +kernel⟩

/-- Pages of one topic, with the proposed ones. -/
def oneByOne : TopicQuery := ⟨true, true, 1, 0⟩

/-- The two topics are read on pages of one topic. -/
theorem run_topicPages_twoTopics :
    (NodeState.run calendar calendarOrigin twoTopicsRun).db.commons.topics.length = 2 ∧
    ∃ pages,
      (NodeState.run calendar calendarOrigin twoTopicsRun).db.commons.TopicTraversal calendar
        oneByOne none pages ∧
      (∀ others, (NodeState.run calendar calendarOrigin twoTopicsRun).db.commons.TopicTraversal
        calendar oneByOne none others → others = pages) ∧
      (NodeState.run calendar calendarOrigin twoTopicsRun).db.commons.ExactPages calendar
        oneByOne pages ∧
      (NodeState.run calendar calendarOrigin twoTopicsRun).db.commons.CursorsRead calendar
        oneByOne := by
  have htwo := congrArg List.length twoTopicsRun_topics.out
  rw [List.length_map] at htwo
  exact ⟨htwo, run_topicPages calendarOrigin twoTopicsRun oneByOne calendar_formatsMillis
    (by decide)⟩

end Sample

end Commonwake
