import Commonwake.VolunteerForms

/-!
# The inbox of volunteer submissions

A page of the inbox checks every stored submission again: it decodes the stored texts,
verifies both signatures, recomputes the digests, and compares the columns of the row
with the lease and the receipt.  One row which fails makes the page fail.
-/

namespace Outcome

variable {ε α β : Type} {f : α → Except ε β} {first rest : List α} {results others : List β}

theorem traverse_append (hfirst : traverse f first = .ok results)
    (hrest : traverse f rest = .ok others) :
    traverse f (first ++ rest) = .ok (results ++ others) := by
  rw [traverse_eq_ok] at hfirst hrest ⊢
  rw [List.map_append, List.map_append, hfirst, hrest]

theorem traverse_take (h : traverse f first = .ok results) (n : ℕ) :
    traverse f (first.take n) = .ok (results.take n) := by
  rw [traverse_eq_ok] at h ⊢
  rw [List.map_take, h, List.map_take]

theorem traverse_drop (h : traverse f first = .ok results) (n : ℕ) :
    traverse f (first.drop n) = .ok (results.drop n) := by
  rw [traverse_eq_ok] at h ⊢
  rw [List.map_drop, h, List.map_drop]

theorem length_traverse (h : traverse f first = .ok results) :
    results.length = first.length := by
  have hlength := congrArg List.length (traverse_eq_ok.mp h)
  rw [List.length_map, List.length_map] at hlength
  exact hlength.symm

end Outcome

namespace Commonwake

open Outcome Table

/-- The status of every stored submission. -/
def volunteerStatus := "probationary"

/-- A row of `volunteer_submissions` with its number. -/
structure InboxRow where
  projectionSequence : ℤ
  row : VolunteerSubmissionRow
  deriving DecidableEq

structure VolunteerSubmissionView where
  projectionSequence : ℤ
  submissionId : String
  workId : String
  receivedAt : ℤ
  status : String
  submission : VolunteerSubmission
  receipt : VolunteerReceipt

structure VolunteerSubmissionPage where
  submissions : List VolunteerSubmissionView
  after : ℤ
  nextCursor : ℤ
  hasMore : Bool

section

variable (P : Primitives)

def verifyVolunteerReceipt (receipt : VolunteerReceipt) : Result Unit := do
  rejectIf (receipt.protocol ≠ protocolVersion)
    (.validation s!"unsupported protocol {receipt.protocol}; expected {protocolVersion}")
  validateNodeIdentity P receipt.nodeId receipt.nodePublicKey
  validatePrefixedDigest receipt.submissionId "cwvol_" "submission_id"
  validatePrefixedDigest receipt.workId "cwwork_" "work_id"
  validateDigest receipt.submissionDigest "submission_digest"
  rejectIf (receipt.status ≠ "probationary")
    (.validation "volunteer receipt status must be probationary")
  let key ← P.verifyingKeyFromB64 receipt.nodePublicKey
  P.verifyObject key volunteerReceiptDomain (receipt.toJson P) receipt.signature

/-- One row of `volunteer_submission_page`. -/
def volunteerSubmissionView (stored : InboxRow) : Result VolunteerSubmissionView := do
  let row := stored.row
  let submission ← okOr ((P.parse row.submissionJson).bind (VolunteerSubmission.ofJson P)) .json
  let receipt ← okOr ((P.parse row.receiptJson).bind (VolunteerReceipt.ofJson P)) .json
  verifyVolunteerLease P submission.lease
  verifyVolunteerReceipt P receipt
  rejectIf (submission.task.workId ≠ submission.lease.workId ∨
      taskDigest P submission.task ≠ submission.lease.taskDigest ∨
      volunteerSafeWorkKind submission.task.kind = false)
    (.internal s!"stored volunteer submission {row.submissionId} has a task outside its signed lease")
  let canonical := utf8 (P.jcs (submission.toJson P))
  let digest := P.sha256Hex canonical
  let submissionId := P.prefixedId "cwvol_" canonical
  let storedReceivedAt ← P.parseTimestamp row.receivedAt
  rejectIf (row.submissionId ≠ submissionId ∨
      row.workId ≠ submission.lease.workId ∨
      row.submissionDigest ≠ digest ∨
      receipt.submissionId ≠ row.submissionId ∨
      receipt.workId ≠ row.workId ∨
      receipt.submissionDigest ≠ row.submissionDigest ∨
      receipt.status ≠ volunteerStatus ∨
      receipt.nodeId ≠ submission.lease.nodeId ∨
      receipt.nodePublicKey ≠ submission.lease.nodePublicKey ∨
      row.receivedAt ≠ P.timestamp receipt.receivedAt)
    (.internal s!"stored volunteer submission {row.submissionId} does not match its receipt or index")
  pure ⟨stored.projectionSequence, row.submissionId, row.workId, storedReceivedAt,
    volunteerStatus, submission, receipt⟩

/-- The rows behind a cursor, in the order of their numbers. -/
def inboxAfter (after : ℤ) (rows : List InboxRow) : List InboxRow :=
  (rows.filter fun row => after < row.projectionSequence).insertionSort
    fun a b => a.projectionSequence ≤ b.projectionSequence

/-- `LIMIT`, which a negative number switches off. -/
def limitRows (limit : ℤ) (rows : List InboxRow) : List InboxRow :=
  if limit < 0 then rows else rows.take limit.toNat

/-- `(limit + 1) as i64`, with the addition of a release build. -/
def sqlLimit (limit : ℕ) : ℤ := Int.bmod (limit + 1) (2 ^ 64)

def volunteerSubmissionPage (after : ℤ) (limit : ℕ) (rows : List InboxRow) :
    Result VolunteerSubmissionPage := do
  rejectIf (after < 0) (.validation "volunteer submission cursor cannot be negative")
  let submissions ← Outcome.traverse (volunteerSubmissionView P)
    (limitRows (sqlLimit limit) (inboxAfter after rows))
  let shown := submissions.take limit
  let nextCursor := (shown.getLast?.map (·.projectionSequence)).getD after
  pure ⟨shown, after, nextCursor, decide (limit < submissions.length)⟩

/-- `limit.clamp(1, 100)`. -/
def clampLimit (limit : ℕ) : ℕ := min (max limit 1) 100

/-- The route `/v1/volunteer/results`. -/
def volunteerResults (after : ℤ) (limit : ℕ) (rows : List InboxRow) :
    Result VolunteerSubmissionPage :=
  volunteerSubmissionPage P after (clampLimit limit) rows

end

/-! ## Reviewed submissions -/

section

variable {P : Primitives} {identity : NodeIdentity P} {parse : String → Option HostUrl}

/-- A submission which passed the review, with the receipt which the node signed. -/
structure Reviewed (identity : NodeIdentity P) (submission : VolunteerSubmission)
    (receipt : VolunteerReceipt) : Prop where
  lease : verifyVolunteerLease P submission.lease = .ok ()
  nodeId : submission.lease.nodeId = identity.nodeId
  nodePublicKey : submission.lease.nodePublicKey = identity.publicKey
  workId : submission.task.workId = submission.lease.workId
  digest : taskDigest P submission.task = submission.lease.taskDigest
  safe : volunteerSafeWorkKind submission.task.kind = true
  inTime : receipt.receivedAt ≤ submission.lease.expiresAt
  receipt : receipt = { unsignedVolunteerReceipt P identity submission receipt.receivedAt with
    signature := P.signObject identity.secret volunteerReceiptDomain
      ((unsignedVolunteerReceipt P identity submission receipt.receivedAt).toJson P) }

theorem reviewed_of_reviewVolunteerSubmission {instructions : String → String}
    {submission : VolunteerSubmission} {receivedAt : ℤ} {items : List WorkItemRow}
    {receipt : VolunteerReceipt}
    (h : reviewVolunteerSubmission P parse identity instructions submission receivedAt items =
      .ok receipt) : Reviewed identity submission receipt ∧ receipt.receivedAt = receivedAt := by
  simp only [reviewVolunteerSubmission, validateSubmission, bind_eq_ok, liftNode_eq_ok,
    rejectIf_eq_ok, pure_eq_ok, Except.ok.injEq, not_or, not_not, not_lt,
    Bool.not_eq_false] at h
  obtain ⟨⟨⟩, ⟨⟨⟩, hlease, ⟨⟩, ⟨hwork, hdigest⟩, ⟨⟩, hsafe, ⟨⟩, -, ⟨⟩, htime, -⟩, ⟨⟩,
    ⟨hnode, hkey⟩, current, -, ⟨⟩, -, ⟨⟩, -, rfl⟩ := h
  exact ⟨⟨hlease, hnode, hkey, hwork, hdigest, hsafe, htime, rfl⟩, rfl⟩

/-! ## What the review keeps checkable -/

theorem validateNodeIdentity_identity :
    validateNodeIdentity P identity.nodeId identity.publicKey = .ok () := by
  unfold validateNodeIdentity
  rw [identity.publicKey_eq, P.verifyingKeyFromB64_publicKey, ok_bind, rejectIf_of_not]
  exact not_not.mpr identity.nodeId_eq

theorem validateDigest_sha256Hex (bytes : Bytes) (label : String) :
    validateDigest (P.sha256Hex bytes) label = .ok () := by
  unfold validateDigest
  rw [rejectIf_of_not]
  rw [isSha256Hex_sha256Hex]
  decide

theorem validatePrefixedDigest_prefixedId (tag : String) (bytes : Bytes) (label : String) :
    validatePrefixedDigest (P.prefixedId tag bytes) tag label = .ok () := by
  unfold validatePrefixedDigest Primitives.prefixedId
  rw [stripTag_append, okOr_some, ok_bind, validateDigest_sha256Hex]

theorem validatePrefixedDigest_of_verifyVolunteerLease {lease : VolunteerLease}
    (h : verifyVolunteerLease P lease = .ok ()) :
    validatePrefixedDigest lease.workId "cwwork_" "work_id" = .ok () := by
  simp only [verifyVolunteerLease, bind_eq_ok] at h
  obtain ⟨⟨⟩, -, ⟨⟩, -, ⟨⟩, hwork, -⟩ := h
  exact hwork

namespace Reviewed

variable {submission : VolunteerSubmission} {receipt : VolunteerReceipt}

theorem submissionId_eq (h : Reviewed identity submission receipt) :
    receipt.submissionId = P.prefixedId "cwvol_" (utf8 (P.jcs (submission.toJson P))) := by
  rw [h.receipt]
  rfl

theorem submissionDigest_eq (h : Reviewed identity submission receipt) :
    receipt.submissionDigest = P.sha256Hex (utf8 (P.jcs (submission.toJson P))) := by
  rw [h.receipt]
  rfl

theorem workId_eq (h : Reviewed identity submission receipt) :
    receipt.workId = submission.lease.workId := by
  rw [h.receipt]
  rfl

/-- The receipt which the node signs passes its own check. -/
theorem verifyReceipt (h : Reviewed identity submission receipt) :
    verifyVolunteerReceipt P receipt = .ok () := by
  have hwork := validatePrefixedDigest_of_verifyVolunteerLease h.lease
  have hkey : P.verifyingKeyFromB64 identity.publicKey = .ok (P.publicKey identity.secret) := by
    rw [identity.publicKey_eq, P.verifyingKeyFromB64_publicKey]
  have hsignature := P.verifyObject_signObject identity.secret volunteerReceiptDomain
    ((unsignedVolunteerReceipt P identity submission receipt.receivedAt).toJson P)
  unfold verifyVolunteerReceipt
  rw [h.receipt]
  simp only [unsignedVolunteerReceipt, ne_eq, not_true_eq_false, not_false_eq_true,
    rejectIf_of_not, ok_bind, validateNodeIdentity_identity, validatePrefixedDigest_prefixedId,
    hwork, validateDigest_sha256Hex, hkey]
  exact hsignature

/-- A stored submission passes every check but the one of its instant. -/
theorem view_eq (h : Reviewed identity submission receipt) (sequence : ℤ) :
    volunteerSubmissionView P ⟨sequence, volunteerSubmissionRow P submission receipt⟩ = (do
      let receivedAt ← P.parseTimestamp (P.timestamp receipt.receivedAt)
      pure ⟨sequence, receipt.submissionId, receipt.workId, receivedAt, volunteerStatus,
        submission.canonical P, receipt⟩) := by
  have hnode : receipt.nodeId = submission.lease.nodeId := by
    rw [h.nodeId, h.receipt]
    rfl
  have hpublic : receipt.nodePublicKey = submission.lease.nodePublicKey := by
    rw [h.nodePublicKey, h.receipt]
    rfl
  have hstatus : receipt.status = volunteerStatus := by
    rw [h.receipt]
    rfl
  have hlease : verifyVolunteerLease P (submission.canonical P).lease = .ok () := h.lease
  have htask : ¬((submission.canonical P).task.workId ≠ (submission.canonical P).lease.workId ∨
      taskDigest P (submission.canonical P).task ≠ (submission.canonical P).lease.taskDigest ∨
      volunteerSafeWorkKind (submission.canonical P).task.kind = false) := by
    simp [h.workId, h.digest, h.safe]
  unfold volunteerSubmissionView volunteerSubmissionRow
  simp only [VolunteerSubmission.parse_jcs, VolunteerReceipt.parse_jcs, okOr_some, ok_bind,
    hlease, h.verifyReceipt, rejectIf_of_not htask]
  cases P.parseTimestamp (P.timestamp receipt.receivedAt) with
  | error error => rfl
  | ok receivedAt =>
      simp only [ok_bind]
      rw [rejectIf_of_not, ok_bind]
      simp [h.submissionId_eq, h.submissionDigest_eq, h.workId_eq, hstatus, hnode, hpublic]

end Reviewed

/-! ## What a page establishes -/

/-- The row and its texts agree, and both signatures hold. -/
structure Reverified (P : Primitives) (stored : InboxRow) (view : VolunteerSubmissionView) :
    Prop where
  submission : (P.parse stored.row.submissionJson).bind (VolunteerSubmission.ofJson P) =
    some view.submission
  receipt : (P.parse stored.row.receiptJson).bind (VolunteerReceipt.ofJson P) =
    some view.receipt
  lease : verifyVolunteerLease P view.submission.lease = .ok ()
  signed : verifyVolunteerReceipt P view.receipt = .ok ()
  task : taskDigest P view.submission.task = view.submission.lease.taskDigest
  submissionId : stored.row.submissionId =
    P.prefixedId "cwvol_" (utf8 (P.jcs (view.submission.toJson P)))
  submissionDigest : stored.row.submissionDigest =
    P.sha256Hex (utf8 (P.jcs (view.submission.toJson P)))
  fields : view.receipt.submissionId = stored.row.submissionId ∧
    view.receipt.workId = stored.row.workId ∧
    view.receipt.submissionDigest = stored.row.submissionDigest ∧
    view.receipt.nodeId = view.submission.lease.nodeId
  receivedAt : P.parseTimestamp stored.row.receivedAt = .ok view.receivedAt ∧
    stored.row.receivedAt = P.timestamp view.receipt.receivedAt
  sequence : view.projectionSequence = stored.projectionSequence

theorem reverified_of_view {stored : InboxRow} {view : VolunteerSubmissionView}
    (h : volunteerSubmissionView P stored = .ok view) : Reverified P stored view := by
  simp only [volunteerSubmissionView, bind_eq_ok, okOr_eq_ok, rejectIf_eq_ok, pure_eq_ok,
    Except.ok.injEq, not_or, not_not] at h
  obtain ⟨submission, hsubmission, receipt, hreceipt, ⟨⟩, hlease, ⟨⟩, hsigned, ⟨⟩,
    ⟨-, htask, -⟩, receivedAt, hparse, ⟨⟩, ⟨hid, -, hdigest, hreceiptId, hreceiptWork,
    hreceiptDigest, -, hnode, -, htext⟩, rfl⟩ := h
  exact ⟨hsubmission, hreceipt, hlease, hsigned, htask, hid, hdigest,
    ⟨hreceiptId, hreceiptWork, hreceiptDigest, hnode⟩, ⟨hparse, htext⟩, rfl⟩

/-! ## Pages -/

variable {after : ℤ} {limit : ℕ} {rows first rest : List InboxRow}

theorem mem_of_mem_limitRows {limit : ℤ} {stored : InboxRow} (h : stored ∈ limitRows limit rows) :
    stored ∈ rows := by
  unfold limitRows at h
  split at h
  · exact h
  · exact List.mem_of_mem_take h

theorem mem_of_mem_inboxAfter {stored : InboxRow} (h : stored ∈ inboxAfter after rows) :
    stored ∈ rows := by
  unfold inboxAfter at h
  rw [List.mem_insertionSort] at h
  exact List.mem_of_mem_filter h

/-- A page succeeds when every row can be shown. -/
theorem isOk_volunteerSubmissionPage (h : ∀ stored ∈ rows, isOk (volunteerSubmissionView P stored))
    (hafter : 0 ≤ after) (limit : ℕ) : isOk (volunteerSubmissionPage P after limit rows) := by
  have hrows : isOk (Outcome.traverse (volunteerSubmissionView P)
      (limitRows (sqlLimit limit) (inboxAfter after rows))) := by
    rw [isOk_traverse]
    intro stored hstored
    exact h stored (mem_of_mem_inboxAfter (mem_of_mem_limitRows hstored))
  obtain ⟨submissions, hsubmissions⟩ := hrows
  unfold volunteerSubmissionPage
  rw [rejectIf_of_not (by omega), ok_bind, hsubmissions, ok_bind]
  exact isOk_ok _

/-- The numbers are those of an `AUTOINCREMENT` column. -/
structure InboxNumbered (rows : List InboxRow) : Prop where
  ascending : rows.Pairwise fun a b => a.projectionSequence < b.projectionSequence
  positive : ∀ stored ∈ rows, 0 < stored.projectionSequence

/-- Where the rows are numbered in order, those behind a cursor are a suffix. -/
theorem inboxAfter_append
    (hnumbered : InboxNumbered (first ++ rest))
    (hfirst : ∀ stored ∈ first, stored.projectionSequence ≤ after)
    (hrest : ∀ stored ∈ rest, after < stored.projectionSequence) :
    inboxAfter after (first ++ rest) = rest := by
  have hseen : first.filter (fun stored => after < stored.projectionSequence) = [] := by
    rw [List.filter_eq_nil_iff]
    intro stored hstored
    have hle := hfirst stored hstored
    rw [decide_eq_true_eq]
    omega
  have hbehind : rest.filter (fun stored => after < stored.projectionSequence) = rest := by
    rw [List.filter_eq_self]
    intro stored hstored
    exact decide_eq_true (hrest stored hstored)
  unfold inboxAfter
  rw [List.filter_append, hseen, hbehind, List.nil_append]
  apply List.Pairwise.insertionSort_eq
  exact (List.pairwise_append.mp hnumbered.ascending).2.1.imp fun hlt => hlt.le

theorem sqlLimit_clampLimit (limit : ℕ) : sqlLimit (clampLimit limit) = clampLimit limit + 1 := by
  have hbound : clampLimit limit ≤ 100 := Nat.min_le_right _ _
  unfold sqlLimit
  rw [Int.bmod_eq_of_le] <;> omega

theorem clampLimit_pos (limit : ℕ) : 0 < clampLimit limit := by
  unfold clampLimit
  omega

/-- The last number of the rows, or the cursor before them. -/
def lastNumber (after : ℤ) (rows : List InboxRow) : ℤ :=
  (rows.getLast?.map (·.projectionSequence)).getD after

theorem lastNumber_append (after : ℤ) (first rest : List InboxRow) :
    lastNumber after (first ++ rest) = lastNumber (lastNumber after first) rest := by
  unfold lastNumber
  rcases List.eq_nil_or_concat' rest with rfl | ⟨before, last, rfl⟩
  · rw [List.append_nil, List.getLast?_nil, Option.map_none, Option.getD_none]
  · simp

/-- The last number parts the rows from those behind them. -/
theorem lastNumber_separates (hnumbered : InboxNumbered (first ++ rest)) :
    (∀ stored ∈ first, stored.projectionSequence ≤ lastNumber 0 first) ∧
      (∀ stored ∈ rest, lastNumber 0 first < stored.projectionSequence) ∧
      0 ≤ lastNumber 0 first := by
  rcases List.eq_nil_or_concat' first with rfl | ⟨before, last, rfl⟩
  · refine ⟨fun stored hstored => absurd hstored List.not_mem_nil, ?_, le_refl 0⟩
    intro stored hstored
    exact hnumbered.positive stored hstored
  · have hlast : lastNumber 0 (before ++ [last]) = last.projectionSequence := by
      simp [lastNumber]
    obtain ⟨hfirst, -, hrest⟩ := List.pairwise_append.mp hnumbered.ascending
    rw [hlast]
    refine ⟨?_, ?_, ?_⟩
    · intro stored hstored
      rcases List.mem_append.mp hstored with hbefore | hsingle
      · exact ((List.pairwise_append.mp hfirst).2.2 stored hbefore last
          (List.mem_singleton_self _)).le
      · rw [List.mem_singleton.mp hsingle]
    · intro stored hstored
      exact hrest last (List.mem_append_right _ (List.mem_singleton_self _)) stored hstored
    · have hmem : last ∈ before ++ [last] ++ rest :=
        List.mem_append_left _ (List.mem_append_right _ (List.mem_singleton_self _))
      exact (hnumbered.positive last hmem).le

/-- The cursor of a page is the number of its last row. -/
theorem nextCursor_eq (after : ℤ) {views : List VolunteerSubmissionView}
    (h : Outcome.traverse (volunteerSubmissionView P) rows = .ok views) :
    (views.getLast?.map (·.projectionSequence)).getD after = lastNumber after rows := by
  have hnumbers : views.map (·.projectionSequence) = rows.map (·.projectionSequence) :=
    map_traverse (fun _ _ hview => (reverified_of_view hview).sequence) h
  unfold lastNumber
  rw [← List.getLast?_map, hnumbers, List.getLast?_map]

/-! ## A client which follows the cursor -/

/-- The cursor of the last page, and everything which was on the pages. -/
structure InboxReader where
  cursor : ℤ
  shown : List VolunteerSubmissionView

/-- One request of the client. -/
def InboxReader.read (P : Primitives) (limit : ℕ) (rows : List InboxRow) (reader : InboxReader) :
    InboxReader :=
  match volunteerResults P reader.cursor limit rows with
  | .ok page => ⟨page.nextCursor, reader.shown ++ page.submissions⟩
  | .error _ => reader

/-- The client has seen exactly these rows. -/
structure InboxReader.Seen (P : Primitives) (reader : InboxReader) (first : List InboxRow) :
    Prop where
  shown : Outcome.traverse (volunteerSubmissionView P) first = .ok reader.shown
  cursor : reader.cursor = lastNumber 0 first

variable {reader : InboxReader}

/-- What the client gets next. -/
theorem InboxReader.Seen.volunteerResults_eq (h : reader.Seen P first)
    (hnumbered : InboxNumbered (first ++ rest)) (limit : ℕ) :
    volunteerResults P reader.cursor limit (first ++ rest) = (do
      let submissions ← Outcome.traverse (volunteerSubmissionView P)
        (rest.take (clampLimit limit + 1))
      let shown := submissions.take (clampLimit limit)
      pure ⟨shown, reader.cursor, (shown.getLast?.map (·.projectionSequence)).getD reader.cursor,
        decide (clampLimit limit < submissions.length)⟩) := by
  obtain ⟨hfirst, hrest, hnonneg⟩ := lastNumber_separates hnumbered
  rw [← h.cursor] at hfirst hrest hnonneg
  have hlimit : limitRows (sqlLimit (clampLimit limit)) rest =
      rest.take (clampLimit limit + 1) := by
    unfold limitRows
    rw [sqlLimit_clampLimit, if_neg (by omega)]
    congr 1
  unfold volunteerResults volunteerSubmissionPage
  rw [rejectIf_of_not (by omega), ok_bind, inboxAfter_append hnumbered hfirst hrest, hlimit]

/-- The client moves over the rows of the page, or the page fails. -/
theorem InboxReader.Seen.read (h : reader.Seen P first) (hnumbered : InboxNumbered (first ++ rest))
    (limit : ℕ) :
    reader.read P limit (first ++ rest) = reader ∨
      (reader.read P limit (first ++ rest)).Seen P (first ++ rest.take (clampLimit limit)) := by
  unfold InboxReader.read
  rw [h.volunteerResults_eq hnumbered limit]
  cases hviews : Outcome.traverse (volunteerSubmissionView P)
      (rest.take (clampLimit limit + 1)) with
  | error error => exact .inl rfl
  | ok views =>
      have htaken := traverse_take hviews (clampLimit limit)
      rw [List.take_take, Nat.min_eq_left (Nat.le_succ _)] at htaken
      have hcursor := nextCursor_eq reader.cursor htaken
      simp only [ok_bind, pure_eq_ok, hcursor]
      refine .inr ⟨traverse_append h.shown htaken, ?_⟩
      rw [lastNumber_append, ← h.cursor]

/-- The pages show every row once, in order: the client has seen the first rows, the next page
shows those behind them, and it is the last one when it shows all that are left. -/
def InboxReader.Exact (P : Primitives) (reader : InboxReader) (rows : List InboxRow) : Prop :=
  ∃ views, Outcome.traverse (volunteerSubmissionView P) rows = .ok views ∧
    reader.shown <+: views ∧
    ∀ limit, ∃ page, volunteerResults P reader.cursor limit rows = .ok page ∧
      reader.shown ++ page.submissions =
        views.take (reader.shown.length + clampLimit limit) ∧
      (page.hasMore = false ↔ reader.shown ++ page.submissions = views)

theorem InboxReader.Seen.exact (h : reader.Seen P first) (hnumbered : InboxNumbered (first ++ rest))
    (hreadable : ∀ stored ∈ first ++ rest, isOk (volunteerSubmissionView P stored)) :
    reader.Exact P (first ++ rest) := by
  obtain ⟨views, hviews⟩ := isOk_traverse.mpr hreadable
  have hshown : reader.shown = views.take first.length := by
    have htaken := traverse_take hviews first.length
    rw [List.take_left, h.shown, Except.ok.injEq] at htaken
    exact htaken
  have hothers : Outcome.traverse (volunteerSubmissionView P) rest =
      .ok (views.drop first.length) := by
    have hdropped := traverse_drop hviews first.length
    rwa [List.drop_left] at hdropped
  have hlength := length_traverse h.shown
  have hsplit : views = reader.shown ++ views.drop first.length := by
    rw [hshown, List.take_append_drop]
  refine ⟨views, hviews, ⟨_, hsplit.symm⟩, ?_⟩
  intro limit
  have hpage := h.volunteerResults_eq hnumbered limit
  rw [traverse_take hothers, ok_bind] at hpage
  refine ⟨_, hpage, ?_, ?_⟩
  · dsimp only
    rw [List.take_take, Nat.min_eq_left (Nat.le_succ _), hlength, List.take_add, ← hshown]
  · dsimp only
    generalize views.drop first.length = others at hsplit ⊢
    rw [List.take_take, Nat.min_eq_left (Nat.le_succ _), decide_eq_false_iff_not,
      List.length_take, hsplit, List.append_cancel_left_eq, List.take_eq_self_iff]
    omega

end

end Commonwake
