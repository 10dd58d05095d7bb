import Commonwake.VolunteerInbox
import Commonwake.WorkPaging

/-!
# The volunteer gateway

The node hands out tasks under signed leases, reviews what volunteers return, and stores
each reviewed submission in an access of its own.  Meanwhile the work list changes, other
submissions arrive, and a client reads the inbox page by page.
-/

namespace Commonwake

open Outcome Table

/-- What a volunteer is given for a task.  The guidance, whose texts are fixed, is left
out. -/
structure VolunteerTaskPacket where
  protocol : String
  nodeId : String
  nodePublicKey : String
  work : VolunteerTaskSpec
  lease : VolunteerLease

/-! ## Issuing a task -/

def validateVolunteerTaskFilters (kind workId : Option String) : EdgeResult Unit := do
  rejectIf (presentAnd (fun kind => !volunteerSafeWorkKind kind) kind = true)
    (.forbidden "the requested work kind is not available to anonymous volunteer workers")
  match workId with
  | some workId => liftNode (validatePrefixedDigest workId "cwwork_" "work_id")
  | none => pure ()

def submissionCount (rows : List InboxRow) (workId : String) : ℕ :=
  rows.countP fun stored => stored.row.workId == workId

/-- The order of `volunteer_task_candidate`: the items with the fewest submissions come
first. -/
def WorkItemRow.OfferedBefore (rows : List InboxRow) (item later : WorkItemRow) : Prop :=
  submissionCount rows item.workId < submissionCount rows later.workId ∨
    (submissionCount rows item.workId = submissionCount rows later.workId ∧
      item.Precedes later)

instance (rows : List InboxRow) : DecidableRel (WorkItemRow.OfferedBefore rows) :=
  fun _ _ => inferInstanceAs (Decidable (_ ∨ (_ ∧ _)))

def volunteerTaskCandidate (kind workId : Option String) (items : List WorkItemRow)
    (rows : List InboxRow) : Option WorkItemRow :=
  ((items.filter fun item =>
    item.status == .isOpen && volunteerSafeWorkKind item.kind && kind.all (· == item.kind) &&
      workId.all (· == item.workId)).insertionSort (WorkItemRow.OfferedBefore rows)).head?

section

variable (P : Primitives) (identity : NodeIdentity P) (parse : String → Option HostUrl)

/-- The packet of a task.  `random` is what `random_32` returned. -/
def volunteerTaskPacket (task : VolunteerTaskSpec) (random : Bytes) (issuedAt : ℤ) :
    VolunteerTaskPacket :=
  let lease : VolunteerLease := ⟨protocolVersion, identity.nodeId, identity.publicKey,
    task.workId, taskDigest P task, P.encodeBase64 random, issuedAt, issuedAt + minutes 30, ""⟩
  ⟨protocolVersion, identity.nodeId, identity.publicKey, task,
    { lease with
      signature := P.signObject identity.secret volunteerLeaseDomain (lease.toJson P) }⟩

/-- `issue_volunteer_task_filtered_at`. -/
def issueVolunteerTask (instructions : String → String) (items : List WorkItemRow)
    (rows : List InboxRow) (kind workId : Option String) (random : Bytes) (issuedAt : ℤ) :
    EdgeResult VolunteerTaskPacket := do
  validateVolunteerTaskFilters kind workId
  let work ← okOr (volunteerTaskCandidate kind workId items rows)
    (.node (.notFound "no volunteer-safe open work matches the requested filter"))
  let task := VolunteerTaskSpec.ofWork work (instructions work.workId)
  pure (volunteerTaskPacket P identity task random issuedAt)

/-! ## The gateway -/

/-- The work list, the packets which were handed out, the submissions which were reviewed
and not stored yet, the inbox with the last number it gave, and a client of it. -/
structure VolunteerGateway where
  items : List WorkItemRow
  instructions : String → String
  issued : List VolunteerTaskPacket
  reviewed : List (VolunteerSubmission × VolunteerReceipt)
  rows : List InboxRow
  lastSequence : ℕ
  reader : InboxReader

def VolunteerGateway.empty : VolunteerGateway :=
  ⟨[], fun _ => "", [], [], [], 0, ⟨0, []⟩⟩

/-- `accept_volunteer_submission_at` is a review, which reads the work list, and a store.
Numbers may be skipped, and the work list is whatever the rest of the node makes of it. -/
inductive GatewayAction
  | issue (kind workId : Option String) (random : Bytes) (issuedAt : ℤ)
  | review (submission : VolunteerSubmission) (receivedAt : ℤ)
  | store (index skipped : ℕ)
  | changeWork (items : List WorkItemRow) (instructions : String → String)
  | read (limit : ℕ)

namespace VolunteerGateway

variable (gateway : VolunteerGateway)

def issue (kind workId : Option String) (random : Bytes) (issuedAt : ℤ) : VolunteerGateway :=
  match issueVolunteerTask P identity gateway.instructions gateway.items gateway.rows kind
      workId random issuedAt with
  | .ok packet => { gateway with issued := gateway.issued ++ [packet] }
  | .error _ => gateway

def review (submission : VolunteerSubmission) (receivedAt : ℤ) : VolunteerGateway :=
  match reviewVolunteerSubmission P parse identity gateway.instructions submission receivedAt
      gateway.items with
  | .ok receipt => { gateway with reviewed := gateway.reviewed ++ [(submission, receipt)] }
  | .error _ => gateway

/-- The new row of the inbox, when the insert is not ignored. -/
def stores (index skipped : ℕ) : Option InboxRow := do
  let (submission, receipt) ← gateway.reviewed[index]?
  match storeVolunteerSubmission P submission receipt (gateway.rows.map (·.row)) with
  | .ok _ => some ⟨gateway.lastSequence + 1 + skipped, volunteerSubmissionRow P submission receipt⟩
  | .error _ => none

def store (index skipped : ℕ) : VolunteerGateway :=
  match gateway.stores P index skipped with
  | some stored =>
      { gateway with
        reviewed := gateway.reviewed.eraseIdx index
        rows := gateway.rows ++ [stored]
        lastSequence := gateway.lastSequence + 1 + skipped }
  | none => { gateway with reviewed := gateway.reviewed.eraseIdx index }

def step : GatewayAction → VolunteerGateway
  | .issue kind workId random issuedAt =>
      gateway.issue P identity kind workId random issuedAt
  | .review submission receivedAt => gateway.review P identity parse submission receivedAt
  | .store index skipped => gateway.store P index skipped
  | .changeWork items instructions =>
      { gateway with items := items, instructions := instructions }
  | .read limit => { gateway with reader := gateway.reader.read P limit gateway.rows }

def run (actions : List GatewayAction) : VolunteerGateway :=
  actions.foldl (fun gateway action => gateway.step P identity parse action) gateway

/-- The property holds of every action and the state before it. -/
def AtEachStep (property : VolunteerGateway → GatewayAction → Prop) :
    VolunteerGateway → List GatewayAction → Prop
  | _, [] => True
  | gateway, action :: rest =>
      property gateway action ∧
        AtEachStep property (gateway.step P identity parse action) rest

end VolunteerGateway

end

/-! ## What the node key signs -/

section

variable (P : Primitives) (identity : NodeIdentity P) (parse : String → Option HostUrl)

/-- The messages of the node key: the leases which were handed out, objects of the other
types, and the hashes of events. -/
inductive VolunteerGateway.Signed (gateway : VolunteerGateway) : Bytes → Prop
  | lease (packet : VolunteerTaskPacket) (hissued : packet ∈ gateway.issued) :
      Signed gateway (packet.lease.preimage P)
  | object (object : NodeSigned) (hother : ∀ lease, object ≠ .volunteerLease lease) :
      Signed gateway (object.preimage P)
  | hash (hash : Bytes) (hlength : hash.length = 32) : Signed gateway hash

/-- Ed25519: a signature on a returned lease which verifies was made by the node. -/
def VolunteerGateway.Authentic (gateway : VolunteerGateway) : GatewayAction → Prop
  | .review submission _ => ∀ signature,
      P.signatureFromB64 submission.lease.signature = .ok signature →
      P.verify (P.publicKey identity.secret) (submission.lease.preimage P) signature = true →
      gateway.Signed P (submission.lease.preimage P)
  | _ => True

/-- The tasks which an action brings: the one a volunteer returns, or those of the work
list. -/
def GatewayAction.tasks : GatewayAction → List VolunteerTaskSpec
  | .review submission _ => [submission.task]
  | .changeWork items instructions =>
      items.map fun item => VolunteerTaskSpec.ofWork item (instructions item.workId)
  | _ => []

/-- The assumptions on the libraries in a run. -/
structure HonestGateway (actions : List GatewayAction) : Prop where
  unforgeable : VolunteerGateway.AtEachStep P identity parse
    (VolunteerGateway.Authentic P identity) .empty actions
  /-- SHA-256: the tasks of the run do not collide. -/
  collisionFree : Set.InjOn P.sha256
    {bytes | ∃ action ∈ actions, ∃ task ∈ action.tasks, bytes = task.digestInput P}

/-- The lease of the submission was handed out, up to the text of its signature, with
exactly its task. -/
def VolunteerGateway.Leased (gateway : VolunteerGateway) (submission : VolunteerSubmission) :
    Prop :=
  ∃ packet ∈ gateway.issued,
    submission.lease = { packet.lease with signature := submission.lease.signature } ∧
      submission.task = packet.work

/-! ## The inbox of a run -/

/-- The inbox is sound, and every page of it can be shown. -/
structure VolunteerGateway.Integrity (gateway : VolunteerGateway) : Prop where
  /-- A lease is used once, and a submission is stored once. -/
  leases : (gateway.rows.map (·.row.leaseNonce)).Nodup
  submissions : (gateway.rows.map (·.row.submissionId)).Nodup
  leased : ∀ stored ∈ gateway.rows, ∃ submission receipt,
    (P.parse stored.row.submissionJson).bind (VolunteerSubmission.ofJson P) = some submission ∧
      (P.parse stored.row.receiptJson).bind (VolunteerReceipt.ofJson P) = some receipt ∧
      stored.row.leaseNonce = submission.lease.nonce ∧
      gateway.Leased submission ∧ receipt.receivedAt ≤ submission.lease.expiresAt
  pages : ∀ after limit, 0 ≤ after → isOk (volunteerSubmissionPage P after limit gateway.rows)
  reverified : ∀ stored ∈ gateway.rows, ∃ view,
    volunteerSubmissionView P stored = .ok view ∧ Reverified P stored view
  paging : gateway.reader.Exact P gateway.rows

/-- A submission which the action stores was received in a year of four digits. -/
def VolunteerGateway.Dated (gateway : VolunteerGateway) : GatewayAction → Prop
  | .store index _ => ∀ submission receipt,
      gateway.reviewed[index]? = some (submission, receipt) →
      isOk (storeVolunteerSubmission P submission receipt (gateway.rows.map (·.row))) →
      FourDigitYear receipt.receivedAt
  | _ => True

end

section

variable {P : Primitives} {identity : NodeIdentity P} {parse : String → Option HostUrl}
  {gateway : VolunteerGateway} {texts : Set Bytes}

/-- What holds in every state: the reviewed and the stored submissions answer packets of
the node, the inbox is numbered, and the client has seen a part of it. -/
structure VolunteerGateway.Sound (identity : NodeIdentity P) (texts : Set Bytes)
    (gateway : VolunteerGateway) : Prop where
  tasks : ∀ item ∈ gateway.items,
    (VolunteerTaskSpec.ofWork item (gateway.instructions item.workId)).digestInput P ∈ texts
  issued : ∀ packet ∈ gateway.issued, packet.work.digestInput P ∈ texts ∧
    packet.lease.taskDigest = taskDigest P packet.work
  reviewed : ∀ entry ∈ gateway.reviewed,
    Reviewed identity entry.1 entry.2 ∧ gateway.Leased entry.1
  stored : ∀ stored ∈ gateway.rows, ∃ submission receipt,
    Reviewed identity submission receipt ∧ gateway.Leased submission ∧
      stored.row = volunteerSubmissionRow P submission receipt
  leases : (gateway.rows.map (·.row.leaseNonce)).Nodup
  submissions : (gateway.rows.map (·.row.submissionId)).Nodup
  numbered : InboxNumbered gateway.rows
  bounded : ∀ stored ∈ gateway.rows, stored.projectionSequence ≤ gateway.lastSequence
  reader : ∃ first rest, gateway.rows = first ++ rest ∧ gateway.reader.Seen P first

theorem VolunteerGateway.sound_empty : VolunteerGateway.empty.Sound identity texts where
  tasks := fun _ hitem => absurd hitem List.not_mem_nil
  issued := fun _ hpacket => absurd hpacket List.not_mem_nil
  reviewed := fun _ hentry => absurd hentry List.not_mem_nil
  stored := fun _ hstored => absurd hstored List.not_mem_nil
  leases := List.nodup_nil
  submissions := List.nodup_nil
  numbered := ⟨.nil, fun _ hstored => absurd hstored List.not_mem_nil⟩
  bounded := fun _ hstored => absurd hstored List.not_mem_nil
  reader := ⟨[], [], rfl, rfl, rfl⟩

/-! ## Leases of the node -/

theorem verify_of_verifyVolunteerLease {lease : VolunteerLease}
    (h : verifyVolunteerLease P lease = .ok ()) (hkey : lease.nodePublicKey = identity.publicKey) :
    ∃ signature, P.signatureFromB64 lease.signature = .ok signature ∧
      P.verify (P.publicKey identity.secret) (lease.preimage P) signature = true := by
  have hsecret : P.verifyingKeyFromB64 lease.nodePublicKey =
      .ok (P.publicKey identity.secret) := by
    rw [hkey, identity.publicKey_eq, P.verifyingKeyFromB64_publicKey]
  simp only [verifyVolunteerLease, bind_eq_ok, hsecret, Except.ok.injEq, exists_eq_left',
    Primitives.verifyObject, rejectIf_eq_ok, Bool.not_eq_false] at h
  obtain ⟨⟨⟩, -, ⟨⟩, -, ⟨⟩, -, ⟨⟩, -, ⟨⟩, -, ⟨⟩, -, signature, hsignature, hverify⟩ := h
  exact ⟨signature, hsignature, hverify⟩

/-- A signed message which is the preimage of a lease of the node is the one of a packet. -/
theorem VolunteerGateway.Signed.exists_packet {message : Bytes} {lease : VolunteerLease}
    (h : gateway.Signed P message) (hmessage : message = lease.preimage P)
    (hnode : lease.nodeId = identity.nodeId) :
    ∃ packet ∈ gateway.issued,
      lease = { packet.lease with signature := lease.signature } := by
  cases h with
  | lease packet hissued =>
      exact ⟨packet, hissued, VolunteerLease.eq_of_preimage_eq hmessage.symm⟩
  | object object hother =>
      have hlease : volunteerLeaseDomain ∈ protocolDomains := by decide
      have hdomain := (signingPreimage_inj object.domain_mem hlease hmessage).1
      have hdistinct : ∀ domain ∈ [checkpointDomain, witnessDomain, replicationReceiptDomain,
          volunteerReceiptDomain, repositoryManifestDomain, artifactReceiptDomain],
          domain ≠ volunteerLeaseDomain := by decide
      cases object with
      | volunteerLease other => exact absurd rfl (hother other)
      | _ => exact absurd hdomain (hdistinct _ (by simp [NodeSigned.domain]))
  | hash _ hlength =>
      have hlong := VolunteerLease.lt_length_preimage (hnode.trans identity.nodeId_eq)
      rw [← hmessage, hlength] at hlong
      exact absurd hlong (lt_irrefl 32)

theorem VolunteerGateway.Sound.leased (h : gateway.Sound identity texts)
    (hfree : Set.InjOn P.sha256 texts) {submission : VolunteerSubmission}
    {receipt : VolunteerReceipt} (hreviewed : Reviewed identity submission receipt)
    {receivedAt : ℤ} (hauthentic : gateway.Authentic P identity (.review submission receivedAt))
    (htask : submission.task.digestInput P ∈ texts) : gateway.Leased submission := by
  obtain ⟨signature, hsignature, hverify⟩ :=
    verify_of_verifyVolunteerLease hreviewed.lease hreviewed.nodePublicKey
  obtain ⟨packet, hissued, hlease⟩ :=
    (hauthentic signature hsignature hverify).exists_packet rfl hreviewed.nodeId
  obtain ⟨hwork, hdigest⟩ := h.issued packet hissued
  refine ⟨packet, hissued, hlease, ?_⟩
  refine VolunteerTaskSpec.eq_of_taskDigest_eq hfree htask hwork ?_
  rw [hreviewed.digest, hlease, hdigest]

/-! ## One action -/

theorem VolunteerGateway.Leased.mono {next : VolunteerGateway} {submission : VolunteerSubmission}
    (h : gateway.Leased submission) (hissued : gateway.issued ⊆ next.issued) :
    next.Leased submission := by
  obtain ⟨packet, hpacket, hlease, htask⟩ := h
  exact ⟨packet, hissued hpacket, hlease, htask⟩

theorem mem_of_volunteerTaskCandidate {kind workId : Option String} {items : List WorkItemRow}
    {rows : List InboxRow} {work : WorkItemRow}
    (h : volunteerTaskCandidate kind workId items rows = some work) : work ∈ items := by
  have hsorted := List.mem_of_head? h
  rw [List.mem_insertionSort] at hsorted
  exact List.mem_of_mem_filter hsorted

/-- A packet is made for an item of the work list. -/
theorem issueVolunteerTask_eq_ok {instructions : String → String} {items : List WorkItemRow}
    {rows : List InboxRow} {kind workId : Option String} {random : Bytes} {issuedAt : ℤ}
    {packet : VolunteerTaskPacket}
    (h : issueVolunteerTask P identity instructions items rows kind workId random issuedAt =
      .ok packet) :
    ∃ work ∈ items, packet = volunteerTaskPacket P identity
      (VolunteerTaskSpec.ofWork work (instructions work.workId)) random issuedAt := by
  simp only [issueVolunteerTask, bind_eq_ok, okOr_eq_ok, pure_eq_ok, Except.ok.injEq] at h
  obtain ⟨⟨⟩, -, work, hwork, rfl⟩ := h
  exact ⟨work, mem_of_volunteerTaskCandidate hwork, rfl⟩

theorem VolunteerGateway.stores_eq_some {index skipped : ℕ} {stored : InboxRow}
    (h : gateway.stores P index skipped = some stored) :
    ∃ submission receipt, gateway.reviewed[index]? = some (submission, receipt) ∧
      (gateway.rows.map (·.row)).any (volunteerSubmissionRow P submission receipt).clashes =
        false ∧
      stored = ⟨gateway.lastSequence + 1 + skipped, volunteerSubmissionRow P submission receipt⟩ := by
  simp only [stores, Option.bind_eq_bind, Option.bind_eq_some_iff] at h
  obtain ⟨⟨submission, receipt⟩, hentry, hstored⟩ := h
  unfold storeVolunteerSubmission insertNew at hstored
  cases hclash : (gateway.rows.map (·.row)).any
      (volunteerSubmissionRow P submission receipt).clashes with
  | true => simp [hclash] at hstored
  | false =>
      simp only [hclash, Bool.false_eq_true, if_false, Option.some.injEq] at hstored
      exact ⟨submission, receipt, hentry, hclash, hstored.symm⟩

theorem VolunteerGateway.Sound.issue (h : gateway.Sound identity texts)
    (kind workId : Option String) (random : Bytes) (issuedAt : ℤ) :
    (gateway.issue P identity kind workId random issuedAt).Sound identity texts := by
  unfold VolunteerGateway.issue
  cases hpacket : issueVolunteerTask P identity gateway.instructions gateway.items gateway.rows
      kind workId random issuedAt with
  | error error => exact h
  | ok packet =>
      obtain ⟨work, hwork, rfl⟩ := issueVolunteerTask_eq_ok hpacket
      have hsub := List.subset_append_left gateway.issued [volunteerTaskPacket P identity
        (VolunteerTaskSpec.ofWork work (gateway.instructions work.workId)) random issuedAt]
      refine ⟨h.tasks, ?_, ?_, ?_, h.leases, h.submissions, h.numbered, h.bounded, h.reader⟩
      · intro packet hmem
        rcases List.mem_append.mp hmem with hold | hnew
        · exact h.issued packet hold
        · rw [List.mem_singleton.mp hnew]
          exact ⟨h.tasks work hwork, rfl⟩
      · intro entry hentry
        obtain ⟨hreviewed, hleased⟩ := h.reviewed entry hentry
        exact ⟨hreviewed, hleased.mono hsub⟩
      · intro stored hstored
        obtain ⟨submission, receipt, hreviewed, hleased, hrow⟩ := h.stored stored hstored
        exact ⟨submission, receipt, hreviewed, hleased.mono hsub, hrow⟩

theorem VolunteerGateway.Sound.review (h : gateway.Sound identity texts)
    (hfree : Set.InjOn P.sha256 texts) {submission : VolunteerSubmission} {receivedAt : ℤ}
    (hauthentic : gateway.Authentic P identity (.review submission receivedAt))
    (htask : submission.task.digestInput P ∈ texts) :
    (gateway.review P identity parse submission receivedAt).Sound identity texts := by
  unfold VolunteerGateway.review
  cases hreceipt : reviewVolunteerSubmission P parse identity gateway.instructions submission
      receivedAt gateway.items with
  | error error => exact h
  | ok receipt =>
      have hreviewed := (reviewed_of_reviewVolunteerSubmission hreceipt).1
      refine ⟨h.tasks, h.issued, ?_, h.stored, h.leases, h.submissions, h.numbered, h.bounded,
        h.reader⟩
      intro entry hentry
      rcases List.mem_append.mp hentry with hold | hnew
      · exact h.reviewed entry hold
      · rw [List.mem_singleton.mp hnew]
        exact ⟨hreviewed, h.leased hfree hreviewed hauthentic htask⟩

theorem nodup_map_concat {α β : Type} {f : α → β} {rows : List α} {row : α}
    (h : (rows.map f).Nodup) (hnew : ∀ stored ∈ rows, f stored ≠ f row) :
    ((rows ++ [row]).map f).Nodup := by
  rw [List.map_append, List.nodup_append]
  refine ⟨h, List.nodup_singleton _, ?_⟩
  intro key hkey other hother
  obtain ⟨stored, hstored, rfl⟩ := List.mem_map.mp hkey
  rw [List.mem_singleton.mp hother]
  exact hnew stored hstored

theorem InboxNumbered.concat {rows : List InboxRow} {row : InboxRow} (h : InboxNumbered rows)
    (hlast : ∀ stored ∈ rows, stored.projectionSequence < row.projectionSequence)
    (hpositive : 0 < row.projectionSequence) : InboxNumbered (rows ++ [row]) := by
  constructor
  · rw [List.pairwise_append]
    refine ⟨h.ascending, List.pairwise_singleton _ _, ?_⟩
    intro stored hstored other hother
    rw [List.mem_singleton.mp hother]
    exact hlast stored hstored
  · rw [List.forall_mem_append]
    exact ⟨h.positive, List.forall_mem_singleton.mpr hpositive⟩

/-- A row which does not clash has an id and a nonce of its own. -/
theorem fresh_of_not_clashes {rows : List InboxRow} {submission : VolunteerSubmission}
    {receipt : VolunteerReceipt}
    (h : (rows.map (·.row)).any (volunteerSubmissionRow P submission receipt).clashes = false) :
    ∀ stored ∈ rows, stored.row.submissionId ≠ receipt.submissionId ∧
      stored.row.leaseNonce ≠ submission.lease.nonce := by
  intro stored hstored
  have hno := List.any_eq_false.mp h _ (List.mem_map_of_mem hstored)
  simp only [VolunteerSubmissionRow.clashes, volunteerSubmissionRow, Bool.or_eq_true,
    beq_iff_eq, not_or] at hno
  exact hno.1

theorem VolunteerGateway.Sound.store (h : gateway.Sound identity texts) (index skipped : ℕ) :
    (gateway.store P index skipped).Sound identity texts := by
  have hreviewed : ∀ entry ∈ gateway.reviewed.eraseIdx index,
      Reviewed identity entry.1 entry.2 ∧ gateway.Leased entry.1 :=
    fun entry hentry => h.reviewed entry (List.mem_of_mem_eraseIdx hentry)
  unfold VolunteerGateway.store
  cases hstores : gateway.stores P index skipped with
  | none =>
      exact ⟨h.tasks, h.issued, hreviewed, h.stored, h.leases, h.submissions, h.numbered,
        h.bounded, h.reader⟩
  | some stored =>
      obtain ⟨submission, receipt, hentry, hclash, rfl⟩ := gateway.stores_eq_some hstores
      obtain ⟨hpassed, hleased⟩ := h.reviewed _ (List.mem_of_getElem? hentry)
      have hfresh := fresh_of_not_clashes hclash
      have hlast : ∀ stored ∈ gateway.rows,
          stored.projectionSequence < gateway.lastSequence + 1 + skipped := by
        intro stored hstored
        have := h.bounded stored hstored
        omega
      refine ⟨h.tasks, h.issued, hreviewed, ?_, ?_, ?_, ?_, ?_, ?_⟩
      · rw [List.forall_mem_append]
        refine ⟨h.stored, List.forall_mem_singleton.mpr ?_⟩
        exact ⟨submission, receipt, hpassed, hleased, rfl⟩
      · exact nodup_map_concat h.leases fun stored hstored => (hfresh stored hstored).2
      · exact nodup_map_concat h.submissions fun stored hstored => (hfresh stored hstored).1
      · refine h.numbered.concat hlast ?_
        dsimp only
        omega
      · rw [List.forall_mem_append]
        push_cast
        exact ⟨fun stored hstored => (hlast stored hstored).le,
          List.forall_mem_singleton.mpr (le_refl _)⟩
      · obtain ⟨first, rest, hrows, hseen⟩ := h.reader
        dsimp only
        rw [hrows, List.append_assoc]
        exact ⟨first, _, rfl, hseen⟩

theorem VolunteerGateway.Sound.read (h : gateway.Sound identity texts) (limit : ℕ) :
    ({ gateway with reader := gateway.reader.read P limit gateway.rows } :
      VolunteerGateway).Sound identity texts := by
  refine ⟨h.tasks, h.issued, h.reviewed, h.stored, h.leases, h.submissions, h.numbered,
    h.bounded, ?_⟩
  obtain ⟨first, rest, hrows, hseen⟩ := h.reader
  have hnumbered := h.numbered
  rw [hrows] at hnumbered
  rcases hseen.read hnumbered limit with hsame | hmoved
  · refine ⟨first, rest, hrows, ?_⟩
    dsimp only
    rw [hrows, hsame]
    exact hseen
  · refine ⟨first ++ rest.take (clampLimit limit), rest.drop (clampLimit limit), ?_, ?_⟩
    · rw [List.append_assoc, List.take_append_drop, hrows]
    · dsimp only
      rw [hrows]
      exact hmoved

theorem VolunteerGateway.Sound.step (h : gateway.Sound identity texts)
    (hfree : Set.InjOn P.sha256 texts) {action : GatewayAction}
    (hauthentic : gateway.Authentic P identity action)
    (htasks : ∀ task ∈ action.tasks, task.digestInput P ∈ texts) :
    (gateway.step P identity parse action).Sound identity texts := by
  cases action with
  | issue kind workId random issuedAt => exact h.issue kind workId random issuedAt
  | review submission receivedAt =>
      exact h.review hfree hauthentic (htasks _ (List.mem_singleton_self _))
  | store index skipped => exact h.store index skipped
  | changeWork items instructions =>
      refine ⟨?_, h.issued, h.reviewed, h.stored, h.leases, h.submissions, h.numbered,
        h.bounded, h.reader⟩
      intro item hitem
      exact htasks _ (List.mem_map_of_mem hitem)
  | read limit => exact h.read limit

/-! ## A run -/

theorem VolunteerGateway.Sound.run (h : gateway.Sound identity texts)
    (hfree : Set.InjOn P.sha256 texts) {actions : List GatewayAction}
    (hauthentic : AtEachStep P identity parse (Authentic P identity) gateway actions)
    (htasks : ∀ action ∈ actions, ∀ task ∈ action.tasks, task.digestInput P ∈ texts) :
    (gateway.run P identity parse actions).Sound identity texts := by
  induction actions generalizing gateway with
  | nil => exact h
  | cons action rest ih =>
      obtain ⟨hfirst, hrest⟩ := hauthentic
      exact ih (h.step hfree hfirst (htasks action List.mem_cons_self)) hrest
        fun later hlater => htasks later (List.mem_cons_of_mem action hlater)

/-- The instant of every row can be read. -/
def VolunteerGateway.ReadsInstants (P : Primitives) (gateway : VolunteerGateway) : Prop :=
  ∀ stored ∈ gateway.rows, isOk (P.parseTimestamp stored.row.receivedAt)

theorem VolunteerGateway.stores_of_isOk {index : ℕ} (skipped : ℕ)
    {submission : VolunteerSubmission} {receipt : VolunteerReceipt}
    (hentry : gateway.reviewed[index]? = some (submission, receipt))
    (hstore : isOk (storeVolunteerSubmission P submission receipt (gateway.rows.map (·.row)))) :
    gateway.stores P index skipped =
      some ⟨gateway.lastSequence + 1 + skipped, volunteerSubmissionRow P submission receipt⟩ := by
  obtain ⟨rows, hrows⟩ := hstore
  simp only [stores, hentry, hrows, Option.bind_eq_bind, Option.bind_some]

theorem VolunteerGateway.store_readsInstants_iff (index skipped : ℕ) :
    (gateway.store P index skipped).ReadsInstants P ↔
      gateway.ReadsInstants P ∧ gateway.Dated P (.store index skipped) := by
  unfold VolunteerGateway.store
  cases hstores : gateway.stores P index skipped with
  | none =>
      constructor
      · intro hreads
        refine ⟨hreads, ?_⟩
        intro submission receipt hentry hstore
        rw [stores_of_isOk skipped hentry hstore] at hstores
        cases hstores
      · intro h
        exact h.1
  | some stored =>
      obtain ⟨submission, receipt, hentry, hclash, rfl⟩ := gateway.stores_eq_some hstores
      have hnew := P.isOk_parseTimestamp_timestamp receipt.receivedAt
      have hstore : isOk (storeVolunteerSubmission P submission receipt
          (gateway.rows.map (·.row))) := ⟨_, insertNew_of_fresh hclash⟩
      constructor
      · intro hreads
        refine ⟨fun old hold => hreads old (List.mem_append_left _ hold), ?_⟩
        intro other otherReceipt hother _
        rw [hentry, Option.some.injEq, Prod.mk.injEq] at hother
        rw [← hother.2]
        exact hnew.mp (hreads _ (List.mem_append_right _ (List.mem_singleton_self _)))
      · rintro ⟨hreads, hdated⟩ other hother
        rcases List.mem_append.mp hother with hold | hadded
        · exact hreads other hold
        · rw [List.mem_singleton.mp hadded]
          exact hnew.mpr (hdated submission receipt hentry hstore)

/-- A step leaves all instants readable exactly when it stores no other ones. -/
theorem VolunteerGateway.step_readsInstants_iff (action : GatewayAction) :
    (gateway.step P identity parse action).ReadsInstants P ↔
      gateway.ReadsInstants P ∧ gateway.Dated P action := by
  cases action with
  | store index skipped => exact store_readsInstants_iff index skipped
  | issue kind workId random issuedAt =>
      have hrows : (gateway.issue P identity kind workId random issuedAt).rows = gateway.rows := by
        unfold VolunteerGateway.issue
        split <;> rfl
      unfold ReadsInstants VolunteerGateway.step
      rw [hrows]
      exact (and_iff_left trivial).symm
  | review submission receivedAt =>
      have hrows : (gateway.review P identity parse submission receivedAt).rows =
          gateway.rows := by
        unfold VolunteerGateway.review
        split <;> rfl
      unfold ReadsInstants VolunteerGateway.step
      rw [hrows]
      exact (and_iff_left trivial).symm
  | changeWork items instructions => exact (and_iff_left trivial).symm
  | read limit => exact (and_iff_left trivial).symm

theorem VolunteerGateway.run_readsInstants_iff (actions : List GatewayAction) :
    (gateway.run P identity parse actions).ReadsInstants P ↔
      gateway.ReadsInstants P ∧
        AtEachStep P identity parse (Dated P) gateway actions := by
  induction actions generalizing gateway with
  | nil => exact (and_iff_left trivial).symm
  | cons action rest ih =>
      have hrun : gateway.run P identity parse (action :: rest) =
          (gateway.step P identity parse action).run P identity parse rest := rfl
      rw [hrun, ih, step_readsInstants_iff, and_assoc]
      rfl

/-- Where the instants can be read, the inbox is in order. -/
theorem VolunteerGateway.Sound.integrity (h : gateway.Sound identity texts)
    (hreads : gateway.ReadsInstants P) : gateway.Integrity P := by
  have hviews : ∀ stored ∈ gateway.rows, isOk (volunteerSubmissionView P stored) := by
    intro stored hstored
    obtain ⟨submission, receipt, hreviewed, -, hrow⟩ := h.stored stored hstored
    have hparse := hreads stored hstored
    obtain ⟨sequence, row⟩ := stored
    rw [show row = _ from hrow] at hparse ⊢
    rw [hreviewed.view_eq, isOk_bind]
    obtain ⟨receivedAt, hreceivedAt⟩ := hparse
    exact ⟨receivedAt, hreceivedAt, isOk_ok _⟩
  refine ⟨h.leases, h.submissions, ?_, ?_, ?_, ?_⟩
  · intro stored hstored
    obtain ⟨submission, receipt, hreviewed, hleased, hrow⟩ := h.stored stored hstored
    rw [hrow]
    exact ⟨submission.canonical P, receipt, submission.parse_jcs P, receipt.parse_jcs P, rfl,
      hleased, hreviewed.inTime⟩
  · intro after limit hafter
    exact isOk_volunteerSubmissionPage hviews hafter limit
  · intro stored hstored
    obtain ⟨view, hview⟩ := hviews stored hstored
    exact ⟨view, hview, reverified_of_view hview⟩
  · obtain ⟨first, rest, hrows, hseen⟩ := h.reader
    have hnumbered := h.numbered
    rw [hrows] at hnumbered hviews ⊢
    exact hseen.exact hnumbered hviews

end

/-- The inbox of a run is in order, and all its pages can be shown, exactly if every submission
which the run stores was received in a year of four digits. -/
theorem run_inboxIntegrity (P : Primitives) (identity : NodeIdentity P)
    (parse : String → Option HostUrl) (actions : List GatewayAction)
    (honest : HonestGateway P identity parse actions) :
    (VolunteerGateway.empty.run P identity parse actions).Integrity P ↔
      VolunteerGateway.AtEachStep P identity parse (VolunteerGateway.Dated P) .empty actions := by
  have hsound := (VolunteerGateway.sound_empty (P := P)).run honest.collisionFree
    honest.unforgeable fun action haction task htask => ⟨action, haction, task, htask, rfl⟩
  have hreads : (VolunteerGateway.empty.run P identity parse actions).ReadsInstants P ↔
      VolunteerGateway.empty.ReadsInstants P ∧ VolunteerGateway.AtEachStep P identity parse
        (VolunteerGateway.Dated P) .empty actions :=
    VolunteerGateway.run_readsInstants_iff actions
  have hempty : VolunteerGateway.empty.ReadsInstants P :=
    fun _ hstored => absurd hstored List.not_mem_nil
  constructor
  · intro hintegrity
    refine (hreads.mp ?_).2
    intro stored hstored
    obtain ⟨view, -, hreverified⟩ := hintegrity.reverified stored hstored
    exact ⟨_, hreverified.receivedAt.1⟩
  · intro hdated
    exact hsound.integrity (hreads.mpr ⟨hempty, hdated⟩)

namespace Sample

/-- A library which writes keys, signatures and nonces in base64url characters only. -/
def hexLibrary : Primitives :=
  { library with
    encodeBase64 := HexText.encode
    decodeBase64 := HexText.decode
    decodeBase64_encode := HexText.decode_encode }

def hexOrigin : NodeIdentity hexLibrary := .ofSecret hexLibrary [1]

/-- The first instant of the year 10000. -/
def yearTenThousand : ℤ := 253402300800000000000

def openItem : WorkItemRow :=
  ⟨"cwwork_" ++ zeroHash, "review_source", "source", "cwsrc_", 2, .isOpen, 1, none⟩

def openTask : VolunteerTaskSpec := .ofWork openItem "Read it."

def openPacket (issuedAt : ℤ) : VolunteerTaskPacket :=
  volunteerTaskPacket hexLibrary hexOrigin openTask zeroBytes issuedAt

/-- A volunteer gives the task back. -/
def unfinished (issuedAt : ℤ) : VolunteerSubmission :=
  ⟨(openPacket issuedAt).lease, openTask, .needsMore, "There was no time to read it.", [], .null,
    none, true⟩

/-- A task is handed out, given back, and shown in the inbox, all at one instant. -/
def unfinishedRun (now : ℤ) : List GatewayAction :=
  [.changeWork [openItem] fun _ => "Read it.", .issue none none zeroBytes now,
    .review (unfinished now) now, .store 0 0, .read 10]

theorem unfinishedRun_honest (now : ℤ) :
    HonestGateway hexLibrary hexOrigin parseEvidence (unfinishedRun now) where
  unforgeable := by
    refine ⟨trivial, trivial, ?_, trivial, trivial, trivial⟩
    intro _ _ _
    have hissued : openPacket now ∈ ((VolunteerGateway.empty.step hexLibrary hexOrigin parseEvidence
        (.changeWork [openItem] fun _ => "Read it.")).step hexLibrary hexOrigin parseEvidence
        (.issue none none zeroBytes now)).issued := List.mem_singleton_self _
    exact .lease (openPacket now) hissued
  collisionFree := by
    have hone : ∀ bytes, (∃ action ∈ unfinishedRun now, ∃ task ∈ action.tasks,
        bytes = task.digestInput hexLibrary) → bytes = openTask.digestInput hexLibrary := by
      rintro bytes ⟨action, haction, task, htask, rfl⟩
      simp only [unfinishedRun, List.mem_cons, List.not_mem_nil, or_false] at haction
      rcases haction with rfl | rfl | rfl | rfl | rfl
      · rw [List.mem_singleton.mp htask]
        rfl
      · cases htask
      · rw [List.mem_singleton.mp htask]
        rfl
      · cases htask
      · cases htask
    intro first hfirst second hsecond _
    rw [hone first hfirst, hone second hsecond]

/-- In the year 10000 the submission is stored, and the inbox cannot be shown any more. -/
theorem unfinishedRun_unreadable :
    HonestGateway hexLibrary hexOrigin parseEvidence (unfinishedRun yearTenThousand) ∧
      ¬ (VolunteerGateway.empty.run hexLibrary hexOrigin parseEvidence
        (unfinishedRun yearTenThousand)).Integrity hexLibrary := by
  refine ⟨unfinishedRun_honest yearTenThousand, ?_⟩
  intro hintegrity
  have hpage := hintegrity.pages 0 10 (le_refl 0)
  revert hpage
  decide +kernel

/-- At the start of 1970 it is stored and shown. -/
theorem run_inboxIntegrity_unfinished :
    (VolunteerGateway.empty.run hexLibrary hexOrigin parseEvidence
      (unfinishedRun 0)).reader.shown.length = 1 ∧
    (VolunteerGateway.empty.run hexLibrary hexOrigin parseEvidence
      (unfinishedRun 0)).Integrity hexLibrary := by
  refine ⟨by decide +kernel, ?_⟩
  refine (run_inboxIntegrity hexLibrary hexOrigin parseEvidence (unfinishedRun 0)
    (unfinishedRun_honest 0)).mpr ⟨trivial, trivial, trivial, ?_, trivial, trivial⟩
  intro submission receipt hentry _
  have hdated : ∀ entry ∈ (((VolunteerGateway.empty.step hexLibrary hexOrigin parseEvidence
      (.changeWork [openItem] fun _ => "Read it.")).step hexLibrary hexOrigin parseEvidence
      (.issue none none zeroBytes 0)).step hexLibrary hexOrigin parseEvidence
      (.review (unfinished 0) 0)).reviewed[0]?, FourDigitYear entry.2.receivedAt := by
    decide +kernel
  exact hdated _ hentry

end Sample

end Commonwake
