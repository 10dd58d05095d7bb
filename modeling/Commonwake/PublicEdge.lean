import Commonwake.Publication
import Commonwake.VolunteerEvidence

/-!
# The public edge

A node which is reachable from outside admits bundles of other origins and results
of volunteers within quotas.  This module holds the checks of the policy and the
intake of a volunteer's result; the limits of rates and of storage, which only
refuse more, are left out.
-/

namespace Commonwake

open Outcome Table

/-- The errors of the edge: those of the node, and the two which only the edge
returns. -/
inductive EdgeError where
  | node (error : CommonwakeError)
  | forbidden (message : String)
  | resourceExhausted (message : String)
  deriving DecidableEq, Repr

abbrev EdgeResult (α : Type) := Except EdgeError α

def liftNode {α : Type} : Result α → EdgeResult α
  | .ok a => .ok a
  | .error error => .error (.node error)

@[simp] theorem liftNode_eq_ok {α : Type} {result : Result α} {a : α} :
    liftNode result = .ok a ↔ result = .ok a := by
  cases result <;> simp [liftNode]

/-! ## The policy -/

structure PublicEdgePolicy where
  enabled : Bool
  writeTokenHash : Option Bytes
  allowedPublishers : List String
  maxOrigins : ℕ
  maxOriginEvents : ℤ
  volunteerIntakeEnabled : Bool
  maxVolunteerSubmissions : ℕ

/-- `split_once(' ')`. -/
def splitOnceSpace (value : String) : Option (String × String) :=
  let (scheme, rest) := (chars value).span (· != ' ')
  match rest with
  | _ :: token => some (String.ofList scheme, String.ofList token)
  | [] => none

/-- Is the origin known, and how many are there? -/
def Db.hasFederationOrigin (db : Db) (originNodeId : String) : Bool :=
  db.peers.any fun peer => peer.nodeId == originNodeId

def Db.federationOriginCount (db : Db) : ℕ := db.peers.length

namespace PublicEdgePolicy

section

variable (P : Primitives) (policy : PublicEdgePolicy)

/-- Does the header carry the token of the relay? -/
def hasValidWriteToken (authorization : Option String) : Bool :=
  match policy.writeTokenHash, authorization with
  | some expected, some value =>
      match splitOnceSpace value with
      | some (scheme, token) =>
          toAsciiLowercase scheme == "bearer" && token != "" &&
            P.sha256 (utf8 token) == expected
      | none => false
  | _, _ => false

/-- May an origin be imported at the request of this caller? -/
def admitsOrigin (authorization : Option String) (originNodeId : String) : Bool :=
  policy.hasValidWriteToken P authorization ||
    policy.allowedPublishers.contains originNodeId

/-- The decision on a bundle, once the two readings of the database are there:
whether the origin is known, and the number of origins. -/
def authorizeFederationBundle (authorization : Option String) (originNodeId : String)
    (throughCursor : ℤ) (known : Bool) (count : ℕ) : EdgeResult Unit :=
  if policy.enabled = false then pure ()
  else do
    rejectIf (policy.admitsOrigin P authorization originNodeId = false)
      (.forbidden "this public relay has not admitted that origin")
    rejectIf (throughCursor < 0 ∨ throughCursor > policy.maxOriginEvents)
      (.resourceExhausted s!"origin cursor exceeds this relay's {policy.maxOriginEvents} event retention quota")
    rejectIf (known = false ∧ policy.maxOrigins ≤ count)
      (.resourceExhausted s!"relay has reached its {policy.maxOrigins} admitted-origin quota")

def ensureVolunteerIntake : EdgeResult Unit :=
  rejectIf (policy.enabled = true ∧ policy.volunteerIntakeEnabled = false)
    (.forbidden "anonymous volunteer intake is not enabled on this public relay")

/-- The decision on a result, once the number of stored ones is read. -/
def authorizeVolunteerTask (count : ℕ) : EdgeResult Unit := do
  policy.ensureVolunteerIntake
  rejectIf (policy.enabled = true ∧ policy.maxVolunteerSubmissions ≤ count)
    (.resourceExhausted s!"relay has reached its {policy.maxVolunteerSubmissions} probationary volunteer-submission quota")

def authorizeVolunteerSubmission (count : ℕ) : EdgeResult Unit :=
  policy.authorizeVolunteerTask count

end

end PublicEdgePolicy

/-! ## The results of volunteers -/

structure VolunteerTaskSpec where
  workId : String
  kind : String
  subjectType : String
  subjectId : String
  directive : String
  instructions : String

structure VolunteerLease where
  protocol : String
  nodeId : String
  nodePublicKey : String
  workId : String
  taskDigest : String
  nonce : String
  issuedAt : ℤ
  expiresAt : ℤ
  signature : String

structure VolunteerWorkerMetadata where
  interface : Option String
  model : Option String
  note : Option String

structure VolunteerSubmission where
  lease : VolunteerLease
  task : VolunteerTaskSpec
  outcome : WorkOutcome
  summary : String
  evidence : List EvidenceRef
  result : Json
  worker : Option VolunteerWorkerMetadata
  publicDataAcknowledged : Bool

structure VolunteerReceipt where
  protocol : String
  nodeId : String
  nodePublicKey : String
  submissionId : String
  workId : String
  submissionDigest : String
  receivedAt : ℤ
  status : String
  signature : String

/-- A row of `volunteer_submissions`; its status is always `probationary`. -/
structure VolunteerSubmissionRow where
  submissionId : String
  workId : String
  leaseNonce : String
  taskDigest : String
  submissionDigest : String
  submissionJson : String
  receiptJson : String
  receivedAt : String
  deriving DecidableEq

def volunteerLeaseDomain := "commonwake.volunteer-lease.v1"
def volunteerReceiptDomain := "commonwake.volunteer-receipt.v1"

def VolunteerTaskSpec.toJson (x : VolunteerTaskSpec) : Json :=
  .object [
    ("directive", .string x.directive),
    ("instructions", .string x.instructions),
    ("kind", .string x.kind),
    ("subject_id", .string x.subjectId),
    ("subject_type", .string x.subjectType),
    ("work_id", .string x.workId)]

def VolunteerWorkerMetadata.toJson (x : VolunteerWorkerMetadata) : Json :=
  .object (
    Serde.skipNone "interface" .string x.interface ++
    Serde.skipNone "model" .string x.model ++
    Serde.skipNone "note" .string x.note)

def volunteerSafeWorkKind (kind : String) : Bool :=
  ["discover_sources", "review_source", "verify_observation", "cluster_stories",
    "assess_story"].contains kind

def taskDirective : String → String
  | "discover_sources" => "Identify public RSS or Atom source candidates for the coverage area named by subject_id. Return attributable feed URLs, ownership or institutional context, language and region information, and perspective limitations."
  | "review_source" => "Evaluate the source named by subject_id for provenance, ownership, terms, security, duplication, coverage value, and perspective limitations using public evidence."
  | "verify_observation" => "Independently refetch or corroborate the observation named by subject_id. Report supporting and conflicting public evidence, uncertainty, and access failures."
  | "cluster_stories" => "Determine whether the story pair named by subject_id describes the same real-world development. Compare public evidence and report either a supported match, no_match, or needs_more."
  | "assess_story" => "Assess the story named by subject_id for significance, factual claims, uncertainty, disputed interpretations, and missing geographic, political, social, or technical perspectives using public evidence."
  | _ => "Stop without performing the task because this work kind is not volunteer-safe."

/-- The task of a work item; the instructions are a column of the table which the
rows of the model leave out. -/
def VolunteerTaskSpec.ofWork (work : WorkItemRow) (instructions : String) :
    VolunteerTaskSpec :=
  ⟨work.workId, work.kind, work.subjectType, work.subjectId, taskDirective work.kind,
    instructions⟩

section

variable (P : Primitives)

def VolunteerLease.toJson (x : VolunteerLease) : Json :=
  .object [
    ("expires_at", dateTime P x.expiresAt),
    ("issued_at", dateTime P x.issuedAt),
    ("node_id", .string x.nodeId),
    ("node_public_key", .string x.nodePublicKey),
    ("nonce", .string x.nonce),
    ("protocol", .string x.protocol),
    ("signature", .string x.signature),
    ("task_digest", .string x.taskDigest),
    ("work_id", .string x.workId)]

def VolunteerSubmission.toJson (x : VolunteerSubmission) : Json :=
  .object (
    [("evidence", .array (x.evidence.map (EvidenceRef.toJson P))),
      ("lease", x.lease.toJson P),
      ("outcome", .string x.outcome.asStr),
      ("public_data_acknowledged", .bool x.publicDataAcknowledged),
      ("result", x.result),
      ("summary", .string x.summary),
      ("task", x.task.toJson)] ++
    Serde.skipNone "worker" VolunteerWorkerMetadata.toJson x.worker)

def VolunteerReceipt.toJson (x : VolunteerReceipt) : Json :=
  .object [
    ("node_id", .string x.nodeId),
    ("node_public_key", .string x.nodePublicKey),
    ("protocol", .string x.protocol),
    ("received_at", dateTime P x.receivedAt),
    ("signature", .string x.signature),
    ("status", .string x.status),
    ("submission_digest", .string x.submissionDigest),
    ("submission_id", .string x.submissionId),
    ("work_id", .string x.workId)]

def taskDigest (task : VolunteerTaskSpec) : String :=
  P.sha256Hex (utf8 (P.jcs task.toJson))

def validatePrefixedDigest (value tag label : String) : Result Unit := do
  let digest ← okOr (stripTag tag value) (.validation s!"{label} has the wrong prefix")
  validateDigest digest label

def validateNodeIdentity (nodeId publicKey : String) : Result Unit := do
  let key ← P.verifyingKeyFromB64 publicKey
  rejectIf (nodeId ≠ P.prefixedId "cwnode_" key)
    (.unauthorized "node identifier does not match its public key")

def validateLeaseNonce (nonce : String) : Result Unit :=
  rejectIf (inRange 16 128 (byteLen nonce) = false ∨
      (chars nonce).all (fun c => isAsciiAlphanumeric c || c == '-' || c == '_') = false)
    (.validation "volunteer lease nonce must contain 16 to 128 base64url characters")

def verifyVolunteerLease (lease : VolunteerLease) : Result Unit := do
  rejectIf (lease.protocol ≠ protocolVersion)
    (.validation s!"unsupported protocol {lease.protocol}; expected {protocolVersion}")
  validateNodeIdentity P lease.nodeId lease.nodePublicKey
  validatePrefixedDigest lease.workId "cwwork_" "work_id"
  validateDigest lease.taskDigest "task_digest"
  validateLeaseNonce lease.nonce
  rejectIf (lease.expiresAt ≤ lease.issuedAt ∨ lease.expiresAt - lease.issuedAt > minutes 60)
    (.validation "volunteer lease lifetime must be greater than zero and no more than 60 minutes")
  let key ← P.verifyingKeyFromB64 lease.nodePublicKey
  P.verifyObject key volunteerLeaseDomain (lease.toJson P) lease.signature

def validateWorkerMetadata (worker : VolunteerWorkerMetadata) : Result Unit :=
  forEach (fun field : String × Option String =>
    rejectIf (presentAnd (fun text => trim text == "" || 160 < charCount text) field.2)
      (.validation s!"{field.1} must contain 1 to 160 characters when present"))
    [("worker.interface", worker.interface), ("worker.model", worker.model),
      ("worker.note", worker.note)]

variable (parse : String → Option HostUrl)

def validateSubmission (submission : VolunteerSubmission) (receivedAt : ℤ) :
    EdgeResult Unit := do
  liftNode (verifyVolunteerLease P submission.lease)
  rejectIf (submission.task.workId ≠ submission.lease.workId ∨
      taskDigest P submission.task ≠ submission.lease.taskDigest)
    (.node (.unauthorized "volunteer task does not match the node-signed lease"))
  rejectIf (volunteerSafeWorkKind submission.task.kind = false)
    (.forbidden "this work kind is not available to anonymous volunteer workers")
  rejectIf (submission.lease.issuedAt > receivedAt + minutes 5)
    (.node (.validation "volunteer lease was issued too far in the future"))
  rejectIf (submission.lease.expiresAt < receivedAt)
    (.node (.unauthorized "volunteer lease has expired; request a fresh task"))
  rejectIf (submission.publicDataAcknowledged = false)
    (.node (.validation "public_data_acknowledged must be true"))
  rejectIf (inRange 20 4000 (charCount (trim submission.summary)) = false)
    (.node (.validation s!"volunteer summary must contain 20 to {4000} characters"))
  rejectIf (submission.evidence.length > 16)
    (.node (.validation s!"volunteer submissions are limited to {16} evidence references"))
  rejectIf (submission.outcome ≠ .needsMore ∧ submission.evidence = [])
    (.node (.validation "completed and no_match submissions require public evidence"))
  liftNode (forEach (validateEvidence parse) submission.evidence)
  rejectIf (byteLen (P.jcs submission.result) > 32 * 1024)
    (.node (.validation s!"volunteer result JSON exceeds {32 * 1024} bytes"))
  match submission.worker with
  | some worker => liftNode (validateWorkerMetadata worker)
  | none => pure ()

/-- The receipt of a submission, before it is signed. -/
def unsignedVolunteerReceipt (identity : NodeIdentity P) (submission : VolunteerSubmission)
    (receivedAt : ℤ) : VolunteerReceipt :=
  let canonicalSubmission := utf8 (P.jcs (submission.toJson P))
  ⟨protocolVersion, identity.nodeId, identity.publicKey,
    P.prefixedId "cwvol_" canonicalSubmission, submission.lease.workId,
    P.sha256Hex canonicalSubmission, receivedAt, "probationary", ""⟩

/-- `accept_volunteer_submission` up to the point where it stores the submission:
all it reads of the database is the work item. -/
def reviewVolunteerSubmission (identity : NodeIdentity P) (instructions : String → String)
    (submission : VolunteerSubmission) (receivedAt : ℤ) (items : List WorkItemRow) :
    EdgeResult VolunteerReceipt := do
  validateSubmission P parse submission receivedAt
  rejectIf (submission.lease.nodeId ≠ identity.nodeId ∨
      submission.lease.nodePublicKey ≠ identity.publicKey)
    (.node (.unauthorized "volunteer lease belongs to a different node"))
  let current ← okOr (items.find? fun row =>
      row.workId == submission.lease.workId && row.status == .isOpen)
    (.node (.notFound s!"open work item {submission.lease.workId}"))
  let task := VolunteerTaskSpec.ofWork current (instructions current.workId)
  rejectIf (volunteerSafeWorkKind task.kind = false)
    (.forbidden "this work kind is not available to anonymous volunteer workers")
  rejectIf (taskDigest P task ≠ submission.lease.taskDigest)
    (.node (.conflict "the volunteer task changed after this lease was issued"))
  let receipt := unsignedVolunteerReceipt P identity submission receivedAt
  pure { receipt with
    signature := P.signObject identity.secret volunteerReceiptDomain (receipt.toJson P) }

def volunteerSubmissionRow (submission : VolunteerSubmission) (receipt : VolunteerReceipt) :
    VolunteerSubmissionRow where
  submissionId := receipt.submissionId
  workId := receipt.workId
  leaseNonce := submission.lease.nonce
  taskDigest := submission.lease.taskDigest
  submissionDigest := receipt.submissionDigest
  submissionJson := P.jcs (submission.toJson P)
  receiptJson := P.jcs (receipt.toJson P)
  receivedAt := P.timestamp receipt.receivedAt

def VolunteerSubmissionRow.clashes (row stored : VolunteerSubmissionRow) : Bool :=
  stored.submissionId == row.submissionId || stored.leaseNonce == row.leaseNonce ||
    stored.submissionDigest == row.submissionDigest

/-- A lease and a submission are used once. -/
def storeVolunteerSubmission (submission : VolunteerSubmission) (receipt : VolunteerReceipt)
    (submissions : List VolunteerSubmissionRow) : EdgeResult (List VolunteerSubmissionRow) :=
  let row := volunteerSubmissionRow P submission receipt
  insertNew row.clashes
    (.node (.conflict "this volunteer lease or exact submission has already been used"))
    row submissions

end

/-! ## What an admission establishes -/

namespace PublicEdgePolicy

variable {P : Primitives} {policy : PublicEdgePolicy}

theorem authorizeFederationBundle_eq_ok (henabled : policy.enabled = true)
    {authorization : Option String} {originNodeId : String} {throughCursor : ℤ}
    {known : Bool} {count : ℕ}
    (h : policy.authorizeFederationBundle P authorization originNodeId throughCursor known
      count = .ok ()) :
    policy.admitsOrigin P authorization originNodeId = true ∧
      throughCursor ≤ policy.maxOriginEvents ∧
      (known = true ∨ count < policy.maxOrigins) := by
  unfold authorizeFederationBundle at h
  simp only [henabled, Bool.true_eq_false, if_false, bind_eq_ok, rejectIf_eq_ok, not_or,
    not_lt, not_and, not_le, Bool.not_eq_false] at h
  obtain ⟨⟨⟩, hadmits, ⟨⟩, hcursor, hcount⟩ := h
  refine ⟨hadmits, hcursor.2, ?_⟩
  cases known with
  | true => exact .inl rfl
  | false => exact .inr (hcount rfl)

theorem authorizeVolunteerSubmission_eq_ok (henabled : policy.enabled = true) {count : ℕ}
    (h : policy.authorizeVolunteerSubmission count = .ok ()) :
    count < policy.maxVolunteerSubmissions := by
  simp only [authorizeVolunteerSubmission, authorizeVolunteerTask, bind_eq_ok, rejectIf_eq_ok,
    henabled, true_and, not_le] at h
  obtain ⟨_, _, hcount⟩ := h
  exact hcount

end PublicEdgePolicy

end Commonwake
