import Commonwake.SigningDomains

/-!
# Reading volunteer objects back

A submission and its receipt are stored as canonical texts, and decoded again on every
page of the inbox.  What is read back is the object itself, with the free JSON result of
a submission in canonical form.
-/

namespace Commonwake

open Outcome Serde

section

variable (P : Primitives)

/-! ## Decoders -/

def VolunteerTaskSpec.ofJson (value : Json) : Option VolunteerTaskSpec := do
  let m ← fields ["work_id", "kind", "subject_type", "subject_id", "directive",
    "instructions"] value
  pure {
    workId := ← required string m "work_id"
    kind := ← required string m "kind"
    subjectType := ← required string m "subject_type"
    subjectId := ← required string m "subject_id"
    directive := ← required string m "directive"
    instructions := ← required string m "instructions" }

def VolunteerLease.ofJson (value : Json) : Option VolunteerLease := do
  let m ← fields ["protocol", "node_id", "node_public_key", "work_id", "task_digest", "nonce",
    "issued_at", "expires_at", "signature"] value
  pure {
    protocol := ← required string m "protocol"
    nodeId := ← required string m "node_id"
    nodePublicKey := ← required string m "node_public_key"
    workId := ← required string m "work_id"
    taskDigest := ← required string m "task_digest"
    nonce := ← required string m "nonce"
    issuedAt := ← required (dateTimeOfJson P) m "issued_at"
    expiresAt := ← required (dateTimeOfJson P) m "expires_at"
    signature := ← required string m "signature" }

def VolunteerWorkerMetadata.ofJson (value : Json) : Option VolunteerWorkerMetadata := do
  let m ← fields ["interface", "model", "note"] value
  pure {
    interface := ← Serde.optional string m "interface"
    model := ← Serde.optional string m "model"
    note := ← Serde.optional string m "note" }

def VolunteerSubmission.ofJson (value : Json) : Option VolunteerSubmission := do
  let m ← fields ["lease", "task", "outcome", "summary", "evidence", "result", "worker",
    "public_data_acknowledged"] value
  pure {
    lease := ← required (VolunteerLease.ofJson P) m "lease"
    task := ← required VolunteerTaskSpec.ofJson m "task"
    outcome := ← required WorkOutcome.ofJson m "outcome"
    summary := ← required string m "summary"
    evidence := ← defaulted (list (EvidenceRef.ofJson P)) [] m "evidence"
    result := ← defaulted Serde.value .null m "result"
    worker := ← Serde.optional VolunteerWorkerMetadata.ofJson m "worker"
    publicDataAcknowledged := ← required bool m "public_data_acknowledged" }

def VolunteerReceipt.ofJson (value : Json) : Option VolunteerReceipt := do
  let m ← fields ["protocol", "node_id", "node_public_key", "submission_id", "work_id",
    "submission_digest", "received_at", "status", "signature"] value
  pure {
    protocol := ← required string m "protocol"
    nodeId := ← required string m "node_id"
    nodePublicKey := ← required string m "node_public_key"
    submissionId := ← required string m "submission_id"
    workId := ← required string m "work_id"
    submissionDigest := ← required string m "submission_digest"
    receivedAt := ← required (dateTimeOfJson P) m "received_at"
    status := ← required string m "status"
    signature := ← required string m "signature" }

/-- A submission with its result in canonical form. -/
def VolunteerSubmission.canonical (x : VolunteerSubmission) : VolunteerSubmission :=
  { x with result := P.canon x.result }

@[simp] theorem VolunteerSubmission.canonical_lease (x : VolunteerSubmission) :
    (x.canonical P).lease = x.lease := rfl

@[simp] theorem VolunteerSubmission.canonical_task (x : VolunteerSubmission) :
    (x.canonical P).task = x.task := rfl

/-! ## Round trips -/

@[simp] theorem canon_skipNone {α : Type} (key : String) {encode : α → Json}
    (h : ∀ a, P.canon (encode a) = encode a) (value : Option α) :
    (skipNone key encode value).map (fun member => (member.1, P.canon member.2)) =
      skipNone key encode value := by
  cases value with
  | none => rfl
  | some a => simp [skipNone, h a]

@[simp] theorem VolunteerTaskSpec.canon_toJson (x : VolunteerTaskSpec) :
    P.canon x.toJson = x.toJson := by
  simp [VolunteerTaskSpec.toJson]

@[simp] theorem VolunteerLease.canon_toJson (x : VolunteerLease) :
    P.canon (x.toJson P) = x.toJson P := by
  simp [VolunteerLease.toJson]

@[simp] theorem VolunteerReceipt.canon_toJson (x : VolunteerReceipt) :
    P.canon (x.toJson P) = x.toJson P := by
  simp [VolunteerReceipt.toJson]

@[simp] theorem VolunteerWorkerMetadata.canon_toJson (x : VolunteerWorkerMetadata) :
    P.canon x.toJson = x.toJson := by
  have hstring : ∀ s, P.canon (Json.string s) = Json.string s := fun _ => rfl
  unfold VolunteerWorkerMetadata.toJson
  rw [Primitives.canon_object, List.map_append, List.map_append,
    canon_skipNone P _ hstring, canon_skipNone P _ hstring, canon_skipNone P _ hstring]

@[simp] theorem EvidenceRef.canon_toJson (x : EvidenceRef) :
    P.canon (x.toJson P) = x.toJson P := by
  have hstring : ∀ s, P.canon (Json.string s) = Json.string s := fun _ => rfl
  unfold EvidenceRef.toJson
  rw [Primitives.canon_object, List.map_append, List.map_append, List.map_append,
    canon_skipNone P _ hstring, canon_skipNone P _ (canon_dateTime P),
    canon_skipNone P _ hstring]
  rfl

theorem VolunteerTaskSpec.ofJson_toJson (x : VolunteerTaskSpec) :
    VolunteerTaskSpec.ofJson x.toJson = some x := rfl

theorem VolunteerLease.ofJson_toJson (x : VolunteerLease) :
    VolunteerLease.ofJson P (x.toJson P) = some x := by
  simp only [VolunteerLease.toJson, VolunteerLease.ofJson]
  rw [show fields _ _ = some _ from rfl]
  simp only [required, List.lookup_cons, String.reduceBEq, Option.bind_eq_bind,
    Option.bind_some, dateTimeOfJson_dateTime, string_string, Option.pure_def]

theorem VolunteerReceipt.ofJson_toJson (x : VolunteerReceipt) :
    VolunteerReceipt.ofJson P (x.toJson P) = some x := by
  simp only [VolunteerReceipt.toJson, VolunteerReceipt.ofJson]
  rw [show fields _ _ = some _ from rfl]
  simp only [required, List.lookup_cons, String.reduceBEq, Option.bind_eq_bind,
    Option.bind_some, dateTimeOfJson_dateTime, string_string, Option.pure_def]

theorem VolunteerWorkerMetadata.ofJson_toJson (x : VolunteerWorkerMetadata) :
    VolunteerWorkerMetadata.ofJson x.toJson = some x := by
  obtain ⟨interface, model, note⟩ := x
  cases interface <;> cases model <;> cases note <;> rfl

theorem EvidenceRef.ofJson_toJson (x : EvidenceRef) :
    EvidenceRef.ofJson P (x.toJson P) = some x := by
  obtain ⟨url, title, observedAt, digest⟩ := x
  have hstring : ∀ s, nullable string (.string s) = some (some s) := fun _ => rfl
  have hdate : ∀ t, nullable (dateTimeOfJson P) (dateTime P t) = some (some t) := by
    intro t
    simp [nullable, dateTime, dateTimeOfJson]
  -- The members which are left out are found by no lookup.
  cases digest <;> cases observedAt <;> cases title <;>
    simp [EvidenceRef.toJson, EvidenceRef.ofJson, fields, skipNone, required, Serde.optional,
      defaulted, List.lookup_cons, hdate, hstring]

@[simp] theorem outcomeOfJson_asStr (outcome : WorkOutcome) :
    WorkOutcome.ofJson (.string outcome.asStr) = some outcome := by
  cases outcome <;> decide

theorem VolunteerSubmission.canon_toJson (x : VolunteerSubmission) :
    P.canon (x.toJson P) = (x.canonical P).toJson P := by
  have hevidence : (x.evidence.map (EvidenceRef.toJson P)).map P.canon =
      x.evidence.map (EvidenceRef.toJson P) := by
    rw [List.map_map]
    exact List.map_congr_left fun reference _ => EvidenceRef.canon_toJson P reference
  unfold VolunteerSubmission.toJson
  rw [Primitives.canon_object, List.map_append,
    canon_skipNone P _ (VolunteerWorkerMetadata.canon_toJson P)]
  simp only [List.map_cons, List.map_nil, Primitives.canon_array, hevidence,
    VolunteerLease.canon_toJson, VolunteerTaskSpec.canon_toJson, Primitives.canon_string,
    Primitives.canon_bool, VolunteerSubmission.canonical]

/-- The result may change how its numbers are written, and nothing else changes. -/
@[simp] theorem VolunteerSubmission.jcs_canonical (x : VolunteerSubmission) :
    P.jcs ((x.canonical P).toJson P) = P.jcs (x.toJson P) := by
  rw [← VolunteerSubmission.canon_toJson, P.jcs_canon']

theorem VolunteerSubmission.ofJson_toJson (x : VolunteerSubmission) :
    VolunteerSubmission.ofJson P (x.toJson P) = some x := by
  obtain ⟨lease, task, outcome, summary, evidence, result, worker, acknowledged⟩ := x
  have hevidence : list (EvidenceRef.ofJson P) (.array (evidence.map (EvidenceRef.toJson P))) =
      some evidence := by
    have h : items (EvidenceRef.ofJson P) (evidence.map (EvidenceRef.toJson P)) =
        some (evidence.map id) :=
      items_map fun reference _ => EvidenceRef.ofJson_toJson P reference
    simpa [list] using h
  have hworker : ∀ metadata : VolunteerWorkerMetadata,
      nullable VolunteerWorkerMetadata.ofJson metadata.toJson = some (some metadata) := by
    intro metadata
    change (VolunteerWorkerMetadata.ofJson metadata.toJson).map some = _
    rw [VolunteerWorkerMetadata.ofJson_toJson, Option.map_some]
  cases worker <;>
    simp [VolunteerSubmission.toJson, VolunteerSubmission.ofJson, fields, skipNone, required,
      Serde.optional, defaulted, List.lookup_cons, hevidence, hworker,
      VolunteerLease.ofJson_toJson, VolunteerTaskSpec.ofJson_toJson]

/-- What is decoded from the canonical text of a submission. -/
theorem VolunteerSubmission.parse_jcs (x : VolunteerSubmission) :
    (P.parse (P.jcs (x.toJson P))).bind (VolunteerSubmission.ofJson P) =
      some (x.canonical P) := by
  rw [P.parse_jcs', Option.bind_some, VolunteerSubmission.canon_toJson,
    VolunteerSubmission.ofJson_toJson]

theorem VolunteerReceipt.parse_jcs (x : VolunteerReceipt) :
    (P.parse (P.jcs (x.toJson P))).bind (VolunteerReceipt.ofJson P) = some x := by
  rw [P.parse_jcs', Option.bind_some, VolunteerReceipt.canon_toJson,
    VolunteerReceipt.ofJson_toJson]

end

/-! ## What a digest and a preimage determine -/

section

variable {P : Primitives}

theorem VolunteerTaskSpec.eq_of_jcs_eq {task other : VolunteerTaskSpec}
    (h : P.jcs task.toJson = P.jcs other.toJson) : task = other := by
  have hjson := P.jcs_eq_iff.mp h
  rw [VolunteerTaskSpec.canon_toJson, VolunteerTaskSpec.canon_toJson] at hjson
  have hread := congrArg VolunteerTaskSpec.ofJson hjson
  rw [VolunteerTaskSpec.ofJson_toJson, VolunteerTaskSpec.ofJson_toJson] at hread
  exact Option.some.inj hread

/-- The bytes which are hashed for a task. -/
def VolunteerTaskSpec.digestInput (P : Primitives) (task : VolunteerTaskSpec) : Bytes :=
  utf8 (P.jcs task.toJson)

/-- Where the hash does not collide, a digest names one task. -/
theorem VolunteerTaskSpec.eq_of_taskDigest_eq {task other : VolunteerTaskSpec}
    {texts : Set Bytes} (hfree : Set.InjOn P.sha256 texts)
    (htask : task.digestInput P ∈ texts) (hother : other.digestInput P ∈ texts)
    (h : taskDigest P task = taskDigest P other) : task = other := by
  have hdigest : P.sha256 (task.digestInput P) = P.sha256 (other.digestInput P) :=
    HexText.encode_injective h
  exact VolunteerTaskSpec.eq_of_jcs_eq (utf8_injective (hfree htask hother hdigest))

/-- What the node signs for a lease. -/
def VolunteerLease.preimage (P : Primitives) (lease : VolunteerLease) : Bytes :=
  P.signingPreimage volunteerLeaseDomain (lease.toJson P)

/-- A preimage determines the lease up to its signature. -/
theorem VolunteerLease.eq_of_preimage_eq {lease other : VolunteerLease}
    (h : lease.preimage P = other.preimage P) :
    lease = { other with signature := lease.signature } := by
  have hdomain : volunteerLeaseDomain ∈ protocolDomains := by decide
  have hjson := P.jcs_eq_iff.mp (signingPreimage_inj hdomain hdomain h).2
  have hdate : ∀ s t, P.dateTimeText s = P.dateTimeText t → s = t := by
    intro s t htext
    have hparse := congrArg P.parseDateTime htext
    rw [P.parseDateTime_text, P.parseDateTime_text] at hparse
    exact Option.some.inj hparse
  obtain ⟨protocol, nodeId, publicKey, workId, digest, nonce, issuedAt, expiresAt, signature⟩ :=
    lease
  simp only [Json.remove, VolunteerLease.toJson, dateTime, String.reduceBNe,
    List.filter_cons_of_pos, bne_self_eq_false, Bool.false_eq_true, not_false_eq_true,
    List.filter_cons_of_neg, List.filter_nil, Primitives.canon_object, List.map_cons,
    Primitives.canon_string, List.map_nil, Json.object.injEq, List.cons.injEq, Prod.mk.injEq,
    Json.string.injEq, true_and, and_true] at hjson
  obtain ⟨hexpires, hissued, rfl, rfl, rfl, rfl, rfl, rfl⟩ := hjson
  rw [hdate _ _ hexpires, hdate _ _ hissued]

/-- The preimage of a lease of a node is longer than a hash. -/
theorem VolunteerLease.lt_length_preimage {lease : VolunteerLease} {key : Bytes}
    (h : lease.nodeId = P.prefixedId "cwnode_" key) : 32 < (lease.preimage P).length := by
  have hmember : ("node_id", Json.string lease.nodeId) ∈
      [("expires_at", dateTime P lease.expiresAt), ("issued_at", dateTime P lease.issuedAt),
        ("node_id", .string lease.nodeId), ("node_public_key", .string lease.nodePublicKey),
        ("nonce", .string lease.nonce), ("protocol", .string lease.protocol),
        ("signature", .string lease.signature), ("task_digest", .string lease.taskDigest),
        ("work_id", .string lease.workId)].filter fun member => member.1 != "signature" := by
    simp
  have hlength := P.length_jcs _ _ _ hmember
  have hid : 64 ≤ (utf8 lease.nodeId).length := by
    have hdigest := byteLen_sha256Hex P key
    unfold byteLen at hdigest
    rw [h, Primitives.prefixedId, utf8_append, List.length_append, hdigest]
    omega
  unfold VolunteerLease.preimage Primitives.signingPreimage
  rw [List.length_append, List.length_cons]
  change _ < _ + ((utf8 (P.jcs (.object _))).length + 1)
  omega

end

end Commonwake
