import Commonwake.PublicEdge
import Commonwake.SampleNode

/-!
# Signing domains

The node key signs objects of seven types, each behind the name of its domain, and the
bare hashes of events.  A domain ends at the first zero byte, so a preimage determines
its domain and the text of its object; and the keys alone make every preimage longer
than a hash.
-/

namespace Commonwake

open Outcome

def repositoryManifestDomain := "commonwake.repository-manifest.v1"
def artifactUploadDomain := "commonwake.artifact-upload.v1"
def artifactReceiptDomain := "commonwake.artifact-receipt.v1"

/-- The domains of `crypto.rs`. -/
def protocolDomains : List String :=
  [lineageDomain, delegationDomain, revocationDomain, keyRotationDomain, contributionDomain,
    ackDomain, checkpointDomain, witnessDomain, replicationReceiptDomain, volunteerLeaseDomain,
    volunteerReceiptDomain, repositoryManifestDomain, artifactUploadDomain,
    artifactReceiptDomain]

/-! ## Manifests and artifact receipts -/

structure RepositoryArtifact where
  kind : String
  sha256 : String
  sizeBytes : ℤ
  mediaType : String
  downloadPath : String
  deriving DecidableEq

structure RepositoryManifest where
  protocol : String
  repositoryId : String
  «namespace» : String
  name : String
  description : String
  license : String
  vcs : String
  defaultRef : String
  sourceRevision : String
  sourceMatchesBuild : Bool
  sourceProvenance : String
  artifact : RepositoryArtifact
  reconstructionPath : String
  nodeId : String
  nodePublicKey : String
  trustNotice : String
  signature : String
  deriving DecidableEq

structure ArtifactUploadAuthorization where
  protocol : String
  delegationId : String
  repositoryId : String
  artifact : ForgeArtifactRef
  purpose : ForgeArtifactPurpose
  createdAt : ℤ
  nonce : String
  signature : String
  deriving DecidableEq

structure ArtifactReceipt where
  protocol : String
  receiptId : String
  authorization : ArtifactUploadAuthorization
  uploaderLineageId : String
  storedAt : ℤ
  nodeId : String
  nodePublicKey : String
  trustNotice : String
  signature : String
  deriving DecidableEq

def RepositoryArtifact.toJson (x : RepositoryArtifact) : Json :=
  .object [
    ("download_path", .string x.downloadPath),
    ("kind", .string x.kind),
    ("media_type", .string x.mediaType),
    ("sha256", .string x.sha256),
    ("size_bytes", Serde.int x.sizeBytes)]

def RepositoryManifest.toJson (x : RepositoryManifest) : Json :=
  .object [
    ("artifact", x.artifact.toJson),
    ("default_ref", .string x.defaultRef),
    ("description", .string x.description),
    ("license", .string x.license),
    ("name", .string x.name),
    ("namespace", .string x.namespace),
    ("node_id", .string x.nodeId),
    ("node_public_key", .string x.nodePublicKey),
    ("protocol", .string x.protocol),
    ("reconstruction_path", .string x.reconstructionPath),
    ("repository_id", .string x.repositoryId),
    ("signature", .string x.signature),
    ("source_matches_build", .bool x.sourceMatchesBuild),
    ("source_provenance", .string x.sourceProvenance),
    ("source_revision", .string x.sourceRevision),
    ("trust_notice", .string x.trustNotice),
    ("vcs", .string x.vcs)]

def ForgeArtifactRef.toJson (x : ForgeArtifactRef) : Json :=
  .object [
    ("media_type", .string x.mediaType),
    ("sha256", .string x.sha256),
    ("size_bytes", Serde.int x.sizeBytes)]

section

variable (P : Primitives)

def ArtifactUploadAuthorization.toJson (x : ArtifactUploadAuthorization) : Json :=
  .object [
    ("artifact", x.artifact.toJson),
    ("created_at", dateTime P x.createdAt),
    ("delegation_id", .string x.delegationId),
    ("nonce", .string x.nonce),
    ("protocol", .string x.protocol),
    ("purpose", .string x.purpose.asStr),
    ("repository_id", .string x.repositoryId),
    ("signature", .string x.signature)]

def ArtifactReceipt.toJson (x : ArtifactReceipt) : Json :=
  .object [
    ("authorization", x.authorization.toJson P),
    ("node_id", .string x.nodeId),
    ("node_public_key", .string x.nodePublicKey),
    ("protocol", .string x.protocol),
    ("receipt_id", .string x.receiptId),
    ("signature", .string x.signature),
    ("stored_at", dateTime P x.storedAt),
    ("trust_notice", .string x.trustNotice),
    ("uploader_lineage_id", .string x.uploaderLineageId)]

end

/-! ## What a node key signs -/

/-- The objects which a node signs. -/
inductive NodeSigned where
  | checkpoint (object : Checkpoint)
  | witness (object : CheckpointWitness)
  | replicationReceipt (object : ReplicationReceipt)
  | volunteerLease (object : VolunteerLease)
  | volunteerReceipt (object : VolunteerReceipt)
  | manifest (object : RepositoryManifest)
  | artifactReceipt (object : ArtifactReceipt)

namespace NodeSigned

def domain : NodeSigned → String
  | .checkpoint _ => checkpointDomain
  | .witness _ => witnessDomain
  | .replicationReceipt _ => replicationReceiptDomain
  | .volunteerLease _ => volunteerLeaseDomain
  | .volunteerReceipt _ => volunteerReceiptDomain
  | .manifest _ => repositoryManifestDomain
  | .artifactReceipt _ => artifactReceiptDomain

def toJson (P : Primitives) : NodeSigned → Json
  | .checkpoint object => object.toJson P
  | .witness object => object.toJson P
  | .replicationReceipt object => object.toJson P
  | .volunteerLease object => object.toJson P
  | .volunteerReceipt object => object.toJson P
  | .manifest object => object.toJson
  | .artifactReceipt object => object.toJson P

/-- What is signed for the object. -/
def preimage (P : Primitives) (object : NodeSigned) : Bytes :=
  P.signingPreimage object.domain (object.toJson P)

end NodeSigned

/-- RFC 8785: the text of an object holds each of its keys. -/
def Primitives.WritesKeys (P : Primitives) : Prop :=
  ∀ members key value, (key, value) ∈ members →
    (utf8 key).length ≤ (utf8 (P.jcs (.object members))).length

/-! ## Preimages -/

theorem protocolDomains_nodup : protocolDomains.Nodup := by decide

theorem zero_notMem_protocolDomain :
    ∀ domain ∈ protocolDomains, (0 : UInt8) ∉ utf8 domain := by decide

section

variable {P : Primitives}

/-- A preimage determines its domain and the text of its object. -/
theorem signingPreimage_inj {domain other : String} {value otherValue : Json}
    (hdomain : domain ∈ protocolDomains) (hother : other ∈ protocolDomains)
    (h : P.signingPreimage domain value = P.signingPreimage other otherValue) :
    domain = other ∧
      P.canonicalWithoutSignature value = P.canonicalWithoutSignature otherValue := by
  obtain ⟨hsame, htext⟩ := append_zero_inj (zero_notMem_protocolDomain domain hdomain)
    (zero_notMem_protocolDomain other hother) h
  exact ⟨utf8_injective hsame, utf8_injective htext⟩

theorem NodeSigned.domain_mem (object : NodeSigned) : object.domain ∈ protocolDomains := by
  have hmem : checkpointDomain ∈ protocolDomains ∧ witnessDomain ∈ protocolDomains ∧
      replicationReceiptDomain ∈ protocolDomains ∧ volunteerLeaseDomain ∈ protocolDomains ∧
      volunteerReceiptDomain ∈ protocolDomains ∧ repositoryManifestDomain ∈ protocolDomains ∧
      artifactReceiptDomain ∈ protocolDomains := by decide
  obtain ⟨hcheckpoint, hwitness, hreplication, hlease, hreceipt, hmanifest, hartifact⟩ := hmem
  cases object with
  | checkpoint => exact hcheckpoint
  | witness => exact hwitness
  | replicationReceipt => exact hreplication
  | volunteerLease => exact hlease
  | volunteerReceipt => exact hreceipt
  | manifest => exact hmanifest
  | artifactReceipt => exact hartifact

/-- The domain, the zero byte and a key of the object are part of the preimage. -/
theorem lt_length_signingPreimage (hkeys : P.WritesKeys) (domain key : String)
    {members : List (String × Json)} (hmember : ∃ value, (key, value) ∈ members)
    (hkey : key ≠ "signature") :
    (utf8 domain).length + (utf8 key).length <
      (P.signingPreimage domain (.object members)).length := by
  obtain ⟨value, hmember⟩ := hmember
  have hkept : (key, value) ∈ members.filter fun member => member.1 != "signature" :=
    List.mem_filter.mpr ⟨hmember, by simpa using hkey⟩
  have hlength := hkeys _ _ _ hkept
  unfold Primitives.signingPreimage Primitives.canonicalWithoutSignature
  rw [List.length_append, List.length_cons]
  change _ < _ + ((utf8 (P.jcs (.object _))).length + 1)
  omega

/-- The preimage of an object which names the key of its node is longer than a hash. -/
theorem NodeSigned.lt_length_preimage (hkeys : P.WritesKeys) (object : NodeSigned) :
    32 < (object.preimage P).length := by
  have hlong : ∀ domain ∈ [checkpointDomain, witnessDomain, replicationReceiptDomain,
      volunteerLeaseDomain, volunteerReceiptDomain, repositoryManifestDomain,
      artifactReceiptDomain],
      ∀ key ∈ ["node_public_key", "witness_node_public_key", "relay_node_public_key"],
        key ≠ "signature" ∧ 32 ≤ (utf8 domain).length + (utf8 key).length := by decide
  have hpreimage : ∃ key members,
      key ∈ ["node_public_key", "witness_node_public_key", "relay_node_public_key"] ∧
        object.toJson P = .object members ∧ ∃ value, (key, value) ∈ members := by
    cases object with
    | checkpoint | volunteerLease | volunteerReceipt | manifest | artifactReceipt =>
        refine ⟨"node_public_key", _, by decide, rfl, ?_⟩
        simp
    | witness =>
        refine ⟨"witness_node_public_key", _, by decide, rfl, ?_⟩
        simp
    | replicationReceipt =>
        refine ⟨"relay_node_public_key", _, by decide, rfl, ?_⟩
        simp
  obtain ⟨key, members, hkey, hjson, hmember⟩ := hpreimage
  obtain ⟨hne, hlength⟩ := hlong object.domain (by cases object <;> simp [domain]) key hkey
  have hlt := lt_length_signingPreimage hkeys object.domain key hmember hne
  unfold NodeSigned.preimage
  rw [hjson]
  omega

end

/-- The domains are distinct names without a zero byte; equal preimages under domains of the
protocol have the same domain and the same unsigned object; and what a node signs for an
object is never as long as the hash of an event. -/
theorem signingDomains_separate (P : Primitives) (hkeys : P.WritesKeys) :
    protocolDomains.Nodup ∧ (∀ domain ∈ protocolDomains, (0 : UInt8) ∉ utf8 domain) ∧
      (∀ domain ∈ protocolDomains, ∀ other ∈ protocolDomains, ∀ value otherValue,
        P.signingPreimage domain value = P.signingPreimage other otherValue →
        domain = other ∧
          P.canonicalWithoutSignature value = P.canonicalWithoutSignature otherValue) ∧
      ∀ object : NodeSigned, object.domain ∈ protocolDomains ∧
        (object.preimage P).length ≠ 32 ∧
        ∀ previousHash canonicalEvent,
          object.preimage P ≠ P.eventHash previousHash canonicalEvent := by
  refine ⟨protocolDomains_nodup, zero_notMem_protocolDomain, ?_, ?_⟩
  · intro domain hdomain other hother value otherValue hsame
    exact signingPreimage_inj hdomain hother hsame
  · intro object
    have hlength : (object.preimage P).length ≠ 32 :=
      (object.lt_length_preimage hkeys).ne'
    refine ⟨object.domain_mem, hlength, ?_⟩
    intro previousHash canonicalEvent hsame
    rw [hsame, P.eventHash_length] at hlength
    exact hlength rfl

namespace Sample

theorem length_key_le_membersBytes {members : List (String × Json)} {key : String}
    {value : Json} (h : (key, value) ∈ members) (rest : Bytes) :
    (utf8 key).length ≤ (membersBytes members rest).length := by
  induction members with
  | nil => cases h
  | cons member others ih =>
      obtain ⟨name, v⟩ := member
      have hname := lt_length_stringBytes name (valueBytes v (membersBytes others rest))
      have hv := lt_length_valueBytes v (membersBytes others rest)
      simp only [membersBytes, List.length_cons]
      rcases List.mem_cons.mp h with heq | hmem
      · rw [Prod.mk.injEq] at heq
        obtain ⟨rfl, rfl⟩ := heq
        omega
      · have hrest := ih hmem
        omega

theorem writesKeys_library : library.WritesKeys := by
  intro members key value h
  have hmem : (key, value.mapNumbers canonNumber) ∈
      members.map fun member => (member.1, member.2.mapNumbers canonNumber) :=
    List.mem_map.mpr ⟨_, h, rfl⟩
  have hlength := length_key_le_membersBytes hmem []
  change _ ≤ (utf8 (jcs (.object members))).length
  rw [jcs, Json.mapNumbers_object, valueText, utf8_textOf, valueBytes, List.length_cons]
  omega

/-- The checkpoint of an empty log. -/
def emptyCheckpoint : Checkpoint := unsignedCheckpoint library origin 0 zeroHash 0

/-- Its preimage is no hash of an event, and no preimage of a witness. -/
theorem signingDomains_separate_emptyCheckpoint :
    (∀ previousHash canonicalEvent,
      library.signingPreimage checkpointDomain (emptyCheckpoint.toJson library) ≠
        library.eventHash previousHash canonicalEvent) ∧
    ∀ witness : CheckpointWitness,
      library.signingPreimage checkpointDomain (emptyCheckpoint.toJson library) ≠
        library.signingPreimage witnessDomain (witness.toJson library) := by
  obtain ⟨-, -, hinjective, hobjects⟩ := signingDomains_separate library writesKeys_library
  refine ⟨(hobjects (.checkpoint emptyCheckpoint)).2.2, ?_⟩
  intro witness hsame
  obtain ⟨hdomain, -⟩ := hinjective _ (hobjects (.checkpoint emptyCheckpoint)).1 _
    (hobjects (.witness witness)).1 _ _ hsame
  have hne : checkpointDomain ≠ witnessDomain := by decide
  exact hne hdomain

end Sample

end Commonwake
