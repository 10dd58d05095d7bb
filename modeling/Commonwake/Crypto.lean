import Commonwake.Primitives

/-!
# Identifiers, signatures and event hashes

The functions of `crypto.rs`.  A signed object is passed as its JSON value;
its preimage is the domain, a zero byte and the canonical text of the value
without its `signature` member.
-/

namespace Commonwake

open Outcome

def lineageDomain := "commonwake.lineage.v1"
def delegationDomain := "commonwake.delegation.v1"
def revocationDomain := "commonwake.delegation-revocation.v1"
def keyRotationDomain := "commonwake.key-rotation.v1"
def contributionDomain := "commonwake.contribution.v1"
def ackDomain := "commonwake.ack.v1"
def logDomain : Bytes := utf8 "commonwake.log.v1" ++ [0]
def checkpointDomain := "commonwake.checkpoint.v1"
def witnessDomain := "commonwake.checkpoint-witness.v1"

def protocolVersion := "commonwake/0.1"

/-- The hexadecimal text of 32 zero bytes. -/
def zeroHash : String :=
  "0000000000000000000000000000000000000000000000000000000000000000"

def zeroBytes : Bytes := List.replicate 32 0

theorem encode_zeroBytes : HexText.encode zeroBytes = zeroHash := by decide

theorem decode_zeroHash : HexText.decode zeroHash = some zeroBytes := by
  rw [← encode_zeroBytes, HexText.decode_encode]

namespace Primitives

variable (P : Primitives)

/-- A public key in base64url. -/
def verifyingKeyFromB64 (value : String) : Result Bytes := do
  let bytes ← okOr (P.decodeBase64 value)
    (.validation "public_key is not valid base64url")
  rejectIf (bytes.length ≠ 32) (.validation "public_key must contain 32 bytes")
  rejectIf (P.isPublicKey bytes = false)
    (.validation "public_key is not a valid Ed25519 key")
  pure bytes

/-- A signature in base64url. -/
def signatureFromB64 (value : String) : Result Bytes := do
  let bytes ← okOr (P.decodeBase64 value)
    (.validation "signature is not valid base64url")
  rejectIf (bytes.length ≠ 64) (.validation "signature must contain 64 bytes")
  pure bytes

def sha256Hex (bytes : Bytes) : String := HexText.encode (P.sha256 bytes)

def prefixedId (tag : String) (bytes : Bytes) : String :=
  tag ++ P.sha256Hex bytes

def lineageId (publicKey : Bytes) : String := P.prefixedId "cwlin_" publicKey

/-- The canonical text of a signed object without its signature. -/
def canonicalWithoutSignature (value : Json) : String :=
  P.jcs (value.remove "signature")

def signingPreimage (domain : String) (value : Json) : Bytes :=
  utf8 domain ++ 0 :: utf8 (P.canonicalWithoutSignature value)

def signObject (secret : Bytes) (domain : String) (value : Json) : String :=
  P.encodeBase64 (P.sign secret (P.signingPreimage domain value))

def verifyObject (key : Bytes) (domain : String) (value : Json)
    (signature : String) : Result Unit := do
  let bytes ← P.signatureFromB64 signature
  rejectIf (P.verify key (P.signingPreimage domain value) bytes = false)
    (.unauthorized "invalid Ed25519 signature")

def eventHash (previousHash canonicalEvent : Bytes) : Bytes :=
  P.sha256 (logDomain ++ previousHash ++ canonicalEvent)

/-! ## What the functions guarantee -/

@[simp] theorem eventHash_length (previousHash canonicalEvent : Bytes) :
    (P.eventHash previousHash canonicalEvent).length = 32 :=
  P.sha256_length _

theorem sha256_eq_of_prefixedId_eq {tag : String} {first second : Bytes}
    (h : P.prefixedId tag first = P.prefixedId tag second) :
    P.sha256 first = P.sha256 second := by
  have hbytes := congrArg utf8 h
  unfold prefixedId at hbytes
  rw [utf8_append, utf8_append] at hbytes
  exact HexText.encode_injective (utf8_injective (List.append_cancel_left hbytes))

theorem verifyingKeyFromB64_publicKey (secret : Bytes) :
    P.verifyingKeyFromB64 (P.encodeBase64 (P.publicKey secret)) =
      .ok (P.publicKey secret) := by
  simp [verifyingKeyFromB64, P.publicKey_length, P.isPublicKey_publicKey,
    rejectIf]

theorem signatureFromB64_sign (secret message : Bytes) :
    P.signatureFromB64 (P.encodeBase64 (P.sign secret message)) =
      .ok (P.sign secret message) := by
  simp [signatureFromB64, P.sign_length, rejectIf]

theorem verifyObject_signObject (secret : Bytes) (domain : String)
    (value : Json) :
    P.verifyObject (P.publicKey secret) domain value
      (P.signObject secret domain value) = .ok () := by
  simp [verifyObject, signObject, P.signatureFromB64_sign, P.verify_sign,
    rejectIf]

/-- The preimage of an object depends on its canonical form only. -/
theorem signingPreimage_canon (domain : String) (value : Json) :
    P.signingPreimage domain (P.canon value) =
      P.signingPreimage domain value := by
  unfold signingPreimage canonicalWithoutSignature canon
  rw [Json.remove_mapNumbers, P.jcs_canon]

theorem canonicalWithoutSignature_canon (value : Json) :
    P.canonicalWithoutSignature (P.canon value) =
      P.canonicalWithoutSignature value := by
  unfold canonicalWithoutSignature canon
  rw [Json.remove_mapNumbers, P.jcs_canon]

end Primitives

theorem zero_notMem_sha256Hex (P : Primitives) (bytes : Bytes) :
    (0 : UInt8) ∉ utf8 (P.sha256Hex bytes) := by
  have hdigit : ∀ value < 16,
      (0 : UInt8) ∉ String.utf8EncodeChar (HexText.digit value) := by
    intro value hvalue
    interval_cases value <;> decide
  unfold Primitives.sha256Hex HexText.encode
  rw [TextBytes.ofChars_eq]
  refine zero_notMem_utf8_ofList fun c hc => ?_
  obtain ⟨byte, -, hpair⟩ := List.mem_flatMap.mp hc
  have hbound : byte.toNat < 256 := byte.toNat_lt
  simp only [HexText.bytePair, List.mem_cons, List.not_mem_nil, or_false] at hpair
  rcases hpair with rfl | rfl
  · exact hdigit _ (by omega)
  · exact hdigit _ (Nat.mod_lt _ (by norm_num))

end Commonwake
