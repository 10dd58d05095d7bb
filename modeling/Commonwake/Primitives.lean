import Commonwake.Json
import Commonwake.HexText
import Commonwake.Outcome

/-!
# The libraries under the node

The program calls crates for hashing, signatures, canonical JSON, time texts
and URLs.  `Primitives` holds one function for each, together with the
documented behaviour the program relies on.  Everything above this module is
written for an arbitrary value of `Primitives`.
-/

namespace Commonwake

open Outcome

export TextBytes (utf8 chars utf8_injective utf8_append chars_eq append_zero_inj
  zero_notMem_utf8_ofList)

/-- The error type of the program.  The texts of the JSON and database
variants are never shown to a caller and are left out. -/
inductive CommonwakeError where
  | validation (message : String)
  | unauthorized (message : String)
  | notFound (message : String)
  | conflict (message : String)
  | database
  | json
  | internal (message : String)
  deriving DecidableEq, Repr

abbrev Result (α : Type) := Except CommonwakeError α

abbrev Bytes := List UInt8

/-! ## Time

A `DateTime<Utc>` is an integer: the nanoseconds since the Unix epoch. -/

def nanosPerMilli : ℤ := 1000000

def minutes (n : ℤ) : ℤ := n * 60 * 1000000000

def days (n : ℤ) : ℤ := n * 24 * 60 * 60 * 1000000000

/-- The instant with its sub-millisecond part dropped. -/
def truncateToMillis (t : ℤ) : ℤ := t - t % nanosPerMilli

/-- The instants whose year has four digits: 0000-01-01 up to, and without,
10000-01-01. -/
def FourDigitYear (t : ℤ) : Prop :=
  -62167219200000000000 ≤ t ∧ t < 253402300800000000000

instance (t : ℤ) : Decidable (FourDigitYear t) := by
  unfold FourDigitYear
  infer_instance

theorem truncateToMillis_le (t : ℤ) : truncateToMillis t ≤ t := by
  unfold truncateToMillis nanosPerMilli
  omega

theorem lt_truncateToMillis_add (t : ℤ) :
    t < truncateToMillis t + nanosPerMilli := by
  unfold truncateToMillis nanosPerMilli
  omega

theorem truncateToMillis_mono {s t : ℤ} (h : s ≤ t) :
    truncateToMillis s ≤ truncateToMillis t := by
  unfold truncateToMillis nanosPerMilli
  omega

@[simp] theorem truncateToMillis_idem (t : ℤ) :
    truncateToMillis (truncateToMillis t) = truncateToMillis t := by
  unfold truncateToMillis nanosPerMilli
  omega

/-! ## URLs -/

/-- What the program reads of a parsed URL.  `withoutFragment` is its text
after `set_fragment(None)`. -/
structure Url where
  scheme : String
  host : Option String
  username : String
  password : Option String
  withoutFragment : String

/-! ## The libraries -/

structure Primitives where
  /-- SHA-256. -/
  sha256 : Bytes → Bytes
  sha256_length : ∀ bytes, (sha256 bytes).length = 32
  /-- URL-safe base64 without padding. -/
  encodeBase64 : Bytes → String
  decodeBase64 : String → Option Bytes
  decodeBase64_encode : ∀ bytes, decodeBase64 (encodeBase64 bytes) = some bytes
  /-- Ed25519: the public key of a secret, the byte strings which are public
  keys, signing and verification. -/
  publicKey : Bytes → Bytes
  isPublicKey : Bytes → Bool
  sign : (secret message : Bytes) → Bytes
  verify : (key message signature : Bytes) → Bool
  publicKey_length : ∀ secret, (publicKey secret).length = 32
  isPublicKey_publicKey : ∀ secret, isPublicKey (publicKey secret) = true
  sign_length : ∀ secret message, (sign secret message).length = 64
  verify_sign : ∀ secret message,
    verify (publicKey secret) message (sign secret message) = true
  /-- RFC 8785: the number which is read back from the canonical text of a
  number.  It is the number itself inside the exact range of a binary64. -/
  canonNumber : JsonNumber → JsonNumber
  canonNumber_int : ∀ n : ℤ, |n| ≤ 2 ^ 53 → canonNumber (.int n) = .int n
  /-- The canonical text, the ordinary text, and the reader of both.  The
  canonical text of an object is no shorter than a string in it. -/
  jcs : Json → String
  toText : Json → String
  parse : String → Option Json
  parse_jcs : ∀ value, parse (jcs value) = some (value.mapNumbers canonNumber)
  jcs_canon : ∀ value, jcs (value.mapNumbers canonNumber) = jcs value
  length_jcs : ∀ members key text, (key, Json.string text) ∈ members →
    (utf8 text).length ≤ (utf8 (jcs (.object members))).length
  parse_toText : ∀ value, parse (toText value) = some value
  /-- RFC 3339 with milliseconds, and its reader, which knows only years of
  four digits. -/
  timestamp : ℤ → String
  parseRfc3339 : String → Option ℤ
  parseRfc3339_timestamp : ∀ t, FourDigitYear t →
    parseRfc3339 (timestamp t) = some (truncateToMillis t)
  parseRfc3339_timestamp_none : ∀ t, ¬ FourDigitYear t →
    parseRfc3339 (timestamp t) = none
  /-- The JSON form of an instant, in full precision and for every year. -/
  dateTimeText : ℤ → String
  parseDateTime : String → Option ℤ
  parseDateTime_text : ∀ t, parseDateTime (dateTimeText t) = some t
  parseUrl : String → Option Url
  /-- The Unicode tables. -/
  toLowercase : String → String
  isAlphanumeric : Char → Bool

namespace Primitives

variable (P : Primitives)

/-- The value read back from the canonical text of a value. -/
def canon (value : Json) : Json := value.mapNumbers P.canonNumber

@[simp] theorem parse_jcs' (value : Json) :
    P.parse (P.jcs value) = some (P.canon value) :=
  P.parse_jcs value

@[simp] theorem jcs_canon' (value : Json) :
    P.jcs (P.canon value) = P.jcs value :=
  P.jcs_canon value

attribute [simp] Primitives.parse_toText Primitives.decodeBase64_encode
  Primitives.parseDateTime_text

/-- Two values have the same canonical text exactly when they are read back
as the same value. -/
theorem jcs_eq_iff {a b : Json} : P.jcs a = P.jcs b ↔ P.canon a = P.canon b := by
  constructor
  · intro h
    have hparse := congrArg P.parse h
    simpa using hparse
  · intro h
    rw [← P.jcs_canon' a, h, P.jcs_canon' b]

@[simp] theorem canon_canon (value : Json) :
    P.canon (P.canon value) = P.canon value :=
  P.jcs_eq_iff.mp (P.jcs_canon' value)

@[simp] theorem canon_string (s : String) :
    P.canon (.string s) = .string s := rfl

@[simp] theorem canon_null : P.canon .null = .null := rfl

@[simp] theorem canon_bool (b : Bool) : P.canon (.bool b) = .bool b := rfl

@[simp] theorem canon_object (members : List (String × Json)) :
    P.canon (.object members) =
      .object (members.map fun member => (member.1, P.canon member.2)) :=
  Json.mapNumbers_object P.canonNumber members

@[simp] theorem canon_array (items : List Json) :
    P.canon (.array items) = .array (items.map P.canon) :=
  Json.mapNumbers_array P.canonNumber items

theorem canon_number (n : JsonNumber) :
    P.canon (.number n) = .number (P.canonNumber n) := rfl

/-- The stored form of an instant. -/
def parseTimestamp (value : String) : Result ℤ :=
  okOr (P.parseRfc3339 value)
    (.internal s!"stored timestamp is invalid: {value}")

@[simp] theorem parseTimestamp_timestamp {t : ℤ} (h : FourDigitYear t) :
    P.parseTimestamp (P.timestamp t) = .ok (truncateToMillis t) := by
  simp [parseTimestamp, P.parseRfc3339_timestamp t h]

theorem isOk_parseTimestamp_timestamp (t : ℤ) :
    isOk (P.parseTimestamp (P.timestamp t)) ↔ FourDigitYear t := by
  by_cases h : FourDigitYear t
  · simp [h]
  · simp [parseTimestamp, P.parseRfc3339_timestamp_none t h, h]

end Primitives

/-! ## Texts -/

/-- `char::is_whitespace`: the Unicode property White_Space. -/
def isWhitespace (c : Char) : Bool :=
  let n := c.toNat
  (9 ≤ n && n ≤ 13) || n == 0x20 || n == 0x85 || n == 0xA0 || n == 0x1680 ||
    (0x2000 ≤ n && n ≤ 0x200A) || n == 0x2028 || n == 0x2029 || n == 0x202F ||
    n == 0x205F || n == 0x3000

/-- `char::is_control`: the Unicode category Cc. -/
def isControl (c : Char) : Bool :=
  c.toNat < 0x20 || (0x7F ≤ c.toNat && c.toNat ≤ 0x9F)

/-- `str::trim`. -/
def trim (text : String) : String :=
  String.ofList
    ((((chars text).dropWhile isWhitespace).reverse.dropWhile isWhitespace).reverse)

/-- `str::len`: the length in UTF-8 bytes. -/
def byteLen (text : String) : ℕ := (utf8 text).length

theorem byteLen_append (first second : String) :
    byteLen (first ++ second) = byteLen first + byteLen second := by
  unfold byteLen
  rw [utf8_append, List.length_append]

/-- `chars().count()`. -/
def charCount (text : String) : ℕ := (chars text).length

def isDigit (c : Char) : Bool := '0' ≤ c && c ≤ '9'

def isLowerHex (c : Char) : Bool := isDigit c || ('a' ≤ c && c ≤ 'f')

def isUpperHex (c : Char) : Bool := isDigit c || ('A' ≤ c && c ≤ 'F')

def isAsciiAlphanumeric (c : Char) : Bool :=
  isDigit c || ('a' ≤ c && c ≤ 'z') || ('A' ≤ c && c ≤ 'Z')

/-- Are the entries of a list pairwise distinct?  The source compares the
size of a `BTreeSet` of them with the length of the list. -/
def allDistinct {α : Type} [DecidableEq α] (values : List α) : Bool :=
  values.dedup.length == values.length

end Commonwake
