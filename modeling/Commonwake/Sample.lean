import Commonwake.Crypto

/-!
# A library with the documented laws

A value of `Primitives` on which the model can be run.  Its texts are a
simple prefix code, its digest is a polynomial, and its signatures are
digests, so it has none of the cryptographic strength of the real library,
but it obeys every law which `Primitives` states.  Floats with an integral
value are written as integers, as RFC 8785 prescribes.

The texts are written and read as bytes, so that the kernel can evaluate them.
-/

namespace Commonwake

namespace Sample

open TextBytes

/-! ## Numbers -/

def digitByte (n : ℕ) : UInt8 := UInt8.ofNat (48 + n)

/-- The decimal digits of a number, the least significant one first, closed
by a semicolon. -/
def natBytes (n : ℕ) (rest : Bytes) : Bytes :=
  (Nat.digits 10 n).map digitByte ++ 59 :: rest

def readNat : Bytes → Option (ℕ × Bytes)
  | [] => none
  | byte :: rest =>
      if byte.toNat = 59 then some (0, rest)
      else (readNat rest).map fun (n, left) => (byte.toNat - 48 + 10 * n, left)

theorem readNat_digits {digits : List ℕ} (h : ∀ d ∈ digits, d < 10) (rest : Bytes) :
    readNat (digits.map digitByte ++ 59 :: rest) =
      some (Nat.ofDigits 10 digits, rest) := by
  induction digits with
  | nil => rfl
  | cons d digits ih =>
      have hd : d < 10 := h d List.mem_cons_self
      have hbyte : (digitByte d).toNat ≠ 59 ∧ (digitByte d).toNat - 48 = d := by
        interval_cases d <;> decide
      simp only [List.map_cons, List.cons_append, readNat, if_neg hbyte.1,
        ih fun e he => h e (List.mem_cons_of_mem _ he), Option.map_some, hbyte.2,
        Nat.ofDigits_cons]

@[simp] theorem readNat_natBytes (n : ℕ) (rest : Bytes) :
    readNat (natBytes n rest) = some (n, rest) := by
  have hdigits : ∀ d ∈ Nat.digits 10 n, d < 10 := fun d hd =>
    Nat.digits_lt_base (by norm_num) hd
  have h := readNat_digits hdigits rest
  rw [Nat.ofDigits_digits] at h
  exact h

def intBytes (n : ℤ) (rest : Bytes) : Bytes :=
  (if n < 0 then 109 else 112) :: natBytes n.natAbs rest

def readInt : Bytes → Option (ℤ × Bytes)
  | [] => none
  | byte :: rest =>
      if byte.toNat = 109 then (readNat rest).map fun (n, left) => (-(n : ℤ), left)
      else if byte.toNat = 112 then (readNat rest).map fun (n, left) => ((n : ℤ), left)
      else none

@[simp] theorem readInt_intBytes (n : ℤ) (rest : Bytes) :
    readInt (intBytes n rest) = some (n, rest) := by
  unfold intBytes
  by_cases hn : n < 0
  · rw [if_pos hn, readInt, if_pos (by decide), readNat_natBytes, Option.map_some]
    have h : -(n.natAbs : ℤ) = n := by omega
    simp only [h]
  · rw [if_neg hn, readInt, if_neg (by decide), if_pos (by decide), readNat_natBytes,
      Option.map_some]
    have h : (n.natAbs : ℤ) = n := by omega
    simp only [h]

/-! ## Texts -/

/-- The bytes of some text. -/
def IsText (bytes : Bytes) : Prop :=
  ∃ characters : List Char, bytes = characters.flatMap String.utf8EncodeChar

def textOf (bytes : Bytes) (h : IsText bytes) : String where
  toByteArray := ⟨⟨bytes⟩⟩
  isValidUTF8 := by
    obtain ⟨characters, rfl⟩ := h
    refine ⟨characters, ?_⟩
    apply ByteArray.ext
    rw [List.utf8Encode, List.data_toByteArray]

@[simp] theorem utf8_textOf (bytes : Bytes) (h : IsText bytes) :
    utf8 (textOf bytes h) = bytes := rfl

theorem isText_nil : IsText [] := ⟨[], rfl⟩

theorem IsText.append {first second : Bytes} (h : IsText first) (h' : IsText second) :
    IsText (first ++ second) := by
  obtain ⟨characters, rfl⟩ := h
  obtain ⟨others, rfl⟩ := h'
  exact ⟨characters ++ others, by rw [List.flatMap_append]⟩

theorem isText_utf8 (text : String) : IsText (utf8 text) := by
  obtain ⟨characters, rfl⟩ := text.exists_eq_ofList
  refine ⟨characters, ?_⟩
  simp [utf8, String.toByteArray_ofList, List.utf8Encode]

theorem utf8EncodeChar_ascii : ∀ n < 128,
    String.utf8EncodeChar (Char.ofNat n) = [UInt8.ofNat n] := by
  decide

/-- A byte below 128 is a character. -/
theorem IsText.cons {byte : UInt8} {rest : Bytes} (hbyte : byte.toNat < 128)
    (h : IsText rest) : IsText (byte :: rest) := by
  have hone : IsText [byte] := by
    refine ⟨[Char.ofNat byte.toNat], ?_⟩
    rw [List.flatMap_singleton, utf8EncodeChar_ascii _ hbyte, UInt8.ofNat_toNat]
  exact hone.append h

theorem isText_natBytes (n : ℕ) {rest : Bytes} (h : IsText rest) :
    IsText (natBytes n rest) := by
  have hdigits : ∀ digits : List ℕ, (∀ d ∈ digits, d < 10) →
      IsText (digits.map digitByte ++ 59 :: rest) := by
    intro digits
    induction digits with
    | nil => intro _; exact h.cons (by decide)
    | cons d digits ih =>
        intro hlt
        have hd : d < 10 := hlt d List.mem_cons_self
        refine (ih fun e he => hlt e (List.mem_cons_of_mem _ he)).cons ?_
        interval_cases d <;> decide
  exact hdigits _ fun d hd => Nat.digits_lt_base (by norm_num) hd

theorem isText_intBytes (n : ℤ) {rest : Bytes} (h : IsText rest) :
    IsText (intBytes n rest) := by
  refine (isText_natBytes n.natAbs h).cons ?_
  split <;> decide

/-- The text with the given bytes; others are dropped. -/
def ofBytes (bytes : Bytes) : String := ofChars (decodeUtf8 bytes)

@[simp] theorem ofBytes_utf8 (text : String) : ofBytes (utf8 text) = text := by
  have hchars : decodeUtf8 (utf8 text) = text.toList := chars_eq text
  rw [ofBytes, hchars, ofChars_eq, String.ofList_toList]

def intText (n : ℤ) : String := textOf (intBytes n []) (isText_intBytes n isText_nil)

def parseInt (text : String) : Option ℤ :=
  (readInt (utf8 text)).map Prod.fst

@[simp] theorem parseInt_intText (n : ℤ) : parseInt (intText n) = some n := by
  simp [parseInt, intText]

/-! ## Strings -/

/-- A string is written after the number of its bytes. -/
def stringBytes (text : String) (rest : Bytes) : Bytes :=
  natBytes (utf8 text).length (utf8 text ++ rest)

theorem isText_stringBytes (text : String) {rest : Bytes} (h : IsText rest) :
    IsText (stringBytes text rest) :=
  isText_natBytes _ ((isText_utf8 text).append h)

def readString (input : Bytes) : Option (String × Bytes) :=
  (readNat input).map fun (n, rest) => (ofBytes (rest.take n), rest.drop n)

@[simp] theorem readString_stringBytes (text : String) (rest : Bytes) :
    readString (stringBytes text rest) = some (text, rest) := by
  simp [readString, stringBytes]

/-! ## Values -/

mutual

def valueBytes : Json → Bytes → Bytes
  | .null, rest => 110 :: rest
  | .bool true, rest => 116 :: rest
  | .bool false, rest => 102 :: rest
  | .number (.int n), rest => 105 :: intBytes n rest
  | .number (.float bits), rest => 100 :: natBytes bits.toNat rest
  | .string text, rest => 115 :: stringBytes text rest
  | .array items, rest => 91 :: itemsBytes items rest
  | .object members, rest => 123 :: membersBytes members rest

def itemsBytes : List Json → Bytes → Bytes
  | [], rest => 93 :: rest
  | v :: items, rest => valueBytes v (itemsBytes items rest)

def membersBytes : List (String × Json) → Bytes → Bytes
  | [], rest => 125 :: rest
  | (key, v) :: members, rest =>
      115 :: stringBytes key (valueBytes v (membersBytes members rest))

end

mutual

theorem isText_valueBytes : ∀ (v : Json) {rest : Bytes}, IsText rest →
    IsText (valueBytes v rest)
  | .null, _, h => h.cons (by decide)
  | .bool true, _, h => h.cons (by decide)
  | .bool false, _, h => h.cons (by decide)
  | .number (.int n), _, h => (isText_intBytes n h).cons (by decide)
  | .number (.float bits), _, h => (isText_natBytes bits.toNat h).cons (by decide)
  | .string text, _, h => (isText_stringBytes text h).cons (by decide)
  | .array items, _, h => (isText_itemsBytes items h).cons (by decide)
  | .object members, _, h => (isText_membersBytes members h).cons (by decide)

theorem isText_itemsBytes : ∀ (items : List Json) {rest : Bytes}, IsText rest →
    IsText (itemsBytes items rest)
  | [], _, h => h.cons (by decide)
  | v :: items, _, h => isText_valueBytes v (isText_itemsBytes items h)

theorem isText_membersBytes : ∀ (members : List (String × Json)) {rest : Bytes},
    IsText rest → IsText (membersBytes members rest)
  | [], _, h => h.cons (by decide)
  | (key, v) :: members, _, h =>
      (isText_stringBytes key (isText_valueBytes v (isText_membersBytes members h))).cons
        (by decide)

end

mutual

/-- Read one value; the fuel bounds the depth of the recursion. -/
def readValue : ℕ → Bytes → Option (Json × Bytes)
  | 0, _ => none
  | _ + 1, [] => none
  | fuel + 1, tag :: rest =>
      if tag.toNat = 115 then
        (readString rest).map fun (text, left) => (.string text, left)
      else if tag.toNat = 123 then
        (readMembers fuel rest).map fun (members, left) => (.object members, left)
      else if tag.toNat = 91 then
        (readItems fuel rest).map fun (items, left) => (.array items, left)
      else if tag.toNat = 105 then
        (readInt rest).map fun (n, left) => (.number (.int n), left)
      else if tag.toNat = 110 then some (.null, rest)
      else if tag.toNat = 116 then some (.bool true, rest)
      else if tag.toNat = 102 then some (.bool false, rest)
      else if tag.toNat = 100 then
        (readNat rest).map fun (n, left) => (.number (.float (UInt64.ofNat n)), left)
      else none

def readItems : ℕ → Bytes → Option (List Json × Bytes)
  | 0, _ => none
  | _ + 1, [] => none
  | fuel + 1, tag :: rest =>
      if tag.toNat = 93 then some ([], rest)
      else do
        let (v, rest) ← readValue fuel (tag :: rest)
        let (items, left) ← readItems fuel rest
        pure (v :: items, left)

def readMembers : ℕ → Bytes → Option (List (String × Json) × Bytes)
  | 0, _ => none
  | _ + 1, [] => none
  | fuel + 1, tag :: rest =>
      if tag.toNat = 125 then some ([], rest)
      else do
        let (key, rest) ← readString rest
        let (v, rest) ← readValue fuel rest
        let (members, left) ← readMembers fuel rest
        pure ((key, v) :: members, left)

end

/-! ### The length of a text -/

theorem lt_length_natBytes (n : ℕ) (rest : Bytes) : rest.length < (natBytes n rest).length := by
  simp only [natBytes, List.length_append, List.length_cons]
  omega

theorem lt_length_stringBytes (text : String) (rest : Bytes) :
    (utf8 text).length + rest.length < (stringBytes text rest).length := by
  have h := lt_length_natBytes (utf8 text).length (utf8 text ++ rest)
  rw [List.length_append] at h
  exact h

mutual

theorem lt_length_valueBytes : ∀ (v : Json) (rest : Bytes),
    rest.length < (valueBytes v rest).length
  | .null, _ => by simp [valueBytes]
  | .bool true, _ => by simp [valueBytes]
  | .bool false, _ => by simp [valueBytes]
  | .number (.int n), rest => by
      have h := lt_length_natBytes n.natAbs rest
      simp only [valueBytes, intBytes, List.length_cons]
      omega
  | .number (.float bits), rest => by
      have h := lt_length_natBytes bits.toNat rest
      simp only [valueBytes, List.length_cons]
      omega
  | .string text, rest => by
      have h := lt_length_stringBytes text rest
      simp only [valueBytes, List.length_cons]
      omega
  | .array items, rest => by
      have h := lt_length_itemsBytes items rest
      simp only [valueBytes, List.length_cons]
      omega
  | .object members, rest => by
      have h := lt_length_membersBytes members rest
      simp only [valueBytes, List.length_cons]
      omega

theorem lt_length_itemsBytes : ∀ (items : List Json) (rest : Bytes),
    rest.length < (itemsBytes items rest).length
  | [], _ => by simp [itemsBytes]
  | v :: items, rest => by
      have hitems := lt_length_itemsBytes items rest
      have hv := lt_length_valueBytes v (itemsBytes items rest)
      simp only [itemsBytes]
      omega

theorem lt_length_membersBytes : ∀ (members : List (String × Json)) (rest : Bytes),
    rest.length < (membersBytes members rest).length
  | [], _ => by simp [membersBytes]
  | (key, v) :: members, rest => by
      have hmembers := lt_length_membersBytes members rest
      have hv := lt_length_valueBytes v (membersBytes members rest)
      have hkey := lt_length_stringBytes key (valueBytes v (membersBytes members rest))
      simp only [membersBytes, List.length_cons]
      omega

end

theorem length_le_membersBytes {members : List (String × Json)} {key text : String}
    (h : (key, Json.string text) ∈ members) (rest : Bytes) :
    (utf8 text).length ≤ (membersBytes members rest).length := by
  induction members with
  | nil => cases h
  | cons member others ih =>
      obtain ⟨name, v⟩ := member
      have hname := lt_length_stringBytes name (valueBytes v (membersBytes others rest))
      have hv := lt_length_valueBytes v (membersBytes others rest)
      simp only [membersBytes, List.length_cons]
      rcases List.mem_cons.mp h with heq | hmem
      · rw [Prod.mk.injEq] at heq
        obtain ⟨rfl, rfl⟩ := heq
        have htext := lt_length_stringBytes text (membersBytes others rest)
        simp only [valueBytes, List.length_cons] at hname ⊢
        omega
      · have hrest := ih hmem
        omega

/-! ### Reading -/

/-- The first byte of a value does not close a list. -/
theorem valueBytes_head (v : Json) (rest : Bytes) :
    ∃ tag left, valueBytes v rest = tag :: left ∧ tag.toNat ≠ 93 := by
  cases v with
  | null => exact ⟨_, _, rfl, by decide⟩
  | bool b => cases b <;> exact ⟨_, _, rfl, by decide⟩
  | number n => cases n <;> exact ⟨_, _, rfl, by decide⟩
  | string text => exact ⟨_, _, rfl, by decide⟩
  | array items => exact ⟨_, _, rfl, by decide⟩
  | object members => exact ⟨_, _, rfl, by decide⟩

mutual

theorem readValue_valueBytes : ∀ (v : Json) (fuel : ℕ) (rest : Bytes),
    (valueBytes v rest).length < fuel + rest.length →
    readValue fuel (valueBytes v rest) = some (v, rest)
  | v, 0, rest, h => by
      have hlt := lt_length_valueBytes v rest
      omega
  | .null, _ + 1, _, _ => rfl
  | .bool true, _ + 1, _, _ => rfl
  | .bool false, _ + 1, _, _ => rfl
  | .number (.int n), fuel + 1, rest, _ => by
      simp [valueBytes, readValue]
  | .number (.float bits), fuel + 1, rest, _ => by
      simp [valueBytes, readValue]
  | .string text, fuel + 1, rest, _ => by
      simp [valueBytes, readValue]
  | .array items, fuel + 1, rest, h => by
      simp only [valueBytes, List.length_cons] at h
      have hitems := readItems_itemsBytes items fuel rest (by omega)
      simp [valueBytes, readValue, hitems]
  | .object members, fuel + 1, rest, h => by
      simp only [valueBytes, List.length_cons] at h
      have hmembers := readMembers_membersBytes members fuel rest (by omega)
      simp [valueBytes, readValue, hmembers]

theorem readItems_itemsBytes : ∀ (items : List Json) (fuel : ℕ) (rest : Bytes),
    (itemsBytes items rest).length < fuel + rest.length →
    readItems fuel (itemsBytes items rest) = some (items, rest)
  | items, 0, rest, h => by
      have hlt := lt_length_itemsBytes items rest
      omega
  | [], _ + 1, _, _ => rfl
  | v :: items, fuel + 1, rest, h => by
      simp only [itemsBytes] at h ⊢
      have hlt := lt_length_itemsBytes items rest
      have hvlt := lt_length_valueBytes v (itemsBytes items rest)
      have hv := readValue_valueBytes v fuel (itemsBytes items rest) (by omega)
      have hitems := readItems_itemsBytes items fuel rest (by omega)
      obtain ⟨tag, left, hhead, htag⟩ := valueBytes_head v (itemsBytes items rest)
      rw [hhead] at hv ⊢
      rw [readItems, if_neg htag, hv]
      simp [hitems]

theorem readMembers_membersBytes :
    ∀ (members : List (String × Json)) (fuel : ℕ) (rest : Bytes),
    (membersBytes members rest).length < fuel + rest.length →
    readMembers fuel (membersBytes members rest) = some (members, rest)
  | members, 0, rest, h => by
      have hlt := lt_length_membersBytes members rest
      omega
  | [], _ + 1, _, _ => rfl
  | (key, v) :: members, fuel + 1, rest, h => by
      simp only [membersBytes, List.length_cons] at h
      have hlt := lt_length_membersBytes members rest
      have hvlt := lt_length_valueBytes v (membersBytes members rest)
      have hkey := lt_length_stringBytes key (valueBytes v (membersBytes members rest))
      have hv := readValue_valueBytes v fuel (membersBytes members rest) (by omega)
      have hmembers := readMembers_membersBytes members fuel rest (by omega)
      simp [membersBytes, readMembers, hv, hmembers]

end

def valueText (v : Json) : String :=
  textOf (valueBytes v []) (isText_valueBytes v isText_nil)

def parseValue (text : String) : Option Json :=
  match readValue ((utf8 text).length + 1) (utf8 text) with
  | some (v, []) => some v
  | _ => none

@[simp] theorem parseValue_valueText (v : Json) : parseValue (valueText v) = some v := by
  have h := readValue_valueBytes v ((valueBytes v []).length + 1) [] (by simp)
  simp [parseValue, valueText, h]

/-- The value of a float as an integer, when it is one of at most 53 bits. -/
def floatAsInt (bits : UInt64) : Option ℤ :=
  let exponent := bits.toNat / 2 ^ 52 % 2 ^ 11
  let mantissa := 2 ^ 52 + bits.toNat % 2 ^ 52
  let shift := 2 ^ (1075 - exponent)
  if bits.toNat % 2 ^ 63 = 0 then some 0
  else if exponent < 1023 ∨ 1075 < exponent ∨ mantissa % shift ≠ 0 then none
  else if bits.toNat < 2 ^ 63 then some (mantissa / shift : ℕ)
  else some (-(mantissa / shift : ℕ))

def canonNumber : JsonNumber → JsonNumber
  | .int n => .int n
  | .float bits =>
      match floatAsInt bits with
      | some n => .int n
      | none => .float bits

theorem canonNumber_idem (n : JsonNumber) :
    canonNumber (canonNumber n) = canonNumber n := by
  cases n with
  | int n => rfl
  | float bits =>
      cases h : floatAsInt bits with
      | some n => simp [canonNumber, h]
      | none => simp [canonNumber, h]

/-- The float 1.0 is read back as the integer 1. -/
example : canonNumber (.float 0x3FF0000000000000) = .int 1 := by decide

def jcs (v : Json) : String := valueText (v.mapNumbers canonNumber)

theorem mapNumbers_idem (v : Json) :
    (v.mapNumbers canonNumber).mapNumbers canonNumber = v.mapNumbers canonNumber := by
  rw [Json.mapNumbers_mapNumbers]
  congr 1
  funext n
  exact canonNumber_idem n

theorem length_utf8_jcs (members : List (String × Json)) (key text : String)
    (h : (key, Json.string text) ∈ members) :
    (utf8 text).length ≤ (utf8 (jcs (.object members))).length := by
  have hmem : (key, Json.string text) ∈
      members.map fun member => (member.1, member.2.mapNumbers canonNumber) :=
    List.mem_map.mpr ⟨_, h, rfl⟩
  have hlength := length_le_membersBytes hmem []
  rw [jcs, Json.mapNumbers_object, valueText, utf8_textOf, valueBytes, List.length_cons]
  omega

/-! ## Keys, digests and signatures -/

/-- Bytes are written in two digits of base 128. -/
def pairBytes : Bytes → Bytes
  | [] => []
  | byte :: rest => UInt8.ofNat (byte.toNat / 128) :: UInt8.ofNat (byte.toNat % 128) ::
      pairBytes rest

def readPairs : Bytes → Option Bytes
  | [] => some []
  | [_] => none
  | high :: low :: rest =>
      (readPairs rest).map fun bytes => UInt8.ofNat (128 * high.toNat + low.toNat) :: bytes

theorem toNat_pair (byte : UInt8) :
    (UInt8.ofNat (byte.toNat / 128)).toNat = byte.toNat / 128 ∧
      (UInt8.ofNat (byte.toNat % 128)).toNat = byte.toNat % 128 := by
  have hbound : byte.toNat < 256 := byte.toNat_lt
  exact ⟨toNat_ofNat_of_lt (by omega), toNat_ofNat_of_lt (by omega)⟩

theorem isText_pairBytes (bytes : Bytes) : IsText (pairBytes bytes) := by
  induction bytes with
  | nil => exact isText_nil
  | cons byte rest ih =>
      have hbound : byte.toNat < 256 := byte.toNat_lt
      obtain ⟨hhigh, hlow⟩ := toNat_pair byte
      exact (ih.cons (by omega)).cons (by omega)

theorem readPairs_pairBytes (bytes : Bytes) : readPairs (pairBytes bytes) = some bytes := by
  induction bytes with
  | nil => rfl
  | cons byte rest ih =>
      obtain ⟨hhigh, hlow⟩ := toNat_pair byte
      rw [pairBytes, readPairs, ih, Option.map_some, hhigh, hlow, Nat.div_add_mod,
        UInt8.ofNat_toNat]

def keyText (bytes : Bytes) : String := textOf (pairBytes bytes) (isText_pairBytes bytes)

def parseKeyText (text : String) : Option Bytes := readPairs (utf8 text)

@[simp] theorem parseKeyText_keyText (bytes : Bytes) :
    parseKeyText (keyText bytes) = some bytes := by
  simp [parseKeyText, keyText, readPairs_pairBytes]

/-- The bytes of a number, the least significant one first. -/
def digestBytes (n : ℕ) : Bytes :=
  (List.range 32).map fun i => UInt8.ofNat (n / 256 ^ i)

def digest (bytes : Bytes) : Bytes :=
  digestBytes ((bytes.foldl (fun acc byte => Nat.add (Nat.mul acc 257) byte.toNat) 7) %
    (2 ^ 256 - 189))

theorem digest_length (bytes : Bytes) : (digest bytes).length = 32 := by
  simp [digest, digestBytes]

def signatureOf (key message : Bytes) : Bytes :=
  let hash := digest (key ++ message)
  hash ++ hash

/-! ## Instants and addresses -/

def timestamp (t : ℤ) : String :=
  if FourDigitYear t then intText (t / nanosPerMilli) else "+"

def parseRfc3339 (text : String) : Option ℤ :=
  (parseInt text).map (· * nanosPerMilli)

def parseUrl (text : String) : Option Url :=
  if (utf8 "https://").isPrefixOf (utf8 text) then
    some ⟨"https", some "host", "", none, ofBytes ((utf8 text).takeWhile (· ≠ 35))⟩
  else none

def library : Primitives where
  sha256 := digest
  sha256_length := digest_length
  encodeBase64 := keyText
  decodeBase64 := parseKeyText
  decodeBase64_encode := parseKeyText_keyText
  publicKey := fun secret => digest (1 :: secret)
  isPublicKey := fun _ => true
  sign := fun secret message => signatureOf (digest (1 :: secret)) message
  verify := fun key message signature => signature == signatureOf key message
  publicKey_length := fun _ => digest_length _
  isPublicKey_publicKey := fun _ => rfl
  sign_length := fun _ _ => by simp [signatureOf, digest_length]
  verify_sign := fun _ _ => by simp
  canonNumber := canonNumber
  canonNumber_int := fun _ _ => rfl
  jcs := jcs
  toText := valueText
  parse := parseValue
  parse_jcs := fun v => parseValue_valueText (v.mapNumbers canonNumber)
  jcs_canon := fun v => by rw [jcs, mapNumbers_idem, jcs]
  length_jcs := length_utf8_jcs
  parse_toText := parseValue_valueText
  timestamp := timestamp
  parseRfc3339 := parseRfc3339
  parseRfc3339_timestamp := fun t ht => by
    have hms : t / nanosPerMilli * nanosPerMilli = truncateToMillis t := by
      unfold truncateToMillis nanosPerMilli
      omega
    simp [parseRfc3339, timestamp, ht, hms]
  parseRfc3339_timestamp_none := fun t ht => by
    rw [timestamp, if_neg ht]
    decide
  dateTimeText := intText
  parseDateTime := parseInt
  parseDateTime_text := parseInt_intText
  parseUrl := parseUrl
  toLowercase := fun text => ofChars ((chars text).map fun c =>
    if 'A' ≤ c ∧ c ≤ 'Z' then Char.ofNat (c.toNat + 32) else c)
  isAlphanumeric := isAsciiAlphanumeric

end Sample

end Commonwake
