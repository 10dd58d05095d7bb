import Commonwake.TextBytes

/-!
# Hexadecimal text

Bytes are written with lower-case digits and read in either case.  Reading is
therefore a left inverse of writing, while writing after reading only
restores the lower-case spelling of the text.
-/

namespace HexText

/-- The lower-case digit with the given value. -/
def digit (value : ℕ) : Char :=
  if value < 10 then Char.ofNat (48 + value) else Char.ofNat (87 + value)

/-- The value of a digit of either case. -/
def digitValue (c : Char) : Option ℕ :=
  if '0' ≤ c ∧ c ≤ '9' then some (c.toNat - 48)
  else if 'a' ≤ c ∧ c ≤ 'f' then some (c.toNat - 87)
  else if 'A' ≤ c ∧ c ≤ 'F' then some (c.toNat - 55)
  else none

/-- The two digits of a byte, high half first. -/
def bytePair (byte : UInt8) : List Char :=
  [digit (byte.toNat / 16), digit (byte.toNat % 16)]

def encode (bytes : List UInt8) : String :=
  TextBytes.ofChars (bytes.flatMap bytePair)

/-- Read two digits a byte; an odd length or a foreign character is an
error. -/
def decodeChars : List Char → Option (List UInt8)
  | [] => some []
  | [_] => none
  | high :: low :: rest => do
      let h ← digitValue high
      let l ← digitValue low
      let bytes ← decodeChars rest
      pure (UInt8.ofNat (16 * h + l) :: bytes)

def decode (text : String) : Option (List UInt8) :=
  decodeChars (TextBytes.chars text)

/-! ## Reading what was written -/

theorem digitValue_digit {value : ℕ} (hvalue : value < 16) :
    digitValue (digit value) = some value := by
  interval_cases value <;> decide

theorem decodeChars_bytes (bytes : List UInt8) :
    decodeChars (bytes.flatMap bytePair) = some bytes := by
  induction bytes with
  | nil => rfl
  | cons byte rest ih =>
      have hbound := byte.toNat_lt_size
      have hhigh : byte.toNat / 16 < 16 := by
        simp only [UInt8.size] at hbound
        omega
      have hlow : byte.toNat % 16 < 16 := Nat.mod_lt _ (by decide)
      have hbyte : UInt8.ofNat (16 * (byte.toNat / 16) + byte.toNat % 16) =
          byte := by
        rw [Nat.div_add_mod, UInt8.ofNat_toNat]
      simp only [List.flatMap_cons, bytePair, List.cons_append, List.nil_append,
        decodeChars, digitValue_digit hhigh, digitValue_digit hlow, ih,
        Option.bind_eq_bind, Option.bind_some, hbyte, Option.pure_def]

@[simp] theorem decode_encode (bytes : List UInt8) :
    decode (encode bytes) = some bytes := by
  simp [decode, encode, decodeChars_bytes]

theorem encode_injective : Function.Injective encode := by
  intro a b hab
  have h := congrArg decode hab
  simpa using h

/-! ## Writing what was read -/

/-- The lower-case spelling of one character. -/
def lowerChar (c : Char) : Char :=
  if 'A' ≤ c ∧ c ≤ 'Z' then Char.ofNat (c.toNat + 32) else c

theorem digit_digitValue {c : Char} {value : ℕ}
    (h : digitValue c = some value) :
    value < 16 ∧ digit value = lowerChar c := by
  obtain ⟨n, hn⟩ : ∃ n, n = c.toNat := ⟨_, rfl⟩
  have hc : c = Char.ofNat n := by rw [hn, Char.ofNat_toNat]
  have hle : ∀ a b : Char, a ≤ b ↔ a.toNat ≤ b.toNat := fun a b => Iff.rfl
  unfold digitValue at h
  simp only [hle, ← hn] at h
  -- A digit lies in one of three short ranges, each checked point by point.
  split at h
  · next hrange =>
      obtain ⟨hlow, hhigh⟩ := hrange
      simp only [Option.some.injEq] at h
      change 48 ≤ n at hlow
      change n ≤ 57 at hhigh
      subst h hc
      clear hn
      interval_cases n <;> decide
  · split at h
    · next hrange =>
        obtain ⟨hlow, hhigh⟩ := hrange
        simp only [Option.some.injEq] at h
        change 97 ≤ n at hlow
        change n ≤ 102 at hhigh
        subst h hc
        clear hn
        interval_cases n <;> decide
    · split at h
      · next hrange =>
          obtain ⟨hlow, hhigh⟩ := hrange
          simp only [Option.some.injEq] at h
          change 65 ≤ n at hlow
          change n ≤ 70 at hhigh
          subst h hc
          clear hn
          interval_cases n <;> decide
      · cases h

theorem bytes_decodeChars {text : List Char} {bytes : List UInt8}
    (h : decodeChars text = some bytes) :
    bytes.flatMap bytePair = text.map lowerChar := by
  induction text using decodeChars.induct generalizing bytes with
  | case1 =>
      simp only [decodeChars, Option.some.injEq] at h
      subst h
      rfl
  | case2 c => simp [decodeChars] at h
  | case3 high low rest ih =>
      simp only [decodeChars, Option.bind_eq_bind, Option.bind_eq_some_iff,
        Option.pure_def, Option.some.injEq] at h
      obtain ⟨hi, hhigh, lo, hlow, tail, htail, rfl⟩ := h
      obtain ⟨hhi, hdigitHigh⟩ := digit_digitValue hhigh
      obtain ⟨hlo, hdigitLow⟩ := digit_digitValue hlow
      have hnat : (UInt8.ofNat (16 * hi + lo)).toNat = 16 * hi + lo := by
        rw [UInt8.toNat_ofNat']
        exact Nat.mod_eq_of_lt (by omega)
      have hdiv : (16 * hi + lo) / 16 = hi := by omega
      have hmod : (16 * hi + lo) % 16 = lo := by omega
      simp only [List.flatMap_cons, bytePair, hnat, hdiv, hmod, hdigitHigh,
        hdigitLow, List.cons_append, List.nil_append, ih htail, List.map_cons]

/-- The lower-case spelling of a text. -/
def lower (text : String) : String :=
  String.ofList (text.toList.map lowerChar)

/-- Writing the bytes of a readable text gives its lower-case spelling. -/
theorem encode_of_decode {text : String} {bytes : List UInt8}
    (h : decode text = some bytes) :
    encode bytes = lower text := by
  unfold decode at h
  rw [TextBytes.chars_eq] at h
  unfold encode lower
  rw [TextBytes.ofChars_eq, bytes_decodeChars h]

/-- A text which reads as a written text is that text, up to the case of its
letters. -/
theorem lower_eq_of_decode_eq {first second : String}
    (h : decode first = decode second) (hsecond : ∃ bytes, second = encode bytes) :
    lower first = second := by
  obtain ⟨bytes, rfl⟩ := hsecond
  rw [decode_encode] at h
  rw [← encode_of_decode h]

end HexText
