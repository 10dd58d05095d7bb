import Mathlib.Tactic

/-!
# The bytes and the characters of a text

A text is stored as its UTF-8 bytes.  The characters are read off these bytes
by a structural recursion, which evaluates faster than the decoder of the
library and gives the same list.
-/

namespace TextBytes

/-- The UTF-8 bytes of a text. -/
def utf8 (text : String) : List UInt8 := text.toByteArray.data.toList

theorem utf8_injective : Function.Injective utf8 := by
  intro a b hab
  have hdata : a.toByteArray.data = b.toByteArray.data := Array.toList_inj.mp hab
  exact String.toByteArray_inj.mp (ByteArray.ext hdata)

theorem utf8_append (first second : String) :
    utf8 (first ++ second) = utf8 first ++ utf8 second := by
  simp [utf8, String.toByteArray_append]

/-- The number of a continuation byte. -/
def tailBits (byte : UInt8) : ℕ := byte.toNat - 128

/-- The characters of UTF-8 bytes, one after the other. -/
def decodeUtf8 : List UInt8 → List Char
  | [] => []
  | a :: rest =>
      if a.toNat < 128 then Char.ofNat a.toNat :: decodeUtf8 rest
      else match rest with
        | [] => []
        | b :: rest =>
            if a.toNat < 224 then
              Char.ofNat ((a.toNat - 192) * 64 + tailBits b) :: decodeUtf8 rest
            else match rest with
              | [] => []
              | c :: rest =>
                  if a.toNat < 240 then
                    Char.ofNat ((a.toNat - 224) * 4096 + tailBits b * 64 + tailBits c) ::
                      decodeUtf8 rest
                  else match rest with
                    | [] => []
                    | d :: rest =>
                        Char.ofNat ((a.toNat - 240) * 262144 + tailBits b * 4096 +
                          tailBits c * 64 + tailBits d) :: decodeUtf8 rest

section

variable {a b c d : UInt8} {rest : List UInt8}

theorem decodeUtf8_one (ha : a.toNat < 128) :
    decodeUtf8 (a :: rest) = Char.ofNat a.toNat :: decodeUtf8 rest := by
  rw [decodeUtf8.eq_def]
  exact if_pos ha

theorem decodeUtf8_two (hlow : 128 ≤ a.toNat) (hhigh : a.toNat < 224) :
    decodeUtf8 (a :: b :: rest) =
      Char.ofNat ((a.toNat - 192) * 64 + tailBits b) :: decodeUtf8 rest := by
  have hone : ¬ a.toNat < 128 := by omega
  rw [decodeUtf8.eq_def]
  simp only [hone, hhigh, if_true, if_false]

theorem decodeUtf8_three (hlow : 224 ≤ a.toNat) (hhigh : a.toNat < 240) :
    decodeUtf8 (a :: b :: c :: rest) =
      Char.ofNat ((a.toNat - 224) * 4096 + tailBits b * 64 + tailBits c) ::
        decodeUtf8 rest := by
  have hone : ¬ a.toNat < 128 := by omega
  have htwo : ¬ a.toNat < 224 := by omega
  rw [decodeUtf8.eq_def]
  simp only [hone, htwo, hhigh, if_true, if_false]

theorem decodeUtf8_four (hlow : 240 ≤ a.toNat) :
    decodeUtf8 (a :: b :: c :: d :: rest) =
      Char.ofNat ((a.toNat - 240) * 262144 + tailBits b * 4096 + tailBits c * 64 +
        tailBits d) :: decodeUtf8 rest := by
  have hone : ¬ a.toNat < 128 := by omega
  have htwo : ¬ a.toNat < 224 := by omega
  have hthree : ¬ a.toNat < 240 := by omega
  rw [decodeUtf8.eq_def]
  simp only [hone, htwo, hthree, if_false]

end

theorem toNat_ofNat_of_lt {n : ℕ} (h : n < 256) : (UInt8.ofNat n).toNat = n := by
  rw [UInt8.toNat_ofNat']
  exact Nat.mod_eq_of_lt h

theorem tailBits_ofNat (n : ℕ) : tailBits (UInt8.ofNat (n % 64 + 128)) = n % 64 := by
  have h : n % 64 + 128 < 256 := by omega
  unfold tailBits
  rw [toNat_ofNat_of_lt h]
  omega

theorem decodeUtf8_encode (c : Char) (rest : List UInt8) :
    decodeUtf8 (String.utf8EncodeChar c ++ rest) = c :: decodeUtf8 rest := by
  have hvalid : c.val.toNat < 1114112 := by
    have h := c.valid
    unfold UInt32.isValidChar Nat.isValidChar at h
    omega
  have hchar : Char.ofNat c.val.toNat = c := Char.ofNat_toNat c
  unfold String.utf8EncodeChar
  simp only
  generalize c.val.toNat = v at hvalid hchar
  split
  · next hone =>
      have ha : (UInt8.ofNat v).toNat = v := toNat_ofNat_of_lt (by omega)
      rw [List.singleton_append, decodeUtf8_one (by omega), ha, hchar]
  · split
    · next hone htwo =>
        have ha : (UInt8.ofNat (v / 64 % 32 + 192)).toNat = v / 64 % 32 + 192 :=
          toNat_ofNat_of_lt (by omega)
        have hsum : (v / 64 % 32 + 192 - 192) * 64 + v % 64 = v := by omega
        rw [List.cons_append, List.cons_append, List.nil_append,
          decodeUtf8_two (by omega) (by omega), ha, tailBits_ofNat, hsum, hchar]
    · split
      · next hone htwo hthree =>
          have ha : (UInt8.ofNat (v / 4096 % 16 + 224)).toNat = v / 4096 % 16 + 224 :=
            toNat_ofNat_of_lt (by omega)
          have hsum : (v / 4096 % 16 + 224 - 224) * 4096 + v / 64 % 64 * 64 + v % 64 = v := by
            omega
          rw [List.cons_append, List.cons_append, List.cons_append, List.nil_append,
            decodeUtf8_three (by omega) (by omega), ha, tailBits_ofNat, tailBits_ofNat, hsum,
            hchar]
      · next hone htwo hthree =>
          have ha : (UInt8.ofNat (v / 262144 % 8 + 240)).toNat = v / 262144 % 8 + 240 :=
            toNat_ofNat_of_lt (by omega)
          have hsum : (v / 262144 % 8 + 240 - 240) * 262144 + v / 4096 % 64 * 4096 +
              v / 64 % 64 * 64 + v % 64 = v := by omega
          rw [List.cons_append, List.cons_append, List.cons_append, List.cons_append,
            List.nil_append, decodeUtf8_four (by omega), ha, tailBits_ofNat, tailBits_ofNat,
            tailBits_ofNat, hsum, hchar]

/-- The characters of a text. -/
def chars (text : String) : List Char := decodeUtf8 (utf8 text)

theorem utf8_ofList_cons (c : Char) (rest : List Char) :
    utf8 (String.ofList (c :: rest)) =
      String.utf8EncodeChar c ++ utf8 (String.ofList rest) := by
  simp [utf8, String.toByteArray_ofList, List.utf8Encode]

@[simp] theorem chars_eq (text : String) : chars text = text.toList := by
  obtain ⟨l, rfl⟩ := text.exists_eq_ofList
  unfold chars
  rw [String.toList_ofList]
  induction l with
  | nil => rfl
  | cons c rest ih => rw [utf8_ofList_cons, decodeUtf8_encode, ih]

/-- The text with the given characters.  It is `String.ofList`, with the bytes
computed by one pass over the list. -/
def ofChars (characters : List Char) : String where
  toByteArray := ⟨⟨characters.flatMap String.utf8EncodeChar⟩⟩
  isValidUTF8 := ⟨characters, by
    apply ByteArray.ext
    rw [List.utf8Encode, List.data_toByteArray]⟩

@[simp] theorem ofChars_eq (characters : List Char) :
    ofChars characters = String.ofList characters := by
  apply utf8_injective
  simp [utf8, ofChars, String.toByteArray_ofList, List.utf8Encode]

/-! ## Texts without a zero byte -/

theorem append_zero_inj {first second left right : List UInt8} (hfirst : (0 : UInt8) ∉ first)
    (hsecond : (0 : UInt8) ∉ second) (h : first ++ 0 :: left = second ++ 0 :: right) :
    first = second ∧ left = right := by
  induction first generalizing second with
  | nil =>
      cases second with
      | nil =>
          rw [List.nil_append, List.nil_append, List.cons.injEq] at h
          exact ⟨rfl, h.2⟩
      | cons byte rest =>
          rw [List.nil_append, List.cons_append, List.cons.injEq] at h
          exact absurd (h.1 ▸ List.mem_cons_self) hsecond
  | cons byte rest ih =>
      cases second with
      | nil =>
          rw [List.nil_append, List.cons_append, List.cons.injEq] at h
          exact absurd (h.1 ▸ List.mem_cons_self) hfirst
      | cons other others =>
          rw [List.cons_append, List.cons_append, List.cons.injEq] at h
          obtain ⟨hrest, hleft⟩ := ih (fun hmem => hfirst (List.mem_cons_of_mem _ hmem))
            (fun hmem => hsecond (List.mem_cons_of_mem _ hmem)) h.2
          rw [h.1, hrest]
          exact ⟨rfl, hleft⟩

theorem zero_notMem_utf8_ofList {text : List Char}
    (h : ∀ c ∈ text, (0 : UInt8) ∉ String.utf8EncodeChar c) :
    (0 : UInt8) ∉ utf8 (String.ofList text) := by
  have hbytes : utf8 (String.ofList text) = text.flatMap String.utf8EncodeChar := by
    simp [utf8, String.toByteArray_ofList, List.utf8Encode]
  rw [hbytes, List.mem_flatMap]
  rintro ⟨c, hc, hzero⟩
  exact h c hc hzero

end TextBytes
