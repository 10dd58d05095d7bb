import Commonwake.HexText

/-!
# Texts of cursors

A cursor is written as two texts around a separator.  It is read back by
splitting it at the first separator, when the first text does not contain it.
-/

namespace CursorText

open TextBytes

/-- `split_once` at a character. -/
def splitOnce (separator : Char) (text : String) : Option (String × String) :=
  let (first, rest) := (chars text).span (· != separator)
  match rest with
  | _ :: second => some (String.ofList first, String.ofList second)
  | [] => none

def isDecimal (digits : List Char) : Bool := !digits.isEmpty && digits.all Char.isDigit

def parseDigits (digits : List Char) : Option ℤ :=
  if isDecimal digits then some (Nat.ofDigitChars 10 digits 0) else none

/-- `str::parse::<i64>`: decimal digits, perhaps after a sign, in the range of the type. -/
def parseI64 (text : String) : Option ℤ := do
  let value ← match chars text with
    | '-' :: digits => (parseDigits digits).map Neg.neg
    | '+' :: digits => parseDigits digits
    | digits => parseDigits digits
  if -2 ^ 63 ≤ value ∧ value < 2 ^ 63 then some value else none

/-- `u8::is_ascii_hexdigit` for every byte. -/
def isHex (text : String) : Bool := (chars text).all fun c => (HexText.digitValue c).isSome

/-! ## Splitting -/

theorem splitOnce_append {separator : Char} {first : String} (second : String)
    (h : separator ∉ chars first) :
    splitOnce separator (first ++ separator.toString ++ second) = some (first, second) := by
  have hchars : chars (first ++ separator.toString ++ second) =
      first.toList ++ separator :: second.toList := by
    simp
  have hfirst : ∀ c ∈ first.toList, (c != separator) = true := by
    intro c hc
    rw [bne_iff_ne]
    rintro rfl
    exact h (by rwa [chars_eq])
  unfold splitOnce
  rw [hchars, List.span_eq_takeWhile_dropWhile, List.takeWhile_append_of_pos hfirst,
    List.dropWhile_append_of_pos hfirst]
  simp

/-! ## Decimal numbers -/

theorem parseDigits_toDigits (n : ℕ) : parseDigits (Nat.toDigits 10 n) = some (n : ℤ) := by
  have hdecimal : isDecimal (Nat.toDigits 10 n) = true := by
    unfold isDecimal
    rw [Bool.and_eq_true, List.all_eq_true]
    constructor
    · have hpos : 0 < (Nat.toDigits 10 n).length := Nat.length_toDigits_pos
      cases hdigits : Nat.toDigits 10 n with
      | nil =>
          rw [hdigits] at hpos
          exact absurd hpos (lt_irrefl _)
      | cons digit rest => rfl
    · intro c hc
      exact Nat.isDigit_of_mem_toDigits (by norm_num) (by norm_num) hc
  rw [parseDigits, if_pos hdecimal, Nat.ofDigitChars_ten_toDigits]

theorem chars_toString_natCast (n : ℕ) : chars (toString (n : ℤ)) = Nat.toDigits 10 n := by
  rw [chars_eq]
  exact Nat.toList_repr

theorem parseI64_toString {n : ℤ} (hlow : 0 ≤ n) (hhigh : n < 2 ^ 63) :
    parseI64 (toString n) = some n := by
  obtain ⟨m, rfl⟩ := Int.eq_ofNat_of_zero_le hlow
  have hchars := chars_toString_natCast m
  have hsign : ∀ c ∈ Nat.toDigits 10 m, c ≠ '-' ∧ c ≠ '+' := by
    intro c hc
    have hdigit := Nat.isDigit_of_mem_toDigits (by norm_num) (by norm_num) hc
    constructor <;> rintro rfl <;> exact absurd hdigit (by decide)
  have hrange : -2 ^ 63 ≤ (m : ℤ) ∧ (m : ℤ) < 2 ^ 63 := ⟨by omega, hhigh⟩
  have hvalue := parseDigits_toDigits m
  unfold parseI64
  rw [hchars]
  generalize Nat.toDigits 10 m = digits at hsign hvalue
  split
  · next heq => exact absurd rfl (hsign '-' List.mem_cons_self).1
  · next heq => exact absurd rfl (hsign '+' List.mem_cons_self).2
  · rw [hvalue, Option.bind_eq_bind, Option.bind_some]
    exact if_pos hrange

/-! ## Lengths -/

/-- A character which is one byte long. -/
def IsAscii (c : Char) : Prop := c.toNat < 128

theorem length_utf8_of_ascii {text : String} (h : ∀ c ∈ chars text, IsAscii c) :
    (utf8 text).length = (chars text).length := by
  rw [chars_eq] at h ⊢
  rw [← String.ofList_toList (s := text)]
  generalize text.toList = characters at h
  rw [String.toList_ofList]
  induction characters with
  | nil => rfl
  | cons c rest ih =>
      have hc : (String.utf8EncodeChar c).length = 1 := by
        rw [String.length_utf8EncodeChar, Char.utf8Size_eq_one_iff]
        have hlt : c.toNat < 128 := h c List.mem_cons_self
        exact UInt32.le_iff_toNat_le.mpr (by
          change c.toNat ≤ 127
          omega)
      rw [utf8_ofList_cons, List.length_append, hc,
        ih fun d hd => h d (List.mem_cons_of_mem _ hd), List.length_cons, Nat.add_comm]

theorem length_utf8_toString {n : ℤ} (hlow : 0 ≤ n) (hhigh : n < 2 ^ 63) :
    (utf8 (toString n)).length ≤ 19 := by
  obtain ⟨m, rfl⟩ := Int.eq_ofNat_of_zero_le hlow
  have hascii : ∀ c ∈ chars (toString (m : ℤ)), IsAscii c := by
    intro c hc
    rw [chars_toString_natCast] at hc
    have hdigit := Nat.isDigit_of_mem_toDigits (by norm_num) (by norm_num) hc
    rw [Char.isDigit, Bool.and_eq_true, decide_eq_true_eq, decide_eq_true_eq] at hdigit
    have hupper : c.toNat ≤ 57 := hdigit.2
    exact lt_of_le_of_lt hupper (by norm_num)
  rw [length_utf8_of_ascii hascii, chars_toString_natCast]
  have hbound : m < 10 ^ 19 := by omega
  exact Nat.toDigits_length 10 m 19 (by norm_num) hbound

theorem chars_encode (bytes : List UInt8) :
    chars (HexText.encode bytes) = bytes.flatMap HexText.bytePair := by
  rw [HexText.encode, chars_eq, ofChars_eq, String.toList_ofList]

theorem mem_chars_encode {bytes : List UInt8} {c : Char}
    (h : c ∈ chars (HexText.encode bytes)) : ∃ value < 16, c = HexText.digit value := by
  rw [chars_encode, List.mem_flatMap] at h
  obtain ⟨byte, -, hpair⟩ := h
  have hbound : byte.toNat < 256 := byte.toNat_lt
  simp only [HexText.bytePair, List.mem_cons, List.not_mem_nil, or_false] at hpair
  rcases hpair with rfl | rfl
  · exact ⟨_, by omega, rfl⟩
  · exact ⟨_, Nat.mod_lt _ (by norm_num), rfl⟩

theorem length_utf8_encode (bytes : List UInt8) :
    (utf8 (HexText.encode bytes)).length = 2 * bytes.length := by
  have hascii : ∀ c ∈ chars (HexText.encode bytes), IsAscii c := by
    intro c hc
    obtain ⟨value, hvalue, rfl⟩ := mem_chars_encode hc
    have hdigits : ∀ value < 16, (HexText.digit value).toNat < 128 := by decide
    exact hdigits value hvalue
  rw [length_utf8_of_ascii hascii, chars_encode, List.length_flatMap]
  induction bytes with
  | nil => rfl
  | cons byte rest ih =>
      have hrest : ∀ c ∈ chars (HexText.encode rest), IsAscii c := by
        intro c hc
        apply hascii
        rw [chars_encode, List.flatMap_cons, List.mem_append]
        rw [chars_encode] at hc
        exact .inr hc
      rw [List.map_cons, List.sum_cons, ih hrest, List.length_cons]
      change 2 + 2 * rest.length = 2 * (rest.length + 1)
      omega

theorem isHex_encode (bytes : List UInt8) : isHex (HexText.encode bytes) = true := by
  unfold isHex
  rw [List.all_eq_true]
  intro c hc
  obtain ⟨value, hvalue, rfl⟩ := mem_chars_encode hc
  rw [HexText.digitValue_digit hvalue]
  rfl

end CursorText
