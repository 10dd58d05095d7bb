import Commonwake.CursorText
import Commonwake.Sample
import Mathlib.Data.String.Basic

/-!
# A library which prints instants

Where the order and the length of the printed instants count, the sample
library does not do.  Here an instant is printed as the seventeen digits of a
number of milliseconds, in the places of an RFC 3339 text.  The number is
chosen so that the first minute of 1970 is printed as it really is.
-/

namespace Commonwake

namespace Sample

open TextBytes CursorText

/-! ## Digits in a layout -/

/-- A digit for every empty place. -/
def slots : List (Option Char) → ℕ
  | [] => 0
  | some _ :: rest => slots rest
  | none :: rest => slots rest + 1

def digitAt (n place : ℕ) : Char := Char.ofNat (48 + n / 10 ^ place % 10)

/-- The layout with the last digits of the number in its empty places. -/
def fill : List (Option Char) → ℕ → List Char
  | [], _ => []
  | some c :: rest, n => c :: fill rest n
  | none :: rest, n => digitAt n (slots rest) :: fill rest n

/-- The number which is written with the digits of a text. -/
def readDigits : ℕ → List Char → ℕ
  | value, [] => value
  | value, c :: rest =>
      if c.isDigit then readDigits (10 * value + (c.toNat - 48)) rest
      else readDigits value rest

theorem digit_facts : ∀ d < 10, (Char.ofNat (48 + d)).isDigit = true ∧
    (Char.ofNat (48 + d)).toNat = 48 + d := by
  decide

theorem isDigit_digitAt (n place : ℕ) : (digitAt n place).isDigit = true :=
  (digit_facts _ (Nat.mod_lt _ (by norm_num))).1

theorem toNat_digitAt (n place : ℕ) : (digitAt n place).toNat = 48 + n / 10 ^ place % 10 :=
  (digit_facts _ (Nat.mod_lt _ (by norm_num))).2

theorem length_fill (layout : List (Option Char)) (n : ℕ) :
    (fill layout n).length = layout.length := by
  induction layout with
  | nil => rfl
  | cons place rest ih => cases place <;> simp [fill, ih]

theorem mem_fill {layout : List (Option Char)} {n : ℕ} {c : Char} (h : c ∈ fill layout n) :
    some c ∈ layout ∨ c.isDigit = true := by
  induction layout with
  | nil => cases h
  | cons place rest ih =>
      cases place with
      | some separator =>
          rcases List.mem_cons.mp h with rfl | hrest
          · exact .inl List.mem_cons_self
          · exact (ih hrest).imp_left (List.mem_cons_of_mem _)
      | none =>
          rcases List.mem_cons.mp h with rfl | hrest
          · exact .inr (isDigit_digitAt n _)
          · exact (ih hrest).imp_left (List.mem_cons_of_mem _)

/-- The digits before the last ones. -/
theorem mod_pow_succ (n k : ℕ) :
    n % 10 ^ (k + 1) = 10 ^ k * (n / 10 ^ k % 10) + n % 10 ^ k := by
  rw [pow_succ, Nat.mod_mul, add_comm]

theorem readDigits_fill {layout : List (Option Char)}
    (hlayout : ∀ c, some c ∈ layout → c.isDigit = false) (value n : ℕ) :
    readDigits value (fill layout n) =
      10 ^ slots layout * value + n % 10 ^ slots layout := by
  induction layout generalizing value with
  | nil =>
      rw [slots, pow_zero, Nat.mod_one, one_mul]
      rfl
  | cons place rest ih =>
      have hrest : ∀ c, some c ∈ rest → c.isDigit = false := fun c hc =>
        hlayout c (List.mem_cons_of_mem _ hc)
      cases place with
      | some separator =>
          have hseparator := hlayout separator List.mem_cons_self
          rw [fill, readDigits, if_neg (by rw [hseparator]; decide)]
          exact ih hrest value
      | none =>
          rw [fill, readDigits, if_pos (isDigit_digitAt n _), ih hrest, toNat_digitAt, slots,
            mod_pow_succ, pow_succ, Nat.add_sub_cancel_left]
          ring

/-- Texts of one layout are in the order of their numbers. -/
theorem fill_lt_fill (layout : List (Option Char)) (n m : ℕ) :
    fill layout n < fill layout m ↔
      n % 10 ^ slots layout < m % 10 ^ slots layout := by
  induction layout with
  | nil => simp [fill, slots, Nat.mod_one]
  | cons place rest ih =>
      cases place with
      | some separator =>
          rw [fill, fill, List.cons_lt_cons_iff, slots, ih]
          simp
      | none =>
          have hpos : 0 < 10 ^ slots rest := by positivity
          have hn := Nat.mod_lt n hpos
          have hm := Nat.mod_lt m hpos
          have hdigit : ∀ a b, digitAt a (slots rest) < digitAt b (slots rest) ↔
              a / 10 ^ slots rest % 10 < b / 10 ^ slots rest % 10 := by
            intro a b
            rw [Char.lt_def, UInt32.lt_iff_toNat_lt]
            change (digitAt a _).toNat < (digitAt b _).toNat ↔ _
            rw [toNat_digitAt, toNat_digitAt]
            omega
          have hsame : digitAt n (slots rest) = digitAt m (slots rest) ↔
              n / 10 ^ slots rest % 10 = m / 10 ^ slots rest % 10 := by
            constructor
            · intro h
              have hvalue := congrArg Char.toNat h
              rw [toNat_digitAt, toNat_digitAt] at hvalue
              omega
            · intro h
              unfold digitAt
              rw [h]
          rw [fill, fill, List.cons_lt_cons_iff, slots, ih, hdigit, hsame, mod_pow_succ,
            mod_pow_succ]
          generalize n / 10 ^ slots rest % 10 = high at *
          generalize m / 10 ^ slots rest % 10 = other at *
          generalize 10 ^ slots rest = base at *
          constructor
          · rintro (hless | ⟨rfl, hless⟩)
            · have hstep : base * (high + 1) ≤ base * other := Nat.mul_le_mul_left base hless
              rw [mul_add, mul_one] at hstep
              omega
            · omega
          · intro hless
            rcases lt_trichotomy high other with hhigh | hhigh | hhigh
            · exact .inl hhigh
            · subst hhigh
              exact .inr ⟨rfl, by omega⟩
            · have hstep : base * (other + 1) ≤ base * high := Nat.mul_le_mul_left base hhigh
              rw [mul_add, mul_one] at hstep
              omega

/-! ## Instants -/

def instantLayout : List (Option Char) :=
  [none, none, none, none, some '-', none, none, some '-', none, none, some 'T', none, none,
    some ':', none, none, some ':', none, none, some '.', none, none, none, some 'Z']

/-- The first instant of 1970, with all its digits. -/
def firstInstant : ℤ := 19700101000000000

def instantNumber (t : ℤ) : ℕ := (firstInstant + t / nanosPerMilli).toNat

def instantText (t : ℤ) : String :=
  if FourDigitYear t then ofChars (fill instantLayout (instantNumber t)) else "+"

def parseInstant (text : String) : Option ℤ :=
  let n := readDigits 0 (chars text)
  if ofChars (fill instantLayout n) = text then
    some ((n - firstInstant) * nanosPerMilli) else none

theorem instantNumber_lt {t : ℤ} (h : FourDigitYear t) : instantNumber t < 10 ^ 17 := by
  unfold FourDigitYear at h
  unfold instantNumber firstInstant nanosPerMilli
  omega

theorem instantNumber_cast {t : ℤ} (h : FourDigitYear t) :
    (instantNumber t : ℤ) = firstInstant + t / nanosPerMilli := by
  unfold FourDigitYear at h
  unfold instantNumber firstInstant nanosPerMilli
  omega

theorem separators_instantLayout {c : Char} (h : some c ∈ instantLayout) :
    c.isDigit = false ∧ c.toNat < 124 := by
  have hall : ∀ place ∈ instantLayout,
      place.all (fun c => !c.isDigit && decide (c.toNat < 124)) = true := by
    decide
  have hplace := hall (some c) h
  rw [Option.all_some, Bool.and_eq_true, Bool.not_eq_true', decide_eq_true_eq] at hplace
  exact hplace

theorem readDigits_instant {n : ℕ} (h : n < 10 ^ 17) :
    readDigits 0 (fill instantLayout n) = n := by
  rw [readDigits_fill fun c hc => (separators_instantLayout hc).1, mul_zero, zero_add]
  exact Nat.mod_eq_of_lt h

theorem parseInstant_text {t : ℤ} (h : FourDigitYear t) :
    parseInstant (instantText t) = some (truncateToMillis t) := by
  unfold parseInstant instantText
  simp only [if_pos h, ofChars_eq, chars_eq, String.toList_ofList,
    readDigits_instant (instantNumber_lt h), if_true, instantNumber_cast h]
  unfold truncateToMillis nanosPerMilli
  congr 1
  omega

theorem parseInstant_none {t : ℤ} (h : ¬FourDigitYear t) :
    parseInstant (instantText t) = none := by
  rw [instantText, if_neg h]
  decide

/-- The sample library, with instants which are printed. -/
def calendar : Primitives :=
  { library with
    timestamp := instantText
    parseRfc3339 := parseInstant
    parseRfc3339_timestamp := fun _ => parseInstant_text
    parseRfc3339_timestamp_none := fun _ => parseInstant_none }

end Sample

end Commonwake
