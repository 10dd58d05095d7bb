import Commonwake.PublicationSoundness
import Commonwake.ModelRoundTrip
import Commonwake.SampleNode

/-!
# The logged form of a signed object

An object is logged as its canonical text, and every later reader decodes that
text.  What is decoded has the same canonical text, the same ids and the same
signed bytes.  The canonical text writes a number as a binary64, so that a
cursor which no binary64 holds is read as its neighbour, and is not read at all
when that neighbour is no `i64`.
-/

namespace Commonwake

open Outcome Serde

section

variable (P : Primitives) {α : Type}

/-- What is decoded from the canonical text of an object. -/
def readLogged (encode : α → Json) (decode : Json → Option α) (x : α) : Option α :=
  (P.parse (P.jcs (encode x))).bind decode

/-- The object `x` is logged and read back as `y`. -/
structure LoggedForm (encode : α → Json) (decode : Json → Option α) (signature : α → String)
    (x y : α) : Prop where
  decoded : readLogged P encode decode x = some y
  canonical : P.jcs (encode y) = P.jcs (encode x)
  unsigned : P.canonicalWithoutSignature (encode y) = P.canonicalWithoutSignature (encode x)
  preimage : ∀ domain, P.signingPreimage domain (encode y) = P.signingPreimage domain (encode x)
  verified : ∀ key domain, P.verifyObject key domain (encode y) (signature y) =
    P.verifyObject key domain (encode x) (signature x)

/-- The cursor which is read back. -/
def readCursor (cursor : ℤ) : Option ℤ := i64 (P.canon (int cursor))

/-- The object is read back exactly when its cursors are, and then in the same form. -/
structure CursorForm (encode : α → Json) (decode : Json → Option α) (signature : α → String)
    (cursors : α → List ℤ) (x : α) : Prop where
  reads : (∃ y, readLogged P encode decode x = some y) ↔
    ∀ cursor ∈ cursors x, (readCursor P cursor).isSome = true
  form : ∀ y, readLogged P encode decode x = some y → LoggedForm P encode decode signature x y

/-- The logged form of every type of signed object. -/
structure StableForms : Prop where
  registration : ∀ x, LoggedForm P (LineageRegistration.toJson P) (LineageRegistration.ofJson P)
    LineageRegistration.signature x x
  delegation : ∀ x, LoggedForm P (SessionDelegation.toJson P) (SessionDelegation.ofJson P)
    SessionDelegation.signature x x
  revocation : ∀ x, LoggedForm P (DelegationRevocation.toJson P)
    (DelegationRevocation.ofJson P) DelegationRevocation.signature x x
  rotation : ∀ x, LoggedForm P (SignedKeyRotation.toJson P) (SignedKeyRotation.ofJson P)
    SignedKeyRotation.newSignature x x
  contribution : ∀ x, LoggedForm P (SignedContribution.toJson P) (SignedContribution.ofJson P)
    SignedContribution.signature x (x.canonical P)
  acknowledgement : ∀ x, CursorForm P (SignedAcknowledgement.toJson P)
    (SignedAcknowledgement.ofJson P) SignedAcknowledgement.signature (fun x => [x.cursor]) x
  checkpoint : ∀ x, CursorForm P (Checkpoint.toJson P) (Checkpoint.ofJson P)
    Checkpoint.signature (fun x => [x.cursor]) x
  witness : ∀ x, CursorForm P (CheckpointWitness.toJson P) (CheckpointWitness.ofJson P)
    CheckpointWitness.signature (fun x => [x.cursor, x.originCheckpoint.cursor]) x
  receipt : ∀ x, CursorForm P (ReplicationReceipt.toJson P) (ReplicationReceipt.ofJson P)
    ReplicationReceipt.signature (fun x => [x.originCheckpoint.cursor]) x

end

section

variable {P : Primitives} {α : Type} {encode : α → Json} {decode : Json → Option α}
  {signature : α → String} {x y : α}

/-- An object with the canonical form of another one is not told from it. -/
theorem LoggedForm.of_canon (hdecode : decode (P.canon (encode x)) = some y)
    (hcanon : P.canon (encode y) = P.canon (encode x))
    (hsignature : signature y = signature x) : LoggedForm P encode decode signature x y := by
  have hpreimage : ∀ domain,
      P.signingPreimage domain (encode y) = P.signingPreimage domain (encode x) := by
    intro domain
    rw [← P.signingPreimage_canon domain (encode y), hcanon, P.signingPreimage_canon]
  refine ⟨?_, P.jcs_eq_iff.mpr hcanon, ?_, hpreimage, ?_⟩
  · unfold readLogged
    rw [P.parse_jcs', Option.bind_some, hdecode]
  · rw [← P.canonicalWithoutSignature_canon (encode y), hcanon,
      P.canonicalWithoutSignature_canon]
  · intro key domain
    unfold Primitives.verifyObject
    rw [hsignature, hpreimage]

theorem LoggedForm.of_decode (hdecode : decode (P.canon (encode x)) = some x) :
    LoggedForm P encode decode signature x x :=
  .of_canon hdecode rfl rfl

theorem SignedContribution.canon_canonical (x : SignedContribution) :
    P.canon ((x.canonical P).toJson P) = P.canon (x.toJson P) := by
  simp only [SignedContribution.toJson, SignedContribution.canonical,
    Primitives.canon_object, List.map_append, List.map_cons, Primitives.canon_canon]
  rfl

/-! ## Cursors -/

theorem canon_readCursor {cursor read : ℤ} (h : readCursor P cursor = some read) :
    P.canon (int read) = P.canon (int cursor) := by
  have hvalue : P.canon (int cursor) = int read := by
    unfold readCursor at h
    unfold i64 bounded at h
    split at h
    · obtain ⟨-, hn⟩ := Option.ite_none_right_eq_some.mp h
      rw [← Option.some.inj hn]
      assumption
    · cases h
  rw [← hvalue, P.canon_canon]

/-- A cursor in the exact range of a binary64 is read back as it is. -/
theorem readCursor_of_abs_le {cursor : ℤ} (h : |cursor| ≤ 2 ^ 53) :
    readCursor P cursor = some cursor :=
  i64_canon_int P (keepsCursor_of_abs_le P h)

theorem CursorForm.of_read {cursors : α → List ℤ} {read : Option α}
    (hdecode : decode (P.canon (encode x)) = read)
    (hread : read.isSome = true ↔ ∀ cursor ∈ cursors x, (readCursor P cursor).isSome = true)
    (hform : ∀ y, read = some y → P.canon (encode y) = P.canon (encode x) ∧
      signature y = signature x) : CursorForm P encode decode signature cursors x := by
  have hlogged : readLogged P encode decode x = read := by
    unfold readLogged
    rw [P.parse_jcs', Option.bind_some, hdecode]
  constructor
  · rw [hlogged, ← hread, Option.isSome_iff_exists]
  · intro y hy
    rw [hlogged] at hy
    obtain ⟨hcanon, hsignature⟩ := hform y hy
    exact .of_canon (hdecode.trans hy) hcanon hsignature

theorem SignedAcknowledgement.ofJson_canon_eq (x : SignedAcknowledgement) :
    SignedAcknowledgement.ofJson P (P.canon (x.toJson P)) =
      (readCursor P x.cursor).map fun cursor => { x with cursor := cursor } := by
  simp only [SignedAcknowledgement.toJson, Primitives.canon_object, List.map_cons,
    List.map_nil, canon_dateTime, Primitives.canon_string, SignedAcknowledgement.ofJson]
  rw [show fields _ _ = some _ from rfl]
  simp only [required, List.lookup_cons, String.reduceBEq, Option.bind_eq_bind,
    Option.bind_some, dateTimeOfJson_dateTime, string_string,
    MemoryProvenance.ofJson_canon, Option.pure_def]
  change (readCursor P x.cursor).bind _ = _
  cases readCursor P x.cursor <;> rfl

theorem Checkpoint.ofJson_canon_eq (x : Checkpoint) :
    Checkpoint.ofJson P (P.canon (x.toJson P)) =
      (readCursor P x.cursor).map fun cursor => { x with cursor := cursor } := by
  simp only [Checkpoint.toJson, Primitives.canon_object, List.map_cons, List.map_nil,
    canon_dateTime, Primitives.canon_string, Checkpoint.ofJson]
  rw [show fields _ _ = some _ from rfl]
  simp only [required, List.lookup_cons, String.reduceBEq, Option.bind_eq_bind,
    Option.bind_some, dateTimeOfJson_dateTime, string_string, Option.pure_def]
  change (readCursor P x.cursor).bind _ = _
  cases readCursor P x.cursor <;> rfl

theorem CheckpointWitness.ofJson_canon_eq (x : CheckpointWitness) :
    CheckpointWitness.ofJson P (P.canon (x.toJson P)) =
      (readCursor P x.cursor).bind fun cursor =>
        (readCursor P x.originCheckpoint.cursor).map fun checkpoint =>
          { x with
            cursor := cursor
            originCheckpoint := { x.originCheckpoint with cursor := checkpoint } } := by
  simp only [CheckpointWitness.toJson, Primitives.canon_object, List.map_cons, List.map_nil,
    canon_dateTime, Primitives.canon_string, CheckpointWitness.ofJson]
  rw [show fields _ _ = some _ from rfl]
  simp only [required, List.lookup_cons, String.reduceBEq, Option.bind_eq_bind,
    Option.bind_some, dateTimeOfJson_dateTime, string_string, Checkpoint.ofJson_canon_eq,
    Option.pure_def]
  change (readCursor P x.cursor).bind _ = _
  cases readCursor P x.cursor with
  | none => rfl
  | some cursor => cases readCursor P x.originCheckpoint.cursor <;> rfl

theorem ReplicationReceipt.ofJson_canon_eq (x : ReplicationReceipt) :
    ReplicationReceipt.ofJson P (P.canon (x.toJson P)) =
      (readCursor P x.originCheckpoint.cursor).map fun cursor =>
        { x with originCheckpoint := { x.originCheckpoint with cursor := cursor } } := by
  simp only [ReplicationReceipt.toJson, Primitives.canon_object, List.map_cons, List.map_nil,
    canon_dateTime, Primitives.canon_string, ReplicationReceipt.ofJson]
  rw [show fields _ _ = some _ from rfl]
  simp only [required, List.lookup_cons, String.reduceBEq, Option.bind_eq_bind,
    Option.bind_some, dateTimeOfJson_dateTime, string_string, Checkpoint.ofJson_canon_eq,
    Option.pure_def]
  cases readCursor P x.originCheckpoint.cursor <;> rfl

/-! ## All objects -/

theorem Checkpoint.canon_read {x : Checkpoint} {cursor : ℤ}
    (h : readCursor P x.cursor = some cursor) :
    P.canon (({ x with cursor := cursor } : Checkpoint).toJson P) = P.canon (x.toJson P) := by
  simp only [Checkpoint.toJson, Primitives.canon_object, List.map_cons, List.map_nil,
    canon_readCursor h]

theorem SignedAcknowledgement.cursorForm (x : SignedAcknowledgement) :
    CursorForm P (SignedAcknowledgement.toJson P) (SignedAcknowledgement.ofJson P)
      SignedAcknowledgement.signature (fun x => [x.cursor]) x := by
  refine .of_read x.ofJson_canon_eq ?_ ?_
  · simp only [Option.isSome_map, List.mem_singleton, forall_eq]
  · intro y hy
    obtain ⟨cursor, hcursor, rfl⟩ := Option.map_eq_some_iff.mp hy
    refine ⟨?_, rfl⟩
    simp only [SignedAcknowledgement.toJson, Primitives.canon_object, List.map_cons,
      List.map_nil, canon_readCursor hcursor]

theorem Checkpoint.cursorForm (x : Checkpoint) :
    CursorForm P (Checkpoint.toJson P) (Checkpoint.ofJson P) Checkpoint.signature
      (fun x => [x.cursor]) x := by
  refine .of_read x.ofJson_canon_eq ?_ ?_
  · simp only [Option.isSome_map, List.mem_singleton, forall_eq]
  · intro y hy
    obtain ⟨cursor, hcursor, rfl⟩ := Option.map_eq_some_iff.mp hy
    exact ⟨Checkpoint.canon_read hcursor, rfl⟩

theorem CheckpointWitness.cursorForm (x : CheckpointWitness) :
    CursorForm P (CheckpointWitness.toJson P) (CheckpointWitness.ofJson P)
      CheckpointWitness.signature (fun x => [x.cursor, x.originCheckpoint.cursor]) x := by
  refine .of_read x.ofJson_canon_eq ?_ ?_
  · simp only [List.mem_cons, List.not_mem_nil, or_false, forall_eq_or_imp, forall_eq]
    cases readCursor P x.cursor with
    | none => simp
    | some cursor => simp
  · intro y hy
    obtain ⟨cursor, hcursor, hy⟩ := Option.bind_eq_some_iff.mp hy
    obtain ⟨checkpoint, hcheckpoint, rfl⟩ := Option.map_eq_some_iff.mp hy
    refine ⟨?_, rfl⟩
    simp only [CheckpointWitness.toJson, Primitives.canon_object, List.map_cons, List.map_nil,
      canon_readCursor hcursor, Checkpoint.canon_read hcheckpoint]

theorem ReplicationReceipt.cursorForm (x : ReplicationReceipt) :
    CursorForm P (ReplicationReceipt.toJson P) (ReplicationReceipt.ofJson P)
      ReplicationReceipt.signature (fun x => [x.originCheckpoint.cursor]) x := by
  refine .of_read x.ofJson_canon_eq ?_ ?_
  · simp only [Option.isSome_map, List.mem_singleton, forall_eq]
  · intro y hy
    obtain ⟨cursor, hcursor, rfl⟩ := Option.map_eq_some_iff.mp hy
    refine ⟨?_, rfl⟩
    simp only [ReplicationReceipt.toJson, Primitives.canon_object, List.map_cons,
      List.map_nil, Checkpoint.canon_read hcursor]

end

/-- Every signed object without a cursor is read back from the log, an object with
cursors exactly when these are, and what is read has the canonical text, the ids, the
signed bytes and the signature of the object. -/
theorem signedObjects_stable (P : Primitives) : StableForms P where
  registration := fun x => .of_decode (LineageRegistration.ofJson_canon P x)
  delegation := fun x => .of_decode (SessionDelegation.ofJson_canon P x)
  revocation := fun x => .of_decode (DelegationRevocation.ofJson_canon P x)
  rotation := fun x => .of_decode (SignedKeyRotation.ofJson_canon P x)
  contribution := fun x =>
    .of_canon (SignedContribution.ofJson_canon P x) x.canon_canonical rfl
  acknowledgement := SignedAcknowledgement.cursorForm
  checkpoint := Checkpoint.cursorForm
  witness := CheckpointWitness.cursorForm
  receipt := ReplicationReceipt.cursorForm

namespace Sample

/-! ## Integers as binary64 -/

/-- The nearest binary64 of a number, the even one of two. -/
def toDouble (n : ℕ) : ℕ :=
  let step := 2 ^ (n.log2 - 52)
  let quotient := n / step
  let rest := n % step
  if step < 2 * rest ∨ (2 * rest = step ∧ quotient % 2 = 1) then (quotient + 1) * step
  else quotient * step

/-- The number with the fewest digits which has the same binary64. -/
def shortest (n : ℕ) : ℕ :=
  (((List.range 25).reverse.map fun place =>
    (toDouble n + 10 ^ place / 2) / 10 ^ place * 10 ^ place).find? fun candidate =>
      toDouble candidate == toDouble n).getD n

def doubleInt (n : ℤ) : ℤ :=
  if |n| ≤ 2 ^ 53 then n
  else if n < 0 then -(shortest n.natAbs) else shortest n.natAbs

theorem shortest_idem (n : ℕ) : shortest (shortest n) = shortest n := by
  cases hfind : ((List.range 25).reverse.map fun place =>
      (toDouble n + 10 ^ place / 2) / 10 ^ place * 10 ^ place).find? fun candidate =>
        toDouble candidate == toDouble n with
  | none =>
      have hsame : shortest n = n := by
        unfold shortest
        rw [hfind]
        rfl
      rw [hsame, hsame]
  | some candidate =>
      have hsame : shortest n = candidate := by
        unfold shortest
        rw [hfind]
        rfl
      have hdouble : toDouble candidate = toDouble n := by
        simpa using List.find?_some hfind
      rw [hsame]
      unfold shortest
      rw [hdouble, hfind]
      rfl

theorem doubleInt_idem (n : ℤ) : doubleInt (doubleInt n) = doubleInt n := by
  have hidem := shortest_idem n.natAbs
  by_cases hsmall : |doubleInt n| ≤ 2 ^ 53
  · rw [doubleInt, if_pos hsmall]
  · rw [doubleInt, if_neg hsmall]
    unfold doubleInt at hsmall ⊢
    by_cases hexact : |n| ≤ 2 ^ 53
    · rw [if_pos hexact] at hsmall
      exact absurd hexact hsmall
    · rw [if_neg hexact] at hsmall ⊢
      by_cases hneg : n < 0
      · rw [if_pos hneg, abs_neg, Nat.abs_cast] at hsmall
        rw [if_pos hneg, Int.natAbs_neg, Int.natAbs_natCast, hidem, if_pos (by omega)]
      · rw [if_neg hneg, Nat.abs_cast] at hsmall
        rw [if_neg hneg, Int.natAbs_natCast, hidem, if_neg (by omega)]

/-- RFC 8785 for integers of any size. -/
def doubleNumber (n : JsonNumber) : JsonNumber :=
  match canonNumber n with
  | .int n => .int (doubleInt n)
  | .float bits => .float bits

theorem doubleNumber_idem (n : JsonNumber) :
    doubleNumber (doubleNumber n) = doubleNumber n := by
  have hcanon := canonNumber_idem n
  unfold doubleNumber
  cases hnumber : canonNumber n with
  | int n => simp only [canonNumber, doubleInt_idem]
  | float bits =>
      rw [hnumber] at hcanon
      simp only [hcanon]

theorem doubleNumber_of_small {n : ℤ} (h : |n| ≤ 2 ^ 53) : doubleNumber (.int n) = .int n := by
  simp only [doubleNumber, canonNumber, doubleInt, if_pos h]

theorem mapNumbers_doubleNumber (v : Json) :
    (v.mapNumbers doubleNumber).mapNumbers doubleNumber = v.mapNumbers doubleNumber := by
  rw [Json.mapNumbers_mapNumbers]
  congr 1
  funext n
  exact doubleNumber_idem n

theorem length_le_doubleText {members : List (String × Json)} {key text : String}
    (h : (key, Json.string text) ∈ members) :
    (utf8 text).length ≤
      (utf8 (valueText ((Json.object members).mapNumbers doubleNumber))).length := by
  have hmem : (key, Json.string text) ∈
      members.map fun member => (member.1, member.2.mapNumbers doubleNumber) :=
    List.mem_map.mpr ⟨_, h, rfl⟩
  have hlength := length_le_membersBytes hmem []
  rw [Json.mapNumbers_object, valueText, utf8_textOf, valueBytes, List.length_cons]
  omega

/-- The library with the integers of RFC 8785. -/
def doubleLibrary : Primitives :=
  { library with
    canonNumber := doubleNumber
    canonNumber_int := fun _ => doubleNumber_of_small
    jcs := fun v => valueText (v.mapNumbers doubleNumber)
    parse_jcs := fun v => parseValue_valueText (v.mapNumbers doubleNumber)
    jcs_canon := fun v => congrArg valueText (mapNumbers_doubleNumber v)
    length_jcs := fun _ _ _ => length_le_doubleText }

def doubleNode : NodeIdentity doubleLibrary := .ofSecret doubleLibrary [1]

/-- A checkpoint of the node at the largest cursor. -/
def lastCheckpoint : Checkpoint :=
  let draft := unsignedCheckpoint doubleLibrary doubleNode (2 ^ 63 - 1) zeroHash 0
  { draft with
    signature := doubleLibrary.signObject [1] checkpointDomain (draft.toJson doubleLibrary) }

theorem readCursor_last : readCursor doubleLibrary (2 ^ 63 - 1) = none := by decide +kernel

/-- The largest cursor is written as 9223372036854776000, which is no cursor: a
checkpoint which is verified is not read back. -/
theorem lastCheckpoint_not_read :
    verifyCheckpoint doubleLibrary lastCheckpoint = .ok () ∧
      lastCheckpoint.cursor = 2 ^ 63 - 1 ∧
      readLogged doubleLibrary (Checkpoint.toJson doubleLibrary)
        (Checkpoint.ofJson doubleLibrary) lastCheckpoint = none := by
  refine ⟨by decide +kernel, rfl, ?_⟩
  unfold readLogged
  rw [Primitives.parse_jcs', Option.bind_some, Checkpoint.ofJson_canon_eq]
  have hcursor : readCursor doubleLibrary lastCheckpoint.cursor = none := readCursor_last
  rw [hcursor]
  rfl

end Sample

end Commonwake
