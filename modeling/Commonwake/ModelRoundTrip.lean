import Commonwake.Model

/-!
# Reading a logged object back

The canonical text of an object is parsed and decoded again by the log
verifier and by every importer.  Each theorem here says what that decoding
yields: the object itself, with the numbers of its free JSON members in the
form which the canonical text gives them.
-/

namespace Commonwake

open Serde

section

variable (P : Primitives)

@[simp] theorem canon_dateTime (t : ℤ) : P.canon (dateTime P t) = dateTime P t :=
  rfl

@[simp] theorem canon_strings (values : List String) :
    P.canon (strings values) = strings values :=
  strings_mapNumbers P.canonNumber values

@[simp] theorem scopeOfJson_toJson (scope : Scope) :
    Scope.ofJson scope.toJson = some scope := by
  cases scope <;> decide

@[simp] theorem kindOfJson_toJson (kind : ContributionKind) :
    ContributionKind.ofJson kind.toJson = some kind := by
  cases kind <;> decide

@[simp] theorem modeOfJson_asStr (mode : ReportingMode) :
    ReportingMode.ofJson (.string mode.asStr) = some mode := by
  cases mode <;> decide

@[simp] theorem canon_kind (kind : ContributionKind) :
    P.canon kind.toJson = kind.toJson := rfl

theorem scopes_roundTrip (scopes : List Scope) :
    list Scope.ofJson (.array (scopes.map Scope.toJson)) = some scopes := by
  have h : items Scope.ofJson (scopes.map Scope.toJson) = some (scopes.map id) :=
    items_map fun scope _ => scopeOfJson_toJson scope
  simpa [list] using h

theorem canon_scopes (scopes : List Scope) :
    P.canon (.array (scopes.map Scope.toJson)) =
      .array (scopes.map Scope.toJson) := by
  simp [Function.comp_def, Scope.toJson]

/-- An integer which the canonical text keeps, in the range of an `i64`. -/
def KeepsCursor (n : ℤ) : Prop :=
  P.canonNumber (.int n) = .int n ∧ -2 ^ 63 ≤ n ∧ n < 2 ^ 63

theorem keepsCursor_of_abs_le {n : ℤ} (h : |n| ≤ 2 ^ 53) : KeepsCursor P n := by
  have hle := abs_le.mp h
  refine ⟨P.canonNumber_int n h, ?_, ?_⟩ <;> omega

theorem i64_canon_int {n : ℤ} (h : KeepsCursor P n) :
    i64 (P.canon (int n)) = some n := by
  obtain ⟨hcanon, hlow, hhigh⟩ := h
  simp only [int, P.canon_number, hcanon, i64, bounded]
  exact if_pos ⟨hlow, hhigh⟩

/-! ## Authority objects -/

theorem LineageRegistration.ofJson_canon (x : LineageRegistration) :
    LineageRegistration.ofJson P (P.canon (x.toJson P)) = some x := by
  simp only [LineageRegistration.toJson, Primitives.canon_object, List.map_cons,
    List.map_nil, canon_dateTime, Primitives.canon_string,
    LineageRegistration.ofJson]
  rw [show fields _ _ = some _ from rfl]
  simp only [required, List.lookup_cons, String.reduceBEq, Option.bind_eq_bind,
    Option.bind_some, dateTimeOfJson_dateTime, string_string, Option.pure_def]

theorem SessionDelegation.ofJson_canon (x : SessionDelegation) :
    SessionDelegation.ofJson P (P.canon (x.toJson P)) = some x := by
  simp only [SessionDelegation.toJson, Primitives.canon_object, List.map_cons,
    List.map_nil, canon_dateTime, Primitives.canon_string, canon_scopes,
    SessionDelegation.ofJson]
  rw [show fields _ _ = some _ from rfl]
  simp only [required, List.lookup_cons, String.reduceBEq, Option.bind_eq_bind,
    Option.bind_some, dateTimeOfJson_dateTime, string_string, scopes_roundTrip,
    Option.pure_def]

theorem DelegationRevocation.ofJson_canon (x : DelegationRevocation) :
    DelegationRevocation.ofJson P (P.canon (x.toJson P)) = some x := by
  simp only [DelegationRevocation.toJson, Primitives.canon_object, List.map_cons,
    List.map_nil, canon_dateTime, Primitives.canon_string,
    DelegationRevocation.ofJson]
  rw [show fields _ _ = some _ from rfl]
  simp only [required, List.lookup_cons, String.reduceBEq, Option.bind_eq_bind,
    Option.bind_some, dateTimeOfJson_dateTime, string_string, Option.pure_def]

theorem KeyRotationStatement.ofJson_canon (x : KeyRotationStatement) :
    KeyRotationStatement.ofJson P (P.canon (x.toJson P)) = some x := by
  simp only [KeyRotationStatement.toJson, Primitives.canon_object, List.map_cons,
    List.map_nil, canon_dateTime, Primitives.canon_string, Primitives.canon_bool,
    KeyRotationStatement.ofJson]
  rw [show fields _ _ = some _ from rfl]
  simp only [required, List.lookup_cons, String.reduceBEq, Option.bind_eq_bind,
    Option.bind_some, dateTimeOfJson_dateTime, string_string, bool_bool,
    Option.pure_def]

theorem SignedKeyRotation.ofJson_canon (x : SignedKeyRotation) :
    SignedKeyRotation.ofJson P (P.canon (x.toJson P)) = some x := by
  simp only [SignedKeyRotation.toJson, Primitives.canon_object, List.map_cons,
    List.map_nil, Primitives.canon_string, SignedKeyRotation.ofJson]
  rw [show fields _ _ = some _ from rfl]
  simp only [required, List.lookup_cons, String.reduceBEq, Option.bind_eq_bind,
    Option.bind_some, string_string, KeyRotationStatement.ofJson_canon,
    Option.pure_def]

/-! ## Contributions and acknowledgements -/

theorem ReportingDeclaration.ofJson_canon (x : ReportingDeclaration) :
    ReportingDeclaration.ofJson (P.canon x.toJson) = some x := by
  simp only [ReportingDeclaration.toJson, Primitives.canon_object, List.map_cons,
    List.map_nil, Primitives.canon_string, canon_strings,
    ReportingDeclaration.ofJson]
  rw [show fields _ _ = some _ from rfl]
  simp only [defaulted, List.lookup_cons, String.reduceBEq, Option.bind_eq_bind,
    Option.bind_some, modeOfJson_asStr, list_strings, Option.pure_def]

theorem ReportingDeclaration.eq_default {x : ReportingDeclaration}
    (h : x.isUnverified = true) : x = ReportingDeclaration.default := by
  obtain ⟨mode, traces⟩ := x
  simp only [ReportingDeclaration.isUnverified, Bool.and_eq_true, beq_iff_eq,
    List.isEmpty_iff] at h
  rw [h.1, h.2]
  rfl

/-- A contribution with its payload in canonical form. -/
def SignedContribution.canonical (x : SignedContribution) : SignedContribution :=
  { x with payload := P.canon x.payload }

theorem SignedContribution.ofJson_canon (x : SignedContribution) :
    SignedContribution.ofJson P (P.canon (x.toJson P)) =
      some (x.canonical P) := by
  unfold SignedContribution.toJson
  -- The declaration is written only when it is not the default.
  by_cases h : x.reporting.isUnverified = true
  · have hdefault := ReportingDeclaration.eq_default h
    simp only [h, if_true, List.append_nil, List.cons_append, List.nil_append,
      Primitives.canon_object, List.map_cons, List.map_nil, canon_dateTime,
      Primitives.canon_string, canon_strings, canon_kind,
      SignedContribution.ofJson]
    rw [show fields _ _ = some _ from rfl]
    simp only [required, defaulted, List.lookup_cons, String.reduceBEq,
      List.lookup_nil, Option.bind_eq_bind, Option.bind_some,
      dateTimeOfJson_dateTime, string_string, kindOfJson_toJson, list_strings,
      value_eq, Option.pure_def, SignedContribution.canonical, hdefault]
  · simp only [h, Bool.false_eq_true, if_false, List.cons_append, List.nil_append,
      Primitives.canon_object, List.map_cons, List.map_nil, canon_dateTime,
      Primitives.canon_string, canon_strings, canon_kind,
      SignedContribution.ofJson]
    rw [show fields _ _ = some _ from rfl]
    simp only [required, defaulted, List.lookup_cons, String.reduceBEq,
      Option.bind_eq_bind, Option.bind_some, dateTimeOfJson_dateTime,
      string_string, kindOfJson_toJson, list_strings, value_eq, Option.pure_def,
      ReportingDeclaration.ofJson_canon, SignedContribution.canonical]

/-- A signature does not tell a contribution from its canonical form. -/
theorem SignedContribution.verifyObject_canonical (key : Bytes) (domain signature : String)
    (x : SignedContribution) :
    P.verifyObject key domain ((x.canonical P).toJson P) signature =
      P.verifyObject key domain (x.toJson P) signature := by
  have hcanon : P.canon ((x.canonical P).toJson P) = P.canon (x.toJson P) := by
    simp only [SignedContribution.toJson, SignedContribution.canonical,
      Primitives.canon_object, List.map_append, List.map_cons, Primitives.canon_canon]
    rfl
  unfold Primitives.verifyObject
  rw [← P.signingPreimage_canon domain ((x.canonical P).toJson P), hcanon,
    P.signingPreimage_canon]

theorem MemoryProvenance.ofJson_canon (x : MemoryProvenance) :
    MemoryProvenance.ofJson (P.canon x.toJson) = some x := by
  obtain ⟨statement, digest, claimed⟩ := x
  cases digest <;> rfl

theorem SignedAcknowledgement.ofJson_canon {x : SignedAcknowledgement}
    (hcursor : KeepsCursor P x.cursor) :
    SignedAcknowledgement.ofJson P (P.canon (x.toJson P)) = some x := by
  simp only [SignedAcknowledgement.toJson, Primitives.canon_object, List.map_cons,
    List.map_nil, canon_dateTime, Primitives.canon_string,
    SignedAcknowledgement.ofJson]
  rw [show fields _ _ = some _ from rfl]
  simp only [required, List.lookup_cons, String.reduceBEq, Option.bind_eq_bind,
    Option.bind_some, dateTimeOfJson_dateTime, string_string,
    i64_canon_int P hcursor, MemoryProvenance.ofJson_canon, Option.pure_def]

/-! ## Checkpoints and observations -/

theorem Checkpoint.ofJson_canon {x : Checkpoint}
    (hcursor : KeepsCursor P x.cursor) :
    Checkpoint.ofJson P (P.canon (x.toJson P)) = some x := by
  simp only [Checkpoint.toJson, Primitives.canon_object, List.map_cons,
    List.map_nil, canon_dateTime, Primitives.canon_string, Checkpoint.ofJson]
  rw [show fields _ _ = some _ from rfl]
  simp only [required, List.lookup_cons, String.reduceBEq, Option.bind_eq_bind,
    Option.bind_some, dateTimeOfJson_dateTime, string_string,
    i64_canon_int P hcursor, Option.pure_def]

theorem CheckpointWitness.ofJson_canon {x : CheckpointWitness}
    (hcursor : KeepsCursor P x.cursor)
    (hcheckpoint : KeepsCursor P x.originCheckpoint.cursor) :
    CheckpointWitness.ofJson P (P.canon (x.toJson P)) = some x := by
  simp only [CheckpointWitness.toJson, Primitives.canon_object, List.map_cons,
    List.map_nil, canon_dateTime, Primitives.canon_string,
    CheckpointWitness.ofJson]
  rw [show fields _ _ = some _ from rfl]
  simp only [required, List.lookup_cons, String.reduceBEq, Option.bind_eq_bind,
    Option.bind_some, dateTimeOfJson_dateTime, string_string,
    i64_canon_int P hcursor, Checkpoint.ofJson_canon P hcheckpoint,
    Option.pure_def]

/-- An observation with its metadata in canonical form. -/
def FederatedObservationPayload.canonical (x : FederatedObservationPayload) :
    FederatedObservationPayload :=
  { x with rawMetadata := P.canon x.rawMetadata }

@[simp] theorem canon_nullOr {α : Type} {encode : α → Json}
    (h : ∀ a, P.canon (encode a) = encode a) (value : Option α) :
    P.canon (nullOr encode value) = nullOr encode value := by
  cases value with
  | none => rfl
  | some a => exact h a

theorem nullable_language (language : Option String) :
    nullable string (nullOr .string language) = some language := by
  cases language <;> rfl

theorem nullable_publishedAt (publishedAt : Option ℤ) :
    nullable (dateTimeOfJson P) (nullOr (dateTime P) publishedAt) =
      some publishedAt := by
  cases publishedAt with
  | none => rfl
  | some t => simp [nullable, nullOr, dateTime, dateTimeOfJson]

theorem FederatedObservationPayload.ofJson_canon (x : FederatedObservationPayload) :
    FederatedObservationPayload.ofJson P (P.canon (x.toJson P)) =
      some (x.canonical P) := by
  have hlanguage : P.canon (nullOr Json.string x.language) =
      nullOr Json.string x.language :=
    canon_nullOr P (fun _ => rfl) x.language
  have hpublished : P.canon (nullOr (dateTime P) x.publishedAt) =
      nullOr (dateTime P) x.publishedAt :=
    canon_nullOr P (fun _ => rfl) x.publishedAt
  simp only [FederatedObservationPayload.toJson, Primitives.canon_object,
    List.map_cons, List.map_nil, canon_dateTime, Primitives.canon_string,
    hlanguage, hpublished, FederatedObservationPayload.ofJson]
  rw [show fields _ _ = some _ from rfl]
  simp only [required, Serde.optional, defaulted, List.lookup_cons,
    String.reduceBEq, Option.bind_eq_bind, Option.bind_some,
    dateTimeOfJson_dateTime, string_string, nullable_language,
    nullable_publishedAt, value_eq, Option.pure_def,
    FederatedObservationPayload.canonical]

theorem FederatedObservationEnvelope.ofJson_canon
    (x : FederatedObservationEnvelope) :
    FederatedObservationEnvelope.ofJson P (P.canon (x.toJson P)) =
      some { x with payload := x.payload.canonical P } := by
  simp only [FederatedObservationEnvelope.toJson, Primitives.canon_object,
    List.map_cons, List.map_nil, Primitives.canon_string,
    FederatedObservationEnvelope.ofJson]
  rw [show fields _ _ = some _ from rfl]
  simp only [required, List.lookup_cons, String.reduceBEq, Option.bind_eq_bind,
    Option.bind_some, string_string, FederatedObservationPayload.ofJson_canon,
    Option.pure_def]

end

/-! ## Checkpoints on the wire -/

/-- A cursor which the wire format can carry. -/
def IsI64 (n : ℤ) : Prop := -2 ^ 63 ≤ n ∧ n < 2 ^ 63

section

variable {P : Primitives}

theorem i64_int {n : ℤ} (h : IsI64 n) : i64 (int n) = some n :=
  if_pos h

theorem isI64_of_i64 {value : Json} {n : ℤ} (h : i64 value = some n) : IsI64 n := by
  unfold i64 bounded at h
  split at h
  · obtain ⟨hrange, hn⟩ := Option.ite_none_right_eq_some.mp h
    rw [← Option.some.inj hn]
    exact hrange
  · cases h

theorem Checkpoint.ofJson_toJson {x : Checkpoint} (h : IsI64 x.cursor) :
    Checkpoint.ofJson P (x.toJson P) = some x := by
  simp only [Checkpoint.toJson, Checkpoint.ofJson]
  rw [show fields _ _ = some _ from rfl]
  simp only [required, List.lookup_cons, String.reduceBEq, Option.bind_eq_bind,
    Option.bind_some, dateTimeOfJson_dateTime, string_string, i64_int h, Option.pure_def]

theorem required_eq_some {α : Type} {decode : Json → Option α}
    {members : List (String × Json)} {key : String} {x : α}
    (h : required decode members key = some x) : ∃ value, decode value = some x := by
  unfold required at h
  split at h
  · exact ⟨_, h⟩
  · cases h

theorem Checkpoint.isI64_of_ofJson {value : Json} {x : Checkpoint}
    (h : Checkpoint.ofJson P value = some x) : IsI64 x.cursor := by
  simp only [Checkpoint.ofJson, Option.bind_eq_bind, Option.bind_eq_some_iff, Option.pure_def,
    Option.some.injEq] at h
  obtain ⟨m, -, nodeId, -, key, -, cursor, hcursor, eventHash, -, createdAt, -, signature, -,
    rfl⟩ := h
  obtain ⟨value, hvalue⟩ := required_eq_some hcursor
  exact isI64_of_i64 hvalue

end

end Commonwake
