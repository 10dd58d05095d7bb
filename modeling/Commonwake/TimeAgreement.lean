import Commonwake.PendingCalls
import Commonwake.SampleNode

/-!
# The two readings of the clock

A call is checked against one reading of the clock and logged with a later
one, which the log keeps in whole milliseconds.  An importer repeats the
checks with the logged instant.  What was admitted at the very end of the
tolerated interval may therefore lie outside of it for every importer.
-/

namespace Commonwake

open Outcome Table

/-- The instant rounded up to a whole millisecond. -/
def ceilToMillis (t : ℤ) : ℤ := truncateToMillis (t + (nanosPerMilli - 1))

theorem le_truncateToMillis_iff {s t : ℤ} :
    s ≤ truncateToMillis t ↔ ceilToMillis s ≤ t := by
  unfold ceilToMillis truncateToMillis nanosPerMilli
  omega

theorem truncateToMillis_le_iff {t limit : ℤ} (h : truncateToMillis limit = limit) :
    truncateToMillis t ≤ limit ↔ t < limit + nanosPerMilli := by
  unfold truncateToMillis nanosPerMilli at *
  omega

theorem truncateToMillis_add_clockSkew (t : ℤ) :
    truncateToMillis (truncateToMillis t + clockSkew) = truncateToMillis t + clockSkew := by
  unfold truncateToMillis clockSkew minutes maxClockSkewMinutes nanosPerMilli
  omega

section

variable (P : Primitives)

/-! ## The checks of an importer -/

/-- The delegation which an importer stores for a logged event. -/
def importedDelegation (row : EventRow) : Option DelegationRow :=
  if row.kind = "delegation_registered" then do
    let canonical ← P.parse row.canonicalJson
    let delegation ← SessionDelegation.ofJson P canonical
    pure (delegationRow P (delegationId P delegation) delegation row.sequence)
  else none

/-- The delegations of a log as an importer stores them, before any is
revoked. -/
def importedDelegations (events : List EventRow) : OriginTables :=
  { OriginTables.empty with delegations := events.filterMap (importedDelegation P) }

/-- The checks of time which an importer makes on an event, against the
logged instant and the delegations which were logged before. -/
def PassesTimeChecks (before : List EventRow) (event : OriginEvent) : Prop :=
  ∃ receivedAt, remoteReceivedAt P event = .ok receivedAt ∧
    match event.kind with
    | "lineage_registered" =>
        ∀ object, LineageRegistration.ofJson P event.canonical = some object →
          validateAuthoredTimeAt object.createdAt receivedAt = .ok ()
    | "delegation_registered" =>
        ∀ object, SessionDelegation.ofJson P event.canonical = some object →
          validateDelegationAt P object receivedAt = .ok ()
    | "delegation_revoked" =>
        ∀ object, DelegationRevocation.ofJson P event.canonical = some object →
          validateAuthorityChangeAt object.nonce object.reason object.createdAt
            receivedAt = .ok ()
    | "lineage_key_rotated" =>
        ∀ object, SignedKeyRotation.ofJson P event.canonical = some object →
          validateAuthorityChangeAt object.statement.nonce object.statement.reason
            object.statement.createdAt receivedAt = .ok ()
    | "acknowledgement" =>
        ∀ object, SignedAcknowledgement.ofJson P event.canonical = some object →
          validateAuthoredTimeAt object.createdAt receivedAt = .ok () ∧
          isOk (authorizeRemoteDelegation P (importedDelegations P before)
            object.delegationId .ack object.createdAt receivedAt)
    | _ =>
        ∀ object, SignedContribution.ofJson P event.canonical = some object →
          validateAuthoredTimeAt object.createdAt receivedAt = .ok () ∧
          isOk (authorizeRemoteDelegation P (importedDelegations P before)
            object.delegationId object.kind.requiredScope object.createdAt receivedAt)

/-- The log is written within a year of four digits, not before the first
millisecond in which an importer accepts the authored instant, and at most one
millisecond after the last in which it accepts the delegation. -/
def PendingCall.Timely (call : PendingCall) (db : Db) (appendedAt : ℤ) : Prop :=
  FourDigitYear appendedAt ∧
  ceilToMillis ((call.admitted.input P).createdAt - clockSkew) ≤ appendedAt ∧
  ∀ id, (call.admitted.input P).delegationId = some id →
    ∀ row, db.delegation? id = some row →
    ∀ expiresAt, P.parseTimestamp row.expiresAt = .ok expiresAt →
      appendedAt < expiresAt + clockSkew + nanosPerMilli

end

section

variable {P : Primitives} {identity : NodeIdentity P}

/-! ## Delegations in the log -/

/-- The row of a delegation as it was registered. -/
def LocalDelegationRow.unrevoked (row : LocalDelegationRow) : DelegationRow :=
  { row.toDelegationRow with revokedSequence := none }

/-- The delegations of the log are those of the table. -/
def DelegationsLogged (P : Primitives) (db : Db) : Prop :=
  db.events.filterMap (importedDelegation P) =
    db.authority.delegations.map LocalDelegationRow.unrevoked

theorem importedDelegation_of_kind {row : EventRow}
    (h : row.kind ≠ "delegation_registered") : importedDelegation P row = none := by
  unfold importedDelegation
  rw [if_neg h]

theorem contribution_kind_ne (kind : ContributionKind) :
    kind.asStr ≠ "delegation_registered" := by
  cases kind <;> decide

theorem map_revokeWhere (condition : LocalDelegationRow → Bool) (sequence : ℤ)
    (rows : List LocalDelegationRow) :
    (revokeWhere condition sequence rows).map LocalDelegationRow.unrevoked =
      rows.map LocalDelegationRow.unrevoked := by
  unfold revokeWhere
  rw [map_updateWhere]
  intro _ _
  rfl

theorem DelegationsLogged.commit {admitted : Admitted} {checkedAt appendedAt : ℤ}
    {seen db next : Db} {row : EventRow} {accepted : AcceptedObject}
    (h : DelegationsLogged P db) (hchecked : admitted.Checked P checkedAt seen)
    (hcommitted : Committed P identity admitted appendedAt db row accepted next) :
    DelegationsLogged P next := by
  obtain ⟨logged, happended, -⟩ := hcommitted.appended
  obtain ⟨-, hkind, -, -, -, -, hjson⟩ := happended.columns
  have hother : (admitted.input P).kind ≠ "delegation_registered" →
      next.authority.delegations.map LocalDelegationRow.unrevoked =
        db.authority.delegations.map LocalDelegationRow.unrevoked →
      DelegationsLogged P next := by
    intro hne hsame
    unfold DelegationsLogged
    rw [hcommitted.events, List.filterMap_append, hsame, h]
    simp [importedDelegation_of_kind (hkind.trans_ne hne)]
  have heffect := hcommitted.effect
  generalize hauthority : next.authority = authority at heffect
  rw [hauthority] at hother
  cases heffect with
  | registerLineage lineageId registration =>
      exact hother (by simp [Admitted.input, registrationInput]) rfl
  | registerDelegation id delegation hnew hlineage =>
      have hid : id = delegationId P delegation := by
        simp only [Admitted.Checked, checkRegisterDelegation, bind_eq_ok, pure_eq_ok,
          Except.ok.injEq] at hchecked
        obtain ⟨-, -, -, -, _, -, _, -, -, -, hid⟩ := hchecked
        exact hid.symm
      subst hid
      have hsequence : row.sequence = accepted.sequence := by
        rw [happended.accepted_eq]
      have himported : importedDelegation P row =
          some (delegationRow P (delegationId P delegation) delegation row.sequence) := by
        have hregistered : row.kind = "delegation_registered" := hkind
        unfold importedDelegation
        rw [if_pos hregistered, hjson]
        simp [Admitted.input, delegationInput, SessionDelegation.ofJson_canon]
      unfold DelegationsLogged
      rw [hcommitted.events, List.filterMap_append, hauthority, List.map_append, ← h]
      simp only [List.filterMap_cons, himported, List.filterMap_nil, List.map_cons,
        List.map_nil, hsequence]
      rfl
  | revokeDelegation revocation owner =>
      exact hother (by simp [Admitted.input, revocationInput]) (map_revokeWhere _ _ _)
  | rotateLineageKey rotation lineage =>
      refine hother (by simp [Admitted.input, rotationInput]) ?_
      simp only
      split
      · exact map_revokeWhere _ _ _
      · rfl
  | appendContribution lineageId contribution =>
      exact hother (contribution_kind_ne contribution.kind) rfl
  | appendAcknowledgement lineageId acknowledgement =>
      exact hother (by simp [Admitted.input, acknowledgementInput]) rfl

/-- A transaction which logs another kind of event and leaves the authority
tables alone. -/
theorem DelegationsLogged.append {db next : Db} {row : EventRow}
    (h : DelegationsLogged P db) (hevents : next.events = db.events ++ [row])
    (hauthority : next.authority = db.authority)
    (hkind : row.kind ≠ "delegation_registered") : DelegationsLogged P next := by
  unfold DelegationsLogged
  rw [hevents, List.filterMap_append, hauthority, ← h]
  simp [importedDelegation_of_kind hkind]

/-- What an importer finds for a delegation of the table. -/
theorem DelegationsLogged.delegation? {db : Db} (h : DelegationsLogged P db)
    {id : String} {row : LocalDelegationRow} (hrow : db.delegation? id = some row) :
    (importedDelegations P db.events).delegation? id = some row.unrevoked := by
  have htest : ((fun row : DelegationRow => row.delegationId == id) ∘
      LocalDelegationRow.unrevoked) = fun row => row.delegationId == id := rfl
  unfold Db.delegation? at hrow
  unfold OriginTables.delegation? importedDelegations
  simp only
  rw [h, List.find?_map, htest, hrow]
  rfl

/-! ## The checks of one call -/

theorem validateAuthoredTimeAt_truncate {createdAt t : ℤ} :
    validateAuthoredTimeAt createdAt (truncateToMillis t) = .ok () ↔
      ceilToMillis (createdAt - clockSkew) ≤ t := by
  unfold validateAuthoredTimeAt
  rw [rejectIf_eq_ok, not_lt, ← le_truncateToMillis_iff]
  constructor <;> intro h <;> omega

theorem validateDelegationAt_truncate {delegation : SessionDelegation} {checkedAt t : ℤ}
    (h : validateDelegationAt P delegation checkedAt = .ok ()) :
    validateDelegationAt P delegation (truncateToMillis t) = .ok () ↔
      ceilToMillis (delegation.notBefore - clockSkew) ≤ t := by
  unfold validateDelegationAt at h ⊢
  simp only [bind_eq_ok, rejectIf_eq_ok, not_lt, pure_eq_ok, and_true, gt_iff_lt] at h ⊢
  obtain ⟨⟨⟩, hnonce, ⟨⟩, hscopes, ⟨⟩, hdistinct, ⟨⟩, hexpiry, ⟨⟩, hlifetime, ⟨⟩, -, key,
    hkey⟩ := h
  rw [← le_truncateToMillis_iff]
  constructor
  · rintro ⟨-, -, -, -, -, -, -, -, -, -, -, hstart, -⟩
    omega
  · intro hstart
    exact ⟨(), hnonce, (), hscopes, (), hdistinct, (), hexpiry, (), hlifetime, (),
      by omega, key, hkey⟩

theorem validateAuthorityChangeAt_truncate {nonce reason : String}
    {createdAt checkedAt t : ℤ}
    (h : validateAuthorityChangeAt nonce reason createdAt checkedAt = .ok ()) :
    validateAuthorityChangeAt nonce reason createdAt (truncateToMillis t) = .ok () ↔
      ceilToMillis (createdAt - clockSkew) ≤ t := by
  unfold validateAuthorityChangeAt at h ⊢
  simp only [bind_eq_ok] at h ⊢
  obtain ⟨⟨⟩, hnonce, ⟨⟩, hreason, -⟩ := h
  rw [← validateAuthoredTimeAt_truncate]
  constructor
  · rintro ⟨-, -, -, -, htime⟩
    exact htime
  · intro htime
    exact ⟨(), hnonce, (), hreason, htime⟩

/-- What a delegation grants, as the local check reads it. -/
structure Granted (P : Primitives) (row : DelegationRow) (scope : Scope)
    (createdAt expiresAt : ℤ) : Prop where
  expires : P.parseTimestamp row.expiresAt = .ok expiresAt
  granted : ∃ scopes notBefore, storedScopes P row.scopesJson = .ok scopes ∧
    P.parseTimestamp row.notBefore = .ok notBefore ∧ scope ∈ scopes ∧
    notBefore ≤ createdAt ∧ createdAt ≤ expiresAt

theorem authorizeDelegation_eq_ok {id : String} {scope : Scope} {createdAt acceptedAt : ℤ}
    {db : Db} {view : DelegationView}
    (h : authorizeDelegation P id scope createdAt acceptedAt db = .ok view) :
    ∃ row expiresAt, db.delegation? id = some row ∧ row.revokedSequence = none ∧
      Granted P row.toDelegationRow scope createdAt expiresAt ∧
      view.lineageId = row.lineageId ∧ view.sessionPublicKey = row.sessionPublicKey := by
  unfold authorizeDelegation Db.delegation at h
  simp only [bind_eq_ok, okOr_eq_ok, rejectIf_eq_ok, pure_eq_ok, Except.ok.injEq, not_or,
    not_lt, not_not, Bool.not_eq_true, gt_iff_lt] at h
  obtain ⟨_, ⟨row, hrow, scopes, hscopes, notBefore, hnotBefore, expiresAt, hexpiresAt,
    rfl⟩, -, hactive, -, ⟨hstart, hend⟩, -, -, -, -, -, hscope, rfl⟩ := h
  refine ⟨row, expiresAt, hrow, by simpa using hactive, ⟨hexpiresAt, scopes, notBefore,
    hscopes, hnotBefore, hscope, hstart, hend⟩, rfl, rfl⟩

/-- An importer which holds the delegation differs from the node only in the
instant which it compares with the expiry. -/
theorem isOk_authorizeRemoteDelegation {tables : OriginTables} {id : String}
    {row : DelegationRow} {scope : Scope} {createdAt receivedAt expiresAt : ℤ}
    (hrow : tables.delegation? id = some row) (hactive : row.revokedSequence = none)
    (hgranted : Granted P row scope createdAt expiresAt) :
    isOk (authorizeRemoteDelegation P tables id scope createdAt receivedAt) ↔
      receivedAt ≤ expiresAt + clockSkew := by
  obtain ⟨hexpires, scopes, notBefore, hscopes, hnotBefore, hscope, hstart, hend⟩ := hgranted
  unfold authorizeRemoteDelegation
  simp only [hrow, okOr_some, ok_bind, hscopes, hnotBefore, hexpires, isOk_bind,
    rejectIf_eq_ok, pure_eq_ok, isOk_ok, and_true, hactive, hscope, ne_eq,
    not_true_eq_false, false_or, or_false, not_or, not_lt, exists_const, gt_iff_lt]
  constructor
  · exact fun h => h.2.2
  · exact fun h => ⟨hstart, hend, h⟩

/-- The instants of a logged delegation are whole milliseconds. -/
theorem DelegationsLogged.truncate_expiresAt {db : Db} (h : DelegationsLogged P db)
    {id : String} {row : LocalDelegationRow} (hrow : db.delegation? id = some row)
    {expiresAt : ℤ} (hexpires : P.parseTimestamp row.expiresAt = .ok expiresAt) :
    truncateToMillis expiresAt = expiresAt := by
  have hmem : row.unrevoked ∈ db.events.filterMap (importedDelegation P) := by
    rw [h]
    exact List.mem_map_of_mem (List.mem_of_find?_eq_some hrow)
  obtain ⟨event, -, himported⟩ := List.mem_filterMap.mp hmem
  unfold importedDelegation at himported
  split at himported
  · simp only [Option.bind_eq_bind, Option.bind_eq_some_iff, Option.pure_def,
      Option.some.injEq] at himported
    obtain ⟨canonical, -, delegation, -, hdelegation⟩ := himported
    have htext : row.expiresAt = P.timestamp delegation.expiresAt :=
      (congrArg DelegationRow.expiresAt hdelegation).symm
    rw [htext] at hexpires
    have hyear := (P.isOk_parseTimestamp_timestamp delegation.expiresAt).mp ⟨_, hexpires⟩
    rw [P.parseTimestamp_timestamp hyear, Except.ok.injEq] at hexpires
    rw [← hexpires, truncateToMillis_idem]
  · cases himported

/-- The checks on the delegation of a logged contribution or acknowledgement
pass exactly when the call was logged in time. -/
theorem delegated_timeChecks {seen db : Db} (hlogged : DelegationsLogged P db)
    (hkept : seen.AuthorityKept db) {id : String} {scope : Scope}
    {createdAt checkedAt : ℤ} {view : DelegationView}
    (hcheck : authorizeDelegation P id scope createdAt checkedAt seen = .ok view)
    (appendedAt : ℤ) :
    (validateAuthoredTimeAt createdAt (truncateToMillis appendedAt) = .ok () ∧
      isOk (authorizeRemoteDelegation P (importedDelegations P db.events) id scope createdAt
        (truncateToMillis appendedAt))) ↔
    (ceilToMillis (createdAt - clockSkew) ≤ appendedAt ∧
      ∀ row, db.delegation? id = some row →
      ∀ expiresAt, P.parseTimestamp row.expiresAt = .ok expiresAt →
        appendedAt < expiresAt + clockSkew + nanosPerMilli) := by
  obtain ⟨seenRow, expiresAt, hseen, -, hgranted, -, -⟩ := authorizeDelegation_eq_ok hcheck
  obtain ⟨revoked, hrow⟩ := hkept.delegation id seenRow hseen
  have hwhole := hlogged.truncate_expiresAt hrow hgranted.expires
  -- The rows of the two tables differ in the revocation only.
  have hremote : isOk (authorizeRemoteDelegation P (importedDelegations P db.events) id
      scope createdAt (truncateToMillis appendedAt)) ↔
      truncateToMillis appendedAt ≤ expiresAt + clockSkew :=
    isOk_authorizeRemoteDelegation (hlogged.delegation? hrow) rfl
      ⟨hgranted.expires, hgranted.granted⟩
  have hlimit : truncateToMillis (expiresAt + clockSkew) = expiresAt + clockSkew := by
    rw [← hwhole]
    exact truncateToMillis_add_clockSkew expiresAt
  rw [validateAuthoredTimeAt_truncate, hremote, truncateToMillis_le_iff hlimit]
  refine and_congr_right fun _ => ⟨?_, ?_⟩
  · intro htime row hsome expires hexpires
    rw [hrow] at hsome
    cases hsome
    have hsame := hgranted.expires.symm.trans hexpires
    rw [← Except.ok.inj hsame]
    exact htime
  · intro hall
    exact hall _ hrow expiresAt hgranted.expires

/-- The acknowledgement which is read back may differ in its cursor only. -/
theorem SignedAcknowledgement.same_of_ofJson_canon {x y : SignedAcknowledgement}
    (h : SignedAcknowledgement.ofJson P (P.canon (x.toJson P)) = some y) :
    y.createdAt = x.createdAt ∧ y.delegationId = x.delegationId := by
  simp only [SignedAcknowledgement.toJson, Primitives.canon_object, List.map_cons,
    List.map_nil, canon_dateTime, Primitives.canon_string,
    SignedAcknowledgement.ofJson] at h
  rw [show Serde.fields _ _ = some _ from rfl] at h
  simp only [Serde.required, List.lookup_cons, String.reduceBEq, Option.bind_eq_bind,
    Option.bind_some, dateTimeOfJson_dateTime, Serde.string_string,
    MemoryProvenance.ofJson_canon, Option.pure_def, Option.bind_eq_some_iff,
    Option.some.injEq] at h
  obtain ⟨cursor, -, rfl⟩ := h
  exact ⟨rfl, rfl⟩

theorem remoteReceivedAt_eq_ok {event : OriginEvent} {appendedAt receivedAt : ℤ}
    (hevent : event.receivedAt = P.timestamp appendedAt) :
    remoteReceivedAt P event = .ok receivedAt ↔
      FourDigitYear appendedAt ∧ truncateToMillis appendedAt = receivedAt := by
  unfold remoteReceivedAt
  rw [hevent]
  by_cases hyear : FourDigitYear appendedAt
  · rw [P.parseTimestamp_timestamp hyear, Except.ok.injEq]
    simp [hyear]
  · constructor
    · intro h
      exact absurd ((P.isOk_parseTimestamp_timestamp appendedAt).mp ⟨_, h⟩) hyear
    · exact fun h => absurd h.1 hyear

theorem passesTimeChecks_contribution {before : List EventRow} {event : OriginEvent}
    (kind : ContributionKind) (hkind : event.kind = kind.asStr) :
    PassesTimeChecks P before event ↔
      ∃ receivedAt, remoteReceivedAt P event = .ok receivedAt ∧
        ∀ object, SignedContribution.ofJson P event.canonical = some object →
          validateAuthoredTimeAt object.createdAt receivedAt = .ok () ∧
          isOk (authorizeRemoteDelegation P (importedDelegations P before)
            object.delegationId object.kind.requiredScope object.createdAt
            receivedAt) := by
  unfold PassesTimeChecks
  rw [hkind]
  cases kind <;> rfl

/-- The event of a call which was logged in time passes the checks of an
importer. -/
theorem PendingCall.Timely.passesTimeChecks {call : PendingCall} {db next : Db}
    {appendedAt : ℤ} {row : EventRow} {accepted : AcceptedObject} {event : OriginEvent}
    (htimely : call.Timely P db appendedAt) (hsound : call.Sound P db)
    (hlogged : DelegationsLogged P db)
    (hcommitted : Committed P identity call.admitted appendedAt db row accepted next)
    (hevent : originEvent P row = .ok event) :
    PassesTimeChecks P db.events event := by
  obtain ⟨hyear, hauthored, hexpiry⟩ := htimely
  obtain ⟨logged, happended, -⟩ := hcommitted.appended
  obtain ⟨hchecked, hkept⟩ := hsound
  obtain ⟨admitted, checkedAt, seen⟩ := call
  have hreceived : event.receivedAt = P.timestamp appendedAt →
      remoteReceivedAt P event = .ok (truncateToMillis appendedAt) := fun htext =>
    (remoteReceivedAt_eq_ok htext).mpr ⟨hyear, rfl⟩
  cases admitted with
  | registerLineage lineageId registration =>
      obtain ⟨-, -, hkind, -, -, -, htext, hcanonical⟩ :=
        happended.originEvent_eq (registration.toJson P) rfl hevent
      simp only [PassesTimeChecks, hkind, hcanonical, Admitted.input, registrationInput,
        LineageRegistration.ofJson_canon, Option.some.injEq, forall_eq']
      exact ⟨_, hreceived htext, validateAuthoredTimeAt_truncate.mpr hauthored⟩
  | registerDelegation id delegation =>
      obtain ⟨-, -, hkind, -, -, -, htext, hcanonical⟩ :=
        happended.originEvent_eq (delegation.toJson P) rfl hevent
      simp only [Admitted.Checked, checkRegisterDelegation, bind_eq_ok] at hchecked
      obtain ⟨-, -, ⟨⟩, hdelegation, -⟩ := hchecked
      simp only [PassesTimeChecks, hkind, hcanonical, Admitted.input, delegationInput,
        SessionDelegation.ofJson_canon, Option.some.injEq, forall_eq']
      exact ⟨_, hreceived htext, (validateDelegationAt_truncate hdelegation).mpr hauthored⟩
  | revokeDelegation revocation =>
      obtain ⟨-, -, hkind, -, -, -, htext, hcanonical⟩ :=
        happended.originEvent_eq (revocation.toJson P) rfl hevent
      simp only [Admitted.Checked, checkRevokeDelegation, bind_eq_ok] at hchecked
      obtain ⟨-, -, ⟨⟩, hchange, -⟩ := hchecked
      simp only [PassesTimeChecks, hkind, hcanonical, Admitted.input, revocationInput,
        DelegationRevocation.ofJson_canon, Option.some.injEq, forall_eq']
      exact ⟨_, hreceived htext,
        (validateAuthorityChangeAt_truncate hchange).mpr hauthored⟩
  | rotateLineageKey rotation =>
      obtain ⟨-, -, hkind, -, -, -, htext, hcanonical⟩ :=
        happended.originEvent_eq (rotation.toJson P) rfl hevent
      simp only [Admitted.Checked, checkRotateLineageKey, bind_eq_ok] at hchecked
      obtain ⟨-, -, ⟨⟩, hchange, -⟩ := hchecked
      simp only [PassesTimeChecks, hkind, hcanonical, Admitted.input, rotationInput,
        SignedKeyRotation.ofJson_canon, Option.some.injEq, forall_eq']
      exact ⟨_, hreceived htext,
        (validateAuthorityChangeAt_truncate hchange).mpr hauthored⟩
  | appendContribution lineageId contribution =>
      obtain ⟨-, -, hkind, -, -, -, htext, hcanonical⟩ :=
        happended.originEvent_eq (contribution.toJson P) rfl hevent
      obtain ⟨store, hcheck⟩ := hchecked
      simp only [checkContribution, bind_eq_ok] at hcheck
      obtain ⟨-, -, -, -, -, -, view, hauthorize, -⟩ := hcheck
      simp only [passesTimeChecks_contribution contribution.kind hkind, hcanonical,
        SignedContribution.ofJson_canon, Option.some.injEq, forall_eq']
      exact ⟨_, hreceived htext, (delegated_timeChecks hlogged hkept hauthorize
        appendedAt).mpr ⟨hauthored, hexpiry _ rfl⟩⟩
  | appendAcknowledgement lineageId acknowledgement =>
      obtain ⟨-, -, hkind, -, -, -, htext, hcanonical⟩ :=
        happended.originEvent_eq (acknowledgement.toJson P) rfl hevent
      simp only [Admitted.Checked, checkAcknowledgement, bind_eq_ok] at hchecked
      obtain ⟨-, -, -, -, -, -, -, -, view, hauthorize, -⟩ := hchecked
      simp only [PassesTimeChecks, hkind, hcanonical, Admitted.input, acknowledgementInput]
      refine ⟨_, hreceived htext, ?_⟩
      intro object hobject
      obtain ⟨hcreated, hdelegation⟩ := SignedAcknowledgement.same_of_ofJson_canon hobject
      rw [hcreated, hdelegation]
      exact (delegated_timeChecks hlogged hkept hauthorize appendedAt).mpr
        ⟨hauthored, hexpiry _ rfl⟩

/-! ## Every run -/

/-- The kinds which no call logs. -/
def isCollected (kind : String) : Bool :=
  kind == "observation" || kind == "checkpoint_witnessed"

/-- Every event which a call has logged passes the checks of an importer. -/
structure TimesAgree (P : Primitives) (db : Db) : Prop where
  delegations : DelegationsLogged P db
  checks : ∀ before row after event, db.events = before ++ row :: after →
    isCollected row.kind = false → originEvent P row = .ok event →
    PassesTimeChecks P before event

theorem TimesAgree.congr {db next : Db} (h : TimesAgree P db)
    (hevents : next.events = db.events) (hauthority : next.authority = db.authority) :
    TimesAgree P next := by
  refine ⟨?_, by rw [hevents]; exact h.checks⟩
  unfold DelegationsLogged
  rw [hevents, hauthority]
  exact h.delegations

/-- An event of the collector or of an import is not concerned. -/
theorem TimesAgree.append {db next : Db} (h : TimesAgree P db) (row : EventRow)
    (hevents : next.events = db.events ++ [row])
    (hauthority : next.authority = db.authority) (hkind : isCollected row.kind = true) :
    TimesAgree P next := by
  refine ⟨h.delegations.append hevents hauthority ?_, ?_⟩
  · intro hregistered
    rw [hregistered] at hkind
    exact absurd hkind (by decide)
  · intro before other after event hsplit hother hevent
    rw [hevents] at hsplit
    rcases split_append_singleton hsplit with ⟨-, rfl⟩ | ⟨rest, hrest⟩
    · rw [hkind] at hother
      cases hother
    · exact h.checks before other rest event hrest hother hevent

theorem TimesAgree.commit {call : PendingCall} {db next : Db} {appendedAt : ℤ}
    {row : EventRow} {accepted : AcceptedObject} (h : TimesAgree P db)
    (hsound : call.Sound P db) (htimely : call.Timely P db appendedAt)
    (hcommitted : Committed P identity call.admitted appendedAt db row accepted next) :
    TimesAgree P next := by
  refine ⟨h.delegations.commit hsound.checked hcommitted, ?_⟩
  intro before other after event hsplit hother hevent
  rw [hcommitted.events] at hsplit
  rcases split_append_singleton hsplit with ⟨rfl, rfl⟩ | ⟨rest, hrest⟩
  · exact htimely.passesTimeChecks hsound h.delegations hcommitted hevent
  · exact h.checks before other rest event hrest hother hevent

/-- After every run whose calls are logged in time, every event of a call
passes the checks of time of an importer. -/
theorem run_passesTimeChecks (P : Primitives) (identity : NodeIdentity P)
    (actions : List Action)
    (htimely : CommitsMeet P identity (PendingCall.Timely P) actions) :
    ∀ before row after event,
      (NodeState.run P identity actions).db.events = before ++ row :: after →
      isCollected row.kind = false → originEvent P row = .ok event →
      PassesTimeChecks P before event := by
  suffices hagree : TimesAgree P (NodeState.run P identity actions).db from hagree.checks
  induction actions using List.reverseRecOn with
  | nil =>
      refine ⟨rfl, ?_⟩
      intro before row after event hsplit
      cases before <;> cases hsplit
  | append_singleton actions action ih =>
      have hbefore := ih htimely.of_append
      have hpending := run_pendingSound P identity actions
      have hlast := fun index appendedAt call accepted next hindex =>
        htimely actions index appendedAt [] call accepted next hindex
      rw [NodeState.run_append_singleton]
      generalize NodeState.run P identity actions = node at hbefore hpending hlast
      have hsteps := node.step_steps identity action
      generalize node.step P identity action = next at hsteps
      cases hsteps with
      | idle => exact hbefore
      | pend => exact hbefore
      | abort => exact hbefore
      | commit index appendedAt call accepted next hcall hcommit =>
          obtain ⟨row, hcommitted⟩ := Admitted.commit_eq_ok hcommit
          exact hbefore.commit (hpending call (List.mem_of_getElem? hcall))
            (hlast index appendedAt call accepted next rfl hcall hcommit) hcommitted
      | observe sourceId languages feed retrievedAt entry appendedAt canonicalUrl
          observation accepted next hurl hobservation hnew happend =>
          obtain ⟨row, logged, happended, hsame⟩ :=
            (Db.appendObservation_logs identity observation appendedAt hnew _
              happend).appended
          refine hbefore.append row ?_ (Db.appendObservation_authority happend) ?_
          · rw [hsame.events, happended.events]
          · rw [happended.columns.2.1]
            rfl
      | markSourceFetch sourceId success => exact hbefore.congr rfl rfl
      | importBundle bundle observedAt now appendedAt =>
          obtain ⟨hsame, hevents⟩ := importFederationBundle_frame identity bundle observedAt
            now appendedAt node.db
          rcases hevents with hkept | ⟨base, accepted, logged, hbase, happend, hnext⟩
          · exact hbefore.congr hkept hsame.authority
          · obtain ⟨row, happended⟩ := appendEvent_eq_ok happend
            refine hbefore.append row ?_ hsame.authority ?_
            · simp only [hnext, happended.events, hbase]
            · rw [happended.columns.2.1]
              rfl

end

namespace Sample

theorem timely_firstRegistration (lineageId : String) (seen db : Db) :
    PendingCall.Timely library ⟨.registerLineage lineageId firstRegistration, 0, seen⟩
      db 0 := by
  have hcreated : ceilToMillis (firstRegistration.createdAt - clockSkew) ≤ 0 := by decide
  refine ⟨by decide, hcreated, ?_⟩
  intro id hid
  cases hid

instance logs_firstRegistration : Fact (
    (NodeState.run library origin
      (atOnce (.registerLineage firstRegistration) 0)).db.events.length = 1 ∧
    ∀ row ∈ (NodeState.run library origin
        (atOnce (.registerLineage firstRegistration) 0)).db.events,
      isOk (originEvent library row) ∧ isCollected row.kind = false) :=
  ⟨by decide +kernel⟩

theorem run_passesTimeChecks_firstRegistration :
    ∃ row event,
      (NodeState.run library origin (atOnce (.registerLineage firstRegistration) 0)).db.events
        = [row] ∧
      originEvent library row = .ok event ∧ PassesTimeChecks library [] event := by
  obtain ⟨hlength, hfacts⟩ := logs_firstRegistration.out
  obtain ⟨row, hrow⟩ := List.length_eq_one_iff.mp hlength
  obtain ⟨⟨event, hevent⟩, hkind⟩ := hfacts row (by rw [hrow]; exact List.mem_singleton_self row)
  have hmeet : CommitsMeet library origin (PendingCall.Timely library)
      (atOnce (.registerLineage firstRegistration) 0) := by
    rw [← List.nil_append (atOnce _ _)]
    refine CommitsMeet.atOnce .nil rfl ?_
    intro admitted hcheck
    simp only [Call.check, bind_eq_ok, pure_eq_ok, Except.ok.injEq] at hcheck
    obtain ⟨lineageId, -, rfl⟩ := hcheck
    exact timely_firstRegistration lineageId _ _
  exact ⟨row, event, hrow, hevent, run_passesTimeChecks library origin _ hmeet [] row []
    event hrow hkind hevent⟩

/-- A registration from the last nanosecond in which the node accepts it at the
instant one. -/
def earlyRegistration : LineageRegistration :=
  registration [2] "First" "0123456789abcdef" (clockSkew + 1)

instance logs_earlyRegistration : Fact (
    (NodeState.run library origin
      (atOnce (.registerLineage earlyRegistration) 1)).db.events.length = 1 ∧
    ∀ row ∈ (NodeState.run library origin
        (atOnce (.registerLineage earlyRegistration) 1)).db.events,
      isOk (originEvent library row) ∧ ∀ event ∈ (originEvent library row).toOption,
        event.kind = "lineage_registered" ∧ remoteReceivedAt library event = .ok 0 ∧
        LineageRegistration.ofJson library event.canonical = some earlyRegistration) :=
  ⟨by decide +kernel⟩

/-- The node accepts and logs the registration, and an importer finds that it
was written before its time. -/
theorem run_fails_timeChecks :
    ∃ row event,
      (NodeState.run library origin (atOnce (.registerLineage earlyRegistration) 1)).db.events
        = [row] ∧
      originEvent library row = .ok event ∧ ¬ PassesTimeChecks library [] event := by
  obtain ⟨hlength, hfacts⟩ := logs_earlyRegistration.out
  obtain ⟨row, hrow⟩ := List.length_eq_one_iff.mp hlength
  obtain ⟨⟨event, hevent⟩, hfact⟩ := hfacts row (by rw [hrow]; exact List.mem_singleton_self row)
  rw [hevent] at hfact
  obtain ⟨hkind, hreceived, hobject⟩ := hfact event rfl
  refine ⟨row, event, hrow, hevent, ?_⟩
  unfold PassesTimeChecks
  rw [hkind]
  rintro ⟨receivedAt, hreceivedAt, hchecks⟩
  rw [hreceived] at hreceivedAt
  cases hreceivedAt
  exact absurd (hchecks _ hobject) (by decide)

end Sample

end Commonwake
