import Commonwake.LocalLog

/-!
# What the calls do to the authority tables

One inversion for the transactions of all calls: which event was logged, and
what became of the lineages, their keys, the delegations and the
acknowledgements.  A row of these tables never disappears, and only the key
of a lineage and the revocation of a delegation ever change.
-/

namespace Commonwake

open Outcome Table HashChain

section

variable (P : Primitives)

/-- The rows which a registration adds. -/
def registeredLineage (lineageId : String) (registration : LineageRegistration)
    (sequence : ℤ) : LineageRow where
  lineageId := lineageId
  displayName := registration.displayName
  publicKey := registration.publicKey
  createdAt := P.timestamp registration.createdAt
  registeredSequence := sequence

def registeredKey (lineageId : String) (registration : LineageRegistration)
    (sequence : ℤ) : LineageKeyRow :=
  ⟨lineageId, 0, registration.publicKey, sequence, none⟩

/-- The row which a delegation adds. -/
def registeredDelegation (id : String) (delegation : SessionDelegation)
    (sequence : ℤ) : LocalDelegationRow :=
  { delegationRow P id delegation sequence with nonce := delegation.nonce }

/-- The delegations of which the condition holds are revoked. -/
def revokeWhere (condition : LocalDelegationRow → Bool) (sequence : ℤ) :
    List LocalDelegationRow → List LocalDelegationRow :=
  updateWhere (fun row => condition row && row.revokedSequence.isNone)
    fun row => { row with revokedSequence := some sequence }

/-- The key which a rotation adds. -/
def rotatedKey (keys : List LineageKeyRow) (statement : KeyRotationStatement)
    (sequence : ℤ) : LineageKeyRow :=
  ⟨statement.lineageId, (maxKeyVersion keys statement.lineageId).getD (-1) + 1,
    statement.newPublicKey, sequence, none⟩

/-- What the transaction of a call finds in the authority tables, and what it
leaves there. -/
inductive AuthorityEffect (db : Db) (accepted : AcceptedObject) :
    Admitted → AuthorityTables → Prop
  | registerLineage (lineageId : String) (registration : LineageRegistration)
      (hlineage : ∀ row ∈ db.authority.lineages, row.lineageId ≠ lineageId ∧
        row.publicKey ≠ registration.publicKey)
      (hkey : ∀ row ∈ db.authority.lineageKeys,
        row.publicKey ≠ registration.publicKey)
      (hclash : db.authority.lineageKeys.any
        (registeredKey lineageId registration accepted.sequence).clashes = false) :
      AuthorityEffect db accepted (.registerLineage lineageId registration)
        { db.authority with
          lineages := db.authority.lineages ++
            [registeredLineage P lineageId registration accepted.sequence]
          lineageKeys := db.authority.lineageKeys ++
            [registeredKey lineageId registration accepted.sequence] }
  | registerDelegation (id : String) (delegation : SessionDelegation)
      (hnew : db.delegation? id = none) (hlineage : db.lineage? delegation.lineageId ≠ none) :
      AuthorityEffect db accepted (.registerDelegation id delegation)
        { db.authority with
          delegations := db.authority.delegations ++
            [registeredDelegation P id delegation accepted.sequence] }
  | revokeDelegation (revocation : DelegationRevocation) (owner : LocalDelegationRow)
      (howner : db.delegation? revocation.delegationId = some owner)
      (hlineage : owner.lineageId = revocation.lineageId)
      (hactive : owner.revokedSequence = none) :
      AuthorityEffect db accepted (.revokeDelegation revocation)
        { db.authority with
          delegations := revokeWhere
            (fun row => row.delegationId == revocation.delegationId) accepted.sequence
            db.authority.delegations }
  | rotateLineageKey (rotation : SignedKeyRotation) (lineage : LineageRow)
      (hlineage : db.lineage? rotation.statement.lineageId = some lineage)
      (hkey : lineage.publicKey = rotation.statement.previousPublicKey)
      (hnew : ∀ row ∈ db.authority.lineageKeys,
        row.publicKey ≠ rotation.statement.newPublicKey)
      (hother : ∀ row ∈ db.authority.lineages,
        row.publicKey = rotation.statement.newPublicKey →
        row.lineageId = rotation.statement.lineageId)
      (hclash : (closeKeys rotation.statement.lineageId accepted.sequence
        db.authority.lineageKeys).any (rotatedKey db.authority.lineageKeys
          rotation.statement accepted.sequence).clashes = false) :
      AuthorityEffect db accepted (.rotateLineageKey rotation)
        { db.authority with
          lineages := updateWhere
            (fun row => row.lineageId == rotation.statement.lineageId)
            (fun row => { row with publicKey := rotation.statement.newPublicKey })
            db.authority.lineages
          lineageKeys := closeKeys rotation.statement.lineageId accepted.sequence
              db.authority.lineageKeys ++
            [rotatedKey db.authority.lineageKeys rotation.statement accepted.sequence]
          delegations :=
            if rotation.statement.revokeExistingDelegations then
              revokeWhere (fun row => row.lineageId == rotation.statement.lineageId)
                accepted.sequence db.authority.delegations
            else db.authority.delegations }
  | appendContribution (lineageId : String) (contribution : SignedContribution) :
      AuthorityEffect db accepted (.appendContribution lineageId contribution)
        db.authority
  | appendAcknowledgement (lineageId : String) (acknowledgement : SignedAcknowledgement)
      (acknowledgements : List AcknowledgementRow)
      (hhead : acknowledgement.cursor ≤ db.head)
      (hforward : db.lastAcknowledgedCursor lineageId ≤ acknowledgement.cursor) :
      AuthorityEffect db accepted (.appendAcknowledgement lineageId acknowledgement)
        { db.authority with acknowledgements := acknowledgements }

end

section

variable {P : Primitives} {identity : NodeIdentity P}

/-- What the transaction of a call did. -/
structure Committed (P : Primitives) (identity : NodeIdentity P) (admitted : Admitted)
    (appendedAt : ℤ) (db : Db) (row : EventRow) (accepted : AcceptedObject) (next : Db) :
    Prop where
  appended : ∃ logged, Appended P identity (admitted.input P) appendedAt db row accepted
    logged ∧ logged.SameRecords next
  effect : AuthorityEffect P db accepted admitted next.authority

theorem Committed.events {admitted : Admitted} {appendedAt : ℤ} {db next : Db}
    {row : EventRow} {accepted : AcceptedObject}
    (h : Committed P identity admitted appendedAt db row accepted next) :
    next.events = db.events ++ [row] := by
  obtain ⟨logged, happended, hsame⟩ := h.appended
  rw [hsame.events, happended.events]

theorem Db.registerLineage_effect {lineageId : String}
    {registration : LineageRegistration} {now : ℤ} {db next : Db}
    {accepted : AcceptedObject}
    (h : db.registerLineage P identity lineageId registration now =
      .ok (accepted, next)) :
    AuthorityEffect P db accepted (.registerLineage lineageId registration)
      next.authority := by
  unfold Db.registerLineage at h
  simp only [bind_eq_ok, rejectIf_eq_ok, not_or, Bool.not_eq_true, insertNew_eq_ok,
    pure_eq_ok, Except.ok.injEq, Prod.mk.injEq, Prod.exists] at h
  obtain ⟨-, ⟨hlineages, hkeys⟩, accepted', logged, happend, _, ⟨hclash, rfl⟩, rfl, rfl⟩ := h
  obtain ⟨row, hrow⟩ := appendEvent_eq_ok happend
  have hauthority : logged.authority = db.authority := by
    rw [hrow.next_eq]
  simp only [hauthority] at hclash ⊢
  refine .registerLineage lineageId registration ?_ ?_ hclash
  · intro stored hstored
    rw [List.any_eq_false] at hlineages
    simpa using hlineages stored hstored
  · intro stored hstored
    rw [List.any_eq_false] at hkeys
    simpa using hkeys stored hstored

theorem Db.registerDelegation_effect {id : String} {delegation : SessionDelegation}
    {now : ℤ} {db next : Db} {accepted : AcceptedObject}
    (h : db.registerDelegation P identity id delegation now = .ok (accepted, next)) :
    AuthorityEffect P db accepted (.registerDelegation id delegation)
      next.authority := by
  unfold Db.registerDelegation at h
  simp only [bind_eq_ok, rejectIf_eq_ok, not_not, insertNew_eq_ok, pure_eq_ok,
    Except.ok.injEq, Prod.mk.injEq, Prod.exists] at h
  obtain ⟨-, hnew, -, hlineage, accepted', logged, happend, _, ⟨-, rfl⟩, rfl, rfl⟩ := h
  obtain ⟨row, hrow⟩ := appendEvent_eq_ok happend
  have hauthority : logged.authority = db.authority := by
    rw [hrow.next_eq]
  simp only [hauthority]
  exact .registerDelegation id delegation hnew hlineage

theorem Db.revokeDelegation_effect {revocation : DelegationRevocation} {now : ℤ}
    {db next : Db} {accepted : AcceptedObject}
    (h : db.revokeDelegation P identity revocation now = .ok (accepted, next)) :
    AuthorityEffect P db accepted (.revokeDelegation revocation) next.authority := by
  unfold Db.revokeDelegation at h
  simp only [bind_eq_ok, okOr_eq_ok, rejectIf_eq_ok, not_not, pure_eq_ok,
    Except.ok.injEq, Prod.mk.injEq, Prod.exists] at h
  obtain ⟨owner, howner, -, hlineage, -, hactive, accepted', logged, happend, rfl, rfl⟩ := h
  obtain ⟨row, hrow⟩ := appendEvent_eq_ok happend
  have hauthority : logged.authority = db.authority := by
    rw [hrow.next_eq]
  simp only [hauthority]
  exact .revokeDelegation revocation owner howner hlineage hactive

theorem Db.rotateLineageKey_effect {rotation : SignedKeyRotation} {now : ℤ}
    {db next : Db} {accepted : AcceptedObject}
    (h : db.rotateLineageKey P identity rotation now = .ok (accepted, next)) :
    AuthorityEffect P db accepted (.rotateLineageKey rotation) next.authority := by
  unfold Db.rotateLineageKey at h
  simp only [bind_eq_ok, okOr_eq_ok, rejectIf_eq_ok, not_not, insertNew_eq_ok, pure_eq_ok,
    Except.ok.injEq, Prod.mk.injEq, Prod.exists, Bool.not_eq_true] at h
  obtain ⟨lineage, hlineage, -, hkey, -, hnew, accepted', logged, happend, -, hother, _,
    ⟨hclash, rfl⟩, rfl, rfl⟩ := h
  obtain ⟨row, hrow⟩ := appendEvent_eq_ok happend
  have hauthority : logged.authority = db.authority := by
    rw [hrow.next_eq]
  simp only [hauthority] at hclash hother ⊢
  refine .rotateLineageKey rotation lineage hlineage hkey ?_ ?_ hclash
  · intro stored hstored
    rw [List.any_eq_false] at hnew
    simpa using hnew stored hstored
  · intro stored hstored hpublic
    rw [List.any_eq_false] at hother
    simpa [hpublic] using hother stored hstored

theorem Db.appendAcknowledgement_effect {lineageId : String}
    {acknowledgement : SignedAcknowledgement} {now : ℤ} {db next : Db}
    {accepted : AcceptedObject}
    (h : db.appendAcknowledgement P identity lineageId acknowledgement now =
      .ok (accepted, next)) :
    AuthorityEffect P db accepted (.appendAcknowledgement lineageId acknowledgement)
      next.authority := by
  unfold Db.appendAcknowledgement at h
  simp only [bind_eq_ok, rejectIf_eq_ok, not_lt, gt_iff_lt, pure_eq_ok, Except.ok.injEq,
    Prod.mk.injEq, Prod.exists] at h
  obtain ⟨-, hhead, -, hforward, accepted', logged, happend, rfl, rfl⟩ := h
  obtain ⟨row, hrow⟩ := appendEvent_eq_ok happend
  have hauthority : logged.authority = db.authority := by
    rw [hrow.next_eq]
  simp only [hauthority]
  exact .appendAcknowledgement lineageId acknowledgement _ hhead hforward

theorem Db.appendContribution_effect {lineageId : String}
    {contribution : SignedContribution} {now : ℤ} {db next : Db}
    {accepted : AcceptedObject}
    (h : db.appendContribution P identity lineageId contribution now =
      .ok (accepted, next)) :
    AuthorityEffect P db accepted (.appendContribution lineageId contribution)
      next.authority := by
  unfold Db.appendContribution at h
  simp only [bind_eq_ok, pure_eq_ok, Except.ok.injEq, Prod.mk.injEq, Prod.exists] at h
  obtain ⟨-, -, accepted', logged, happend, projected, hproject, rfl, rfl⟩ := h
  obtain ⟨row, hrow⟩ := appendEvent_eq_ok happend
  have honly := logged.applyProjection_onlyProjected lineageId contribution _ _ hproject
  have hauthority : projected.authority = db.authority := by
    rw [honly.authority, hrow.next_eq]
  rw [hauthority]
  exact .appendContribution lineageId contribution

/-- The inversion of the transaction of a call. -/
theorem Admitted.commit_eq_ok {admitted : Admitted} {appendedAt : ℤ} {db next : Db}
    {accepted : AcceptedObject}
    (h : admitted.commit P identity appendedAt db = .ok (accepted, next)) :
    ∃ row, Committed P identity admitted appendedAt db row accepted next := by
  obtain ⟨row, logged, happended, hsame⟩ :=
    (admitted.commit_logs identity appendedAt db _ h).appended
  refine ⟨row, ⟨logged, happended, hsame⟩, ?_⟩
  cases admitted with
  | registerLineage lineageId registration => exact Db.registerLineage_effect h
  | registerDelegation id delegation => exact Db.registerDelegation_effect h
  | revokeDelegation revocation => exact Db.revokeDelegation_effect h
  | rotateLineageKey rotation => exact Db.rotateLineageKey_effect h
  | appendContribution lineageId contribution => exact Db.appendContribution_effect h
  | appendAcknowledgement lineageId acknowledgement =>
      exact Db.appendAcknowledgement_effect h

end

end Commonwake
